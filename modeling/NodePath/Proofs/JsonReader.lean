import NodePath.Dump.Json
import NodePath.Proofs.Utf8
import NodePath.Query.Reader

/-!
# Reading JSON

A text is cut into tokens, and the tokens are read as one value. Blanks may stand between tokens;
quoted texts and numerals are spelled as in queries. Of the fields of a record that have the same
name the last one counts. The writer of JSON texts and this reader know nothing of each other; what
the one writes for a quoted text, the other takes for one token.
-/

namespace NodePath

open NodePath.Text

/-- The values that JSON has. A number is kept as it is spelled. -/
inductive Json where
  | null
  | flag (b : Bool)
  | number (numeral : List Char)
  | text (s : Bytes)
  | list (items : List Json)
  | record (fields : List (Bytes × Json))

inductive JsonToken where
  | openList
  | closeList
  | openRecord
  | closeRecord
  | comma
  | colon
  | null
  | flag (b : Bool)
  | number (numeral : List Char)
  | text (s : Bytes)
deriving DecidableEq, Repr

def JsonToken.ofSign? : Char → Option JsonToken
  | '[' => some .openList
  | ']' => some .closeList
  | '\x7b' => some .openRecord
  | '\x7d' => some .closeRecord
  | ',' => some .comma
  | ':' => some .colon
  | _ => none

/-- The three words. A letter right behind one begins another token, which no value allows there. -/
def readJsonWord : Reader JsonToken
  | 't' :: 'r' :: 'u' :: 'e' :: rest =>
    some (.flag true, (((Fewer.tail 'e' rest).under 'u').under 'r').under 't')
  | 'f' :: 'a' :: 'l' :: 's' :: 'e' :: rest =>
    some (.flag false, ((((Fewer.tail 'e' rest).under 's').under 'l').under 'a').under 'f')
  | 'n' :: 'u' :: 'l' :: 'l' :: rest =>
    some (.null, (((Fewer.tail 'l' rest).under 'l').under 'u').under 'n')
  | _ => none

def readNumeral : Reader (List Char) := fun cs => do
  let (digits, after) ← Query.readDigits cs
  let (fraction, after₂) ← Query.readFraction after.1
  let (exponent, after₃) ← Query.readExponent after₂.1
  return (digits ++ fraction ++ exponent, after.andMaybe (after₂.andMaybe after₃))

def readJsonToken : Reader JsonToken
  | [] => none
  | c :: rest =>
    match JsonToken.ofSign? c with
    | some sign => some (sign, .tail c rest)
    | none =>
      if c = '"' then
        (Query.readQuoted '"' rest).map fun (s, after) => (.text (s.flatMap encode), after.under c)
      else if isAsciiLetter c then readJsonWord (c :: rest)
      else (readNumeral (c :: rest)).map fun (numeral, after) => (.number numeral, after)

/-- The tokens of all of a text. -/
def jsonTokens (cs : List Char) : Option (List JsonToken) :=
  match cs with
  | [] => some []
  | c :: rest =>
    if Query.isQueryBlank c then jsonTokens rest
    else do
      let (token, ⟨after, _⟩) ← readJsonToken (c :: rest)
      let tokens ← jsonTokens after
      return token :: tokens
termination_by cs.length
decreasing_by
  · exact Nat.lt_succ_self _
  · assumption

/-- What is left after some tokens were read. -/
abbrev FewerTokens (ts : List JsonToken) := { rest : List JsonToken // rest.length < ts.length }

mutual

/-- The value that tokens begin with. -/
def readJson (ts : List JsonToken) : Option (Json × FewerTokens ts) :=
  match ts with
  | .null :: rest => some (.null, ⟨rest, Nat.lt_succ_self _⟩)
  | .flag b :: rest => some (.flag b, ⟨rest, Nat.lt_succ_self _⟩)
  | .number numeral :: rest => some (.number numeral, ⟨rest, Nat.lt_succ_self _⟩)
  | .text s :: rest => some (.text s, ⟨rest, Nat.lt_succ_self _⟩)
  | .openList :: .closeList :: rest =>
    some (.list [], ⟨rest, by simp only [List.length_cons]; omega⟩)
  | .openList :: rest => do
    let (items, ⟨after, h⟩) ← readJsonItems rest
    return (.list items, ⟨after, Nat.lt_succ_of_lt h⟩)
  | .openRecord :: .closeRecord :: rest =>
    some (.record [], ⟨rest, by simp only [List.length_cons]; omega⟩)
  | .openRecord :: rest => do
    let (fields, ⟨after, h⟩) ← readJsonFields rest
    return (.record (Table.ofList fields), ⟨after, Nat.lt_succ_of_lt h⟩)
  | _ => none
termination_by (ts.length, 0)

/-- One value or more with commas between them, and the closing bracket. -/
def readJsonItems (ts : List JsonToken) : Option (List Json × FewerTokens ts) := do
  let (item, ⟨rest, h⟩) ← readJson ts
  match rest, h with
  | .closeList :: after, h => return ([item], ⟨after, Nat.lt_of_succ_lt h⟩)
  | .comma :: next, h =>
    have hnext : next.length < ts.length := Nat.lt_of_succ_lt h
    let (items, ⟨after, h'⟩) ← readJsonItems next
    return (item :: items, ⟨after, Nat.lt_trans h' hnext⟩)
  | _, _ => none
termination_by (ts.length, 1)

/-- One field or more with commas between them, and the closing bracket. -/
def readJsonFields (ts : List JsonToken) : Option (List (Bytes × Json) × FewerTokens ts) :=
  match ts with
  | .text name :: .colon :: start => do
    let (value, ⟨rest, h⟩) ← readJson start
    match rest, h with
    | .closeRecord :: after, h =>
      have hafter : after.length < start.length := Nat.lt_of_succ_lt h
      return ([(name, value)], ⟨after, by simp only [List.length_cons]; omega⟩)
    | .comma :: next, h =>
      have hnext : next.length < start.length := Nat.lt_of_succ_lt h
      let (fields, ⟨after, h'⟩) ← readJsonFields next
      return ((name, value) :: fields, ⟨after, by simp only [List.length_cons]; omega⟩)
    | _, _ => none
  | _ => none
termination_by (ts.length, 0)

end

/-- The characters of a text; stray bytes are shown by the replacement character. -/
def shownChars (s : Bytes) : List Char := (glyphs s).map Glyph.shown

/-- The value that a JSON text stands for, if it is one. -/
def Json.ofText? (s : Bytes) : Option Json := do
  let tokens ← jsonTokens (shownChars s)
  match readJson tokens with
  | some (value, ⟨[], _⟩) => some value
  | _ => none

section Quoted

variable {α : Type} {c : Char} {rest : List Char}

/-- A reader takes a value off the front and leaves the rest. -/
def Takes (r : Reader α) (cs : List Char) (v : α) (rest : List Char) : Prop :=
  ∃ h, r cs = some (v, ⟨rest, h⟩)

theorem shownChars_encode (cs : List Char) (more : Bytes) :
    shownChars (cs.flatMap encode ++ more) = cs ++ shownChars more := by
  have hshown : Glyph.shown ∘ Glyph.char = id := rfl
  rw [shownChars, glyphs_flatMap_encode, List.map_append, List.map_map, hshown, List.map_id]
  rfl

theorem hexDigit_digitChar {d : Nat} (h : d < 16) :
    encode d.digitChar = [hexDigit d] ∧ hexDigit? d.digitChar = some d := by
  revert d
  decide

theorem shownChars_hex (n : Nat) (more : Bytes) : shownChars (hex 4 n ++ more) =
    (n / 4096 % 16).digitChar :: (n / 256 % 16).digitChar :: (n / 16 % 16).digitChar ::
      (n % 16).digitChar :: shownChars more := by
  have hdigit : ∀ m, encode (m % 16).digitChar = [hexDigit (m % 16)] := fun m =>
    (hexDigit_digitChar (Nat.mod_lt m (by decide))).1
  have htext : hex 4 n = [(n / 4096 % 16).digitChar, (n / 256 % 16).digitChar,
      (n / 16 % 16).digitChar, (n % 16).digitChar].flatMap encode := by
    simp [hex, hdigit, Nat.div_div_eq_div_mul]
  rw [htext, shownChars_encode]
  rfl

theorem takes_fourHex {n : Nat} (h : n < 0x10000) (more : Bytes) :
    Takes Query.readFourHex (shownChars (hex 4 n ++ more)) n (shownChars more) := by
  have hdigit : ∀ m, hexDigit? (m % 16).digitChar = some (m % 16) := fun m =>
    (hexDigit_digitChar (Nat.mod_lt m (by decide))).2
  have hvalue : ((n / 4096 % 16 * 16 + n / 256 % 16) * 16 + n / 16 % 16) * 16 + n % 16 = n := by
    omega
  have hnumber : hexNumber? [(n / 4096 % 16).digitChar, (n / 256 % 16).digitChar,
      (n / 16 % 16).digitChar, (n % 16).digitChar] = some n := by
    simp [hexNumber?, hdigit, hvalue]
  rw [shownChars_hex]
  refine ⟨by simp only [List.length_cons]; omega, ?_⟩
  rw [Query.readFourHex, hnumber]
  rfl

/-- No character is half of a surrogate pair. -/
theorem takes_unicodeEscape (hc : c.toNat < 0x10000) (more : Bytes) :
    Takes Query.readUnicodeEscape (shownChars (hex 4 c.toNat ++ more)) c (shownChars more) := by
  obtain ⟨h, hhex⟩ := takes_fourHex hc more
  have hscalar := toNat_scalar c
  have hpair : (decide (0xD800 ≤ c.toNat) && decide (c.toNat < 0xDC00)) = false := by
    simp only [Bool.and_eq_false_iff, decide_eq_false_iff_not]
    omega
  have hvalid : c.toNat.isValidChar := c.valid
  have hchar : charOfNat? c.toNat = some c := by
    rw [charOfNat?, if_pos hvalid, Char.ofNat_toNat]
  refine ⟨h, ?_⟩
  rw [Query.readUnicodeEscape, hhex]
  simp only [Option.bind_eq_bind, Option.bind_some, hpair, hchar]
  rfl

theorem takes_plainChar (hc : 0x20 ≤ c.toNat) (hslash : c ≠ '\\') :
    Takes (Query.readQuotedChar '"') (c :: rest) c rest := by
  refine ⟨Nat.lt_succ_self _, ?_⟩
  unfold Query.readQuotedChar
  dsimp only
  rw [if_neg (Nat.not_lt.mpr hc), if_pos hslash]
  rfl

theorem takes_escapedLetter {letter : Char} (h : Query.escapedLetter? '"' letter = some c)
    (hletter : letter ≠ 'u') :
    Takes (Query.readQuotedChar '"') ('\\' :: letter :: rest) c rest := by
  have haccept : acceptChar 'u' (letter :: rest) = none := if_neg hletter
  refine ⟨by simp only [List.length_cons]; omega, ?_⟩
  rw [Query.readQuotedChar, if_neg (by decide), if_neg (by decide), haccept]
  dsimp only
  rw [h]
  rfl

theorem takes_escapedUnit (hc : c.toNat < 0x10000) (more : Bytes) :
    Takes (Query.readQuotedChar '"') ('\\' :: 'u' :: shownChars (hex 4 c.toNat ++ more)) c
      (shownChars more) := by
  obtain ⟨h, hunit⟩ := takes_unicodeEscape hc more
  refine ⟨by simp only [List.length_cons]; omega, ?_⟩
  rw [Query.readQuotedChar, if_neg (by decide), if_neg (by decide)]
  show (Query.readUnicodeEscape (shownChars (hex 4 c.toNat ++ more)) >>= fun a => _) = _
  rw [hunit]
  rfl

/-- A text stands for one character between quotes. -/
def Spells (text : Bytes) (c : Char) : Prop :=
  ∀ more, (∃ d tail, d ≠ '"' ∧ shownChars (text ++ more) = d :: tail) ∧
    Takes (Query.readQuotedChar '"') (shownChars (text ++ more)) c (shownChars more)

theorem spells_escapedLetter {letter : Char} (h : Query.escapedLetter? '"' letter = some c)
    (hletter : letter ≠ 'u') : Spells (['\\', letter].flatMap encode) c := by
  intro more
  rw [shownChars_encode]
  exact ⟨⟨'\\', _, by decide, rfl⟩, takes_escapedLetter h hletter⟩

theorem spells_unit (hc : c.toNat < 0x10000) : Spells (utf8 "\\u" ++ hex 4 c.toNat) c := by
  intro more
  have htext : shownChars (utf8 "\\u" ++ hex 4 c.toNat ++ more) =
      '\\' :: 'u' :: shownChars (hex 4 c.toNat ++ more) := by
    rw [List.append_assoc]
    exact shownChars_encode ['\\', 'u'] _
  rw [htext]
  exact ⟨⟨'\\', _, by decide, rfl⟩, takes_escapedUnit hc more⟩

theorem spells_plain (hc : 0x20 ≤ c.toNat) (hquote : c ≠ '"') (hslash : c ≠ '\\') :
    Spells (encode c) c := by
  intro more
  have htext : shownChars (encode c ++ more) = c :: shownChars more := by
    have hone := shownChars_encode [c] more
    rwa [List.flatMap_singleton] at hone
  rw [htext]
  exact ⟨⟨c, _, hquote, rfl⟩, takes_plainChar hc hslash⟩

/-- Whatever way a character is written, it is read back. -/
theorem spells_jsonChar (c : Char) : Spells (jsonChar c) c := by
  unfold jsonChar
  split
  case h_8 hquote hslash _ _ _ _ _ =>
    split
    · next hescaped =>
      apply spells_unit
      rcases hescaped with hcontrol | rfl | rfl | rfl | hline | hline
      · omega
      · decide
      · decide
      · decide
      · omega
      · omega
    · next hplain => exact spells_plain (by omega) hquote hslash
  all_goals exact spells_escapedLetter (by decide) (by decide)

theorem takes_quoted (cs : List Char) (more : Bytes) :
    Takes (Query.readQuoted '"') (shownChars (cs.flatMap jsonChar ++ (utf8 "\"" ++ more))) cs
      (shownChars more) := by
  induction cs with
  | nil =>
    have htext : shownChars (utf8 "\"" ++ more) = '"' :: shownChars more :=
      shownChars_encode ['"'] more
    rw [List.flatMap_nil, List.nil_append, htext]
    refine ⟨Nat.lt_succ_self _, ?_⟩
    rw [Query.readQuoted]
    rfl
  | cons c cs ih =>
    obtain ⟨⟨d, tail, hd, htext⟩, hchar, hc⟩ :=
      spells_jsonChar c (cs.flatMap jsonChar ++ (utf8 "\"" ++ more))
    obtain ⟨hrest, hcs⟩ := ih
    rw [List.flatMap_cons, List.append_assoc]
    refine ⟨Nat.lt_trans hrest hchar, ?_⟩
    have hopen : acceptChar '"' (shownChars (jsonChar c ++ (cs.flatMap jsonChar ++
        (utf8 "\"" ++ more)))) = none := by
      rw [htext]
      exact if_neg hd
    rw [Query.readQuoted, hopen]
    dsimp only
    rw [hc]
    show (Query.readQuoted '"' _ >>= fun a => _) = _
    rw [hcs]
    rfl

end Quoted

section Lexing

variable {a b : Bytes} {ts us : List JsonToken}

/-- A text is cut into some tokens, whatever stands behind it. -/
def Lexes (a : Bytes) (ts : List JsonToken) : Prop :=
  ∀ more, jsonTokens (shownChars (a ++ more)) = (jsonTokens (shownChars more)).map (ts ++ ·)

theorem lexes_nil : Lexes [] [] := fun _ => Option.map_id'.symm

theorem Lexes.append (h : Lexes a ts) (h' : Lexes b us) : Lexes (a ++ b) (ts ++ us) := by
  intro more
  rw [List.append_assoc, h, h', Option.map_map]
  congr 1
  funext vs
  exact (List.append_assoc ..).symm

theorem lexes_blanks {cs : List Char} (h : ∀ c ∈ cs, Query.isQueryBlank c = true) :
    Lexes (cs.flatMap encode) [] := by
  intro more
  rw [shownChars_encode]
  induction cs with
  | nil => exact lexes_nil more
  | cons c cs ih =>
    rw [List.cons_append, jsonTokens, if_pos (h c List.mem_cons_self)]
    exact ih fun d hd => h d (List.mem_cons_of_mem c hd)

/-- No token begins with a blank. -/
theorem readJsonToken_blank {c : Char} (h : Query.isQueryBlank c = true) (rest : List Char) :
    readJsonToken (c :: rest) = none := by
  simp only [Query.isQueryBlank, Bool.or_eq_true, decide_eq_true_eq] at h
  rcases h with ((rfl | rfl) | rfl) | rfl <;> rfl

theorem lexes_token {t : JsonToken}
    (h : ∀ more, Takes readJsonToken (shownChars (a ++ more)) t (shownChars more)) :
    Lexes a [t] := by
  intro more
  obtain ⟨hless, hread⟩ := h more
  generalize shownChars (a ++ more) = cs at hless hread ⊢
  cases cs with
  | nil => exact absurd hless (Nat.not_lt_zero _)
  | cons c rest =>
    have hblank : ¬Query.isQueryBlank c = true := by
      intro hblank
      rw [readJsonToken_blank hblank] at hread
      cases hread
    rw [jsonTokens, if_neg hblank, hread]
    show (jsonTokens (shownChars more) >>= fun tokens => some (t :: tokens)) = _
    cases jsonTokens (shownChars more) <;> rfl

theorem lexes_sign (c : Char) {t : JsonToken} (h : JsonToken.ofSign? c = some t) :
    Lexes (encode c) [t] := by
  refine lexes_token fun more => ?_
  have htext := shownChars_encode [c] more
  rw [List.flatMap_singleton] at htext
  rw [htext]
  refine ⟨Nat.lt_succ_self _, ?_⟩
  show readJsonToken (c :: shownChars more) = _
  rw [readJsonToken, h]
  rfl

theorem lexes_flag (b : Bool) : Lexes (utf8 (if b then "true" else "false")) [.flag b] := by
  refine lexes_token fun more => ?_
  cases b with
  | true =>
    have htext := shownChars_encode ['t', 'r', 'u', 'e'] more
    exact htext ▸ ⟨_, rfl⟩
  | false =>
    have htext := shownChars_encode ['f', 'a', 'l', 's', 'e'] more
    exact htext ▸ ⟨_, rfl⟩

/-- A quoted text is one token. -/
theorem lexes_jsonString {s : Bytes} (h : isWellFormed s = true) :
    Lexes (jsonString s) [.text s] := by
  obtain ⟨cs, rfl⟩ := isWellFormed_iff.mp h
  have hglyphs : (glyphs (cs.flatMap encode)).flatMap jsonGlyph = cs.flatMap jsonChar := by
    rw [glyphs_chars, List.flatMap_map]
    rfl
  refine lexes_token fun more => ?_
  obtain ⟨hless, hread⟩ := takes_quoted cs more
  have htext : shownChars (jsonString (cs.flatMap encode) ++ more) =
      '"' :: shownChars (cs.flatMap jsonChar ++ (utf8 "\"" ++ more)) := by
    rw [jsonString, hglyphs, List.append_assoc, List.append_assoc]
    exact shownChars_encode ['"'] _
  rw [htext]
  refine ⟨Nat.lt_succ_of_lt hless, ?_⟩
  show (Query.readQuoted '"' _).map _ = _
  rw [hread]
  rfl

end Lexing

end NodePath
