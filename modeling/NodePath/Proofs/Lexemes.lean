import Mathlib.Data.Bool.AllAny
import Mathlib.Data.Nat.Init
import NodePath.Proofs.Utf8
import NodePath.Token.Lexer

/-!
# What tokens are written with

Each kind of token has lexemes of its own. A token stands in its source as its lexeme, a literal
between two equal quotes that it does not hold. Whatever the reader of tokens takes is written so.
-/

namespace NodePath

open NodePath.Text NodePath.Number

/-- The encoding of a character that begins a name and of others that continue it. -/
def IsWord (w : Bytes) : Prop :=
  ∃ c cs, isNameStart c = true ∧ (∀ d ∈ cs, isNamePart d = true) ∧ w = (c :: cs).flatMap encode

theorem IsWord.ne_nil {w : Bytes} (h : IsWord w) : w ≠ [] := by
  obtain ⟨c, cs, -, -, rfl⟩ := h
  rw [List.flatMap_cons]
  exact List.append_ne_nil_of_left_ne_nil (encode_ne_nil c) _

theorem IsWord.isWellFormed {w : Bytes} (h : IsWord w) : isWellFormed w = true := by
  obtain ⟨c, cs, -, -, rfl⟩ := h
  exact isWellFormed_iff.mpr ⟨c :: cs, rfl⟩

/-- One or more decimal digits. -/
def IsNumeral (ds : Bytes) : Prop := ds ≠ [] ∧ ∀ d ∈ ds, isDigit d = true

/-- The kinds that are written with one lexeme only, the keywords and comparisons apart. -/
def symbols : List (Kind × Bytes) :=
  [(.slash, utf8 "/"), (.doubleSlash, utf8 "//"), (.dot, utf8 "."), (.doubleDot, utf8 ".."),
   (.colon, utf8 ":"), (.doubleColon, utf8 "::"), (.atSign, utf8 "@"), (.leftParen, utf8 "("),
   (.rightParen, utf8 ")"), (.leftBracket, utf8 "["), (.rightBracket, utf8 "]"), (.bar, utf8 "|"),
   (.equals, utf8 "="), (.plus, utf8 "+"), (.minus, utf8 "-"), (.star, utf8 "*"),
   (.comma, utf8 ","), (.dollar, utf8 "$")]

/-- The comparisons that have a sign. -/
def comparisons : List Comparison := [.less, .lessEqual, .greater, .greaterEqual, .notEqual]

/-- The quotes that delimit literals. -/
def quotes : List Char := ['"', '\'']

/-- `Written k s c w`: a token of the kind `k` with the lexeme `s` and the comparison `c` stands in
its source as `w`. -/
inductive Written : Kind → Bytes → Comparison → Bytes → Prop where
  | keyword {k : Kind} {w : Bytes} : IsWord w → keyword? w = some k → Written k w .absent w
  | name {w : Bytes} : IsWord w → keyword? w = none → Written .name w .absent w
  | functionName {w : Bytes} : IsWord w → keyword? w = none → isNodeType w = false →
      Written .functionName w .absent w
  | nodeType {w : Bytes} : IsWord w → keyword? w = none → isNodeType w = true →
      Written .nodeType w .absent w
  | axisName {w : Bytes} : IsWord w → keyword? w = none → isAxisName w = true →
      Written .axisName w .absent w
  | integer {ds : Bytes} {i : Int} : IsNumeral ds → integer? ds = some i →
      Written .integer ds .absent ds
  | float {ws ds : Bytes} {x : Binary64} : IsNumeral ws → IsNumeral ds →
      float? (ws ++ ascii '.' :: ds) = some x →
      Written .float (ws ++ ascii '.' :: ds) .absent (ws ++ ascii '.' :: ds)
  | literal {s : Bytes} {q : Char} : q ∈ quotes → isWellFormed s = true → ascii q ∉ s →
      Written .stringLiteral s .absent (ascii q :: (s ++ [ascii q]))
  | symbol {k : Kind} {s : Bytes} : (k, s) ∈ symbols → Written k s .absent s
  | comparison {c : Comparison} : c ∈ comparisons → Written .comparison c.symbol c c.symbol

theorem bytesOf_cons (g : Glyph) (gs : List Glyph) :
    bytesOf (g :: gs) = g.bytes ++ bytesOf gs := rfl

theorem bytesOf_append (gs hs : List Glyph) : bytesOf (gs ++ hs) = bytesOf gs ++ bytesOf hs :=
  List.flatMap_append

theorem bytesOf_takeWhile (p : Glyph → Bool) (gs : List Glyph) :
    bytesOf (gs.takeWhile p) ++ bytesOf (gs.dropWhile p) = bytesOf gs := by
  rw [← bytesOf_append, List.takeWhile_append_dropWhile]

/-- What a run of characters of a class is made of. -/
theorem exists_chars_takeWhile (p : Char → Bool) (gs : List Glyph) :
    ∃ cs : List Char, gs.takeWhile (Glyph.satisfies p) = cs.map .char ∧ ∀ c ∈ cs, p c = true := by
  induction gs with
  | nil => exact ⟨[], rfl, by simp⟩
  | cons g gs ih =>
    by_cases hg : g.satisfies p = true
    · obtain ⟨cs, hcs, hall⟩ := ih
      cases g with
      | char c =>
        refine ⟨c :: cs, ?_, ?_⟩
        · rw [List.takeWhile_cons, if_pos hg, hcs]
          rfl
        · intro d hd
          rcases List.mem_cons.mp hd with rfl | hd
          · exact hg
          · exact hall d hd
      | stray b => exact absurd hg Bool.false_ne_true
    · exact ⟨[], by rw [List.takeWhile_cons, if_neg hg]; rfl, by simp⟩

theorem isWord_takeWhile {c : Char} (hc : isNameStart c = true) (after : List Glyph) :
    IsWord (bytesOf (.char c :: after.takeWhile (Glyph.satisfies isNamePart))) := by
  obtain ⟨cs, hcs, hall⟩ := exists_chars_takeWhile isNamePart after
  exact ⟨c, cs, hc, hall, by rw [hcs, ← List.map_cons, bytesOf_chars]⟩

theorem isDigit_iff {b : UInt8} : isDigit b = true ↔ 48 ≤ b.toNat ∧ b.toNat ≤ 57 := by
  simp only [isDigit, Bool.and_eq_true, decide_eq_true_eq, UInt8.le_iff_toNat_le]
  exact Iff.rfl

theorem isNumeralDigit_iff {c : Char} :
    isNumeralDigit c = true ↔ 48 ≤ c.toNat ∧ c.toNat ≤ 57 := by
  simp only [isNumeralDigit, Bool.and_eq_true, decide_eq_true_eq, Char.le_def,
    UInt32.le_iff_toNat_le]
  exact Iff.rfl

theorem isDigit_of_isNumeralDigit {c : Char} (h : isNumeralDigit c = true) :
    c.toNat < 0x80 ∧ isDigit (ascii c) = true := by
  obtain ⟨hlo, hhi⟩ := isNumeralDigit_iff.mp h
  have hc : c.toNat < 0x80 := by omega
  refine ⟨hc, ?_⟩
  rw [isDigit_iff, ascii_toNat hc]
  exact ⟨hlo, hhi⟩

theorem isNumeral_chars {cs : List Char} (hne : cs ≠ []) (h : ∀ c ∈ cs, isNumeralDigit c = true) :
    IsNumeral (cs.flatMap encode) := by
  constructor
  · obtain ⟨c, cs, rfl⟩ := List.exists_cons_of_ne_nil hne
    rw [List.flatMap_cons, encode_ascii (isDigit_of_isNumeralDigit (h c (by simp))).1]
    simp
  · intro d hd
    obtain ⟨c, hc, hd⟩ := List.mem_flatMap.mp hd
    obtain ⟨hascii, hdigit⟩ := isDigit_of_isNumeralDigit (h c hc)
    rw [encode_ascii hascii, List.mem_singleton] at hd
    exact hd ▸ hdigit

theorem isNumeral_takeWhile {c : Char} (hc : isNumeralDigit c = true) (after : List Glyph) :
    IsNumeral (bytesOf (.char c :: after.takeWhile (Glyph.satisfies isNumeralDigit))) := by
  obtain ⟨cs, hcs, hall⟩ := exists_chars_takeWhile isNumeralDigit after
  rw [hcs, ← List.map_cons, bytesOf_chars]
  refine isNumeral_chars (by simp) fun d hd => ?_
  rcases List.mem_cons.mp hd with rfl | hd
  · exact hc
  · exact hall d hd

/-- A lexeme is taken from the front of the glyphs, as a token of its kind is written. -/
def Lexeme.Fits {after : List Glyph} (l : Lexeme after) (g : Glyph) : Prop :=
  ∃ w, Written l.kind l.text l.comparison w ∧ l.width = w.length ∧
    bytesOf (g :: after) = w ++ bytesOf l.rest

/-- All that a lexeme says: its kind, text and comparison, the bytes it takes and what is left. -/
structure Lexeme.Covers {after : List Glyph} (l : Lexeme after) (k : Kind) (x : Bytes)
    (c : Comparison) (width : Nat) (rest : List Glyph) : Prop where
  kind : l.kind = k
  text : l.text = x
  comparison : l.comparison = c
  width : l.width = width
  rest : l.rest = rest

theorem written_wordKind {w : Bytes} (hw : IsWord w) (rest : List Glyph) :
    Written (wordKind w rest) w .absent w := by
  unfold wordKind
  split
  · next k hk => exact .keyword hw hk
  · next hk =>
    split
    · split
      · next ht => exact .nodeType hw hk ht
      · next ht => exact .functionName hw hk (Bool.eq_false_iff.mpr ht)
    · split
      · next ha => exact .axisName hw hk ha
      · exact .name hw hk
    · exact .name hw hk

theorem wordLexeme_fits {c : Char} (hc : isNameStart c = true) (after : List Glyph) :
    (wordLexeme (.char c) after).Fits (.char c) := by
  refine ⟨_, written_wordKind (isWord_takeWhile hc after) _, rfl, ?_⟩
  show bytesOf (.char c :: after) =
    bytesOf (.char c :: after.takeWhile _) ++ bytesOf (after.dropWhile _)
  rw [bytesOf_cons, bytesOf_cons, List.append_assoc, bytesOf_takeWhile]

/-- What a number can be: digits, with a fraction when a point and a digit follow. -/
theorem numberLexeme_cases {g : Glyph} {after : List Glyph} {l : Lexeme after}
    (h : numberLexeme g after = .ok l) :
    (∃ text i, text = bytesOf (g :: after.takeWhile (Glyph.satisfies isNumeralDigit)) ∧
      integer? text = some i ∧
      (∀ d tail, after.dropWhile (Glyph.satisfies isNumeralDigit) = .char '.' :: d :: tail →
        Glyph.satisfies isNumeralDigit d = false) ∧
      l.Covers .integer text .absent text.length
        (after.dropWhile (Glyph.satisfies isNumeralDigit))) ∨
    ∃ d tail text x,
      after.dropWhile (Glyph.satisfies isNumeralDigit) = .char '.' :: d :: tail ∧
      Glyph.satisfies isNumeralDigit d = true ∧
      text = bytesOf (g :: after.takeWhile (Glyph.satisfies isNumeralDigit)) ++
        bytesOf (.char '.' :: d :: tail.takeWhile (Glyph.satisfies isNumeralDigit)) ∧
      float? text = some x ∧
      l.Covers .float text .absent text.length
        (tail.dropWhile (Glyph.satisfies isNumeralDigit)) := by
  have hinteger : ∀ {text rest hrest}, numberLexeme.integer after text rest hrest = .ok l →
      ∃ i, integer? text = some i ∧ l.Covers .integer text .absent text.length rest := by
    intro text rest hrest h
    unfold numberLexeme.integer at h
    split at h
    · cases h
    · next i hi =>
      cases h
      exact ⟨i, hi, rfl, rfl, rfl, rfl, rfl⟩
  unfold numberLexeme at h
  dsimp only at h
  split at h
  · next d tail _ _ hsplit _ =>
    split at h
    · next hd =>
      split at h
      · cases h
      · next x hx =>
        cases h
        exact .inr ⟨d, tail, _, x, hsplit, hd, rfl, hx, rfl, rfl, rfl, rfl, rfl⟩
    · next hd =>
      obtain ⟨i, hi, hl⟩ := hinteger h
      rw [← hsplit] at hl
      refine .inl ⟨_, i, rfl, hi, fun d' tail' heq => ?_, hl⟩
      cases hsplit.symm.trans heq
      exact Bool.eq_false_iff.mpr hd
  · next hle hnot =>
    obtain ⟨i, hi, hl⟩ := hinteger h
    refine .inl ⟨_, i, rfl, hi, fun d tail heq => ?_, hl⟩
    exact absurd heq fun he => hnot _ _ (he ▸ hle) he (proof_irrel_heq _ _)

theorem numberLexeme_fits {c : Char} (hc : isNumeralDigit c = true) {after : List Glyph}
    {l : Lexeme after} (h : numberLexeme (.char c) after = .ok l) : l.Fits (.char c) := by
  rcases numberLexeme_cases h with ⟨_, i, rfl, hi, -, hkind, htext, hcomparison, hwidth, hrest⟩ |
    ⟨d, tail, _, x, hsplit, hd, rfl, hx, hkind, htext, hcomparison, hwidth, hrest⟩
  · refine ⟨_, ?_, hwidth, ?_⟩
    · rw [hkind, htext, hcomparison]
      exact .integer (isNumeral_takeWhile hc after) hi
    · rw [hrest, bytesOf_cons, bytesOf_cons, List.append_assoc, bytesOf_takeWhile]
  · cases d with
    | stray b => exact absurd hd Bool.false_ne_true
    | char d =>
      have hpoint : ∀ gs, bytesOf (.char '.' :: gs) = ascii '.' :: bytesOf gs := fun _ => rfl
      refine ⟨_, ?_, hwidth, ?_⟩
      · rw [hkind, htext, hcomparison]
        exact .float (isNumeral_takeWhile hc after) (isNumeral_takeWhile hd tail) hx
      · rw [hrest, bytesOf_cons, ← bytesOf_takeWhile (Glyph.satisfies isNumeralDigit) after,
          hsplit, hpoint, bytesOf_cons _ tail,
          ← bytesOf_takeWhile (Glyph.satisfies isNumeralDigit) tail]
        simp only [hpoint, bytesOf_cons, List.append_assoc, List.cons_append]

theorem quote_ascii : ∀ q ∈ quotes, q.toNat < 0x80 := List.all_iff_forall_prop.mp (by decide)

theorem bytesOf_closed (quote : Char) (after : List Glyph) {g : Glyph} {rest : List Glyph}
    (h : after.dropWhile (· ≠ .char quote) = g :: rest) :
    bytesOf after =
      bytesOf (after.takeWhile (· ≠ .char quote)) ++ encode quote ++ bytesOf rest := by
  have hg : g = .char quote := by
    have hhead := List.head?_dropWhile_not (p := (· ≠ Glyph.char quote)) (l := after)
    rw [h] at hhead
    simpa using hhead
  rw [← bytesOf_takeWhile (· ≠ .char quote) after, h, hg, bytesOf_cons, List.append_assoc]
  rfl

theorem literalLexeme_fits {q : Char} (hq : q ∈ quotes) {after : List Glyph} {l : Lexeme after}
    (h : literalLexeme q after = .ok l) : l.Fits (.char q) := by
  have hascii := quote_ascii q hq
  unfold literalLexeme at h
  dsimp only at h
  split at h
  · cases h
  · next g rest hsplit =>
    split at h
    · next hchars =>
      cases h
      obtain ⟨cs, hcs⟩ := exists_chars hchars
      have hbytes := bytesOf_closed q after hsplit
      have hnot : q ∉ cs := by
        intro hmem
        have hmem : Glyph.char q ∈ after.takeWhile (· ≠ .char q) := by
          rw [hcs]
          exact List.mem_map_of_mem hmem
        simpa using List.all_eq_true.mp List.all_takeWhile _ hmem
      refine ⟨_, .literal hq (isWellFormed_iff.mpr ⟨cs, ?_⟩) ?_, ?_, ?_⟩
      · rw [hcs, bytesOf_chars]
      · rw [hcs, bytesOf_chars, ascii_mem_flatMap_encode hascii]
        exact hnot
      · simp [widthOf]
      · rw [bytesOf_cons, hbytes, Glyph.bytes, encode_ascii hascii]
        simp
    · cases h

theorem single_fits {k : Kind} {c : Char} (hk : (k, encode c) ∈ symbols)
    (hw : (encode c).length = 1) (after : List Glyph) : (single k c after).Fits (.char c) :=
  ⟨encode c, .symbol hk, hw.symm, rfl⟩

theorem double_fits {k : Kind} {c d : Char} (hk : (k, encode c ++ encode d) ∈ symbols)
    (hw : (encode c ++ encode d).length = 2) (rest : List Glyph) :
    (double k c d (.char d) rest).Fits (.char c) :=
  ⟨encode c ++ encode d, .symbol hk, hw.symm, by simp [bytesOf_cons, double, Glyph.bytes]⟩

theorem single_comparing_fits {c : Char} {cmp : Comparison} (hc : cmp ∈ comparisons)
    (hs : cmp.symbol = encode c) (hw : (encode c).length = 1) (after : List Glyph) :
    ((single .comparison c after).comparing cmp).Fits (.char c) := by
  refine ⟨encode c, ?_, hw.symm, rfl⟩
  have hwritten := Written.comparison hc
  rwa [hs] at hwritten

theorem double_comparing_fits {c d : Char} {cmp : Comparison} (hc : cmp ∈ comparisons)
    (hs : cmp.symbol = encode c ++ encode d) (hw : (encode c ++ encode d).length = 2)
    (rest : List Glyph) :
    ((double .comparison c d (.char d) rest).comparing cmp).Fits (.char c) := by
  refine ⟨encode c ++ encode d, ?_, hw.symm, ?_⟩
  · have hwritten := Written.comparison hc
    rwa [hs] at hwritten
  · simp [bytesOf_cons, Lexeme.comparing, double, Glyph.bytes]

theorem symbolLexeme_fits {c : Char} {after : List Glyph} {l : Lexeme after}
    (h : symbolLexeme c after = .ok l) : l.Fits (.char c) := by
  unfold symbolLexeme at h
  split at h <;> cases h
  all_goals first
    | exact single_fits (by decide) (by decide) _
    | exact double_fits (by decide) (by decide) _
    | exact single_comparing_fits (by decide) (by decide) (by decide) _
    | exact double_comparing_fits (by decide) (by decide) (by decide) _

theorem ok_of_mapError {ε ε' α : Type} {f : ε → ε'} {r : Except ε α} {a : α}
    (h : r.mapError f = .ok a) : r = .ok a := by
  cases r with
  | error e => cases h
  | ok b =>
    cases h
    rfl

theorem error_of_mapError {ε ε' α : Type} {f : ε → ε'} {r : Except ε α} {e : ε'}
    (h : r.mapError f = .error e) : ∃ cause, r = .error cause ∧ e = f cause := by
  cases r with
  | error cause =>
    cases h
    exact ⟨cause, rfl, rfl⟩
  | ok a => cases h

/-- What a lexeme can be, by the character it begins with. -/
theorem lexemeAt_cases {offset : Nat} {g : Glyph} {after : List Glyph} {l : Lexeme after}
    (h : lexemeAt offset g after = .ok l) :
    ∃ c, g = .char c ∧ ((isNameStart c = true ∧ l = wordLexeme (.char c) after) ∨
      (isNumeralDigit c = true ∧ numberLexeme (.char c) after = .ok l) ∨
      (c ∈ quotes ∧ literalLexeme c after = .ok l) ∨ symbolLexeme c after = .ok l) := by
  unfold lexemeAt at h
  split at h
  · cases h
  · next c =>
    refine ⟨c, rfl, ?_⟩
    split at h
    · next hc => exact .inl ⟨hc, (Except.ok.inj h).symm⟩
    · split at h
      · next hc => exact .inr (.inl ⟨hc, ok_of_mapError h⟩)
      · split at h
        · next hc => exact .inr (.inr (.inl ⟨by simpa [quotes] using hc, ok_of_mapError h⟩))
        · exact .inr (.inr (.inr (ok_of_mapError h)))

/-- Every lexeme is written as its kind demands, and nothing of the source is lost. -/
theorem lexemeAt_fits {offset : Nat} {g : Glyph} {after : List Glyph} {l : Lexeme after}
    (h : lexemeAt offset g after = .ok l) : l.Fits g := by
  obtain ⟨c, rfl, ⟨hc, rfl⟩ | ⟨hc, hl⟩ | ⟨hc, hl⟩ | hl⟩ := lexemeAt_cases h
  · exact wordLexeme_fits hc after
  · exact numberLexeme_fits hc hl
  · exact literalLexeme_fits hc hl
  · exact symbolLexeme_fits hl

end NodePath
