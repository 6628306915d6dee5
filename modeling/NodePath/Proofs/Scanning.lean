import NodePath.Proofs.Lexemes

/-!
# Reading tokens piece by piece

A text that is put together from pieces is read piece by piece, as long as what follows each piece
cannot become part of its last token. `Scans` says so for one piece: which texts may follow it, and
which tokens it gives whatever follows. Pieces are joined by `Scans.append`.
-/

namespace NodePath

open NodePath.Text NodePath.Number

/-- Before every text that `follow` admits, the piece `s` is read as tokens of which `P` holds. -/
def Scans (follow : Bytes → Prop) (s : Bytes) (P : List Token → Prop) : Prop :=
  ∀ o rest, follow rest → ∃ ts, P ts ∧
    tokensFrom o (glyphs (s ++ rest)) =
      (tokensFrom (o + s.length) (glyphs rest)).map (ts ++ ·)

/-- A single token with a kind, a lexeme and a comparison. -/
def IsToken (k : Kind) (x : Bytes) (c : Comparison) (ts : List Token) : Prop :=
  ∃ o, ts = [⟨k, x, o, c⟩]

section Scans

variable {f g : Bytes → Prop} {s t : Bytes} {P Q R : List Token → Prop}

theorem map_map_append (r : Except LexError (List Token)) (ts us : List Token) :
    (r.map (us ++ ·)).map (ts ++ ·) = r.map (ts ++ us ++ ·) := by
  cases r with
  | error e => rfl
  | ok vs => simp [Except.map]

theorem Scans.append (h : Scans f s P) (h' : Scans g t Q) (hfollow : ∀ rest, g rest → f (t ++ rest))
    (hjoin : ∀ ts us, P ts → Q us → R (ts ++ us)) : Scans g (s ++ t) R := by
  intro o rest hrest
  obtain ⟨ts, hts, hs⟩ := h o (t ++ rest) (hfollow rest hrest)
  obtain ⟨us, hus, ht⟩ := h' (o + s.length) rest hrest
  refine ⟨ts ++ us, hjoin ts us hts hus, ?_⟩
  rw [List.append_assoc, hs, ht, List.length_append, Nat.add_assoc]
  exact map_map_append ..

theorem Scans.imp (h : Scans f s P) (hPQ : ∀ ts, P ts → Q ts) : Scans f s Q := by
  intro o rest hrest
  obtain ⟨ts, hts, hs⟩ := h o rest hrest
  exact ⟨ts, hPQ ts hts, hs⟩

theorem Scans.before (h : Scans f s P) (hfg : ∀ rest, g rest → f rest) : Scans g s P :=
  fun o rest hrest => h o rest (hfg rest hrest)

theorem map_nil_append (r : Except LexError (List Token)) : r.map ([] ++ ·) = r := by
  cases r <;> rfl

theorem scans_nil (hP : P []) : Scans f [] P := by
  intro o rest _
  refine ⟨[], hP, ?_⟩
  rw [map_nil_append]
  rfl

end Scans

theorem tokensFrom_nil (o : Nat) : tokensFrom o (glyphs []) = .ok [] := by
  rw [glyphs, glyphsAfter, tokensFrom]

theorem tokensFrom_gap {c : Char} (hc : isGap c = true) (o : Nat) (after : List Glyph) :
    tokensFrom o (.char c :: after) = tokensFrom (o + 1) after := by
  rw [tokensFrom, if_pos (show Glyph.satisfies isGap (.char c) = true from hc)]

theorem tokensFrom_lexeme {g : Glyph} (hg : g.satisfies isGap = false) {o : Nat}
    {after : List Glyph} {l : Lexeme after} (hl : lexemeAt o g after = .ok l) :
    tokensFrom o (g :: after) =
      (tokensFrom (o + l.width) l.rest).map (⟨l.kind, l.text, o, l.comparison⟩ :: ·) := by
  rw [tokensFrom, if_neg (Bool.eq_false_iff.mp hg), hl]
  dsimp only
  cases tokensFrom (o + l.width) l.rest <;> rfl

/-- Where no gap stands, the first token is the lexeme there. -/
theorem lexeme_of_tokensFrom {o : Nat} {g : Glyph} {after : List Glyph} {ts : List Token}
    (hg : g.satisfies isGap = false) (h : tokensFrom o (g :: after) = .ok ts) :
    ∃ l us, lexemeAt o g after = .ok l ∧ tokensFrom (o + l.width) l.rest = .ok us ∧
      ts = ⟨l.kind, l.text, o, l.comparison⟩ :: us := by
  rw [tokensFrom, if_neg (by rw [hg]; exact Bool.false_ne_true)] at h
  split at h
  · cases h
  · next l hl =>
    split at h
    · cases h
    · next us hus =>
      cases h
      exact ⟨l, us, hl, hus, rfl⟩

theorem glyphs_ascii {c : Char} (hc : c.toNat < 0x80) (rest : Bytes) :
    glyphs (ascii c :: rest) = .char c :: glyphs rest := by
  have h := glyphs_encode_append c rest
  rwa [encode_ascii hc] at h

/-- A blank gives no token. -/
theorem scans_blank {f : Bytes → Prop} : Scans f (utf8 " ") (· = []) := by
  intro o rest _
  refine ⟨[], rfl, ?_⟩
  rw [map_nil_append]
  show tokensFrom o (glyphs (ascii ' ' :: rest)) = tokensFrom (o + 1) (glyphs rest)
  rw [glyphs_ascii (by decide), tokensFrom_gap (by decide)]

theorem scans_lexeme {f : Bytes → Prop} {c : Char} (hc : isGap c = false) {w x : Bytes} {k : Kind}
    {cmp : Comparison} (h : ∀ o rest, f rest →
      ∃ l : Lexeme (glyphs (w ++ rest)), lexemeAt o (.char c) (glyphs (w ++ rest)) = .ok l ∧
        l.Covers k x cmp (encode c ++ w).length (glyphs rest)) :
    Scans f (encode c ++ w) (IsToken k x cmp) := by
  intro o rest hrest
  obtain ⟨l, hl, rfl, rfl, rfl, hwidth, hrest'⟩ := h o rest hrest
  refine ⟨_, ⟨o, rfl⟩, ?_⟩
  rw [List.append_assoc, glyphs_encode_append, tokensFrom_lexeme (g := .char c) hc hl, hwidth,
    hrest']
  rfl

/-- The text does not begin with a character of a class. -/
def NotBefore (p : Char → Bool) (rest : Bytes) : Prop :=
  ∀ g ∈ (glyphs rest).head?, Glyph.satisfies p g = false

section Runs

variable {p : Char → Bool} {cs : List Char} {rest : Bytes}

theorem satisfies_chars (hcs : ∀ c ∈ cs, p c = true) :
    ∀ g ∈ cs.map Glyph.char, Glyph.satisfies p g = true := by
  intro g hg
  obtain ⟨c, hc, rfl⟩ := List.mem_map.mp hg
  exact hcs c hc

theorem takeWhile_run (hcs : ∀ c ∈ cs, p c = true) (hrest : NotBefore p rest) :
    (cs.map Glyph.char ++ glyphs rest).takeWhile (Glyph.satisfies p) = cs.map .char := by
  have hend : (glyphs rest).takeWhile (Glyph.satisfies p) = [] := by
    cases hgs : glyphs rest with
    | nil => rfl
    | cons g gs =>
      have hg := hrest g (by rw [hgs]; rfl)
      simp [hg]
  rw [List.takeWhile_append_of_pos (satisfies_chars hcs), hend, List.append_nil]

theorem dropWhile_run (hcs : ∀ c ∈ cs, p c = true) (hrest : NotBefore p rest) :
    (cs.map Glyph.char ++ glyphs rest).dropWhile (Glyph.satisfies p) = glyphs rest := by
  rw [List.dropWhile_append_of_pos (satisfies_chars hcs)]
  cases hgs : glyphs rest with
  | nil => rfl
  | cons g gs =>
    have hg := hrest g (by rw [hgs]; rfl)
    simp [hg]

end Runs

/-- A class without the four gaps. -/
theorem isGap_eq_false {p : Char → Bool} (hp : ∀ g ∈ [' ', '\t', '\n', '\r'], p g = false)
    {c : Char} (h : p c = true) : isGap c = false := by
  rw [Bool.eq_false_iff]
  intro hgap
  have hmem : c ∈ [' ', '\t', '\n', '\r'] := by
    simpa [isGap, or_assoc] using hgap
  rw [hp c hmem] at h
  cases h

theorem isGap_of_isNameStart {c : Char} (h : isNameStart c = true) : isGap c = false :=
  isGap_eq_false (List.all_iff_forall_prop.mp (by decide)) h

section WordKind

variable {x : Bytes}

theorem wordKind_keyword {k : Kind} (hx : keyword? x = some k) (gs : List Glyph) :
    wordKind x gs = k := by rw [wordKind, hx]

theorem wordKind_nil (hx : keyword? x = none) : wordKind x [] = .name := by
  rw [wordKind, hx]
  rfl

theorem wordKind_gap {g : Glyph} (hg : g.satisfies isGap = true) (gs : List Glyph) :
    wordKind x (g :: gs) = wordKind x gs := by
  unfold wordKind
  rw [List.dropWhile_cons, if_pos hg]

/-- The kind of a word that is no keyword depends on the next glyph, and behind a colon on the one
after it. -/
theorem wordKind_cons (hx : keyword? x = none) {c : Char} (hc : isGap c = false)
    (gs : List Glyph) : wordKind x (.char c :: gs) =
      if c = '(' then if isNodeType x then .nodeType else .functionName
      else if c = ':' ∧ gs.head? = some (.char ':') then if isAxisName x then .axisName else .name
      else .name := by
  have hdrop : (Glyph.char c :: gs).dropWhile (Glyph.satisfies isGap) = .char c :: gs := by
    rw [List.dropWhile_cons, if_neg (by simp [Glyph.satisfies, hc])]
  unfold wordKind
  rw [hx, hdrop]
  dsimp only
  split
  · next heq =>
    cases heq
    rfl
  · next heq =>
    cases heq
    rfl
  · next hcall haxis =>
    have hcall : c ≠ '(' := by
      rintro rfl
      exact hcall _ rfl
    have haxis : ¬(c = ':' ∧ gs.head? = some (.char ':')) := by
      rintro ⟨rfl, hhead⟩
      obtain ⟨tail, rfl⟩ := List.head?_eq_some_iff.mp hhead
      exact haxis _ rfl
    rw [if_neg hcall, if_neg haxis]

theorem wordKind_congr (x : Bytes) {c : Char} (hc : isGap c = false) {gs gs' : List Glyph}
    (h : c = ':' → (gs.head? = some (.char ':') ↔ gs'.head? = some (.char ':'))) :
    wordKind x (.char c :: gs) = wordKind x (.char c :: gs') := by
  cases hx : keyword? x with
  | some k => rw [wordKind_keyword hx, wordKind_keyword hx]
  | none =>
    have hcolon : (c = ':' ∧ gs.head? = some (.char ':')) ↔
        (c = ':' ∧ gs'.head? = some (.char ':')) := and_congr_right h
    simp only [wordKind_cons hx hc, hcolon]

end WordKind

/-- A word is one token, and what follows it decides between the kinds of words. -/
theorem scans_word {w : Bytes} (hw : IsWord w) (k : Kind) :
    Scans (fun rest => NotBefore isNamePart rest ∧ wordKind w (glyphs rest) = k) w
      (IsToken k w .absent) := by
  obtain ⟨c, cs, hc, hcs, rfl⟩ := hw
  rw [List.flatMap_cons]
  refine scans_lexeme (isGap_of_isNameStart hc) ?_
  rintro o rest ⟨hend, hkind⟩
  refine ⟨wordLexeme (.char c) _, by rw [lexemeAt, if_pos hc], ?_⟩
  have htext : bytesOf (.char c :: (glyphs (cs.flatMap encode ++ rest)).takeWhile
      (Glyph.satisfies isNamePart)) = encode c ++ cs.flatMap encode := by
    rw [glyphs_flatMap_encode, takeWhile_run hcs hend, bytesOf_cons, bytesOf_chars]
    rfl
  have hrest : (glyphs (cs.flatMap encode ++ rest)).dropWhile (Glyph.satisfies isNamePart) =
      glyphs rest := by
    rw [glyphs_flatMap_encode, dropWhile_run hcs hend]
  refine ⟨?_, htext, rfl, congrArg List.length htext, hrest⟩
  show wordKind (bytesOf _) (List.dropWhile _ _) = k
  rw [htext, hrest, ← List.flatMap_cons]
  exact hkind

theorem isNumeralDigit_ofNat {d : UInt8} (h : isDigit d = true) :
    isNumeralDigit (Char.ofNat d.toNat) = true ∧ encode (Char.ofNat d.toNat) = [d] := by
  obtain ⟨hlo, hhi⟩ := isDigit_iff.mp h
  have hnat : (Char.ofNat d.toNat).toNat = d.toNat := toNat_ofNat_scalar (.inl (by omega))
  refine ⟨?_, encode_ofNat_one (by omega)⟩
  rw [isNumeralDigit_iff, hnat]
  exact ⟨hlo, hhi⟩

theorem digits_chars {ds : Bytes} (h : ∀ d ∈ ds, isDigit d = true) :
    ∃ cs : List Char, (∀ c ∈ cs, isNumeralDigit c = true) ∧ ds = cs.flatMap encode := by
  refine ⟨ds.map fun d => Char.ofNat d.toNat, ?_, ?_⟩
  · intro c hc
    obtain ⟨d, hd, rfl⟩ := List.mem_map.mp hc
    exact (isNumeralDigit_ofNat (h d hd)).1
  · induction ds with
    | nil => rfl
    | cons d ds ih =>
      rw [List.map_cons, List.flatMap_cons, (isNumeralDigit_ofNat (h d (by simp))).2,
        ← ih fun e he => h e (by simp [he])]
      rfl

theorem IsNumeral.chars {ds : Bytes} (h : IsNumeral ds) :
    ∃ c cs, isNumeralDigit c = true ∧ (∀ d ∈ cs, isNumeralDigit d = true) ∧
      ds = (c :: cs).flatMap encode := by
  obtain ⟨cs, hcs, rfl⟩ := digits_chars h.2
  cases cs with
  | nil => exact absurd rfl h.1
  | cons c cs => exact ⟨c, cs, hcs c (by simp), fun d hd => hcs d (by simp [hd]), rfl⟩

theorem IsNumeral.isWellFormed {ds : Bytes} (h : IsNumeral ds) : isWellFormed ds = true := by
  obtain ⟨c, cs, -, -, rfl⟩ := h.chars
  exact isWellFormed_iff.mpr ⟨c :: cs, rfl⟩

theorem digit_classes {c : Char} (h : isNumeralDigit c = true) :
    isGap c = false ∧ isNameStart c = false ∧ isNamePart c = true := by
  obtain ⟨hlo, hhi⟩ := isNumeralDigit_iff.mp h
  have hall : ∀ n < 58, 48 ≤ n → isGap (Char.ofNat n) = false ∧
      isNameStart (Char.ofNat n) = false ∧ isNamePart (Char.ofNat n) = true := by decide
  have hc := hall c.toNat (by omega) hlo
  rwa [Char.ofNat_toNat] at hc

theorem lexemeAt_digit {c : Char} (h : isNumeralDigit c = true) (o : Nat) (after : List Glyph) :
    lexemeAt o (.char c) after =
      (numberLexeme (.char c) after).mapError fun cause => ⟨o, cause⟩ := by
  have hname := (digit_classes h).2.1
  rw [lexemeAt, if_neg (by rw [hname]; exact Bool.false_ne_true), if_pos h]

/-- Digits that no fraction follows make up the whole number. -/
theorem numberLexeme_whole {g : Glyph} {after rest : List Glyph}
    (hdrop : after.dropWhile (Glyph.satisfies isNumeralDigit) = rest)
    (hpoint : ∀ d tail, rest = .char '.' :: d :: tail → Glyph.satisfies isNumeralDigit d = false) :
    ∃ hrest, numberLexeme g after = numberLexeme.integer after
      (bytesOf (g :: after.takeWhile (Glyph.satisfies isNumeralDigit))) rest hrest := by
  subst hdrop
  refine ⟨length_dropWhile_le .., ?_⟩
  unfold numberLexeme
  dsimp only
  split
  · next d tail _ _ hsplit _ =>
    rw [hpoint d tail hsplit, if_neg Bool.false_ne_true]
    simp only [hsplit]
  · rfl

theorem numberLexeme_float {g d : Glyph} {after tail : List Glyph}
    (hdrop : after.dropWhile (Glyph.satisfies isNumeralDigit) = .char '.' :: d :: tail)
    (hd : Glyph.satisfies isNumeralDigit d = true) {x : Binary64}
    (hx : float? (bytesOf (g :: after.takeWhile (Glyph.satisfies isNumeralDigit)) ++
      bytesOf (.char '.' :: d :: tail.takeWhile (Glyph.satisfies isNumeralDigit))) = some x) :
    ∃ l, numberLexeme g after = .ok l ∧
      l.Covers .float (bytesOf (g :: after.takeWhile (Glyph.satisfies isNumeralDigit)) ++
          bytesOf (.char '.' :: d :: tail.takeWhile (Glyph.satisfies isNumeralDigit))) .absent
        (bytesOf (g :: after.takeWhile (Glyph.satisfies isNumeralDigit)) ++
          bytesOf (.char '.' :: d :: tail.takeWhile (Glyph.satisfies isNumeralDigit))).length
        (tail.dropWhile (Glyph.satisfies isNumeralDigit)) := by
  unfold numberLexeme
  dsimp only
  split
  · next hsplit _ =>
    rw [hdrop] at hsplit
    cases hsplit
    rw [if_pos hd, hx]
    exact ⟨_, rfl, rfl, rfl, rfl, rfl, rfl⟩
  · next hle hnot =>
    exact absurd hdrop fun he => hnot _ _ (he ▸ hle) he (proof_irrel_heq _ _)

/-- A run of digits in front of anything but a digit or a fraction is the text of an integer. -/
theorem lexemeAt_numeral {c : Char} {cs : List Char} {rest : Bytes} (hc : isNumeralDigit c = true)
    (hcs : ∀ d ∈ cs, isNumeralDigit d = true) (hend : NotBefore isNumeralDigit rest)
    (hpoint : ∀ d tail, glyphs rest = .char '.' :: d :: tail →
      Glyph.satisfies isNumeralDigit d = false) (o : Nat) :
    ∃ hrest, lexemeAt o (.char c) (glyphs (cs.flatMap encode ++ rest)) =
      (numberLexeme.integer _ (encode c ++ cs.flatMap encode) (glyphs rest) hrest).mapError
        fun cause => ⟨o, cause⟩ := by
  have htext : bytesOf (.char c :: (cs.map Glyph.char ++ glyphs rest).takeWhile
      (Glyph.satisfies isNumeralDigit)) = encode c ++ cs.flatMap encode := by
    rw [takeWhile_run hcs hend, bytesOf_cons, bytesOf_chars]
    rfl
  rw [glyphs_flatMap_encode]
  obtain ⟨hrest, hwhole⟩ := numberLexeme_whole (g := .char c) (dropWhile_run hcs hend) hpoint
  rw [htext] at hwhole
  exact ⟨hrest, by rw [lexemeAt_digit hc, hwhole]⟩

/-- A numeral may stand before a point, as long as no digit follows that. -/
theorem scans_numeral {ds : Bytes} (hds : IsNumeral ds) {i : Int} (hi : integer? ds = some i) :
    Scans (fun rest => NotBefore isNumeralDigit rest ∧ ∀ d tail,
        glyphs rest = .char '.' :: d :: tail → Glyph.satisfies isNumeralDigit d = false)
      ds (IsToken .integer ds .absent) := by
  obtain ⟨c, cs, hc, hcs, rfl⟩ := hds.chars
  rw [List.flatMap_cons] at *
  refine scans_lexeme (digit_classes hc).1 ?_
  rintro o rest ⟨hend, hpoint⟩
  obtain ⟨hrest, hl⟩ := lexemeAt_numeral hc hcs hend hpoint o
  rw [hl, numberLexeme.integer, hi]
  exact ⟨_, rfl, rfl, rfl, rfl, rfl, rfl⟩

theorem scans_integer {ds : Bytes} (hds : IsNumeral ds) {i : Int} (hi : integer? ds = some i) :
    Scans (NotBefore fun c => isNumeralDigit c || c = '.') ds (IsToken .integer ds .absent) := by
  refine (scans_numeral hds hi).before fun rest hrest => ⟨fun g hg => ?_, fun d tail hgs => ?_⟩
  · have hg := hrest g hg
    cases g with
    | char c =>
      simp only [Glyph.satisfies, Bool.or_eq_false_iff] at hg
      exact hg.1
    | stray b => rfl
  · have hpoint := hrest (.char '.') (by rw [hgs]; rfl)
    simp [Glyph.satisfies] at hpoint

/-- Where digits, a point and digits stand, the digits before the point and those behind it are the
runs that a number is made of. -/
theorem glyphs_fraction {cs ts : List Char} {d : Char} {rest : Bytes}
    (hcs : ∀ c ∈ cs, isNumeralDigit c = true) (hts : ∀ c ∈ ts, isNumeralDigit c = true)
    (hend : NotBefore isNumeralDigit rest) {after : List Glyph}
    (hafter : after =
      glyphs (cs.flatMap encode ++ ascii '.' :: ((d :: ts).flatMap encode ++ rest))) :
    after.takeWhile (Glyph.satisfies isNumeralDigit) = cs.map .char ∧
    ∃ tail, after.dropWhile (Glyph.satisfies isNumeralDigit) = .char '.' :: .char d :: tail ∧
      tail.takeWhile (Glyph.satisfies isNumeralDigit) = ts.map .char ∧
      tail.dropWhile (Glyph.satisfies isNumeralDigit) = glyphs rest := by
  have hpoint : NotBefore isNumeralDigit (ascii '.' :: ((d :: ts).flatMap encode ++ rest)) := by
    intro g hg
    rw [glyphs_ascii (by decide)] at hg
    cases hg
    decide
  have htail : glyphs (ascii '.' :: ((d :: ts).flatMap encode ++ rest)) =
      .char '.' :: .char d :: (ts.map .char ++ glyphs rest) := by
    rw [glyphs_ascii (by decide), glyphs_flatMap_encode]
    rfl
  rw [hafter, glyphs_flatMap_encode]
  exact ⟨takeWhile_run hcs hpoint, _, (dropWhile_run hcs hpoint).trans htail,
    takeWhile_run hts hend, dropWhile_run hts hend⟩

theorem bytesOf_fraction (c d : Char) (cs ts : List Char) :
    bytesOf (.char c :: cs.map .char) ++ bytesOf (.char '.' :: .char d :: ts.map .char) =
      (c :: cs).flatMap encode ++ ascii '.' :: (d :: ts).flatMap encode := by
  rw [← List.map_cons, ← List.map_cons, bytesOf_chars, bytesOf_cons, bytesOf_chars, Glyph.bytes,
    encode_ascii (by decide)]
  rfl

theorem scans_float {ws ds : Bytes} (hws : IsNumeral ws) (hds : IsNumeral ds) {x : Binary64}
    (hx : float? (ws ++ ascii '.' :: ds) = some x) :
    Scans (NotBefore isNumeralDigit) (ws ++ ascii '.' :: ds)
      (IsToken .float (ws ++ ascii '.' :: ds) .absent) := by
  obtain ⟨c, cs, hc, hcs, rfl⟩ := hws.chars
  obtain ⟨d, ts, hd, hts, rfl⟩ := hds.chars
  rw [List.flatMap_cons, List.append_assoc] at *
  refine scans_lexeme (digit_classes hc).1 ?_
  intro o rest hend
  have hafter : cs.flatMap encode ++ ascii '.' :: (d :: ts).flatMap encode ++ rest =
      cs.flatMap encode ++ ascii '.' :: ((d :: ts).flatMap encode ++ rest) := by simp
  rw [hafter]
  generalize hgs : glyphs (cs.flatMap encode ++ ascii '.' :: ((d :: ts).flatMap encode ++ rest)) =
    after
  obtain ⟨htake, tail, hdrop, htake', hdrop'⟩ := glyphs_fraction hcs hts hend hgs.symm
  have htext : bytesOf (.char c :: after.takeWhile (Glyph.satisfies isNumeralDigit)) ++
      bytesOf (.char '.' :: .char d :: tail.takeWhile (Glyph.satisfies isNumeralDigit)) =
      encode c ++ (cs.flatMap encode ++ ascii '.' :: (d :: ts).flatMap encode) := by
    rw [htake, htake', bytesOf_fraction, List.flatMap_cons, List.append_assoc]
  obtain ⟨l, hl, hcovers⟩ := numberLexeme_float (g := .char c) hdrop hd (htext ▸ hx)
  rw [htext, hdrop'] at hcovers
  exact ⟨l, by rw [lexemeAt_digit hc, hl]; rfl, hcovers⟩

theorem quote_classes : ∀ q ∈ quotes, isGap q = false ∧ isNameStart q = false ∧
    isNumeralDigit q = false ∧ (q = '"' || q = '\'') = true :=
  List.all_iff_forall_prop.mp (by decide)

theorem lexemeAt_quote {q : Char} (hq : q ∈ quotes) (o : Nat) (after : List Glyph) :
    lexemeAt o (.char q) after =
      (literalLexeme q after).mapError fun (ahead, cause) => ⟨o + ahead, cause⟩ := by
  obtain ⟨-, hname, hdigit, hquote⟩ := quote_classes q hq
  rw [lexemeAt, if_neg (by rw [hname]; exact Bool.false_ne_true),
    if_neg (by rw [hdigit]; exact Bool.false_ne_true), if_pos hquote]

theorem literalLexeme_closed {q : Char} {cs : List Char} (hcs : q ∉ cs) (rest : List Glyph) :
    ∃ l, literalLexeme q (cs.map .char ++ .char q :: rest) = .ok l ∧
      l.Covers .stringLiteral (cs.flatMap encode) .absent ((cs.flatMap encode).length + 2)
        rest := by
  have hall : ∀ g ∈ cs.map Glyph.char, decide (g ≠ .char q) = true := by
    intro g hg
    obtain ⟨c, hc, rfl⟩ := List.mem_map.mp hg
    rw [decide_eq_true_eq]
    rintro ⟨⟩
    exact hcs hc
  have htake : (cs.map Glyph.char ++ .char q :: rest).takeWhile (· ≠ .char q) = cs.map .char := by
    rw [List.takeWhile_append_of_pos hall]
    simp
  have hdrop : (cs.map Glyph.char ++ .char q :: rest).dropWhile (· ≠ .char q) =
      .char q :: rest := by
    rw [List.dropWhile_append_of_pos hall]
    simp
  unfold literalLexeme
  dsimp only
  split
  · next hnil =>
    rw [hdrop] at hnil
    cases hnil
  · next hsplit =>
    rw [hdrop] at hsplit
    cases hsplit
    have hchars : ((cs.map Glyph.char ++ .char q :: rest).takeWhile (· ≠ .char q)).all
        Glyph.isChar = true := by
      rw [htake]
      simp [Glyph.isChar]
    have htext : bytesOf ((cs.map Glyph.char ++ .char q :: rest).takeWhile (· ≠ .char q)) =
        cs.flatMap encode := by rw [htake, bytesOf_chars]
    rw [if_pos hchars]
    exact ⟨_, rfl, rfl, htext, rfl, congrArg (fun x => x.length + 2) htext, rfl⟩

/-- A literal may stand before anything. -/
theorem scans_literal {f : Bytes → Prop} {s : Bytes} {q : Char} (hq : q ∈ quotes)
    (hs : isWellFormed s = true) (hnot : ascii q ∉ s) :
    Scans f (ascii q :: (s ++ [ascii q])) (IsToken .stringLiteral s .absent) := by
  obtain ⟨cs, rfl⟩ := isWellFormed_iff.mp hs
  have hascii := quote_ascii q hq
  rw [ascii_mem_flatMap_encode hascii] at hnot
  have hpiece : ascii q :: (cs.flatMap encode ++ [ascii q]) =
      encode q ++ (cs.flatMap encode ++ [ascii q]) := by
    rw [encode_ascii hascii]
    rfl
  rw [hpiece]
  refine scans_lexeme (quote_classes q hq).1 ?_
  intro o rest _
  have hafter : glyphs (cs.flatMap encode ++ [ascii q] ++ rest) =
      cs.map .char ++ .char q :: glyphs rest := by
    rw [List.append_assoc, glyphs_flatMap_encode]
    show _ ++ glyphs (ascii q :: rest) = _
    rw [glyphs_ascii hascii]
  have hwidth : (encode q ++ (cs.flatMap encode ++ [ascii q])).length =
      (cs.flatMap encode).length + 2 := by
    rw [encode_ascii hascii]
    simp
  obtain ⟨l, hl, hcovers⟩ := literalLexeme_closed hnot (glyphs rest)
  rw [hafter, hwidth]
  exact ⟨l, by rw [lexemeAt_quote hq, hl]; rfl, hcovers⟩

/-- A character that begins a symbol. -/
def isSign (c : Char) : Bool :=
  c.toNat < 0x80 && !isGap c && !isNameStart c && !isNumeralDigit c && !(c = '"' || c = '\'')

theorem lexemeAt_sign {c : Char} (hc : isSign c = true) (o : Nat) (after : List Glyph) :
    lexemeAt o (.char c) after = (symbolLexeme c after).mapError fun cause => ⟨o, cause⟩ := by
  simp only [isSign, Bool.and_eq_true, Bool.not_eq_true', decide_eq_true_eq] at hc
  obtain ⟨⟨⟨-, hname⟩, hdigit⟩, hquote⟩ := hc
  rw [lexemeAt, if_neg (by rw [hname]; exact Bool.false_ne_true),
    if_neg (by rw [hdigit]; exact Bool.false_ne_true),
    if_neg (by rw [hquote]; exact Bool.false_ne_true)]

theorem scans_sign {f : Bytes → Prop} {c : Char} (hc : isSign c = true) {w : Bytes} {k : Kind}
    {cmp : Comparison} (h : ∀ rest, f rest →
      ∃ l : Lexeme (glyphs (w ++ rest)), symbolLexeme c (glyphs (w ++ rest)) = .ok l ∧
        l.Covers k (encode c ++ w) cmp (encode c ++ w).length (glyphs rest)) :
    Scans f (encode c ++ w) (IsToken k (encode c ++ w) cmp) := by
  have hgap : isGap c = false := by
    simp only [isSign, Bool.and_eq_true, Bool.not_eq_true'] at hc
    exact hc.1.1.1.2
  refine scans_lexeme hgap ?_
  intro o rest hrest
  obtain ⟨l, hl, hcovers⟩ := h rest hrest
  exact ⟨l, by rw [lexemeAt_sign hc, hl]; rfl, hcovers⟩

/-- The symbols that no character after them can become a part of. -/
def closedSymbols : List (Kind × Comparison × Bytes) :=
  [(.doubleSlash, .absent, utf8 "//"), (.doubleDot, .absent, utf8 ".."),
   (.doubleColon, .absent, utf8 "::"), (.atSign, .absent, utf8 "@"),
   (.leftParen, .absent, utf8 "("), (.rightParen, .absent, utf8 ")"),
   (.leftBracket, .absent, utf8 "["), (.rightBracket, .absent, utf8 "]"),
   (.bar, .absent, utf8 "|"), (.equals, .absent, utf8 "="), (.plus, .absent, utf8 "+"),
   (.minus, .absent, utf8 "-"), (.star, .absent, utf8 "*"), (.comma, .absent, utf8 ","),
   (.dollar, .absent, utf8 "$"),
   (.comparison, .notEqual, utf8 "!="), (.comparison, .lessEqual, utf8 "<="),
   (.comparison, .greaterEqual, utf8 ">=")]

theorem scans_closed {f : Bytes → Prop} {k : Kind} {c : Comparison} {s : Bytes}
    (h : (k, c, s) ∈ closedSymbols) : Scans f s (IsToken k s c) := by
  simp only [closedSymbols, List.mem_cons, List.not_mem_nil, or_false, Prod.mk.injEq] at h
  rcases h with h | h | h | h | h | h | h | h | h | h | h | h | h | h | h | h | h | h
  all_goals
    obtain ⟨rfl, rfl, rfl⟩ := h
    exact scans_sign (by decide) fun rest _ => ⟨_, rfl, rfl, rfl, rfl, rfl, rfl⟩

/-- The symbols of one character, each with the character that would extend it. -/
def openSymbols : List (Kind × Comparison × Char × Char) :=
  [(.slash, .absent, '/', '/'), (.dot, .absent, '.', '.'), (.colon, .absent, ':', ':'),
   (.comparison, .less, '<', '='), (.comparison, .greater, '>', '=')]

theorem NotBefore.ne_cons {d : Char} {rest : Bytes} (h : NotBefore (· = d) rest)
    (gs : List Glyph) : glyphs rest ≠ .char d :: gs := by
  intro hgs
  have hd := h _ (by rw [hgs]; rfl)
  exact of_decide_eq_false hd rfl

theorem symbolLexeme_open {k : Kind} {cmp : Comparison} {c d : Char}
    (h : (k, cmp, c, d) ∈ openSymbols) {after : List Glyph} (hnext : ∀ gs, after ≠ .char d :: gs) :
    symbolLexeme c after = .ok ((single k c after).comparing cmp) := by
  simp only [openSymbols, List.mem_cons, List.not_mem_nil, or_false, Prod.mk.injEq] at h
  rcases h with h | h | h | h | h
  all_goals
    obtain ⟨rfl, rfl, rfl, rfl⟩ := h
    simp only [symbolLexeme, single, Lexeme.comparing]

theorem scans_open {k : Kind} {cmp : Comparison} {c d : Char} (h : (k, cmp, c, d) ∈ openSymbols) :
    Scans (NotBefore (· = d)) (encode c) (IsToken k (encode c) cmp) := by
  have hsigns : ∀ p ∈ openSymbols, isSign p.2.2.1 = true ∧ (encode p.2.2.1).length = 1 := by decide
  obtain ⟨hsign, hwidth⟩ := hsigns _ h
  have hscan : Scans (NotBefore (· = d)) (encode c ++ []) (IsToken k (encode c ++ []) cmp) := by
    refine scans_sign hsign fun rest hrest => ⟨_, symbolLexeme_open h hrest.ne_cons, ?_⟩
    rw [List.append_nil]
    exact ⟨rfl, rfl, rfl, hwidth.symm, rfl⟩
  rwa [List.append_nil] at hscan

end NodePath
