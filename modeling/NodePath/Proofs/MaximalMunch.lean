import NodePath.Proofs.LexicalErrors
import NodePath.Proofs.Numerals
import NodePath.Proofs.Respacing

/-!
# Tokens are longest matches

The lexemes are those of five rules over bytes. A source falls into lexemes when blanks, tabs and
line ends are skipped and at every other place the longest text is taken that a rule matches. It has
tokens exactly when it falls into lexemes that may stand in a source, and these are its tokens.
-/

namespace NodePath

open NodePath.Text NodePath.Number

inductive Rule where
  | word
  | digits
  | fraction
  | quoted
  | sign

/-- The signs with their kinds and comparisons. -/
def signs : List (Bytes × Kind × Comparison) :=
  symbols.map (fun p => (p.2, p.1, .absent)) ++ comparisons.map fun c => (c.symbol, .comparison, c)

/-- The texts of a rule. A quote goes on to the next equal quote, whatever stands between. -/
inductive Matches : Rule → Bytes → Prop where
  | word {w : Bytes} : IsWord w → Matches .word w
  | digits {ds : Bytes} : IsNumeral ds → Matches .digits ds
  | fraction {ws ds : Bytes} : IsNumeral ws → IsNumeral ds →
      Matches .fraction (ws ++ ascii '.' :: ds)
  | quoted {q : Char} {s : Bytes} : q ∈ quotes → ascii q ∉ s →
      Matches .quoted (ascii q :: (s ++ [ascii q]))
  | sign {w : Bytes} {meaning : Kind × Comparison} : (w, meaning) ∈ signs → Matches .sign w

/-- The text between the quotes of a literal. -/
def inside (w : Bytes) : Bytes := w.tail.dropLast

/-- The number that digits, a point and digits denote. -/
def fractionValue (w : Bytes) : ℚ :=
  let part := (w.dropWhile isDigit).tail
  natOfDigits (w.takeWhile isDigit) + natOfDigits part / 10 ^ part.length

/-- Quoted text must be well-formed, and a number in range. -/
def Rule.Admits : Rule → Bytes → Prop
  | .digits, w => natOfDigits w < 2 ^ 63
  | .fraction, w => fractionValue w < overflow
  | .quoted, w => isWellFormed (inside w) = true
  | .word, _ | .sign, _ => True

/-- The kind of a word in front of a text. -/
def kindOfWord (w rest : Bytes) : Kind :=
  let next := rest.dropWhile gapBytes.contains
  match keyword? w with
  | some kind => kind
  | none =>
    if next.head? = some (ascii '(') then if isNodeType w then .nodeType else .functionName
    else if isAxisName w = true ∧ utf8 "::" <+: next then .axisName
    else .name

/-- A lexeme with its place and what stands behind it. -/
structure Piece where
  rule : Rule
  offset : Nat
  text : Bytes
  rest : Bytes

def Piece.token (p : Piece) : Token :=
  match p.rule with
  | .word => ⟨kindOfWord p.text p.rest, p.text, p.offset, .absent⟩
  | .digits | .fraction =>
    ⟨if ascii '.' ∈ p.text then .float else .integer, p.text, p.offset, .absent⟩
  | .quoted => ⟨.stringLiteral, inside p.text, p.offset, .absent⟩
  | .sign =>
    let meaning := (signs.lookup p.text).getD (.eof, .absent)
    ⟨meaning.1, p.text, p.offset, meaning.2⟩

/-- In front of `rest` a rule matches `w`, and no rule matches more than that. -/
structure Longest (rule : Rule) (w rest : Bytes) : Prop where
  fits : Matches rule w
  most : ∀ rule' v, Matches rule' v → v <+: w ++ rest → v.length ≤ w.length

/-- `Munches o s ps`: from the offset `o` on the source is `s` and falls into the lexemes `ps`. -/
inductive Munches : Nat → Bytes → List Piece → Prop where
  | done {o : Nat} : Munches o [] []
  | gap {o : Nat} {b : UInt8} {s : Bytes} {ps : List Piece} : b ∈ gapBytes → Munches (o + 1) s ps →
      Munches o (b :: s) ps
  | lexeme {o : Nat} {rule : Rule} {w s : Bytes} {ps : List Piece} : Longest rule w s →
      Munches (o + w.length) s ps → Munches o (w ++ s) (⟨rule, o, w, s⟩ :: ps)

/-! What lexemes begin with. -/

/-- The characters that begin the lexemes of a rule. -/
def Rule.begins : Rule → Char → Bool
  | .word, c => isNameStart c
  | .digits, c | .fraction, c => isNumeralDigit c
  | .quoted, c => quotes.contains c
  | .sign, c => isSign c

theorem Rule.begins_gap {rule : Rule} {c : Char} (h : rule.begins c = true) : isGap c = false := by
  cases rule with
  | word => exact isGap_of_isNameStart h
  | digits => exact (digit_classes h).1
  | fraction => exact (digit_classes h).1
  | quoted => exact (quote_classes c (by simpa [begins] using h)).1
  | sign =>
    simp only [begins, isSign, Bool.and_eq_true, Bool.not_eq_true'] at h
    exact h.1.1.1.2

theorem IsNumeral.begins {ds : Bytes} (h : IsNumeral ds) :
    ∃ c v, isNumeralDigit c = true ∧ ds = encode c ++ v := by
  obtain ⟨c, cs, hc, -, rfl⟩ := h.chars
  exact ⟨c, _, hc, List.flatMap_cons⟩

theorem Matches.begins {rule : Rule} {w : Bytes} (h : Matches rule w) :
    ∃ c v, rule.begins c = true ∧ w = encode c ++ v := by
  cases h with
  | word hw =>
    obtain ⟨c, cs, hc, -, rfl⟩ := hw
    exact ⟨c, _, hc, List.flatMap_cons⟩
  | digits hds => exact hds.begins
  | fraction hws hds =>
    obtain ⟨c, v, hc, rfl⟩ := hws.begins
    exact ⟨c, _, hc, List.append_assoc ..⟩
  | @quoted q s hq hs =>
    refine ⟨q, s ++ [ascii q], by simpa [Rule.begins] using hq, ?_⟩
    rw [encode_ascii (quote_ascii q hq)]
    rfl
  | sign hw =>
    have hall : ∀ p ∈ signs, isSign (Char.ofNat (p.1.headD 0).toNat) = true ∧
        encode (Char.ofNat (p.1.headD 0).toNat) <+: p.1 := by decide
    obtain ⟨hc, v, hv⟩ := hall _ hw
    exact ⟨_, v, hc, hv.symm⟩

/-- The first character tells the rules apart, but for a numeral with and without a fraction. -/
theorem Rule.eq_of_begins {rule rule' : Rule} {c : Char} (h : rule.begins c = true)
    (h' : rule'.begins c = true) :
    rule = rule' ∨ rule = .digits ∧ rule' = .fraction ∨ rule = .fraction ∧ rule' = .digits := by
  have hdigit : isNumeralDigit c = true → isNameStart c = false := fun h => (digit_classes h).2.1
  have hquote : c ∈ quotes → isNameStart c = false ∧ isNumeralDigit c = false := fun h =>
    ⟨(quote_classes c h).2.1, (quote_classes c h).2.2.1⟩
  cases rule <;> cases rule' <;> simp_all [begins, isSign, quotes]

/-- No lexeme begins with a gap. -/
theorem Matches.not_gap {rule : Rule} {w s t : Bytes} {b : UInt8} (h : Matches rule w)
    (hb : b ∈ gapBytes) : w ++ s ≠ b :: t := by
  intro heq
  obtain ⟨c, v, hc, rfl⟩ := h.begins
  obtain ⟨d, hd, hglyphs⟩ := glyphs_gap hb t
  rw [← heq, List.append_assoc, glyphs_encode_append] at hglyphs
  obtain rfl : c = d := Glyph.char.inj (List.cons.inj hglyphs).1
  rw [Rule.begins_gap hc] at hd
  cases hd

theorem Matches.ne_nil {rule : Rule} {w : Bytes} (h : Matches rule w) : w ≠ [] := by
  obtain ⟨c, v, -, rfl⟩ := h.begins
  exact List.append_ne_nil_of_left_ne_nil (encode_ne_nil c) _

/-- A text is matched by one rule only. -/
theorem Matches.rule_unique {rule rule' : Rule} {w : Bytes} (h : Matches rule w)
    (h' : Matches rule' w) : rule = rule' := by
  have hpoint : Matches .digits w → ¬Matches .fraction w := by
    rintro ⟨⟩ ⟨⟩
    next hws hds hall =>
      have hnone := point_not_mem hall
      simp at hnone
  obtain ⟨c, v, hc, hw⟩ := h.begins
  obtain ⟨d, v', hd, hw'⟩ := h'.begins
  have hglyphs : glyphs (encode c ++ v) = glyphs (encode d ++ v') := by rw [← hw, ← hw']
  rw [glyphs_encode_append, glyphs_encode_append] at hglyphs
  obtain rfl : c = d := Glyph.char.inj (List.cons.inj hglyphs).1
  rcases Rule.eq_of_begins hc hd with heq | ⟨rfl, rfl⟩ | ⟨rfl, rfl⟩
  · exact heq
  · exact absurd h' (hpoint h)
  · exact absurd h (hpoint h')

/-- There is one longest match. -/
theorem Longest.unique {rule rule' : Rule} {w w' s s' : Bytes} (h : Longest rule w s)
    (h' : Longest rule' w' s') (heq : w ++ s = w' ++ s') :
    rule = rule' ∧ w = w' ∧ s = s' := by
  have hle : w'.length ≤ w.length := h.most rule' w' h'.fits ⟨s', heq.symm⟩
  have hge : w.length ≤ w'.length := h'.most rule w h.fits ⟨s, heq⟩
  obtain ⟨rfl, rfl⟩ := List.append_inj heq (by omega)
  exact ⟨h.fits.rule_unique h'.fits, rfl, rfl⟩

/-- Where some rule matches, there is a longest match. -/
theorem exists_longest {rule : Rule} {s v : Bytes} (hv : Matches rule v) (hs : v <+: s) :
    ∃ rule w rest, s = w ++ rest ∧ Longest rule w rest := by
  by_cases hmost : ∀ rule' v', Matches rule' v' → v' <+: s → v'.length ≤ v.length
  · obtain ⟨rest, rfl⟩ := hs
    exact ⟨rule, v, rest, rfl, hv, hmost⟩
  · push Not at hmost
    obtain ⟨rule', v', hv', hs', hlt⟩ := hmost
    exact exists_longest hv' hs'
termination_by s.length - v.length
decreasing_by
  have := hs'.length_le
  omega

theorem Munches.inv {o : Nat} {s : Bytes} {ps : List Piece} (h : Munches o s ps) :
    (s = [] ∧ ps = []) ∨ (∃ b s', b ∈ gapBytes ∧ s = b :: s' ∧ Munches (o + 1) s' ps) ∨
      ∃ rule w s' ps', s = w ++ s' ∧ Longest rule w s' ∧ Munches (o + w.length) s' ps' ∧
        ps = ⟨rule, o, w, s'⟩ :: ps' := by
  cases h with
  | done => exact .inl ⟨rfl, rfl⟩
  | gap hb hrest => exact .inr (.inl ⟨_, _, hb, rfl, hrest⟩)
  | lexeme hlongest hrest => exact .inr (.inr ⟨_, _, _, _, rfl, hlongest, hrest, rfl⟩)

/-- A source falls into lexemes in one way only. -/
theorem Munches.unique {o : Nat} {s : Bytes} {ps qs : List Piece} (h : Munches o s ps)
    (h' : Munches o s qs) : ps = qs := by
  induction h generalizing qs with
  | done =>
    rcases h'.inv with ⟨-, rfl⟩ | ⟨b, s', -, heq, -⟩ | ⟨rule, w, s', ps', heq, hlongest, -⟩
    · rfl
    · cases heq
    · exact absurd (List.append_eq_nil_iff.mp heq.symm).1 hlongest.fits.ne_nil
  | gap hb _ ih =>
    rcases h'.inv with ⟨heq, -⟩ | ⟨b', s', -, heq, hrest⟩ | ⟨rule, w, s', ps', heq, hlongest, -⟩
    · cases heq
    · cases heq
      exact ih hrest
    · exact absurd heq.symm (hlongest.fits.not_gap hb)
  | lexeme hlongest _ ih =>
    rcases h'.inv with ⟨heq, -⟩ | ⟨b, s', hb, heq, -⟩ |
      ⟨rule', w', s', ps', heq, hlongest', hrest, rfl⟩
    · exact absurd (List.append_eq_nil_iff.mp heq).1 hlongest.fits.ne_nil
    · exact absurd heq (hlongest.fits.not_gap hb)
    · obtain ⟨rfl, rfl, rfl⟩ := hlongest.unique hlongest' heq
      rw [ih hrest]

/-! What stands behind a longest match. -/

theorem bytesOf_prefix {gs : List Glyph} {s : Bytes} (h : gs <+: glyphs s) : bytesOf gs <+: s := by
  obtain ⟨more, hmore⟩ := h
  exact ⟨bytesOf more, by rw [← bytesOf_append, hmore, bytesOf_glyphs]⟩

section Behind

variable {rule : Rule} {w rest : Bytes}

theorem Longest.not_longer (h : Longest rule w rest) {v : Bytes} (hne : v ≠ []) (hv : v <+: rest)
    (rule' : Rule) : ¬Matches rule' (w ++ v) := by
  intro hmatches
  have hle := h.most rule' _ hmatches ((List.prefix_append_right_inj w).mpr hv)
  have hpos := List.length_pos_iff.mpr hne
  rw [List.length_append] at hle
  omega

theorem Longest.notBefore (h : Longest rule w rest) {p : Char → Bool} (rule' : Rule)
    (hlonger : ∀ c, p c = true → Matches rule' (w ++ encode c)) : NotBefore p rest := by
  intro g hg
  cases g with
  | stray b => rfl
  | char c =>
    obtain ⟨gs, hgs⟩ := List.head?_eq_some_iff.mp hg
    have hhead : [.char c] <+: glyphs rest := ⟨gs, hgs.symm⟩
    have hprefix : encode c <+: rest := by
      have hbytes := bytesOf_prefix hhead
      rwa [bytesOf_cons, bytesOf, List.flatMap_nil, List.append_nil] at hbytes
    rw [Bool.eq_false_iff]
    intro hc
    exact h.not_longer (encode_ne_nil c) hprefix rule' (hlonger c hc)

theorem IsWord.append_part {c : Char} (h : IsWord w) (hc : isNamePart c = true) :
    IsWord (w ++ encode c) := by
  obtain ⟨d, cs, hd, hcs, rfl⟩ := h
  refine ⟨d, cs ++ [c], hd, ?_, by simp⟩
  intro e he
  rcases List.mem_append.mp he with he | he
  · exact hcs e he
  · obtain rfl := List.mem_singleton.mp he
    exact hc

theorem isNumeral_encode {c : Char} (hc : isNumeralDigit c = true) : IsNumeral (encode c) := by
  have hchars : IsNumeral ([c].flatMap encode) := isNumeral_chars (by simp) (by simpa using hc)
  rwa [List.flatMap_singleton] at hchars

theorem IsNumeral.append {ds es : Bytes} (hds : IsNumeral ds) (hes : IsNumeral es) :
    IsNumeral (ds ++ es) := by
  refine ⟨List.append_ne_nil_of_left_ne_nil hds.1 es, fun d hd => ?_⟩
  rcases List.mem_append.mp hd with hd | hd
  · exact hds.2 d hd
  · exact hes.2 d hd

/-- Behind the longest digits stands no digit, and no point with a digit behind it. -/
theorem Longest.behind_digits (h : Longest .digits w rest) (hw : IsNumeral w) :
    NotBefore isNumeralDigit rest ∧ ∀ d tail, glyphs rest = .char '.' :: d :: tail →
      Glyph.satisfies isNumeralDigit d = false := by
  have hdigit : NotBefore isNumeralDigit rest :=
    h.notBefore .digits fun c hc => .digits (hw.append (isNumeral_encode hc))
  refine ⟨hdigit, fun d tail hgs => ?_⟩
  cases d with
  | stray b => rfl
  | char c =>
    rw [Bool.eq_false_iff]
    intro hc
    have hhead : [.char '.', .char c] <+: glyphs rest := ⟨tail, hgs.symm⟩
    have hprefix : ascii '.' :: encode c <+: rest := by
      have hbytes := bytesOf_prefix hhead
      rwa [bytesOf_cons, bytesOf_cons, bytesOf, List.flatMap_nil, List.append_nil] at hbytes
    exact h.not_longer (List.cons_ne_nil _ _) hprefix .fraction (.fraction hw (isNumeral_encode hc))

theorem Longest.behind_fraction {ws ds : Bytes} (h : Longest .fraction (ws ++ ascii '.' :: ds) rest)
    (hws : IsNumeral ws) (hds : IsNumeral ds) : NotBefore isNumeralDigit rest := by
  refine h.notBefore .fraction fun c hc => ?_
  rw [List.append_assoc, List.cons_append]
  exact .fraction hws (hds.append (isNumeral_encode hc))

theorem sign_cases {k : Kind} {c : Comparison} (h : (w, k, c) ∈ signs) :
    (k, c, w) ∈ closedSymbols ∨ ∃ a b, (k, c, a, b) ∈ openSymbols ∧ w = encode a ∧
      ∃ meaning, (w ++ encode b, meaning) ∈ signs := by
  have hall : ∀ p ∈ signs, (p.2.1, p.2.2, p.1) ∈ closedSymbols ∨ ∃ q ∈ openSymbols,
      q.1 = p.2.1 ∧ q.2.1 = p.2.2 ∧ p.1 = encode q.2.2.1 ∧
        p.1 ++ encode q.2.2.2 ∈ signs.map Prod.fst := by decide
  rcases hall _ h with hclosed | ⟨⟨k', c', a, b⟩, hopen, rfl, rfl, hw, hlonger⟩
  · exact .inl hclosed
  · obtain ⟨⟨_, meaning⟩, hmem, rfl⟩ := List.mem_map.mp hlonger
    exact .inr ⟨a, b, hopen, hw, meaning, hmem⟩

theorem Longest.scans_sign (h : Longest .sign w rest) {k : Kind} {c : Comparison}
    (hw : (w, k, c) ∈ signs) : ∃ f : Bytes → Prop, f rest ∧ Scans f w (IsToken k w c) := by
  rcases sign_cases hw with hclosed | ⟨a, b, hopen, rfl, meaning, hlonger⟩
  · exact ⟨fun _ => True, trivial, scans_closed hclosed⟩
  · refine ⟨_, h.notBefore .sign fun d hd => ?_, scans_open hopen⟩
    obtain rfl : d = b := of_decide_eq_true hd
    exact .sign hlonger

end Behind

/-! The kind of a word by bytes. -/

theorem head?_glyphs {c : Char} (hc : c.toNat < 0x80) {s : Bytes} :
    (glyphs s).head? = some (.char c) ↔ s.head? = some (ascii c) := by
  constructor
  · intro h
    obtain ⟨gs, hgs⟩ := List.head?_eq_some_iff.mp h
    rw [← bytesOf_glyphs s, hgs, bytesOf_cons, Glyph.bytes, encode_ascii hc]
    rfl
  · intro h
    obtain ⟨rest, rfl⟩ := List.head?_eq_some_iff.mp h
    rw [glyphs_ascii hc]
    rfl

theorem glyphs_colons {s : Bytes} :
    (∃ more, glyphs s = .char ':' :: .char ':' :: more) ↔ utf8 "::" <+: s := by
  constructor
  · rintro ⟨more, hmore⟩
    have hhead : [.char ':', .char ':'] <+: glyphs s := ⟨more, hmore.symm⟩
    exact bytesOf_prefix hhead
  · rintro ⟨rest, rfl⟩
    have hcolon : (':' : Char).toNat < 0x80 := by decide
    have hcolons : utf8 "::" ++ rest = ascii ':' :: ascii ':' :: rest := rfl
    exact ⟨glyphs rest, by rw [hcolons, glyphs_ascii hcolon, glyphs_ascii hcolon]⟩

theorem dropWhile_glyphs (s : Bytes) :
    (glyphs (s.dropWhile gapBytes.contains)).dropWhile (Glyph.satisfies isGap) =
      glyphs (s.dropWhile gapBytes.contains) := by
  cases hgs : glyphs (s.dropWhile gapBytes.contains) with
  | nil => rfl
  | cons g gs =>
    have hg : ¬Glyph.satisfies isGap g = true := by
      intro hg
      obtain ⟨b, hb, hbytes⟩ := gap_bytes hg
      have hhead : b ∈ (s.dropWhile gapBytes.contains).head? := by
        rw [← bytesOf_glyphs (s.dropWhile _), hgs, bytesOf_cons, hbytes]
        rfl
      have hnot : gapBytes.contains b = false := head?_dropWhile hhead
      rw [List.contains_iff_mem.mpr hb] at hnot
      cases hnot
    rw [List.dropWhile_cons, if_neg hg]

theorem wordKind_glyphs (w rest : Bytes) : wordKind w (glyphs rest) = kindOfWord w rest := by
  have hgaps : rest.takeWhile gapBytes.contains ⊆ gapBytes := fun b hb =>
    List.contains_iff_mem.mp (List.all_eq_true.mp List.all_takeWhile b hb)
  have hnext : wordKind w (glyphs rest) =
      wordKind w (glyphs (rest.dropWhile gapBytes.contains)) := by
    rw [← wordKind_gaps hgaps (rest.dropWhile gapBytes.contains), List.takeWhile_append_dropWhile]
  rw [hnext, wordKind, kindOfWord, dropWhile_glyphs]
  generalize rest.dropWhile gapBytes.contains = next
  cases keyword? w with
  | some kind => rfl
  | none =>
    have hparen : (glyphs next).head? = some (.char '(') ↔ next.head? = some (ascii '(') :=
      head?_glyphs (by decide)
    dsimp only
    split
    · next heq =>
      rw [if_pos (hparen.mp (by rw [heq]; rfl))]
    · next more heq =>
      have hcolons : utf8 "::" <+: next := glyphs_colons.mp ⟨more, heq⟩
      rw [if_neg (mt hparen.mpr (by rw [heq]; simp))]
      by_cases haxis : isAxisName w = true
      · rw [if_pos haxis, if_pos ⟨haxis, hcolons⟩]
      · rw [if_neg haxis, if_neg fun h => haxis h.1]
    · next hcall haxis =>
      have hnotParen : next.head? ≠ some (ascii '(') := by
        intro hhead
        obtain ⟨gs, hgs⟩ := List.head?_eq_some_iff.mp (hparen.mpr hhead)
        exact hcall _ hgs
      have hnotColons : ¬utf8 "::" <+: next := by
        intro hcolons
        obtain ⟨more, hmore⟩ := glyphs_colons.mpr hcolons
        exact haxis _ hmore
      rw [if_neg hnotParen, if_neg fun h => hnotColons h.2]

/-! Longest matches are read as tokens. -/

section Reading

variable {rule : Rule} {w rest : Bytes} {o : Nat}

theorem Scans.token_at {f : Bytes → Prop} {k : Kind} {x : Bytes} {c : Comparison}
    (h : Scans f w (IsToken k x c)) (hw : Matches rule w) (hrest : f rest) (o : Nat) :
    tokensFrom o (glyphs (w ++ rest)) =
      (tokensFrom (o + w.length) (glyphs rest)).map (⟨k, x, o, c⟩ :: ·) := by
  obtain ⟨d, v, hd, rfl⟩ := hw.begins
  exact h.at_offset (Rule.begins_gap hd) hrest o

theorem inside_quoted (q : UInt8) (s : Bytes) : inside (q :: (s ++ [q])) = s := by
  simp [inside]

theorem fractionValue_numeral {ws ds : Bytes} (hws : IsNumeral ws) :
    fractionValue (ws ++ ascii '.' :: ds) = natOfDigits ws + natOfDigits ds / 10 ^ ds.length := by
  have htake : (ws ++ ascii '.' :: ds).takeWhile isDigit = ws := by
    rw [List.takeWhile_append_of_pos hws.2, List.takeWhile_cons, if_neg (by decide),
      List.append_nil]
  have hdrop : (ws ++ ascii '.' :: ds).dropWhile isDigit = ascii '.' :: ds := by
    rw [List.dropWhile_append_of_pos hws.2, List.dropWhile_cons, if_neg (by decide)]
  rw [fractionValue, htake, hdrop]
  rfl

/-- A longest match that may stand in a source is one token, whatever stands behind it. -/
theorem Longest.tokensFrom_eq (h : Longest rule w rest) (hadmits : rule.Admits w) (o : Nat) :
    tokensFrom o (glyphs (w ++ rest)) =
      (tokensFrom (o + w.length) (glyphs rest)).map (Piece.token ⟨rule, o, w, rest⟩ :: ·) := by
  have hfits := h.fits
  cases hfits with
  | word hw =>
    have hend : NotBefore isNamePart rest := h.notBefore .word fun c hc => .word (hw.append_part hc)
    exact (scans_word hw _).token_at h.fits ⟨hend, wordKind_glyphs w rest⟩ o
  | digits hds =>
    have hrange : natOfDigits w < 2 ^ 63 := hadmits
    have hvalue : integer? w = some (natOfDigits w : Int) := by
      rw [integer?_numeral hds, if_pos hrange]
    have htoken : Piece.token ⟨.digits, o, w, rest⟩ = ⟨.integer, w, o, .absent⟩ := by
      have hpoint := point_not_mem hds
      simp_all [Piece.token]
    rw [htoken]
    exact (scans_numeral hds hvalue).token_at h.fits (h.behind_digits hds) o
  | @fraction ws ds hws hds =>
    have hrange : fractionValue (ws ++ ascii '.' :: ds) < overflow := hadmits
    rw [fractionValue_numeral hws] at hrange
    obtain ⟨x, hx⟩ := Option.isSome_iff_exists.mp ((float?_isSome_iff hws hds).mpr hrange)
    have htoken : Piece.token ⟨.fraction, o, ws ++ ascii '.' :: ds, rest⟩ =
        ⟨.float, ws ++ ascii '.' :: ds, o, .absent⟩ := by
      simp [Piece.token]
    rw [htoken]
    exact (scans_float hws hds hx).token_at h.fits (h.behind_fraction hws hds) o
  | @quoted q s hq hs =>
    have hwell : isWellFormed s = true := by
      have hinside : isWellFormed (inside (ascii q :: (s ++ [ascii q]))) = true := hadmits
      rwa [inside_quoted] at hinside
    have htoken : Piece.token ⟨.quoted, o, ascii q :: (s ++ [ascii q]), rest⟩ =
        ⟨.stringLiteral, s, o, .absent⟩ := by
      simp [Piece.token, inside_quoted]
    rw [htoken]
    exact (scans_literal (f := fun _ => True) hq hwell hs).token_at h.fits trivial o
  | @sign w meaning hw =>
    obtain ⟨f, hrest, hscan⟩ := h.scans_sign hw
    have htoken : Piece.token ⟨.sign, o, w, rest⟩ = ⟨meaning.1, w, o, meaning.2⟩ := by
      have hlookup : ∀ p ∈ signs, signs.lookup p.1 = some p.2 := by decide
      simp [Piece.token, hlookup _ hw]
    rw [htoken]
    exact hscan.token_at h.fits hrest o

theorem numberLexeme_of_tokensFrom {c : Char} (hc : isNumeralDigit c = true) {after : List Glyph}
    {ts : List Token} (h : tokensFrom o (.char c :: after) = .ok ts) :
    ∃ l, numberLexeme (.char c) after = .ok l := by
  have hgap : Glyph.satisfies isGap (.char c) = false := (digit_classes hc).1
  obtain ⟨l, -, hl, -⟩ := lexeme_of_tokensFrom hgap h
  rw [lexemeAt_digit hc] at hl
  exact ⟨l, ok_of_mapError hl⟩

/-- A source with tokens begins with digits in range only. -/
theorem Longest.admits_digits (h : Longest .digits w rest) (hw : IsNumeral w) {ts : List Token}
    (hok : tokensFrom o (glyphs (w ++ rest)) = .ok ts) : natOfDigits w < 2 ^ 63 := by
  obtain ⟨hdigit, hpoint⟩ := h.behind_digits hw
  have hvalue := integer?_numeral hw
  obtain ⟨c, cs, hc, hcs, rfl⟩ := hw.chars
  rw [glyphs_flatMap_encode, List.map_cons, List.cons_append] at hok
  obtain ⟨l, hl⟩ := numberLexeme_of_tokensFrom hc hok
  rcases numberLexeme_cases hl with ⟨_, i, rfl, hi, -, -⟩ | ⟨d, tail, _, x, hsplit, hd, -⟩
  · rw [takeWhile_run hcs hdigit, ← List.map_cons, bytesOf_chars, hvalue] at hi
    by_contra hlarge
    rw [if_neg hlarge] at hi
    cases hi
  · rw [dropWhile_run hcs hdigit] at hsplit
    rw [hpoint d tail hsplit] at hd
    cases hd

theorem Longest.admits_fraction {ws ds : Bytes}
    (h : Longest .fraction (ws ++ ascii '.' :: ds) rest) (hws : IsNumeral ws) (hds : IsNumeral ds)
    {ts : List Token} (hok : tokensFrom o (glyphs (ws ++ ascii '.' :: ds ++ rest)) = .ok ts) :
    fractionValue (ws ++ ascii '.' :: ds) < overflow := by
  have hend := h.behind_fraction hws hds
  rw [fractionValue_numeral hws, ← float?_isSome_iff hws hds]
  obtain ⟨c, cs, hc, hcs, rfl⟩ := hws.chars
  obtain ⟨d, ds, hd, hds', rfl⟩ := hds.chars
  have hpiece : (c :: cs).flatMap encode ++ ascii '.' :: (d :: ds).flatMap encode ++ rest =
      encode c ++ (cs.flatMap encode ++ ascii '.' :: ((d :: ds).flatMap encode ++ rest)) := by
    simp
  rw [hpiece, glyphs_encode_append] at hok
  generalize hgs : glyphs (cs.flatMap encode ++ ascii '.' :: ((d :: ds).flatMap encode ++ rest)) =
    after at hok
  obtain ⟨htake, tail, hdrop, htake', -⟩ := glyphs_fraction hcs hds' hend hgs.symm
  obtain ⟨l, hl⟩ := numberLexeme_of_tokensFrom hc hok
  rcases numberLexeme_cases hl with ⟨_, i, -, -, hpoint, -⟩ |
    ⟨d', tail', _, x, hsplit, -, rfl, hx, -⟩
  · have hnot : isNumeralDigit d = false := hpoint _ _ hdrop
    rw [hd] at hnot
    cases hnot
  · cases hdrop.symm.trans hsplit
    rw [htake, htake', bytesOf_fraction] at hx
    rw [hx]
    rfl

/-- A source with tokens begins with a lexeme that may stand there. -/
theorem Longest.admits (h : Longest rule w rest) {ts : List Token}
    (hok : tokensFrom o (glyphs (w ++ rest)) = .ok ts) : rule.Admits w := by
  have hfits := h.fits
  cases hfits with
  | word => trivial
  | sign => trivial
  | digits hds => exact h.admits_digits hds hok
  | fraction hws hds => exact h.admits_fraction hws hds hok
  | @quoted q s hq hs =>
    have hglyphs : glyphs (ascii q :: (s ++ [ascii q]) ++ rest) =
        .char q :: glyphs (s ++ ascii q :: rest) := by
      rw [← glyphs_ascii (quote_ascii q hq), List.cons_append, List.append_assoc,
        List.singleton_append]
    have hwell : isWellFormed (s ++ ascii q :: rest) = true := by
      have hchars := tokensFrom_chars o _ hok
      rw [hglyphs, List.all_cons] at hchars
      exact (Bool.and_eq_true_iff.mp hchars).2
    have hquotes : ∀ q ∈ quotes, isTail (ascii q) = false :=
      List.all_iff_forall_prop.mp (by decide)
    have hinside : isWellFormed (inside (ascii q :: (s ++ [ascii q]))) = true := by
      rw [inside_quoted]
      exact (isWellFormed_split (hquotes q hq) hwell).1
    exact hinside

theorem Written.matches {k : Kind} {x : Bytes} {c : Comparison} (h : Written k x c w) :
    ∃ rule, Matches rule w := by
  cases h with
  | keyword hw => exact ⟨_, .word hw⟩
  | name hw => exact ⟨_, .word hw⟩
  | functionName hw => exact ⟨_, .word hw⟩
  | nodeType hw => exact ⟨_, .word hw⟩
  | axisName hw => exact ⟨_, .word hw⟩
  | integer hds => exact ⟨_, .digits hds⟩
  | float hws hds => exact ⟨_, .fraction hws hds⟩
  | literal hq _ hs => exact ⟨_, .quoted hq hs⟩
  | symbol hs =>
    exact ⟨_, .sign (List.mem_append_left _ (List.mem_map.mpr ⟨_, hs, rfl⟩))⟩
  | comparison hc =>
    exact ⟨_, .sign (List.mem_append_right _ (List.mem_map.mpr ⟨_, hc, rfl⟩))⟩

/-- A source with tokens begins with a gap or with a lexeme. -/
theorem exists_matches {b : UInt8} {s : Bytes} {ts : List Token}
    (hok : tokensFrom o (glyphs (b :: s)) = .ok ts) :
    b ∈ gapBytes ∨ ∃ rule w, Matches rule w ∧ w <+: b :: s := by
  cases hgs : glyphs (b :: s) with
  | nil =>
    have hnil := bytesOf_glyphs (b :: s)
    rw [hgs] at hnil
    cases hnil
  | cons g after =>
    have hbytes : bytesOf (g :: after) = b :: s := by rw [← hgs, bytesOf_glyphs]
    rw [hgs] at hok
    by_cases hgap : g.satisfies isGap = true
    · obtain ⟨b', hb', hg⟩ := gap_bytes hgap
      rw [bytesOf_cons, hg] at hbytes
      exact .inl ((List.cons.inj hbytes).1 ▸ hb')
    · obtain ⟨l, -, hl, -⟩ := lexeme_of_tokensFrom (Bool.eq_false_iff.mpr hgap) hok
      obtain ⟨w, hw, -, hsplit⟩ := lexemeAt_fits hl
      obtain ⟨rule, hmatches⟩ := hw.matches
      exact .inr ⟨rule, w, hmatches, _, by rw [← hsplit, hbytes]⟩

end Reading

/-- A source with tokens falls into lexemes that may stand in it, and these are its tokens. -/
theorem munches_of_tokensFrom (s : Bytes) (o : Nat) {ts : List Token}
    (h : tokensFrom o (glyphs s) = .ok ts) :
    ∃ ps, Munches o s ps ∧ (∀ p ∈ ps, p.rule.Admits p.text) ∧ ts = ps.map Piece.token := by
  cases s with
  | nil =>
    rw [tokensFrom_nil] at h
    cases h
    exact ⟨[], .done, by simp, rfl⟩
  | cons b s =>
    rcases exists_matches h with hb | ⟨rule', v, hv, hprefix⟩
    · obtain ⟨c, hc, hglyphs⟩ := glyphs_gap hb s
      rw [hglyphs, tokensFrom_gap hc] at h
      obtain ⟨ps, hps, hadmits, hts⟩ := munches_of_tokensFrom s (o + 1) h
      exact ⟨ps, .gap hb hps, hadmits, hts⟩
    · obtain ⟨rule, w, rest, hsplit, hlongest⟩ := exists_longest hv hprefix
      have hshorter : rest.length < (b :: s).length := by
        have hpos := List.length_pos_iff.mpr hlongest.fits.ne_nil
        rw [hsplit, List.length_append]
        omega
      rw [hsplit] at h
      have hadmits := hlongest.admits h
      rw [hlongest.tokensFrom_eq hadmits] at h
      cases hrest : tokensFrom (o + w.length) (glyphs rest) with
      | error e =>
        rw [hrest] at h
        cases h
      | ok ts' =>
        rw [hrest] at h
        cases h
        obtain ⟨ps, hps, hall, rfl⟩ := munches_of_tokensFrom rest _ hrest
        rw [hsplit]
        refine ⟨_, .lexeme hlongest hps, ?_, rfl⟩
        intro p hp
        rcases List.mem_cons.mp hp with rfl | hp
        · exact hadmits
        · exact hall p hp
termination_by s.length

theorem Munches.tokensFrom_eq {o : Nat} {s : Bytes} {ps : List Piece} (h : Munches o s ps)
    (hadmits : ∀ p ∈ ps, p.rule.Admits p.text) :
    tokensFrom o (glyphs s) = .ok (ps.map Piece.token) := by
  induction h with
  | done => exact tokensFrom_nil _
  | gap hb _ ih =>
    obtain ⟨c, hc, hglyphs⟩ := glyphs_gap hb _
    rw [hglyphs, tokensFrom_gap hc]
    exact ih hadmits
  | lexeme hlongest _ ih =>
    rw [hlongest.tokensFrom_eq (hadmits _ List.mem_cons_self),
      ih fun p hp => hadmits p (List.mem_cons_of_mem _ hp)]
    rfl

/-- Maximal munch. A source falls into lexemes in at most one way. It has tokens exactly when it
does and each lexeme may stand in a source, and then its tokens are these lexemes. -/
theorem tokens_are_longest_matches (source : Bytes) :
    (∀ ps qs, Munches 0 source ps → Munches 0 source qs → ps = qs) ∧
    ∀ tokens, tokenize source = .ok tokens ↔
      ∃ ps, Munches 0 source ps ∧ (∀ p ∈ ps, p.rule.Admits p.text) ∧
        tokens = ps.map Piece.token := by
  refine ⟨fun ps qs h h' => h.unique h', fun tokens => ⟨munches_of_tokensFrom source 0, ?_⟩⟩
  rintro ⟨ps, hps, hadmits, rfl⟩
  exact hps.tokensFrom_eq hadmits

example : tokenize (utf8 "1..2.5") =
    .ok [⟨.integer, utf8 "1", 0, .absent⟩, ⟨.doubleDot, utf8 "..", 1, .absent⟩,
      ⟨.float, utf8 "2.5", 3, .absent⟩] :=
  eq_ok_of_toOption (by decide +kernel)

end NodePath
