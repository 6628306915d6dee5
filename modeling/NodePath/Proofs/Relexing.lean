import NodePath.Proofs.Scanning

/-!
# Lexemes in other surroundings

What ends a lexeme is the glyph behind it, for a numeral also the one behind a point, and the kind
of a word depends on what comes next after it. A text may take the place of what followed a lexeme
when it agrees with that as far as its first gap and leaves every word its kind. Every lexeme is
read again before such a text.
-/

namespace NodePath

open NodePath.Text NodePath.Number

/-- A text may take the place of glyphs that follow a lexeme. -/
structure Replaces (new : Bytes) (old : List Glyph) : Prop where
  glued : (glyphs new).takeWhile (fun g => !g.satisfies isGap) <+: old
  word : ∀ x, wordKind x (glyphs new) = wordKind x old

section Replaces

variable {new : Bytes} {old : List Glyph} {p : Char → Bool}

theorem head?_dropWhile {α : Type} {p : α → Bool} {l : List α} {a : α}
    (h : a ∈ (l.dropWhile p).head?) : p a = false := by
  have hhead := List.head?_dropWhile_not (p := p) (l := l)
  rw [Option.mem_def.mp h] at hhead
  exact hhead

theorem Replaces.head (h : Replaces new old) {g : Glyph} (hg : g ∈ (glyphs new).head?)
    (hgap : g.satisfies isGap = false) : g ∈ old.head? := by
  obtain ⟨gs, hgs⟩ := List.head?_eq_some_iff.mp hg
  obtain ⟨rest, hrest⟩ := h.glued
  rw [hgs, List.takeWhile_cons, hgap] at hrest
  rw [← hrest]
  rfl

/-- What is not behind the lexeme is not behind it in its new place, gaps apart. -/
theorem Replaces.notBefore (h : Replaces new old) (hp : ∀ c, p c = true → isGap c = false)
    (hold : ∀ g ∈ old.head?, g.satisfies p = false) : NotBefore p new := by
  intro g hg
  rw [Bool.eq_false_iff]
  intro hpg
  cases g with
  | stray b => cases hpg
  | char c => exact Bool.eq_false_iff.mp (hold _ (h.head hg (hp c hpg))) hpg

theorem Replaces.point (h : Replaces new old) {d : Glyph} {tail : List Glyph}
    (hnew : glyphs new = .char '.' :: d :: tail) (hd : d.satisfies isNumeralDigit = true) :
    ∃ tail', old = .char '.' :: d :: tail' := by
  have hgap : d.satisfies isGap = false := by
    cases d with
    | stray b => rfl
    | char c => exact (digit_classes hd).1
  obtain ⟨rest, hrest⟩ := h.glued
  rw [hnew, List.takeWhile_cons, if_pos (by decide), List.takeWhile_cons, hgap] at hrest
  exact ⟨_, hrest.symm⟩

end Replaces

/-- The lexeme that begins with a glyph is made of characters, and is read again before every text
that may take the place of what follows it. -/
def Lexeme.Repeats {after : List Glyph} (l : Lexeme after) (g : Glyph) : Prop :=
  ∃ cs : List Char, g :: after = cs.map .char ++ l.rest ∧ l.width = (cs.flatMap encode).length ∧
    Scans (Replaces · l.rest) (cs.flatMap encode) (IsToken l.kind l.text l.comparison)

theorem wordLexeme_repeats {c : Char} (hc : isNameStart c = true) (after : List Glyph) :
    (wordLexeme (.char c) after).Repeats (.char c) := by
  obtain ⟨cs, hcs, hall⟩ := exists_chars_takeWhile isNamePart after
  have htext : (wordLexeme (.char c) after).text = (c :: cs).flatMap encode := by
    rw [wordLexeme, hcs, ← List.map_cons, bytesOf_chars]
  have hsplit : after = cs.map .char ++ after.dropWhile (Glyph.satisfies isNamePart) := by
    rw [← hcs, List.takeWhile_append_dropWhile]
  refine ⟨c :: cs, congrArg _ hsplit, congrArg List.length htext, ?_⟩
  have hscan := scans_word ⟨c, cs, hc, hall, rfl⟩ (wordLexeme (.char c) after).kind
  rw [htext]
  refine hscan.before fun new hnew => ⟨hnew.notBefore ?_ fun g hg => head?_dropWhile hg, ?_⟩
  · exact fun d => isGap_eq_false (List.all_iff_forall_prop.mp (by decide))
  · rw [← htext]
    exact hnew.word _

theorem notBefore_digit {new : Bytes} {old gs : List Glyph}
    (hold : gs.dropWhile (Glyph.satisfies isNumeralDigit) = old) (h : Replaces new old) :
    NotBefore isNumeralDigit new := by
  subst hold
  exact h.notBefore (fun c hc => (digit_classes hc).1) fun g hg => head?_dropWhile hg

theorem integerLexeme_repeats {c : Char} (hc : isNumeralDigit c = true) {after : List Glyph}
    (hpoint : ∀ d tail, after.dropWhile (Glyph.satisfies isNumeralDigit) = .char '.' :: d :: tail →
      Glyph.satisfies isNumeralDigit d = false) {i : Int} {text : Bytes}
    (hi : integer? text = some i)
    (htext : text = bytesOf (.char c :: after.takeWhile (Glyph.satisfies isNumeralDigit)))
    {l : Lexeme after} (hl : l.Covers .integer text .absent text.length
      (after.dropWhile (Glyph.satisfies isNumeralDigit))) : l.Repeats (.char c) := by
  obtain ⟨hkind, hlexeme, hcomparison, hwidth, hrest⟩ := hl
  obtain ⟨cs, hcs, hall⟩ := exists_chars_takeWhile isNumeralDigit after
  have hchars : text = (c :: cs).flatMap encode := by
    rw [htext, hcs, ← List.map_cons, bytesOf_chars]
  have hnumeral : IsNumeral text := htext ▸ isNumeral_takeWhile hc after
  refine ⟨c :: cs, ?_, ?_, ?_⟩
  · rw [hrest, List.map_cons, List.cons_append, ← hcs, List.takeWhile_append_dropWhile]
  · rw [hwidth, hchars]
  · rw [hkind, hlexeme, hcomparison, hrest, ← hchars]
    refine (scans_numeral hnumeral hi).before fun new hnew => ⟨notBefore_digit rfl hnew, ?_⟩
    intro d tail hgs
    rw [Bool.eq_false_iff]
    intro hd
    obtain ⟨tail', hold⟩ := hnew.point hgs hd
    exact Bool.eq_false_iff.mp (hpoint d tail' hold) hd

theorem floatLexeme_repeats {c : Char} {d : Glyph} (hc : isNumeralDigit c = true)
    {after tail : List Glyph}
    (hsplit : after.dropWhile (Glyph.satisfies isNumeralDigit) = .char '.' :: d :: tail)
    (hd : Glyph.satisfies isNumeralDigit d = true) {x : Binary64} {text : Bytes}
    (hx : float? text = some x)
    (htext : text = bytesOf (.char c :: after.takeWhile (Glyph.satisfies isNumeralDigit)) ++
      bytesOf (.char '.' :: d :: tail.takeWhile (Glyph.satisfies isNumeralDigit)))
    {l : Lexeme after} (hl : l.Covers .float text .absent text.length
      (tail.dropWhile (Glyph.satisfies isNumeralDigit))) :
    l.Repeats (.char c) := by
  obtain ⟨hkind, hlexeme, hcomparison, hwidth, hrest⟩ := hl
  cases d with
  | stray b => cases hd
  | char d =>
    have hws := isNumeral_takeWhile hc after
    have hds := isNumeral_takeWhile hd tail
    obtain ⟨cs, hcs, -⟩ := exists_chars_takeWhile isNumeralDigit after
    obtain ⟨ds, hds', -⟩ := exists_chars_takeWhile isNumeralDigit tail
    have hpoint : bytesOf (.char '.' :: .char d ::
          tail.takeWhile (Glyph.satisfies isNumeralDigit)) =
        ascii '.' :: bytesOf (.char d :: tail.takeWhile (Glyph.satisfies isNumeralDigit)) := rfl
    rw [hpoint] at htext
    have hchars : text = (c :: cs ++ '.' :: d :: ds).flatMap encode := by
      rw [htext, ← hpoint, hcs, hds', ← bytesOf_chars, ← bytesOf_append]
      simp
    refine ⟨c :: cs ++ '.' :: d :: ds, ?_, ?_, ?_⟩
    · rw [hrest]
      calc Glyph.char c :: after
          = .char c :: (cs.map .char ++ .char '.' :: .char d :: tail) := by
            rw [← hcs, ← hsplit, List.takeWhile_append_dropWhile]
        _ = .char c :: (cs.map .char ++ .char '.' :: .char d :: (ds.map .char ++
              tail.dropWhile (Glyph.satisfies isNumeralDigit))) := by
            rw [← hds', List.takeWhile_append_dropWhile]
        _ = _ := by simp
    · rw [hwidth, hchars]
    · rw [hkind, hlexeme, hcomparison, hrest, ← hchars]
      subst htext
      exact (scans_float hws hds hx).before fun new hnew => notBefore_digit rfl hnew

theorem numberLexeme_repeats {c : Char} (hc : isNumeralDigit c = true) {after : List Glyph}
    {l : Lexeme after} (h : numberLexeme (.char c) after = .ok l) : l.Repeats (.char c) := by
  rcases numberLexeme_cases h with ⟨text, i, htext, hi, hpoint, hl⟩ |
    ⟨d, tail, text, x, hsplit, hd, htext, hx, hl⟩
  · exact integerLexeme_repeats hc hpoint hi htext hl
  · exact floatLexeme_repeats hc hsplit hd hx htext hl

/-- A literal falls into the characters up to its closing quote and what is left. -/
theorem literalLexeme_split {q : Char} {after : List Glyph} {l : Lexeme after}
    (h : literalLexeme q after = .ok l) :
    ∃ cs : List Char, q ∉ cs ∧ after = cs.map .char ++ .char q :: l.rest ∧
      l.Covers .stringLiteral (cs.flatMap encode) .absent ((cs.flatMap encode).length + 2)
        l.rest := by
  unfold literalLexeme at h
  dsimp only at h
  split at h
  · cases h
  · next g rest hsplit =>
    split at h
    · next hchars =>
      cases h
      obtain ⟨cs, hcs⟩ := exists_chars hchars
      have hhead : g ∈ (after.dropWhile (· ≠ .char q)).head? := by
        rw [hsplit]
        rfl
      obtain rfl : g = .char q := by simpa using head?_dropWhile hhead
      have hnot : q ∉ cs := by
        intro hmem
        have hin : Glyph.char q ∈ after.takeWhile (· ≠ .char q) := by
          rw [hcs]
          exact List.mem_map_of_mem hmem
        simpa using List.all_eq_true.mp List.all_takeWhile _ hin
      have htext : bytesOf (after.takeWhile (· ≠ .char q)) = cs.flatMap encode := by
        rw [hcs, bytesOf_chars]
      have hafter : after = after.takeWhile (· ≠ .char q) ++ after.dropWhile (· ≠ .char q) :=
        List.takeWhile_append_dropWhile.symm
      rw [hcs, hsplit] at hafter
      exact ⟨cs, hnot, hafter, rfl, htext, rfl, congrArg (·.length + 2) htext, rfl⟩
    · cases h

theorem literalLexeme_repeats {q : Char} (hq : q ∈ quotes) {after : List Glyph} {l : Lexeme after}
    (h : literalLexeme q after = .ok l) : l.Repeats (.char q) := by
  obtain ⟨cs, hnot, hafter, hkind, htext, hcomparison, hwidth, -⟩ := literalLexeme_split h
  have hascii := quote_ascii q hq
  have hpiece : (q :: (cs ++ [q])).flatMap encode =
      ascii q :: (cs.flatMap encode ++ [ascii q]) := by
    simp [encode_ascii hascii]
  refine ⟨q :: (cs ++ [q]), ?_, ?_, ?_⟩
  · refine (congrArg _ hafter).trans ?_
    simp
  · rw [hwidth, hpiece]
    simp
  · rw [hkind, htext, hcomparison, hpiece]
    refine scans_literal hq (isWellFormed_iff.mpr ⟨cs, rfl⟩) ?_
    rwa [ascii_mem_flatMap_encode hascii]

theorem single_repeats {k : Kind} {c : Char} (hk : (k, .absent, encode c) ∈ closedSymbols)
    (hw : (encode c).length = 1) (after : List Glyph) : (single k c after).Repeats (.char c) := by
  have hchars : [c].flatMap encode = encode c := List.append_nil _
  refine ⟨[c], rfl, hchars.symm ▸ hw.symm, ?_⟩
  rw [hchars]
  exact scans_closed hk

theorem double_repeats {k : Kind} {cmp : Comparison} {c d : Char}
    (hk : (k, cmp, encode c ++ encode d) ∈ closedSymbols)
    (hw : (encode c ++ encode d).length = 2) (rest : List Glyph) :
    ((double k c d (.char d) rest).comparing cmp).Repeats (.char c) := by
  have hchars : [c, d].flatMap encode = encode c ++ encode d := by simp
  refine ⟨[c, d], rfl, hchars.symm ▸ hw.symm, ?_⟩
  rw [hchars]
  exact scans_closed hk

theorem open_repeats {k : Kind} {cmp : Comparison} {c d : Char} (hk : (k, cmp, c, d) ∈ openSymbols)
    {after : List Glyph} (hnot : ∀ gs, after = .char d :: gs → False) :
    ((single k c after).comparing cmp).Repeats (.char c) := by
  have hsigns : ∀ p ∈ openSymbols, (encode p.2.2.1).length = 1 ∧ isGap p.2.2.2 = false := by decide
  obtain ⟨hwidth, hgap⟩ := hsigns _ hk
  have hchars : [c].flatMap encode = encode c := List.append_nil _
  refine ⟨[c], rfl, hchars.symm ▸ hwidth.symm, ?_⟩
  rw [hchars]
  refine (scans_open hk).before fun new hnew => hnew.notBefore ?_ fun g hg => ?_
  · intro e he
    obtain rfl : e = d := of_decide_eq_true he
    exact hgap
  · obtain ⟨gs, hgs⟩ := List.head?_eq_some_iff.mp hg
    cases g with
    | stray b => rfl
    | char e =>
      rw [Bool.eq_false_iff]
      intro he
      obtain rfl : e = d := of_decide_eq_true he
      exact hnot gs hgs

theorem symbolLexeme_repeats {c : Char} {after : List Glyph} {l : Lexeme after}
    (h : symbolLexeme c after = .ok l) : l.Repeats (.char c) := by
  unfold symbolLexeme at h
  split at h <;> cases h
  all_goals first
    | exact single_repeats (by decide) (by decide) _
    | exact double_repeats (by decide) (by decide) _
    | exact open_repeats (d := '/') (by decide) ‹_›
    | exact open_repeats (d := '.') (by decide) ‹_›
    | exact open_repeats (d := ':') (by decide) ‹_›
    | exact open_repeats (d := '=') (by decide) ‹_›

/-- Every lexeme is read again before what may take the place of what follows it. -/
theorem lexemeAt_repeats {offset : Nat} {g : Glyph} {after : List Glyph} {l : Lexeme after}
    (h : lexemeAt offset g after = .ok l) : l.Repeats g := by
  obtain ⟨c, rfl, ⟨hc, rfl⟩ | ⟨hc, hl⟩ | ⟨hc, hl⟩ | hl⟩ := lexemeAt_cases h
  · exact wordLexeme_repeats hc after
  · exact numberLexeme_repeats hc hl
  · exact literalLexeme_repeats hc hl
  · exact symbolLexeme_repeats hl

end NodePath
