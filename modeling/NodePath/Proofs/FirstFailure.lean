import Mathlib.Data.List.TakeWhile
import Mathlib.Logic.Relation
import NodePath.Proofs.LexicalErrors
import NodePath.Proofs.Respacing

/-!
# The first failure of the scanner

The reader of tokens as a machine: a step skips a gap or gives one token, and a source is refused in
the state from which there is no step. Cutting the source at the place that is blamed takes away
what the scanner saw ahead of it, but none of the tokens that were given before.
-/

namespace NodePath

open NodePath.Text

/-- How far the scanner is: the offset it has reached, the glyphs that are left, and the tokens it
has given. -/
structure Scanner where
  offset : Nat
  left : List Glyph
  given : List Token

namespace Scanner

def start (source : Bytes) : Scanner := ⟨0, glyphs source, []⟩

inductive Step : Scanner → Scanner → Prop where
  | gap {o : Nat} {g : Glyph} {after : List Glyph} {ts : List Token} :
      g.satisfies isGap = true → Step ⟨o, g :: after, ts⟩ ⟨o + 1, after, ts⟩
  | token {o : Nat} {g : Glyph} {after : List Glyph} {ts : List Token} {l : Lexeme after} :
      g.satisfies isGap = false → lexemeAt o g after = .ok l →
      Step ⟨o, g :: after, ts⟩ ⟨o + l.width, l.rest, ts ++ [⟨l.kind, l.text, o, l.comparison⟩]⟩

abbrev Run : Scanner → Scanner → Prop := Relation.ReflTransGen Step

/-- No lexeme begins where the scanner is. -/
def Fails (s : Scanner) (e : LexError) : Prop :=
  ∃ g after, s.left = g :: after ∧ g.satisfies isGap = false ∧
    lexemeAt s.offset g after = .error e

/-- The result for the whole source, as known in a state. -/
def answer (s : Scanner) : Except LexError (List Token) :=
  (tokensFrom s.offset s.left).map (s.given ++ ·)

end Scanner

/-- The byte that is blamed stands inside a quoted literal that opens at `opening` and is closed
behind it. -/
def LexError.InLiteral (e : LexError) (source : Bytes) (opening : Nat) : Prop :=
  e.cause = .badEncoding ∧ ∃ q ∈ quotes, ∃ before inside rest,
    source = before ++ ascii q :: (inside ++ rest) ∧ opening = before.length ∧
      e.offset = opening + 1 + inside.length ∧ ascii q ∉ inside ∧ ascii q ∈ rest

/-- Nothing may stand where no lexeme begins: a sign that a word looks ahead for is a lexeme. -/
theorem replaces_nil {o : Nat} {g : Glyph} {after : List Glyph} {e : LexError}
    (hg : g.satisfies isGap = false) (h : lexemeAt o g after = .error e) :
    Replaces [] (g :: after) := by
  refine ⟨List.nil_prefix, fun x => ?_⟩
  cases hx : keyword? x with
  | some k => rw [wordKind_keyword hx, wordKind_keyword hx]
  | none =>
    have hname : wordKind x (glyphs []) = .name := wordKind_nil hx
    rw [hname]
    cases g with
    | stray b =>
      rw [wordKind, hx]
      rfl
    | char c =>
      have hparen : c ≠ '(' := by
        rintro rfl
        cases h
      have hcolon : c ≠ ':' := by
        rintro rfl
        rw [lexemeAt_sign (by decide)] at h
        obtain ⟨cause, hcause, -⟩ := error_of_mapError h
        cases after with
        | nil => cases hcause
        | cons d tail =>
          by_cases hd : d = .char ':'
          · subst hd
            cases hcause
          · simp [symbolLexeme, hd] at hcause
      rw [wordKind_cons hx hg, if_neg hparen, if_neg fun h => hcolon h.1]

theorem literalLexeme_open {q : Char} {cs : List Char} (hcs : q ∉ cs) :
    literalLexeme q (cs.map .char) = .error (0, .openLiteral) := by
  have hdrop : (cs.map Glyph.char).dropWhile (· ≠ .char q) = [] := by
    rw [List.dropWhile_eq_nil_iff]
    intro g hg
    obtain ⟨c, hc, rfl⟩ := List.mem_map.mp hg
    rw [decide_eq_true_eq]
    rintro ⟨⟩
    exact hcs hc
  unfold literalLexeme
  dsimp only
  split
  · rfl
  · next hsplit =>
    rw [hdrop] at hsplit
    cases hsplit

theorem glyphs_cut (q : Char) (cs : List Char) :
    glyphs (encode q ++ cs.flatMap encode) = .char q :: cs.map .char :=
  glyphs_chars (q :: cs)

/-- A literal that is cut off before its closing quote may take the place of the whole. -/
theorem replaces_cut {q : Char} (hq : q ∈ quotes) (cs : List Char) (more : List Glyph) :
    Replaces (encode q ++ cs.flatMap encode) (.char q :: (cs.map .char ++ more)) := by
  have hcolon : q ≠ ':' := by
    rintro rfl
    simp [quotes] at hq
  constructor
  · rw [glyphs_cut]
    exact (List.takeWhile_prefix _).trans (List.prefix_append (.char q :: cs.map .char) more)
  · intro x
    rw [glyphs_cut]
    exact wordKind_congr x (quote_classes q hq).1 fun h => absurd h hcolon

namespace Scanner

variable {s s' : Scanner} {source : Bytes} {e : LexError}

theorem Step.answer_eq (h : Step s s') : s.answer = s'.answer := by
  cases h with
  | gap hg =>
    rw [answer, answer, tokensFrom, if_pos hg]
  | @token o g after ts l hg hl =>
    rw [answer, answer, tokensFrom_lexeme hg hl]
    exact map_map_append _ ts [_]

theorem Run.answer_eq (h : Run s s') : s.answer = s'.answer := by
  induction h with
  | refl => rfl
  | tail _ hstep ih => exact ih.trans hstep.answer_eq

theorem answer_start (source : Bytes) : (start source).answer = tokenize source :=
  map_nil_append _

theorem Fails.answer_eq (h : s.Fails e) : s.answer = .error e := by
  obtain ⟨g, after, hleft, hg, hl⟩ := h
  rw [answer, hleft, tokensFrom, if_neg (Bool.eq_false_iff.mp hg), hl]
  rfl

/-- What is refused is refused in a state that the scanner comes to. -/
theorem exists_fails (o : Nat) (gs : List Glyph) (ts : List Token)
    (h : tokensFrom o gs = .error e) : ∃ s, Run ⟨o, gs, ts⟩ s ∧ s.Fails e := by
  fun_induction tokensFrom o gs generalizing ts with
  | case1 o => cases h
  | case2 o g after hgap ih =>
    obtain ⟨s, hrun, hfails⟩ := ih ts h
    exact ⟨s, hrun.head (.gap hgap), hfails⟩
  | case3 o g after hgap e' hl =>
    cases h
    exact ⟨_, .refl, g, after, rfl, Bool.eq_false_iff.mpr hgap, hl⟩
  | case4 o g after hgap l hl hrest e' herr ih =>
    cases h
    obtain ⟨s, hrun, hfails⟩ := ih (ts ++ [⟨l.kind, l.text, o, l.comparison⟩]) herr
    exact ⟨s, hrun.head (.token (Bool.eq_false_iff.mpr hgap) hl), hfails⟩
  | case5 => cases h

/-- A source is refused where a run of the scanner comes to a state that fails. -/
theorem tokenize_error_iff : tokenize source = .error e ↔ ∃ s, Run (start source) s ∧ s.Fails e := by
  constructor
  · exact exists_fails 0 (glyphs source) []
  · rintro ⟨s, hrun, hfails⟩
    rw [← answer_start, hrun.answer_eq, hfails.answer_eq]

/-- What the scanner has read: behind it every text that may take the place of what is left is
scanned with the same tokens in front. -/
structure Reached (source read : Bytes) (s : Scanner) : Prop where
  source_eq : source = read ++ bytesOf s.left
  offset_eq : s.offset = read.length
  anew : ∀ new, Replaces new s.left →
    tokenize (read ++ new) = (tokensFrom s.offset (glyphs new)).map (s.given ++ ·)

theorem reached_start (source : Bytes) : Reached source [] (start source) where
  source_eq := (bytesOf_glyphs source).symm
  offset_eq := rfl
  anew _ _ := (map_nil_append _).symm

theorem Reached.step {read : Bytes} (h : Reached source read s) (hstep : Step s s') :
    ∃ read', Reached source read' s' := by
  cases hstep with
  | @gap o g after ts hg =>
    obtain ⟨b, hb, hbytes⟩ := gap_bytes hg
    refine ⟨read ++ [b], ?_, ?_, fun new hnew => ?_⟩
    · rw [h.source_eq, bytesOf_cons, hbytes, List.append_assoc]
    · rw [List.length_append, ← h.offset_eq]
      rfl
    · obtain ⟨c, hc, hglyphs⟩ := glyphs_gap hb new
      rw [List.append_assoc, List.singleton_append, h.anew _ (hnew.gap hb hg), hglyphs,
        tokensFrom_gap hc]
  | @token o g after ts l hg hl =>
    obtain ⟨w, hbytes, hwidth, hanew⟩ := lexemeAt_anew hg hl
    refine ⟨read ++ w, ?_, ?_, fun new hnew => ?_⟩
    · rw [h.source_eq, hbytes, List.append_assoc]
    · rw [List.length_append, ← h.offset_eq, hwidth]
    · obtain ⟨hreplaces, htokens⟩ := hanew new hnew
      rw [List.append_assoc, h.anew _ hreplaces, htokens, ← hwidth]
      exact map_map_append _ ts [_]

theorem Run.reached (h : Run (start source) s) : ∃ read, Reached source read s := by
  induction h with
  | refl => exact ⟨[], reached_start source⟩
  | tail _ hstep ih =>
    obtain ⟨read, hread⟩ := ih
    exact hread.step hstep

/-- Up to where the scanner fails the source has the tokens that were given. -/
theorem Reached.tokenize_read {read : Bytes} (h : Reached source read s) (hfails : s.Fails e) :
    tokenize read = .ok s.given := by
  obtain ⟨g, after, hleft, hg, hl⟩ := hfails
  have hnew : Replaces [] s.left := hleft ▸ replaces_nil hg hl
  have hread := h.anew [] hnew
  rw [List.append_nil, tokensFrom_nil] at hread
  rw [hread]
  exact congrArg Except.ok (List.append_nil _)

/-- The scanner fails at its place or, in a literal, at the first stray byte between the quotes. -/
theorem Fails.cases (h : s.Fails e) : e.offset = s.offset ∨
    ∃ q ∈ quotes, ∃ (cs : List Char) (b : UInt8) (rest : List Glyph), q ∉ cs ∧ .char q ∈ rest ∧
      s.left = .char q :: (cs.map .char ++ .stray b :: rest) ∧
      e = ⟨s.offset + (1 + (cs.flatMap encode).length), .badEncoding⟩ := by
  obtain ⟨g, after, hleft, -, hl⟩ := h
  rcases lexemeAt_error_cases hl with ⟨b, -, rfl⟩ | ⟨c, rfl, ⟨cause, -, rfl⟩ |
    ⟨hc, ahead, cause, hliteral, rfl⟩ | ⟨cause, -, rfl⟩⟩
  · exact .inl rfl
  · exact .inl rfl
  · rcases literalLexeme_error hliteral with ⟨rfl, -⟩ | ⟨cs, b, rest, hcs, hrest, rfl, rfl, rfl⟩
    · exact .inl rfl
    · exact .inr ⟨c, hc, cs, b, rest, hcs, hrest, hleft, rfl⟩
  · exact .inl rfl

section Literal

variable {read : Bytes} {q : Char} {cs : List Char} {b : UInt8} {rest : List Glyph}

theorem Reached.source_cut (h : Reached source read s)
    (hleft : s.left = .char q :: (cs.map .char ++ .stray b :: rest)) :
    source = read ++ (encode q ++ cs.flatMap encode ++ bytesOf (.stray b :: rest)) := by
  rw [h.source_eq, hleft, bytesOf_cons, bytesOf_append, bytesOf_chars, List.append_assoc]
  rfl

theorem Reached.inLiteral (h : Reached source read s) (hq : q ∈ quotes) (hcs : q ∉ cs)
    (hrest : .char q ∈ rest) (hleft : s.left = .char q :: (cs.map .char ++ .stray b :: rest)) :
    LexError.InLiteral ⟨s.offset + (1 + (cs.flatMap encode).length), .badEncoding⟩ source
      s.offset := by
  have hascii := quote_ascii q hq
  refine ⟨rfl, q, hq, read, cs.flatMap encode, bytesOf (.stray b :: rest), ?_, h.offset_eq,
    (Nat.add_assoc ..).symm, ?_, ?_⟩
  · rw [h.source_cut hleft, encode_ascii hascii]
    rfl
  · rwa [ascii_mem_flatMap_encode hascii]
  · have hmem : ascii q ∈ (Glyph.char q).bytes := by
      rw [Glyph.bytes, encode_ascii hascii]
      exact List.mem_singleton_self _
    exact List.mem_flatMap.mpr ⟨_, List.mem_cons_of_mem _ hrest, hmem⟩

/-- Cut at a stray byte in it, a literal is refused as never closed. -/
theorem Reached.tokenize_cut (h : Reached source read s) (hq : q ∈ quotes) (hcs : q ∉ cs)
    (hleft : s.left = .char q :: (cs.map .char ++ .stray b :: rest)) :
    tokenize (source.take (s.offset + (1 + (cs.flatMap encode).length))) =
      .error ⟨s.offset, .openLiteral⟩ := by
  have hlength : (encode q ++ cs.flatMap encode).length = 1 + (cs.flatMap encode).length := by
    rw [List.length_append, encode_ascii (quote_ascii q hq)]
    rfl
  have htake : source.take (s.offset + (1 + (cs.flatMap encode).length)) =
      read ++ (encode q ++ cs.flatMap encode) := by
    rw [h.source_cut hleft, h.offset_eq, ← hlength, List.take_length_add_append, List.take_left]
  have hfails : Fails ⟨s.offset, .char q :: cs.map .char, s.given⟩ ⟨s.offset, .openLiteral⟩ := by
    refine ⟨_, _, rfl, (quote_classes q hq).1, ?_⟩
    rw [lexemeAt_quote hq, literalLexeme_open hcs]
    rfl
  rw [htake, h.anew _ (hleft ▸ replaces_cut hq cs _), glyphs_cut]
  exact hfails.answer_eq

end Literal

end Scanner

/-- A source is refused at the first failure of the scanner. Cut where it is blamed, it has the
tokens that the scanner had given. Only a literal with a stray byte in it is refused also when it is
cut there, then as a literal that is never closed; before the literal the source has these tokens. -/
theorem lexical_error_is_first (source : Bytes) :
    (∀ e, tokenize source = .error e ↔
      ∃ s, Scanner.Run (.start source) s ∧ s.Fails e) ∧
    ∀ s e, Scanner.Run (.start source) s → s.Fails e →
      (¬e.InLiteral source s.offset → tokenize (source.take e.offset) = .ok s.given) ∧
      (e.InLiteral source s.offset →
        (∃ e', tokenize (source.take e.offset) = .error e' ∧ e'.offset = s.offset ∧
          e'.cause.message = utf8 "unterminated string literal") ∧
        tokenize (source.take s.offset) = .ok s.given) := by
  refine ⟨fun e => Scanner.tokenize_error_iff, fun s e hrun hfails => ?_⟩
  obtain ⟨read, hread⟩ := Scanner.Run.reached hrun
  -- Before the lexeme that fails the source is cut harmlessly; only in a literal is that not the
  -- place that is blamed.
  have hbefore : tokenize (source.take s.offset) = .ok s.given := by
    rw [hread.source_eq, hread.offset_eq, List.take_left]
    exact hread.tokenize_read hfails
  rcases hfails.cases with hat | ⟨q, hq, cs, b, rest, hcs, hrest, hleft, rfl⟩
  · constructor
    · intro _
      rw [hat]
      exact hbefore
    · rintro ⟨-, q, -, before, inside, rest, -, -, hinside, -⟩
      omega
  · constructor
    · intro hnot
      exact absurd (hread.inLiteral hq hcs hrest hleft) hnot
    · intro _
      exact ⟨⟨_, hread.tokenize_cut hq hcs hleft, rfl, rfl⟩, hbefore⟩

/-- `a/'b` and a stray byte before the closing quote. -/
def strayInLiteral : Bytes := utf8 "a/'b" ++ [0xFF] ++ utf8 "'"

theorem lexical_error_is_first_strayInLiteral :
    tokenize strayInLiteral = .error ⟨4, .badEncoding⟩ ∧
      LexError.InLiteral ⟨4, .badEncoding⟩ strayInLiteral 2 ∧
      ∃ s, Scanner.Run (.start strayInLiteral) s ∧ s.Fails ⟨4, .badEncoding⟩ ∧
        s.given = [⟨.name, utf8 "a", 0, .absent⟩, ⟨.slash, utf8 "/", 1, .absent⟩] ∧
        tokenize (strayInLiteral.take 4) = .error ⟨2, .openLiteral⟩ ∧
        tokenize (strayInLiteral.take s.offset) = .ok s.given := by
  have herr : tokenize strayInLiteral = .error ⟨4, .badEncoding⟩ :=
    eq_error_of_match (by decide +kernel)
  have hcut : tokenize (strayInLiteral.take 4) = .error ⟨2, .openLiteral⟩ :=
    eq_error_of_match (by decide +kernel)
  have hin : LexError.InLiteral ⟨4, .badEncoding⟩ strayInLiteral 2 :=
    ⟨rfl, '\'', by decide, utf8 "a/", utf8 "b", [0xFF] ++ utf8 "'", by decide, by decide, by decide,
      by decide, by decide⟩
  have htokens : tokenize (strayInLiteral.take 2) =
      .ok [⟨.name, utf8 "a", 0, .absent⟩, ⟨.slash, utf8 "/", 1, .absent⟩] :=
    eq_ok_of_toOption (by decide +kernel)
  obtain ⟨hfirst, hall⟩ := lexical_error_is_first strayInLiteral
  obtain ⟨s, hrun, hfails⟩ := (hfirst _).mp herr
  obtain ⟨hno, hyes⟩ := hall s _ hrun hfails
  by_cases hliteral : LexError.InLiteral ⟨4, .badEncoding⟩ strayInLiteral s.offset
  · obtain ⟨⟨e', hcut', hoffset, -⟩, hgiven⟩ := hyes hliteral
    have he : LexError.mk 2 .openLiteral = e' := Except.error.inj (hcut.symm.trans hcut')
    have hat : s.offset = 2 := by rw [← hoffset, ← he]
    have heq : s.given = [⟨.name, utf8 "a", 0, .absent⟩, ⟨.slash, utf8 "/", 1, .absent⟩] := by
      rw [hat, htokens] at hgiven
      exact (Except.ok.inj hgiven).symm
    exact ⟨herr, hin, s, hrun, hfails, heq, hcut, hgiven⟩
  · have hok := hno hliteral
    rw [hcut] at hok
    cases hok

end NodePath
