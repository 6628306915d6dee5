import NodePath.Proofs.LexicalErrors
import NodePath.Proofs.SingleLines
import NodePath.Proofs.ViablePrefix

/-!
# Where errors stand

An error of either reader has a place in its source that lies between two characters. An error of
the reader of trees stands where one of the tokens begins, or where the last one ends when the input
was over too early. It can be shown there on three lines.
-/

namespace NodePath

open NodePath.Text NodePath.Number

/-- The place of an error in its source. -/
def ParseError.offset : ParseError → Int
  | .lexical e => e.offset
  | .grammatical e => e.offset

/-- What a token is written with is well-formed, and a character begins it. -/
theorem Written.form_wellFormed {k : Kind} {x w : Bytes} {c : Comparison} (h : Written k x c w) :
    NodePath.Text.isWellFormed w = true ∧ ∃ a rest, w = a :: rest ∧ isTail a = false := by
  have hw : NodePath.Text.isWellFormed w = true := by
    rcases h.spelling with ⟨-, -, rfl⟩ | ⟨-, q, hq, -, rfl⟩
    · exact h.isWellFormed
    · have hquotes : ∀ q ∈ quotes, NodePath.Text.isWellFormed [ascii q] = true :=
        List.all_iff_forall_prop.mp (by decide)
      exact isWellFormed_append (hquotes q hq) (isWellFormed_append h.isWellFormed (hquotes q hq))
  refine ⟨hw, ?_⟩
  obtain ⟨cs, hcs⟩ := isWellFormed_iff.mp hw
  cases cs with
  | nil =>
    have hpos := (h.stop 0).2
    rw [hcs] at hpos
    exact absurd hpos (Nat.lt_irrefl 0)
  | cons c cs =>
    obtain ⟨a, tail, hlead, ha, -⟩ := encode_lead c
    exact ⟨a, _, by rw [hcs, List.flatMap_cons, hlead, List.cons_append], ha⟩

section Places

variable {source : Bytes} {tokens : List Token}

/-- A place between two characters of a source, or at one of its ends. -/
def IsPlace (source : Bytes) (offset : Int) : Prop :=
  0 ≤ offset ∧ offset ≤ source.length ∧ isWellFormed (source.take offset.toNat) = true

theorem isPlace_length {before after : Bytes} (h : isWellFormed before = true) :
    IsPlace (before ++ after) before.length := by
  refine ⟨Int.natCast_nonneg _, ?_, ?_⟩
  · rw [List.length_append]
    omega
  · rwa [Int.toNat_natCast, List.take_left]

/-- Tokens begin and end between characters. -/
theorem token_places (h : tokenize source = .ok tokens) {t : Token} (ht : t ∈ tokens) :
    IsPlace source t.offset ∧ IsPlace source t.stop := by
  have htiles := tokensFrom_tiles 0 (glyphs source) h
  rw [bytesOf_glyphs] at htiles
  obtain ⟨before, w, after, hsource, hoffset, hw⟩ := htiles.mem ht
  obtain ⟨hwell, a, rest, hform, ha⟩ := hw.form_wellFormed
  have hall : isWellFormed source = true := tokensFrom_chars 0 (glyphs source) h
  rw [hsource, hform] at hall
  have hbefore : isWellFormed before = true := (isWellFormed_split ha hall).1
  have hstart : t.offset = before.length := by omega
  have hstop : t.stop = (before ++ w).length := by
    have hform : t.stop = t.offset + w.length := (hw.stop t.offset).1
    rw [List.length_append]
    omega
  constructor
  · rw [hstart, hsource]
    exact isPlace_length hbefore
  · rw [hstop, hsource, ← List.append_assoc]
    exact isPlace_length (isWellFormed_append hbefore hwell)

theorem endOf_append (ts : List Token) (t : Token) : endOf (ts ++ [t]) = t.stop := by
  simp [endOf]

/-- The input ends behind every token of it. -/
theorem stop_le_endOf (h : Tiling source tokens) {t : Token} (ht : t ∈ tokens) :
    t.stop ≤ endOf tokens := by
  obtain ⟨front, last, rfl⟩ := List.eq_nil_or_concat' tokens |>.resolve_left (List.ne_nil_of_mem ht)
  rw [endOf_append]
  rcases List.mem_append.mp ht with hfront | hlast
  · have hbelow := (List.pairwise_append.mp h.ascending).2.2 t hfront last (by simp)
    have hinside := h.inside last (by simp)
    omega
  · obtain rfl := List.mem_singleton.mp hlast
    exact Int.le_refl _

theorem endOf_place (h : tokenize source = .ok tokens) : IsPlace source (endOf tokens) := by
  rcases List.eq_nil_or_concat' tokens with rfl | ⟨front, last, rfl⟩
  · exact ⟨Int.le_refl 0, Int.natCast_nonneg _, rfl⟩
  · rw [endOf_append]
    exact (token_places h (by simp)).2

/-- What a syntax error found is a token of its list, or the end behind them all. -/
theorem parseTokens_found {ts : List Token} {err : SyntaxError}
    (h : parseTokens ts = .error err) : err.found ∈ ts ∨ err.found = .endAt (endOf ts) := by
  obtain ⟨us, vs, hts, hblame, -⟩ := parseTokens_refused h
  have hfound : err.found = nextToken (endOf ts) vs := congrArg SyntaxError.found hblame
  cases vs with
  | nil => exact .inr hfound
  | cons t vs =>
    refine .inl ?_
    rw [hfound, hts]
    simp [nextToken]

end Places

theorem ParseError.isLine_problem (err : ParseError) :
    ∃ message, Problem.ofParseError err = .located err.offset message ∧ IsLine message := by
  cases err with
  | lexical e => exact ⟨e.cause.message, rfl, e.cause.isLine_message⟩
  | grammatical e =>
    refine ⟨_, rfl, ?_⟩
    simp only [isLine_append]
    exact ⟨⟨⟨by decide, e.expected.isLine_text⟩, by decide⟩, e.found.isLine_describe⟩

/-- Every error has a place between two characters of its source: inside it when no lexeme fits
there, and else where one of its tokens begins, or exactly when the input ended too early where the
last one ends. Without colours it is shown on three lines. -/
theorem error_place {source : Bytes} {err : ParseError} (h : parse source = .error err) :
    IsPlace source err.offset ∧
    (∀ e, err = .lexical e → err.offset < source.length) ∧
    (∀ e, err = .grammatical e → ∃ tokens, tokenize source = .ok tokens ∧
      (e.found.describe = utf8 "end of input" ↔ err.offset = endOf tokens) ∧
      (e.found.describe ≠ utf8 "end of input" →
        ∃ t ∈ tokens, e.found = t ∧ err.offset = t.offset)) ∧
    ∃ first second third, IsLine first ∧ IsLine second ∧ IsLine third ∧
      (Problem.ofParseError err).render false source =
        first ++ [newline] ++ (second ++ [newline]) ++ (third ++ [newline]) := by
  have hshown : ∃ first second third, IsLine first ∧ IsLine second ∧ IsLine third ∧
      (Problem.ofParseError err).render false source =
        first ++ [newline] ++ (second ++ [newline]) ++ (third ++ [newline]) := by
    obtain ⟨message, hproblem, hmessage⟩ := err.isLine_problem
    rw [hproblem]
    exact render_located err.offset hmessage
  rw [parse] at h
  split at h
  · next e he =>
    cases h
    obtain ⟨hlt, hwell, -⟩ := tokenize_refused he
    have hplace : IsPlace source e.offset :=
      ⟨Int.natCast_nonneg _, Int.ofNat_le.mpr (Nat.le_of_lt hlt), hwell⟩
    refine ⟨hplace, fun _ _ => Int.ofNat_lt.mpr hlt, ?_, hshown⟩
    rintro e' ⟨⟩
  · next tokens htokens =>
    cases hts : parseTokens tokens with
    | ok e =>
      rw [hts] at h
      cases h
    | error e =>
      rw [hts] at h
      cases h
      have htiling := tokenize_tiling htokens
      rcases parseTokens_found hts with hmem | hend
      · have hend : e.found.describe ≠ utf8 "end of input" :=
          mt describe_eq_end.mp (htiling.noEnd _ hmem)
        have hbefore : e.found.offset ≠ endOf tokens := by
          have hinside := htiling.inside _ hmem
          have hstop := stop_le_endOf htiling hmem
          omega
        refine ⟨(token_places htokens hmem).1, fun e' he => (by cases he), ?_, hshown⟩
        rintro e' ⟨⟩
        exact ⟨tokens, htokens, iff_of_false hend hbefore, fun _ => ⟨_, hmem, rfl, rfl⟩⟩
      · have hoffset : e.found.offset = endOf tokens := by rw [hend]; rfl
        have hdescribe : e.found.describe = utf8 "end of input" := by rw [hend]; rfl
        have hplace : IsPlace source e.found.offset := hoffset.symm ▸ endOf_place htokens
        refine ⟨hplace, fun e' he => (by cases he), ?_, hshown⟩
        rintro e' ⟨⟩
        exact ⟨tokens, htokens, iff_of_true hdescribe hoffset, fun hne => absurd hdescribe hne⟩

/-- A group that is never closed: a line end, and a literal of one letter of two bytes. -/
def openGroup : Bytes := utf8 "(\n'é'"

theorem error_place_openGroup :
    ∃ err : SyntaxError, parse openGroup = .error (.grammatical err) ∧ err.offset = 6 ∧
      err.found.describe = utf8 "end of input" ∧ IsPlace openGroup err.offset ∧
      ∃ first second third, IsLine first ∧ IsLine second ∧ IsLine third ∧
        (Problem.ofParseError (.grammatical err)).render false openGroup =
          first ++ [newline] ++ (second ++ [newline]) ++ (third ++ [newline]) := by
  have herr : parse openGroup = .error (.grammatical ⟨.rightParen, .endAt 6, 0⟩) :=
    eq_error_of_match (by decide +kernel)
  obtain ⟨hplace, -, -, hshown⟩ := error_place herr
  exact ⟨_, herr, rfl, rfl, hplace, hshown⟩

end NodePath
