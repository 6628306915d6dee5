import NodePath.Proofs.CanonicalTokens

/-!
# Canonical texts derive their trees

By induction on the tree, the canonical text of a well-formed tree is read as tokens that derive the
tree. The nesting of that derivation is computed along the tree: it counts what the text encloses a
primary with, the parentheses around operands and sources included.
-/

namespace NodePath

open NodePath.Text NodePath.Number

mutual

/-- The largest number of groups, predicates, arguments and minus signs that one primary of the
canonical text lies inside of. -/
def Expr.nesting : Expr → Nat
  | .missing | .literal _ | .number _ | .boolean _ | .reference _ | .root | .rootName _ => 0
  | .path steps | .absolute steps | .everywhere steps => pathNesting steps
  | .call _ args => innerNesting args
  | .negate operand => operand.nesting + operand.isBinary.toNat + 1
  | .binary _ _ lhs rhs =>
    max (lhs.nesting + lhs.isBinary.toNat) (rhs.nesting + rhs.isBinary.toNat)
  | .filter source predicates =>
    max (source.nesting + (!source.delimitsItself).toNat) (innerNesting predicates)
  | .continued source _ steps =>
    max (source.nesting + (!(source.delimitsItself || source.isFilter)).toNat) (pathNesting steps)

/-- Each argument and each predicate encloses what it holds once more. -/
def innerNesting : List Expr → Nat
  | [] => 0
  | e :: rest => max (e.nesting + 1) (innerNesting rest)

def pathNesting : List (Separator × Step) → Nat
  | [] => 0
  | (_, step) :: rest => max step.nesting (pathNesting rest)

def Step.nesting : Step → Nat
  | .mk _ _ predicates => innerNesting predicates

end

/-- The operators with the comparisons they take. -/
def operations : List (Operator × Comparison) :=
  [(.or, .absent), (.and, .absent), (.equals, .absent), (.add, .absent), (.subtract, .absent),
   (.union, .absent), (.intersect, .absent), (.stream, .absent), (.compare, .less),
   (.compare, .lessEqual), (.compare, .greater), (.compare, .greaterEqual), (.compare, .notEqual)]

theorem Operator.Takes.mem {op : Operator} {c : Comparison} (h : op.Takes c) :
    (op, c) ∈ operations := by
  obtain ⟨hop, hc⟩ := h
  simp only [Operator.all, List.mem_cons, List.not_mem_nil, or_false] at hop
  rcases hop with rfl | rfl | rfl | rfl | rfl | rfl | rfl | rfl | rfl
  case inr.inr.inr.inl =>
    simp only [if_true, comparisons, List.mem_cons, List.not_mem_nil, or_false] at hc
    rcases hc with rfl | rfl | rfl | rfl | rfl <;> decide
  all_goals
    simp only [reduceCtorEq, if_false] at hc
    subst hc
    decide

theorem stops_operator {op : Operator} {c : Comparison} (h : op.Takes c) (rest : Bytes) :
    Stops (utf8 " " ++ (op.written c ++ rest)) := by
  have hstarts : ∀ p ∈ operations,
      (p.1.written p.2).head? ∈ operatorStarts.map fun d => some (ascii d) := by decide
  obtain ⟨d, hd, hhead⟩ := List.mem_map.mp (hstarts _ h.mem)
  obtain ⟨r, hr⟩ := List.head?_eq_some_iff.mp hhead.symm
  simp only at hr
  rw [hr]
  exact .operator hd (r ++ rest)

/-- A text that begins with a blank. -/
def Spaced (s : Bytes) : Prop := ∃ r, s = utf8 " " ++ r

theorem Spaced.notBefore {p : Char → Bool} (hp : p ' ' = false) {s : Bytes} (h : Spaced s) :
    NotBefore p s := by
  obtain ⟨r, rfl⟩ := h
  exact notBefore_ascii (by decide) hp r

theorem scans_wordOperator {s : String} (hs : isWordText s = true) {k : Kind}
    (hk : keyword? (utf8 s) = some k) : Scans Spaced (utf8 s) (IsToken k (utf8 s) .absent) :=
  (scans_keyword (isWord_utf8 hs) hk).before fun _ h => h.notBefore (by decide)

/-- The text of an operator is one token, of the kind of the level of the operator. -/
theorem scans_operator {op : Operator} {c : Comparison} (h : op.Takes c) :
    ∃ n k, (1 ≤ n ∧ n ≤ 9) ∧ operatorAt n = some (k, op) ∧
      Scans Spaced (op.written c) (IsToken k (op.written c) c) := by
  have hmem := h.mem
  simp only [operations, List.mem_cons, List.not_mem_nil, or_false, Prod.mk.injEq] at hmem
  rcases hmem with h | h | h | h | h | h | h | h | h | h | h | h | h
  all_goals obtain ⟨rfl, rfl⟩ := h
  · exact ⟨9, _, by decide, rfl, scans_wordOperator (by decide) rfl⟩
  · exact ⟨8, _, by decide, rfl, scans_wordOperator (by decide) rfl⟩
  · exact ⟨7, _, by decide, rfl, scans_closed (by decide)⟩
  · exact ⟨5, _, by decide, rfl, scans_closed (by decide)⟩
  · exact ⟨4, _, by decide, rfl, scans_closed (by decide)⟩
  · exact ⟨3, _, by decide, rfl, scans_closed (by decide)⟩
  · exact ⟨2, _, by decide, rfl, scans_wordOperator (by decide) rfl⟩
  · exact ⟨1, _, by decide, rfl, scans_wordOperator (by decide) rfl⟩
  · exact ⟨6, _, by decide, rfl, (scans_open (by decide : (_, _, '<', '=') ∈ _)).before
      fun _ h => h.notBefore (by decide)⟩
  · exact ⟨6, _, by decide, rfl, scans_closed (by decide)⟩
  · exact ⟨6, _, by decide, rfl, (scans_open (by decide : (_, _, '>', '=') ∈ _)).before
      fun _ h => h.notBefore (by decide)⟩
  · exact ⟨6, _, by decide, rfl, scans_closed (by decide)⟩
  · exact ⟨6, _, by decide, rfl, scans_closed (by decide)⟩

/-- A text that stands for an expression: alone, as an operand, and, as far as the expression allows
it, before predicates and steps. -/
structure Expr.Readable (e : Expr) (s : Bytes) : Prop where
  whole : Scans Stops s fun ts => Derives (.level 1) e.nesting ts e
  unary : e.isBinary = false → Scans Stops s fun ts => Derives .unary e.nesting ts e
  source : e.delimitsItself = true → Scans Pauses s fun ts => Derives .source e.nesting ts e
  filtered : ∀ source predicates, e = .filter source predicates → predicates ≠ [] ∧
    Scans Pauses s fun ts => ∃ d d' us vs, ts = us ++ vs ∧ Derives .source d us source ∧
      Derives .predicates d' vs predicates ∧ e.nesting = max d d'

section Readable

variable {e : Expr} {s : Bytes}

theorem Derives.unary_level {d : Nat} {ts : List Token} (h : Derives .unary d ts e) {n : Nat}
    (hn : n ≤ 10) : Derives (.level n) d ts e := (Derives.operand h).loosen hn

theorem Derives.source_primary {d : Nat} {ts : List Token} (h : Derives .source d ts e) :
    Derives .primary d ts e := by
  have hprimary := Derives.filtered h .noPredicates
  rwa [List.append_nil, Nat.max_zero] at hprimary

theorem readable_of_unary (h : Scans Stops s fun ts => Derives .unary e.nesting ts e)
    (hd : e.delimitsItself = false) (hf : e.isFilter = false) : e.Readable s where
  whole := h.imp fun _ hts => hts.unary_level (by decide)
  unary := fun _ => h
  source := fun ht => absurd ht (by rw [hd]; exact Bool.false_ne_true)
  filtered := by
    rintro source predicates rfl
    cases hf

theorem readable_of_primary (h : Scans Stops s fun ts => Derives .primary e.nesting ts e)
    (hd : e.delimitsItself = false) (hf : e.isFilter = false) : e.Readable s :=
  readable_of_unary (h.imp fun _ hts => .unsigned hts) hd hf

theorem readable_of_source (h : Scans Pauses s fun ts => Derives .source e.nesting ts e)
    (hf : e.isFilter = false) : e.Readable s where
  whole := (h.before fun _ => .stop).imp fun _ hts =>
    (Derives.unsigned hts.source_primary).unary_level (by decide)
  unary := fun _ => (h.before fun _ => .stop).imp fun _ hts => .unsigned hts.source_primary
  source := fun _ => h
  filtered := by
    rintro source predicates rfl
    cases hf

theorem scans_group {d : Nat} (h : Scans Stops s fun ts => Derives (.level 1) d ts e)
    {f : Bytes → Prop} : Scans f (parenthesized s) fun ts => Derives .source (d + 1) ts e := by
  refine (h.parenthesized stops_rightParen).imp ?_
  rintro ts ⟨l, r, us, rfl, hl, hus, hr⟩
  exact .group hl hus hr

theorem Expr.Readable.group (h : e.Readable s) {f : Bytes → Prop} :
    Scans f (parenthesized s) fun ts => Derives .source (e.nesting + 1) ts e :=
  scans_group h.whole

theorem Expr.Readable.operand (h : e.Readable s) :
    Scans Stops (parenthesizedIf e.isBinary s) fun ts =>
      Derives .unary (e.nesting + e.isBinary.toNat) ts e := by
  cases hb : e.isBinary with
  | false => exact h.unary hb
  | true => exact h.group.imp fun _ hts => .unsigned hts.source_primary

theorem Expr.Readable.grouped (h : e.Readable s) :
    Scans Pauses (parenthesizedIf (!e.delimitsItself) s) fun ts =>
      Derives .source (e.nesting + (!e.delimitsItself).toNat) ts e := by
  cases hd : e.delimitsItself with
  | false => exact h.group
  | true => exact h.source hd

theorem scans_negated {d : Nat} (h : Scans Stops s fun ts => Derives .unary d ts e) :
    Scans Stops (utf8 "-" ++ s) fun ts => Derives .unary (d + 1) ts (.negate e) := by
  have hminus : Scans (fun _ => True) (utf8 "-") (IsMark .minus) := scans_mark (by decide)
  refine hminus.append h (fun _ _ => trivial) ?_
  rintro ts us ⟨t, rfl, ht⟩ hus
  exact .negated ht hus

theorem Expr.Readable.negate (h : e.Readable s) :
    (Expr.negate e).Readable (utf8 "-" ++ parenthesizedIf e.isBinary s) :=
  readable_of_unary (scans_negated h.operand) rfl rfl

/-- Operands around an operator, the right one of a tighter level. -/
theorem scans_binary {op : Operator} {c : Comparison} (h : op.Takes c) {n : Nat} {k : Kind}
    (hlevel : operatorAt n = some (k, op))
    (hop : Scans Spaced (op.written c) (IsToken k (op.written c) c)) {l r : Expr} {s t : Bytes}
    {d d' : Nat} (hl : Scans Stops s fun ts => Derives (.level n) d ts l)
    (hr : Scans Stops t fun ts => Derives (.level (n + 1)) d' ts r) :
    Scans Stops (s ++ utf8 " " ++ op.written c ++ utf8 " " ++ t) fun ts =>
      Derives (.level n) (max d d') ts (.binary op c l r) := by
  have hright : Scans Stops (utf8 " " ++ t) fun ts => Derives (.level (n + 1)) d' ts r := by
    refine (scans_blank (f := fun _ => True)).append hr (fun _ _ => trivial) ?_
    rintro ts us rfl hus
    exact hus
  have hsign : Scans Spaced (utf8 " " ++ op.written c) (IsToken k (op.written c) c) := by
    refine (scans_blank (f := fun _ => True)).append hop (fun _ _ => trivial) ?_
    rintro ts us rfl hus
    exact hus
  have hleft : Scans Spaced (s ++ (utf8 " " ++ op.written c)) fun ts =>
      ∃ us t, ts = us ++ [t] ∧ Derives (.level n) d us l ∧
        operatorAt n = some (Token.kind t, op) ∧ t.comparison = c := by
    refine hl.append hsign (fun rest _ => ?_) ?_
    · rw [List.append_assoc]
      exact stops_operator h rest
    · rintro ts us hts ⟨o, rfl⟩
      exact ⟨ts, _, rfl, hts, hlevel, rfl⟩
  have hall := hleft.append hright
    (R := fun ts => Derives (.level n) (max d d') ts (.binary op c l r))
    (fun rest _ => ⟨_, List.append_assoc ..⟩) ?_
  · simpa only [List.append_assoc] using hall
  · rintro ts us ⟨vs, t, rfl, hvs, ht, rfl⟩ hus
    rw [List.append_assoc]
    exact .binary hvs ht hus

theorem Expr.Readable.binary {l r : Expr} {s t : Bytes} (hl : l.Readable s) (hr : r.Readable t)
    {op : Operator} {c : Comparison} (h : op.Takes c) :
    (Expr.binary op c l r).Readable (parenthesizedIf l.isBinary s ++ utf8 " " ++ op.written c ++
      utf8 " " ++ parenthesizedIf r.isBinary t) where
  whole := by
    obtain ⟨n, k, hn, hlevel, hop⟩ := scans_operator h
    refine (scans_binary h hlevel hop (hl.operand.imp fun _ hts => hts.unary_level (by omega))
      (hr.operand.imp fun _ hts => hts.unary_level (by omega))).imp ?_
    intro ts hts
    exact hts.loosen hn.1
  unary := fun hb => by cases hb
  source := fun hd => by cases hd
  filtered := fun _ _ he => by cases he

theorem scans_predicate {d d' : Nat} (h : Scans Stops s fun ts => Derives (.level 1) d ts e)
    {ps : List Expr} {t : Bytes} (ht : Scans Pauses t fun ts => Derives .predicates d' ts ps) :
    Scans Pauses (utf8 "[" ++ s ++ utf8 "]" ++ t) fun ts =>
      Derives .predicates (max (d + 1) d') ts (e :: ps) := by
  have hclose : ∀ rest, Stops (utf8 "]" ++ rest) := fun rest => .closer (by decide) rest
  have hfirst : Scans (fun _ => True) (utf8 "[" ++ s ++ utf8 "]")
      (Enclosed .leftBracket .rightBracket fun ts => Derives (.level 1) d ts e) :=
    h.enclosed (by decide) (by decide) hclose
  refine hfirst.append ht (fun _ _ => trivial) ?_
  rintro ts us ⟨l, r, vs, rfl, hl, hvs, hr⟩ hus
  have hder := Derives.predicate hl hvs hr hus
  simpa using hder

/-- Predicates may follow whatever steps and separators may follow. -/
structure PredicatesReadable (ps : List Expr) (t : Bytes) : Prop where
  scans : Scans Pauses t fun ts => Derives .predicates (innerNesting ps) ts ps
  pauses : ∀ rest, Pauses rest → Pauses (t ++ rest)

theorem predicatesReadable_nil : PredicatesReadable [] [] :=
  ⟨scans_nil .noPredicates, fun _ h => h⟩

theorem Expr.Readable.predicate (h : e.Readable s) {ps : List Expr} {t : Bytes}
    (ht : PredicatesReadable ps t) :
    PredicatesReadable (e :: ps) (utf8 "[" ++ s ++ utf8 "]" ++ t) where
  scans := scans_predicate h.whole ht.scans
  pauses := fun rest _ => .opener (c := '[') (by decide) _

theorem Expr.Readable.filter (h : e.Readable s) {ps : List Expr} {t : Bytes}
    (ht : PredicatesReadable ps t) (hps : ps ≠ []) :
    (Expr.filter e ps).Readable (parenthesizedIf (!e.delimitsItself) s ++ t) := by
  have hscan : Scans Pauses (parenthesizedIf (!e.delimitsItself) s ++ t) fun ts =>
      ∃ us vs, ts = us ++ vs ∧ Derives .source (e.nesting + (!e.delimitsItself).toNat) us e ∧
        Derives .predicates (innerNesting ps) vs ps :=
    h.grouped.append ht.scans ht.pauses fun us vs hus hvs => ⟨us, vs, rfl, hus, hvs⟩
  have hunary : Scans Stops (parenthesizedIf (!e.delimitsItself) s ++ t) fun ts =>
      Derives .unary (Expr.filter e ps).nesting ts (.filter e ps) := by
    refine (hscan.before fun _ => .stop).imp ?_
    rintro ts ⟨us, vs, rfl, hus, hvs⟩
    obtain ⟨p, ps, rfl⟩ := List.exists_cons_of_ne_nil hps
    exact .unsigned (.filtered hus hvs)
  refine ⟨hunary.imp fun _ hts => hts.unary_level (by decide), fun _ => hunary, ?_, ?_⟩
  · intro hd
    cases hd
  · rintro source predicates ⟨⟩
    refine ⟨hps, hscan.imp ?_⟩
    rintro ts ⟨us, vs, rfl, hus, hvs⟩
    exact ⟨_, _, us, vs, rfl, hus, hvs, rfl⟩

/-- What may stand before a separator: a source with its predicates, if it has any. -/
theorem Expr.Readable.beforeSteps (h : e.Readable s) :
    Scans Pauses (parenthesizedIf (!(e.delimitsItself || e.isFilter)) s) fun ts =>
      ∃ source ps d d' us vs, e = narrowed source ps ∧ ts = us ++ vs ∧ Derives .source d us source ∧
        Derives .predicates d' vs ps ∧
        e.nesting + (!(e.delimitsItself || e.isFilter)).toNat = max d d' := by
  cases hf : e.isFilter with
  | true =>
    cases e with
    | filter source ps =>
      obtain ⟨hps, hscan⟩ := h.filtered source ps rfl
      obtain ⟨p, ps, rfl⟩ := List.exists_cons_of_ne_nil hps
      refine hscan.imp ?_
      rintro ts ⟨d, d', us, vs, rfl, hus, hvs, hnesting⟩
      exact ⟨source, p :: ps, d, d', us, vs, rfl, rfl, hus, hvs, hnesting⟩
    | _ => cases hf
  | false =>
    rw [Bool.or_false]
    refine h.grouped.imp ?_
    intro ts hts
    exact ⟨e, [], _, 0, ts, [], rfl, (List.append_nil ts).symm, hts, .noPredicates,
      (Nat.max_zero _).symm⟩

end Readable

/-- The text of a step. -/
structure Step.Readable (step : Step) (t : Bytes) : Prop where
  scans : Scans Pauses t fun ts => Derives .step step.nesting ts step
  begins : Begins (· ≠ '/') t

theorem scans_separator {separator : Separator} (h : separator.IsWritten) :
    Scans (Begins (· ≠ '/')) separator.symbol fun ts =>
      ∃ t : Token, ts = [t] ∧ separatorOf t.kind = some separator := by
  rcases h with rfl | rfl
  · have hslash := scans_open (by decide : (Kind.slash, Comparison.absent, '/', '/') ∈ _)
    refine (hslash.before fun rest hrest => hrest.notBefore (by simp)).imp ?_
    rintro ts ⟨o, rfl⟩
    exact ⟨_, rfl, rfl⟩
  · have hslashes : Scans (Begins (· ≠ '/')) (utf8 "//") (IsMark .doubleSlash) :=
      scans_mark (by decide)
    refine hslashes.imp ?_
    rintro ts ⟨t, rfl, ht⟩
    exact ⟨t, rfl, by rw [ht]; rfl⟩

/-- Steps after their separators may follow whatever predicates may follow. -/
structure FurtherReadable (p : Path) (t : Bytes) : Prop where
  scans : Scans Stops t fun ts => Derives .furtherSteps (pathNesting p) ts p
  pauses : ∀ rest, Stops rest → Pauses (t ++ rest)

theorem furtherReadable_nil : FurtherReadable [] [] :=
  ⟨scans_nil .noFurtherSteps, fun _ => .stop⟩

theorem pauses_separator {separator : Separator} (h : separator.IsWritten) (rest : Bytes) :
    Pauses (separator.symbol ++ rest) := by
  rcases h with rfl | rfl
  · exact .opener (c := '/') (by decide) rest
  · exact .opener (c := '/') (by decide) _

theorem Step.Readable.further {step : Step} {s : Bytes} (h : step.Readable s)
    {separator : Separator} (hsep : separator.IsWritten) {p : Path} {t : Bytes}
    (ht : FurtherReadable p t) :
    FurtherReadable ((separator, step) :: p) (separator.symbol ++ s ++ t) where
  scans := by
    have hstep : Scans Pauses (separator.symbol ++ s) fun ts =>
        ∃ (t : Token) (us : List Token), ts = t :: us ∧ separatorOf t.kind = some separator ∧
          Derives .step step.nesting us step := by
      refine (scans_separator hsep).append h.scans (fun rest _ => h.begins.append rest) ?_
      rintro ts us ⟨t, rfl, ht⟩ hus
      exact ⟨t, us, rfl, ht, hus⟩
    refine hstep.append ht.scans ht.pauses ?_
    rintro ts us ⟨t, vs, rfl, ht, hvs⟩ hus
    exact .furtherStep ht hvs hus
  pauses := by
    intro rest _
    rw [List.append_assoc, List.append_assoc]
    exact pauses_separator hsep _

/-- The text of a path, the first step of which has no separator. -/
structure PathReadable (p : Path) (t : Bytes) : Prop where
  scans : Scans Stops t fun ts => Derives .path (pathNesting p) ts p
  begins : Begins (· ≠ '/') t

theorem Step.Readable.path {step : Step} {s : Bytes} (h : step.Readable s) {p : Path} {t : Bytes}
    (ht : FurtherReadable p t) : PathReadable ((.absent, step) :: p) (s ++ t) where
  scans := h.scans.append ht.scans ht.pauses fun _ _ hus hvs => .steps hus hvs
  begins := h.begins.append t

theorem PathReadable.relative {p : Path} {t : Bytes} (h : PathReadable p t) :
    (Expr.path p).Readable t :=
  readable_of_primary (h.scans.imp fun _ hts => .relative hts) rfl rfl

theorem PathReadable.absolute {p : Path} {t : Bytes} (h : PathReadable p t) :
    (Expr.absolute p).Readable (utf8 "/" ++ t) := by
  refine readable_of_primary ?_ rfl rfl
  have hslash := scans_open (by decide : (Kind.slash, Comparison.absent, '/', '/') ∈ _)
  refine hslash.append h.scans (fun rest _ => (h.begins.append rest).notBefore (by simp)) ?_
  rintro ts us ⟨o, rfl⟩ hus
  exact .absolute rfl hus

theorem PathReadable.everywhere {p : Path} {t : Bytes} (h : PathReadable p t) :
    (Expr.everywhere p).Readable (utf8 "//" ++ t) := by
  refine readable_of_primary ?_ rfl rfl
  have hslashes : Scans (fun _ => True) (utf8 "//") (IsMark .doubleSlash) := scans_mark (by decide)
  refine hslashes.append h.scans (fun _ _ => trivial) ?_
  rintro ts us ⟨x, rfl, hx⟩ hus
  exact .everywhere hx hus

theorem PathReadable.continued {e : Expr} {s : Bytes} (h : e.Readable s) {separator : Separator}
    (hsep : separator.IsWritten) {p : Path} {t : Bytes} (ht : PathReadable p t) :
    (Expr.continued e separator p).Readable
      (parenthesizedIf (!(e.delimitsItself || e.isFilter)) s ++ separator.symbol ++ t) := by
  refine readable_of_primary ?_ rfl rfl
  have hsource : Scans (Begins (· ≠ '/'))
      (parenthesizedIf (!(e.delimitsItself || e.isFilter)) s ++ separator.symbol) fun ts =>
      ∃ (source : Expr) (ps : List Expr) (d d' : Nat) (us vs : List Token) (x : Token),
        e = narrowed source ps ∧ ts = us ++ (vs ++ [x]) ∧ Derives .source d us source ∧
        Derives .predicates d' vs ps ∧ separatorOf x.kind = some separator ∧
        e.nesting + (!(e.delimitsItself || e.isFilter)).toNat = max d d' := by
    refine h.beforeSteps.append (scans_separator hsep) (fun rest _ => pauses_separator hsep rest) ?_
    rintro ts ws ⟨source, ps, d, d', us, vs, he, rfl, hus, hvs, hnesting⟩ ⟨x, rfl, hx⟩
    exact ⟨source, ps, d, d', us, vs, x, he, by rw [List.append_assoc], hus, hvs, hx, hnesting⟩
  refine hsource.append ht.scans (fun rest _ => ht.begins.append rest) ?_
  rintro ts ws ⟨source, ps, d, d', us, vs, x, he, rfl, hus, hvs, hx, hnesting⟩ hws
  have hder := Derives.continued hus hvs hx hws
  rw [← he] at hder
  rw [Expr.nesting, hnesting, Nat.max_assoc]
  simpa using hder

theorem sign_readable {step : Abbreviation} (h : step = .self ∨ step = .parent) :
    (Step.sign step).Readable step.text := by
  rcases h with rfl | rfl
  · have hdot := scans_open (by decide : (Kind.dot, Comparison.absent, '.', '.') ∈ _)
    have hend : ∀ c, decide (c = '.') = true → isNamePart c = true := by
      intro c hc
      rw [of_decide_eq_true hc]
      decide
    refine ⟨(hdot.before fun rest h => h.notBefore_namePart.mono hend).imp ?_, '.', [], rfl,
      by decide⟩
    rintro ts ⟨o, rfl⟩
    exact .selfStep rfl
  · have hdots : Scans Pauses (utf8 "..") (IsMark .doubleDot) := scans_mark (by decide)
    refine ⟨hdots.imp ?_, '.', utf8 ".", rfl, by decide⟩
    rintro ts ⟨t, rfl, ht⟩
    exact .parentStep ht

/-- A test with its predicates, after an axis or not. -/
theorem step_readable {axis : Option Axis} (haxis : ∀ a ∈ axis, a.WellFormed) {test : Test}
    {s t : Bytes} (hbegins : Begins (· ≠ '/') s)
    (hs : Scans Pauses s fun ts => Derives .test 0 ts test) {ps : List Expr}
    (ht : PredicatesReadable ps t) :
    (Step.mk axis test ps).Readable ((axis.map Axis.text).getD [] ++ s ++ t) := by
  have hbody : Scans Pauses (s ++ t) fun ts => ∃ us vs, ts = us ++ vs ∧ Derives .test 0 us test ∧
      Derives .predicates (innerNesting ps) vs ps :=
    hs.append ht.scans ht.pauses fun us vs hus hvs => ⟨us, vs, rfl, hus, hvs⟩
  cases axis with
  | none =>
    refine ⟨hbody.imp ?_, hbegins.append t⟩
    rintro ts ⟨us, vs, rfl, hus, hvs⟩
    exact .plainStep hus hvs
  | some a =>
    obtain ⟨name, abbreviated⟩ := a
    have ha := haxis _ rfl
    rw [List.append_assoc]
    cases abbreviated with
    | true =>
      obtain rfl : name = utf8 "attribute" := ha
      have hsign : Scans (fun _ => True) (utf8 "@") (IsMark .atSign) := scans_mark (by decide)
      refine ⟨?_, ⟨'@', s ++ t, rfl, by decide⟩⟩
      refine hsign.append hbody (fun _ _ => trivial) ?_
      rintro ts us ⟨x, rfl, hx⟩ ⟨vs, ws, rfl, hvs, hws⟩
      show Derives .step _ (x :: (vs ++ ws)) _
      exact .attributeStep hx hvs hws
    | false =>
      have ha : isAxisName name = true := ha
      have hcolons : Scans (fun _ => True) (utf8 "::") (IsMark .doubleColon) :=
        scans_mark (by decide)
      have hword : Scans (fun _ => True) (name ++ utf8 "::") fun ts => ∃ x y : Token, ts = [x, y] ∧
          x.kind = .axisName ∧ x.lexeme = name ∧ y.kind = .doubleColon := by
        refine (scans_axisName ha).append hcolons (fun rest _ => ⟨rest, rfl⟩) ?_
        rintro ts us ⟨o, rfl⟩ ⟨y, rfl, hy⟩
        exact ⟨_, y, rfl, rfl, rfl, hy⟩
      refine ⟨?_, (((axisName_isName ha).1.begins_ne (by decide)).append _).append _⟩
      refine hword.append hbody (fun _ _ => trivial) ?_
      rintro ts us ⟨x, y, rfl, hx, rfl, hy⟩ ⟨vs, ws, rfl, hvs, hws⟩
      show Derives .step _ (x :: y :: (vs ++ ws)) _
      exact .axisStep hx hy hvs hws

theorem scans_argument {comma : Bytes} (hcomma : Scans (fun _ => True) comma (IsMark .comma))
    (hstops : ∀ rest, Stops (comma ++ rest)) {e : Expr} {es : List Expr} {s t : Bytes} {d d' : Nat}
    (h : Scans Stops s fun ts => Derives (.level 1) d ts e)
    (ht : Scans Stops t fun ts => Derives .arguments d' ts es) :
    Scans Stops (s ++ comma ++ t) fun ts => Derives .arguments (max (d + 1) d') ts (e :: es) := by
  have hfirst : Scans (fun _ => True) (s ++ comma) fun ts => ∃ us c, ts = us ++ [c] ∧
      Derives (.level 1) d us e ∧ Token.kind c = .comma := by
    refine h.append hcomma (fun rest _ => hstops rest) ?_
    rintro ts us hts ⟨c, rfl, hc⟩
    exact ⟨ts, c, rfl, hts, hc⟩
  refine hfirst.append ht (fun _ _ => trivial) ?_
  rintro ts us ⟨vs, c, rfl, hvs, hc⟩ hus
  rw [List.append_assoc]
  exact .argument hvs hc hus

theorem scans_call {f : Bytes} (hf : IsName f) (htype : isNodeType f = false) {es : List Expr}
    {s : Bytes} {d : Nat} (h : Scans Stops s fun ts => Derives .arguments d ts es) :
    Scans Pauses (f ++ parenthesized s) fun ts =>
      Derives .source d ts (.call ⟨.absent, f⟩ es) := by
  have hword := scans_called hf
  rw [if_neg (Bool.eq_false_iff.mp htype)] at hword
  refine hword.append (h.parenthesized stops_rightParen) (fun rest _ => ⟨_, rfl⟩) ?_
  rintro ts us ⟨o, rfl⟩ ⟨l, r, vs, rfl, hl, hvs, hr⟩
  exact .call rfl hl hvs hr

/-- The texts of arguments, joined by commas. -/
structure ArgumentsReadable (es : List Expr) (texts : List Bytes) : Prop where
  scans : Scans Stops (joinWith (utf8 ", ") texts) fun ts =>
    Derives .arguments (innerNesting es) ts es
  ne_nil : texts ≠ []

theorem Expr.Readable.lastArgument {e : Expr} {s : Bytes} (h : e.Readable s) :
    ArgumentsReadable [e] [s] where
  scans := h.whole.imp fun _ hts => .lastArgument hts
  ne_nil := by simp

theorem Expr.Readable.argument {e : Expr} {s : Bytes} (h : e.Readable s) {es : List Expr}
    {texts : List Bytes} (hes : ArgumentsReadable es texts) :
    ArgumentsReadable (e :: es) (s :: texts) where
  scans := by
    obtain ⟨t, texts, rfl⟩ := List.exists_cons_of_ne_nil hes.ne_nil
    have hcomma : Scans (fun _ => True) (utf8 ", ") (IsMark .comma) := by
      have hmark : Scans (fun _ => True) (utf8 ",") (IsMark .comma) := scans_mark (by decide)
      refine hmark.append scans_blank (fun _ _ => trivial) ?_
      rintro ts us hts rfl
      rwa [List.append_nil]
    exact scans_argument hcomma (fun rest => .closer (c := ',') (by decide) _) h.whole hes.scans
  ne_nil := by simp

theorem numeral_end {c : Char} (h : (isNumeralDigit c || c = '.') = true) :
    isNamePart c = true := by
  rcases Bool.or_eq_true_iff.mp h with h | h
  · exact (digit_classes h).2.2
  · rw [of_decide_eq_true h]
    decide

theorem number_readable {n : NumberLit} (h : n.WellFormed) : (Expr.number n).Readable n.text := by
  refine readable_of_source ?_ rfl
  rcases h with ⟨i, hlo, hhi, rfl⟩ | ⟨x, hx, rfl⟩
  · obtain ⟨m, rfl⟩ := Int.eq_ofNat_of_zero_le hlo
    have hread := integer?_decimal (n := m) (by omega)
    have hscan := (scans_integer (isNumeral_decimal m) hread).before (g := Pauses)
      fun rest h => h.notBefore_namePart.mono fun c => numeral_end
    refine hscan.imp ?_
    rintro ts ⟨o, rfl⟩
    exact .integer rfl hread
  · obtain ⟨ws, ds, htext, hws, hds, hread⟩ := text_reads_back hx
    have hscan := (scans_float hws hds hread).before (g := Pauses)
      fun rest h => h.notBefore_namePart.mono fun c hc => numeral_end (by simp [hc])
    rw [htext]
    refine hscan.imp ?_
    rintro ts ⟨o, rfl⟩
    exact .float rfl hread

theorem literal_readable {value : Bytes} (h : IsLiteral value) :
    (Expr.literal value).Readable (literalText value) := by
  refine readable_of_source ((scans_literalText h).imp ?_) rfl
  rintro ts ⟨o, rfl⟩
  exact .literal rfl

theorem scans_truthWord (value : Bool) :
    Scans (NotBefore isNamePart) (utf8 (if value then "true" else "false"))
      (IsMark (truthWord value)) := by
  cases value with
  | true => exact (scans_keyword (isWord_utf8 (by decide)) rfl).imp fun _ ⟨o, ho⟩ => ⟨_, ho, rfl⟩
  | false => exact (scans_keyword (isWord_utf8 (by decide)) rfl).imp fun _ ⟨o, ho⟩ => ⟨_, ho, rfl⟩

theorem boolean_readable (value : Bool) :
    (Expr.boolean value).Readable (utf8 (if value then "true" else "false")) := by
  refine readable_of_source ?_ rfl
  refine ((scans_truthWord value).before fun rest h => h.notBefore_namePart).imp ?_
  rintro ts ⟨t, rfl, ht⟩
  exact .truth ht

theorem reference_readable {q : QName} (h : q.WellFormed) :
    (Expr.reference q).Readable (utf8 "$" ++ q.text) := by
  refine readable_of_source ?_ rfl
  have hdollar : Scans (fun _ => True) (utf8 "$") (IsMark .dollar) := scans_mark (by decide)
  refine hdollar.append (scans_qname h) (fun _ _ => trivial) ?_
  rintro ts us ⟨t, rfl, ht⟩ hus
  exact .reference ht hus

theorem root_readable : Expr.root.Readable (utf8 "/") := by
  have hslash := scans_open (by decide : (Kind.slash, Comparison.absent, '/', '/') ∈ _)
  refine readable_of_primary ((hslash.before fun rest h => h.notBefore_slash).imp ?_) rfl rfl
  rintro ts ⟨o, rfl⟩
  exact .root rfl

theorem emptyCall_readable {f : FunctionName} (h : f.Takes []) :
    (Expr.call f []).Readable (f.text ++ parenthesized []) := by
  refine readable_of_source ?_ rfl
  have hnone : Scans (fun _ => True) [] (· = []) := scans_nil rfl
  have hempty := hnone.parenthesized (g := Pauses) fun _ => trivial
  obtain ⟨builtin, ident⟩ := f
  rcases h with ⟨hb, hident, htype⟩ | ⟨hb, hident, -⟩
  · obtain rfl : builtin = .absent := hb
    have hword := scans_called hident
    rw [if_neg (Bool.eq_false_iff.mp htype)] at hword
    refine hword.append hempty (fun rest _ => ⟨_, rfl⟩) ?_
    rintro ts us ⟨o, rfl⟩ ⟨l, r, vs, rfl, hl, rfl, hr⟩
    exact .emptyCall rfl hl hr
  · obtain rfl : ident = [] := hident
    obtain ⟨value, rfl⟩ : ∃ value, builtin = truthCall value := by
      rcases hb with hb | hb
      · exact ⟨true, hb⟩
      · exact ⟨false, hb⟩
    have htext : FunctionName.text ⟨truthCall value, []⟩ =
        utf8 (if value then "true" else "false") := by cases value <;> rfl
    rw [htext]
    refine (scans_truthWord value).append hempty
      (fun rest _ => notBefore_ascii (by decide) (by decide) _) ?_
    rintro ts us ⟨t, rfl, ht⟩ ⟨l, r, vs, rfl, hl, rfl, hr⟩
    exact .builtinCall ht hl hr

theorem call_readable {f : FunctionName} {args : List Expr} (hargs : args ≠ []) (h : f.Takes args)
    {texts : List Bytes} (ht : ArgumentsReadable args texts) :
    (Expr.call f args).Readable (f.text ++ parenthesized (joinWith (utf8 ", ") texts)) := by
  refine readable_of_source ?_ rfl
  obtain ⟨builtin, ident⟩ := f
  rcases h with ⟨hb, hident, htype⟩ | ⟨-, -, hnone⟩
  · obtain rfl : builtin = .absent := hb
    exact scans_call hident htype ht.scans
  · exact absurd hnone hargs

mutual

/-- Every well-formed tree has a canonical text, and the text derives it. -/
theorem Expr.readable : (e : Expr) → e.WellFormed → ∃ s, e.text? = some s ∧ e.Readable s
  | .missing, h => by cases h
  | .rootName _, h => by cases h
  | .literal value, h => ⟨_, rfl, literal_readable h⟩
  | .number value, h => ⟨_, rfl, number_readable h⟩
  | .boolean value, _ => ⟨_, rfl, boolean_readable value⟩
  | .reference name, h => ⟨_, rfl, reference_readable h⟩
  | .path steps, h => by
    obtain ⟨t, htext, ht⟩ := path_readable steps h
    exact ⟨t, htext, ht.relative⟩
  | .root, _ => ⟨_, rfl, root_readable⟩
  | .absolute steps, h => by
    obtain ⟨t, htext, ht⟩ := path_readable steps h
    exact ⟨_, by rw [Expr.text?, htext]; rfl, ht.absolute⟩
  | .everywhere steps, h => by
    obtain ⟨t, htext, ht⟩ := path_readable steps h
    exact ⟨_, by rw [Expr.text?, htext]; rfl, ht.everywhere⟩
  | .call function [], h => ⟨_, rfl, emptyCall_readable h.1⟩
  | .call function (e :: args), h => by
    obtain ⟨texts, htexts, ht⟩ := arguments_readable (e :: args) (by simp) h.2
    exact ⟨_, by rw [Expr.text?, htexts]; rfl, call_readable (by simp) h.1 ht⟩
  | .negate operand, h => by
    obtain ⟨s, htext, hs⟩ := operand.readable h
    exact ⟨_, by rw [Expr.text?, htext]; rfl, hs.negate⟩
  | .binary op comparison lhs rhs, h => by
    obtain ⟨s, hleft, hs⟩ := lhs.readable h.2.1
    obtain ⟨t, hright, ht⟩ := rhs.readable h.2.2
    exact ⟨_, by rw [Expr.text?, hleft, hright]; rfl, hs.binary ht h.1⟩
  | .filter source predicates, h => by
    obtain ⟨s, hsource, hs⟩ := source.readable h.1
    obtain ⟨t, htext, ht⟩ := predicates_readable predicates h.2.2
    exact ⟨_, by rw [Expr.text?, hsource, htext]; rfl, hs.filter ht h.2.1⟩
  | .continued source separator steps, h => by
    obtain ⟨s, hsource, hs⟩ := source.readable h.1
    obtain ⟨t, htext, ht⟩ := path_readable steps h.2.2
    exact ⟨_, by rw [Expr.text?, hsource, htext]; rfl, ht.continued hs h.2.1⟩

theorem arguments_readable : (es : List Expr) → es ≠ [] → allWellFormed es →
    ∃ texts, argumentTexts? es = some texts ∧ ArgumentsReadable es texts
  | [], hne, _ => absurd rfl hne
  | [e], _, h => by
    obtain ⟨s, htext, hs⟩ := e.readable h.1
    exact ⟨[s], by rw [argumentTexts?, htext]; rfl, hs.lastArgument⟩
  | e :: e' :: es, _, h => by
    obtain ⟨s, htext, hs⟩ := e.readable h.1
    obtain ⟨texts, htexts, hes⟩ := arguments_readable (e' :: es) (by simp) h.2
    exact ⟨s :: texts, by rw [argumentTexts?, htext, htexts]; rfl, hs.argument hes⟩

theorem predicates_readable : (ps : List Expr) → allWellFormed ps →
    ∃ t, predicatesText? ps = some t ∧ PredicatesReadable ps t
  | [], _ => ⟨[], rfl, predicatesReadable_nil⟩
  | e :: ps, h => by
    obtain ⟨s, htext, hs⟩ := e.readable h.1
    obtain ⟨t, htexts, ht⟩ := predicates_readable ps h.2
    exact ⟨_, by rw [predicatesText?, htext, htexts]; rfl, hs.predicate ht⟩

theorem path_readable : (p : List (Separator × Step)) → pathWellFormed p →
    ∃ t, pathText? p = some t ∧ PathReadable p t
  | [], h => by cases h
  | (separator, step) :: p, h => by
    obtain ⟨rfl, hstep, hp⟩ := h
    obtain ⟨s, htext, hs⟩ := step.readable hstep
    obtain ⟨t, htexts, ht⟩ := further_readable p hp
    exact ⟨s ++ t, by rw [pathText?, htext, htexts]; rfl, hs.path ht⟩

theorem further_readable : (p : List (Separator × Step)) → furtherWellFormed p →
    ∃ t, pathText? p = some t ∧ FurtherReadable p t
  | [], _ => ⟨[], rfl, furtherReadable_nil⟩
  | (separator, step) :: p, h => by
    obtain ⟨hsep, hstep, hp⟩ := h
    obtain ⟨s, htext, hs⟩ := step.readable hstep
    obtain ⟨t, htexts, ht⟩ := further_readable p hp
    exact ⟨_, by rw [pathText?, htext, htexts]; rfl, hs.further hsep ht⟩

theorem Step.readable : (step : Step) → step.WellFormed →
    ∃ t, step.text? = some t ∧ step.Readable t
  | .mk axis test predicates, h => by
    rcases h with ⟨rfl, rfl | rfl, rfl⟩ | ⟨haxis, htest, hps⟩
    · exact ⟨_, rfl, sign_readable (.inl rfl)⟩
    · exact ⟨_, rfl, sign_readable (.inr rfl)⟩
    · obtain ⟨s, htext, hbegins, hs⟩ := scans_test htest
      obtain ⟨t, hfilters, ht⟩ := predicates_readable predicates hps
      exact ⟨_, by rw [Step.text?, htext, hfilters]; rfl, step_readable haxis hbegins hs ht⟩

end

end NodePath
