import NodePath.Proofs.Everywhere
import NodePath.Proofs.RoundTrip

/-!
# Invariants of the nodes that are read

Each kind of node has an invariant that can be checked at the node itself. Every node of a tree that
was read from a text has it: the tree is well-formed, what is well-formed has well-formed children,
and a well-formed node satisfies its invariant.
-/

namespace NodePath

open NodePath.Text NodePath.Number

/-- The fields that a kind of name test does not use are empty. -/
def NameTest.WellMade (t : NameTest) : Prop :=
  match t.kind with
  | .any => t.space = [] ∧ t.name = ⟨[], []⟩
  | .anyIn => IsName t.space ∧ t.name = ⟨[], []⟩
  | .qualified => t.space = [] ∧ IsName t.name.name ∧ (t.name.space = [] ∨ IsName t.name.space)
  | .unknown _ => False

/-- The number is kept in one field, and the other field is zero. -/
def NumberLit.WellMade (n : NumberLit) : Prop :=
  (n.isFloat = false ∧ 0 ≤ n.int ∧ n.int < 2 ^ 63 ∧ n.float = .zero) ∨
    (n.isFloat = true ∧ n.int = 0)

/-- Only functions with a name of their own take arguments. -/
def FunctionName.WellMade (f : FunctionName) (args : List Expr) : Prop :=
  match f.builtin with
  | .absent => f.ident ≠ [] ∧ IsName f.ident ∧ f.ident ∉ nodeTypes
  | .trueCall | .falseCall => f.ident = [] ∧ args = []
  | .unknown _ => False

/-- The first of one or more steps has no separator, and every other step has one. -/
def pathWellMade (steps : Path) : Prop :=
  ∃ first others, steps = (.absent, first) :: others ∧
    ∀ entry ∈ others, entry.1 = .child ∨ entry.1 = .descendant

def Axis.WellMade (a : Axis) : Prop :=
  a.name ∈ axisNames ∧ (a.abbreviated = true → a.name = utf8 "attribute")

/-- A step that is a single sign has neither an axis nor predicates. -/
def Step.WellMade : Step → Prop
  | .mk axis test predicates => (∀ a ∈ axis, a.WellMade) ∧
    ∀ sign, test = .abbreviated sign → axis = none ∧ predicates = []

/-- What holds of a node that was read from a text, whatever stands around it. The steps below a
root or behind an expression are a path node of their own, so nothing is asked of them here. -/
def Node.WellMade : Node → Prop
  | .expr .missing | .expr (.rootName _) | .test .missing => False
  | .expr (.literal value) => ¬(ascii '"' ∈ value ∧ ascii '\'' ∈ value)
  | .expr (.number n) => n.WellMade
  | .expr (.reference name) => IsName name.name ∧ (name.space = [] ∨ IsName name.space)
  | .expr (.path steps) => pathWellMade steps
  | .expr (.call function args) => function.WellMade args
  | .expr (.binary op comparison _ _) => comparison ≠ .absent ↔ op = .compare
  | .expr (.filter _ predicates) => predicates ≠ []
  | .expr (.continued _ separator _) => separator = .child ∨ separator = .descendant
  | .expr (.boolean _) | .expr .root | .expr (.negate _) => True
  | .expr (.absolute _) | .expr (.everywhere _) => True
  | .test (.name t) => t.WellMade
  | .test (.nodeType type _) => type ∈ nodeTypes
  | .test (.abbreviated sign) => sign = .self ∨ sign = .parent
  | .step s => s.WellMade

/-- A node can be written; a sign is a test as well. -/
def Node.WellFormed : Node → Prop
  | .expr e => e.WellFormed
  | .test t => t.WellFormed ∨ t = .abbreviated .self ∨ t = .abbreviated .parent
  | .step s => s.WellFormed

section Children

theorem wellFormed_of_mem {es : List Expr} (h : allWellFormed es) {e : Expr} (he : e ∈ es) :
    e.WellFormed := by
  induction es with
  | nil => cases he
  | cons x rest ih =>
    rcases List.mem_cons.mp he with rfl | he
    · exact h.1
    · exact ih h.2 he

theorem further_of_mem {p : Path} (h : furtherWellFormed p) {entry : Separator × Step}
    (he : entry ∈ p) : entry.1.IsWritten ∧ entry.2.WellFormed := by
  induction p with
  | nil => cases he
  | cons x rest ih =>
    obtain ⟨separator, step⟩ := x
    rcases List.mem_cons.mp he with rfl | he
    · exact ⟨h.1, h.2.1⟩
    · exact ih h.2.2 he

theorem step_of_mem {p : Path} (h : pathWellFormed p) {entry : Separator × Step}
    (he : entry ∈ p) : entry.2.WellFormed := by
  cases p with
  | nil => cases he
  | cons x rest =>
    obtain ⟨separator, step⟩ := x
    rcases List.mem_cons.mp he with rfl | he
    · exact h.2.1
    · exact (further_of_mem h.2.2 he).2

theorem wellFormed_of_mem_exprs {es : List Expr} (h : allWellFormed es) {c : Node}
    (hc : c ∈ es.map Node.expr) : c.WellFormed := by
  obtain ⟨e, he, rfl⟩ := List.mem_map.mp hc
  exact wellFormed_of_mem h he

/-- Well-formedness passes from a node to its children. -/
theorem Node.WellFormed.children {n : Node} (h : n.WellFormed) :
    ∀ c ∈ n.children, c.WellFormed := by
  intro c hc
  unfold Node.children at hc
  split at hc
  · obtain ⟨entry, hmem, rfl⟩ := List.mem_map.mp hc
    exact step_of_mem h hmem
  · obtain rfl := List.mem_singleton.mp hc
    exact h
  · obtain rfl := List.mem_singleton.mp hc
    exact h
  · exact wellFormed_of_mem_exprs h.2 hc
  · obtain rfl := List.mem_singleton.mp hc
    exact h
  · simp only [List.mem_cons, List.not_mem_nil, or_false] at hc
    rcases hc with rfl | rfl
    · exact h.2.1
    · exact h.2.2
  · rcases List.mem_cons.mp hc with rfl | hc
    · exact h.1
    · exact wellFormed_of_mem_exprs h.2.2 hc
  · simp only [List.mem_cons, List.not_mem_nil, or_false] at hc
    rcases hc with rfl | rfl
    · exact h.1
    · exact h.2.2
  · exact h.elim
  · cases hc
  · obtain rfl := List.mem_singleton.mp hc
    rcases h with h | h | h
    · exact h.2 _ rfl
    · cases h
    · cases h
  · cases hc
  · rcases h with ⟨-, htest, rfl⟩ | ⟨-, htest, hps⟩
    · obtain rfl := List.mem_singleton.mp hc
      exact .inr htest
    · rcases List.mem_cons.mp hc with rfl | hc
      · exact .inl htest
      · exact wellFormed_of_mem_exprs hps hc

end Children

section Invariants

theorem NameTest.WellFormed.wellMade {t : NameTest} (h : t.WellFormed) : t.WellMade := by
  rcases h with rfl | ⟨space, hspace, rfl⟩ | ⟨q, hq, rfl⟩
  · exact ⟨rfl, rfl⟩
  · exact ⟨hspace, rfl⟩
  · exact ⟨rfl, hq.2, hq.1⟩

theorem NumberLit.WellFormed.wellMade {n : NumberLit} (h : n.WellFormed) : n.WellMade := by
  rcases h with ⟨i, hlo, hhi, rfl⟩ | ⟨x, -, rfl⟩
  · exact .inl ⟨rfl, hlo, hhi, rfl⟩
  · exact .inr ⟨rfl, rfl⟩

theorem FunctionName.Takes.wellMade {f : FunctionName} {args : List Expr} (h : f.Takes args) :
    f.WellMade args := by
  unfold FunctionName.WellMade
  rcases h with ⟨hb, hname, htype⟩ | ⟨hb | hb, hident, hargs⟩
  · rw [hb]
    exact ⟨hname.1.ne_nil, hname, by simpa [isNodeType] using htype⟩
  · rw [hb]
    exact ⟨hident, hargs⟩
  · rw [hb]
    exact ⟨hident, hargs⟩

theorem Operator.Takes.comparison_iff {op : Operator} {c : Comparison} (h : op.Takes c) :
    c ≠ .absent ↔ op = .compare := by
  have hsome : ∀ c ∈ comparisons, c ≠ .absent := by decide
  obtain ⟨-, h⟩ := h
  split at h
  · next hop => exact ⟨fun _ => hop, fun _ => hsome c h⟩
  · next hop => exact ⟨fun hc => absurd h hc, fun hop' => absurd hop' hop⟩

theorem pathWellMade_of_wellFormed {p : Path} (h : pathWellFormed p) : pathWellMade p := by
  cases p with
  | nil => exact h.elim
  | cons x others =>
    obtain ⟨separator, first⟩ := x
    obtain ⟨rfl, -, hothers⟩ := h
    exact ⟨first, others, rfl, fun entry he => (further_of_mem hothers he).1⟩

theorem Axis.WellFormed.wellMade {a : Axis} (h : a.WellFormed) : a.WellMade := by
  unfold Axis.WellFormed at h
  split at h
  · next hsign =>
    refine ⟨?_, fun _ => h⟩
    rw [h]
    decide
  · next hsign => exact ⟨by simpa [isAxisName] using h, fun hsign' => absurd hsign' hsign⟩

theorem Step.WellFormed.wellMade {s : Step} (h : s.WellFormed) : s.WellMade := by
  obtain ⟨axis, test, predicates⟩ := s
  rcases h with ⟨rfl, -, rfl⟩ | ⟨haxis, htest, -⟩
  · exact ⟨by simp, fun _ _ => ⟨rfl, rfl⟩⟩
  · refine ⟨fun a ha => (haxis a ha).wellMade, ?_⟩
    rintro sign rfl
    exact htest.elim

theorem Test.WellFormed.wellMade {t : Test} (h : t.WellFormed) : (Node.test t).WellMade := by
  cases t with
  | missing => exact h.elim
  | name t => exact NameTest.WellFormed.wellMade h
  | nodeType type argument => simpa [Node.WellMade, isNodeType] using h.1
  | abbreviated step => exact h.elim

theorem Expr.WellFormed.wellMade {e : Expr} (h : e.WellFormed) : (Node.expr e).WellMade := by
  cases e with
  | missing => exact h.elim
  | rootName => exact h.elim
  | literal => exact h.2
  | number => exact NumberLit.WellFormed.wellMade h
  | boolean => trivial
  | root => trivial
  | negate => trivial
  | reference => exact ⟨h.2, h.1⟩
  | path => exact pathWellMade_of_wellFormed h
  | absolute => trivial
  | everywhere => trivial
  | call => exact h.1.wellMade
  | binary => exact h.1.comparison_iff
  | filter => exact h.2.1
  | continued => exact h.2.1

theorem Node.WellFormed.wellMade {n : Node} (h : n.WellFormed) : n.WellMade := by
  cases n with
  | expr => exact Expr.WellFormed.wellMade h
  | step => exact Step.WellFormed.wellMade h
  | test =>
    rcases h with h | rfl | rfl
    · exact h.wellMade
    · exact .inl rfl
    · exact .inr rfl

theorem Node.WellMade.kind {n : Node} (h : n.WellMade) : n.kind? ≠ none := by
  cases n with
  | expr e =>
    cases e with
    | missing => exact h.elim
    | _ => exact Option.some_ne_none _
  | test t =>
    cases t with
    | missing => exact h.elim
    | _ => exact Option.some_ne_none _
  | step s => exact Option.some_ne_none _

/-- A well-formed tree lacks nothing. -/
theorem Node.WellFormed.complete {n : Node} (h : n.WellFormed) : n.Complete :=
  Node.everywhere_of_inherited Node.WellFormed.children (fun h => h.wellMade.kind) h

end Invariants

/-- Every node of a tree that was read satisfies the invariant of its kind. -/
theorem nodes_wellMade_of_parse {source : Bytes} {e : Expr} (h : parse source = .ok e) :
    ∀ n ∈ (Node.expr e).nodes, n.WellMade :=
  Node.everywhere_of_inherited Node.WellFormed.children Node.WellFormed.wellMade
    (n := .expr e) (wellFormed_of_parse h)

/-- The tokens of `@a[1]`. -/
def firstAttribute : List Token :=
  [⟨.atSign, utf8 "@", 0, .absent⟩, ⟨.name, utf8 "a", 1, .absent⟩,
    ⟨.leftBracket, utf8 "[", 2, .absent⟩, ⟨.integer, utf8 "1", 3, .absent⟩,
    ⟨.rightBracket, utf8 "]", 4, .absent⟩]

theorem nodes_wellMade_of_parse_firstAttribute :
    ∃ e, e = .path [(.absent, .mk (some ⟨utf8 "attribute", true⟩)
        (.name (.qualified ⟨[], utf8 "a"⟩)) [.number (.ofInt 1)])] ∧
      parse (utf8 "@a[1]") = .ok e ∧ ∀ n ∈ (Node.expr e).nodes, n.WellMade := by
  have htokens : tokenize (utf8 "@a[1]") = .ok firstAttribute :=
    eq_ok_of_toOption (by decide +kernel)
  have hone : Derives (.level 10) 0 [⟨.integer, utf8 "1", 3, .absent⟩] (.number (.ofInt 1)) :=
    .operand (.unsigned (.filtered (.integer (i := 1) rfl (by decide)) .noPredicates))
  have hdenotes : Denotes 1 firstAttribute _ :=
    (Derives.operand (.unsigned (.relative (.steps
      (.attributeStep (a := ⟨.atSign, utf8 "@", 0, .absent⟩) rfl
        (.oneName (.bareName (t := ⟨.name, utf8 "a", 1, .absent⟩) rfl))
        (.predicate (l := ⟨.leftBracket, utf8 "[", 2, .absent⟩)
          (r := ⟨.rightBracket, utf8 "]", 4, .absent⟩) rfl (hone.loosen (by decide)) rfl
          .noPredicates))
      .noFurtherSteps)))).loosen (by decide)
  have hparse := parse_of_denotes htokens hdenotes (by decide)
  exact ⟨_, rfl, hparse, nodes_wellMade_of_parse hparse⟩

end NodePath
