import NodePath.Expr.Basic

/-!
# Nodes

The nodes of a tree are its expressions, tests and steps; the argument of a node type test counts as
a literal. The children of a node are given in source order, and consist of fewer nodes than it.
-/

namespace NodePath

open NodePath.Text

inductive Node where
  | expr (e : Expr)
  | test (t : Test)
  | step (s : Step)

inductive NodeKind where
  | literal
  | number
  | boolean
  | reference
  | nameTest
  | nodeTypeTest
  | abbreviatedTest
  | step
  | path
  | absolutePath
  | everywherePath
  | call
  | negation
  | binary
  | filter
  | continuedPath
  | rootName
deriving DecidableEq, Repr

def Expr.kind? : Expr → Option NodeKind
  | .missing => none
  | .literal _ => some .literal
  | .number _ => some .number
  | .boolean _ => some .boolean
  | .reference _ => some .reference
  | .path _ => some .path
  | .root | .absolute _ => some .absolutePath
  | .everywhere _ => some .everywherePath
  | .call .. => some .call
  | .negate _ => some .negation
  | .binary .. => some .binary
  | .filter .. => some .filter
  | .continued .. => some .continuedPath
  | .rootName _ => some .rootName

def Test.kind? : Test → Option NodeKind
  | .missing => none
  | .name _ => some .nameTest
  | .nodeType .. => some .nodeTypeTest
  | .abbreviated _ => some .abbreviatedTest

namespace Node

/-- What kind of node it is; a missing one has no kind. -/
def kind? : Node → Option NodeKind
  | .expr e => e.kind?
  | .test t => t.kind?
  | .step _ => some .step

end Node

def pathNode (steps : Path) : Node := .expr (.path steps)

/-- How many nodes a test consists of; the argument of a node type test is one. -/
def Test.count : Test → Nat
  | .nodeType _ (some _) => 2
  | _ => 1

mutual

/-- How many nodes an expression consists of, itself included. -/
def Expr.count : Expr → Nat
  | .path steps => 1 + stepsCount steps
  | .absolute steps => 2 + stepsCount steps
  | .everywhere steps => 2 + stepsCount steps
  | .call _ args => 1 + exprsCount args
  | .negate operand => 1 + operand.count
  | .binary _ _ lhs rhs => 1 + lhs.count + rhs.count
  | .filter source predicates => 1 + source.count + exprsCount predicates
  | .continued source _ steps => 2 + source.count + stepsCount steps
  | .rootName _ => 2
  | _ => 1

def exprsCount : List Expr → Nat
  | [] => 0
  | e :: rest => e.count + exprsCount rest

def stepsCount : List (Separator × Step) → Nat
  | [] => 0
  | (_, step) :: rest => step.count + stepsCount rest

def Step.count : Step → Nat
  | .mk _ test predicates => 1 + test.count + exprsCount predicates

end

namespace Node

def count : Node → Nat
  | .expr e => e.count
  | .test t => t.count
  | .step s => s.count

/-- The nodes right below a node, in source order. -/
def children : Node → List Node
  | .expr (.path steps) => steps.map fun entry => .step entry.2
  | .expr (.absolute steps) => [pathNode steps]
  | .expr (.everywhere steps) => [pathNode steps]
  | .expr (.call _ args) => args.map .expr
  | .expr (.negate operand) => [.expr operand]
  | .expr (.binary _ _ lhs rhs) => [.expr lhs, .expr rhs]
  | .expr (.filter source predicates) => .expr source :: predicates.map .expr
  | .expr (.continued source _ steps) => [.expr source, pathNode steps]
  | .expr (.rootName t) => [.test (.name t)]
  | .expr _ => []
  | .test (.nodeType _ (some value)) => [.expr (.literal value)]
  | .test _ => []
  | .step (.mk _ t predicates) => .test t :: predicates.map .expr

end Node

theorem count_le_exprsCount {e : Expr} {es : List Expr} (h : e ∈ es) : e.count ≤ exprsCount es := by
  induction es with
  | nil => cases h
  | cons x rest ih =>
    rw [exprsCount]
    rcases List.mem_cons.1 h with rfl | h
    · omega
    · have := ih h
      omega

theorem count_le_stepsCount {entry : Separator × Step} {steps : Path} (h : entry ∈ steps) :
    entry.2.count ≤ stepsCount steps := by
  induction steps with
  | nil => cases h
  | cons x rest ih =>
    obtain ⟨sep, step⟩ := x
    rw [stepsCount]
    rcases List.mem_cons.1 h with rfl | h
    · simp
    · have := ih h
      omega

theorem Expr.count_pos (e : Expr) : 0 < e.count := by
  cases e <;> simp only [Expr.count] <;> omega

theorem Test.count_pos (t : Test) : 0 < t.count := by
  unfold Test.count
  split <;> omega

namespace Node

/-- A child consists of fewer nodes than its parent. -/
theorem count_lt_of_mem_children {n c : Node} (h : c ∈ n.children) : c.count < n.count := by
  unfold children at h
  split at h
  · obtain ⟨entry, hmem, rfl⟩ := List.mem_map.1 h
    have := count_le_stepsCount hmem
    simp only [count, Expr.count]
    omega
  · simp only [List.mem_singleton] at h
    subst h
    simp only [count, pathNode, Expr.count]
    omega
  · simp only [List.mem_singleton] at h
    subst h
    simp only [count, pathNode, Expr.count]
    omega
  · obtain ⟨e, hmem, rfl⟩ := List.mem_map.1 h
    have := count_le_exprsCount hmem
    simp only [count, Expr.count]
    omega
  · simp only [List.mem_singleton] at h
    subst h
    simp only [count, Expr.count]
    omega
  · rename_i lhs rhs
    have := lhs.count_pos
    have := rhs.count_pos
    simp only [List.mem_cons, List.not_mem_nil, or_false] at h
    rcases h with rfl | rfl <;> simp only [count, Expr.count] <;> omega
  · rename_i source predicates
    have := source.count_pos
    rcases List.mem_cons.1 h with rfl | h
    · simp only [count, Expr.count]
      omega
    · obtain ⟨e, hmem, rfl⟩ := List.mem_map.1 h
      have := count_le_exprsCount hmem
      simp only [count, Expr.count]
      omega
  · rename_i source _ steps
    have := source.count_pos
    simp only [List.mem_cons, List.not_mem_nil, or_false] at h
    rcases h with rfl | rfl <;> simp only [count, pathNode, Expr.count] <;> omega
  · simp only [List.mem_singleton] at h
    subst h
    simp [count, Expr.count, Test.count]
  · cases h
  · simp only [List.mem_singleton] at h
    subst h
    simp [count, Expr.count, Test.count]
  · cases h
  · rename_i t predicates
    have := t.count_pos
    rcases List.mem_cons.1 h with rfl | h
    · simp only [count, Step.count]
      omega
    · obtain ⟨e, hmem, rfl⟩ := List.mem_map.1 h
      have := count_le_exprsCount hmem
      simp only [count, Step.count]
      omega

end Node

end NodePath
