import Mathlib.Data.List.Basic
import NodePath.Proofs.Everywhere

/-!
# Walks and visits go through the same nodes

A walk reaches the parts of a node in its own way, and a visit reaches them as children. In a
complete tree they go through the same nodes: a walk meets the walks through the children of a node,
in their order, between entering the node and leaving it. So it enters the nodes in the order of
their visit and leaves each after all nodes below it. A visit that is told to skip the children of
some nodes meets the nodes that lie below none of these.
-/

namespace NodePath

open NodePath.Text

namespace Event

def entered? : Event → Option Node
  | .enter n => some n
  | .leave _ => none

def left? : Event → Option Node
  | .enter _ => none
  | .leave n => some n

end Event

/-- Every node that is entered is left again, and what is entered in between is left before it. -/
inductive Nested : List Event → Prop where
  | nil : Nested []
  | around {n : Node} {inner rest : List Event} :
      Nested inner → Nested rest → Nested (within n inner ++ rest)

theorem entered_within (n : Node) (inner : List Event) :
    (within n inner).filterMap Event.entered? = n :: inner.filterMap Event.entered? := by
  rw [within, List.filterMap_append]
  exact List.append_nil _

theorem left_within (n : Node) (inner : List Event) :
    (within n inner).filterMap Event.left? = inner.filterMap Event.left? ++ [n] := by
  rw [within, List.filterMap_append]
  rfl

theorem Nested.append {es fs : List Event} (hes : Nested es) (hfs : Nested fs) :
    Nested (es ++ fs) := by
  induction hes with
  | nil => exact hfs
  | around hinner _ _ ih =>
    rw [List.append_assoc]
    exact .around hinner ih

theorem Nested.flatMap {α : Type} {f : α → List Event} {xs : List α}
    (h : ∀ x ∈ xs, Nested (f x)) : Nested (xs.flatMap f) := by
  induction xs with
  | nil => exact .nil
  | cons x rest ih =>
    rw [List.flatMap_cons]
    exact (h x List.mem_cons_self).append (ih fun y hy => h y (List.mem_cons_of_mem _ hy))

theorem Nested.within {inner : List Event} (h : Nested inner) (n : Node) :
    Nested (within n inner) := by
  rw [← List.append_nil (NodePath.within n inner)]
  exact .around h .nil

/-- A node of a tree with the nodes that it lies below, the nearest first. -/
structure Occurrence where
  above : List Node
  node : Node

namespace Node

/-- What a walk meets that goes from each node to its children. -/
def walk (n : Node) : List Event := within n (n.children.attach.flatMap fun ⟨c, _⟩ => c.walk)
termination_by n.count
decreasing_by exact count_lt_of_mem_children ‹_›

/-- The nodes of a tree, each after its children. -/
def postOrder (n : Node) : List Node :=
  (n.children.attach.flatMap fun ⟨c, _⟩ => c.postOrder) ++ [n]
termination_by n.count
decreasing_by exact count_lt_of_mem_children ‹_›

/-- The nodes of a tree that lies below the nodes `above`, each before its children. -/
def occurrences (above : List Node) (n : Node) : List Occurrence :=
  ⟨above, n⟩ :: n.children.attach.flatMap fun ⟨c, _⟩ => c.occurrences (n :: above)
termination_by n.count
decreasing_by exact count_lt_of_mem_children ‹_›

section Equations

/-- A function that is called for the children of a node need not know that they are children. -/
theorem flatMap_children {α : Type} (n : Node) (f : Node → List α) :
    (n.children.attach.flatMap fun ⟨c, _⟩ => f c) = n.children.flatMap f := by
  rw [List.flatMap_subtype (fun _ _ => rfl), List.unattach_attach]

theorem walk_eq (n : Node) : n.walk = within n (n.children.flatMap walk) := by
  rw [walk, flatMap_children]

theorem postOrder_eq (n : Node) : n.postOrder = n.children.flatMap postOrder ++ [n] := by
  rw [postOrder, flatMap_children]

theorem occurrences_eq (above : List Node) (n : Node) :
    n.occurrences above = ⟨above, n⟩ :: n.children.flatMap (occurrences (n :: above)) := by
  rw [occurrences, flatMap_children]

theorem visited_eq (enter : Node → Bool) (n : Node) :
    n.visited enter = n :: if enter n then n.children.flatMap (visited enter) else [] := by
  rw [visited, flatMap_children]

end Equations

section Walk

theorem nested_walk (n : Node) : Nested n.walk := by
  induction n using induction_on_children with
  | h n ih =>
    rw [walk_eq]
    exact (Nested.flatMap ih).within n

theorem walk_entered (n : Node) : n.walk.filterMap Event.entered? = n.nodes := by
  induction n using induction_on_children with
  | h n ih =>
    rw [walk_eq, nodes_eq, entered_within, List.filterMap_flatMap, List.flatMap_congr ih]

theorem walk_left (n : Node) : n.walk.filterMap Event.left? = n.postOrder := by
  induction n using induction_on_children with
  | h n ih =>
    rw [walk_eq, postOrder_eq, left_within, List.filterMap_flatMap, List.flatMap_congr ih]

end Walk

section Parts

/-- What walks through nodes meet one after the other, unless a part of them is missing. -/
def walks? : List Node → Option (List Event)
  | [] => some []
  | n :: rest => do
    let first ← n.events?
    let others ← walks? rest
    return first ++ others

theorem walks?_single (n : Node) : walks? [n] = n.events? := by
  cases h : n.events? <;> simp [walks?, h]

theorem exprsEvents?_eq (es : List Expr) : exprsEvents? es = walks? (es.map Node.expr) := by
  induction es with
  | nil => rfl
  | cons e rest ih => rw [exprsEvents?, ih]; rfl

theorem pathEvents?_eq (steps : Path) : pathEvents? steps = walks? (pathNode steps).children := by
  induction steps with
  | nil => rfl
  | cons entry rest ih => rw [pathEvents?, ih]; rfl

theorem pathNode_events? (steps : Path) :
    (pathNode steps).events? = (pathEvents? steps).map (within (pathNode steps)) := by
  show (Expr.path steps).events? = _
  rw [Expr.events?]
  rfl

/-- The parts that a walk reaches from a node are its children, one case for each kind of node. -/
theorem events?_eq {n : Node} (hkind : n.kind? ≠ none) :
    n.events? = (walks? n.children).map (within n) := by
  cases n with
  | expr e =>
    show e.events? = _
    cases e with
    | missing => exact absurd rfl hkind
    | literal | number | boolean | reference | root | rootName => rfl
    | path steps => rw [Expr.events?, pathEvents?_eq]; rfl
    | absolute steps | everywhere steps =>
      rw [Expr.events?, children, walks?_single, pathNode_events?, Option.map_map]
      rfl
    | call function args => rw [Expr.events?, exprsEvents?_eq]; rfl
    | negate operand => rw [Expr.events?, children, walks?_single]; rfl
    | binary op comparison lhs rhs =>
      rw [Expr.events?, children, walks?, walks?_single]
      show _ = Option.map _ (lhs.events?.bind fun _ => rhs.events?.bind _)
      cases lhs.events? <;> cases rhs.events? <;> rfl
    | filter source predicates =>
      rw [Expr.events?, children, walks?, exprsEvents?_eq]
      show _ = Option.map _ (source.events?.bind _)
      cases source.events? <;> cases walks? (predicates.map expr) <;> rfl
    | continued source separator steps =>
      rw [Expr.events?, children, walks?, walks?_single, pathNode_events?]
      show _ = Option.map _ (source.events?.bind _)
      cases source.events? <;> cases pathEvents? steps <;> rfl
  | test t =>
    cases t with
    | missing => exact absurd rfl hkind
    | name | abbreviated => rfl
    | nodeType type argument => cases argument <;> rfl
  | step s =>
    obtain ⟨axis, test, predicates⟩ := s
    show Step.events? _ = _
    rw [Step.events?, children, walks?, exprsEvents?_eq]
    show _ = Option.map _ (test.events?.bind _)
    cases test.events? <;> cases walks? (predicates.map expr) <;> rfl

/-- A walk through the children of a node is made of the walks through each of them. -/
theorem walks?_eq {ns : List Node} (h : ∀ n ∈ ns, n.events? = some n.walk) :
    walks? ns = some (ns.flatMap walk) := by
  induction ns with
  | nil => rfl
  | cons n rest ih =>
    rw [walks?, h n List.mem_cons_self, ih fun m hm => h m (List.mem_cons_of_mem _ hm)]
    rfl

/-- The walk through a node stands in one piece in the walk through the tree that it is part of. -/
theorem walk_infix {m n : Node} (h : m ∈ n.nodes) : m.walk <:+: n.walk := by
  induction n using induction_on_children with
  | h n ih =>
    rw [nodes_eq, List.mem_cons, List.mem_flatMap] at h
    rcases h with rfl | ⟨c, hc, hm⟩
    · exact List.infix_rfl
    · have hchild : c.walk <:+: n.children.flatMap walk :=
        List.infix_of_mem_flatten (List.mem_map_of_mem hc)
      have hinner : n.children.flatMap walk <:+: n.walk := by
        rw [walk_eq]
        exact List.infix_append [Event.enter n] _ [Event.leave n]
      exact (ih c hc hm).trans (hchild.trans hinner)

theorem Complete.events?_eq_walk {n : Node} (h : n.Complete) : n.events? = some n.walk := by
  induction n using induction_on_children with
  | h n ih =>
    rw [events?_eq h.kind, walks?_eq fun c hc => ih c hc (h.child hc), walk_eq]
    rfl

end Parts

section Visits

theorem occurrences_nodes (above : List Node) (n : Node) :
    (n.occurrences above).map Occurrence.node = n.nodes := by
  induction n using induction_on_children generalizing above with
  | h n ih =>
    rw [occurrences_eq, nodes_eq, List.map_cons, List.map_flatMap,
      List.flatMap_congr fun c hc => ih c hc (n :: above)]

/-- Below a node that is skipped nothing is visited, and below other nodes everything is that a
visit from there would visit. -/
theorem visited_below (enter : Node → Bool) (above : List Node) (n : Node) :
    ((n.occurrences above).filter fun o => o.above.all enter).map Occurrence.node =
      if above.all enter then n.visited enter else [] := by
  induction n using induction_on_children generalizing above with
  | h n ih =>
    have hbelow := List.flatMap_congr fun c hc => ih c hc (n :: above)
    rw [occurrences_eq, List.filter_cons, List.filter_flatMap, visited_eq]
    by_cases habove : above.all enter = true
    · rw [if_pos habove, if_pos habove, List.map_cons, List.map_flatMap, hbelow, List.all_cons,
        habove, Bool.and_true]
      by_cases hn : enter n = true
      · simp only [if_pos hn]
      · simp [hn]
    · have hnone : (n :: above).all enter = false := by simp [habove]
      rw [if_neg habove, if_neg habove, List.map_flatMap, hbelow, hnone]
      simp

theorem visited_eq_filter (enter : Node → Bool) (n : Node) :
    n.visited enter =
      ((n.occurrences []).filter fun o => o.above.all enter).map Occurrence.node := by
  rw [visited_below, List.all_nil, if_pos rfl]

end Visits

/-- A walk through a complete tree is nested, and in it the walk through each node is the walks
through its children between entering and leaving it. It enters the nodes in the order of their
visit and leaves them in the order that puts children first; a visit that skips the children of some
nodes meets just those nodes of the whole visit that lie below none of these. -/
theorem walk_agrees_with_visits (n : Node) (h : n.Complete) :
    ∃ events, n.events? = some events ∧ Nested events ∧
      (∀ m ∈ n.nodes, ∃ parts : List (List Event), m.children.map events? = parts.map some ∧
        within m parts.flatten <:+: events) ∧
      events.filterMap Event.entered? = n.visited (fun _ => true) ∧
      events.filterMap Event.left? = n.postOrder ∧
      (n.occurrences []).map Occurrence.node = n.visited (fun _ => true) ∧
      ∀ enter : Node → Bool, n.visited enter =
        ((n.occurrences []).filter fun o => o.above.all enter).map Occurrence.node := by
  refine ⟨n.walk, h.events?_eq_walk, n.nested_walk, ?_, n.walk_entered, n.walk_left,
    occurrences_nodes [] n, fun enter => visited_eq_filter enter n⟩
  intro m hm
  have hchildren : ∀ c ∈ m.children, c.events? = some c.walk := fun c hc =>
    ((h.of_mem hm).child hc).events?_eq_walk
  refine ⟨m.children.map walk, ?_, ?_⟩
  · rw [List.map_map]
    exact List.map_congr_left hchildren
  · rw [← List.flatMap_def, ← walk_eq]
    exact walk_infix hm

end Node

/-- `-f(a[1], $x)`. -/
def negatedCall : Node :=
  .expr (.negate (.call ⟨.absent, utf8 "f"⟩
    [.path [(.absent, .mk none (.name (.qualified ⟨[], utf8 "a"⟩)) [.number (.ofInt 1)])],
      .reference ⟨[], utf8 "x"⟩]))

theorem Node.walk_agrees_with_visits_negatedCall :
    negatedCall.Complete ∧ ∃ events, negatedCall.events? = some events ∧ Nested events ∧
      (events.filterMap Event.entered?).map Node.kind? =
        [some .negation, some .call, some .path, some .step, some .nameTest, some .number,
          some .reference] ∧
      (events.filterMap Event.left?).map Node.kind? =
        [some .nameTest, some .number, some .step, some .path, some .reference, some .call,
          some .negation] ∧
      (((negatedCall.occurrences []).filter fun o =>
        o.above.all fun m => m.kind? ≠ some .step).map Occurrence.node).map Node.kind? =
        [some .negation, some .call, some .path, some .step, some .reference] := by
  have hcomplete : negatedCall.Complete := by
    show ∀ m ∈ negatedCall.nodes, m.kind? ≠ none
    decide +kernel
  obtain ⟨events, hevents, hnested, -, hentered, hleft, -, hpruned⟩ :=
    Node.walk_agrees_with_visits negatedCall hcomplete
  refine ⟨hcomplete, events, hevents, hnested, ?_, ?_, ?_⟩
  · rw [hentered]
    decide +kernel
  · rw [hleft]
    decide +kernel
  · rw [← hpruned]
    decide +kernel

end NodePath
