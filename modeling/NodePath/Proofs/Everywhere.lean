import NodePath.Expr.Traversal

/-!
# Properties of all nodes of a tree

A property holds everywhere in a tree when it holds of each node that the tree lists. This is the
same as to hold of the top and everywhere below each of its children, which is how such properties
are proved and used. Of a complete tree, every node is there.
-/

namespace NodePath

namespace Node

variable {P Q : Node → Prop} {n : Node}

/-- A property holds of every node of a tree, the top included. -/
def Everywhere (P : Node → Prop) (n : Node) : Prop := ∀ m ∈ n.nodes, P m

theorem nodes_eq (n : Node) : n.nodes = n :: n.children.flatMap nodes := by
  rw [nodes, visited, if_pos rfl, List.flatMap_subtype (fun _ _ => rfl), List.unattach_attach]
  rfl

theorem everywhere_iff : n.Everywhere P ↔ P n ∧ ∀ c ∈ n.children, c.Everywhere P := by
  simp only [Everywhere, nodes_eq n, List.mem_cons, List.mem_flatMap]
  constructor
  · intro h
    exact ⟨h n (.inl rfl), fun c hc m hm => h m (.inr ⟨c, hc, hm⟩)⟩
  · rintro ⟨hn, hbelow⟩ m (rfl | ⟨c, hc, hm⟩)
    · exact hn
    · exact hbelow c hc m hm

/-- What passes from all children of a node to the node holds of every node. -/
theorem induction_on_children {P : Node → Prop} (h : ∀ n, (∀ c ∈ n.children, P c) → P n)
    (n : Node) : P n :=
  h n fun c hc =>
    have := count_lt_of_mem_children hc
    induction_on_children h c
termination_by n.count

/-- What passes from each node to its children, and implies a property, implies it everywhere. -/
theorem everywhere_of_inherited (hinherit : ∀ {n : Node}, P n → ∀ c ∈ n.children, P c)
    (hPQ : ∀ {n : Node}, P n → Q n) {n : Node} (h : P n) : n.Everywhere Q :=
  everywhere_iff.mpr ⟨hPQ h, fun c hc =>
    have := count_lt_of_mem_children hc
    everywhere_of_inherited hinherit hPQ (hinherit h c hc)⟩
termination_by n.count

theorem Everywhere.of_mem {m : Node} (h : n.Everywhere P) (hm : m ∈ n.nodes) :
    m.Everywhere P := by
  induction n using induction_on_children with
  | h n ih =>
    rw [nodes_eq, List.mem_cons, List.mem_flatMap] at hm
    rcases hm with rfl | ⟨c, hc, hm⟩
    · exact h
    · exact ih c hc ((everywhere_iff.mp h).2 c hc) hm

/-- A tree without missing parts. -/
def Complete (n : Node) : Prop := n.Everywhere fun m => m.kind? ≠ none

theorem Complete.child {c : Node} (h : n.Complete) (hc : c ∈ n.children) : c.Complete :=
  (everywhere_iff.mp h).2 c hc

theorem Complete.kind (h : n.Complete) : n.kind? ≠ none := (everywhere_iff.mp h).1

theorem Complete.of_mem {m : Node} (h : n.Complete) (hm : m ∈ n.nodes) : m.Complete :=
  Everywhere.of_mem h hm

theorem Complete.steps {steps : Path} (h : (pathNode steps).Complete) :
    ∀ entry ∈ steps, (Node.step entry.2).Complete := by
  intro entry hentry
  exact h.child (List.mem_map_of_mem (f := fun entry => Node.step entry.2) hentry)

end Node

end NodePath
