import NodePath.Proofs.Leaves
import NodePath.Proofs.OutlineLines
import NodePath.Proofs.Spelling
import NodePath.Proofs.Walks

/-!
# Missing parts

All that can be asked of a tree is refused for the same trees. A text, a walk, a record and an
outline are there unless a part of the tree is missing, and a visit of all nodes comes to that part.
A builder that follows the walk node by node meets it before any frame could hold too few records.
The names in a tree are listed whether it is complete or not.
-/

namespace NodePath

open NodePath.Text NodePath.Number

theorem Node.complete_iff {n : Node} :
    n.Complete ↔ n.kind? ≠ none ∧ ∀ c ∈ n.children, c.Complete := Node.everywhere_iff

namespace Builder

/-- What a builder makes of a tree when it handles every event as the walk comes to it: it enters a
node, goes through the children and leaves the node, and stops at a missing part. -/
def follow (b : Builder) (n : Node) : Except DumpFault Builder :=
  if n.kind? = none then .error .missingNode
  else do
    let b ← n.children.attach.foldlM (fun b ⟨c, _⟩ => b.follow c) (b.enter n)
    b.leave n
termination_by n.count
decreasing_by exact Node.count_lt_of_mem_children ‹_›

variable {n : Node} {cs : List Node} {b : Builder}

theorem follow_missing (h : n.kind? = none) : b.follow n = .error .missingNode := by
  rw [follow, if_pos h]

theorem follow_present (h : n.kind? ≠ none) :
    b.follow n = n.children.foldlM follow (b.enter n) >>= fun b => b.leave n := by
  rw [follow, if_neg h, List.foldlM_subtype (fun _ _ _ => rfl), List.unattach_attach]

/-- The walks through some nodes, one after the other. -/
theorem foldlM_follow (h : ∀ c ∈ cs, ∀ b : Builder, b.follow c = b.run c.walk) (b : Builder) :
    cs.foldlM follow b = b.run (cs.flatMap Node.walk) := by
  induction cs generalizing b with
  | nil => rfl
  | cons c cs ih =>
    rw [List.foldlM_cons, List.flatMap_cons, run_append, h c List.mem_cons_self]
    exact congrArg _ (funext (ih fun d hd => h d (List.mem_cons_of_mem _ hd)))

/-- Through a complete tree a builder goes as it does when it is given all events at once. -/
theorem follow_eq_run (h : n.Complete) (b : Builder) : b.follow n = b.run n.walk := by
  induction n using Node.induction_on_children generalizing b with
  | h n ih =>
    have hchildren := foldlM_follow (fun c hc => ih c hc (h.child hc)) (b.enter n)
    rw [follow_present h.kind, hchildren, Node.walk_eq]
    show _ = (b.enter n).run (n.children.flatMap Node.walk ++ [.leave n])
    rw [run_append]
    refine congrArg _ (funext fun b => ?_)
    show b.leave n = b.leave n >>= pure
    rw [bind_pure]

theorem follow_complete (h : n.Complete) (b : Builder) :
    b.follow n = .ok (b.emit n.translation) := by
  obtain ⟨events, hevents, hemits⟩ := n.emits h
  obtain rfl : n.walk = events := Option.some.inj (h.events?_eq_walk.symm.trans hevents)
  rw [follow_eq_run h]
  exact hemits b

/-- Parts in front of the first incomplete one are complete, so that the builder gets to it. -/
theorem foldlM_follow_incomplete
    (hstop : ∀ c ∈ cs, ¬c.Complete → ∀ b : Builder, b.follow c = .error .missingNode)
    (h : ¬∀ c ∈ cs, c.Complete) (b : Builder) : cs.foldlM follow b = .error .missingNode := by
  induction cs generalizing b with
  | nil => exact absurd (fun c hc => nomatch hc) h
  | cons c cs ih =>
    obtain ⟨hc, hrest⟩ := List.forall_mem_cons.mp hstop
    rw [List.foldlM_cons]
    by_cases hcomplete : c.Complete
    · rw [follow_complete hcomplete]
      exact ih hrest (fun hall => h (List.forall_mem_cons.mpr ⟨hcomplete, hall⟩)) _
    · rw [hc hcomplete]
      rfl

theorem follow_incomplete (h : ¬n.Complete) (b : Builder) : b.follow n = .error .missingNode := by
  induction n using Node.induction_on_children generalizing b with
  | h n ih =>
    by_cases hkind : n.kind? = none
    · exact follow_missing hkind
    · have hchildren : ¬∀ c ∈ n.children, c.Complete := fun hall =>
        h (Node.complete_iff.mpr ⟨hkind, hall⟩)
      rw [follow_present hkind, foldlM_follow_incomplete ih hchildren]
      rfl

/-- A missing part is all that stops a builder, whatever frames are open. -/
theorem follow_eq_error_iff {fault : DumpFault} :
    b.follow n = .error fault ↔ fault = .missingNode ∧ ¬n.Complete := by
  by_cases h : n.Complete
  · simp [follow_complete h, h]
  · simp [follow_incomplete h, h, eq_comm]

end Builder

namespace Node

variable {n : Node}

theorem walks?_isSome (ns : List Node) :
    (walks? ns).isSome = true ↔ ∀ n ∈ ns, n.events?.isSome = true := by
  induction ns with
  | nil => simp [walks?]
  | cons n rest ih => rw [walks?, isSome_both, ih, List.forall_mem_cons]

theorem events?_missing (h : n.kind? = none) : n.events? = none := by
  cases n with
  | expr e =>
    cases e with
    | missing => rw [events?, Expr.events?]
    | _ => cases h
  | test t =>
    cases t with
    | missing => rfl
    | _ => cases h
  | step s => cases h

/-- A walk gets through a tree exactly when no part of it is missing. -/
theorem events?_isSome_iff (n : Node) : n.events?.isSome = true ↔ n.Complete := by
  induction n using induction_on_children with
  | h n ih =>
    rw [complete_iff]
    by_cases hkind : n.kind? = none
    · simp [events?_missing hkind, hkind]
    · rw [events?_eq hkind, Option.isSome_map, walks?_isSome]
      simp [hkind, forall₂_congr ih]

theorem events?_eq_none_iff (n : Node) : n.events? = none ↔ ¬n.Complete := by
  rw [← events?_isSome_iff, Option.not_isSome_iff_eq_none]

theorem text?_eq_none_iff (n : Node) : n.text? = none ↔ ¬n.Complete := by
  rw [← text?_isSome_iff, Option.not_isSome_iff_eq_none]

theorem not_complete_iff : ¬n.Complete ↔ ∃ m ∈ n.nodes, m.kind? = none := by
  simp [Complete, Everywhere]

theorem dump_eq_error_iff {fault : DumpFault} :
    n.dump = .error fault ↔ fault = .missingNode ∧ ¬n.Complete := by
  by_cases h : n.Complete
  · simp [h.dump_eq, h]
  · rw [dump, (events?_eq_none_iff n).mpr h]
    simp [h, eq_comm]

theorem outline_eq_error_iff {fault : DumpFault} :
    n.outline = .error fault ↔ fault = .missingNode ∧ ¬n.Complete := by
  by_cases h : n.Complete
  · simp [outline_eq h, h]
  · have hdump : n.dump = .error .missingNode := dump_eq_error_iff.mpr ⟨rfl, h⟩
    rw [outline, hdump]
    show Except.error _ = _ ↔ _
    simp [h, eq_comm]

/-- The name of the function that a node calls. -/
def called? : Node → Option Bytes
  | .expr (.call function _) => some function.text
  | _ => none

/-- The name of the variable that a node refers to. -/
def referred? : Node → Option Bytes
  | .expr (.reference name) => some name.text
  | _ => none

/-- A tree has a text just when a walk gets through it, which is when a visit comes to no missing
part. The same trees have a record and an outline, and a missing part is the only reason to have
none, also for a builder with frames open that follows the walk event by event and so comes upon
that part in the middle of its work. The names of functions and variables are those of all nodes
that a visit comes to, whatever is missing. -/
theorem consumers_refuse_alike (n : Node) :
    (n.text? = none ↔ n.events? = none) ∧
      (n.events? = none ↔ ∃ m ∈ n.visited fun _ => true, m.kind? = none) ∧
      (∀ fault, n.dump = .error fault ↔ fault = .missingNode ∧ n.events? = none) ∧
      (∀ fault, n.outline = .error fault ↔ fault = .missingNode ∧ n.events? = none) ∧
      (∀ b : Builder, (∀ events, n.events? = some events → b.follow n = b.run events) ∧
        ∀ fault, b.follow n = .error fault ↔ fault = .missingNode ∧ n.events? = none) ∧
      (∀ r, n.dump = .ok r ↔ ∃ b, Builder.start.follow n = .ok b ∧ b.result = some r) ∧
      FirstOccurrences n.functionNames ((n.visited fun _ => true).filterMap called?) ∧
      FirstOccurrences n.variableNames ((n.visited fun _ => true).filterMap referred?) := by
  have hevents := events?_eq_none_iff n
  refine ⟨(text?_eq_none_iff n).trans hevents.symm, hevents.trans not_complete_iff, ?_, ?_, ?_, ?_,
    firstOccurrences_eraseDups _, firstOccurrences_eraseDups _⟩
  · intro fault
    rw [dump_eq_error_iff, hevents]
  · intro fault
    rw [outline_eq_error_iff, hevents]
  · intro b
    refine ⟨fun events hsome => ?_, fun fault => ?_⟩
    · have hcomplete : n.Complete := (events?_isSome_iff n).mp (hsome ▸ rfl)
      obtain rfl : n.walk = events :=
        Option.some.inj (hcomplete.events?_eq_walk.symm.trans hsome)
      exact Builder.follow_eq_run hcomplete b
    · rw [Builder.follow_eq_error_iff, hevents]
  · intro r
    by_cases h : n.Complete
    · have hresult : (Builder.start.emit n.translation).result = some n.translation := rfl
      rw [h.dump_eq, Builder.follow_complete h]
      simp [hresult]
    · rw [dump_eq_error_iff.mpr ⟨rfl, h⟩, Builder.follow_incomplete h]
      simp

/-- `-f(*, )` without the last argument, and with a separator of no meaning before the step. -/
def missingArgument : Node :=
  .expr (.negate (.call ⟨.absent, utf8 "f"⟩
    [.path [(.unknown 7, .mk none (.name .any) [])], .missing]))

example : missingArgument.text? = none ∧ missingArgument.functionNames = [utf8 "f"] := by
  decide +kernel

end Node

end NodePath
