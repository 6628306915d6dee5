import Mathlib.Data.List.Induction
import Mathlib.Data.List.Nodup
import NodePath.Corpus.Basic

/-!
# Workers that share the entries of a corpus

The entries of a corpus can be checked by several workers at once. A dispatcher starts the workers,
hands the entries out one by one to whichever worker asks next, then tells the workers that there
are no more and waits for them to end. Every worker puts its results where the entry stood. Whatever
the order in which they act, they never block each other, and the report is the one of a check entry
by entry. One invariant carries this: an entry that was handed out is still with its worker, or its
result is in its place.
-/

namespace NodePath

/-- Tasks that workers do on their own, each for one result. -/
structure Pool (α β : Type) where
  work : α → β
  /-- What stands in the place of a result before there is one. -/
  blank : β
  tasks : List α
  /-- How many workers are started. -/
  size : Nat

namespace Pool

/-- A worker waits for a task, has one, or was told that there are no more. -/
inductive Worker where
  | ready
  | holding (task : Nat)
  | ended
deriving DecidableEq, Repr

namespace Worker

def isRunning : Worker → Bool
  | .ended => false
  | _ => true

def isHolding : Worker → Bool
  | .holding _ => true
  | _ => false

end Worker

/-- The dispatcher starts workers, hands out tasks, waits for the workers and then goes on. -/
inductive Phase where
  | starting (left : Nat)
  | sending (next : Nat)
  | waiting
  | returned
deriving DecidableEq, Repr

structure State (β : Type) where
  phase : Phase
  workers : List Worker
  /-- How many workers were started and have not ended. -/
  pending : Nat
  results : List β
deriving DecidableEq, Repr

inductive Action where
  | start
  | begin
  /-- A worker gets a task; dispatcher and worker wait for each other. -/
  | receive (worker task : Nat)
  /-- A worker puts the result of its task in its place. -/
  | store (worker task : Nat)
  | close
  | leave (worker : Nat)
  /-- The dispatcher has waited for all workers. -/
  | proceed
deriving DecidableEq, Repr

/-- No task is handed out any more, and workers may be told so. -/
def Phase.isClosed : Phase → Bool
  | .waiting | .returned => true
  | _ => false

variable {α β : Type} (p : Pool α β)

def start : State β :=
  ⟨.starting p.size, [], 0, List.replicate p.tasks.length p.blank⟩

/-- What an action makes of a state in which it is possible. -/
def step (s : State β) : Action → Option (State β)
  | .start =>
    match s.phase with
    | .starting (left + 1) =>
      some { s with
        phase := .starting left, workers := s.workers ++ [.ready], pending := s.pending + 1 }
    | _ => none
  | .begin => if s.phase = .starting 0 then some { s with phase := .sending 0 } else none
  | .receive w i =>
    if s.phase = .sending i ∧ i < p.tasks.length ∧ s.workers[w]? = some .ready then
      some { s with phase := .sending (i + 1), workers := s.workers.set w (.holding i) }
    else none
  | .store w i =>
    match p.tasks[i]? with
    | some task =>
      if s.workers[w]? = some (.holding i) then
        some { s with workers := s.workers.set w .ready, results := s.results.set i (p.work task) }
      else none
    | none => none
  | .close =>
    if s.phase = .sending p.tasks.length then some { s with phase := .waiting } else none
  | .leave w =>
    if s.phase.isClosed ∧ s.workers[w]? = some .ready then
      some { s with workers := s.workers.set w .ended, pending := s.pending - 1 }
    else none
  | .proceed =>
    if s.phase = .waiting ∧ s.pending = 0 then some { s with phase := .returned } else none

/-- One action after the other, in the order that they happen to have. -/
def run (s : State β) (actions : List Action) : Option (State β) := actions.foldlM p.step s

section Steps

/-- What an action needs and what it changes. -/
inductive Step (s : State β) : Action → State β → Prop where
  | start {left : Nat} (hphase : s.phase = .starting (left + 1)) :
      Step s .start { s with
        phase := .starting left, workers := s.workers ++ [.ready], pending := s.pending + 1 }
  | begin (hphase : s.phase = .starting 0) : Step s .begin { s with phase := .sending 0 }
  | receive {w i : Nat} (hphase : s.phase = .sending i) (hi : i < p.tasks.length)
      (hw : s.workers[w]? = some .ready) :
      Step s (.receive w i)
        { s with phase := .sending (i + 1), workers := s.workers.set w (.holding i) }
  | store {w i : Nat} {task : α} (htask : p.tasks[i]? = some task)
      (hw : s.workers[w]? = some (.holding i)) :
      Step s (.store w i)
        { s with workers := s.workers.set w .ready, results := s.results.set i (p.work task) }
  | close (hphase : s.phase = .sending p.tasks.length) :
      Step s .close { s with phase := .waiting }
  | leave {w : Nat} (hphase : s.phase.isClosed = true) (hw : s.workers[w]? = some .ready) :
      Step s (.leave w) { s with workers := s.workers.set w .ended, pending := s.pending - 1 }
  | proceed (hphase : s.phase = .waiting) (hpending : s.pending = 0) :
      Step s .proceed { s with phase := .returned }

variable {p} {s s' : State β} {a : Action}

theorem step_eq_some : p.step s a = some s' ↔ p.Step s a s' := by
  constructor
  · intro h
    cases a with
    | start =>
      simp only [step] at h
      split at h
      · next hphase => exact Option.some.inj h ▸ .start hphase
      · cases h
    | store w i =>
      simp only [step] at h
      split at h
      · next htask =>
        split at h
        · next hw => exact Option.some.inj h ▸ .store htask hw
        · cases h
      · cases h
    | begin =>
      obtain ⟨hphase, ⟨⟩⟩ := Option.ite_none_right_eq_some.mp h
      exact .begin hphase
    | receive w i =>
      obtain ⟨⟨hphase, hi, hw⟩, ⟨⟩⟩ := Option.ite_none_right_eq_some.mp h
      exact .receive hphase hi hw
    | close =>
      obtain ⟨hphase, ⟨⟩⟩ := Option.ite_none_right_eq_some.mp h
      exact .close hphase
    | leave w =>
      obtain ⟨⟨hphase, hw⟩, ⟨⟩⟩ := Option.ite_none_right_eq_some.mp h
      exact .leave hphase hw
    | proceed =>
      obtain ⟨⟨hphase, hpending⟩, ⟨⟩⟩ := Option.ite_none_right_eq_some.mp h
      exact .proceed hphase hpending
  · intro h
    cases h <;> simp [step, *]

/-- The states that a run reaches from the start, one action after the other. -/
inductive Reach (p : Pool α β) : List Action → State β → Prop where
  | start : Reach p [] p.start
  | next {actions : List Action} {s s' : State β} {a : Action} :
      Reach p actions s → p.Step s a s' → Reach p (actions ++ [a]) s'

theorem reach_of_run {actions : List Action} (h : p.run p.start actions = some s) :
    p.Reach actions s := by
  induction actions using List.reverseRecOn generalizing s with
  | nil =>
    obtain rfl := Option.some.inj h
    exact .start
  | append_singleton actions a ih =>
    rw [run, List.foldlM_append] at h
    obtain ⟨before, hbefore, hlast⟩ := Option.bind_eq_some_iff.mp h
    obtain ⟨after, hafter, hend⟩ := Option.bind_eq_some_iff.mp hlast
    obtain rfl := Option.some.inj hend
    exact .next (ih hbefore) (step_eq_some.mp hafter)

end Steps

section Invariant

/-- How many workers the dispatcher has still to start. -/
def Phase.unstarted : Phase → Nat
  | .starting left => left
  | _ => 0

/-- How many of so many tasks the dispatcher has handed out. -/
def Phase.sent (total : Nat) : Phase → Nat
  | .starting _ => 0
  | .sending next => next
  | .waiting | .returned => total

/-- Every task that was handed out is with a worker, or its result is in its place. -/
structure Inv (s : State β) : Prop where
  started : s.phase.unstarted + s.workers.length = p.size
  pending : s.pending = s.workers.countP Worker.isRunning
  length : s.results.length = p.tasks.length
  sent_le : s.phase.sent p.tasks.length ≤ p.tasks.length
  held : ∀ i, .holding i ∈ s.workers → i < s.phase.sent p.tasks.length
  settled : ∀ i < s.phase.sent p.tasks.length,
    .holding i ∈ s.workers ∨ s.results[i]? = p.tasks[i]?.map p.work
  ended : .ended ∈ s.workers → s.phase.isClosed = true
  returned : s.phase = .returned → s.pending = 0

variable {p} {s s' : State β} {a : Action}

theorem mem_set_of_ne {workers : List Worker} {w : Nat} {x old new : Worker}
    (hw : workers[w]? = some old) (hx : x ∈ workers) (hne : x ≠ old) : x ∈ workers.set w new := by
  obtain ⟨v, hv⟩ := List.mem_iff_getElem?.mp hx
  have hwv : w ≠ v := by
    rintro rfl
    exact hne (Option.some.inj (hv.symm.trans hw))
  exact List.mem_of_getElem? (i := v) (by rw [List.getElem?_set_ne hwv, hv])

/-- Workers are counted anew when one of them changes. -/
theorem countP_set_add {workers : List Worker} {w : Nat} {old : Worker}
    (hw : workers[w]? = some old) (new : Worker) (f : Worker → Bool) :
    (workers.set w new).countP f + (f old).toNat = workers.countP f + (f new).toNat := by
  induction workers generalizing w with
  | nil => cases hw
  | cons x rest ih =>
    cases w with
    | zero =>
      obtain rfl := Option.some.inj hw
      simp only [List.set_cons_zero, List.countP_cons]
      cases f x <;> cases f new <;> simp
    | succ w =>
      have := ih hw
      simp only [List.set_cons_succ, List.countP_cons]
      omega

theorem inv_start : p.Inv p.start where
  started := rfl
  pending := rfl
  length := List.length_replicate
  sent_le := Nat.zero_le _
  held _ h := nomatch h
  settled _ h := absurd h (Nat.not_lt_zero _)
  ended h := nomatch h
  returned h := nomatch h

theorem Inv.start {left : Nat} (h : p.Inv s) (hphase : s.phase = .starting (left + 1)) :
    p.Inv { s with
      phase := .starting left, workers := s.workers ++ [.ready], pending := s.pending + 1 } := by
  obtain ⟨hstarted, hpending, hlength, -, hheld, -, hended, -⟩ := h
  rw [hphase] at hstarted hheld hended
  simp only [Phase.unstarted] at hstarted
  constructor
  · simp only [Phase.unstarted, List.length_append, List.length_singleton]
    omega
  · simp [hpending, Worker.isRunning]
  · exact hlength
  · exact Nat.zero_le _
  · simpa [Phase.sent] using hheld
  · simp [Phase.sent]
  · simpa [Phase.isClosed] using hended
  · simp

/-- The task that is handed out is with the worker. -/
theorem Inv.receive {w i : Nat} (h : p.Inv s) (hphase : s.phase = .sending i)
    (hi : i < p.tasks.length) (hw : s.workers[w]? = some .ready) :
    p.Inv { s with phase := .sending (i + 1), workers := s.workers.set w (.holding i) } := by
  obtain ⟨hstarted, hpending, hlength, -, hheld, hsettled, hended, -⟩ := h
  rw [hphase] at hstarted hheld hsettled hended
  simp only [Phase.unstarted, Phase.sent, Phase.isClosed] at hstarted hheld hsettled hended
  have hcount := countP_set_add hw (.holding i) Worker.isRunning
  constructor
  · simpa [Phase.unstarted] using hstarted
  · rw [hpending]
    exact (Nat.add_right_cancel hcount).symm
  · exact hlength
  · exact hi
  · intro j hj
    rcases List.mem_or_eq_of_mem_set hj with hj | hj
    · exact Nat.lt_succ_of_lt (hheld j hj)
    · obtain rfl := Worker.holding.inj hj
      exact Nat.lt_succ_self j
  · intro j hj
    by_cases hij : j = i
    · rw [hij]
      exact .inl (List.mem_set (List.getElem?_eq_some_iff.mp hw).1 _)
    · have hbefore : j < i := Nat.lt_of_le_of_ne (Nat.le_of_lt_succ hj) hij
      exact (hsettled j hbefore).imp_left fun hmem => mem_set_of_ne hw hmem (by simp)
  · intro hmem
    rcases List.mem_or_eq_of_mem_set hmem with hmem | hmem
    · cases hended hmem
    · cases hmem
  · simp

/-- The result of a task takes the place of the worker that had it. -/
theorem Inv.store {w i : Nat} {task : α} (h : p.Inv s) (htask : p.tasks[i]? = some task)
    (hw : s.workers[w]? = some (.holding i)) :
    p.Inv { s with
      workers := s.workers.set w .ready, results := s.results.set i (p.work task) } := by
  obtain ⟨hstarted, hpending, hlength, hsent, hheld, hsettled, hended, hreturned⟩ := h
  have hcount := countP_set_add hw .ready Worker.isRunning
  constructor
  · simpa using hstarted
  · rw [hpending]
    exact (Nat.add_right_cancel hcount).symm
  · simpa using hlength
  · exact hsent
  · intro j hj
    rcases List.mem_or_eq_of_mem_set hj with hj | hj
    · exact hheld j hj
    · cases hj
  · intro j hj
    by_cases hij : i = j
    · subst hij
      right
      have hbound : i < s.results.length := hlength ▸ (List.getElem?_eq_some_iff.mp htask).1
      rw [List.getElem?_set_self hbound, htask]
      rfl
    · rw [List.getElem?_set_ne hij]
      exact (hsettled j hj).imp_left fun hmem => mem_set_of_ne hw hmem (by simpa using Ne.symm hij)
  · intro hmem
    rcases List.mem_or_eq_of_mem_set hmem with hmem | hmem
    · exact hended hmem
    · cases hmem
  · exact hreturned

theorem Inv.leave {w : Nat} (h : p.Inv s) (hphase : s.phase.isClosed = true)
    (hw : s.workers[w]? = some .ready) :
    p.Inv { s with workers := s.workers.set w .ended, pending := s.pending - 1 } := by
  obtain ⟨hstarted, hpending, hlength, hsent, hheld, hsettled, -, hreturned⟩ := h
  have hcount := countP_set_add hw .ended Worker.isRunning
  constructor
  · simpa using hstarted
  · simp only [Worker.isRunning, Bool.toNat_true, Bool.toNat_false] at hcount
    dsimp only
    omega
  · exact hlength
  · exact hsent
  · intro j hj
    rcases List.mem_or_eq_of_mem_set hj with hj | hj
    · exact hheld j hj
    · cases hj
  · intro j hj
    exact (hsettled j hj).imp_left fun hmem => mem_set_of_ne hw hmem (by simp)
  · exact fun _ => hphase
  · intro hret
    have := hreturned hret
    dsimp only
    omega

/-- Each action keeps the invariant. -/
theorem Inv.step (h : p.Inv s) (hstep : p.Step s a s') : p.Inv s' := by
  cases hstep with
  | start hphase => exact h.start hphase
  | receive hphase hi hw => exact h.receive hphase hi hw
  | store htask hw => exact h.store htask hw
  | leave hphase hw => exact h.leave hphase hw
  | begin hphase =>
    obtain ⟨hstarted, hpending, hlength, -, hheld, -, hended, -⟩ := h
    rw [hphase] at hstarted hheld hended
    exact ⟨hstarted, hpending, hlength, Nat.zero_le _, hheld, by simp [Phase.sent], hended, by simp⟩
  | close hphase =>
    obtain ⟨hstarted, hpending, hlength, -, hheld, hsettled, -, -⟩ := h
    rw [hphase] at hstarted hheld hsettled
    exact ⟨hstarted, hpending, hlength, Nat.le_refl _, hheld, hsettled, fun _ => rfl, by simp⟩
  | proceed hphase hnone =>
    obtain ⟨hstarted, hpending, hlength, -, hheld, hsettled, -, -⟩ := h
    rw [hphase] at hstarted hheld hsettled
    exact ⟨hstarted, hpending, hlength, Nat.le_refl _, hheld, hsettled, fun _ => rfl,
      fun _ => hnone⟩

theorem Reach.inv {actions : List Action} (h : p.Reach actions s) : p.Inv s := by
  induction h with
  | start => exact inv_start
  | next _ hstep ih => exact ih.step hstep

end Invariant

section Outcome

variable {p} {s s' : State β} {a : Action}

theorem Inv.all_ended (h : p.Inv s) (hret : s.phase = .returned) : ∀ w ∈ s.workers, w = .ended := by
  have hnone : s.workers.countP Worker.isRunning = 0 := h.pending ▸ h.returned hret
  intro w hw
  have hstopped := List.countP_eq_zero.mp hnone w hw
  cases w with
  | ended => rfl
  | ready => exact absurd rfl hstopped
  | holding i => exact absurd rfl hstopped

/-- Once the dispatcher goes on, the results are those of the tasks, in their order. -/
theorem Inv.results_eq (h : p.Inv s) (hret : s.phase = .returned) :
    s.results = p.tasks.map p.work := by
  apply List.ext_getElem?
  intro i
  rw [List.getElem?_map]
  by_cases hi : i < p.tasks.length
  · have hsent : i < s.phase.sent p.tasks.length := by rw [hret]; exact hi
    rcases h.settled i hsent with hmem | hresult
    · cases h.all_ended hret _ hmem
    · exact hresult
  · have hend : p.tasks.length ≤ i := Nat.le_of_not_lt hi
    rw [List.getElem?_eq_none (h.length ▸ hend), List.getElem?_eq_none hend]
    rfl

end Outcome

section Handing

/-- The task that is handed out, if one is. -/
def Action.handed? : Action → Option Nat
  | .receive _ i => some i
  | _ => none

/-- The worker that gets a task by an action. -/
def Action.receiver? (i : Nat) : Action → Option Nat
  | .receive w j => if j = i then some w else none
  | _ => none

variable {p} {s s' : State β} {a : Action} {actions : List Action}

theorem Step.handed (h : p.Step s a s') :
    List.range (s'.phase.sent p.tasks.length) =
      List.range (s.phase.sent p.tasks.length) ++ a.handed?.toList := by
  cases h with
  | receive hphase =>
    rw [hphase]
    exact List.range_succ
  | start hphase | begin hphase | close hphase | proceed hphase =>
    rw [hphase]
    exact (List.append_nil _).symm
  | store | leave => exact (List.append_nil _).symm

/-- The tasks are handed out in their order. -/
theorem Reach.handed (h : p.Reach actions s) :
    actions.filterMap Action.handed? = List.range (s.phase.sent p.tasks.length) := by
  induction h with
  | start => rfl
  | @next _ _ _ a _ hstep ih =>
    rw [hstep.handed, List.filterMap_append, ih, List.filterMap_cons]
    cases a.handed? <;> rfl

theorem length_receivers (i : Nat) (actions : List Action) :
    (actions.filterMap (Action.receiver? i)).length =
      (actions.filterMap Action.handed?).count i := by
  induction actions with
  | nil => rfl
  | cons a rest ih =>
    cases a with
    | receive w j => by_cases hij : j = i <;> simp [Action.receiver?, Action.handed?, hij, ih]
    | _ => exact ih

theorem Reach.receiver_lt (h : p.Reach actions s) {w i : Nat} (hmem : .receive w i ∈ actions) :
    w < p.size := by
  induction h with
  | start => cases hmem
  | next hbefore hstep ih =>
    rcases List.mem_append.mp hmem with hmem | hmem
    · exact ih hmem
    · obtain rfl := List.mem_singleton.mp hmem
      cases hstep with
      | receive _ _ hw =>
        have hlength := (List.getElem?_eq_some_iff.mp hw).1
        have hstarted := hbefore.inv.started
        omega

/-- A task that was handed out went to one worker, once. -/
theorem Reach.exists_receiver (h : p.Reach actions s) {i : Nat}
    (hi : i < s.phase.sent p.tasks.length) :
    ∃ w < p.size, actions.filterMap (Action.receiver? i) = [w] := by
  have hlength : (actions.filterMap (Action.receiver? i)).length = 1 := by
    rw [length_receivers, h.handed]
    exact List.count_eq_one_of_mem List.nodup_range (List.mem_range.mpr hi)
  obtain ⟨w, hw⟩ := List.length_eq_one_iff.mp hlength
  refine ⟨w, ?_, hw⟩
  have hmem : w ∈ actions.filterMap (Action.receiver? i) := hw ▸ List.mem_singleton_self w
  obtain ⟨a, ha, hreceiver⟩ := List.mem_filterMap.mp hmem
  cases a with
  | receive v j =>
    simp only [Action.receiver?, Option.ite_none_right_eq_some, Option.some.injEq] at hreceiver
    exact hreceiver.2 ▸ h.receiver_lt ha
  | _ => cases hreceiver

end Handing

section Progress

/-- How many actions follow from what the dispatcher has still to do: a worker that it starts also
ends, and the result of a task that it hands out is put in its place. -/
def Phase.left (total : Nat) : Phase → Nat
  | .starting left => 2 * left + 2 * total + 3
  | .sending next => 2 * (total - next) + 2
  | .waiting => 1
  | .returned => 0

/-- How many actions are left to a worker: it puts its result in its place, and it ends. -/
def Worker.left (w : Worker) : Nat := w.isRunning.toNat + w.isHolding.toNat

/-- How many actions are left to the workers. -/
def workload (workers : List Worker) : Nat :=
  workers.countP Worker.isRunning + workers.countP Worker.isHolding

/-- How many actions are left in a state. -/
def remaining (s : State β) : Nat := s.phase.left p.tasks.length + workload s.workers

variable {p} {s s' : State β} {a : Action} {actions : List Action}

theorem workload_set {workers : List Worker} {w : Nat} {old : Worker}
    (hw : workers[w]? = some old) (new : Worker) :
    workload (workers.set w new) + old.left = workload workers + new.left := by
  have hrunning := countP_set_add hw new Worker.isRunning
  have hholding := countP_set_add hw new Worker.isHolding
  simp only [workload, Worker.left]
  omega

theorem workload_append_ready (workers : List Worker) :
    workload (workers ++ [.ready]) = workload workers + 1 := by
  simp only [workload, List.countP_append, List.countP_singleton, Worker.isRunning,
    Worker.isHolding, if_true, Bool.false_eq_true, if_false]
  omega

/-- Every action is one of those that were left. -/
theorem Step.remaining (h : p.Step s a s') : p.remaining s' + 1 = p.remaining s := by
  cases h with
  | start hphase =>
    simp only [Pool.remaining, hphase, Phase.left, workload_append_ready]
    omega
  | begin hphase | close hphase | proceed hphase =>
    simp only [Pool.remaining, hphase, Phase.left]
    omega
  | @receive w i hphase hi hw =>
    have hload : _ + 1 = _ + 2 := workload_set hw (.holding i)
    simp only [Pool.remaining, hphase, Phase.left]
    omega
  | store htask hw =>
    have hload : _ + 2 = _ + 1 := workload_set hw .ready
    simp only [Pool.remaining]
    omega
  | leave hphase hw =>
    have hload : _ + 1 = _ + 0 := workload_set hw .ended
    simp only [Pool.remaining]
    omega

theorem Reach.length_add_remaining (h : p.Reach actions s) :
    actions.length + p.remaining s = 2 * p.size + 2 * p.tasks.length + 3 := by
  induction h with
  | start =>
    simp only [Pool.remaining, Pool.start, Phase.left, workload, List.countP_nil, List.length_nil]
    omega
  | next _ hstep ih =>
    have := hstep.remaining
    rw [List.length_append, List.length_singleton]
    omega

theorem Inv.remaining_eq_zero (h : p.Inv s) : p.remaining s = 0 ↔ s.phase = .returned := by
  constructor
  · intro hzero
    have hleft : s.phase.left p.tasks.length = 0 := by
      rw [Pool.remaining] at hzero
      omega
    cases hphase : s.phase with
    | returned => rfl
    | _ =>
      rw [hphase, Phase.left] at hleft
      omega
  · intro hret
    have hrunning : s.workers.countP Worker.isRunning = 0 := h.pending ▸ h.returned hret
    have hholding : s.workers.countP Worker.isHolding = 0 := by
      apply List.countP_eq_zero.mpr
      intro w hw
      rw [h.all_ended hret w hw]
      decide
    rw [Pool.remaining, workload, hret, hrunning, hholding]
    rfl

/-- A worker that has a task can put the result in its place. -/
theorem Inv.can_store (h : p.Inv s) {w i : Nat} (hw : s.workers[w]? = some (.holding i)) :
    ∃ a s', p.Step s a s' := by
  have hi : i < p.tasks.length :=
    Nat.lt_of_lt_of_le (h.held i (List.mem_of_getElem? hw)) h.sent_le
  exact ⟨_, _, .store (List.getElem?_eq_getElem hi) hw⟩

/-- As long as the dispatcher has not gone on, something can happen. -/
theorem Inv.progress (h : p.Inv s) (hsize : p.tasks = [] ∨ 0 < p.size)
    (hphase : s.phase ≠ .returned) : ∃ a s', p.Step s a s' := by
  cases hs : s.phase with
  | returned => exact absurd hs hphase
  | starting left =>
    cases left with
    | zero => exact ⟨_, _, .begin hs⟩
    | succ left => exact ⟨_, _, .start hs⟩
  | sending next =>
    have hnext : next ≤ p.tasks.length := by simpa [hs, Phase.sent] using h.sent_le
    rcases Nat.lt_or_eq_of_le hnext with hnext | rfl
    · -- A task is left, so there is a first worker, and it waits for a task or has one.
      have hfirst : 0 < s.workers.length := by
        have hstarted := h.started
        simp only [hs, Phase.unstarted] at hstarted
        rcases hsize with hnone | hsize
        · rw [hnone] at hnext
          cases hnext
        · omega
      have hw := List.getElem?_eq_getElem hfirst
      cases hworker : s.workers[0] with
      | ready => exact ⟨_, _, .receive hs hnext (hworker ▸ hw)⟩
      | holding i => exact h.can_store (hworker ▸ hw)
      | ended =>
        have hclosed := h.ended (hworker ▸ List.getElem_mem hfirst)
        rw [hs] at hclosed
        cases hclosed
    · exact ⟨_, _, .close hs⟩
  | waiting =>
    by_cases hpending : s.pending = 0
    · exact ⟨_, _, .proceed hs hpending⟩
    · -- Some worker has not ended: it has a task, or can be told that there are no more.
      have hrunning : 0 < s.workers.countP Worker.isRunning :=
        h.pending ▸ Nat.pos_of_ne_zero hpending
      obtain ⟨x, hx, hxrunning⟩ := List.countP_pos_iff.mp hrunning
      obtain ⟨w, hw⟩ := List.mem_iff_getElem?.mp hx
      cases x with
      | ready => exact ⟨_, _, .leave (by rw [hs]; rfl) hw⟩
      | holding i => exact h.can_store hw
      | ended => cases hxrunning

/-- Whatever happened, the dispatcher can still be brought to go on. -/
theorem Inv.completes (h : p.Inv s) (hsize : p.tasks = [] ∨ 0 < p.size) :
    ∃ more s', p.run s more = some s' ∧ s'.phase = .returned := by
  induction hleft : p.remaining s generalizing s with
  | zero => exact ⟨[], s, rfl, h.remaining_eq_zero.mp hleft⟩
  | succ left ih =>
    have hphase : s.phase ≠ .returned := by
      intro hret
      rw [h.remaining_eq_zero.mpr hret] at hleft
      cases hleft
    obtain ⟨a, s', hstep⟩ := h.progress hsize hphase
    have hleft' : p.remaining s' = left := by
      have := hstep.remaining
      omega
    obtain ⟨more, last, hmore, hlast⟩ := ih (h.step hstep) hleft'
    refine ⟨a :: more, last, ?_, hlast⟩
    rw [run, List.foldlM_cons, step_eq_some.mpr hstep]
    exact hmore

end Progress

end Pool

namespace Corpus

open NodePath.Text Pool

/-- The result that stands in the place of one that is not there yet. -/
def Result.blank : Result := ⟨[], [], false, false, false, [], []⟩

/-- The workers for a corpus: one for each processor, but never more than there are entries. -/
def pool (processors : Nat) (entries : List Entry) : Pool Entry Result :=
  ⟨Entry.check, .blank, entries, min processors entries.length⟩

/-- Counts a result with those that passed or with those that failed. -/
def count : Nat × Nat → Result → Nat × Nat
  | (passed, failed), result =>
    if result.passed then (passed + 1, failed) else (passed, failed + 1)

/-- How many results passed and failed, counted in one pass. -/
def tally (results : List Result) : Nat × Nat := results.foldl count (0, 0)

theorem foldl_count (passed failed : Nat) (results : List Result) :
    results.foldl count (passed, failed) =
      (passed + results.countP Result.passed, failed + results.countP (!·.passed)) := by
  induction results generalizing passed failed with
  | nil => rfl
  | cons result rest ih =>
    rw [List.foldl_cons]
    cases hpassed : result.passed with
    | true =>
      simp only [count, hpassed, if_true, ih, List.countP_cons, Bool.not_true, Bool.false_eq_true,
        if_false, Nat.add_zero, Nat.add_comm 1, Nat.add_assoc]
    | false =>
      simp only [count, hpassed, Bool.false_eq_true, if_false, ih, List.countP_cons, Bool.not_false,
        if_true, Nat.add_zero, Nat.add_comm 1, Nat.add_assoc]

theorem Report.passed_add_failed (r : Report) : r.passed + r.failed = r.total := by
  rw [total, List.length_eq_countP_add_countP Result.passed]
  simp [passed, failed]

theorem Report.ok_iff (r : Report) : r.ok = true ↔ ∀ result ∈ r.results, result.passed = true := by
  simp [ok, failed]

/-- Where there are entries, there is a worker. -/
theorem pool_has_workers {processors : Nat} (h : 1 ≤ processors) (entries : List Entry) :
    (pool processors entries).tasks = [] ∨ 0 < (pool processors entries).size := by
  cases entries with
  | nil => exact .inl rfl
  | cons entry rest => exact .inr (Nat.lt_min.mpr ⟨h, Nat.succ_pos _⟩)

/-- Workers that share the entries of a corpus, in whatever order they act, are never stuck before
the dispatcher has waited for all of them, which comes after a fixed number of actions. Then every
entry was handed to one worker, once, and the report is the one of a check entry by entry. -/
theorem shared_check_eq (runId : Bytes) (entries : List Entry) {processors : Nat}
    (hprocessors : 1 ≤ processors) {actions : List Action} {s : State Result}
    (h : (pool processors entries).run (pool processors entries).start actions = some s) :
    let workers := min processors entries.length
    let report : Report := ⟨runId, s.results⟩
    ((∃ a s', (pool processors entries).step s a = some s') ↔ s.phase ≠ .returned) ∧
    (∃ more s', (pool processors entries).run s more = some s' ∧ s'.phase = .returned) ∧
    (s.phase = .returned ↔ actions.length = 2 * workers + 2 * entries.length + 3) ∧
    s.workers.length ≤ workers ∧
    (s.phase = .returned →
      (∀ i < entries.length, ∃ w < workers, actions.filterMap (Action.receiver? i) = [w]) ∧
      (∀ i : Nat, s.results[i]? = entries[i]?.map Entry.check) ∧
      report = check runId entries ∧
      report.total = entries.length ∧
      report.passed + report.failed = report.total ∧
      tally s.results = (report.passed, report.failed) ∧
      (report.ok = true ↔ ∀ result ∈ s.results, result.passed = true)) := by
  intro workers report
  have hreach := reach_of_run h
  have hinv := hreach.inv
  have hsize := pool_has_workers hprocessors entries
  refine ⟨⟨?_, ?_⟩, hinv.completes hsize, ?_, ?_, ?_⟩
  · rintro ⟨a, s', hstep⟩ hret
    have hleft := (step_eq_some.mp hstep).remaining
    rw [hinv.remaining_eq_zero.mpr hret] at hleft
    cases hleft
  · intro hphase
    obtain ⟨a, s', hstep⟩ := hinv.progress hsize hphase
    exact ⟨a, s', step_eq_some.mpr hstep⟩
  · have hlength : actions.length + _ = 2 * workers + 2 * entries.length + 3 :=
      hreach.length_add_remaining
    rw [← hinv.remaining_eq_zero]
    omega
  · have hstarted : s.phase.unstarted + s.workers.length = workers := hinv.started
    omega
  · intro hret
    have hresults : s.results = entries.map Entry.check := hinv.results_eq hret
    have hreport : report = check runId entries := congrArg (Report.mk runId) hresults
    refine ⟨fun i hi => ?_, fun i => ?_, hreport, ?_, report.passed_add_failed, ?_, report.ok_iff⟩
    · exact hreach.exists_receiver (by rw [hret]; exact hi)
    · rw [hresults, List.getElem?_map]
    · rw [hreport]
      exact List.length_map _
    · rw [tally, foldl_count, Nat.zero_add, Nat.zero_add]
      rfl

/-- A path, and a group that is not closed. -/
def twoEntries : List Entry :=
  [⟨utf8 "path", utf8 "a/b", true⟩, ⟨utf8 "open", utf8 "(a", false⟩]

/-- The second worker starts first and is overtaken by the first one. -/
def overtaking : List Action :=
  [.start, .start, .begin, .receive 1 0, .receive 0 1, .store 0 1, .close, .leave 0, .store 1 0,
    .leave 1, .proceed]

theorem shared_check_eq_overtaking :
    ∃ s, (pool 3 twoEntries).run (pool 3 twoEntries).start overtaking = some s ∧
      Report.mk (utf8 "1") s.results = check (utf8 "1") twoEntries ∧
      overtaking.filterMap (Action.receiver? 0) = [1] ∧
      tally s.results = (2, 0) := by
  have hphase : ((pool 3 twoEntries).run (pool 3 twoEntries).start overtaking).map State.phase =
      some .returned := by
    decide +kernel
  obtain ⟨s, hrun, hret⟩ := Option.map_eq_some_iff.mp hphase
  obtain ⟨-, -, -, -, hdone⟩ := shared_check_eq (utf8 "1") twoEntries (by decide) hrun
  obtain ⟨-, -, hreport, -, -, htally, -⟩ := hdone hret
  refine ⟨s, hrun, hreport, rfl, ?_⟩
  rw [htally, hreport]
  decide +kernel

end Corpus

end NodePath
