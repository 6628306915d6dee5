/-!
# Stacks

The last element pushed is the first one popped.
-/

namespace NodePath

/-- A stack, its top first. -/
structure Stack (α : Type) where
  items : List α
deriving Repr

namespace Stack

variable {α : Type}

def empty : Stack α := ⟨[]⟩

/-- Adds elements in order, so that the last one is on top. -/
def push (s : Stack α) (new : List α) : Stack α := ⟨new.reverse ++ s.items⟩

def pop (s : Stack α) : Option (α × Stack α) :=
  match s.items with
  | [] => none
  | top :: rest => some (top, ⟨rest⟩)

def peek (s : Stack α) : Option α := s.items.head?

/-- Changes the top in place, if there is one. -/
def modifyTop (f : α → α) (s : Stack α) : Option (Stack α) :=
  match s.items with
  | [] => none
  | top :: rest => some ⟨f top :: rest⟩

end Stack

end NodePath
