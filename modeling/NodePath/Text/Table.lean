import NodePath.Text.Bytes

/-!
# Tables

A table gives values to names. The names ascend, and no name occurs twice.
-/

namespace NodePath.Text

abbrev Table (α : Type) := List (Bytes × α)

namespace Table

variable {α : Type}

/-- Gives a value to a name, in place of an earlier one. -/
def insert (name : Bytes) (value : α) : Table α → Table α
  | [] => [(name, value)]
  | (n, v) :: rest =>
    if n = name then (name, value) :: rest
    else if precedes name n then (name, value) :: (n, v) :: rest
    else (n, v) :: insert name value rest

def get? (t : Table α) (name : Bytes) : Option α := t.lookup name

def has (t : Table α) (name : Bytes) : Bool := (t.get? name).isSome

/-- The entries of two tables; the second one prevails. -/
def merge (t u : Table α) : Table α := u.foldl (fun acc (name, value) => insert name value acc) t

/-- The table of a list of entries, of which later ones prevail. -/
def ofList (entries : List (Bytes × α)) : Table α := merge [] entries

end Table

end NodePath.Text
