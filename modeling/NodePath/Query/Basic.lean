import NodePath.Number.Binary64
import NodePath.Text.Bytes

/-!
# Queries

A query is a list of segments, each with selectors; a segment selects among the children of a value or
among those of all values below it. A filter selects the children for which a condition holds, and a
condition may ask further queries, from the child at hand or from the root.
-/

namespace NodePath.Query

open NodePath.Text NodePath.Number

inductive Literal where
  | text (s : Bytes)
  | number (x : Binary64)
  | flag (b : Bool)
  | null
deriving DecidableEq

inductive CompareOp where
  | equal
  | notEqual
  | less
  | lessEqual
  | greater
  | greaterEqual
deriving DecidableEq

mutual

inductive Selector where
  | name (s : Bytes)
  | wildcard
  | index (i : Int)
  | slice (start stop step : Option Int)
  | filter (condition : Condition)

inductive Segment where
  | mk (descendant : Bool) (selectors : List Selector)

inductive Condition where
  | or (a b : Condition)
  | and (a b : Condition)
  | not (a : Condition)
  /-- Whether a query selects anything. -/
  | found (rooted : Bool) (segments : List Segment)
  | compare (op : CompareOp) (a b : Operand)
  /-- Whether all of a text matches a pattern. -/
  | matches (text pattern : Operand)
  /-- Whether a part of a text matches a pattern. -/
  | search (text pattern : Operand)

/-- Something that has at most one value. -/
inductive Operand where
  | literal (value : Literal)
  | query (rooted : Bool) (segments : List Segment)
  | length (of : Operand)
  | count (rooted : Bool) (segments : List Segment)
  | value (rooted : Bool) (segments : List Segment)

end

abbrev Path := List Segment

/-- Whether a query selects at most one value, whatever it is asked of. -/
def isSingular (segments : List Segment) : Bool :=
  segments.all fun
    | .mk false [.name _] => true
    | .mk false [.index _] => true
    | _ => false

instance : Inhabited Condition := ⟨.found true []⟩

instance : Inhabited Operand := ⟨.literal .null⟩

end NodePath.Query
