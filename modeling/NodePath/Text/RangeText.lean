import NodePath.Text.CharSet
import NodePath.Text.Reader

/-!
# Ranges as text

Large sets of characters are written as hexadecimal codes and ranges of codes with blanks between them,
as in `41-5A AA`.
-/

namespace NodePath.Text

/-- One code, or a range with a hyphen. -/
def rangeOfText? (cs : List Char) : Option (Nat × Nat) :=
  let low := cs.takeWhile (· ≠ '-')
  match cs.drop low.length with
  | [] => (hexNumber? low).map fun n => (n, n)
  | _ :: high => do return (← hexNumber? low, ← hexNumber? high)

/-- The ranges that some lines of text list. -/
def CharSet.ofLines (lines : List String) : CharSet :=
  lines.flatMap fun line => (line.splitOn " ").filterMap fun word => rangeOfText? word.toList

end NodePath.Text
