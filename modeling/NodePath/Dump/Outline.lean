import NodePath.Dump.Builder
import NodePath.Text.Quoted

/-!
# Outlines

An outline has one line per record: its place among the fields of the record above, its kind and its
plain fields. The records below follow, two blanks further in.
-/

namespace NodePath

open NodePath.Text

/-- A plain field after the kind, if the value is plain. -/
def outlineField : Bytes × Value → Bytes
  | (name, .text s) => if name = utf8 "kind" then [] else utf8 " " ++ name ++ utf8 "=" ++ quoted s
  | (name, .flag b) => utf8 " " ++ name ++ utf8 (if b then "=true" else "=false")
  | _ => []

def outlineKind (r : Record) : Bytes :=
  match Table.get? r (utf8 "kind") with
  | some (.text s) => s
  | some (.flag b) => utf8 (if b then "true" else "false")
  | _ => []

def outlineLine (depth : Nat) (label : Bytes) (r : Record) : Bytes :=
  List.replicate (2 * depth) (ascii ' ') ++ label ++ outlineKind r ++ r.flatMap outlineField ++
    [newline]

mutual

/-- The lines of a record under a label. -/
def outlineValue (depth : Nat) (label : Bytes) : Value → Except DumpFault (List Bytes)
  | .record fields => do
    let below ← outlineFields (depth + 1) fields
    return outlineLine depth label fields :: below
  | _ => .error .notANode

def outlineFields (depth : Nat) : List (Bytes × Value) → Except DumpFault (List Bytes)
  | [] => .ok []
  | (name, value) :: rest => do
    let first ←
      match value with
      | .record fields => outlineValue depth (name ++ utf8 ": ") (.record fields)
      | .list items => outlineItems depth name 0 items
      | _ => .ok []
    let others ← outlineFields depth rest
    return first ++ others

def outlineItems (depth : Nat) (name : Bytes) (index : Nat) :
    List Value → Except DumpFault (List Bytes)
  | [] => .ok []
  | item :: rest => do
    let first ← outlineValue depth (name ++ utf8 "[" ++ decimal index ++ utf8 "]: ") item
    let others ← outlineItems depth name (index + 1) rest
    return first ++ others

end

def Record.outline (r : Record) : Except DumpFault Bytes := do
  return (← outlineValue 0 [] (.record r)).flatten

/-- The outline of a tree. -/
def Node.outline (n : Node) : Except DumpFault Bytes := do (← n.dump).outline

end NodePath
