import NodePath.Dump.Value
import NodePath.Expr.Printer
import NodePath.Expr.Traversal
import NodePath.Stack

/-!
# Trees as records

A record is made for every node on the way out of it, from the records of its children. A node with
children opens a frame on the way in; a finished record joins the frame on top, or is the result when
no frame is open.
-/

namespace NodePath

open NodePath.Text

/-- Why a tree has no record. -/
inductive DumpFault where
  /-- A part of the tree is missing. -/
  | missingNode
  /-- A frame holds fewer records than its node needs. -/
  | missingChild
  /-- A value that is no record stands where a node is shown. -/
  | notANode
deriving DecidableEq, Repr

structure Builder where
  frames : Stack (List Record)
  result : Option Record

namespace Builder

def start : Builder := ⟨.empty, none⟩

def openFrame (b : Builder) : Builder := { b with frames := b.frames.push [[]] }

/-- The records of the frame on top, which is closed. -/
def closeFrame (b : Builder) : List Record × Builder :=
  match b.frames.pop with
  | none => ([], b)
  | some (records, frames) => (records, { b with frames })

def emit (b : Builder) (r : Record) : Builder :=
  match b.frames.modifyTop (· ++ [r]) with
  | none => { b with result := some r }
  | some frames => { b with frames }

end Builder

def textField (name : String) (s : Bytes) : String × Value := (name, .text s)

def kindField (kind : String) : String × Value := ("kind", .text (utf8 kind))

def recordField (name : String) (r : Record) : String × Value := (name, .record r)

def NameTest.record (t : NameTest) : Record :=
  Record.ofFields <| kindField "name_test" ::
    match t.kind with
    | .any => [textField "match" (utf8 "any")]
    | .anyIn => [textField "match" (utf8 "prefixed_any"), textField "prefix" t.space]
    | .qualified =>
      [textField "match" (utf8 "qualified"), textField "name" t.name.name] ++
        if t.name.space.isEmpty then [] else [textField "prefix" t.name.space]
    | .unknown _ => []

def axisFields : Option Axis → List (String × Value)
  | none => []
  | some a =>
    textField "axis" a.name :: if a.abbreviated then [("abbreviated_axis", .flag true)] else []

/-- The record of a step with the separator before it. -/
def joinedRecord (separator : Separator) (step : Record) : Record :=
  if separator = .absent then step else Table.insert (utf8 "separator") (.text separator.symbol) step

/-- The list field of some records, left out when there are none. -/
def listField (name : String) : List Record → List (String × Value)
  | [] => []
  | r :: rs => [(name, .records (r :: rs))]

/-- The record of an expression from the records of its children. -/
def Expr.record? (e : Expr) (children : List Record) : Except DumpFault Record :=
  match e, children with
  | .missing, _ => .error .missingNode
  | .literal value, _ => .ok (Record.ofFields [kindField "literal", textField "value" value])
  | .number n, _ =>
    .ok (Record.ofFields [kindField "number", textField "value" n.text, ("float", .flag n.isFloat)])
  | .boolean value, _ => .ok (Record.ofFields [kindField "boolean", ("value", .flag value)])
  | .reference name, _ => .ok (Record.ofFields [kindField "variable", textField "name" name.text])
  | .path steps, children =>
    if children.length ≤ steps.length then
      let joined := List.zipWith (fun entry r => joinedRecord entry.1 r) steps children
      .ok (Record.ofFields [kindField "relative_path", ("steps", .records joined)])
    else .error .missingChild
  | .root, children => .ok (absoluteRecord children)
  | .absolute _, children => .ok (absoluteRecord children)
  | .everywhere _, below :: _ =>
    .ok (Record.ofFields [kindField "abbreviated_absolute_path", recordField "path" below])
  | .call function _, children =>
    .ok (Record.ofFields ([kindField "function_call", textField "name" function.text] ++
      (if function.builtin = .absent then [] else [("builtin", .flag true)]) ++
      listField "args" children))
  | .negate _, operand :: _ =>
    .ok (Record.ofFields [kindField "unary_minus", recordField "operand" operand])
  | .binary op comparison _ _, lhs :: rhs :: _ =>
    .ok (Record.ofFields [kindField "binary", textField "op" (op.written comparison),
      recordField "lhs" lhs, recordField "rhs" rhs])
  | .filter _ _, primary :: predicates =>
    .ok (Record.ofFields [kindField "filter", recordField "primary" primary,
      ("predicates", .records predicates)])
  | .continued _ separator _, source :: below :: _ =>
    .ok (Record.ofFields [kindField "filter_with_path", recordField "filter" source,
      textField "separator" separator.symbol, recordField "path" below])
  | .rootName _, test :: _ =>
    .ok (Record.ofFields [kindField "root_name_test", recordField "test" test])
  | _, _ => .error .missingChild
where
  absoluteRecord (children : List Record) : Record :=
    Record.ofFields (kindField "absolute_path" :: (children.take 1).map (recordField "path"))

def Test.record? : Test → Except DumpFault Record
  | .missing => .error .missingNode
  | .name t => .ok t.record
  | .nodeType type argument =>
    .ok (Record.ofFields ([kindField "node_type_test", textField "type" type] ++
      (argument.map (textField "argument")).toList))
  | .abbreviated step =>
    .ok (Record.ofFields [kindField "abbreviated_step", textField "step" step.text])

def Step.record? : Step → List Record → Except DumpFault Record
  | .mk axis _ _, test :: predicates =>
    .ok (Record.ofFields ([kindField "step", recordField "test" test] ++ axisFields axis ++
      listField "predicates" predicates))
  | _, [] => .error .missingChild

namespace Node

/-- Whether the records of its children are collected for a node. -/
def hasFrame : Node → Bool
  | .expr (.literal _) | .expr (.number _) | .expr (.boolean _) | .expr (.reference _) => false
  | .expr .missing => false
  | .expr _ => true
  | .test (.nodeType ..) => true
  | .test _ => false
  | .step _ => true

def record? (n : Node) (children : List Record) : Except DumpFault Record :=
  match n with
  | .expr e => e.record? children
  | .test t => t.record?
  | .step s => s.record? children

end Node

namespace Builder

def enter (b : Builder) (n : Node) : Builder := if n.hasFrame then b.openFrame else b

def leave (b : Builder) (n : Node) : Except DumpFault Builder :=
  if n.hasFrame then do
    let (children, b) := b.closeFrame
    return b.emit (← n.record? children)
  else do return b.emit (← n.record? [])

def handle (b : Builder) : Event → Except DumpFault Builder
  | .enter n => .ok (b.enter n)
  | .leave n => b.leave n

def run (b : Builder) (events : List Event) : Except DumpFault Builder := events.foldlM handle b

end Builder

/-- The record of a tree. -/
def Node.dump (n : Node) : Except DumpFault Record :=
  match n.events? with
  | none => .error .missingNode
  | some events => do
    let b ← Builder.start.run events
    match b.result with
    | none => .error .missingNode
    | some r => .ok r

def Expr.dump (e : Expr) : Except DumpFault Record := Node.dump (.expr e)

end NodePath
