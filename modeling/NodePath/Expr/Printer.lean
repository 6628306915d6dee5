import NodePath.Expr.Node

/-!
# Canonical texts

The canonical text of an expression has one blank around every binary operator and no other gaps but
those after commas, and parentheses exactly where the tree has an operand that is binary, or a
filtered source that does not delimit itself. A tree that lacks a part has no text.
-/

namespace NodePath

open NodePath.Text

/-- A literal has no escapes, so it is delimited by a quote it does not hold. -/
def literalText (value : Bytes) : Bytes :=
  let quote := if value.contains (ascii '"') then ascii '\'' else ascii '"'
  [quote] ++ value ++ [quote]

def NameTest.text (t : NameTest) : Bytes :=
  match t.kind with
  | .any => utf8 "*"
  | .anyIn => t.space ++ utf8 ":*"
  | _ => t.name.text

def Abbreviation.text : Abbreviation → Bytes
  | .parent => utf8 ".."
  | _ => utf8 "."

def Test.text? : Test → Option Bytes
  | .missing => none
  | .name t => some t.text
  | .nodeType type none => some (type ++ utf8 "()")
  | .nodeType type (some value) => some (type ++ utf8 "(" ++ literalText value ++ utf8 ")")
  | .abbreviated step => some step.text

def Axis.text (a : Axis) : Bytes := if a.abbreviated then utf8 "@" else a.name ++ utf8 "::"

def parenthesized (s : Bytes) : Bytes := utf8 "(" ++ s ++ utf8 ")"

def parenthesizedIf (condition : Bool) (s : Bytes) : Bytes :=
  if condition then parenthesized s else s

namespace Expr

def isBinary : Expr → Bool
  | .binary .. => true
  | _ => false

def isFilter : Expr → Bool
  | .filter .. => true
  | _ => false

/-- Whether predicates or steps after the text of an expression belong to all of it. -/
def delimitsItself : Expr → Bool
  | .literal _ | .number _ | .boolean _ | .reference _ | .call .. => true
  | _ => false

end Expr

mutual

/-- The canonical text of an expression, unless a part of it is missing. -/
def Expr.text? : Expr → Option Bytes
  | .missing => none
  | .literal value => some (literalText value)
  | .number value => some value.text
  | .boolean value => some (utf8 (if value then "true" else "false"))
  | .reference name => some (utf8 "$" ++ name.text)
  | .path steps => pathText? steps
  | .root => some (utf8 "/")
  | .absolute steps => (pathText? steps).map (utf8 "/" ++ ·)
  | .everywhere steps => (pathText? steps).map (utf8 "//" ++ ·)
  | .call function args => do
    let args ← argumentTexts? args
    return function.text ++ parenthesized (joinWith (utf8 ", ") args)
  | .negate operand => do
    let inner ← operand.text?
    return utf8 "-" ++ parenthesizedIf operand.isBinary inner
  | .binary op comparison lhs rhs => do
    let left ← lhs.text?
    let right ← rhs.text?
    return parenthesizedIf lhs.isBinary left ++ utf8 " " ++ op.written comparison ++ utf8 " " ++
      parenthesizedIf rhs.isBinary right
  | .filter source predicates => do
    let inner ← source.text?
    let filters ← predicatesText? predicates
    return parenthesizedIf (!source.delimitsItself) inner ++ filters
  | .continued source separator steps => do
    let inner ← source.text?
    let further ← pathText? steps
    return parenthesizedIf (!(source.delimitsItself || source.isFilter)) inner ++ separator.symbol ++
      further
  | .rootName test => some (utf8 "/" ++ test.text)

def argumentTexts? : List Expr → Option (List Bytes)
  | [] => some []
  | e :: rest => do
    let first ← e.text?
    let others ← argumentTexts? rest
    return first :: others

/-- Each predicate in brackets. -/
def predicatesText? : List Expr → Option Bytes
  | [] => some []
  | e :: rest => do
    let first ← e.text?
    let others ← predicatesText? rest
    return utf8 "[" ++ first ++ utf8 "]" ++ others

/-- Each step after its separator. -/
def pathText? : List (Separator × Step) → Option Bytes
  | [] => some []
  | (separator, step) :: rest => do
    let first ← step.text?
    let others ← pathText? rest
    return separator.symbol ++ first ++ others

def Step.text? : Step → Option Bytes
  | .mk axis test predicates => do
    let test ← test.text?
    let filters ← predicatesText? predicates
    return (axis.map Axis.text).getD [] ++ test ++ filters

end

/-- The canonical text of a node, unless a part of it is missing. -/
def Node.text? : Node → Option Bytes
  | .expr e => e.text?
  | .test t => t.text?
  | .step s => s.text?

end NodePath
