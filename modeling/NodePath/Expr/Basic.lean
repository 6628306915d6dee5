import NodePath.Number.Shortest
import NodePath.Token.Kind

/-!
# Expressions

The tree of a path expression. Grouping parentheses leave no trace in it. Trees may also be made by
hand, so an expression or a node test may be missing, an enumeration may hold a number without a
meaning, and any list may be empty; what the reader of texts makes is narrower.
-/

namespace NodePath

open NodePath.Text NodePath.Number

/-- A name with an optional name space; an empty name space is none. -/
structure QName where
  space : Bytes
  name : Bytes
deriving DecidableEq, Repr

def QName.text (q : QName) : Bytes :=
  if q.space.isEmpty then q.name else q.space ++ utf8 ":" ++ q.name

/-- A number as it was written: an integer of 64 bits or a floating point number. -/
structure NumberLit where
  isFloat : Bool
  int : Int
  float : Binary64
deriving DecidableEq, Repr

namespace NumberLit

def ofInt (i : Int) : NumberLit := ⟨false, i, .zero⟩

def ofFloat (x : Binary64) : NumberLit := ⟨true, 0, x⟩

/-- The number in floating point, however it was written. -/
def value (n : NumberLit) : Binary64 := if n.isFloat then n.float else .ofInt n.int

/-- The text of a number. A floating point number always shows a point. -/
def text (n : NumberLit) : Bytes :=
  if n.isFloat then
    let digits := n.float.text
    if digits.contains (ascii '.') then digits else digits ++ utf8 ".0"
  else decimalInt n.int

end NumberLit

inductive NameTestKind where
  /-- Any name. -/
  | any
  /-- Any name of one name space. -/
  | anyIn
  /-- One name. -/
  | qualified
  | unknown (code : Int)
deriving DecidableEq, Repr

namespace NameTestKind

def ofCode : Int → NameTestKind
  | 0 => .any
  | 1 => .anyIn
  | 2 => .qualified
  | code => .unknown code

def toCode : NameTestKind → Int
  | .any => 0
  | .anyIn => 1
  | .qualified => 2
  | .unknown code => code

end NameTestKind

/-- A test by name; `space` serves `anyIn` and `name` serves `qualified`. -/
structure NameTest where
  kind : NameTestKind
  space : Bytes
  name : QName
deriving DecidableEq, Repr

namespace NameTest

def any : NameTest := ⟨.any, [], ⟨[], []⟩⟩

def anyIn (space : Bytes) : NameTest := ⟨.anyIn, space, ⟨[], []⟩⟩

def qualified (name : QName) : NameTest := ⟨.qualified, [], name⟩

end NameTest

inductive Abbreviation where
  | self
  | parent
  | unknown (code : Int)
deriving DecidableEq, Repr

namespace Abbreviation

def ofCode : Int → Abbreviation
  | 0 => .self
  | 1 => .parent
  | code => .unknown code

def toCode : Abbreviation → Int
  | .self => 0
  | .parent => 1
  | .unknown code => code

end Abbreviation

/-- What a step asks of a node. -/
inductive Test where
  | missing
  | name (test : NameTest)
  | nodeType (type : Bytes) (argument : Option Bytes)
  | abbreviated (step : Abbreviation)
deriving DecidableEq, Repr

/-- The axis of a step; `abbreviated` when it was written as a sign. -/
structure Axis where
  name : Bytes
  abbreviated : Bool
deriving DecidableEq, Repr

/-- How a step is joined to what stands before it. -/
inductive Separator where
  | absent
  | child
  | descendant
  | unknown (code : Int)
deriving DecidableEq, Repr

namespace Separator

def ofCode : Int → Separator
  | 0 => .absent
  | 1 => .child
  | 2 => .descendant
  | code => .unknown code

def toCode : Separator → Int
  | .absent => 0
  | .child => 1
  | .descendant => 2
  | .unknown code => code

def symbol : Separator → Bytes
  | .child => utf8 "/"
  | .descendant => utf8 "//"
  | _ => []

end Separator

/-- The functions whose names are reserved words. -/
inductive Builtin where
  | absent
  | trueCall
  | falseCall
  | unknown (code : Int)
deriving DecidableEq, Repr

namespace Builtin

def ofCode : Int → Builtin
  | 0 => .absent
  | 1 => .trueCall
  | 2 => .falseCall
  | code => .unknown code

def toCode : Builtin → Int
  | .absent => 0
  | .trueCall => 1
  | .falseCall => 2
  | .unknown code => code

end Builtin

structure FunctionName where
  builtin : Builtin
  ident : Bytes
deriving DecidableEq, Repr

def FunctionName.text (f : FunctionName) : Bytes :=
  match f.builtin with
  | .trueCall => utf8 "true"
  | .falseCall => utf8 "false"
  | _ => f.ident

inductive Operator where
  | or
  | and
  | equals
  | compare
  | add
  | subtract
  | union
  | intersect
  | stream
  | unknown (code : Int)
deriving DecidableEq, Repr

namespace Operator

def all : List Operator :=
  [.or, .and, .equals, .compare, .add, .subtract, .union, .intersect, .stream]

def ofCode (code : Int) : Operator :=
  if 0 ≤ code then all[code.toNat]?.getD (.unknown code) else .unknown code

def toCode : Operator → Int
  | .or => 0
  | .and => 1
  | .equals => 2
  | .compare => 3
  | .add => 4
  | .subtract => 5
  | .union => 6
  | .intersect => 7
  | .stream => 8
  | .unknown code => code

/-- The sign of an operator; a comparison has a sign of its own. -/
def symbol : Operator → Bytes
  | .or => utf8 "or"
  | .and => utf8 "and"
  | .equals => utf8 "="
  | .compare => utf8 "<rel>"
  | .add => utf8 "+"
  | .subtract => utf8 "-"
  | .union => utf8 "|"
  | .intersect => utf8 "intersect"
  | .stream => utf8 "stream"
  | .unknown _ => utf8 "<invalid>"

/-- The operator as it is written between its operands. -/
def written (op : Operator) (comparison : Comparison) : Bytes :=
  if op = .compare then comparison.symbol else op.symbol

end Operator

mutual

inductive Expr where
  | missing
  | literal (value : Bytes)
  | number (value : NumberLit)
  | boolean (value : Bool)
  | reference (name : QName)
  /-- Steps from the context node. -/
  | path (steps : List (Separator × Step))
  /-- The root alone. -/
  | root
  /-- Steps from the root. -/
  | absolute (steps : List (Separator × Step))
  /-- Steps from the root and all nodes below it. -/
  | everywhere (steps : List (Separator × Step))
  | call (function : FunctionName) (args : List Expr)
  | negate (operand : Expr)
  | binary (op : Operator) (comparison : Comparison) (lhs rhs : Expr)
  /-- An expression narrowed by predicates. -/
  | filter (source : Expr) (predicates : List Expr)
  /-- Steps from the nodes of an expression. -/
  | continued (source : Expr) (separator : Separator) (steps : List (Separator × Step))
  /-- A name test right below the root; only made by hand. -/
  | rootName (test : NameTest)

inductive Step where
  | mk (axis : Option Axis) (test : Test) (predicates : List Expr)

end

abbrev Path := List (Separator × Step)

/-- A step that is a single sign. -/
def Step.sign (step : Abbreviation) : Step := .mk none (.abbreviated step) []

instance : Inhabited Expr := ⟨.missing⟩

instance : Inhabited Step := ⟨.sign .self⟩

end NodePath
