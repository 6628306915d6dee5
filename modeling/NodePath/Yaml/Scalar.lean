import NodePath.Number.Shortest
import NodePath.Yaml.Plain

/-!
# What a plain text stands for

A text without quotes stands for nothing, a truth value, a number of 64 bits, or itself.
-/

namespace NodePath.Yaml

open NodePath.Text NodePath.Number

inductive Scalar where
  | null
  | flag (b : Bool)
  | integer (i : Int)
  | float (x : Binary64)
  | text (s : Bytes)
deriving DecidableEq, Repr

/-- The number that digits of a base denote. -/
def natIn (base : Nat) (digits : Bytes) : Option Nat :=
  if digits.isEmpty then none
  else digits.foldlM (fun n b => (digitIn base b).map (n * base + ·)) 0

/-- A negative number has 64 bits with a sign, any other 64 bits without. -/
def signedNumber (negative : Bool) (n : Nat) : Option Int :=
  if negative then if n ≤ 0x8000000000000000 then some (-(n : Int)) else none
  else if n < 0x10000000000000000 then some n else none

/-- The number of a shape, unless its digits are wrong or it is out of range. -/
def NumberShape.scalar? : NumberShape → Option Scalar
  | .integer negative base digits =>
    ((natIn base digits).bind (signedNumber negative)).map .integer
  | .decimal numeral => (float? numeral).map .float

namespace Scalar

def words : List (String × Scalar) :=
  [("", .null), ("~", .null), ("null", .null), ("Null", .null), ("NULL", .null),
   ("true", .flag true), ("True", .flag true), ("TRUE", .flag true),
   ("false", .flag false), ("False", .flag false), ("FALSE", .flag false),
   (".inf", .float (.infinity false)), (".Inf", .float (.infinity false)),
   (".INF", .float (.infinity false)), ("-.inf", .float (.infinity true)),
   ("-.Inf", .float (.infinity true)), ("-.INF", .float (.infinity true)),
   (".nan", .float .nan), (".NaN", .float .nan), (".NAN", .float .nan)]

def ofPlain (s : Bytes) : Scalar :=
  match words.find? (fun w => utf8 w.1 = s) with
  | some (_, scalar) => scalar
  | none => ((numberShape s).bind NumberShape.scalar?).getD (.text s)

/-- A finite decimal `d * 10 ^ k` with its point after the first digit and an exponent. -/
def scientific (d : Nat) (k : Int) : Bytes :=
  let ds := decimal d
  let exponent := k + ds.length - 1
  let magnitude := decimal exponent.natAbs
  ds.take 1 ++ (if 1 < ds.length then ascii '.' :: ds.drop 1 else []) ++ [ascii 'e'] ++
    [if exponent < 0 then ascii '-' else ascii '+'] ++
    (if magnitude.length < 2 then ascii '0' :: magnitude else magnitude)

/-- The text of a floating point number: positional for exponents from -4 to 5. -/
def floatText (x : Binary64) : Bytes :=
  if x.isNan || x.isInfinite || x.magnitude = 0 then x.text
  else
    let (d, k) := shortest x
    let exponent := k + (decimal d).length - 1
    if -4 ≤ exponent && exponent < 6 then x.text
    else (if x.isNegative then [ascii '-'] else []) ++ scientific d k

/-- The text that a scalar gives where a text is wanted. -/
def toText : Scalar → Bytes
  | .null => []
  | .flag b => utf8 (if b then "true" else "false")
  | .integer i => decimalInt i
  | .float x => floatText x
  | .text s => s

end Scalar

end NodePath.Yaml
