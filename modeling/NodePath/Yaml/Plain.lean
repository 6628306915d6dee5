import NodePath.Number.Numeral
import NodePath.Yaml.Timestamp

/-!
# Which texts need quotes

A text is quoted when without quotes it would be read as something else: nothing, a truth value, a
number, a time, or a sign of the document structure.
-/

namespace NodePath.Yaml

open NodePath.Text NodePath.Number

def reservedWords : List Bytes :=
  ["null", "Null", "NULL", "~", "true", "True", "TRUE", "false", "False", "FALSE", "y", "Y", "yes",
   "Yes", "YES", "n", "N", "no", "No", "NO", "on", "On", "ON", "off", "Off", "OFF", "-"].map utf8

def digitIn (base : Nat) (b : UInt8) : Option Nat :=
  (Base.digit? .sixteen b).filter (· < base)

/-- Whether digits denote a number. A numeral that has already left the range counts as one, whatever
follows; `limit` is the first number out of range. -/
def isNumeralFrom (base limit : Nat) : Nat → Bytes → Bool
  | _, [] => true
  | n, b :: rest =>
    match digitIn base b with
    | none => false
    | some d => if limit ≤ n * base + d then true else isNumeralFrom base limit (n * base + d) rest

/-- Digits of a base that denote a number of 64 bits, or a larger one. -/
def isNumeral (base : Nat) (s : Bytes) : Bool := !s.isEmpty && isNumeralFrom base 0x10000000000000000 0 s

/-- What a text would have to be to be a number: digits of a base, or a decimal with a point. -/
inductive NumberShape where
  | integer (negative : Bool) (base : Nat) (digits : Bytes)
  | decimal (numeral : Bytes)
deriving DecidableEq, Repr

def dropSign (c : Char) (s : Bytes) : Bytes := (takeByte c s).getD s

/-- The shape of a number. Underscores do not count; a zero before further digits means base eight. -/
def numberShape (s : Bytes) : Option NumberShape :=
  let points := s.count (ascii '.')
  let negative := s.head? = some (ascii '-')
  let digits := (dropSign '-' (dropSign '+' s)).filter (· ≠ ascii '_')
  if s.isEmpty || s.head? = some (ascii '_') || 1 < points then none
  else
    match digits with
    | z :: m :: rest =>
      if z = ascii '0' && m = ascii 'x' then some (.integer negative 16 rest)
      else if z = ascii '0' && m = ascii 'o' then some (.integer negative 8 rest)
      else if z = ascii '0' && m = ascii 'b' then some (.integer negative 2 rest)
      else if z = ascii '0' && points = 0 then some (.integer negative 8 digits)
      else some (decimalShape points negative digits)
    | _ => some (decimalShape points negative digits)
where
  decimalShape (points : Nat) (negative : Bool) (digits : Bytes) : NumberShape :=
    if points = 1 then .decimal ((if negative then [ascii '-'] else []) ++ digits)
    else .integer negative 10 digits

/-- Whether a text would be read as a number, were it in range. -/
def isNumber (s : Bytes) : Bool :=
  match numberShape s with
  | none => false
  | some (.integer _ base digits) => isNumeral base digits
  | some (.decimal numeral) => (readFloat numeral).isSome

/-- The signs that a plain text cannot begin with. -/
def openingSigns : Bytes := utf8 "*&[\x7b\x7d],!|>%'\"@ \x60"

/-- Whether a comment sign, a backslash, or a colon or hyphen before a blank stands in a text. -/
def hasStructureSign : Bytes → Bool
  | [] => false
  | b :: rest =>
    b = ascii '#' || b = ascii '\\' ||
      ((b = ascii ':' || b = ascii '-') && rest.head? = some (ascii ' ')) || hasStructureSign rest

def needsQuotes (s : Bytes) : Bool :=
  match s with
  | [] => true
  | first :: _ =>
    reservedWords.contains s || isNumber s || openingSigns.contains first ||
      s.getLast? = some (ascii ':') || s.getLast? = some (ascii ' ') || looksLikeTime s ||
      hasStructureSign s

end NodePath.Yaml
