import NodePath.Number.Binary64
import NodePath.Text.Bytes

/-!
# Reading numerals

An integer numeral is an optional sign and decimal digits whose value fits in 64 bits. A floating
point numeral is a sign, digits with an optional point and an optional exponent, in base ten or,
after `0x`, in base sixteen with an obligatory binary exponent; single underscores may stand between
digits. Infinity and not-a-number have names. A numeral is read exactly and rounded once.
-/

namespace NodePath.Number

open NodePath.Text

/-- An optional sign: whether it is a minus, whether there is one, and what follows. -/
def takeSign : Bytes → Bool × Bool × Bytes
  | b :: rest =>
    if b = ascii '-' then (true, true, rest)
    else if b = ascii '+' then (false, true, rest)
    else (false, false, b :: rest)
  | [] => (false, false, [])

/-- Whether an integer has 64 bits with a sign. -/
def fitsInt64 (i : Int) : Bool := -0x8000000000000000 ≤ i && i < 0x8000000000000000

/-- The value of an integer numeral, unless it is malformed or out of range. -/
def integer? (s : Bytes) : Option Int :=
  let (negative, _, digits) := takeSign s
  if digits.isEmpty || !digits.all isDigit then none
  else
    let value : Int := natOfDigits digits
    let signed := if negative then -value else value
    if fitsInt64 signed then some signed else none

def lowerCase (b : UInt8) : UInt8 := if ascii 'A' ≤ b && b ≤ ascii 'Z' then b + 32 else b

inductive Base where
  | ten
  | sixteen
deriving DecidableEq

namespace Base

def size : Base → Nat
  | .ten => 10
  | .sixteen => 16

def digit? (base : Base) (b : UInt8) : Option Nat :=
  let c := lowerCase b
  if isDigit b then some (digitValue b)
  else if base = .sixteen && ascii 'a' ≤ c && c ≤ ascii 'f' then some (c.toNat - 87)
  else none

/-- The letter before an exponent. -/
def mark : Base → UInt8
  | .ten => ascii 'e'
  | .sixteen => ascii 'p'

end Base

/-- The digits of a numeral read so far, the point left out. -/
structure Significand where
  value : Nat
  digits : Nat
  point : Bool
  fraction : Nat

/-- Reads digits, underscores and at most one point. -/
def scanSignificand (base : Base) : Significand → Bytes → Significand × Bytes
  | acc, [] => (acc, [])
  | acc, b :: rest =>
    if b = ascii '_' then scanSignificand base acc rest
    else if b = ascii '.' then
      if acc.point then (acc, b :: rest) else scanSignificand base { acc with point := true } rest
    else
      match base.digit? b with
      | some d =>
        scanSignificand base
          { acc with
            value := acc.value * base.size + d
            digits := acc.digits + 1
            fraction := acc.fraction + if acc.point then 1 else 0 }
          rest
      | none => (acc, b :: rest)

/-- Reads the digits of an exponent; past ten thousand further digits no longer count. -/
def scanExponent : Nat → Bytes → Nat × Bytes
  | e, [] => (e, [])
  | e, b :: rest =>
    if b = ascii '_' then scanExponent e rest
    else if isDigit b then scanExponent (if e < 10000 then e * 10 + digitValue b else e) rest
    else (e, b :: rest)

/-- An exponent with its mark: its value and what follows, or `none` when it is malformed. -/
def takeExponent (base : Base) (s : Bytes) : Option (Int × Bytes) :=
  match s with
  | [] => if base = .ten then some (0, []) else none
  | b :: rest =>
    if lowerCase b = base.mark then
      let (negative, _, digits) := takeSign rest
      match digits with
      | d :: _ =>
        if isDigit d then
          let (e, rest) := scanExponent 0 digits
          some (if negative then -(e : Int) else e, rest)
        else none
      | [] => none
    else if base = .ten then some (0, b :: rest) else none

/-- What the last character before an underscore was. -/
inductive Before where
  | start
  | digit
  | underscore
  | mark
deriving DecidableEq

/-- Each underscore follows a digit and is followed by one. -/
def underscoresAgree (hexadecimal : Bool) : Before → Bytes → Bool
  | before, [] => before ≠ .underscore
  | before, b :: rest =>
    if (Base.digit? (if hexadecimal then .sixteen else .ten) b).isSome then
      underscoresAgree hexadecimal .digit rest
    else if b = ascii '_' then
      before = .digit && underscoresAgree hexadecimal .underscore rest
    else before ≠ .underscore && underscoresAgree hexadecimal .mark rest

/-- The underscores of a numeral separate digits; a base mark counts as a digit. -/
def underscoresSeparate (s : Bytes) : Bool :=
  let (_, _, body) := takeSign s
  match body with
  | z :: m :: rest =>
    let mark := lowerCase m
    if z = ascii '0' && (mark = ascii 'b' || mark = ascii 'o' || mark = ascii 'x') then
      underscoresAgree (mark = ascii 'x') .digit rest
    else underscoresAgree false .start body
  | _ => underscoresAgree false .start body

/-- The named numbers. A sign may stand before infinity only. -/
def named? (s : Bytes) : Option Binary64 :=
  let (negative, signed, body) := takeSign s
  let word := body.map lowerCase
  if word = utf8 "inf" || word = utf8 "infinity" then some (.infinity negative)
  else if word = utf8 "nan" && !signed then some .nan
  else none

/-- The base of a numeral and its text after the base mark. -/
def takeBase : Bytes → Base × Bytes
  | z :: x :: c :: rest =>
    if z = ascii '0' && lowerCase x = ascii 'x' then (.sixteen, c :: rest) else (.ten, z :: x :: c :: rest)
  | s => (.ten, s)

/-- The number `value * b ^ e` as a quotient. -/
def powerQuotient (value b : Nat) (e : Int) : Nat × Nat :=
  if 0 ≤ e then (value * Nat.pow b e.toNat, 1) else (value, Nat.pow b (-e).toNat)

/-- A floating point numeral before rounding: a named number, or a sign and a quotient. -/
inductive FloatNumeral where
  | named (x : Binary64)
  | quotient (negative : Bool) (num den : Nat)

/-- Reads a floating point numeral, unless it is malformed. -/
def readFloat (s : Bytes) : Option FloatNumeral :=
  match named? s with
  | some x => some (.named x)
  | none => do
    let (negative, _, body) := takeSign s
    let (base, body) := takeBase body
    let (sig, rest) := scanSignificand base ⟨0, 0, false, 0⟩ body
    if sig.digits = 0 then failure
    let (e, rest) ← takeExponent base rest
    if !rest.isEmpty then failure
    if s.contains (ascii '_') && !underscoresSeparate s then failure
    let (num, den) :=
      match base with
      | .ten => powerQuotient sig.value 10 (e - sig.fraction)
      | .sixteen => powerQuotient sig.value 2 (e - 4 * sig.fraction)
    return .quotient negative num den

/-- The value of a floating point numeral, unless it is malformed or out of range. -/
def float? (s : Bytes) : Option Binary64 :=
  match readFloat s with
  | none => none
  | some (.named x) => some x
  | some (.quotient negative num den) => Binary64.ofQuotient negative num den

end NodePath.Number
