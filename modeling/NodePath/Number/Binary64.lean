/-!
# Binary floating point with 64 bits

A number is kept as its bit pattern, so two numbers are the same exactly when they are the same
pattern. Rounding is done in exact arithmetic on natural numbers: to the nearest pattern, a tie to
the even one. A quotient too large for the largest finite pattern has no rounding.
-/

namespace NodePath.Number

structure Binary64 where
  bits : UInt64
deriving DecidableEq, Repr

namespace Binary64

def zero : Binary64 := ⟨0⟩

/-- The sign bit, the highest of the 64. -/
def signBit : Nat := 0x8000000000000000

/-- Two to the power 52: the implicit leading digit of a significand. -/
def leadingDigit : Nat := 0x10000000000000

/-- The pattern of infinity; the patterns below it are the finite non-negative numbers. -/
def infinityBits : Nat := 0x7FF0000000000000

def infinity (negative : Bool) : Binary64 :=
  ⟨UInt64.ofNat (infinityBits + if negative then signBit else 0)⟩

def nan : Binary64 := ⟨0x7FF8000000000001⟩

/-- The number with a sign and the pattern of its magnitude. -/
def ofMagnitude (negative : Bool) (magnitude : Nat) : Binary64 :=
  ⟨UInt64.ofNat (magnitude + if negative then signBit else 0)⟩

def isNegative (x : Binary64) : Bool := signBit ≤ x.bits.toNat

def magnitude (x : Binary64) : Nat := x.bits.toNat % signBit

def isInfinite (x : Binary64) : Bool := x.magnitude = infinityBits

def isNan (x : Binary64) : Bool := infinityBits < x.magnitude

/-- The significand `m` of a finite magnitude `m * 2 ^ q`. -/
def significand (x : Binary64) : Nat :=
  if x.magnitude / leadingDigit = 0 then x.magnitude
  else x.magnitude % leadingDigit + leadingDigit

/-- The exponent `q` of a finite magnitude `m * 2 ^ q`. -/
def exponent (x : Binary64) : Int :=
  if x.magnitude / leadingDigit = 0 then -1074 else (x.magnitude / leadingDigit : Nat) - 1075

end Binary64

/-- A quotient rounded to a natural number, a tie to the even one. -/
def roundQuotient (num den : Nat) : Nat :=
  let q := num / den
  let r := num % den
  if 2 * r < den then q
  else if den < 2 * r then q + 1
  else if q % 2 = 0 then q else q + 1

/-- The quotient of `num` and `den * 2 ^ e` as a numerator and a denominator. -/
def scaleDown (num den : Nat) (e : Int) : Nat × Nat :=
  if 0 ≤ e then (num, den * Nat.pow 2 e.toNat) else (num * Nat.pow 2 (-e).toNat, den)

/-- The exponent of the binade in which a positive quotient has 53 binary digits, or the least one. -/
def binade (num den : Nat) : Int :=
  let guess := max (-1074) ((Nat.log2 num : Int) - Nat.log2 den - 53)
  let (n, d) := scaleDown num den guess
  if n / d < 2 * Binary64.leadingDigit then guess else guess + 1

/-- The pattern nearest to a quotient, unless it is out of range. -/
def nearestBits (num den : Nat) : Option Nat :=
  if num = 0 then some 0
  else
    let e := binade num den
    let (n, d) := scaleDown num den e
    let bits := (e + 1074).toNat * Binary64.leadingDigit + roundQuotient n d
    if bits < Binary64.infinityBits then some bits else none

namespace Binary64

/-- The number nearest to a signed quotient, unless it is out of range. -/
def ofQuotient (negative : Bool) (num den : Nat) : Option Binary64 :=
  (nearestBits num den).map (ofMagnitude negative)

/-- The number nearest to an integer of 64 bits. -/
def ofInt (i : Int) : Binary64 := (ofQuotient (i < 0) i.natAbs 1).getD (infinity (i < 0))

end Binary64

end NodePath.Number
