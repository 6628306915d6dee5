import NodePath.Text.Bytes

/-!
# Bytes from base 64

Four characters of an alphabet of 64 give three bytes; at the end, signs of padding stand for missing
characters. Line breaks do not count. Reading stops at the first fault.
-/

namespace NodePath.Text

/-- The value of a character of the alphabet. -/
def sextet? (b : UInt8) : Option Nat :=
  if ascii 'A' ≤ b && b ≤ ascii 'Z' then some (b.toNat - 65)
  else if ascii 'a' ≤ b && b ≤ ascii 'z' then some (b.toNat - 71)
  else if isDigit b then some (b.toNat + 4)
  else if b = ascii '+' then some 62
  else if b = ascii '/' then some 63
  else none

/-- The bytes of four sextets. -/
def tripleOf (a b c d : Nat) : Bytes :=
  [byteOf (a * 4 + b / 16), byteOf (b % 16 * 16 + c / 4), byteOf (c % 4 * 64 + d)]

def padding : UInt8 := ascii '='

/-- Reads a text without line breaks. -/
def readBase64 : Bytes → Bytes
  | a :: b :: c :: d :: rest =>
    match sextet? a, sextet? b, sextet? c, sextet? d with
    | some w, some x, some y, some z => tripleOf w x y z ++ readBase64 rest
    | some w, some x, some y, none => if d = padding then (tripleOf w x y 0).take 2 else []
    | some w, some x, none, _ => if c = padding && d = padding then (tripleOf w x 0 0).take 1 else []
    | _, _, _, _ => []
  | _ => []

/-- The bytes that a text stands for. -/
def fromBase64 (s : Bytes) : Bytes := readBase64 (s.filter fun b => b ≠ ascii '\n' && b ≠ ascii '\r')

end NodePath.Text
