import NodePath.Number.Binary64
import NodePath.Text.Bytes

/-!
# The fewest digits that read back

A finite number other than zero owns an interval of reals that round to it; its two ends belong to
it when the significand is even. Among the powers of ten with a multiple in that interval the
largest one gives the fewest digits, and of two multiples of it the nearer one is taken, the even one
at a tie. The digits are written positionally, without an exponent.
-/

namespace NodePath.Number

open NodePath.Text

/-- The interval of a number `m * 2 ^ q`, measured in quarters of `2 ^ q`. -/
structure Interval where
  low : Nat
  high : Nat
  closed : Bool

/-- Below a power of two the neighbours are half as far apart, except below the least binade. -/
def Binary64.interval (x : Binary64) : Interval :=
  let m := x.significand
  { low := if m = leadingDigit ∧ -1074 < x.exponent then 4 * m - 1 else 4 * m - 2
    high := 4 * m + 2
    closed := m % 2 = 0 }

/-- The multiples of `10 ^ k` and the quarters of `2 ^ q` brought to one scale: a multiple `d` and a
number of quarters `x` compare as `d * ten` and `x * two`. -/
def gridScale (k q : Int) : Nat × Nat :=
  (Nat.pow 10 k.toNat * Nat.pow 2 (2 - q).toNat, Nat.pow 2 (q - 2).toNat * Nat.pow 10 (-k).toNat)

def Interval.holds (i : Interval) (ten two d : Nat) : Bool :=
  if i.closed then i.low * two ≤ d * ten && d * ten ≤ i.high * two
  else i.low * two < d * ten && d * ten < i.high * two

/-- The multiple of `10 ^ k` in the interval of a number that lies nearest to it, if there is one. -/
def onGrid (x : Binary64) (k : Int) : Option Nat :=
  let (ten, two) := gridScale k x.exponent
  let value := 4 * x.significand * two
  let below := value / ten
  let above := below + 1
  match x.interval.holds ten two below, x.interval.holds ten two above with
  | true, true =>
    if value - below * ten < above * ten - value then some below
    else if above * ten - value < value - below * ten then some above
    else if below % 2 = 0 then some below else some above
  | true, false => some below
  | false, true => some above
  | false, false => none

/-- The first hit on the grids `k`, `k - 1`, and so on, at most `steps` of them. -/
def coarsestFrom (x : Binary64) : (steps : Nat) → (k : Int) → Option (Nat × Int)
  | 0, _ => none
  | steps + 1, k =>
    match onGrid x k with
    | some d => some (d, k)
    | none => coarsestFrom x steps (k - 1)

/-- The shortest decimal `d * 10 ^ k` of the magnitude of a finite number. The grids from `10 ^ 309`
down to `10 ^ -350` hold all candidates. -/
def shortest (x : Binary64) : Nat × Int :=
  if x.magnitude = 0 then (0, 0) else (coarsestFrom x 660 309).getD (0, 0)

/-- The decimal `d * 10 ^ k` without an exponent. -/
def positional (d : Nat) (k : Int) : Bytes :=
  let ds := decimal d
  if 0 ≤ k then ds ++ List.replicate k.toNat (ascii '0')
  else
    let places := (-k).toNat
    let padded := List.replicate (places + 1 - ds.length) (ascii '0') ++ ds
    let whole := padded.length - places
    padded.take whole ++ [ascii '.'] ++ padded.drop whole

namespace Binary64

/-- The text of a number; a number without a fraction has no point. -/
def text (x : Binary64) : Bytes :=
  if x.isNan then utf8 "NaN"
  else if x.isInfinite then utf8 (if x.isNegative then "-Inf" else "+Inf")
  else
    let (d, k) := shortest x
    (if x.isNegative then [ascii '-'] else []) ++ positional d k

end Binary64

end NodePath.Number
