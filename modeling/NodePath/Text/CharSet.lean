/-!
# Sets of characters

A set of characters is an ascending list of closed ranges of scalar values.
-/

namespace NodePath.Text

abbrev CharSet := List (Nat × Nat)

namespace CharSet

/-- Membership. The ranges ascend, so the search ends at the first range that lies above. -/
def hasCode : CharSet → Nat → Bool
  | [], _ => false
  | (lo, hi) :: ranges, n => if n < lo then false else n ≤ hi || hasCode ranges n

def has (s : CharSet) (c : Char) : Bool := hasCode s c.toNat

def lastCode : Nat := 0x10FFFF

def everything : CharSet := [(0, lastCode)]

def single (n : Nat) : CharSet := [(n, n)]

/-- A range and those that follow it in the order of their lower ends, where ranges that meet become
one. -/
def joinFrom (lo hi : Nat) : List (Nat × Nat) → CharSet
  | [] => [(lo, hi)]
  | (a, b) :: ranges =>
    if a ≤ hi + 1 then joinFrom lo (max hi b) ranges else (lo, hi) :: joinFrom a b ranges

/-- The set of ranges in any order. -/
def ofRanges (ranges : List (Nat × Nat)) : CharSet :=
  match ranges.mergeSort fun a b => a.1 ≤ b.1 with
  | [] => []
  | (lo, hi) :: ranges => joinFrom lo hi ranges

def union (s t : CharSet) : CharSet := ofRanges (s ++ t)

/-- The codes from `low` on that lie outside a set. -/
def complementFrom (low : Nat) : CharSet → CharSet
  | [] => if low ≤ lastCode then [(low, lastCode)] else []
  | (lo, hi) :: ranges =>
    if low < lo then (low, lo - 1) :: complementFrom (hi + 1) ranges
    else complementFrom (hi + 1) ranges

def complement (s : CharSet) : CharSet := complementFrom 0 s

end CharSet

end NodePath.Text
