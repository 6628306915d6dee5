/-!
# Readers

A reader takes something off the front of a list of characters and gives the rest with the fact that it
is shorter, so that readers can be repeated.
-/

namespace NodePath.Text

/-- A rest that is shorter than `cs`. -/
abbrev Fewer (cs : List Char) := { rest : List Char // rest.length < cs.length }

/-- A rest that is no longer than `cs`. -/
abbrev NoMore (cs : List Char) := { rest : List Char // rest.length ≤ cs.length }

abbrev Reader (α : Type) := (cs : List Char) → Option (α × Fewer cs)

namespace NoMore

variable {cs rest : List Char}

def all (cs : List Char) : NoMore cs := ⟨cs, Nat.le_refl _⟩

/-- What is left after `n` characters, if there are so many. -/
def drop (n : Nat) (cs : List Char) : NoMore cs :=
  ⟨cs.drop n, by rw [List.length_drop]; exact Nat.sub_le _ _⟩

/-- The same rest seen from one character further left. -/
def under (c : Char) (r : NoMore rest) : Fewer (c :: rest) := ⟨r.1, Nat.lt_succ_of_le r.2⟩

def andThen (r : NoMore cs) (s : Fewer r.1) : Fewer cs := ⟨s.1, Nat.lt_of_lt_of_le s.2 r.2⟩

def andMaybe (r : NoMore cs) (s : NoMore r.1) : NoMore cs := ⟨s.1, Nat.le_trans s.2 r.2⟩

end NoMore

namespace Fewer

variable {cs rest : List Char}

/-- What follows the first character. -/
def tail (c : Char) (rest : List Char) : Fewer (c :: rest) := (NoMore.all rest).under c

def toNoMore (r : Fewer cs) : NoMore cs := ⟨r.1, Nat.le_of_lt r.2⟩

/-- The same rest seen from one character further left. -/
def under (c : Char) (r : Fewer rest) : Fewer (c :: rest) := r.toNoMore.under c

def andThen (r : Fewer cs) (s : Fewer r.1) : Fewer cs := ⟨s.1, Nat.lt_trans s.2 r.2⟩

def andMaybe (r : Fewer cs) (s : NoMore r.1) : Fewer cs := ⟨s.1, Nat.lt_of_le_of_lt s.2 r.2⟩

end Fewer

/-- What follows one character. -/
def acceptChar (c : Char) : (cs : List Char) → Option (Fewer cs)
  | [] => none
  | d :: rest => if d = c then some (.tail d rest) else none

/-- The longest run of characters of a class at the front, and what follows it. -/
def takeRun (p : Char → Bool) (cs : List Char) : List Char × NoMore cs :=
  (cs.takeWhile p, ⟨cs.dropWhile p, (List.dropWhile_suffix p).length_le⟩)

/-- What stands before the first occurrence of a character, and what follows it. -/
def takeUntil (stop : Char) : Reader (List Char)
  | [] => none
  | c :: rest =>
    if c = stop then some ([], .tail c rest)
    else (takeUntil stop rest).map fun (inner, after) => (c :: inner, after.under c)

def isAsciiDigit (c : Char) : Bool := '0' ≤ c && c ≤ '9'

def isAsciiLetter (c : Char) : Bool := ('a' ≤ c && c ≤ 'z') || ('A' ≤ c && c ≤ 'Z')

/-- The value of a hexadecimal digit. -/
def hexDigit? (c : Char) : Option Nat :=
  if isAsciiDigit c then some (c.toNat - 48)
  else if 'a' ≤ c && c ≤ 'f' then some (c.toNat - 87)
  else if 'A' ≤ c && c ≤ 'F' then some (c.toNat - 55)
  else none

/-- The number that hexadecimal digits denote. -/
def hexNumber? (cs : List Char) : Option Nat :=
  cs.foldlM (fun n c => (hexDigit? c).map (n * 16 + ·)) 0

/-- The number that decimal digits denote. -/
def decimalNumber (cs : List Char) : Nat := cs.foldl (fun n c => n * 10 + (c.toNat - 48)) 0

/-- The character with a scalar value, if there is one. -/
def charOfNat? (n : Nat) : Option Char := if n.isValidChar then some (Char.ofNat n) else none

end NodePath.Text
