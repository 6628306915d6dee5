import NodePath.Text.Bytes

/-!
# Texts that look like times

A text looks like a time when it is a date, a date with a time of day, a full timestamp with a zone,
or hours and minutes. Hours may have one digit, a fraction may follow the seconds, and the day must
exist in its month.
-/

namespace NodePath.Yaml

open NodePath.Text

/-- Reads one or two digits; both must be there when `fixed`. -/
def takeTwoDigits (fixed : Bool) : Bytes → Option (Nat × Bytes)
  | a :: b :: rest =>
    if !isDigit a then none
    else if isDigit b then some (digitValue a * 10 + digitValue b, rest)
    else if fixed then none
    else some (digitValue a, b :: rest)
  | [a] => if isDigit a && !fixed then some (digitValue a, []) else none
  | [] => none

/-- Reads a number of one or two digits within bounds. -/
def takeBounded (fixed : Bool) (low high : Nat) (s : Bytes) : Option (Nat × Bytes) := do
  let (n, rest) ← takeTwoDigits fixed s
  if low ≤ n ∧ n ≤ high then some (n, rest) else none

def takeByte (c : Char) : Bytes → Option Bytes
  | b :: rest => if b = ascii c then some rest else none
  | [] => none

/-- One or more blanks. -/
def takeBlanks (s : Bytes) : Option Bytes := do
  let rest ← takeByte ' ' s
  return rest.dropWhile (· = ascii ' ')

def isLeapYear (year : Nat) : Bool := year % 4 = 0 && (year % 100 ≠ 0 || year % 400 = 0)

def daysIn (year month : Nat) : Nat :=
  if month = 2 then if isLeapYear year then 29 else 28
  else if month = 4 ∨ month = 6 ∨ month = 9 ∨ month = 11 then 30
  else 31

structure Date where
  year : Nat
  month : Nat
  day : Nat

/-- Four digits of a year and two each of a month and a day. -/
def takeDate (s : Bytes) : Option (Date × Bytes) := do
  let digits := s.take 4
  if digits.length < 4 || !digits.all isDigit then failure
  let rest ← takeByte '-' (s.drop 4)
  let (month, rest) ← takeBounded true 1 12 rest
  let rest ← takeByte '-' rest
  let (day, rest) ← takeTwoDigits true rest
  return (⟨natOfDigits digits, month, day⟩, rest)

def Date.exists (d : Date) : Bool := 1 ≤ d.day && d.day ≤ daysIn d.year d.month

/-- A point or comma with at least one digit; nothing is read when there is none. -/
def dropFraction : Bytes → Bytes
  | p :: d :: rest =>
    if (p = ascii '.' || p = ascii ',') && isDigit d then rest.dropWhile isDigit else p :: d :: rest
  | s => s

def takeTimeOfDay (s : Bytes) : Option Bytes := do
  let (_, rest) ← takeBounded false 0 23 s
  let rest ← takeByte ':' rest
  let (_, rest) ← takeBounded true 0 59 rest
  let rest ← takeByte ':' rest
  let (_, rest) ← takeBounded true 0 59 rest
  return dropFraction rest

/-- A zone: the letter `Z`, or a sign, hours and minutes. -/
def takeZone : Bytes → Option Bytes
  | [] => none
  | b :: rest =>
    if b = ascii 'Z' then some rest
    else if b = ascii '+' || b = ascii '-' then do
      let (_, rest) ← takeBounded true 0 24 rest
      let rest ← takeByte ':' rest
      let (_, rest) ← takeBounded true 0 60 rest
      return rest
    else none

def isDate (s : Bytes) : Bool :=
  match takeDate s with
  | some (d, rest) => rest.isEmpty && d.exists
  | none => false

def isDateAndTime (s : Bytes) : Bool :=
  match (do
    let (d, rest) ← takeDate s
    let rest ← takeBlanks rest
    let rest ← takeTimeOfDay rest
    return (d, rest) : Option (Date × Bytes)) with
  | some (d, rest) => rest.isEmpty && d.exists
  | none => false

def isFullTimestamp (s : Bytes) : Bool :=
  match (do
    let (d, rest) ← takeDate s
    let rest ← (takeByte 'T' rest).or (takeByte 't' rest)
    let rest ← takeTimeOfDay rest
    let rest ← takeZone rest
    return (d, rest) : Option (Date × Bytes)) with
  | some (d, rest) => rest.isEmpty && d.exists
  | none => false

def isHourAndMinute (s : Bytes) : Bool :=
  match (do
    let (_, rest) ← takeBounded false 0 23 s
    let rest ← takeByte ':' rest
    let (_, rest) ← takeBounded false 0 59 rest
    return rest : Option Bytes) with
  | some rest => rest.isEmpty
  | none => false

def looksLikeTime (s : Bytes) : Bool :=
  isFullTimestamp s || isDateAndTime s || isDate s || isHourAndMinute s

end NodePath.Yaml
