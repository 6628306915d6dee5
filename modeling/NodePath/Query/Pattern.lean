import NodePath.Text.CharSet

/-!
# Patterns

Regular expressions over characters. Matching follows all alternatives at once: a pattern leads from
places in a text to the places where it can end.
-/

namespace NodePath.Query

open NodePath.Text

/-- Places in a text, in ascending order. -/
abbrev Places := List Nat

inductive Pattern where
  | empty
  /-- Any character that ends no line. -/
  | dot
  | one (set : CharSet)
  | seq (a b : Pattern)
  | alt (a b : Pattern)
  /-- A part that is kept apart from what surrounds it. -/
  | group (a : Pattern)
  /-- At least `low` times and, if there is a bound, at most `high` times. -/
  | times (low : Nat) (high : Option Nat) (a : Pattern)
  | textStart
  | textEnd
  | lineStart
  | lineEnd
  | wordEdge (inside : Bool)

namespace Pattern

def isWordChar (c : Char) : Bool :=
  c = '_' || (48 ≤ c.toNat && c.toNat ≤ 57) || (65 ≤ c.toNat && c.toNat ≤ 90) ||
    (97 ≤ c.toNat && c.toNat ≤ 122)

def isLineEnd (c : Char) : Bool := c = '\n' || c = '\r'

def charBefore? (text : Array Char) (i : Nat) : Option Char := if i = 0 then none else text[i - 1]?

def atWordEdge (text : Array Char) (i : Nat) : Bool :=
  ((charBefore? text i).any isWordChar) != (text[i]?.any isWordChar)

/-- All places of two lists. -/
def union : Places → Places → Places
  | [], t => t
  | s, [] => s
  | i :: s, j :: t =>
    if i < j then i :: union s (j :: t)
    else if j < i then j :: union (i :: s) t
    else i :: union s t
termination_by s t => s.length + t.length

/-- The places of one list that are not in another. -/
def minus : Places → Places → Places
  | [], _ => []
  | s, [] => s
  | i :: s, j :: t =>
    if i < j then i :: minus s (j :: t)
    else if j < i then minus (i :: s) t
    else minus s t
termination_by s t => s.length + t.length

/-- The places after exactly `n` steps. -/
def advance (step : Places → Places) : (n : Nat) → Places → Places
  | 0, places => places
  | n + 1, places => advance step n (step places)

/-- All places that repeated steps lead to, in at most `rounds` rounds. Only the `new` places can lead to
others that were not yet reached. -/
def closure (step : Places → Places) : (rounds : Nat) → (reached new : Places) → Places
  | 0, reached, _ => reached
  | rounds + 1, reached, new =>
    match minus (step new) reached with
    | [] => reached
    | new => closure step rounds (union reached new) new

/-- The places behind one character of a kind. -/
def stepOver (text : Array Char) (kind : Char → Bool) (places : Places) : Places :=
  (places.filter fun i => text[i]?.any kind).map (· + 1)

/-- The places where a pattern that starts at one of some places can end. Each round of a repetition
without bound reaches a new place or is the last one, so the length of the text bounds them. -/
def reach (text : Array Char) : Pattern → Places → Places
  | .empty, places => places
  | .dot, places => stepOver text (fun c => !isLineEnd c) places
  | .one set, places => stepOver text set.has places
  | .seq a b, places => reach text b (reach text a places)
  | .alt a b, places => union (reach text a places) (reach text b places)
  | .group a, places => reach text a places
  | .times low high a, places =>
    let first := advance (reach text a) low places
    let rounds := match high with
      | none => text.size + 1
      | some high => high - low
    closure (reach text a) rounds first first
  | .textStart, places => places.filter (· = 0)
  | .textEnd, places => places.filter (· = text.size)
  | .lineStart, places => places.filter fun i => i = 0 || charBefore? text i = some '\n'
  | .lineEnd, places => places.filter fun i => i = text.size || text[i]? = some '\n'
  | .wordEdge inside, places => places.filter fun i => atWordEdge text i != inside

/-- Whether a pattern matches somewhere in a text. -/
def occurs (p : Pattern) (text : List Char) : Bool :=
  let text := text.toArray
  !(p.reach text (List.range (text.size + 1))).isEmpty

/-- A sequence of patterns, given from its end. -/
def ofReversed : List Pattern → Pattern
  | [] => .empty
  | last :: others => others.foldl (fun rest p => .seq p rest) last

/-- The alternatives of a pattern. -/
def branches : Pattern → List Pattern
  | .alt a b => a.branches ++ b.branches
  | p => [p]

/-- Two patterns for one character each are one such pattern. The dot takes in whatever is beside it,
line ends too, and stays the dot. -/
def merge? : Pattern → Pattern → Option Pattern
  | .dot, .dot => some .dot
  | .dot, .one _ => some .dot
  | .one _, .dot => some .dot
  | .one s, .one t => some (.one (s.union t))
  | _, _ => none

/-- Alternatives where neighbours are merged if they can be. -/
def mergeNeighbours : List Pattern → List Pattern
  | [] => []
  | p :: rest =>
    match mergeNeighbours rest with
    | [] => [p]
    | q :: others =>
      match merge? p q with
      | some merged => merged :: others
      | none => p :: q :: others

/-- An alternative that is one character of any kind is the dot. -/
def settle : Pattern → Pattern
  | .one s => if s = .everything then .dot else .one s
  | p => p

/-- The first of some alternatives, or one of the others. -/
def choice (first : Pattern) : List Pattern → Pattern
  | [] => first
  | second :: others => .alt first (choice second others)

/-- A choice between patterns. -/
def ofBranches (ps : List Pattern) : Pattern :=
  match (mergeNeighbours (ps.flatMap branches)).map settle with
  | [] => .empty
  | first :: others => choice first others

/-- Whether the repetitions of a pattern, one within the other, come to at most `n` rounds. -/
def fits : Pattern → (n : Nat) → Bool
  | .seq a b, n => fits a n && fits b n
  | .alt a b, n => fits a n && fits b n
  | .group a, n => fits a n
  | .times low high a, n =>
    let rounds := high.getD low
    high = some 0 || (rounds ≤ n && fits a (if rounds = 0 then n else n / rounds))
  | _, _ => true

end Pattern

end NodePath.Query
