import NodePath.Query.ClassReader
import NodePath.Query.Pattern

/-!
# Reading patterns

The usual notation of regular expressions: classes, groups, alternatives, repetition, anchors, escapes
and quoted text. A text that is no pattern has no reading.
-/

namespace NodePath.Query

open NodePath.Text

/-- Switches that a group may set for what follows in it. -/
structure PatternFlags where
  /-- Whether letters match in any case. -/
  ignoreCase : Bool
  /-- Whether the anchors for the two ends of the text stand for those of a line. -/
  multiline : Bool
  /-- Whether a carriage return ends a line for the dot, as a line feed does. -/
  returnEnds : Bool

namespace PatternFlags

def initial : PatternFlags := ⟨false, false, true⟩

/-- The switches after one letter or hyphen, and whether further letters turn theirs on. -/
def switch? (on : Bool) (flags : PatternFlags) : Char → Option (Bool × PatternFlags)
  | 'i' => some (on, { flags with ignoreCase := on })
  | 'm' => some (on, { flags with multiline := on })
  | 's' => some (on, { flags with returnEnds := on })
  | 'U' => some (on, flags)
  | '-' => if on then some (false, flags) else none
  | _ => none

def char (flags : PatternFlags) (n : Nat) : Pattern :=
  .one (classSet flags.ignoreCase false (.single n))

def dot (flags : PatternFlags) : Pattern :=
  if flags.returnEnds then .dot else .one (CharSet.single 10).complement

end PatternFlags

/-- What has been read of a sequence: its items from the last one back, the switches for what follows,
and whether a repetition was the last thing read. -/
structure Sequence where
  flags : PatternFlags
  items : List Pattern
  repeated : Bool

namespace Sequence

def start (flags : PatternFlags) : Sequence := ⟨flags, [], false⟩

def push (s : Sequence) (p : Pattern) : Sequence := ⟨s.flags, p :: s.items, false⟩

/-- Adds characters that stand for themselves. -/
def quote (s : Sequence) (cs : List Char) : Sequence :=
  cs.foldl (fun s c => s.push (s.flags.char c.toNat)) { s with repeated := false }

def setFlags (s : Sequence) (flags : PatternFlags) : Sequence := ⟨flags, s.items, false⟩

/-- Repeats the last item. There must be one, not just repeated, and no more than a thousand rounds in
all. -/
def repeat? (s : Sequence) (low : Nat) (high : Option Nat) : Option Sequence :=
  match s.items with
  | [] => none
  | p :: others =>
    let repetition := Pattern.times low high p
    if s.repeated || high.any (· < low) || !repetition.fits 1000 then none
    else some ⟨s.flags, repetition :: others, true⟩

def pattern (s : Sequence) : Pattern := .ofReversed s.items

end Sequence

/-- The place that a letter after a backslash stands for. -/
def anchor? : Char → Option Pattern
  | 'A' => some .textStart
  | 'z' => some .textEnd
  | 'b' => some (.wordEdge false)
  | 'B' => some (.wordEdge true)
  | _ => none

/-- An escape after its backslash. -/
def readEscape (flags : PatternFlags) (cs : List Char) : Option (Pattern × Fewer cs) :=
  match cs with
  | [] => none
  | c :: rest =>
    match anchor? c with
    | some p => some (p, .tail c rest)
    | none =>
      if c = 'p' || c = 'P' || (letterClass? c).isSome then
        (readEscapedClass flags.ignoreCase (c :: rest)).map fun (set, after) => (.one set, after)
      else (readEscapedCode (c :: rest)).map fun (n, after) => (flags.char n, after)

/-- Quoted text, after its opening: all up to `\E`, or to the end if there is none. -/
def readVerbatim : (cs : List Char) → List Char × NoMore cs
  | [] => ([], .all [])
  | '\\' :: 'E' :: rest => ([], ((Fewer.tail 'E' rest).under '\\').toNoMore)
  | c :: rest =>
    let (text, after) := readVerbatim rest
    (c :: text, (after.under c).toNoMore)

/-- A count: digits without a leading zero. -/
def readCount (cs : List Char) : Option Nat :=
  match cs with
  | [] => none
  | '0' :: _ :: _ => none
  | cs => if cs.all isAsciiDigit then some (decimalNumber cs) else none

/-- The bounds in the braces of a repetition. -/
def readBounds (body : List Char) : Option (Nat × Option Nat) :=
  let low := body.takeWhile (· ≠ ',')
  match body.drop low.length with
  | [] => (readCount low).map fun n => (n, some n)
  | _ :: [] => (readCount low).map fun n => (n, none)
  | _ :: high => do return (← readCount low, some (← readCount high))

/-- The bounds of a repetition. Braces that hold none are no repetition. -/
def readRepetition : Reader (Nat × Option Nat)
  | [] => none
  | c :: rest =>
    if c = '*' then some ((0, none), .tail c rest)
    else if c = '+' then some ((1, none), .tail c rest)
    else if c = '?' then some ((0, some 1), .tail c rest)
    else if c = openingBrace then do
      let (body, after) ← takeUntil closingBrace rest
      return (← readBounds body, after.under c)
    else none

/-- What follows a mark, if it stands at the front. -/
def dropMark (mark : Char) (cs : List Char) : NoMore cs :=
  match acceptChar mark cs with
  | some after => after.toNoMore
  | none => .all cs

/-- Switches as in `i-s`, up to a colon or a closing parenthesis, which is given as well. -/
def readSwitches (on : Bool) (flags : PatternFlags) :
    (cs : List Char) → Option (PatternFlags × Char × Fewer cs)
  | [] => none
  | c :: rest =>
    if c = ':' || c = ')' then some (flags, c, .tail c rest)
    else if c = '-' && rest.head?.any (fun d => d = ':' || d = ')') then none
    else do
      let (on, flags) ← flags.switch? on c
      let (flags, mark, after) ← readSwitches on flags rest
      return (flags, mark, after.under c)

/-- The name of a group up to its closing bracket. -/
def readGroupName (cs : List Char) : Option (Fewer cs) := do
  let name := takeRun (fun c => isAsciiLetter c || isAsciiDigit c || c = '_') cs
  if name.1.isEmpty then none
  let after ← acceptChar '>' name.2.1
  return name.2.andThen after

/-- What an opening parenthesis begins. -/
inductive GroupKind where
  | closed
  /-- A part with switches of its own that is not kept apart. -/
  | scope (flags : PatternFlags)
  /-- No part at all, only switches for what follows. -/
  | switches (flags : PatternFlags)

/-- The opening of a group after its parenthesis. -/
def readGroupOpening (flags : PatternFlags) (cs : List Char) : Option (GroupKind × NoMore cs) :=
  match acceptChar '?' cs with
  | none => some (.closed, .all cs)
  | some mark =>
    let named := dropMark 'P' mark.1
    match acceptChar '<' named.1 with
    | some bracket => do
      let after ← readGroupName bracket.1
      return (.closed, (mark.andThen (named.andThen (bracket.andThen after))).toNoMore)
    | none => do
      let (flags, stop, after) ← readSwitches true flags mark.1
      return (if stop = ')' then .switches flags else .scope flags, (mark.andThen after).toNoMore)

/-- One atom that is no group. -/
def readAtom (flags : PatternFlags) : Reader Pattern
  | [] => none
  | c :: rest =>
    if c = '.' then some (flags.dot, .tail c rest)
    else if c = '^' then some (if flags.multiline then .lineStart else .textStart, .tail c rest)
    else if c = '$' then some (if flags.multiline then .lineEnd else .textEnd, .tail c rest)
    else if c = '[' then
      (readClass flags.ignoreCase rest).map fun (set, after) => (.one set, after.under c)
    else if c = '\\' then (readEscape flags rest).map fun (p, after) => (p, after.under c)
    else some (flags.char c.toNat, .tail c rest)

/-- Adds a group to a sequence, after its opening parenthesis, or sets switches. -/
def readGroupItem (group : PatternFlags → Reader Pattern) (s : Sequence) (cs : List Char) :
    Option (Sequence × NoMore cs) := do
  let (kind, start) ← readGroupOpening s.flags cs
  match kind with
  | .switches flags => return (s.setFlags flags, start)
  | .scope flags =>
    let (p, after) ← group flags start.1
    return (s.push p, (start.andThen after).toNoMore)
  | .closed =>
    let (p, after) ← group s.flags start.1
    return (s.push (.group p), (start.andThen after).toNoMore)

/-- Adds an atom to a sequence, or repeats its last item. A repetition may be marked as lazy. -/
def readItem (s : Sequence) (cs : List Char) : Option (Sequence × Fewer cs) :=
  match readRepetition cs with
  | some ((low, high), after) => do
    return (← s.repeat? low high, after.andMaybe (dropMark '?' after.1))
  | none => do
    let (p, after) ← readAtom s.flags cs
    return (s.push p, after)

/-- The next thing in a sequence. -/
def readNext (group : PatternFlags → Reader Pattern) (s : Sequence) :
    (cs : List Char) → Option (Sequence × Fewer cs)
  | '(' :: rest => (readGroupItem group s rest).map fun (s, after) => (s, after.under '(')
  | '\\' :: 'Q' :: rest =>
    let (text, after) := readVerbatim rest
    some (s.quote text, (after.under 'Q').under '\\')
  | cs => readItem s cs

/-- A sequence up to a bar or a closing parenthesis. -/
def readSequence (group : PatternFlags → Reader Pattern) (s : Sequence) (cs : List Char) :
    Option (Sequence × NoMore cs) :=
  if cs.isEmpty || cs.head? = some '|' || cs.head? = some ')' then some (s, .all cs)
  else do
    let (s, ⟨next, h⟩) ← readNext group s cs
    let (s, after) ← readSequence group s next
    return (s, (Fewer.andMaybe ⟨next, h⟩ after).toNoMore)
termination_by cs.length

/-- Alternatives with bars between them. Switches last beyond a bar. -/
def readBranches (group : PatternFlags → Reader Pattern) (flags : PatternFlags)
    (cs : List Char) : Option (List Pattern × NoMore cs) := do
  let (s, ⟨after, h⟩) ← readSequence group (.start flags) cs
  match acceptChar '|' after with
  | none => return ([s.pattern], ⟨after, h⟩)
  | some ⟨next, h'⟩ =>
    let (others, last) ← readBranches group s.flags next
    return (s.pattern :: others,
      (NoMore.andThen ⟨after, h⟩ (Fewer.andMaybe ⟨next, h'⟩ last)).toNoMore)
termination_by cs.length

/-- A group after its opening, with its closing parenthesis; groups nest at most `levels` deep. -/
def readGroup : (levels : Nat) → PatternFlags → Reader Pattern
  | 0, _, _ => none
  | levels + 1, flags, cs => do
    let (branches, after) ← readBranches (readGroup levels) flags cs
    let after₂ ← acceptChar ')' after.1
    return (.ofBranches branches, after.andThen after₂)

/-- How deep groups may nest. -/
def groupLevels : Nat := 999

/-- The pattern that a text denotes. -/
def Pattern.ofText? (cs : List Char) : Option Pattern := do
  let (branches, ⟨after, _⟩) ← readBranches (readGroup groupLevels) .initial cs
  if after.isEmpty then some (.ofBranches branches) else none

end NodePath.Query
