import NodePath.Text.CaseFold
import NodePath.Text.Category
import NodePath.Text.Reader
import NodePath.Text.Script

/-!
# Reading classes of characters

The part of the notation of patterns that stands for one character: escapes, properties, and classes in
brackets. A text that is none of these has no reading.
-/

namespace NodePath.Query

open NodePath.Text

def digitSet : CharSet := [(48, 57)]

def wordSet : CharSet := [(48, 57), (65, 90), (95, 95), (97, 122)]

def spaceSet : CharSet := [(9, 10), (12, 13), (32, 32)]

/-- A set as a class means it: with letters of all cases if case is `ignored`, then turned round if it
is negated. -/
def classSet (ignored negated : Bool) (set : CharSet) : CharSet :=
  let set := if ignored then set.folded else set
  if negated then set.complement else set

/-- The class that a letter after a backslash stands for, and whether it is negated. -/
def letterClass? : Char → Option (Bool × CharSet)
  | 'd' => some (false, digitSet)
  | 'w' => some (false, wordSet)
  | 's' => some (false, spaceSet)
  | 'D' => some (true, digitSet)
  | 'W' => some (true, wordSet)
  | 'S' => some (true, spaceSet)
  | _ => none

/-- The characters with a property: any, a general category or a script. -/
def property? (name : List Char) : Option CharSet :=
  if name = "Any".toList then some .everything else (category? name).or (script? name)

def openingBrace : Char := Char.ofNat 0x7B

def closingBrace : Char := Char.ofNat 0x7D

/-- The name of a property after `\p` or `\P`: one letter, or a text in braces. -/
def readPropertyName : Reader (List Char)
  | [] => none
  | c :: rest =>
    if c = openingBrace then (takeUntil closingBrace rest).map fun (name, after) => (name, after.under c)
    else some ([c], .tail c rest)

/-- A property after `\p` or `\P`. A caret before the name negates it once more. -/
def readProperty (ignored negated : Bool) : Reader CharSet := fun cs => do
  let (name, after) ← readPropertyName cs
  match name with
  | '^' :: name => return (classSet ignored (!negated) (← property? name), after)
  | name => return (classSet ignored negated (← property? name), after)

def isOctal (c : Char) : Bool := '0' ≤ c && c ≤ '7'

def octalNumber (cs : List Char) : Nat := cs.foldl (fun n c => n * 8 + (c.toNat - 48)) 0

/-- The code after `\x`: two hexadecimal digits, or any number of them in braces. -/
def readHexEscape : Reader Nat
  | [] => none
  | c :: rest =>
    if c = openingBrace then do
      let (digits, after) ← takeUntil closingBrace rest
      let n ← hexNumber? digits
      if digits.isEmpty || CharSet.lastCode < n then none
      return (n, after.under c)
    else
      match rest with
      | [] => none
      | d :: rest => do return (← hexNumber? [c, d], (Fewer.tail d rest).under c)

/-- The control character that a letter after a backslash stands for. -/
def controlCode? : Char → Option Nat
  | 'a' => some 7
  | 'f' => some 12
  | 'n' => some 10
  | 'r' => some 13
  | 't' => some 9
  | 'v' => some 11
  | _ => none

/-- The code that an escape stands for, after the backslash. One octal digit other than zero does not
make a code. -/
def readEscapedCode : Reader Nat
  | [] => none
  | c :: rest =>
    if c = 'x' then (readHexEscape rest).map fun (n, after) => (n, after.under c)
    else
      match controlCode? c with
      | some n => some (n, .tail c rest)
      | none =>
        if c.toNat < 0x80 && !isAsciiDigit c && !isAsciiLetter c then some (c.toNat, .tail c rest)
        else if isOctal c && (c = '0' || rest.head?.any isOctal) then
          let digits := (rest.take 2).takeWhile isOctal
          some (octalNumber (c :: digits), (NoMore.drop digits.length rest).under c)
        else none

/-- One code of a class in brackets. -/
def readClassCode : Reader Nat
  | [] => none
  | c :: rest =>
    if c = '\\' then (readEscapedCode rest).map fun (n, after) => (n, after.under c)
    else some (c.toNat, .tail c rest)

/-- The named classes that may stand in brackets. -/
def namedClass? (name : List Char) : Option CharSet :=
  [ ("alnum".toList, [(48, 57), (65, 90), (97, 122)]), ("alpha".toList, [(65, 90), (97, 122)]),
    ("ascii".toList, [(0, 127)]), ("blank".toList, [(9, 9), (32, 32)]),
    ("cntrl".toList, [(0, 31), (127, 127)]), ("digit".toList, digitSet),
    ("graph".toList, [(33, 126)]), ("lower".toList, [(97, 122)]), ("print".toList, [(32, 126)]),
    ("punct".toList, [(33, 47), (58, 64), (91, 96), (123, 126)]),
    ("space".toList, [(9, 13), (32, 32)]), ("upper".toList, [(65, 90)]), ("word".toList, wordSet),
    ("xdigit".toList, [(48, 57), (65, 70), (97, 102)]) ].lookup name

/-- The class that an escape stands for, after the backslash. -/
def readEscapedClass (ignored : Bool) : Reader CharSet
  | [] => none
  | c :: rest =>
    if c = 'p' || c = 'P' then
      (readProperty ignored (c = 'P') rest).map fun (set, after) => (set, after.under c)
    else (letterClass? c).map fun (negated, set) => (classSet ignored negated set, .tail c rest)

/-- A named class after its opening bracket and colon. -/
def readNamedClass (ignored : Bool) : Reader CharSet := fun cs => do
  let negated := cs.head? = some '^'
  let body := NoMore.drop (if negated then 1 else 0) cs
  let name := takeRun isAsciiLetter body.1
  let after ← acceptChar ':' name.2.1
  let after₂ ← acceptChar ']' after.1
  return (classSet ignored negated (← namedClass? name.1),
    body.andThen (name.2.andThen (after.andThen after₂)))

/-- A class within brackets: a letter class, a property or a named class. -/
def readClassItem (ignored : Bool) : Reader CharSet
  | [] => none
  | c :: rest =>
    if c = '\\' then (readEscapedClass ignored rest).map fun (set, after) => (set, after.under c)
    else if c = '[' then do
      let after ← acceptChar ':' rest
      let (set, after₂) ← readNamedClass ignored after.1
      return (set, (after.andThen after₂).under c)
    else none

/-- The end of a range, after its hyphen; a hyphen before the closing bracket is none. -/
def readRangeEnd (cs : List Char) : Option (Option Nat × NoMore cs) :=
  match acceptChar '-' cs with
  | none => some (none, .all cs)
  | some after =>
    if after.1.isEmpty || after.1.head? = some ']' then some (none, .all cs)
    else do
      let (high, after₂) ← readClassCode after.1
      return (some high, (after.andThen after₂).toNoMore)

/-- One code of a class or a range of them. -/
def readClassRange : Reader (Nat × Nat) := fun cs => do
  let (low, after) ← readClassCode cs
  let (high, after₂) ← readRangeEnd after.1
  if high.any (· < low) then none
  return ((low, high.getD low), after.andMaybe after₂)

/-- Whether a text begins like a named class and has the end of one. -/
def namesClass : List Char → Bool
  | '[' :: ':' :: rest => (rest.zip (rest.drop 1)).contains (':', ']')
  | _ => false

/-- One member of a class. -/
def readClassMember (ignored : Bool) (cs : List Char) : Option (CharSet × Fewer cs) :=
  (readClassItem ignored cs).or <|
    if namesClass cs then none
    else (readClassRange cs).map fun (range, after) => (classSet ignored false [range], after)

/-- The members of a class up to the closing bracket, which may come first as a member. -/
def readClassMembers (ignored first : Bool) (members : List (Nat × Nat)) (cs : List Char) :
    Option (List (Nat × Nat) × Fewer cs) :=
  match if first then none else acceptChar ']' cs with
  | some after => some (members, after)
  | none => do
    let (new, ⟨next, h⟩) ← readClassMember ignored cs
    let (members, after) ← readClassMembers ignored false (members ++ new) next
    return (members, Fewer.andThen ⟨next, h⟩ after)
termination_by cs.length

/-- A class after its opening bracket. -/
def readClass (ignored : Bool) : Reader CharSet := fun cs => do
  let negated := cs.head? = some '^'
  let body := NoMore.drop (if negated then 1 else 0) cs
  let (members, after) ← readClassMembers ignored true [] body.1
  return (classSet false negated (.ofRanges members), body.andThen after)

end NodePath.Query
