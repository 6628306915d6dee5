import NodePath.Yaml.Buffer

/-!
# Block texts

A block text is a header and the lines that are indented below it. A literal block keeps its line
breaks; a folded one joins neighbouring lines that begin in the same column. The header says what becomes
of the breaks at the end, and it may say how far the lines are indented. A text without quotes in which a
line begins with a hyphen goes on as a block without a header.
-/

namespace NodePath.Yaml

structure Block where
  literal : Bool
  /-- Whether the breaks at the end are dropped. -/
  strips : Bool
  /-- Whether the breaks at the end all stay. -/
  keeps : Bool
  /-- Whether the header tells the indentation. -/
  explicit : Bool
  /-- The column of the first line, or zero as long as it is not known. -/
  first : Int := 0
  /-- The column of the line before, or zero if it was empty. -/
  previous : Int := 0
  /-- The column of the current line, or zero before its first character. -/
  current : Int := 0
  /-- The column of the last line that was not empty. -/
  lastFull : Int := 0
  /-- How far the last empty line reached before the first line. -/
  reached : Int := 0
  /-- Whether the last line break may still be folded. -/
  foldable : Bool := false
deriving Repr

/-- A whole number in decimal digits with an optional sign. -/
def signedNumber? (cs : List Char) : Option Int :=
  let digits :=
    match cs with
    | '-' :: rest => rest
    | '+' :: rest => rest
    | rest => rest
  if digits.isEmpty || !digits.all Text.isAsciiDigit then none
  else
    let n : Int := Text.decimalNumber digits
    some (if cs.head? = some '-' then -n else n)

/-- A text without one character at its front. -/
def dropFront (c : Char) (cs : List Char) : List Char :=
  match cs with
  | d :: rest => if d = c then rest else d :: rest
  | [] => []

/-- A text without one character at its end. -/
def dropBack (c : Char) (cs : List Char) : List Char := (dropFront c cs.reverse).reverse

/-- The part of a header's options that tells the indentation. -/
def indentOption (option : List Char) : List Char :=
  dropBack '+' (dropBack '-' (dropFront '+' (dropFront '-' option)))

/-- The indentation that a header tells, or zero; a wrong header has none. -/
def indentOf? (option : List Char) : Option Int :=
  let digits := indentOption option
  if digits.isEmpty then some 0
  else if digits = ['0'] then none
  else (signedNumber? digits).filter (· ≤ 9)

namespace Block

/-- The block below a header with some options, for a key or hyphen in the column `delimiter`. -/
def ofHeader? (literal : Bool) (delimiter : Int) (option : List Char) : Option Block :=
  (indentOf? option).map fun indent =>
    { literal
      strips := option.head? = some '-' || option.getLast? = some '-'
      keeps := option.head? = some '+' || option.getLast? = some '+'
      explicit := indent ≠ 0
      first := if 0 < indent then delimiter + indent else 0 }

/-- The block that a text without quotes becomes at a hyphen. -/
def ofHyphen (column : Int) : Block :=
  { literal := false, strips := true, keeps := false, explicit := false, first := column,
    current := column }

/-- Takes the column of a character for the first and the current line, unless they are known. -/
def setColumn (b : Block) (column : Int) : Block :=
  { b with
    first := if b.first = 0 then column else b.first
    current := if b.current = 0 then column else b.current }

/-- The lines stand as far in as the header says. -/
def isIndented (b : Block) : Bool := !b.explicit || b.first ≤ b.current

/-- Whether a column belongs to the indentation. -/
def isMargin (b : Block) (column : Int) : Bool :=
  if b.first = 0 then column = 1 else column < b.first

def nextLine (b : Block) (column : Int) : Block :=
  { b with
    reached := if b.first = 0 then column - 1 else b.reached
    previous := b.current
    lastFull := if b.current = 0 then b.lastFull else b.current
    foldable := true
    current := 0 }

/-- Reads a blank before the text of a line: from the first column on it counts. -/
def indent (b : Block) (column : Int) (text : Buffer) : Block × Buffer :=
  if b.first = 0 || column < b.first then (b, text)
  else ({ b with foldable := b.foldable && b.literal }, text.addBlank)

/-- Folds the last line break before a character of the text in a column. -/
def fold (b : Block) (column : Int) (text : Buffer) : Block × Buffer :=
  if b.literal || !b.foldable then (b, text)
  else
    let folded :=
      if b.current = b.previous then
        match text.reversed with
        | '\n' :: rest => { text with reversed := ' ' :: rest }
        | _ => text
      else if b.previous = 0 && b.lastFull = column then
        match text.reversed with
        | '\n' :: '\n' :: rest => { text with reversed := '\n' :: rest, trailing := 0 }
        | _ => text
      else text
    ({ b with foldable := false }, folded)

/-- A text with at most one line break at its end. -/
def clip (cs : List Char) : List Char :=
  let inner := trimEnd (· = '\n') cs
  if inner.length = cs.length then cs else inner ++ ['\n']

/-- What is left of the breaks at the end of a block; a break alone is nothing. -/
def chomp (b : Block) (cs : List Char) : List Char :=
  let inner :=
    if b.strips then trimEnd (· = ' ') (trimEnd (· = '\n') cs)
    else if b.keeps then cs
    else clip cs
  let inner := if inner = ['\n'] then [] else inner
  if b.keeps && inner.isEmpty then ['\n'] else inner

end Block

end NodePath.Yaml
