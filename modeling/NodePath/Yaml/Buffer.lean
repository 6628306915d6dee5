import NodePath.Yaml.Token

/-!
# Unfinished text

While a text is read its characters are collected. White space at its end does not count until something
follows it, and white space at its beginning is left out.
-/

namespace NodePath.Yaml

structure Buffer where
  /-- The characters, the last one first. -/
  reversed : List Char := []
  /-- How many of the last characters do not count yet. -/
  trailing : Nat := 0
  /-- Whether the text is over, so that the next character replaces it. -/
  spent : Bool := false
  /-- Everything that was read since the last token, the last character first. -/
  source : List Char := []
deriving Repr

namespace Buffer

/-- The characters that count. -/
def kept (b : Buffer) : List Char := (b.reversed.drop b.trailing).reverse

def holdsText (b : Buffer) : Bool := !(b.reversed.drop b.trailing).isEmpty

def isEmpty (b : Buffer) : Bool := b.spent || b.reversed.isEmpty

def length (b : Buffer) : Nat := if b.spent then 0 else b.reversed.length

/-- The text so far, with the white space at its end. -/
def whole (b : Buffer) : List Char := if b.spent then [] else b.reversed.reverse

def record (b : Buffer) (c : Char) : Buffer := { b with source := c :: b.source }

/-- Adds a character, or leaves it out if it is a blank at the beginning. -/
def addUnless (blank : Char → Bool) (b : Buffer) (c : Char) : Buffer :=
  if b.isEmpty then
    if blank c then b else { b with reversed := [c], trailing := 0, spent := false }
  else { b with reversed := c :: b.reversed, trailing := if blank c then b.trailing + 1 else 0 }

def add (b : Buffer) (c : Char) : Buffer := b.addUnless isSpace c

/-- Adds a character; a tab counts as text. -/
def addWithTab (b : Buffer) (c : Char) : Buffer := b.addUnless (· = ' ') c

/-- Adds a blank that counts. -/
def addBlank (b : Buffer) : Buffer :=
  { b with reversed := ' ' :: b.reversed, trailing := 0, spent := false }

/-- Adds the line break after an empty line; it takes the place of a blank. -/
def addBreak (b : Buffer) : Buffer :=
  match b.reversed with
  | ' ' :: rest => { b with reversed := '\n' :: rest }
  | rest => { b with reversed := '\n' :: rest, trailing := b.trailing + 1 }

/-- How much white space was read last. -/
def gap (b : Buffer) : Nat := (b.source.takeWhile isSpace).length

/-- Drops the white space that was read last. -/
def dropGap (b : Buffer) : Buffer :=
  if b.gap = 0 then b
  else
    { b with
      reversed := b.reversed.drop b.trailing
      trailing := 0
      source := b.source.drop b.gap }

/-- A buffer whose text is over, though it gave no token. -/
def spend (b : Buffer) : Buffer :=
  if b.holdsText then { b with reversed := b.reversed.drop b.trailing, trailing := 0, spent := true }
  else { b with reversed := [], trailing := 0, spent := false }

/-- Whether a tab stands where a key or a hyphen needs blanks. -/
def beginsWithTab (b : Buffer) : Bool :=
  match b.source.reverse with
  | ' ' :: '\t' :: _ => true
  | '\t' :: _ => true
  | _ => false

end Buffer

end NodePath.Yaml
