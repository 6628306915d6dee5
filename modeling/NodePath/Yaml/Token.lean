import NodePath.Text.Reader

/-!
# The tokens of a document stream

A token is a sign of the structure or a piece of text, with the place where it stands. Structure comes
from places, so lines and columns are part of a token. Columns are counted from one; the column of a text
that goes on over blank lines can be any number.
-/

namespace NodePath.Yaml

inductive Mark where
  | documentStart
  | documentEnd
  | item
  | explicitKey
  | colon
  | comma
  | openList
  | closeList
  | openMap
  | closeMap
  | anchor
  | alias
  | directive
  | tag
  | literal
  | folded
  | comment
  | merge
  /-- A text without quotes, which may stand for a number, a truth value or nothing. -/
  | plain
  | text
  | quotation
deriving DecidableEq, Repr

structure Token where
  mark : Mark
  value : List Char
  /-- The text from which the token was read, with what stands between it and the token before. -/
  source : List Char
  line : Nat
  column : Int
deriving Repr

def isSpace (c : Char) : Bool := c = ' ' || c = '\t'

def isBreak (c : Char) : Bool := c = '\n' || c = '\r'

/-- Whether a character can stand after a sign that ends with white space. -/
def isGap (c : Char) : Bool := isSpace c || isBreak c

/-- Whether a marker of three hyphens or three points stands at the front of a line. -/
def atMarker (cs : List Char) : Bool :=
  (("---".toList).isPrefixOf cs || ("...".toList).isPrefixOf cs) && (cs.drop 3).head?.all isGap

/-- A text without the given characters at its end. -/
def trimEnd (drop : Char → Bool) (cs : List Char) : List Char := (cs.reverse.dropWhile drop).reverse

namespace Token

/-- Whether the text of a token goes on over a line break. Breaks around it do not count, those behind it
only if `closed`. -/
def isSpread (closed : Bool) (t : Token) : Bool :=
  let blank := fun c => c = ' ' || isBreak c
  let front := t.source.dropWhile blank
  (if closed then front else trimEnd blank front).contains '\n'

end Token

/-- What a tag says about the part behind it. -/
inductive Tag where
  | integer
  | float
  | string
  | binary
  | timestamp
  | boolean
  | null
  | map
  | set
  | sequence
  | orderedMap
  | merge
  | other
deriving DecidableEq, Repr

namespace Tag

def words : List (String × Tag) :=
  [("!!int", .integer), ("!!float", .float), ("!!str", .string), ("!!binary", .binary),
   ("!!timestamp", .timestamp), ("!!bool", .boolean), ("!!null", .null), ("!!map", .map),
   ("!!set", .set), ("!!seq", .sequence), ("!!omap", .orderedMap), ("!!merge", .merge)]

def ofText (s : List Char) : Tag :=
  match words.find? (fun w => w.1.toList = s) with
  | some (_, tag) => tag
  | none => .other

/-- Whether a tag stands before a single scalar. -/
def isScalar : Tag → Bool
  | .integer | .float | .string | .binary | .timestamp | .boolean | .null => true
  | _ => false

end Tag

end NodePath.Yaml
