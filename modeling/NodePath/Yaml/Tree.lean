import NodePath.Yaml.Phrase
import NodePath.Yaml.Scalar

/-!
# The trees of a document stream

A document is a tree of scalars, lists and maps. Parts may have a name, given by an anchor and used by an
alias, and a tag. No key occurs twice in a map.
-/

namespace NodePath.Yaml

open NodePath.Text

inductive Tree where
  | scalar (s : Scalar)
  /-- The key that takes over the fields of other maps. -/
  | merge
  | list (items : List Tree)
  | map (fields : List (Tree × Tree))
  | anchored (name : List Char) (value : Tree)
  | alias (name : List Char)
  | tagged (tag : Tag) (value : Tree)
deriving Repr

def Tree.null : Tree := .scalar .null

def bytesOfChars (cs : List Char) : Bytes := cs.flatMap encode

def textTree (cs : List Char) : Tree := .scalar (.text (bytesOfChars cs))

/-- The tree of a single token, if it is a scalar. -/
def Token.tree? (t : Token) : Option Tree :=
  match t.mark with
  | .merge => some .merge
  | .plain => some (.scalar (Scalar.ofPlain (bytesOfChars t.value)))
  | .text | .quotation => some (textTree t.value)
  | .literal | .folded => some (textTree [])
  | _ => none

/-- The text of a phrase that is a single text. -/
def Phrase.text? : Phrase → Option Tree
  | .single t =>
    match t.tree? with
    | some (.scalar (.text s)) => some (.scalar (.text s))
    | _ => none
  | _ => none

/-- What a tag stands for where nothing follows it. -/
def Tag.default : Tag → Tree
  | .integer => .scalar (.integer 0)
  | .float => .scalar (.integer 0)
  | .boolean => .scalar (.flag false)
  | .null => .null
  | _ => textTree []

/-- A field of a map. A key by which the field is told from others has a label. -/
structure Field where
  label : Option (List Char)
  key : Tree
  value : Tree

/-- The map with some fields, unless a label occurs twice. -/
def mapOf? (fields : List Field) : Option Tree :=
  if (fields.filterMap Field.label).Nodup then some (.map (fields.map fun f => (f.key, f.value)))
  else none

end NodePath.Yaml
