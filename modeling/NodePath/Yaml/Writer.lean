import NodePath.Dump.Value
import NodePath.Text.Quoted
import NodePath.Yaml.Plain

/-!
# Writing YAML

A document is made of texts, plain words, lists and maps. A map below a key stands two columns
further in, a list stands in the column of its key, and the lines of a list item stand behind its hyphen.
A text with line breaks is a literal block, unless it has to be quoted. A block whose line breaks are
carriage returns is one line for the list around it.
-/

namespace NodePath.Yaml

open NodePath.Text

inductive Doc where
  | text (s : Bytes)
  /-- A number or a truth value, written as it is. -/
  | word (s : Bytes)
  | list (items : List Doc)
  | map (fields : List (Bytes × Doc))

def blanks (n : Nat) : Bytes := List.replicate n (ascii ' ')

/-- The pieces of a text between the occurrences of a separator that is not empty. -/
def piecesFrom (sep : Bytes) : (skip : Nat) → (piece : Bytes) → Bytes → List Bytes
  | _, piece, [] => [piece]
  | skip + 1, piece, _ :: rest => piecesFrom sep skip piece rest
  | 0, piece, b :: rest =>
    if sep.isPrefixOf (b :: rest) then piece :: piecesFrom sep (sep.length - 1) [] rest
    else piecesFrom sep 0 (piece ++ [b]) rest

def pieces (sep s : Bytes) : List Bytes := piecesFrom sep 0 [] s

def occurrences (sep s : Bytes) : Nat := (pieces sep s).length - 1

/-- The line break of a text: the pair when all its breaks are pairs, else the more frequent one. -/
def lineBreak (s : Bytes) : Bytes :=
  let feeds := occurrences (utf8 "\n") s
  let returns := occurrences (utf8 "\r") s
  let pairs := occurrences (utf8 "\r\n") s
  if feeds = pairs ∧ returns = pairs then utf8 "\r\n"
  else if feeds < returns then utf8 "\r"
  else utf8 "\n"

def dropEnding (ending s : Bytes) : Bytes :=
  if ending.isSuffixOf s then s.take (s.length - ending.length) else s

/-- The header of a literal block: it says how many line breaks the text ends with. -/
def blockHeader (lb s : Bytes) : Bytes :=
  if (lb ++ lb).isSuffixOf s then utf8 "|+"
  else if lb.isSuffixOf s then utf8 "|"
  else utf8 "|-"

/-- A literal block whose lines are indented to a column. The indentation of an empty last line is
left out, and the line itself when the text ends with a single break. -/
def literalBlock (column : Nat) (s : Bytes) : Bytes :=
  let lb := lineBreak s
  let indent := blanks column
  let lines := joinWith lb ((pieces lb s).map (indent ++ ·))
  blockHeader lb s ++ lb ++ dropEnding indent (dropEnding (lb ++ indent) lines)

/-- A text in a map or list that stands in a column. -/
def scalar (column : Nat) (s : Bytes) : Bytes :=
  if needsQuotes s then quoted s
  else if occursIn (lineBreak s) s then literalBlock (column + 2) s
  else s

/-- A line with its indentation. -/
structure Line where
  indent : Nat
  text : Bytes

namespace Line

def bytes (l : Line) : Bytes := blanks l.indent ++ l.text

def length (l : Line) : Nat := l.indent + l.text.length

/-- A line without its first `n` characters. -/
def drop (n : Nat) (l : Line) : Line :=
  if n ≤ l.indent then { l with indent := l.indent - n } else ⟨0, l.text.drop (n - l.indent)⟩

/-- A line that is `n` columns further in. -/
def shift (n : Nat) (l : Line) : Line := { l with indent := n + l.indent }

/-- A line of a text without the indentation of a column, if it has that. -/
def dropMargin (column : Nat) (l : Line) : Line :=
  if (blanks column).isPrefixOf l.bytes then l.drop column else l

end Line

/-- The lines of a text in a map or list that stands in a column. -/
def scalarLines (column : Nat) (s : Bytes) : List Line :=
  (splitAt newline (scalar column s)).map (⟨0, ·⟩)

/-- Puts lines behind a beginning in a column: the first of them stands on its line. -/
def after (column : Nat) (start : Bytes) : List Line → List Line
  | [] => [⟨column, start⟩]
  | first :: rest => ⟨column, start ++ first.bytes⟩ :: rest

/-- The lines of a list item behind its hyphen in a column. The first line loses its indentation, the others
lose as much and stand behind the hyphen; a line that is no longer than that is left empty. A line of a text
stands there already. -/
def hang (column : Nat) (isText : Bool) : List Line → List Line
  | [] => []
  | first :: rest =>
    let shown := first.bytes.dropWhile (· = ascii ' ')
    let indent := first.length - shown.length
    ⟨column, utf8 "- " ++ shown⟩ :: rest.map fun line =>
      let line := if isText then line.dropMargin (column + 2) else line
      if line.length ≤ indent then ⟨0, []⟩ else (line.drop indent).shift (column + 2)

def Doc.isText : Doc → Bool
  | .text _ => true
  | _ => false

mutual

/-- The lines of a document that stands in a column. -/
def write (column : Nat) : Doc → List Line
  | .text s => scalarLines column s
  | .word s => [⟨0, s⟩]
  | .list [] => [⟨0, utf8 "[]"⟩]
  | .list (item :: items) => writeItems column (item :: items)
  | .map [] => [⟨0, utf8 "\x7b\x7d"⟩]
  | .map (field :: fields) => writeFields column (field :: fields)

def writeItems (column : Nat) : List Doc → List Line
  | [] => []
  | item :: rest => hang column item.isText (write column item) ++ writeItems column rest

def writeFields (column : Nat) : List (Bytes × Doc) → List Line
  | [] => []
  | (name, value) :: rest =>
    (match value with
    | .list (item :: items) => ⟨column, name ++ utf8 ":"⟩ :: writeItems column (item :: items)
    | .map (field :: fields) =>
      ⟨column, name ++ utf8 ":"⟩ :: writeFields (column + 2) (field :: fields)
    | value => after column (name ++ utf8 ": ") (write column value)) ++ writeFields column rest

end

/-- A document as a text that ends with a line break. -/
def Doc.render (d : Doc) : Bytes := (write 0 d).flatMap fun line => line.bytes ++ [newline]

def wordOfBool (b : Bool) : Doc := .word (utf8 (if b then "true" else "false"))

end NodePath.Yaml

namespace NodePath

open NodePath.Yaml

mutual

def Value.doc : Value → Doc
  | .text s => .text s
  | .flag b => wordOfBool b
  | .list items => .list (itemDocs items)
  | .record fields => .map (fieldDocs fields)

def itemDocs : List Value → List Doc
  | [] => []
  | item :: rest => item.doc :: itemDocs rest

def fieldDocs : List (Text.Bytes × Value) → List (Text.Bytes × Doc)
  | [] => []
  | (name, value) :: rest => (name, value.doc) :: fieldDocs rest

end

def Value.yaml (v : Value) : Text.Bytes := v.doc.render

end NodePath
