import NodePath.Corpus.File
import NodePath.Yaml.Resolution

/-!
# Reading corpora

A corpus is the first document of a YAML text: a map whose field `selectors` lists the entries. Fields
that are absent or null are empty, fields with other names do not count. A part with a name can be used
again: what it gave when it was read counts, or else the last part of the text with that name.
-/

namespace NodePath

open NodePath.Text NodePath.Yaml

namespace Corpus

/-- What a named part of a corpus gave. -/
inductive Reading where
  | text (s : Bytes)
  | flag (b : Bool)
  | entry (e : Entry)

/-- What the named parts gave so far, the last one first. -/
abbrev Readings := List (List Char × Reading)

/-- How a part of a kind is read: from its tree, and from what a named part gave. -/
structure Shape (α : Type) where
  read : Tree → Option α
  wrap : α → Reading
  again : Reading → Option α
  /-- What a part that is absent or null gives. -/
  empty : α

/-- Reads a part that may be an anchor or an alias. -/
def Shape.part {α : Type} (shape : Shape α) (names : Names) (seen : Readings) :
    Option Tree → Option (α × Readings)
  | none => some (shape.empty, seen)
  | some (.anchored name t) => (shape.read t).map fun a => (a, (name, shape.wrap a) :: seen)
  | some (.alias name) =>
    match (seen.lookup name).bind shape.again, (names.lookup name).bind Named.tree with
    | some a, _ => some (a, seen)
    | none, some (.scalar .null) => some (shape.empty, seen)
    | none, some t => (shape.read t).map (·, seen)
    | none, none => none
  | some (.scalar .null) => some (shape.empty, seen)
  | some t => (shape.read t).map (·, seen)

def datumOf (names : Names) (t : Tree) : Option Datum := (resolve names t).map Prod.fst

/-- A text: a number or a truth value gives its text. -/
def textShape (names : Names) : Shape Bytes where
  read t :=
    match datumOf names t with
    | some (.scalar s) => some s.toText
    | some (.binary bytes) => some bytes
    | _ => none
  wrap := .text
  again
    | .text s => some s
    | _ => none
  empty := []

/-- A truth value. -/
def flagShape (names : Names) : Shape Bool where
  read t :=
    match datumOf names t with
    | some (.scalar .null) => some false
    | some (.scalar (.flag b)) => some b
    | _ => none
  wrap := .flag
  again
    | .flag b => some b
    | _ => none
  empty := false

/-- Adds fields to others, unless one of them is there already. -/
def addFields (fields : List (Bytes × Tree)) : List (Bytes × Tree) → Option (List (Bytes × Tree))
  | [] => some fields
  | (name, t) :: rest =>
    if (fields.lookup name).isSome then none else addFields ((name, t) :: fields) rest

/-- How deep maps that take over other maps may stand in each other. -/
def mergeDepth : Nat := 10000

mutual

/-- The fields of a map with those it takes over. A map with a key that is no text has none. -/
def fieldsOf (names : Names) : (depth : Nat) → Tree → Option (List (Bytes × Tree))
  | 0, _ => none
  | depth + 1, t =>
    match t.bare? names with
    | some (.map fields) => collect names depth [] fields
    | _ => none

def collect (names : Names) (depth : Nat) (found : List (Bytes × Tree)) :
    List (Tree × Tree) → Option (List (Bytes × Tree))
  | [] => some found
  | (key, value) :: rest =>
    if key.isMerge then
      match (fieldsOf names depth value).bind (addFields found) with
      | none => none
      | some found => collect names depth found rest
    else
      match datumOf names key with
      | none => none
      | some (.scalar (.text name)) =>
        match addFields found [(name, value)] with
        | none => none
        | some found => collect names depth found rest
      | some _ => some []

end

/-- The entry of a map. -/
def entryOf (names : Names) (seen : Readings) (t : Tree) : Option (Entry × Readings) := do
  let fields ← fieldsOf names mergeDepth t
  let (name, seen) ← (textShape names).part names seen (fields.lookup (utf8 "name"))
  let (selector, seen) ← (textShape names).part names seen (fields.lookup (utf8 "selector"))
  let (valid, seen) ← (flagShape names).part names seen (fields.lookup (utf8 "valid"))
  return (⟨name, selector, valid⟩, seen)

/-- The entry of a list item. -/
def itemOf (names : Names) (seen : Readings) (t : Tree) : Option (Entry × Readings) :=
  match t with
  | .scalar .null => some (⟨[], [], false⟩, seen)
  | .anchored name t => do
    let (e, seen) ← entryOf names seen t
    return (e, (name, .entry e) :: seen)
  | .alias name =>
    match seen.lookup name, (names.lookup name).bind Named.tree with
    | some (.entry e), _ => some (e, seen)
    | _, some (.scalar .null) => some (⟨[], [], false⟩, seen)
    | _, some t => entryOf names seen t
    | _, none => none
  | t => entryOf names seen t

def itemsOf (names : Names) (seen : Readings) : List Tree → Option (List Entry)
  | [] => some []
  | t :: rest => do
    let (e, seen) ← itemOf names seen t
    return e :: (← itemsOf names seen rest)

/-- The entries of the field that lists them. -/
def entriesOf (names : Names) : Option Tree → Option (List Entry)
  | none => some []
  | some t =>
    match t.bare? names with
    | some (.scalar .null) => some []
    | some (.list items) => itemsOf names [] items
    | _ => none

/-- The entries of a document. -/
def ofTree (names : Names) (t : Tree) : Option (List Entry) := do
  entriesOf names ((← fieldsOf names mergeDepth t).lookup (utf8 "selectors"))

/-- The characters of a text, with a mark in place of each stray byte. -/
def legible (s : Bytes) : List Char :=
  (glyphs s).map fun
    | .char c => c
    | .stray _ => '\ufffd'

/-- What is wrong with a text that is no corpus. -/
def notACorpus : Bytes := utf8 "not a document with a list of selectors"

/-- The entries of a stream with a document. -/
def decode : Decoder
  | .error complaint => .error (.malformed complaint)
  | .ok s =>
    match readStream (legible s) with
    | none => .error (.malformed notACorpus)
    | some ⟨[], _⟩ => .error .nothing
    | some ⟨document :: _, names⟩ =>
      match ofTree names document with
      | none => .error (.malformed notACorpus)
      | some entries => .ok entries

/-- The entries of a corpus text, at least one. -/
def read (s : Bytes) : Except ReadError (List Entry) := readWith decode (.ok s)

end Corpus

end NodePath
