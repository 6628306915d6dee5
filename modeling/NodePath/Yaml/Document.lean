import NodePath.Yaml.Structure

/-!
# Documents

A stream is a sequence of documents with markers between them. Directives before a document tell its version
or give tags another meaning.
-/

namespace NodePath.Yaml

/-- What the directives of the documents before a document say. -/
structure Directives where
  /-- Whether a version is set. -/
  versioned : Bool := false
  /-- Whether the standard tags have another meaning. -/
  redefined : Bool := false

def versions : List String := ["1.0", "1.1", "1.2", "1.3"]

/-- Obeys a directive with its words, the first of which is its name. -/
def Directives.obey? (d : Directives) (words : List (List Char)) : Option Directives :=
  match words with
  | [] => some d
  | name :: values =>
    if values.isEmpty then some d
    else if name = "YAML".toList then
      match values with
      | [version] =>
        if versions.any (·.toList = version) && !d.versioned then some { d with versioned := true }
        else none
      | _ => none
    else if name = "TAG".toList then
      match values with
      | [handle, _] => some { d with redefined := d.redefined || handle = "!!".toList }
      | _ => none
    else some d

def isEnded (document : List Phrase) : Bool := document.getLast?.any (·.mark = .documentEnd)

/-- A document without the marker at its beginning. -/
def afterStart : List Phrase → List Phrase
  | [] => []
  | p :: rest => if p.mark = .documentStart then rest else p :: rest

/-- What stands between the markers of a document. -/
def bodyOf (document : List Phrase) : List Phrase :=
  let body := afterStart document
  if isEnded body then body.dropLast else body

/-- The tree of a document, if it has one. The version is forgotten at the end of a document. -/
def documentTree? (d : Directives) (document : List Phrase) : Option (Directives × Option Tree) :=
  let d := if isEnded document then { d with versioned := false } else d
  match bodyOf document with
  | [] => some (d, none)
  | [.group .directive _ words] => (d.obey? (words.map (·.lead.value))).map (·, none)
  | p :: rest =>
    match nodeAt (8 * (p :: rest).length + 64) { redefined := d.redefined } (p :: rest) with
    | some (t, []) => some (d, some t)
    | _ => none

def documentTreesFrom (d : Directives) : List (List Phrase) → Option (List (Option Tree))
  | [] => some []
  | document :: rest => do
    let (d, t) ← documentTree? d document
    return t :: (← documentTreesFrom d rest)

/-- The trees of the documents of a stream, unless it is malformed. -/
def documents? (cs : List Char) : Option (List (Option Tree)) := do
  documentTreesFrom {} (← documentsFrom [] (← phrases? (← tokens? cs)))

end NodePath.Yaml
