import NodePath.Text.Base64
import NodePath.Yaml.Document

/-!
# What trees stand for

An alias stands for the part that its anchor names, a tag for a scalar of another kind. All parts of a
stream are resolved in their order, so that an alias has an anchor before it.
-/

namespace NodePath.Yaml

open NodePath.Text NodePath.Number

inductive Datum where
  | scalar (s : Scalar)
  | binary (bytes : Bytes)
  | time
  /-- A list or a map. -/
  | collection
deriving Repr

/-- A part with a name; while it is being read it is nothing. -/
structure Named where
  tree : Option Tree
  datum : Datum

/-- The named parts, the last one first. -/
abbrev Names := List (List Char × Named)

/-- The tree that a tree stands for where a list or map is wanted. Names are followed as long as there are
names. -/
def Tree.bare? (names : Names) : Tree → Option Tree
  | .anchored _ t => follow names.length t
  | t => follow names.length t
where
  follow : Nat → Tree → Option Tree
    | fuel + 1, .alias name => ((names.lookup name).bind Named.tree).bind (follow fuel)
    | 0, .alias _ => none
    | _, t => some t

def Tree.isMap (names : Names) (t : Tree) : Bool :=
  match t.bare? names with
  | some (.map _) => true
  | _ => false

/-- Whether the fields of a tree can be taken over: it is a map or a list of maps. -/
def Tree.isMergeable (names : Names) (t : Tree) : Bool :=
  match t.bare? names with
  | some (.map _) => true
  | some (.list items) => items.all (Tree.isMap names)
  | _ => false

def Tree.isMerge : Tree → Bool
  | .merge => true
  | .anchored _ t => t.isMerge
  | .tagged _ t => t.isMerge
  | _ => false

/-- The text of a datum in a message or under a tag; times and collections have none. -/
def Datum.text? : Datum → Option Bytes
  | .scalar .null => some (utf8 "<nil>")
  | .scalar s => some s.toText
  | .binary bytes =>
    some (utf8 "[" ++ joinWith (utf8 " ") (bytes.map fun b => decimal b.toNat) ++ utf8 "]")
  | _ => none

/-- The nearest number of 64 bits that a numeral denotes; other texts denote zero. -/
def clampedInteger (s : Bytes) : Int :=
  let (negative, _, digits) := takeSign s
  if digits.isEmpty || !digits.all isDigit then 0
  else if negative then max (-0x8000000000000000) (-(natOfDigits digits : Int))
  else min 0x7FFFFFFFFFFFFFFF (natOfDigits digits)

/-- The floating point number that a numeral denotes, be it infinite; other texts denote zero. -/
def clampedFloat (s : Bytes) : Binary64 :=
  match float? s, readFloat s with
  | some x, _ => x
  | none, some (.quotient negative _ _) => .infinity negative
  | none, _ => .zero

/-- The truth value of a word, whatever its case. -/
def flagOfWord? (s : Bytes) : Option Bool :=
  let word := s.map lowerCase
  if ["1", "t", "true", "yes"].any (utf8 · = word) then some true
  else if ["0", "f", "false", "no"].any (utf8 · = word) then some false
  else none

/-- What a tag makes of a datum. -/
def Tag.convert? (tag : Tag) (d : Datum) : Option Datum :=
  match tag with
  | .integer => some (.scalar (.integer (clampedInteger (d.text?.getD []))))
  | .float =>
    match d with
    | .scalar (.float x) => some (.scalar (.float x))
    | .scalar (.integer i) => some (.scalar (.float (.ofInt i)))
    | .scalar (.text s) => some (.scalar (.float (clampedFloat s)))
    | _ => some (.scalar (.integer 0))
  | .null => some (.scalar .null)
  | .binary =>
    match d with
    | .scalar (.text s) => some (.binary (fromBase64 s))
    | _ => none
  | .boolean => (d.text?.bind flagOfWord?).map fun b => .scalar (.flag b)
  | .string =>
    match d with
    | .scalar s => some (.scalar (.text s.toText))
    | d => d.text?.map fun s => .scalar (.text s)
  | .timestamp => some .time
  | _ => some d

mutual

/-- What a tree stands for, and the named parts after it. -/
def resolve (names : Names) : Tree → Option (Datum × Names)
  | .scalar s => some (.scalar s, names)
  | .merge => some (.scalar .null, names)
  | .list items => (resolveItems names items).map (.collection, ·)
  | .map fields => (resolveFields names fields).map (.collection, ·)
  | .anchored name t =>
    match resolve ((name, ⟨none, .scalar .null⟩) :: names) t with
    | none => none
    | some (d, names) => some (d, (name, ⟨some t, d⟩) :: names)
  | .alias name => (names.lookup name).map fun named => (named.datum, names)
  | .tagged tag t =>
    match resolve names t with
    | none => if tag = .timestamp then some (.time, names) else none
    | some (d, names) => (tag.convert? d).map (·, names)

def resolveItems (names : Names) : List Tree → Option Names
  | [] => some names
  | t :: rest =>
    match resolve names t with
    | none => none
    | some (_, names) => resolveItems names rest

def resolveFields (names : Names) : List (Tree × Tree) → Option Names
  | [] => some names
  | (key, value) :: rest =>
    if key.isMerge && !value.isMergeable names then none
    else
      match resolve names key with
      | none => none
      | some (_, names) =>
        match resolve names value with
        | none => none
        | some (_, names) => resolveFields names rest

end

/-- A resolved stream: the documents that hold something, and the named parts of all. -/
structure Stream where
  documents : List Tree
  names : Names

/-- Whether a document counts: it stands for something, or it is a null. -/
def holdsSomething (t : Tree) (d : Datum) : Bool :=
  match t, d with
  | .scalar .null, _ => true
  | _, .scalar .null => false
  | _, _ => true

def resolveDocuments (names : Names) : List (Option Tree) → Option Stream
  | [] => some ⟨[], names⟩
  | none :: rest => resolveDocuments names rest
  | some t :: rest => do
    let (d, names) ← resolve names t
    let stream ← resolveDocuments names rest
    return if holdsSomething t d then { stream with documents := t :: stream.documents } else stream

/-- Reads a stream. -/
def readStream (cs : List Char) : Option Stream := do resolveDocuments [] (← documents? cs)

end NodePath.Yaml
