import NodePath.Yaml.Lexer

/-!
# Phrases

Neighbouring tokens belong together: an anchor and its name, a tag and the scalar behind it, a key and its
colon, a key and the scalar on its line. A phrase is such a group or a single token. Where a phrase stands
is told by its first token.
-/

namespace NodePath.Yaml

inductive Bond where
  /-- The header of a block and its text. -/
  | block
  /-- An anchor and its name. -/
  | anchorName
  /-- A named anchor and the scalar it stands for. -/
  | anchored
  | alias
  /-- A tag and the scalar behind it. -/
  | tagged
  | key
  /-- A key and the scalar on its line. -/
  | pair
  /-- A directive and its words. -/
  | directive
deriving DecidableEq, Repr

inductive Phrase where
  | single (t : Token)
  | group (bond : Bond) (head : Phrase) (parts : List Phrase)
deriving Repr

namespace Phrase

def lead : Phrase → Token
  | .single t => t
  | .group _ head _ => head.lead

def bond? : Phrase → Option Bond
  | .single _ => none
  | .group bond _ _ => some bond

def mark (p : Phrase) : Mark := p.lead.mark

def line (p : Phrase) : Nat := p.lead.line

def column (p : Phrase) : Int := p.lead.column

def isKey (p : Phrase) : Bool := p.bond? = some .key || p.bond? = some .pair

/-- Whether a phrase belongs to a map: it has a key, or it is a bracket of a map. -/
def isMapSign : Phrase → Bool
  | .single t => t.mark = .openMap || t.mark = .closeMap
  | p => p.isKey

def isScalar (p : Phrase) : Bool :=
  !p.isKey &&
    match p.mark with
    | .anchor | .alias | .literal | .folded | .plain | .text | .quotation => true
    | _ => false

/-- Whether a phrase can stand before a colon. -/
def canBeKey (p : Phrase) : Bool :=
  match p.mark with
  | .directive | .documentStart | .documentEnd | .comma | .openMap | .closeMap | .openList
  | .closeList | .colon | .item => false
  | _ => true

/-- The text by which a key is told from the other keys of its map. -/
def label : Phrase → List Char
  | .single t => t.value
  | .group bond head parts =>
    match bond, parts with
    | .alias, _ => []
    | .anchored, value :: _ => value.label
    | .tagged, value :: _ => value.label
    | .key, value :: _ =>
      if head.lead.mark = .explicitKey && head.bond?.isNone then value.label else head.label
    | _, _ => head.label

end Phrase

open Phrase

/-- What becomes of two neighbours. -/
inductive Joint where
  | apart
  | joined (p : Phrase)
  | fault
deriving Repr

/-- Joins neighbours from left to right. A phrase at the end that is open lacks its partner. -/
def joinNeighbours (isOpen : Phrase → Bool) (join : Phrase → Phrase → Joint) :
    List Phrase → Option (List Phrase)
  | [] => some []
  | [p] => if isOpen p then none else some [p]
  | p :: next :: rest =>
    match join p next with
    | .apart => (joinNeighbours isOpen join (next :: rest)).map (p :: ·)
    | .joined q => (joinNeighbours isOpen join rest).map (q :: ·)
    | .fault => none

/-- Joins the headers of blocks with their texts. -/
def joinBlock (p next : Phrase) : Joint :=
  if p.mark = .literal || p.mark = .folded then .joined (.group .block p [next]) else .apart

/-- Joins anchors and aliases with their names. -/
def joinName (p next : Phrase) : Joint :=
  if p.mark = .anchor then .joined (.group .anchorName p [next])
  else if p.mark = .alias then .joined (.group .alias p [next])
  else .apart

def isSign (mark : Mark) (p : Phrase) : Bool := p.bond?.isNone && p.mark = mark

def lacksName (p : Phrase) : Bool := isSign .anchor p || isSign .alias p

/-- Joins named anchors with scalars on their lines. No alias, other anchor or list stands there. -/
def joinAnchored (p next : Phrase) : Joint :=
  if p.bond? = some .anchorName && p.line = next.line then
    match next.mark with
    | .item | .anchor | .alias => .fault
    | _ => if next.isScalar then .joined (.group .anchored p [next]) else .apart
  else .apart

def lacksValue (p : Phrase) : Bool := p.bond? = some .anchorName

/-- Joins tags with the scalars on their lines. A tag with one exclamation mark may stand before any sign but
an opening bracket, a closing one of a map, or a hyphen. -/
def joinTag (p next : Phrase) : Joint :=
  let joined := Joint.joined (.group .tagged p [next])
  if !isSign .tag p || p.line ≠ next.line || next.bond? = some .anchorName then .apart
  else if "!!".toList.isPrefixOf p.lead.value then
    match Tag.ofText p.lead.value with
    | .merge => if next.mark = .merge then joined else .fault
    | tag => if tag.isScalar && next.isScalar then joined else .apart
  else
    match next.mark with
    | .openMap | .closeMap | .openList | .item => .apart
    | _ => joined

/-- Joins named anchors with tagged scalars on their lines. -/
def joinTaggedName (p next : Phrase) : Joint :=
  if p.bond? = some .anchorName && p.line = next.line && next.bond? = some .tagged then
    .joined (.group .anchored p [next])
  else .apart

/-- Joins the sign of an explicit key with the key. -/
def joinExplicitKey (p next : Phrase) : Joint :=
  if isSign .explicitKey p then .joined (.group .key p [next]) else .apart

/-- Joins keys with the scalars on their lines. -/
def joinPair (p next : Phrase) : Joint :=
  if p.bond? = some .key && p.line = next.line && next.bond? ≠ some .anchorName &&
      (next.isScalar || next.bond? = some .tagged) then
    .joined (.group .pair p [next])
  else .apart

/-- Joins keys with their colons; `before` are the phrases already joined, the last one first, and
`fresh` says that the last one has no colon yet. -/
def joinColons (before : List Phrase) (fresh : Bool) : List Phrase → Option (List Phrase)
  | [] => some before.reverse
  | p :: rest =>
    if p.mark = .colon then
      match before with
      | [] => none
      | key :: others =>
        if fresh && key.canBeKey then joinColons (group .key key [p] :: others) false rest else none
    else joinColons (p :: before) true rest

/-- Joins directives with the words on their lines, the first of which is their name; `words` are those read
so far, the last one first. A document begins after a directive. -/
def joinDirectives (directive : Option Phrase) (words : List Phrase) :
    List Phrase → Option (List Phrase)
  | [] => if directive.isSome then none else some []
  | p :: rest =>
    match directive with
    | some d =>
      if words.isEmpty || p.line = d.line then joinDirectives directive (p :: words) rest
      else if p.mark = .documentStart then
        (joinDirectives none [] rest).map fun ps => group .directive d words.reverse :: p :: ps
      else none
    | none =>
      if p.mark = .directive then joinDirectives (some p) [] rest
      else (joinDirectives none [] rest).map (p :: ·)

/-- The phrases of a stream. -/
def phrases? (ts : List Token) : Option (List Phrase) := do
  let blocks ← joinNeighbours (fun _ => false) joinBlock (ts.map .single)
  let named ← joinNeighbours lacksName joinName blocks
  let anchored ← joinNeighbours lacksValue joinAnchored named
  let tagged ← joinNeighbours (fun _ => false) joinTag anchored
  let tagged ← joinNeighbours lacksValue joinTaggedName tagged
  let keyed ← joinNeighbours (isSign .explicitKey) joinExplicitKey tagged
  let keyed ← joinColons [] false keyed
  let paired ← joinNeighbours (fun _ => false) joinPair keyed
  joinDirectives none [] paired

/-- Whether a phrase may not follow the beginning of a document on its line. -/
def Phrase.needsLine (p : Phrase) : Bool := p.isKey || p.mark = .item

/-- The documents of a stream, with their markers; `before` are the phrases of the current one, the last one
first. After two beginnings in a row nothing is read. -/
def documentsFrom (before : List Phrase) : List Phrase → Option (List (List Phrase))
  | [] => some [before.reverse]
  | p :: rest =>
    if p.mark = .documentStart then
      let earlier := if before.isEmpty then [] else [before.reverse]
      match rest with
      | [] => some (earlier ++ [[p]])
      | next :: _ =>
        if next.mark = .documentStart then some (earlier ++ [[p]])
        else if p.line = next.line && next.needsLine then none
        else
          (documentsFrom [] rest).map fun
            | [] => earlier ++ [[p]]
            | document :: documents => earlier ++ (p :: document) :: documents
    else if p.mark = .documentEnd then
      let earlier := if before.isEmpty then [] else [(p :: before).reverse]
      match rest with
      | [] => some earlier
      | next :: _ => if next.isScalar then none else (documentsFrom [] rest).map (earlier ++ ·)
    else documentsFrom (p :: before) rest

end NodePath.Yaml
