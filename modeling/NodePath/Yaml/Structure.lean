import NodePath.Yaml.Tree

/-!
# Trees from phrases

Structure comes from columns or from brackets. What belongs to a key stands further in than the key or in its
column, as long as it is no key itself; what belongs to a list item stands no further left than its hyphen.
-/

namespace NodePath.Yaml

/-- How a part is read. -/
structure Scope where
  /-- Whether the part stands in brackets. -/
  bracketed : Bool := false
  /-- Whether a directive gave the standard tags another meaning, so that they stand before texts. -/
  redefined : Bool := false

/-- Whether a tag on the line after an anchor stands too far left to belong to it. -/
def misplacesTag (column : Int) (anchor : Phrase) : List Phrase → Bool
  | [] => false
  | next :: _ =>
    anchor.bond? = some .anchorName && next.mark = .tag && !next.isKey && anchor.line ≠ next.line &&
      next.column ≤ column

/-- Whether a phrase is an anchor or a tag that stands no further in than a column. -/
def isStray (column : Int) (p : Phrase) : Bool :=
  p.column ≤ column && (p.bond? = some .anchorName || p.mark = .tag)

/-- Whether a phrase ends a field of a bracketed map. -/
def endsField : List Phrase → Bool
  | [] => false
  | p :: _ => p.mark = .comma || p.mark = .closeMap

/-- A field may be followed by what stands no further in, or by a sign of the brackets around it. -/
def followsPair (scope : Scope) (column : Int) : List Phrase → Bool
  | [] => true
  | p :: _ =>
    p.column ≤ column || (scope.bracketed && (p.mark = .comma || p.mark = .closeList))

mutual

/-- The part at the front. -/
def nodeAt : (fuel : Nat) → Scope → List Phrase → Option (Tree × List Phrase)
  | 0, _, _ => none
  | _, _, [] => none
  | fuel + 1, scope, p :: rest =>
    match p.bond? with
    | some .key | some .pair => do
      let (fields, rest) ← fieldsFrom fuel scope p.column [] (p :: rest)
      return (← mapOf? fields, rest)
    | some .anchorName => do
      let name ← anchorName fuel scope p
      let (value, rest) ← nodeAt fuel scope rest
      match value with
      | .anchored _ _ => none
      | value => return (.anchored name value, rest)
    | some .directive => some (.null, rest)
    | some _ => do
      let (t, _) ← scalarAt fuel scope [p]
      return (t, rest)
    | none =>
      match p.mark with
      | .tag => taggedAt fuel scope p.lead rest
      | .openMap => do
        let (fields, rest) ← bracketFields fuel { scope with bracketed := true } true [] rest
        return (← mapOf? fields, rest)
      | .openList => do
        let (items, rest) ← bracketItems fuel { scope with bracketed := true } true [] rest
        return (.list items, rest)
      | .item => do
        let (items, rest) ← itemsFrom fuel scope p.line p.column [] (p :: rest)
        return (.list items, rest)
      | _ => p.lead.tree?.map (·, rest)

/-- The name of an anchor. -/
def anchorName : (fuel : Nat) → Scope → Phrase → Option (List Char)
  | fuel + 1, scope, .group _ _ (name :: _) => (scalarAt fuel scope [name]).map fun _ => name.lead.value
  | _, _, _ => none

/-- The scalar at the front. What follows includes the scalar itself, except after an anchor or a tag. -/
def scalarAt : (fuel : Nat) → Scope → List Phrase → Option (Tree × List Phrase)
  | 0, _, _ => none
  | _, _, [] => none
  | fuel + 1, scope, p :: rest =>
    match p with
    | .single t =>
      if t.mark = .tag then do
        let (value, rest) ← taggedAt fuel scope t rest
        match value with
        | .tagged _ (.list _) | .tagged _ (.map _) => none
        | value => return (value, rest)
      else t.tree?.map (·, p :: rest)
    | .group .block _ [] => some (textTree [], p :: rest)
    | .group .block _ (text :: _) => text.text?.map (·, p :: rest)
    | .group .alias _ (name :: _) => do
      let _ ← scalarAt fuel scope [name]
      return (.alias name.lead.value, p :: rest)
    | .group .tagged head parts => do
      let (value, _) ← taggedAt fuel scope head.lead parts
      return (value, p :: rest)
    | .group .anchored head parts => do
      let name ← anchorName fuel scope head
      let (value, _) ← nodeAt fuel scope parts
      match value with
      | .anchored _ _ => none
      | value => return (.anchored name value, p :: rest)
    | .group .anchorName _ _ => do
      let name ← anchorName fuel scope p
      let (value, rest) ← nodeAt fuel scope rest
      return (.anchored name value, rest)
    | _ => none

/-- What stands behind a tag. -/
def taggedAt : (fuel : Nat) → Scope → Token → List Phrase → Option (Tree × List Phrase)
  | 0, _, _, _ => none
  | fuel + 1, scope, tag, ps =>
    match ps with
    | [] => if scope.redefined then none else some (.tagged (Tag.ofText tag.value) .null, [])
    | p :: rest =>
      if scope.redefined then some (.tagged .string (textTree p.lead.value), ps)
      else
        let kind := Tag.ofText tag.value
        match kind with
        | .map | .set =>
          if p.isMapSign then (nodeAt fuel scope ps).map fun (t, rest) => (.tagged kind t, rest)
          else none
        | .sequence | .orderedMap =>
          match p.bond?, p.mark with
          | none, .openList | none, .item =>
            (nodeAt fuel scope ps).map fun (t, rest) => (.tagged kind t, rest)
          | _, _ => some (.tagged kind (.list []), ps)
        | .merge | .other => (nodeAt fuel scope ps).map fun (t, rest) => (.tagged kind t, rest)
        | _ =>
          if p.mark = .comma || p.mark = .colon then some (.tagged kind kind.default, ps)
          else
            match scalarAt fuel scope ps with
            | none => none
            | some (t, after) =>
              some (.tagged kind t, if p.bond? = some .block then p :: rest else after.drop 1)

/-- The items of a list whose hyphens stand in a column. -/
def itemsFrom : (fuel : Nat) → Scope → (line : Nat) → (column : Int) → List Tree → List Phrase →
    Option (List Tree × List Phrase)
  | 0, _, _, _, _, _ => none
  | _, _, _, _, items, [] => some (items.reverse, [])
  | fuel + 1, scope, line, column, items, p :: rest =>
    if p.mark = .item && p.column = column then do
      let (item, rest) ← itemValue fuel scope line column rest
      itemsFrom fuel scope line column (item :: items) rest
    else some (items.reverse, p :: rest)

/-- What stands behind a hyphen; `line` is that of the first hyphen of the list. -/
def itemValue : (fuel : Nat) → Scope → (line : Nat) → (column : Int) → List Phrase →
    Option (Tree × List Phrase)
  | 0, _, _, _, _ => none
  | _, _, _, _, [] => some (.null, [])
  | fuel + 1, scope, line, column, p :: rest =>
    if p.column = column && p.mark = .item then some (.null, p :: rest)
    else if p.line = line && p.bond? = some .anchorName &&
        rest.head?.any (fun next => next.column = column && next.mark = .item) then
      (anchorName fuel scope p).map fun name => (.anchored name .null, rest)
    else if isStray column p then none
    else if p.column < column then some (.null, p :: rest)
    else if misplacesTag column p rest then none
    else nodeAt fuel scope (p :: rest)

/-- The fields of a map whose keys stand in a column. -/
def fieldsFrom : (fuel : Nat) → Scope → (column : Int) → List Field → List Phrase →
    Option (List Field × List Phrase)
  | 0, _, _, _, _ => none
  | _, _, _, fields, [] => some (fields.reverse, [])
  | fuel + 1, scope, column, fields, p :: rest =>
    if p.column ≠ column || (scope.bracketed && p.mark = .closeList) then
      some (fields.reverse, p :: rest)
    else if isSign .closeMap p then some (fields.reverse, rest)
    else do
      let (field, rest) ← blockField fuel scope p rest
      fieldsFrom fuel scope column (field :: fields) rest

/-- The field of a key at the front, with what stands behind it or below it. -/
def blockField : (fuel : Nat) → Scope → Phrase → List Phrase → Option (Field × List Phrase)
  | 0, _, _, _ => none
  | fuel + 1, scope, p, rest =>
    match p with
    | .group .pair key parts => do
      let (label, key) ← keyOf fuel scope key
      let (value, _) ← nodeAt fuel scope parts
      if followsPair scope p.column rest then return (⟨some label, key, value⟩, rest) else none
    | .group .key _ _ => do
      let (label, key) ← keyOf fuel scope p
      if rest.head?.any (fun next => next.line = p.line && next.mark = .item) then none
      else
        let (value, rest) ← fieldValue fuel scope p.line p.column rest
        return (⟨some label, key, value⟩, rest)
    | _ => none

/-- A key and its label. A key stands on one line, unless it is an explicit one. -/
def keyOf : (fuel : Nat) → Scope → Phrase → Option (List Char × Tree)
  | 0, _, _ => none
  | fuel + 1, scope, p =>
    match p with
    | .group .key (.group .key _ parts) _ => (scalarAt fuel scope parts).map fun (t, _) => (p.label, t)
    | .group .key head parts =>
      if isSign .explicitKey head then (scalarAt fuel scope parts).map fun (t, _) => (p.label, t)
      else if head.lead.isSpread (scope.bracketed && !isText head.lead) then none
      else (scalarAt fuel scope (head :: parts)).map fun (t, _) => (p.label, t)
    | _ => none
where
  isText (t : Token) : Bool :=
    t.mark = .text ||
      (t.mark = .plain &&
        match Scalar.ofPlain (bytesOfChars t.value) with
        | .text _ => true
        | _ => false)

/-- What stands behind or below a key in a column. -/
def fieldValue : (fuel : Nat) → Scope → (line : Nat) → (column : Int) → List Phrase →
    Option (Tree × List Phrase)
  | 0, _, _, _, _ => none
  | _, _, _, _, [] => some (.null, [])
  | fuel + 1, scope, line, column, p :: rest =>
    if p.column ≠ column && p.line = line && p.isKey then none
    else if p.column = column && p.isMapSign then some (.null, p :: rest)
    else if p.line = line && p.bond? = some .anchorName &&
        rest.head?.any (fun next => next.column = column && next.isMapSign) then
      (anchorName fuel scope p).map fun name => (.anchored name .null, rest)
    else if isStray column p then none
    else if p.column < column then some (.null, p :: rest)
    else if misplacesTag column p rest then none
    else nodeAt fuel scope (p :: rest)

/-- The fields up to the bracket that closes a map. -/
def bracketFields : (fuel : Nat) → Scope → (first : Bool) → List Field → List Phrase →
    Option (List Field × List Phrase)
  | 0, _, _, _, _ => none
  | _, _, _, _, [] => none
  | fuel + 1, scope, first, fields, p :: rest =>
    if isSign .closeMap p then some (fields.reverse, rest)
    else
      let separated := isSign .comma p
      if !separated && !first then none
      else
        match (if separated then rest else p :: rest) with
        | [] => none
        | p :: rest =>
          if isSign .closeMap p then some (fields.reverse, rest)
          else do
            let (field, rest) ← bracketField fuel scope p rest
            bracketFields fuel scope false (field :: fields) rest

/-- The field at the front of a bracketed part. -/
def bracketField : (fuel : Nat) → Scope → Phrase → List Phrase → Option (Field × List Phrase)
  | 0, _, _, _ => none
  | fuel + 1, scope, p, rest =>
    match p with
    | .group .pair key parts => do
      let (label, key) ← keyOf fuel scope key
      let (value, _) ← nodeAt fuel scope parts
      return (⟨some label, key, value⟩, rest)
    | .group .key _ _ => do
      let (label, key) ← keyOf fuel scope p
      if endsField rest then return (⟨some label, key, .null⟩, rest)
      else
        let (value, rest) ← nodeAt fuel scope rest
        return (⟨some label, key, value⟩, rest)
    | p =>
      if endsField rest then do
        let (key, _) ← scalarAt fuel scope [p]
        return (⟨none, key, .null⟩, rest)
      else none

/-- The items up to the bracket that closes a list. -/
def bracketItems : (fuel : Nat) → Scope → (first : Bool) → List Tree → List Phrase →
    Option (List Tree × List Phrase)
  | 0, _, _, _, _ => none
  | _, _, _, _, [] => none
  | fuel + 1, scope, first, items, p :: rest =>
    if isSign .closeList p then some (items.reverse, rest)
    else
      let separated := isSign .comma p
      if separated = first then none
      else
        match (if separated then rest else p :: rest) with
        | [] => none
        | p :: rest =>
          if isSign .closeList p then some (items.reverse, rest)
          else do
            let (item, rest) ← nodeAt fuel scope (p :: rest)
            bracketItems fuel scope false (item :: items) rest

end

end NodePath.Yaml
