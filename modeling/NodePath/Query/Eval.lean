import NodePath.Dump.Query
import NodePath.Query.PatternReader
import NodePath.Query.Reader

/-!
# Asking queries

The values a query selects, in order. The fields of a record are taken by name. Values of different
types are never ordered, and nothing is equal to nothing only.
-/

namespace NodePath

open NodePath.Text

mutual

/-- Whether two values are the same in every part. -/
def Value.same : Value → Value → Bool
  | .text a, .text b => a = b
  | .flag a, .flag b => a = b
  | .list as, .list bs => sameValues as bs
  | .record as, .record bs => sameFields as bs
  | _, _ => false

def sameValues : List Value → List Value → Bool
  | [], [] => true
  | a :: as, b :: bs => a.same b && sameValues as bs
  | _, _ => false

def sameFields : List (Bytes × Value) → List (Bytes × Value) → Bool
  | [], [] => true
  | (m, a) :: as, (n, b) :: bs => m = n && a.same b && sameFields as bs
  | _, _ => false

end

namespace Value

/-- The values right below a value. -/
def children : Value → List Value
  | .list items => items
  | .record fields => fields.map (·.2)
  | _ => []

end Value

mutual

/-- A value and all values below it, each before those below it. -/
def Value.withDescendants : Value → List Value
  | .list items => .list items :: itemsDescendants items
  | .record fields => .record fields :: fieldsDescendants fields
  | v => [v]

def itemsDescendants : List Value → List Value
  | [] => []
  | v :: rest => v.withDescendants ++ itemsDescendants rest

def fieldsDescendants : List (Bytes × Value) → List Value
  | [] => []
  | (_, v) :: rest => v.withDescendants ++ fieldsDescendants rest

end

namespace Query

open NodePath.Number

/-- What an operand may stand for. -/
inductive Datum where
  | plain (v : Value)
  | number (x : Binary64)
  | null

/-- A key by which finite numbers are ordered; both zeros have the same. -/
def numberKey (x : Binary64) : Int := if x.isNegative then -(x.magnitude : Int) else x.magnitude

namespace Datum

def ofNat (n : Nat) : Datum := .number (.ofInt n)

def same : Datum → Datum → Bool
  | .plain v, .plain w => v.same w
  | .number x, .number y => numberKey x = numberKey y
  | .null, .null => true
  | _, _ => false

def less : Datum → Datum → Bool
  | .plain (.text a), .plain (.text b) => precedes a b
  | .number x, .number y => numberKey x < numberKey y
  | _, _ => false

def sameType : Datum → Datum → Bool
  | .plain (.text _), .plain (.text _) => true
  | .plain (.flag _), .plain (.flag _) => true
  | .plain (.list _), .plain (.list _) => true
  | .plain (.record _), .plain (.record _) => true
  | .number _, .number _ => true
  | .null, .null => true
  | _, _ => false

end Datum

/-- Lifts a relation to operands of which one, or both, may stand for nothing. -/
def relate (nothing : Bool) (r : Datum → Datum → Bool) : Option Datum → Option Datum → Bool
  | none, none => nothing
  | some a, some b => r a b
  | _, _ => false

def CompareOp.holds (op : CompareOp) (a b : Option Datum) : Bool :=
  let equal := relate true Datum.same a b
  let less := relate false Datum.less a b
  let comparable := relate true Datum.sameType a b
  match op with
  | .equal => equal
  | .notEqual => !equal
  | .less => comparable && less
  | .lessEqual => comparable && (less || equal)
  | .greater => comparable && !less && !equal
  | .greaterEqual => comparable && !less

def Literal.datum : Literal → Datum
  | .text s => .plain (.text s)
  | .number x => .number x
  | .flag b => .plain (.flag b)
  | .null => .null

/-- The length of a text in glyphs, or of a list or record in entries. -/
def lengthOf : Datum → Option Nat
  | .plain (.text s) => some (glyphs s).length
  | .plain (.list items) => some items.length
  | .plain (.record fields) => some fields.length
  | _ => none

/-- The text of an operand that stands for one. -/
def textOf : Option Datum → Option Bytes
  | some (.plain (.text s)) => some s
  | _ => none

/-- The pattern that a text denotes; a text with stray bytes denotes none. An anchored one has to fit the
whole of what it is matched with. -/
def patternOf? (anchored : Bool) (text : Bytes) : Option Pattern :=
  if !isWellFormed text then none
  else if anchored then Pattern.ofText? ("\\A".toList ++ chars text ++ "\\z".toList)
  else Pattern.ofText? (chars text)

/-- Whether a pattern occurs in a text; what is no text or no pattern does not match. -/
def patternOccurs (anchored : Bool) (text pattern : Option Datum) : Bool :=
  match textOf text, textOf pattern with
  | some text, some pattern =>
    (patternOf? anchored pattern).any fun p => p.occurs ((glyphs text).map Glyph.shown)
  | _, _ => false

/-- The position that an index means in a list of a length. -/
def normalized (length : Nat) (i : Int) : Int := if 0 ≤ i then i else length + i

def itemAt (items : List Value) (i : Int) : List Value :=
  let k := normalized items.length i
  if 0 ≤ k then items[k.toNat]?.toList else []

def clampTo (low high i : Int) : Int := min (max i low) high

/-- The items of a slice: every `step`-th one from the first bound on, in the direction of `step`. -/
def sliceOf (items : List Value) (start stop step : Option Int) : List Value :=
  let n : Int := items.length
  let step := step.getD 1
  let indexed := items.zipIdx
  if 0 < step then
    let low := clampTo 0 n (normalized items.length (start.getD 0))
    let high := clampTo 0 n (normalized items.length (stop.getD n))
    (indexed.filter fun (_, i) => low ≤ i && (i : Int) < high && ((i : Int) - low) % step = 0).map (·.1)
  else if step < 0 then
    let high := clampTo (-1) (n - 1) (normalized items.length (start.getD (n - 1)))
    let low := match stop with
      | none => -1
      | some stop => clampTo (-1) (n - 1) (normalized items.length stop)
    (indexed.reverse.filter fun (_, i) =>
      low < (i : Int) && (i : Int) ≤ high && (high - i) % (-step) = 0).map (·.1)
  else []

/-- The only value of a list. -/
def only : List Value → Option Datum
  | [v] => some (.plain v)
  | _ => none

mutual

/-- The values that one selector selects of a value. -/
def Selector.select (root current : Value) : Selector → List Value
  | .name s =>
    match current with
    | .record fields => (Table.get? fields s).toList
    | _ => []
  | .wildcard => current.children
  | .index i =>
    match current with
    | .list items => itemAt items i
    | _ => []
  | .slice start stop step =>
    match current with
    | .list items => sliceOf items start stop step
    | _ => []
  | .filter c => current.children.filter fun v => c.holds root v

def selectAll (root current : Value) : List Selector → List Value
  | [] => []
  | s :: rest => s.select root current ++ selectAll root current rest

/-- The values that a segment selects of some values. -/
def Segment.select (root : Value) (values : List Value) : Segment → List Value
  | .mk descendant selectors =>
    let places := if descendant then values.flatMap Value.withDescendants else values
    places.flatMap fun v => selectAll root v selectors

def selectPath (root : Value) (values : List Value) : List Segment → List Value
  | [] => values
  | s :: rest => selectPath root (s.select root values) rest

def Condition.holds (root current : Value) : Condition → Bool
  | .or a b => a.holds root current || b.holds root current
  | .and a b => a.holds root current && b.holds root current
  | .not a => !a.holds root current
  | .found rooted segments =>
    !(selectPath root [if rooted then root else current] segments).isEmpty
  | .compare op a b => op.holds (a.eval root current) (b.eval root current)
  | .matches text pattern => patternOccurs true (text.eval root current) (pattern.eval root current)
  | .search text pattern => patternOccurs false (text.eval root current) (pattern.eval root current)

def Operand.eval (root current : Value) : Operand → Option Datum
  | .literal l => some l.datum
  | .query rooted segments => only (selectPath root [if rooted then root else current] segments)
  | .length operand => (operand.eval root current).bind fun d => (lengthOf d).map Datum.ofNat
  | .count rooted segments =>
    some (.ofNat (selectPath root [if rooted then root else current] segments).length)
  | .value rooted segments => only (selectPath root [if rooted then root else current] segments)

end

/-- The language of these queries. -/
def language : QueryLanguage := fun query =>
  match ofText? query with
  | none => .error (utf8 "not a path query")
  | some segments => .ok fun _ r => selectPath (.record r) [.record r] segments

end Query

/-- The values that a query selects of a record, in a fixed order. -/
def Record.query (r : Record) (query : Bytes) : Except QueryError (List Value) :=
  r.ask Query.language 0 query

end NodePath
