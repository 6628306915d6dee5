import NodePath.Dump.Outline
import NodePath.Proofs.DumpExact
import NodePath.Proofs.SingleLines

/-!
# The lines of outlines

A record below another one is found by turns: at each turn a field is entered, and where the field
is a list, one of its items. The routes of turns, in lexicographic order, list the records of a
tree, each before the records below it. An outline has one line for each of them, indented by the
length of its route, and no text in the tree can break a line in two.
-/

namespace NodePath

open NodePath.Text NodePath.Number

section Routes

/-- One turn down in a record: into a field, and into an item of it if it is a list. -/
structure Turn where
  key : Bytes
  index : Option Nat

/-- A turn is before one into a later field, and before one into a later item of the same field. -/
def Turn.Before (t u : Turn) : Prop :=
  t.key < u.key ∨ t.key = u.key ∧ ∃ i ∈ t.index, ∃ j ∈ u.index, i < j

/-- The turns from a record to one below it. -/
abbrev Route := List Turn

/-- How a turn is written before what it leads to. -/
def Turn.label (t : Turn) : Bytes :=
  match t.index with
  | none => t.key ++ utf8 ": "
  | some i => t.key ++ utf8 "[" ++ decimal i ++ utf8 "]: "

/-- The label of the last turn, or the given one at the start of a route. -/
def Route.labelAfter (label : Bytes) (route : Route) : Bytes :=
  (route.getLast?.map Turn.label).getD label

/-- The record that a value is, or the record at a place in the list that it is. -/
def Value.part? : Value → Option Nat → Option Record
  | .record r, none => some r
  | .list items, some i =>
    match items[i]? with
    | some (.record r) => some r
    | _ => none
  | _, _ => none

/-- The record that a route leads to. -/
def Record.at? (r : Record) : Route → Option Record
  | [] => some r
  | turn :: route =>
    match (Table.get? r turn.key).bind (·.part? turn.index) with
    | some below => Record.at? below route
    | none => none

/-- A route that begins one turn further up. -/
def behindTurn (turn : Turn) (place : Route × Record) : Route × Record :=
  (turn :: place.1, place.2)

mutual

/-- The records of a value with the routes to them, each before those below it. -/
def Value.places : Value → List (Route × Record)
  | .record fields => ([], fields) :: fieldPlaces fields
  | _ => []

/-- The records below a field. -/
def Value.placesUnder (key : Bytes) : Value → List (Route × Record)
  | .record fields => (([], fields) :: fieldPlaces fields).map (behindTurn ⟨key, none⟩)
  | .list items => itemPlaces key 0 items
  | _ => []

def fieldPlaces : List (Bytes × Value) → List (Route × Record)
  | [] => []
  | (key, value) :: rest => value.placesUnder key ++ fieldPlaces rest

def itemPlaces (key : Bytes) (index : Nat) : List Value → List (Route × Record)
  | [] => []
  | item :: rest =>
    item.places.map (behindTurn ⟨key, some index⟩) ++ itemPlaces key (index + 1) rest

end

theorem fieldPlaces_eq (fields : List (Bytes × Value)) :
    fieldPlaces fields = fields.flatMap fun field => field.2.placesUnder field.1 := by
  induction fields with
  | nil => rw [fieldPlaces]; rfl
  | cons field rest ih => rw [fieldPlaces, ih, List.flatMap_cons]

theorem itemPlaces_eq (key : Bytes) (index : Nat) (items : List Value) :
    itemPlaces key index items =
      (items.zipIdx index).flatMap fun p => p.1.places.map (behindTurn ⟨key, some p.2⟩) := by
  induction items generalizing index with
  | nil => rw [itemPlaces]; rfl
  | cons item rest ih => rw [itemPlaces, ih, List.zipIdx_cons, List.flatMap_cons]

end Routes

section Records

/-- The names of the fields of all records. -/
def fieldNames : List String :=
  ["abbreviated_axis", "args", "argument", "axis", "builtin", "filter", "float", "kind", "lhs",
    "match", "name", "op", "operand", "path", "predicates", "prefix", "primary", "rhs", "separator",
    "step", "steps", "test", "type", "value"]

/-- The fields of a record ascend, its kind is that of a node, and its fields have known names. -/
structure Record.Shaped (r : Record) : Prop where
  ascending : Table.Ascending r
  kind : ∃ k : NodeKind, Table.get? r (utf8 "kind") = some (.text (utf8 k.label))
  named : ∀ field ∈ r, ∃ name ∈ fieldNames, field.1 = utf8 name

/-- What trees are shown as: all records are shaped, and a list holds nothing but records. -/
inductive Value.Shown : Value → Prop where
  | text (s : Bytes) : (Value.text s).Shown
  | flag (b : Bool) : (Value.flag b).Shown
  | records {rs : List Record} : (∀ r ∈ rs, (Value.record r).Shown) → (Value.records rs).Shown
  | record {r : Record} : r.Shaped → (∀ field ∈ r, field.2.Shown) → (Value.record r).Shown

/-- The records right below a field have a property. -/
def Value.Below (P : Record → Prop) : Value → Prop
  | .text _ | .flag _ => True
  | .record r => P r
  | .list items => ∃ rs : List Record, items = rs.map .record ∧ ∀ r ∈ rs, P r

variable {P : Record → Prop} {r below : Record} {v : Value}

/-- What holds of a shaped record once it holds of the records right below it holds of all. -/
theorem Value.Shown.record_induction (h : (Value.record r).Shown)
    (hstep : ∀ r : Record, r.Shaped → (∀ field ∈ r, field.2.Below P) → P r) : P r := by
  have hall : ∀ {v : Value}, v.Shown → v.Below P := by
    intro v h
    induction h with
    | text s => trivial
    | flag b => trivial
    | records _ ih => exact ⟨_, rfl, ih⟩
    | record hshaped _ ih => exact hstep _ hshaped ih
  exact hall h

theorem part?_list {items : List Value} {index : Option Nat} :
    (Value.list items).part? index = some below ↔
      ∃ i, index = some i ∧ items[i]? = some (.record below) := by
  cases index with
  | none => simp [Value.part?]
  | some i =>
    simp only [Value.part?, Option.some.injEq, exists_eq_left']
    split <;> simp_all

theorem Value.Shown.part {index : Option Nat} (h : v.Shown) (hpart : v.part? index = some below) :
    (Value.record below).Shown := by
  cases h with
  | text s => cases index <;> cases hpart
  | flag b => cases index <;> cases hpart
  | record hshaped hfields =>
    cases index with
    | none => exact Option.some.inj hpart ▸ .record hshaped hfields
    | some i => cases hpart
  | records hrs =>
    obtain ⟨i, -, hitem⟩ := part?_list.mp hpart
    obtain ⟨r, hr, hsame⟩ := List.mem_map.mp (List.mem_of_getElem? hitem)
    exact Value.record.inj hsame ▸ hrs r hr

theorem Value.Shown.of_list {items : List Value} (h : (Value.list items).Shown) :
    ∃ rs : List Record, items = rs.map .record := by
  generalize hv : Value.list items = v at h
  cases h with
  | @records rs hrs => exact ⟨rs, Value.list.inj hv⟩
  | _ => cases hv

theorem Value.Shown.shaped (h : (Value.record r).Shown) : r.Shaped := by
  cases h
  assumption

/-- The record at the end of a route is shown as well, and all turns go into known names. -/
theorem Value.Shown.at {m : Record} {route : Route} (h : (Value.record r).Shown)
    (hat : r.at? route = some m) :
    (Value.record m).Shown ∧ ∀ turn ∈ route, ∃ name ∈ fieldNames, turn.key = utf8 name := by
  induction route generalizing r with
  | nil => exact ⟨Option.some.inj hat ▸ h, nofun⟩
  | cons turn route ih =>
    rw [Record.at?] at hat
    split at hat
    · next below hbelow =>
      obtain ⟨v, hv, hpart⟩ := Option.bind_eq_some_iff.mp hbelow
      cases h with
      | record hshaped hfields =>
        have hmem := hshaped.ascending.mem_iff.mpr hv
        obtain ⟨hm, hroute⟩ := ih ((hfields _ hmem).part hpart) hat
        exact ⟨hm, List.forall_mem_cons.mpr ⟨hshaped.named _ hmem, hroute⟩⟩
    · cases hat

end Records

section Places

variable {r m : Record} {v : Value} {key : Bytes} {turn : Turn} {route : Route}

theorem places_record (r : Record) :
    (Value.record r).places = ([], r) :: r.flatMap fun field => field.2.placesUnder field.1 := by
  rw [Value.places, fieldPlaces_eq]

theorem exists_record {place : Route × Record} (h : place ∈ v.places) : ∃ r, v = .record r := by
  cases v with
  | record r => exact ⟨r, rfl⟩
  | _ => cases h

theorem mem_behindTurn {t : Turn} {places : List (Route × Record)} :
    (turn :: route, m) ∈ places.map (behindTurn t) ↔ turn = t ∧ (route, m) ∈ places := by
  rw [List.mem_map]
  constructor
  · rintro ⟨⟨route, m⟩, hmem, heq⟩
    cases heq
    exact ⟨rfl, hmem⟩
  · rintro ⟨rfl, hmem⟩
    exact ⟨_, hmem, rfl⟩

theorem mem_placesUnder : (turn :: route, m) ∈ v.placesUnder key ↔ turn.key = key ∧
    ∃ below, v.part? turn.index = some below ∧ (route, m) ∈ (Value.record below).places := by
  obtain ⟨name, index⟩ := turn
  cases v with
  | text s => cases index <;> simp [Value.placesUnder, Value.part?]
  | flag b => cases index <;> simp [Value.placesUnder, Value.part?]
  | record r =>
    rw [Value.placesUnder, ← Value.places, mem_behindTurn, Turn.mk.injEq, and_assoc]
    cases index <;> simp [Value.part?]
  | list items =>
    rw [Value.placesUnder, itemPlaces_eq, List.mem_flatMap]
    simp only [mem_behindTurn, Turn.mk.injEq, part?_list, Prod.exists,
      List.mk_mem_zipIdx_iff_getElem?]
    constructor
    · rintro ⟨item, i, hitem, ⟨rfl, rfl⟩, hmem⟩
      obtain ⟨below, rfl⟩ := exists_record hmem
      exact ⟨rfl, below, ⟨i, rfl, hitem⟩, hmem⟩
    · rintro ⟨rfl, below, ⟨i, rfl, hitem⟩, hmem⟩
      exact ⟨.record below, i, hitem, ⟨rfl, rfl⟩, hmem⟩

/-- A route into a field begins with a turn into it. -/
theorem exists_turn {place : Route × Record} (h : place ∈ v.placesUnder key) :
    ∃ index route m, place = (⟨key, index⟩ :: route, m) := by
  obtain ⟨route, m⟩ := place
  cases route with
  | nil =>
    cases v with
    | text s => cases h
    | flag b => cases h
    | record r => simp [Value.placesUnder, behindTurn] at h
    | list items => simp [Value.placesUnder, itemPlaces_eq, behindTurn] at h
  | cons turn route =>
    obtain ⟨rfl, -⟩ := mem_placesUnder.mp h
    exact ⟨turn.index, route, m, rfl⟩

/-- The places in a record are the routes in it, with what they lead to. -/
theorem mem_places (h : (Value.record r).Shown) :
    (route, m) ∈ (Value.record r).places ↔ r.at? route = some m := by
  induction route generalizing r with
  | nil =>
    have hnone : ([], m) ∉ r.flatMap fun field => field.2.placesUnder field.1 := by
      intro hmem
      obtain ⟨field, -, hfield⟩ := List.mem_flatMap.mp hmem
      obtain ⟨index, route, m, heq⟩ := exists_turn hfield
      cases heq
    rw [places_record, List.mem_cons, or_iff_left hnone, Record.at?]
    simp [eq_comm]
  | cons turn route ih =>
    cases h with
    | record hshaped hfields =>
      rw [places_record, List.mem_cons, or_iff_right (by simp), List.mem_flatMap, Record.at?]
      simp only [mem_placesUnder]
      constructor
      · rintro ⟨⟨key, v⟩, hfield, rfl, below, hpart, hmem⟩
        have hv := hshaped.ascending.mem_iff.mp hfield
        rw [hv, Option.bind_some, hpart]
        exact (ih ((hfields _ hfield).part hpart)).mp hmem
      · intro hat
        split at hat
        · next below hbelow =>
          obtain ⟨v, hv, hpart⟩ := Option.bind_eq_some_iff.mp hbelow
          have hfield := hshaped.ascending.mem_iff.mpr hv
          exact ⟨_, hfield, rfl, below, hpart, (ih ((hfields _ hfield).part hpart)).mpr hat⟩
        · cases hat

/-- A route is before another one if it ends earlier or takes an earlier turn where they part. -/
def Earlier (a b : Route × Record) : Prop := List.Lex Turn.Before a.1 b.1

theorem pairwise_behindTurn {places : List (Route × Record)} (h : places.Pairwise Earlier)
    (t : Turn) : (places.map (behindTurn t)).Pairwise Earlier :=
  List.pairwise_map.mpr (h.imp .cons)

theorem pairwise_placesUnder
    (h : v.Below fun r => (Value.record r).places.Pairwise Earlier) (key : Bytes) :
    (v.placesUnder key).Pairwise Earlier := by
  cases v with
  | text s => exact List.Pairwise.nil
  | flag b => exact List.Pairwise.nil
  | record r => exact pairwise_behindTurn h _
  | list items =>
    obtain ⟨rs, rfl, hrs⟩ := h
    rw [Value.placesUnder, itemPlaces_eq, List.pairwise_flatMap]
    constructor
    · rintro ⟨item, i⟩ hitem
      have hget := List.mk_mem_zipIdx_iff_getElem?.mp hitem
      obtain ⟨r, hr, rfl⟩ := List.mem_map.mp (List.mem_of_getElem? hget)
      exact pairwise_behindTurn (hrs r hr) _
    · have hindices : ((rs.map Value.record).zipIdx.map Prod.snd).Pairwise (· < ·) := by
        rw [List.zipIdx_map_snd]
        exact List.pairwise_lt_range'
      refine (List.pairwise_map.mp hindices).imp ?_
      intro p q hpq a ha b hb
      obtain ⟨a, -, rfl⟩ := List.mem_map.mp ha
      obtain ⟨b, -, rfl⟩ := List.mem_map.mp hb
      exact .rel (.inr ⟨rfl, p.2, rfl, q.2, rfl, hpq⟩)

/-- The routes in a record ascend, each before those that go on from it. -/
theorem pairwise_places (h : (Value.record r).Shown) :
    (Value.record r).places.Pairwise Earlier := by
  refine h.record_induction (P := fun r => (Value.record r).places.Pairwise Earlier)
    fun r hshaped hbelow => ?_
  rw [places_record, List.pairwise_cons, List.pairwise_flatMap]
  refine ⟨?_, fun field hfield => pairwise_placesUnder (hbelow field hfield) field.1, ?_⟩
  · intro place hplace
    obtain ⟨field, -, hfield⟩ := List.mem_flatMap.mp hplace
    obtain ⟨index, route, m, rfl⟩ := exists_turn hfield
    exact .nil
  · refine (List.pairwise_map.mp hshaped.ascending).imp ?_
    intro field other hlt a ha b hb
    obtain ⟨i, route, m, rfl⟩ := exists_turn ha
    obtain ⟨j, route', m', rfl⟩ := exists_turn hb
    exact .rel (.inl hlt)

end Places

section Lines

variable {r m : Record} {v : Value} {key label : Bytes} {depth : Nat}

/-- The line of a record at a place, below a record at a depth and under a label. -/
def placeLine (depth : Nat) (label : Bytes) (place : Route × Record) : Bytes :=
  outlineLine (depth + place.1.length) (Route.labelAfter label place.1) place.2

theorem placeLine_behindTurn (turn : Turn) :
    placeLine depth label ∘ behindTurn turn = placeLine (depth + 1) turn.label := by
  funext ⟨route, m⟩
  have hlabel : Route.labelAfter label (turn :: route) = Route.labelAfter turn.label route := by
    rw [Route.labelAfter, List.getLast?_cons]
    cases hlast : route.getLast? <;> simp [Route.labelAfter, hlast]
  rw [Function.comp_apply, placeLine, behindTurn, hlabel, placeLine, List.length_cons,
    Nat.add_right_comm, Nat.add_assoc]

/-- The lines of a value in a field. -/
def Value.outlineUnder (depth : Nat) (key : Bytes) : Value → Except DumpFault (List Bytes)
  | .record fields => outlineValue depth (key ++ utf8 ": ") (.record fields)
  | .list items => outlineItems depth key 0 items
  | _ => .ok []

theorem outlineFields_cons (rest : List (Bytes × Value)) :
    outlineFields depth ((key, v) :: rest) = (do
      let first ← v.outlineUnder depth key
      let others ← outlineFields depth rest
      return first ++ others) := by
  cases v <;> simp [outlineFields, Value.outlineUnder]

/-- The lines that a record should have. -/
def Outlines (r : Record) : Prop :=
  ∀ depth label, outlineValue depth label (.record r) =
    .ok ((Value.record r).places.map (placeLine depth label))

theorem outlineItems_eq {rs : List Record} (h : ∀ r ∈ rs, Outlines r) (index : Nat) :
    outlineItems (depth + 1) key index (rs.map .record) =
      .ok ((itemPlaces key index (rs.map .record)).map (placeLine depth label)) := by
  induction rs generalizing index with
  | nil => rw [List.map_nil, outlineItems, itemPlaces]; rfl
  | cons r rs ih =>
    rw [List.map_cons, outlineItems, itemPlaces, h r List.mem_cons_self,
      ih fun r hr => h r (List.mem_cons_of_mem _ hr), List.map_append, List.map_map,
      placeLine_behindTurn]
    rfl

theorem outlineUnder_eq (h : v.Below Outlines) (key : Bytes) :
    v.outlineUnder (depth + 1) key = .ok ((v.placesUnder key).map (placeLine depth label)) := by
  cases v with
  | text s => rfl
  | flag b => rfl
  | record r =>
    rw [Value.outlineUnder, h, Value.placesUnder, ← Value.places, List.map_map,
      placeLine_behindTurn]
    rfl
  | list items =>
    obtain ⟨rs, rfl, hrs⟩ := h
    exact outlineItems_eq hrs 0

theorem outlineFields_eq {fields : List (Bytes × Value)}
    (h : ∀ field ∈ fields, field.2.Below Outlines) :
    outlineFields (depth + 1) fields = .ok ((fieldPlaces fields).map (placeLine depth label)) := by
  induction fields with
  | nil => rw [outlineFields, fieldPlaces]; rfl
  | cons field rest ih =>
    rw [outlineFields_cons, fieldPlaces, outlineUnder_eq (h field List.mem_cons_self),
      ih fun f hf => h f (List.mem_cons_of_mem _ hf), List.map_append]
    rfl

/-- The outline of a record goes through its places. -/
theorem outlines (h : (Value.record r).Shown) : Outlines r := by
  refine h.record_induction fun r _ hbelow depth label => ?_
  rw [outlineValue, outlineFields_eq hbelow, Value.places]
  rfl

/-- How the value of a plain field is written. -/
def Value.plain? : Value → Option Bytes
  | .text s => some (quoted s)
  | .flag b => some (utf8 (if b then "true" else "false"))
  | _ => none

/-- A field that is written behind the kind, with its value as it is written. -/
def plainField? : Bytes × Value → Option (Bytes × Bytes)
  | (key, .text s) => if key = utf8 "kind" then none else some (key, quoted s)
  | (key, .flag b) => some (key, utf8 (if b then "true" else "false"))
  | _ => none

def fieldText (field : Bytes × Bytes) : Bytes := utf8 " " ++ field.1 ++ utf8 "=" ++ field.2

/-- A line shows a record at the end of a route: two blanks for each turn, the last turn, the kind,
and the plain fields in the order of their names. It is printable throughout, and no more blanks
stand at its start. -/
def ShowsRecord (route : Route) (m : Record) (line : Bytes) : Prop :=
  ∃ (k : NodeKind) (plain : List (Bytes × Bytes)),
    Table.get? m (utf8 "kind") = some (.text (utf8 k.label)) ∧
    plain.Pairwise (fun a b => a.1 < b.1) ∧
    (∀ key shown, (key, shown) ∈ plain ↔
      key ≠ utf8 "kind" ∧ ∃ v, Table.get? m key = some v ∧ v.plain? = some shown) ∧
    line = List.replicate (2 * route.length) (ascii ' ') ++
      (Route.labelAfter [] route ++ utf8 k.label) ++ plain.flatMap fieldText ∧
    (Route.labelAfter [] route ++ utf8 k.label).head? ≠ some (ascii ' ') ∧ Printed line

theorem outlineField_eq (field : Bytes × Value) :
    outlineField field = (plainField? field).toList.flatMap fieldText := by
  obtain ⟨key, v⟩ := field
  cases v with
  | text s =>
    rw [outlineField, plainField?]
    split <;> simp [fieldText]
  | flag b => cases b <;> simp [outlineField, plainField?, fieldText, utf8]
  | _ => rfl

theorem flatMap_outlineField (r : Record) :
    r.flatMap outlineField = (r.filterMap plainField?).flatMap fieldText := by
  induction r with
  | nil => rfl
  | cons field rest ih =>
    rw [List.flatMap_cons, ih, outlineField_eq, List.filterMap_cons]
    cases plainField? field <;> simp

theorem mem_plainFields (h : r.Shaped) {shown : Bytes} :
    (key, shown) ∈ r.filterMap plainField? ↔
      key ≠ utf8 "kind" ∧ ∃ v, Table.get? r key = some v ∧ v.plain? = some shown := by
  obtain ⟨k, hk⟩ := h.kind
  rw [List.mem_filterMap]
  constructor
  · rintro ⟨⟨name, v⟩, hfield, hplain⟩
    have hv := h.ascending.mem_iff.mp hfield
    cases v with
    | text s =>
      rw [plainField?] at hplain
      split at hplain
      · cases hplain
      · next hname =>
        cases hplain
        exact ⟨hname, _, hv, rfl⟩
    | flag b =>
      cases hplain
      refine ⟨?_, _, hv, rfl⟩
      rintro rfl
      cases hk.symm.trans hv
    | _ => cases hplain
  · rintro ⟨hkey, v, hv, hshown⟩
    refine ⟨(key, v), h.ascending.mem_iff.mpr hv, ?_⟩
    cases v with
    | text s =>
      obtain rfl : quoted s = shown := Option.some.inj hshown
      rw [plainField?, if_neg hkey]
    | flag b =>
      obtain rfl : utf8 (if b then "true" else "false") = shown := Option.some.inj hshown
      rfl
    | _ => cases hshown

theorem plainField_name {field : Bytes × Value} {entry : Bytes × Bytes}
    (h : plainField? field = some entry) : field.1 = entry.1 := by
  obtain ⟨name, v⟩ := field
  cases v with
  | text s =>
    rw [plainField?] at h
    split at h <;> cases h
    rfl
  | flag b => cases h; rfl
  | _ => cases h

theorem pairwise_plainFields (h : r.Shaped) :
    (r.filterMap plainField?).Pairwise fun a b => a.1 < b.1 := by
  refine (List.pairwise_map.mp h.ascending).filterMap plainField? ?_
  intro field other hlt entry hentry entry' hentry'
  rw [← plainField_name hentry, ← plainField_name hentry']
  exact hlt

theorem printed_plainField {field : Bytes × Value} {entry : Bytes × Bytes}
    (hname : Printed field.1) (h : plainField? field = some entry) : Printed (fieldText entry) := by
  have hshown : Printed entry.2 := by
    obtain ⟨name, v⟩ := field
    cases v with
    | text s =>
      rw [plainField?] at h
      split at h <;> cases h
      exact printed_quoted s
    | flag b =>
      cases h
      have hall : ∀ b : Bool, (utf8 (if b then "true" else "false")).all isPlainByte = true := by
        decide
      exact printed_ascii (hall b)
    | _ => cases h
  rw [plainField_name h] at hname
  have hblank : Printed (utf8 " ") := printed_ascii (by decide)
  exact ((hblank.append hname).append (printed_ascii (by decide))).append hshown

/-- A printable text that begins with no blank. -/
def StartsWord (s : Bytes) : Prop := Printed s ∧ ∃ b rest, s = b :: rest ∧ b ≠ ascii ' '

theorem StartsWord.append {s t : Bytes} (hs : StartsWord s) (ht : Printed t) :
    StartsWord (s ++ t) := by
  obtain ⟨hprinted, b, rest, rfl, hb⟩ := hs
  exact ⟨hprinted.append ht, b, rest ++ t, rfl, hb⟩

theorem startsWord_fieldName {name : String} (h : name ∈ fieldNames) : StartsWord (utf8 name) := by
  have hall : ∀ name ∈ fieldNames, (utf8 name).all isPlainByte = true ∧ utf8 name ≠ [] ∧
      (utf8 name).head? ≠ some (ascii ' ') := by decide
  obtain ⟨hplain, hne, hhead⟩ := hall name h
  obtain ⟨b, rest, hname⟩ := List.exists_cons_of_ne_nil hne
  refine ⟨printed_ascii hplain, b, rest, hname, ?_⟩
  rintro rfl
  exact hhead (by rw [hname]; rfl)

theorem startsWord_kindLabel (k : NodeKind) : StartsWord (utf8 k.label) := by
  cases k <;> exact ⟨printed_ascii (by decide), _, _, rfl, by decide⟩

theorem startsWord_turnLabel {turn : Turn} (h : ∃ name ∈ fieldNames, turn.key = utf8 name) :
    StartsWord turn.label := by
  obtain ⟨key, index⟩ := turn
  obtain ⟨name, hname, rfl⟩ := h
  have hword := startsWord_fieldName hname
  cases index with
  | none => exact hword.append (printed_ascii (by decide))
  | some i =>
    have hbracket : Printed (utf8 "[") := printed_ascii (by decide)
    exact ((hword.append hbracket).append (printed_decimal i)).append (printed_ascii (by decide))

/-- The line of a shaped record at the end of a route of known names. -/
theorem showsRecord_placeLine {route : Route} (h : r.Shaped)
    (hroute : ∀ turn ∈ route, ∃ name ∈ fieldNames, turn.key = utf8 name) :
    ∃ line, placeLine 0 [] (route, r) = line ++ [newline] ∧ ShowsRecord route r line := by
  obtain ⟨k, hk⟩ := h.kind
  have hkind : outlineKind r = utf8 k.label := by rw [outlineKind, hk]
  have hword : StartsWord (Route.labelAfter [] route ++ utf8 k.label) := by
    cases hlast : route.getLast? with
    | none =>
      rw [Route.labelAfter, hlast]
      exact startsWord_kindLabel k
    | some turn =>
      rw [Route.labelAfter, hlast]
      have hturn := hroute turn (List.mem_of_getLast? hlast)
      exact (startsWord_turnLabel hturn).append (startsWord_kindLabel k).1
  have hplain : Printed ((r.filterMap plainField?).flatMap fieldText) := by
    refine printed_flatMap fun entry hentry => ?_
    obtain ⟨field, hfield, hshown⟩ := List.mem_filterMap.mp hentry
    obtain ⟨name, hname, hkey⟩ := h.named field hfield
    exact printed_plainField (hkey ▸ (startsWord_fieldName hname).1) hshown
  have hindent : Printed (List.replicate (2 * route.length) (ascii ' ')) := by
    refine printed_ascii (List.all_eq_true.mpr fun b hb => ?_)
    rw [(List.mem_replicate.mp hb).2]
    rfl
  refine ⟨List.replicate (2 * route.length) (ascii ' ') ++
    (Route.labelAfter [] route ++ utf8 k.label) ++ (r.filterMap plainField?).flatMap fieldText,
    ?_, k, r.filterMap plainField?, hk, pairwise_plainFields h, fun _ _ => mem_plainFields h, rfl,
    ?_, (hindent.append hword.1).append hplain⟩
  · rw [placeLine, outlineLine, hkind, flatMap_outlineField, Nat.zero_add]
    simp only [List.append_assoc]
  · obtain ⟨-, b, rest, hlabel, hb⟩ := hword
    rw [hlabel, List.head?_cons]
    exact fun hblank => hb (Option.some.inj hblank)

/-- The lines of places that are shown, without their line ends. -/
theorem exists_shownLines {places : List (Route × Record)}
    (h : ∀ place ∈ places, place.2.Shaped ∧
      ∀ turn ∈ place.1, ∃ name ∈ fieldNames, turn.key = utf8 name) :
    ∃ lines : List Bytes,
      List.Forall₂ (fun place line => ShowsRecord place.1 place.2 line) places lines ∧
      (places.map (placeLine 0 [])).flatten = lines.flatMap (· ++ [newline]) := by
  induction places with
  | nil => exact ⟨[], .nil, rfl⟩
  | cons place places ih =>
    obtain ⟨hplace, hrest⟩ := List.forall_mem_cons.mp h
    obtain ⟨lines, hlines, htext⟩ := ih hrest
    obtain ⟨line, hline, hshows⟩ := showsRecord_placeLine hplace.1 hplace.2
    refine ⟨line :: lines, .cons hshows hlines, ?_⟩
    rw [List.map_cons, List.flatten_cons, htext, hline, List.flatMap_cons]

end Lines

section Translations

/-- A field with a known name, the value of which is shown. -/
def FieldShown (field : String × Value) : Prop := field.1 ∈ fieldNames ∧ field.2.Shown

@[simp]
theorem shown_text (s : Bytes) : (Value.text s).Shown := .text s

@[simp]
theorem shown_flag (b : Bool) : (Value.flag b).Shown := .flag b

variable {fields : List (String × Value)} {rs : List Record}

/-- Fields with the kind of a node among them make a shown record, in whatever order they are
given. -/
theorem Value.Shown.ofFields {k : NodeKind}
    (hkind : Table.get? (Record.ofFields fields) (utf8 "kind") = some (.text (utf8 k.label)))
    (h : ∀ field ∈ fields, FieldShown field) : (Value.record (Record.ofFields fields)).Shown := by
  refine .record ⟨ascending_ofFields fields, ⟨k, hkind⟩, ?_⟩ ?_
  · intro entry hentry
    obtain ⟨field, hfield, rfl⟩ := mem_ofFields hentry
    exact ⟨field.1, (h field hfield).1, rfl⟩
  · intro entry hentry
    obtain ⟨field, hfield, rfl⟩ := mem_ofFields hentry
    exact (h field hfield).2

theorem pathRecord_shown (h : ∀ r ∈ rs, (Value.record r).Shown) :
    (Value.record (pathRecord rs)).Shown := by
  have hsteps : (Value.records rs).Shown := .records h
  refine .ofFields (k := .path) ?_ (by simp [FieldShown, fieldNames, kindField, hsteps])
  rw [get?_ofFields]
  rfl

theorem NameTest.shown (t : NameTest) :
    (Value.record (Record.ofFields (kindField "name_test" :: t.fields))).Shown := by
  refine .ofFields (k := .nameTest) (Test.translation_kind (.name t)) ?_
  obtain ⟨kind, space, ⟨nameSpace, name⟩⟩ := t
  cases kind with
  | qualified =>
    cases nameSpace <;> simp [NameTest.fields, FieldShown, fieldNames, kindField, textField]
  | _ => simp [NameTest.fields, FieldShown, fieldNames, kindField, textField]

theorem Test.shown (t : Test) (h : (Node.test t).Complete) :
    (Value.record t.translation).Shown := by
  cases t with
  | missing => exact absurd rfl h.kind
  | name test => exact test.shown
  | nodeType type argument =>
    have hkind := Test.translation_kind (.nodeType type argument)
    cases argument <;>
      exact .ofFields (k := .nodeTypeTest) hkind
        (by simp [FieldShown, fieldNames, kindField, textField])
  | abbreviated step =>
    exact .ofFields (k := .abbreviatedTest) (Test.translation_kind (.abbreviated step))
      (by simp [FieldShown, fieldNames, kindField, textField])

theorem separatorFields_shown (s : Separator) : ∀ field ∈ separatorFields s, FieldShown field := by
  cases s <;> simp [separatorFields, FieldShown, fieldNames, textField]

theorem axisFields_shown (axis : Option Axis) : ∀ field ∈ axisFields axis, FieldShown field := by
  cases axis with
  | none => simp [axisFields]
  | some a =>
    cases hsign : a.abbreviated <;> simp [axisFields, FieldShown, fieldNames, textField, hsign]

theorem Step.fieldOf_kind (s : Step) : fieldOf "kind" s.fields = some (.text (utf8 "step")) := by
  cases s with
  | mk axis test predicates =>
    simp [Step.fields, fieldOf, kindField, recordField, fieldOf_axisFields]

mutual

/-- A complete expression has a shown record, one case for each kind of node. -/
theorem Expr.shown : (e : Expr) → (Node.expr e).Complete → (Value.record e.translation).Shown
  | .missing, h => absurd rfl h.kind
  | .literal value, _ =>
    .ofFields (k := .literal) (Expr.translation_kind (.literal value))
      (by simp [FieldShown, fieldNames, kindField, textField])
  | .number n, _ =>
    .ofFields (k := .number) (Expr.translation_kind (.number n))
      (by simp [FieldShown, fieldNames, kindField, textField])
  | .boolean value, _ =>
    .ofFields (k := .boolean) (Expr.translation_kind (.boolean value))
      (by simp [FieldShown, fieldNames, kindField])
  | .reference name, _ =>
    .ofFields (k := .reference) (Expr.translation_kind (.reference name))
      (by simp [FieldShown, fieldNames, kindField, textField])
  | .path steps, h => pathRecord_shown (steps_shown steps h.steps)
  | .root, _ =>
    .ofFields (k := .absolutePath) (Expr.translation_kind .root)
      (by simp [FieldShown, fieldNames, kindField])
  | .absolute steps, h => by
    have hnode : (pathNode steps).Complete := h.child (List.mem_singleton.mpr rfl)
    have hpath := pathRecord_shown (steps_shown steps hnode.steps)
    exact .ofFields (k := .absolutePath) (Expr.translation_kind (.absolute steps))
      (by simp [FieldShown, fieldNames, kindField, recordField, hpath])
  | .everywhere steps, h => by
    have hnode : (pathNode steps).Complete := h.child (List.mem_singleton.mpr rfl)
    have hpath := pathRecord_shown (steps_shown steps hnode.steps)
    exact .ofFields (k := .everywherePath) (Expr.translation_kind (.everywhere steps))
      (by simp [FieldShown, fieldNames, kindField, recordField, hpath])
  | .call function args, h => by
    have hargs : (Value.records (translations args)).Shown :=
      .records (exprs_shown args fun e he => h.child (List.mem_map_of_mem he))
    refine .ofFields (k := .call) (Expr.translation_kind (.call function args)) ?_
    split <;> split <;> simp [FieldShown, fieldNames, kindField, textField, hargs]
  | .negate operand, h => by
    have hoperand := operand.shown (h.child (List.mem_singleton.mpr rfl))
    exact .ofFields (k := .negation) (Expr.translation_kind (.negate operand))
      (by simp [FieldShown, fieldNames, kindField, recordField, hoperand])
  | .binary op comparison lhs rhs, h => by
    have hlhs := lhs.shown (h.child (by simp [Node.children]))
    have hrhs := rhs.shown (h.child (by simp [Node.children]))
    exact .ofFields (k := .binary) (Expr.translation_kind (.binary op comparison lhs rhs))
      (by simp [FieldShown, fieldNames, kindField, textField, recordField, hlhs, hrhs])
  | .filter source predicates, h => by
    have hsource := source.shown (h.child List.mem_cons_self)
    have hpredicates : (Value.records (translations predicates)).Shown :=
      .records (exprs_shown predicates fun e he =>
        h.child (List.mem_cons_of_mem _ (List.mem_map_of_mem he)))
    exact .ofFields (k := .filter) (Expr.translation_kind (.filter source predicates))
      (by simp [FieldShown, fieldNames, kindField, recordField, hsource, hpredicates])
  | .continued source separator steps, h => by
    have hnode : (pathNode steps).Complete := h.child (by simp [Node.children])
    have hsource := source.shown (h.child List.mem_cons_self)
    have hpath := pathRecord_shown (steps_shown steps hnode.steps)
    have hkind := Expr.translation_kind (.continued source separator steps)
    exact .ofFields (k := .continuedPath) hkind
      (by simp [FieldShown, fieldNames, kindField, textField, recordField, hsource, hpath])
  | .rootName t, _ => by
    have htest := t.shown
    exact .ofFields (k := .rootName) (Expr.translation_kind (.rootName t))
      (by simpa [FieldShown, fieldNames, kindField, recordField] using htest)

theorem exprs_shown : (es : List Expr) → (∀ e ∈ es, (Node.expr e).Complete) →
    ∀ r ∈ translations es, (Value.record r).Shown
  | [], _ => nofun
  | e :: rest, h => List.forall_mem_cons.mpr
    ⟨e.shown (h e List.mem_cons_self),
      exprs_shown rest fun e he => h e (List.mem_cons_of_mem _ he)⟩

theorem steps_shown : (steps : List (Separator × Step)) →
    (∀ entry ∈ steps, (Node.step entry.2).Complete) →
    ∀ r ∈ stepTranslations steps, (Value.record r).Shown
  | [], _ => nofun
  | (separator, step) :: rest, h => by
    have hfields := List.forall_mem_append.mpr
      ⟨step.fields_shown (h _ List.mem_cons_self), separatorFields_shown separator⟩
    have hrest := steps_shown rest fun entry he => h entry (List.mem_cons_of_mem _ he)
    refine List.forall_mem_cons.mpr ⟨.ofFields (k := .step) ?_ hfields, hrest⟩
    rw [get?_ofFields, fieldOf_append, fieldOf_separatorFields (by decide), step.fieldOf_kind]
    rfl

theorem Step.fields_shown : (s : Step) → (Node.step s).Complete →
    ∀ field ∈ s.fields, FieldShown field
  | .mk axis test predicates, h => by
    have htest := test.shown (h.child List.mem_cons_self)
    have hpredicates : (Value.records (translations predicates)).Shown :=
      .records (exprs_shown predicates fun e he =>
        h.child (List.mem_cons_of_mem _ (List.mem_map_of_mem he)))
    have hopening : ∀ field ∈ [kindField "step", recordField "test" test.translation],
        FieldShown field := by
      simp [FieldShown, fieldNames, kindField, recordField, htest]
    rw [Step.fields]
    refine List.forall_mem_append.mpr
      ⟨List.forall_mem_append.mpr ⟨hopening, axisFields_shown axis⟩, ?_⟩
    split <;> simp [FieldShown, fieldNames, hpredicates]

end

theorem Node.shown {n : Node} (h : n.Complete) : (Value.record n.translation).Shown := by
  cases n with
  | expr e => exact e.shown h
  | test t => exact t.shown h
  | step s =>
    refine .ofFields (k := .step) ?_ (s.fields_shown h)
    rw [get?_ofFields, s.fieldOf_kind]
    rfl

/-- The outline of a complete tree goes through the places in its record. -/
theorem Node.outline_eq {n : Node} (h : n.Complete) :
    n.outline = .ok ((Value.record n.translation).places.map (placeLine 0 [])).flatten := by
  rw [Node.outline, h.dump_eq]
  show Record.outline n.translation = _
  rw [Record.outline, outlines (Node.shown h)]
  rfl

end Translations

/-- The outline of a complete tree has one line for each record that the record of the tree holds,
in the order of the routes to them: a record before those below it, fields by their names, and the
items of a list as they stand in it. -/
theorem outline_lists_records (n : Node) (h : n.Complete) :
    ∃ (r : Record) (places : List (Route × Record)) (lines : List Bytes), n.dump = .ok r ∧
      (∀ route m, (route, m) ∈ places ↔ r.at? route = some m) ∧
      places.Pairwise (fun a b => List.Lex Turn.Before a.1 b.1) ∧
      (∀ place ∈ places, ∀ key items, Table.get? place.2 key = some (.list items) →
        ∀ item ∈ items, ∃ below, item = .record below) ∧
      List.Forall₂ (fun place line => ShowsRecord place.1 place.2 line) places lines ∧
      n.outline = .ok (lines.flatMap (· ++ [newline])) := by
  have hshown := Node.shown h
  have hplaces : ∀ place ∈ (Value.record n.translation).places, (Value.record place.2).Shown ∧
      ∀ turn ∈ place.1, ∃ name ∈ fieldNames, turn.key = utf8 name :=
    fun place hplace => hshown.at ((mem_places hshown).mp hplace)
  obtain ⟨lines, hlines, htext⟩ := exists_shownLines
    fun place hplace => ⟨(hplaces place hplace).1.shaped, (hplaces place hplace).2⟩
  refine ⟨n.translation, _, lines, h.dump_eq, fun route m => mem_places hshown,
    pairwise_places hshown, ?_, hlines, ?_⟩
  · intro place hplace key items hlist item hitem
    cases (hplaces place hplace).1 with
    | record hshaped hfields =>
      obtain ⟨rs, rfl⟩ := (hfields _ (hshaped.ascending.mem_iff.mpr hlist)).of_list
      obtain ⟨below, -, rfl⟩ := List.mem_map.mp hitem
      exact ⟨below, rfl⟩
  · rw [Node.outline_eq h, htext]

/-- `a < "x"`, where the literal goes on after a line break. -/
def brokenLine : Node :=
  .expr (.binary .compare .less
    (.path [(.absent, .mk none (.name ⟨.qualified, [], ⟨[], utf8 "a"⟩⟩) [])])
    (.literal (utf8 "x\ny")))

def brokenLineOutline : Bytes :=
  utf8 "binary op=\"<\"\n  lhs: relative_path\n    steps[0]: step\n" ++
    utf8 "      test: name_test match=\"qualified\" name=\"a\"\n  rhs: literal value=\"x\\ny\"\n"

theorem outline_lists_records_brokenLine :
    brokenLine.Complete ∧ ∃ (places : List (Route × Record)) (lines : List Bytes),
      ([⟨utf8 "rhs", none⟩], (Expr.literal (utf8 "x\ny")).translation) ∈ places ∧
      List.Forall₂ (fun place line => ShowsRecord place.1 place.2 line) places lines ∧
      lines.flatMap (· ++ [newline]) = brokenLineOutline := by
  have hcomplete : brokenLine.Complete := by
    show ∀ m ∈ brokenLine.nodes, m.kind? ≠ none
    decide +kernel
  have htext : brokenLine.outline = .ok brokenLineOutline := by
    decide +kernel
  obtain ⟨r, places, lines, hdump, hplaces, -, -, hlines, houtline⟩ :=
    outline_lists_records brokenLine hcomplete
  refine ⟨hcomplete, places, lines, ?_, hlines, Except.ok.inj (houtline.symm.trans htext)⟩
  obtain rfl : brokenLine.translation = r :=
    Except.ok.inj (hcomplete.dump_eq.symm.trans hdump)
  rw [hplaces]
  rfl

end NodePath
