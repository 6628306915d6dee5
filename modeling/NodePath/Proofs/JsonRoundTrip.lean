import NodePath.Proofs.JsonReader
import NodePath.Proofs.Tables

/-!
# What is written as JSON is read back

A value is written piece by piece; the pieces are cut into the tokens of the value, and these are
read as the value again. This holds of every value whose texts and names encode characters and whose
records are tables: a stray byte would come back as the replacement character, and fields in another
order would come back as a table.
-/

namespace NodePath

open NodePath.Text

/-- Texts and names encode characters, and records are tables. -/
inductive Value.Proper : Value → Prop
  | text {s : Bytes} (h : isWellFormed s = true) : Proper (.text s)
  | flag (b : Bool) : Proper (.flag b)
  | list {items : List Value} (h : ∀ item ∈ items, Proper item) : Proper (.list items)
  | record {fields : Record} (ascending : fields.Ascending)
      (names : ∀ field ∈ fields, isWellFormed field.1 = true)
      (values : ∀ field ∈ fields, Proper field.2) : Proper (.record fields)

section Tokens

mutual

/-- The tokens that a value is written with. -/
def Value.tokens : Value → List JsonToken
  | .text s => [.text s]
  | .flag b => [.flag b]
  | .list items => .openList :: (itemTokens items ++ [.closeList])
  | .record fields => .openRecord :: (fieldTokens fields ++ [.closeRecord])

def itemTokens : List Value → List JsonToken
  | [] => []
  | item :: rest => item.tokens ++ (if rest.isEmpty then [] else .comma :: itemTokens rest)

def fieldTokens : List (Bytes × Value) → List JsonToken
  | [] => []
  | (name, value) :: rest =>
    .text name :: .colon :: (value.tokens ++
      (if rest.isEmpty then [] else .comma :: fieldTokens rest))

end

theorem lexes_break (level : Nat) : Lexes (jsonBreak level) [] := by
  have htext : jsonBreak level =
      ('\n' :: List.replicate (2 * level) ' ').flatMap encode := by
    rw [List.flatMap_cons, List.flatMap_replicate]
    show _ :: _ = newline :: (List.replicate (2 * level) [ascii ' ']).flatten
    rw [List.flatten_replicate_singleton]
  rw [htext]
  refine lexes_blanks fun c hc => ?_
  rcases List.mem_cons.mp hc with rfl | hc
  · rfl
  · rw [List.eq_of_mem_replicate hc]
    rfl

theorem lexes_items {items : List Value} {level : Nat}
    (h : ∀ item ∈ items, Lexes (jsonValue level item).flatten item.tokens) :
    Lexes (jsonItems level items).flatten (itemTokens items) := by
  induction items with
  | nil => exact lexes_nil
  | cons item rest ih =>
    have hitem := (lexes_break level).append (h item List.mem_cons_self)
    cases rest with
    | nil => simpa [jsonItems, itemTokens] using hitem
    | cons next rest =>
      have hcomma : Lexes (utf8 ",") [.comma] := lexes_sign ',' rfl
      have hrest := ih fun other hother => h other (List.mem_cons_of_mem item hother)
      have hall := hitem.append (hcomma.append hrest)
      rw [jsonItems, itemTokens]
      simpa using hall

theorem lexes_fields {fields : List (Bytes × Value)} {level : Nat}
    (hnames : ∀ field ∈ fields, isWellFormed field.1 = true)
    (h : ∀ field ∈ fields, Lexes (jsonValue level field.2).flatten field.2.tokens) :
    Lexes (jsonFields level fields).flatten (fieldTokens fields) := by
  induction fields with
  | nil => exact lexes_nil
  | cons field rest ih =>
    obtain ⟨name, value⟩ := field
    have hname : Lexes (jsonString name) [.text name] :=
      lexes_jsonString (hnames _ List.mem_cons_self)
    have hcolon : Lexes (utf8 ": ") [.colon] := by
      have hblank : Lexes ([' '].flatMap encode) [] :=
        lexes_blanks (List.forall_mem_singleton.mpr rfl)
      exact (lexes_sign ':' rfl).append hblank
    have hfield := (lexes_break level).append
      (hname.append (hcolon.append (h _ List.mem_cons_self)))
    cases rest with
    | nil => simpa [jsonFields, fieldTokens] using hfield
    | cons next rest =>
      have hcomma : Lexes (utf8 ",") [.comma] := lexes_sign ',' rfl
      have hrest := ih (fun other hother => hnames other (List.mem_cons_of_mem _ hother))
        fun other hother => h other (List.mem_cons_of_mem _ hother)
      have hall := hfield.append (hcomma.append hrest)
      rw [jsonFields, fieldTokens]
      simpa using hall

/-- The text of a value is cut into its tokens. -/
theorem lexes_value {v : Value} (h : v.Proper) (level : Nat) :
    Lexes (jsonValue level v).flatten v.tokens := by
  induction h generalizing level with
  | text hs =>
    show Lexes [jsonString _].flatten _
    rw [List.flatten_singleton]
    exact lexes_jsonString hs
  | flag b =>
    show Lexes [utf8 _].flatten _
    rw [List.flatten_singleton]
    exact lexes_flag b
  | @list items hitems ih =>
    have hopen : Lexes (utf8 "[") [.openList] := lexes_sign '[' rfl
    have hclose : Lexes (utf8 "]") [.closeList] := lexes_sign ']' rfl
    cases items with
    | nil => exact hopen.append hclose
    | cons item items =>
      have hbody := lexes_items fun other hother => ih other hother (level + 1)
      have hall := hopen.append (hbody.append ((lexes_break level).append hclose))
      rw [jsonValue, Value.tokens]
      simpa using hall
  | @record fields hascending hnames hvalues ih =>
    have hopen : Lexes (utf8 "\x7b") [.openRecord] := lexes_sign '\x7b' rfl
    have hclose : Lexes (utf8 "\x7d") [.closeRecord] := lexes_sign '\x7d' rfl
    cases fields with
    | nil => exact hopen.append hclose
    | cons field fields =>
      have hbody := lexes_fields hnames fun other hother => ih other hother (level + 1)
      have hall := hopen.append (hbody.append ((lexes_break level).append hclose))
      rw [jsonValue, Value.tokens]
      simpa using hall

end Tokens

section Reading

mutual

/-- A value as JSON has it. -/
def Value.toJson : Value → Json
  | .text s => .text s
  | .flag b => .flag b
  | .list items => .list (itemsToJson items)
  | .record fields => .record (fieldsToJson fields)

def itemsToJson : List Value → List Json
  | [] => []
  | item :: rest => item.toJson :: itemsToJson rest

def fieldsToJson : List (Bytes × Value) → List (Bytes × Json)
  | [] => []
  | (name, value) :: rest => (name, value.toJson) :: fieldsToJson rest

end

mutual

/-- JSON tells values apart. -/
theorem Value.toJson_inj {v w : Value} (h : v.toJson = w.toJson) : v = w := by
  cases v <;> cases w <;> simp only [Value.toJson, reduceCtorEq] at h
  · exact congrArg _ (Json.text.inj h)
  · exact congrArg _ (Json.flag.inj h)
  · exact congrArg _ (itemsToJson_inj (Json.list.inj h))
  · exact congrArg _ (fieldsToJson_inj (Json.record.inj h))

theorem itemsToJson_inj {items items' : List Value} (h : itemsToJson items = itemsToJson items') :
    items = items' := by
  match items, items' with
  | [], [] => rfl
  | item :: rest, item' :: rest' =>
    obtain ⟨hitem, hrest⟩ := List.cons.inj h
    rw [Value.toJson_inj hitem, itemsToJson_inj hrest]

theorem fieldsToJson_inj {fields fields' : List (Bytes × Value)}
    (h : fieldsToJson fields = fieldsToJson fields') : fields = fields' := by
  match fields, fields' with
  | [], [] => rfl
  | (name, value) :: rest, (name', value') :: rest' =>
    obtain ⟨hfield, hrest⟩ := List.cons.inj h
    obtain ⟨rfl, hvalue⟩ := Prod.mk.inj hfield
    rw [Value.toJson_inj hvalue, fieldsToJson_inj hrest]

end

theorem fieldsToJson_names (fields : List (Bytes × Value)) :
    (fieldsToJson fields).map Prod.fst = fields.map Prod.fst := by
  induction fields with
  | nil => rfl
  | cons field rest ih => exact congrArg (field.1 :: ·) ih

/-- Tokens are read as a value, whatever stands behind them. -/
def Reads (ts : List JsonToken) (j : Json) : Prop :=
  ∀ rest, ∃ h, readJson (ts ++ rest) = some (j, ⟨rest, h⟩)

/-- No value begins with a closing bracket. -/
theorem Value.tokens_opening (v : Value) : ∃ t ts, v.tokens = t :: ts ∧ t ≠ .closeList := by
  cases v <;> exact ⟨_, _, by rw [Value.tokens], JsonToken.noConfusion⟩

theorem reads_items {item : Value} {items : List Value}
    (h : ∀ other ∈ item :: items, Reads other.tokens other.toJson) (rest : List JsonToken) :
    ∃ hless, readJsonItems (itemTokens (item :: items) ++ .closeList :: rest) =
      some (itemsToJson (item :: items), ⟨rest, hless⟩) := by
  induction items generalizing item with
  | nil =>
    obtain ⟨hless, hread⟩ := h item List.mem_cons_self (.closeList :: rest)
    have htokens : itemTokens [item] = item.tokens := List.append_nil _
    rw [htokens]
    refine ⟨Nat.lt_of_succ_lt hless, ?_⟩
    rw [readJsonItems, hread]
    rfl
  | cons next items ih =>
    obtain ⟨hrest, hreadRest⟩ := ih fun other hother => h other (List.mem_cons_of_mem item hother)
    obtain ⟨hless, hread⟩ := h item List.mem_cons_self
      (.comma :: (itemTokens (next :: items) ++ .closeList :: rest))
    have htokens : itemTokens (item :: next :: items) ++ .closeList :: rest =
        item.tokens ++ .comma :: (itemTokens (next :: items) ++ .closeList :: rest) := by
      rw [itemTokens]
      exact List.append_assoc ..
    rw [htokens]
    refine ⟨Nat.lt_trans hrest (Nat.lt_of_succ_lt hless), ?_⟩
    rw [readJsonItems, hread]
    show (readJsonItems (itemTokens (next :: items) ++ .closeList :: rest) >>= fun a => _) = _
    rw [hreadRest]
    rfl

theorem reads_fields {field : Bytes × Value} {fields : List (Bytes × Value)}
    (h : ∀ other ∈ field :: fields, Reads other.2.tokens other.2.toJson)
    (rest : List JsonToken) :
    ∃ hless, readJsonFields (fieldTokens (field :: fields) ++ .closeRecord :: rest) =
      some (fieldsToJson (field :: fields), ⟨rest, hless⟩) := by
  induction fields generalizing field with
  | nil =>
    obtain ⟨name, value⟩ := field
    obtain ⟨hless, hread⟩ := h _ List.mem_cons_self (.closeRecord :: rest)
    have htokens : fieldTokens [(name, value)] ++ .closeRecord :: rest =
        .text name :: .colon :: (value.tokens ++ .closeRecord :: rest) := by
      rw [fieldTokens]
      simp
    have hafter := Nat.lt_of_succ_lt hless
    rw [htokens]
    refine ⟨Nat.lt_succ_of_lt (Nat.lt_succ_of_lt hafter), ?_⟩
    rw [readJsonFields, hread]
    rfl
  | cons next fields ih =>
    obtain ⟨name, value⟩ := field
    obtain ⟨hrest, hreadRest⟩ := ih fun other hother => h other (List.mem_cons_of_mem _ hother)
    obtain ⟨hless, hread⟩ := h _ List.mem_cons_self
      (.comma :: (fieldTokens (next :: fields) ++ .closeRecord :: rest))
    have htokens : fieldTokens ((name, value) :: next :: fields) ++ .closeRecord :: rest =
        .text name :: .colon :: (value.tokens ++ .comma ::
          (fieldTokens (next :: fields) ++ .closeRecord :: rest)) := by
      rw [fieldTokens]
      simp
    have hafter := Nat.lt_trans hrest (Nat.lt_of_succ_lt hless)
    rw [htokens]
    refine ⟨Nat.lt_succ_of_lt (Nat.lt_succ_of_lt hafter), ?_⟩
    rw [readJsonFields, hread]
    show (readJsonFields (fieldTokens (next :: fields) ++ .closeRecord :: rest) >>=
      fun a => _) = _
    rw [hreadRest]
    rfl

theorem reads_list {items : List Value} (h : ∀ item ∈ items, Reads item.tokens item.toJson) :
    Reads (Value.list items).tokens (Value.list items).toJson := by
  intro rest
  rw [Value.tokens, Value.toJson, List.cons_append, List.append_assoc]
  cases items with
  | nil =>
    refine ⟨Nat.lt_succ_of_lt (Nat.lt_succ_self _), ?_⟩
    show readJson (.openList :: .closeList :: rest) = _
    rw [readJson]
    rfl
  | cons item items =>
    obtain ⟨hless, hread⟩ := reads_items h rest
    -- Only a list that is not empty is read item by item.
    have hopening : ∀ after, itemTokens (item :: items) ++ .closeList :: rest =
        .closeList :: after → False := by
      obtain ⟨t, ts, htokens, ht⟩ := item.tokens_opening
      intro after hafter
      rw [itemTokens, htokens] at hafter
      exact ht (List.cons.inj hafter).1
    refine ⟨Nat.lt_succ_of_lt hless, ?_⟩
    show readJson (.openList :: (itemTokens (item :: items) ++ .closeList :: rest)) = _
    rw [readJson, hread]
    · rfl
    · exact hopening

theorem reads_record {fields : Record} (hascending : fields.Ascending)
    (h : ∀ field ∈ fields, Reads field.2.tokens field.2.toJson) :
    Reads (Value.record fields).tokens (Value.record fields).toJson := by
  intro rest
  rw [Value.tokens, Value.toJson, List.cons_append, List.append_assoc]
  cases fields with
  | nil =>
    refine ⟨Nat.lt_succ_of_lt (Nat.lt_succ_self _), ?_⟩
    show readJson (.openRecord :: .closeRecord :: rest) = _
    rw [readJson]
    rfl
  | cons field fields =>
    obtain ⟨hless, hread⟩ := reads_fields h rest
    have htable : Table.ofList (fieldsToJson (field :: fields)) =
        fieldsToJson (field :: fields) := by
      apply Table.Ascending.ofList_eq
      rwa [Table.Ascending, fieldsToJson_names]
    refine ⟨Nat.lt_succ_of_lt hless, ?_⟩
    show readJson (.openRecord :: (fieldTokens (field :: fields) ++ .closeRecord :: rest)) = _
    rw [readJson, hread]
    · show some (Json.record (Table.ofList _), _) = _
      rw [htable]
    · intro after hafter
      rw [fieldTokens] at hafter
      cases hafter

/-- The tokens of a value are read as the value. -/
theorem reads_value {v : Value} (h : v.Proper) : Reads v.tokens v.toJson := by
  induction h with
  | text | flag =>
    intro rest
    rw [Value.tokens, Value.toJson]
    refine ⟨Nat.lt_succ_self _, ?_⟩
    show readJson (_ :: rest) = _
    rw [readJson]
  | list _ ih => exact reads_list ih
  | record hascending _ _ ih => exact reads_record hascending ih

/-- A value that was written is read back. -/
theorem Json.ofText?_json {v : Value} (h : v.Proper) : Json.ofText? v.json = some v.toJson := by
  have htext : Lexes v.json v.tokens := by
    have hbreak := (lexes_value h 0).append (lexes_break 0)
    rwa [List.append_nil] at hbreak
  have htokens : jsonTokens (shownChars v.json) = some v.tokens := by
    have hall := htext []
    rw [List.append_nil] at hall
    have hnone : jsonTokens (shownChars []) = some [] := by
      show jsonTokens [] = some []
      rw [jsonTokens]
    rw [hall, hnone, Option.map_some, List.append_nil]
  obtain ⟨hless, hread⟩ : ∃ hless, readJson v.tokens = some (v.toJson, ⟨[], hless⟩) := by
    have hall := reads_value h []
    rwa [List.append_nil] at hall
  rw [Json.ofText?, htokens]
  simp only [Option.bind_eq_bind, Option.bind_some, hread]

theorem Json.ofText?_json_iff {v : Value} (h : v.Proper) (w : Value) :
    Json.ofText? v.json = some w.toJson ↔ w = v := by
  rw [Json.ofText?_json h, Option.some_inj]
  constructor
  · exact fun heq => (Value.toJson_inj heq).symm
  · rintro rfl
    rfl

end Reading

/-- The last sign of a value is no line break, so the text ends with one line break only. -/
theorem jsonValue_last (level : Nat) (v : Value) :
    ∃ front last, (jsonValue level v).flatten = front ++ [last] ∧ last ≠ newline := by
  cases v with
  | text s => exact ⟨_, ascii '"', List.append_nil _, by decide⟩
  | flag b =>
    cases b with
    | true => exact ⟨utf8 "tru", ascii 'e', rfl, by decide⟩
    | false => exact ⟨utf8 "fals", ascii 'e', rfl, by decide⟩
  | list items =>
    cases items with
    | nil => exact ⟨utf8 "[", ascii ']', rfl, by decide⟩
    | cons item items =>
      refine ⟨utf8 "[" ++ ((jsonItems (level + 1) (item :: items)).flatten ++ jsonBreak level),
        ascii ']', ?_, by decide⟩
      have hclose : utf8 "]" = [ascii ']'] := rfl
      rw [jsonValue, hclose]
      simp
  | record fields =>
    cases fields with
    | nil => exact ⟨utf8 "\x7b", ascii '\x7d', rfl, by decide⟩
    | cons field fields =>
      refine ⟨utf8 "\x7b" ++ ((jsonFields (level + 1) (field :: fields)).flatten ++
        jsonBreak level), ascii '\x7d', ?_, by decide⟩
      have hclose : utf8 "\x7d" = [ascii '\x7d'] := rfl
      rw [jsonValue, hclose]
      simp

end NodePath
