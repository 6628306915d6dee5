import NodePath.Text.Table

/-!
# Plain values

Trees are shown as texts, truth values, lists and records. The fields of a record ascend by name, and
no name occurs twice.
-/

namespace NodePath

open NodePath.Text

inductive Value where
  | text (s : Bytes)
  | flag (b : Bool)
  | list (items : List Value)
  | record (fields : List (Bytes × Value))

instance : Inhabited Value := ⟨.flag false⟩

abbrev Record := Table Value

def Record.ofFields (fields : List (String × Value)) : Record :=
  Table.ofList (fields.map fun (name, value) => (utf8 name, value))

/-- A list of records. -/
def Value.records (rs : List Record) : Value := .list (rs.map .record)

end NodePath
