import NodePath.Dump.Value
import NodePath.Text.Glyph

/-!
# JSON

Values as JSON texts, two blanks of indentation to a level. The signs that could end a script element
and the two line separators are escaped; a stray byte is shown as the replacement character. A value
whose lists and records are nested too deeply is refused.
-/

namespace NodePath

open NodePath.Text

def jsonChar (c : Char) : Bytes :=
  match c with
  | '"' => utf8 "\\\""
  | '\\' => utf8 "\\\\"
  | '\x08' => utf8 "\\b"
  | '\x0c' => utf8 "\\f"
  | '\n' => utf8 "\\n"
  | '\r' => utf8 "\\r"
  | '\t' => utf8 "\\t"
  | c =>
    if c.toNat < 0x20 ∨ c = '<' ∨ c = '>' ∨ c = '&' ∨ c.toNat = 0x2028 ∨ c.toNat = 0x2029 then
      utf8 "\\u" ++ hex 4 c.toNat
    else encode c

def jsonGlyph : Glyph → Bytes
  | .char c => jsonChar c
  | .stray _ => utf8 "\\ufffd"

def jsonString (s : Bytes) : Bytes := utf8 "\"" ++ (glyphs s).flatMap jsonGlyph ++ utf8 "\""

/-- A line break and the indentation of a level. -/
def jsonBreak (level : Nat) : Bytes := newline :: List.replicate (2 * level) (ascii ' ')

mutual

/-- The pieces of a value that starts on a line of a level. -/
def jsonValue (level : Nat) : Value → List Bytes
  | .text s => [jsonString s]
  | .flag b => [utf8 (if b then "true" else "false")]
  | .list [] => [utf8 "[]"]
  | .list (item :: items) =>
    utf8 "[" :: (jsonItems (level + 1) (item :: items) ++ [jsonBreak level, utf8 "]"])
  | .record [] => [utf8 "\x7b\x7d"]
  | .record (field :: fields) =>
    utf8 "\x7b" :: (jsonFields (level + 1) (field :: fields) ++ [jsonBreak level, utf8 "\x7d"])

def jsonItems (level : Nat) : List Value → List Bytes
  | [] => []
  | item :: rest =>
    jsonBreak level :: (jsonValue level item ++
      (if rest.isEmpty then [] else utf8 "," :: jsonItems level rest))

def jsonFields (level : Nat) : List (Bytes × Value) → List Bytes
  | [] => []
  | (name, value) :: rest =>
    jsonBreak level :: jsonString name :: utf8 ": " :: (jsonValue level value ++
      (if rest.isEmpty then [] else utf8 "," :: jsonFields level rest))

end

/-- A value as a JSON text that ends with a line break. -/
def Value.json (v : Value) : Bytes := (jsonValue 0 v).flatten ++ [newline]

mutual

/-- How many lists and records lie inside each other. -/
def Value.depth : Value → Nat
  | .text _ | .flag _ => 0
  | .list items => itemsDepth items + 1
  | .record fields => fieldsDepth fields + 1

def itemsDepth : List Value → Nat
  | [] => 0
  | item :: rest => max item.depth (itemsDepth rest)

def fieldsDepth : List (Bytes × Value) → Nat
  | [] => 0
  | (_, value) :: rest => max value.depth (fieldsDepth rest)

end

/-- How deep lists and records may be nested in a JSON text. -/
def maxJsonDepth : Nat := 10000

/-- Why a value has no text in a format. -/
inductive EncodeError where
  /-- Its lists and records are nested too deeply for JSON. -/
  | tooDeep
  | yaml (complaint : Bytes)
deriving DecidableEq, Repr

def EncodeError.message : EncodeError → Bytes
  | .tooDeep => utf8 "dump: encode failed: json: exceeded max depth"
  | .yaml complaint => utf8 "dump: encode failed: yaml: " ++ complaint

/-- The JSON text of a value that is not nested too deeply. -/
def Value.encoded (v : Value) : Except EncodeError Bytes :=
  if v.depth ≤ maxJsonDepth then .ok v.json else .error .tooDeep

end NodePath
