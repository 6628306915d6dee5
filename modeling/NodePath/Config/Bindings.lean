import NodePath.Text.Blank
import NodePath.Text.Table

/-!
# Variable bindings

Bindings come one by one as `name=value`, or from a file with one per line. The name is trimmed; the
value is trimmed in files only. In a file, empty lines and lines that begin with a number sign say
nothing.
-/

namespace NodePath

open NodePath.Text

abbrev Bindings := Table Bytes

inductive BindingError where
  | noEqualsSign (given : Bytes)
  | noName
deriving DecidableEq, Repr

def BindingError.message : BindingError → Bytes
  | .noEqualsSign given => utf8 "variable must be in format name=value, got: " ++ given
  | .noName => utf8 "variable name cannot be empty"

namespace Bindings

/-- The bindings in one line. -/
def text (b : Bindings) : Bytes :=
  joinWith (utf8 ",") (b.map fun (name, value) => name ++ utf8 "=" ++ value)

/-- Adds one binding. -/
def set (b : Bindings) (given : Bytes) : Except BindingError Bindings :=
  match cutAt (ascii '=') given with
  | none => .error (.noEqualsSign given)
  | some (name, value) =>
    if (trim name).isEmpty then .error .noName else .ok (Table.insert (trim name) value b)

end Bindings

/-- A line of a bindings file that cannot be read, counted from one. -/
inductive BindingLineError where
  | noEqualsSign (number : Nat) (line : Bytes)
  | noName (number : Nat) (line : Bytes)
deriving DecidableEq, Repr

def BindingLineError.message : BindingLineError → Bytes
  | .noEqualsSign number line =>
    utf8 "invalid format at line " ++ decimal number ++ utf8 ": " ++ line ++
      utf8 " (expected key=value)"
  | .noName number line => utf8 "empty key at line " ++ decimal number ++ utf8 ": " ++ line

/-- What a trimmed line binds; nothing when it is ignored. -/
def readBindingLine (number : Nat) (line : Bytes) :
    Except BindingLineError (Option (Bytes × Bytes)) :=
  if line.isEmpty || line.head? = some (ascii '#') then .ok none
  else
    match cutAt (ascii '=') line with
    | none => .error (.noEqualsSign number line)
    | some (name, value) =>
      if (trim name).isEmpty then .error (.noName number line)
      else .ok (some (trim name, trim value))

def readBindingLines (number : Nat) (bound : Bindings) :
    List Bytes → Except BindingLineError Bindings
  | [] => .ok bound
  | line :: rest => do
    match ← readBindingLine number (trim line) with
    | none => readBindingLines (number + 1) bound rest
    | some (name, value) => readBindingLines (number + 1) (Table.insert name value bound) rest

/-- The bindings of a file. -/
def readBindings (content : Bytes) : Except BindingLineError Bindings :=
  readBindingLines 1 [] (splitAt newline content)

end NodePath
