import NodePath.Text.Bytes

/-!
# Exits

How the program ends before or instead of its work: a message, the stream it goes to and the exit code.
-/

namespace NodePath

open NodePath.Text

inductive Channel where
  | output
  | errors
deriving DecidableEq, Repr

structure Exit where
  channel : Channel
  code : Nat
  message : Bytes
deriving DecidableEq, Repr

namespace Exit

def successCode : Nat := 0

/-- An invalid selector or a failed check. -/
def failureCode : Nat := 1

/-- Wrong options or arguments. -/
def usageCode : Nat := 2

def success (message : Bytes) : Exit := ⟨.output, successCode, message⟩

def failure (message : Bytes) : Exit := ⟨.errors, failureCode, message⟩

def usage (message : Bytes) : Exit := ⟨.errors, usageCode, message⟩

end Exit

end NodePath
