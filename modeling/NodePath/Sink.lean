import NodePath.Text.Bytes

/-!
# Sinks

A sink takes texts one write at a time. It keeps all of them, none of them, or a first number of them,
after which every write fails.
-/

namespace NodePath

open NodePath.Text

inductive Target where
  | keep
  | discard
  /-- The first writes are kept, later ones fail with a complaint. -/
  | limited (writes : Nat) (complaint : Bytes)
deriving DecidableEq, Repr

structure Sink where
  target : Target
  /-- What has been kept, first to last. -/
  writes : List Bytes
deriving DecidableEq, Repr

namespace Sink

def onto (target : Target) : Sink := ⟨target, []⟩

/-- The sink after a write, or the complaint of a failed one, which leaves the sink as it was. -/
def write (s : Sink) (text : Bytes) : Except Bytes Sink :=
  match s.target with
  | .keep => .ok { s with writes := s.writes ++ [text] }
  | .discard => .ok s
  | .limited n complaint =>
    if s.writes.length < n then .ok { s with writes := s.writes ++ [text] } else .error complaint

/-- The sink after a write that may fail unnoticed. -/
def attempt (s : Sink) (text : Bytes) : Sink :=
  match s.write text with
  | .ok s => s
  | .error _ => s

def content (s : Sink) : Bytes := s.writes.flatten

end Sink

end NodePath
