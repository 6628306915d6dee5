import NodePath.Text.Bytes

/-!
# Colours

A style puts a text between two terminal sequences. Without colours a text stays as it is.
-/

namespace NodePath.Text

inductive Style where
  | alarm
  | success
  | place
deriving DecidableEq, Repr

namespace Style

/-- The sequence that turns a style on. -/
def opening : Style → Bytes
  | .alarm => utf8 "\x1b[31;1m"
  | .success => utf8 "\x1b[32;1m"
  | .place => utf8 "\x1b[36m"

/-- The sequence that turns a style off. -/
def closing : Style → Bytes
  | .alarm | .success => utf8 "\x1b[0;22m"
  | .place => utf8 "\x1b[0m"

def apply (style : Style) (colored : Bool) (s : Bytes) : Bytes :=
  if colored then style.opening ++ s ++ style.closing else s

end Style

end NodePath.Text
