import NodePath.Text.CharSet
import NodePath.Text.Glyph

/-!
# White space

The characters with the White Space property, and the trimming of texts by it. A stray byte is no
white space.
-/

namespace NodePath.Text

def blanks : CharSet :=
  [(0x9, 0xD), (0x20, 0x20), (0x85, 0x85), (0xA0, 0xA0), (0x1680, 0x1680), (0x2000, 0x200A),
   (0x2028, 0x2029), (0x202F, 0x202F), (0x205F, 0x205F), (0x3000, 0x3000)]

def isBlank (c : Char) : Bool := blanks.has c

/-- A text without the white space at its two ends. -/
def trim (s : Bytes) : Bytes :=
  let inner := (glyphs s).dropWhile (Glyph.satisfies isBlank)
  bytesOf (inner.reverse.dropWhile (Glyph.satisfies isBlank)).reverse

end NodePath.Text
