import NodePath.Text.Bytes

/-!
# Bytes read as characters

A text falls into glyphs: the characters it encodes, and stray bytes that begin no well-formed
encoding. An encoding is well-formed when it is the shortest one and denotes a scalar value, so a
surrogate or an overlong form is a run of stray bytes.
-/

namespace NodePath.Text

inductive Glyph where
  | char (c : Char)
  | stray (b : UInt8)
deriving DecidableEq, Repr

namespace Glyph

def bytes : Glyph → Bytes
  | .char c => encode c
  | .stray b => [b]

def width (g : Glyph) : Nat := g.bytes.length

def isChar : Glyph → Bool
  | .char _ => true
  | .stray _ => false

/-- Whether the glyph is a character of a class. -/
def satisfies (p : Char → Bool) : Glyph → Bool
  | .char c => p c
  | .stray _ => false

end Glyph

def isTail (b : UInt8) : Bool := 0x80 ≤ b && b ≤ 0xBF

/-- The scalar value with the given low six bits after a leading part. -/
def extend (lead : Nat) (b : UInt8) : Nat := lead * 0x40 + (b.toNat - 0x80)

/-- The second byte of a three byte form: it must exclude overlong forms and surrogates. -/
def secondOfThree (a b : UInt8) : Bool :=
  if a = 0xE0 then 0xA0 ≤ b && b ≤ 0xBF
  else if a = 0xED then 0x80 ≤ b && b ≤ 0x9F
  else isTail b

/-- The second byte of a four byte form: it must exclude overlong forms and values past the last. -/
def secondOfFour (a b : UInt8) : Bool :=
  if a = 0xF0 then 0x90 ≤ b && b ≤ 0xBF
  else if a = 0xF4 then 0x80 ≤ b && b ≤ 0x8F
  else isTail b

/-- The glyph that begins with a byte, and how many of the bytes after it belong to it. -/
def leading (a : UInt8) (rest : Bytes) : Glyph × Nat :=
  if a < 0x80 then (.char (Char.ofNat a.toNat), 0)
  else
    match rest with
    | b :: rest =>
      if 0xC2 ≤ a && a ≤ 0xDF && isTail b then
        (.char (Char.ofNat (extend (a.toNat - 0xC0) b)), 1)
      else
        match rest with
        | c :: rest =>
          if 0xE0 ≤ a && a ≤ 0xEF && secondOfThree a b && isTail c then
            (.char (Char.ofNat (extend (extend (a.toNat - 0xE0) b) c)), 2)
          else
            match rest with
            | d :: _ =>
              if 0xF0 ≤ a && a ≤ 0xF4 && secondOfFour a b && isTail c && isTail d then
                (.char (Char.ofNat (extend (extend (extend (a.toNat - 0xF0) b) c) d)), 3)
              else (.stray a, 0)
            | [] => (.stray a, 0)
        | [] => (.stray a, 0)
    | [] => (.stray a, 0)

/-- The glyphs of a text from the byte after the next `taken` ones on. -/
def glyphsAfter : (taken : Nat) → Bytes → List Glyph
  | _, [] => []
  | taken + 1, _ :: rest => glyphsAfter taken rest
  | 0, a :: rest => (leading a rest).1 :: glyphsAfter (leading a rest).2 rest

/-- The glyphs of a text, first to last. -/
def glyphs (s : Bytes) : List Glyph := glyphsAfter 0 s

/-- The bytes of a run of glyphs. -/
def bytesOf (gs : List Glyph) : Bytes := gs.flatMap Glyph.bytes

/-- How many bytes a run of glyphs takes. -/
def widthOf (gs : List Glyph) : Nat := (bytesOf gs).length

/-- A text is well-formed when every glyph of it is a character. -/
def isWellFormed (s : Bytes) : Bool := (glyphs s).all Glyph.isChar

/-- The characters of a text; stray bytes are left out. -/
def chars (s : Bytes) : List Char :=
  (glyphs s).filterMap fun
    | .char c => some c
    | .stray _ => none

/-- The character that shows a glyph: a stray byte is shown by the replacement character. -/
def Glyph.shown : Glyph → Char
  | .char c => c
  | .stray _ => '\uFFFD'

end NodePath.Text
