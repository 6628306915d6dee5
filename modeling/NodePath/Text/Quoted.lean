import NodePath.Text.Glyph
import NodePath.Text.Printable

/-!
# Quoted texts

A quoted text stands on one line and is printable throughout: the delimiter and the backslash are
escaped, the usual controls have a letter, a stray byte or another ASCII control is written by its
two hexadecimal digits, and any other character that is not printable by four or eight.
-/

namespace NodePath.Text

/-- The letter that stands for a control character after a backslash. -/
def controlLetter : Char → Option Char
  | '\x07' => some 'a'
  | '\x08' => some 'b'
  | '\x0c' => some 'f'
  | '\n' => some 'n'
  | '\r' => some 'r'
  | '\t' => some 't'
  | '\x0b' => some 'v'
  | _ => none

def escapeChar (delimiter c : Char) : Bytes :=
  if c = delimiter ∨ c = '\\' then [ascii '\\', ascii c]
  else if isPrintable c then encode c
  else
    match controlLetter c with
    | some letter => [ascii '\\', ascii letter]
    | none =>
      if c.toNat < 0x20 ∨ c.toNat = 0x7F then utf8 "\\x" ++ hex 2 c.toNat
      else if c.toNat < 0x10000 then utf8 "\\u" ++ hex 4 c.toNat
      else utf8 "\\U" ++ hex 8 c.toNat

def escapeGlyph (delimiter : Char) : Glyph → Bytes
  | .char c => escapeChar delimiter c
  | .stray b => utf8 "\\x" ++ hex 2 b.toNat

/-- A text between double quotes. -/
def quoted (s : Bytes) : Bytes :=
  [ascii '"'] ++ (glyphs s).flatMap (escapeGlyph '"') ++ [ascii '"']

/-- One character between single quotes. -/
def quotedChar (c : Char) : Bytes := [ascii '\''] ++ escapeChar '\'' c ++ [ascii '\'']

end NodePath.Text
