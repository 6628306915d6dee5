import NodePath.Text.Quoted
import NodePath.Token.Kind

/-!
# Tokens

A token is a kind with the text it was read from and the place of that text. The lexeme of a string
literal is the text between its quotes.
-/

namespace NodePath

open NodePath.Text

structure Token where
  kind : Kind
  lexeme : Bytes
  offset : Int
  comparison : Comparison := .absent
deriving DecidableEq, Repr

namespace Token

/-- The offset just past the token; the quotes of a string literal count. -/
def stop (t : Token) : Int :=
  t.offset + t.lexeme.length + if t.kind = .stringLiteral then 2 else 0

/-- The token as error messages name it. -/
def describe (t : Token) : Bytes :=
  if t.kind = .eof then utf8 "end of input"
  else if t.lexeme.isEmpty && t.kind ≠ .stringLiteral then t.kind.label
  else t.kind.label ++ utf8 " " ++ quoted t.lexeme

/-- The token that stands for the end of the input at an offset. -/
def endAt (offset : Int) : Token := { kind := .eof, lexeme := [], offset }

end Token

end NodePath
