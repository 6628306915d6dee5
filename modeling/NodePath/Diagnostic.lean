import NodePath.Expr.Parser
import NodePath.Text.Style

/-!
# Diagnostics

A problem with a place in a source is shown with the line it lies on and a caret below it. Lines and
columns count from one; columns count glyphs. A place outside the source is moved to its nearer end.
-/

namespace NodePath

open NodePath.Text

structure Position where
  line : Nat
  column : Nat
deriving DecidableEq, Repr

/-- An offset within a text. -/
def clamp (offset : Int) (source : Bytes) : Nat := min offset.toNat source.length

/-- What stands before an offset on its line. -/
def lineHead (source : Bytes) (offset : Int) : Bytes :=
  ((source.take (clamp offset source)).reverse.takeWhile (· ≠ newline)).reverse

/-- What stands from an offset on to the end of its line. -/
def lineTail (source : Bytes) (offset : Int) : Bytes :=
  (source.drop (clamp offset source)).takeWhile (· ≠ newline)

def position (source : Bytes) (offset : Int) : Position :=
  { line := (source.take (clamp offset source)).count newline + 1
    column := (glyphs (lineHead source offset)).length + 1 }

def dropReturns (s : Bytes) : Bytes := (s.reverse.dropWhile (· = ascii '\r')).reverse

/-- The line an offset lies on, without carriage returns at its end. -/
def excerpt (source : Bytes) (offset : Int) : Bytes :=
  dropReturns (lineHead source offset ++ lineTail source offset)

/-- What moves a caret below an offset: a tab for each tab before it and a blank for any other glyph. -/
def caretPadding (source : Bytes) (offset : Int) : Bytes :=
  (glyphs (lineHead source offset)).map fun g => if g = .char '\t' then ascii '\t' else ascii ' '

/-- Something that went wrong, with a place in the source or without one. -/
inductive Problem where
  | located (offset : Int) (message : Bytes)
  | plain (message : Bytes)
deriving DecidableEq, Repr

namespace Problem

/-- The problem that one thing was expected and another one found. -/
def unexpected (offset : Int) (expected found : Bytes) : Problem :=
  .located offset (utf8 "expected " ++ expected ++ utf8 ", found " ++ found)

def ofLexError (e : LexError) : Problem := .located e.offset e.cause.message

def ofSyntaxError (e : SyntaxError) : Problem :=
  unexpected e.offset e.expected.text e.found.describe

def ofParseError : ParseError → Problem
  | .lexical e => ofLexError e
  | .grammatical e => ofSyntaxError e

/-- The same problem met in some context, which a place makes superfluous. -/
def wrap (context : Bytes) : Problem → Problem
  | .located offset message => .located offset message
  | .plain message => .plain (context ++ utf8 ": " ++ message)

end Problem

structure Diagnostic where
  offset : Int
  position : Position
  message : Bytes
deriving DecidableEq, Repr

/-- The diagnostic of a problem that has a place. -/
def Problem.diagnostic? (source : Bytes) : Problem → Option Diagnostic
  | .located offset message => some ⟨offset, NodePath.position source offset, message⟩
  | .plain _ => none

def errorLabel (colored : Bool) : Bytes := Style.alarm.apply colored (utf8 "error:")

def Position.text (p : Position) : Bytes :=
  utf8 "(line " ++ decimal p.line ++ utf8 ", column " ++ decimal p.column ++ utf8 ")"

/-- The lines that show a problem. -/
def Problem.render (colored : Bool) (source : Bytes) : Problem → Bytes
  | .plain message => errorLabel colored ++ utf8 " " ++ message ++ [newline]
  | .located offset message =>
    errorLabel colored ++ utf8 " " ++ message ++ utf8 " " ++
      Style.place.apply colored (NodePath.position source offset).text ++ utf8 "\n  " ++
      excerpt source offset ++ utf8 "\n  " ++
      caretPadding source offset ++ Style.alarm.apply colored (utf8 "^") ++ [newline]

/-- The word for an outcome. -/
def status (colored passed : Bool) : Bytes :=
  if passed then Style.success.apply colored (utf8 "PASS")
  else Style.alarm.apply colored (utf8 "FAIL")

end NodePath
