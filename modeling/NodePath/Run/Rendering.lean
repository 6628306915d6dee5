import NodePath.Config.Basic
import NodePath.Dump.Outline
import NodePath.Run.Libraries

/-!
# Renderings

What a run shows of one selector: its tokens, and its tree in the format that was asked for, or the
parts of the tree that a query selects.
-/

namespace NodePath

open NodePath.Text

/-- A token on a line of its own: where it stands, its kind and its text. -/
def Token.listed (t : Token) : Bytes :=
  padLeft 4 (decimalInt t.offset) ++ utf8 "  " ++ padRight 22 t.kind.label ++ utf8 " " ++
    quoted t.lexeme ++ [newline]

def listing (tokens : List Token) : Bytes := tokens.flatMap Token.listed

/-- A variable with the value bound to it, if there is one. -/
def bindingText (bindings : Bindings) (name : Bytes) : Bytes :=
  match Table.get? bindings name with
  | some value => name ++ utf8 "=" ++ quoted value
  | none => name

/-- A line with names; nothing when there are none. -/
def namesLine (label : String) : List Bytes → Bytes
  | [] => []
  | names => utf8 "  " ++ utf8 label ++ utf8 ": " ++ joinWith (utf8 ", ") names ++ [newline]

/-- The canonical selector and the functions and variables it uses. -/
def Expr.summary (e : Expr) (bindings : Bindings) : Bytes :=
  e.text?.getD [] ++ [newline] ++ namesLine "functions" (Node.expr e).functionNames ++
    namesLine "variables" ((Node.expr e).variableNames.map (bindingText bindings))

/-- The record of a complete tree. -/
def Expr.record (e : Expr) : Record := e.dump.toOption.getD []

/-- The first variable, in the order of the source, that has no binding. -/
def Config.unbound? (c : Config) (e : Expr) : Option Bytes :=
  (Node.expr e).variableNames.find? (!c.isBound ·)

def unboundProblem (name : Bytes) : Problem := .plain (utf8 "unbound variable: $" ++ name)

/-- A text to be written, unless there is none. -/
def payloadOf (text : Except EncodeError Bytes) : Except Problem Bytes :=
  text.mapError fun cause => .plain cause.message

/-- A tree in the format of a configuration. -/
def Config.formatted (c : Config) (l : Libraries) (e : Expr) : Except Problem Bytes :=
  match c.format with
  | .tree => .ok ((Node.outline (.expr e)).toOption.getD [])
  | .yaml => payloadOf (l.encodeYaml (.record e.record))
  | .json => payloadOf (Value.record e.record).encoded
  | .text | .unknown _ => .ok (e.summary c.bindings)

/-- The result of a query, as YAML unless JSON was asked for. -/
def Config.formattedMatches (c : Config) (l : Libraries) (found : List Value) :
    Except Problem Bytes :=
  payloadOf (if c.format = .json then (Value.list found).encoded else l.encodeYaml (.list found))

/-- What is shown of a tree; a query is asked in a turn. -/
def Config.payload (c : Config) (l : Libraries) (turn : Nat) (e : Expr) : Except Problem Bytes :=
  if c.query.isEmpty then c.formatted l e
  else
    match e.record.ask l.queries turn c.query with
    | .error cause => .error (.plain cause.message)
    | .ok found => c.formattedMatches l found

/-- What is written for the tokens of a selector; its variables must be bound in a strict run. -/
def Config.rendering (c : Config) (l : Libraries) (turn : Nat) (tokens : List Token) :
    Except Problem Bytes :=
  match parseTokens tokens with
  | .error cause => .error (.ofSyntaxError cause)
  | .ok e =>
    match if c.strictVariables then c.unbound? e else none with
    | some name => .error (unboundProblem name)
    | none => c.payload l turn e

end NodePath
