import NodePath.Text.Bytes

/-!
# Kinds of tokens

Each kind has a number and a name. A number without a kind is kept as it is, so that a list of
tokens from elsewhere can be judged as well.
-/

namespace NodePath

open NodePath.Text

inductive Kind where
  /-- The end of the input, which no source text contains. -/
  | eof
  | orWord
  | andWord
  | intersectWord
  | streamWord
  | slash
  | doubleSlash
  | dot
  | doubleDot
  | doubleColon
  | atSign
  | leftParen
  | rightParen
  | leftBracket
  | rightBracket
  | bar
  | equals
  | comparison
  | plus
  | minus
  | star
  | comma
  | colon
  | dollar
  | trueWord
  | falseWord
  | functionName
  | stringLiteral
  | float
  | integer
  | nodeType
  | name
  | axisName
  | unknown (code : Int)
deriving DecidableEq, Repr

namespace Kind

/-- The kinds in the order of their numbers. -/
def all : List Kind :=
  [.eof, .orWord, .andWord, .intersectWord, .streamWord, .slash, .doubleSlash, .dot, .doubleDot,
   .doubleColon, .atSign, .leftParen, .rightParen, .leftBracket, .rightBracket, .bar, .equals,
   .comparison, .plus, .minus, .star, .comma, .colon, .dollar, .trueWord, .falseWord,
   .functionName, .stringLiteral, .float, .integer, .nodeType, .name, .axisName]

def ofCode (code : Int) : Kind :=
  if 0 ≤ code then all[code.toNat]?.getD (.unknown code) else .unknown code

def label : Kind → Bytes
  | .eof => utf8 "EOF"
  | .orWord => utf8 "OR"
  | .andWord => utf8 "AND"
  | .intersectWord => utf8 "INTERSECT"
  | .streamWord => utf8 "PIPELINE"
  | .slash => utf8 "PATH_SEP"
  | .doubleSlash => utf8 "ABBREV_PATH_SEP"
  | .dot => utf8 "SELF"
  | .doubleDot => utf8 "PARENT"
  | .doubleColon => utf8 "AXIS_SEP"
  | .atSign => utf8 "ATTR_AXIS"
  | .leftParen => utf8 "LPAREN"
  | .rightParen => utf8 "RPAREN"
  | .leftBracket => utf8 "LBRACKET"
  | .rightBracket => utf8 "RBRACKET"
  | .bar => utf8 "UNION"
  | .equals => utf8 "EQUALS"
  | .comparison => utf8 "REL_OP"
  | .plus => utf8 "PLUS"
  | .minus => utf8 "MINUS"
  | .star => utf8 "STAR"
  | .comma => utf8 "COMMA"
  | .colon => utf8 "COLON"
  | .dollar => utf8 "DOLLAR"
  | .trueWord => utf8 "TRUE"
  | .falseWord => utf8 "FALSE"
  | .functionName => utf8 "FUNCTION_NAME"
  | .stringLiteral => utf8 "STRING_LITERAL"
  | .float => utf8 "FLOAT"
  | .integer => utf8 "INTEGER"
  | .nodeType => utf8 "NODE_TYPE"
  | .name => utf8 "NAME"
  | .axisName => utf8 "AXIS_NAME"
  | .unknown code => utf8 "Kind(" ++ decimalInt code ++ utf8 ")"

/-- Whether a token of this kind can begin a location step. -/
def startsStep : Kind → Bool
  | .name | .star | .axisName | .atSign | .dot | .doubleDot | .nodeType => true
  | _ => false

end Kind

/-- The comparison that a comparison token stands for. -/
inductive Comparison where
  | absent
  | less
  | lessEqual
  | greater
  | greaterEqual
  | notEqual
  | unknown (code : Int)
deriving DecidableEq, Repr

namespace Comparison

def all : List Comparison := [.absent, .less, .lessEqual, .greater, .greaterEqual, .notEqual]

def ofCode (code : Int) : Comparison :=
  if 0 ≤ code then all[code.toNat]?.getD (.unknown code) else .unknown code

def toCode : Comparison → Int
  | .absent => 0
  | .less => 1
  | .lessEqual => 2
  | .greater => 3
  | .greaterEqual => 4
  | .notEqual => 5
  | .unknown code => code

def symbol : Comparison → Bytes
  | .absent => []
  | .less => utf8 "<"
  | .lessEqual => utf8 "<="
  | .greater => utf8 ">"
  | .greaterEqual => utf8 ">="
  | .notEqual => utf8 "!="
  | .unknown code => utf8 "RelOp(" ++ decimalInt code ++ utf8 ")"

end Comparison

end NodePath
