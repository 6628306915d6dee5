import NodePath.Expr.Basic
import NodePath.Number.Numeral
import NodePath.Token.Lexer

/-!
# Reading expressions

Binary operators are read by precedence climbing; everything below them is chosen by looking at most
two tokens ahead and never taken back. Each reader gives the rest of the tokens together with the
fact that it is shorter, which is why the readers end. The nesting of groups, predicates, arguments
and minus signs is bounded, and a token of the kind `eof` ends the input wherever it stands.
-/

namespace NodePath

open NodePath.Text NodePath.Number

/-- How deep an expression may be nested. -/
def maxLevels : Nat := 256

/-- What the reader would have accepted. -/
inductive Expectation where
  | endOfInput
  | expression
  | shallowNesting
  | integerInRange
  | floatInRange
  | leftParen
  | rightParen
  | commaOrRightParen
  | rightBracket
  | doubleColon
  | nodeTest
  | name
  | localName
deriving DecidableEq, Repr

def Expectation.text : Expectation → Bytes
  | .endOfInput => utf8 "end of input"
  | .expression => utf8 "expression"
  | .shallowNesting => utf8 "at most " ++ decimal maxLevels ++ utf8 " levels of nesting"
  | .integerInRange => utf8 "integer in range"
  | .floatInRange => utf8 "float in range"
  | .leftParen => utf8 "'('"
  | .rightParen => utf8 "')'"
  | .commaOrRightParen => utf8 "',' or ')'"
  | .rightBracket => utf8 "']'"
  | .doubleColon => utf8 "'::'"
  | .nodeTest => utf8 "node test"
  | .name => utf8 "name"
  | .localName => utf8 "local name after prefix"

/-- The first token that could not be accepted. `unread` counts the tokens from it on; it is zero
when the input ended too early. -/
structure SyntaxError where
  expected : Expectation
  found : Token
  unread : Nat
deriving DecidableEq, Repr

namespace SyntaxError

def offset (e : SyntaxError) : Int := e.found.offset

def message (e : SyntaxError) : Bytes :=
  utf8 "selector: syntax error at offset " ++ decimalInt e.offset ++ utf8 ": expected " ++
    e.expected.text ++ utf8 ", found " ++ e.found.describe

end SyntaxError

/-- What is left after something was read. -/
abbrev Shorter (ts : List Token) := { rest : List Token // rest.length < ts.length }

/-- What is left after something was read that may have been nothing. -/
abbrev NoLonger (ts : List Token) := { rest : List Token // rest.length ≤ ts.length }

abbrev Parser (α : Type) := (ts : List Token) → Except SyntaxError (α × Shorter ts)

/-- The next token, or the end of the input at the offset `stop`. -/
def nextToken (stop : Int) : List Token → Token
  | [] => .endAt stop
  | t :: _ => t

/-- The error that blames the next token. -/
def refuse (stop : Int) (expected : Expectation) (ts : List Token) : SyntaxError :=
  ⟨expected, nextToken stop ts, ts.length⟩

/-- What follows the next token if that is of a kind. -/
def accept (kind : Kind) : (ts : List Token) → Option (Shorter ts)
  | [] => none
  | t :: rest => if t.kind = kind then some ⟨rest, by simp⟩ else none

/-- The next token, which must be of a kind. -/
def expect (stop : Int) (kind : Kind) (expected : Expectation) : Parser Token
  | [] => .error (refuse stop expected [])
  | t :: rest =>
    if t.kind = kind then .ok (t, ⟨rest, by simp⟩) else .error (refuse stop expected (t :: rest))

/-- A name or a name space, a colon and a name. -/
def parseName (stop : Int) : Parser QName := fun ts => do
  let (first, ⟨ts₁, h₁⟩) ← expect stop .name .name ts
  match accept .colon ts₁ with
  | none => return (⟨[], first.lexeme⟩, ⟨ts₁, h₁⟩)
  | some ⟨ts₂, h₂⟩ =>
    let (second, ⟨ts₃, h₃⟩) ← expect stop .name .localName ts₂
    return (⟨first.lexeme, second.lexeme⟩, ⟨ts₃, by omega⟩)

/-- What follows a name, a colon and a star. -/
def acceptAnyIn : (ts : List Token) → Option (Bytes × Shorter ts)
  | t :: c :: s :: rest =>
    if t.kind = .name ∧ c.kind = .colon ∧ s.kind = .star then
      some (t.lexeme, ⟨rest, by simp only [List.length_cons]; omega⟩)
    else none
  | _ => none

/-- The optional argument of a node type test. -/
def parseTypeArgument : (ts : List Token) → Option Bytes × NoLonger ts
  | [] => (none, ⟨[], Nat.le_refl _⟩)
  | t :: rest =>
    if t.kind = .stringLiteral then (some t.lexeme, ⟨rest, by simp⟩)
    else (none, ⟨t :: rest, Nat.le_refl _⟩)

def parseTest (stop : Int) : Parser Test
  | [] => .error (refuse stop .nodeTest [])
  | t :: rest =>
    match t.kind with
    | .star => .ok (.name .any, ⟨rest, by simp⟩)
    | .name =>
      match acceptAnyIn (t :: rest) with
      | some (space, rest) => .ok (.name (.anyIn space), rest)
      | none => do
        let (name, rest) ← parseName stop (t :: rest)
        return (.name (.qualified name), rest)
    | .nodeType => do
      let (_, ⟨ts₁, h₁⟩) ← expect stop .leftParen .leftParen rest
      let (argument, ⟨ts₂, h₂⟩) := parseTypeArgument ts₁
      let (_, ⟨ts₃, h₃⟩) ← expect stop .rightParen .rightParen ts₂
      return (.nodeType t.lexeme argument, ⟨ts₃, by simp only [List.length_cons]; omega⟩)
    | _ => .error (refuse stop .nodeTest (t :: rest))

/-- Any number of expressions, each in brackets. -/
def parsePredicates (stop : Int) (expression : Parser Expr) (ts : List Token) :
    Except SyntaxError (List Expr × NoLonger ts) :=
  match accept .leftBracket ts with
  | none => .ok ([], ⟨ts, Nat.le_refl _⟩)
  | some ⟨ts₁, h₁⟩ => do
    let (first, ⟨ts₂, h₂⟩) ← expression ts₁
    let (_, ⟨ts₃, h₃⟩) ← expect stop .rightBracket .rightBracket ts₂
    let (others, ⟨ts₄, h₄⟩) ← parsePredicates stop expression ts₃
    return (first :: others, ⟨ts₄, by omega⟩)
termination_by ts.length

/-- A node test with predicates, on an axis. -/
def parseTestStep (stop : Int) (expression : Parser Expr) (axis : Option Axis) : Parser Step :=
  fun ts => do
    let (test, ⟨ts₁, h₁⟩) ← parseTest stop ts
    let (predicates, ⟨ts₂, h₂⟩) ← parsePredicates stop expression ts₁
    return (.mk axis test predicates, ⟨ts₂, by omega⟩)

def parseStep (stop : Int) (expression : Parser Expr) : Parser Step
  | [] => parseTestStep stop expression none []
  | t :: rest =>
    match t.kind with
    | .dot => .ok (.sign .self, ⟨rest, by simp⟩)
    | .doubleDot => .ok (.sign .parent, ⟨rest, by simp⟩)
    | .axisName => do
      let (_, ⟨ts₁, h₁⟩) ← expect stop .doubleColon .doubleColon rest
      let (step, ⟨ts₂, h₂⟩) ← parseTestStep stop expression (some ⟨t.lexeme, false⟩) ts₁
      return (step, ⟨ts₂, by simp only [List.length_cons]; omega⟩)
    | .atSign => do
      let (step, ⟨ts₁, h₁⟩) ← parseTestStep stop expression (some ⟨utf8 "attribute", true⟩) rest
      return (step, ⟨ts₁, by simp only [List.length_cons]; omega⟩)
    | _ => parseTestStep stop expression none (t :: rest)

def separatorOf : Kind → Option Separator
  | .slash => some .child
  | .doubleSlash => some .descendant
  | _ => none

/-- A separator and what follows it. -/
def acceptSeparator : (ts : List Token) → Option (Separator × Shorter ts)
  | [] => none
  | t :: rest => (separatorOf t.kind).map fun separator => (separator, ⟨rest, by simp⟩)

/-- Any number of steps, each after a separator. -/
def parseFurtherSteps (stop : Int) (expression : Parser Expr) (ts : List Token) :
    Except SyntaxError (Path × NoLonger ts) :=
  match acceptSeparator ts with
  | none => .ok ([], ⟨ts, Nat.le_refl _⟩)
  | some (separator, ⟨ts₁, h₁⟩) => do
    let (step, ⟨ts₂, h₂⟩) ← parseStep stop expression ts₁
    let (others, ⟨ts₃, h₃⟩) ← parseFurtherSteps stop expression ts₂
    return ((separator, step) :: others, ⟨ts₃, by omega⟩)
termination_by ts.length

def parsePath (stop : Int) (expression : Parser Expr) : Parser Path := fun ts => do
  let (step, ⟨ts₁, h₁⟩) ← parseStep stop expression ts
  let (others, ⟨ts₂, h₂⟩) ← parseFurtherSteps stop expression ts₁
  return ((.absent, step) :: others, ⟨ts₂, by omega⟩)

/-- One or more expressions with commas between them. -/
def parseArguments (expression : Parser Expr) (ts : List Token) :
    Except SyntaxError (List Expr × Shorter ts) := do
  let (first, ⟨ts₁, h₁⟩) ← expression ts
  match accept .comma ts₁ with
  | none => return ([first], ⟨ts₁, h₁⟩)
  | some ⟨ts₂, h₂⟩ =>
    let (others, ⟨ts₃, h₃⟩) ← parseArguments expression ts₂
    return (first :: others, ⟨ts₃, by omega⟩)
termination_by ts.length

/-- The call of a function after its name. -/
def parseCall (stop : Int) (expression : Parser Expr) (ident : Bytes) : Parser Expr := fun ts => do
  let (_, ⟨ts₁, h₁⟩) ← expect stop .leftParen .leftParen ts
  match accept .rightParen ts₁ with
  | some ⟨ts₂, h₂⟩ => return (.call ⟨.absent, ident⟩ [], ⟨ts₂, by omega⟩)
  | none =>
    let (args, ⟨ts₂, h₂⟩) ← parseArguments expression ts₁
    let (_, ⟨ts₃, h₃⟩) ← expect stop .rightParen .commaOrRightParen ts₂
    return (.call ⟨.absent, ident⟩ args, ⟨ts₃, by omega⟩)

/-- A truth value after its word: a call when a parenthesis opens, which must close at once. -/
def parseTruth (stop : Int) (value : Bool) (ts : List Token) :
    Except SyntaxError (Expr × NoLonger ts) :=
  match accept .leftParen ts with
  | none => .ok (.boolean value, ⟨ts, Nat.le_refl _⟩)
  | some ⟨ts₁, h₁⟩ => do
    let (_, ⟨ts₂, h₂⟩) ← expect stop .rightParen .rightParen ts₁
    return (.call ⟨if value then .trueCall else .falseCall, []⟩ [], ⟨ts₂, by omega⟩)

/-- An expression that predicates or further steps may follow. -/
def parseSource (stop : Int) (expression : Parser Expr) : Parser Expr
  | [] => .error (refuse stop .expression [])
  | t :: rest =>
    match t.kind with
    | .stringLiteral => .ok (.literal t.lexeme, ⟨rest, by simp⟩)
    | .integer =>
      match integer? t.lexeme with
      | none => .error (refuse stop .integerInRange (t :: rest))
      | some value => .ok (.number (.ofInt value), ⟨rest, by simp⟩)
    | .float =>
      match float? t.lexeme with
      | none => .error (refuse stop .floatInRange (t :: rest))
      | some value => .ok (.number (.ofFloat value), ⟨rest, by simp⟩)
    | .trueWord => do
      let (e, ⟨ts₁, h₁⟩) ← parseTruth stop true rest
      return (e, ⟨ts₁, by simp only [List.length_cons]; omega⟩)
    | .falseWord => do
      let (e, ⟨ts₁, h₁⟩) ← parseTruth stop false rest
      return (e, ⟨ts₁, by simp only [List.length_cons]; omega⟩)
    | .dollar => do
      let (name, ⟨ts₁, h₁⟩) ← parseName stop rest
      return (.reference name, ⟨ts₁, by simp only [List.length_cons]; omega⟩)
    | .functionName => do
      let (e, ⟨ts₁, h₁⟩) ← parseCall stop expression t.lexeme rest
      return (e, ⟨ts₁, by simp only [List.length_cons]; omega⟩)
    | .leftParen => do
      let (e, ⟨ts₁, h₁⟩) ← expression rest
      let (_, ⟨ts₂, h₂⟩) ← expect stop .rightParen .rightParen ts₁
      return (e, ⟨ts₂, by simp only [List.length_cons]; omega⟩)
    | _ => .error (refuse stop .expression (t :: rest))

def narrowed (source : Expr) : List Expr → Expr
  | [] => source
  | p :: rest => .filter source (p :: rest)

/-- A source with optional predicates and optional further steps. -/
def parseFiltered (stop : Int) (expression : Parser Expr) : Parser Expr := fun ts => do
  let (source, ⟨ts₁, h₁⟩) ← parseSource stop expression ts
  let (predicates, ⟨ts₂, h₂⟩) ← parsePredicates stop expression ts₁
  match acceptSeparator ts₂ with
  | none => return (narrowed source predicates, ⟨ts₂, by omega⟩)
  | some (separator, ⟨ts₃, h₃⟩) =>
    let (steps, ⟨ts₄, h₄⟩) ← parsePath stop expression ts₃
    return (.continued (narrowed source predicates) separator steps, ⟨ts₄, by omega⟩)

def parsePrimary (stop : Int) (expression : Parser Expr) : Parser Expr
  | [] => parseFiltered stop expression []
  | t :: rest =>
    if t.kind = .slash then
      if (nextToken stop rest).kind.startsStep then do
        let (steps, ⟨ts₁, h₁⟩) ← parsePath stop expression rest
        return (.absolute steps, ⟨ts₁, by simp only [List.length_cons]; omega⟩)
      else .ok (.root, ⟨rest, by simp⟩)
    else if t.kind = .doubleSlash then do
      let (steps, ⟨ts₁, h₁⟩) ← parsePath stop expression rest
      return (.everywhere steps, ⟨ts₁, by simp only [List.length_cons]; omega⟩)
    else if t.kind.startsStep then do
      let (steps, rest) ← parsePath stop expression (t :: rest)
      return (.path steps, rest)
    else parseFiltered stop expression (t :: rest)

/-- The operator of a token and how tightly it binds, the loosest first. -/
def binaryOperator? : Kind → Option (Operator × Nat)
  | .streamWord => some (.stream, 1)
  | .intersectWord => some (.intersect, 2)
  | .bar => some (.union, 3)
  | .minus => some (.subtract, 4)
  | .plus => some (.add, 5)
  | .comparison => some (.compare, 6)
  | .equals => some (.equals, 7)
  | .andWord => some (.and, 8)
  | .orWord => some (.or, 9)
  | _ => none

mutual

/-- An expression whose operators all bind at least as tightly as `floor`. -/
def climb (unary : Parser Expr) (floor : Nat) (ts : List Token) :
    Except SyntaxError (Expr × Shorter ts) := do
  let (left, ⟨ts₁, h₁⟩) ← unary ts
  let (e, ⟨ts₂, h₂⟩) ← climbFrom unary floor left ts₁
  return (e, ⟨ts₂, by omega⟩)
termination_by ts.length

/-- Continues an expression as long as operators that bind tightly enough follow. The right operand
binds more tightly, so equal operators group to the left. -/
def climbFrom (unary : Parser Expr) (floor : Nat) (left : Expr) (ts : List Token) :
    Except SyntaxError (Expr × NoLonger ts) :=
  match ts with
  | [] => .ok (left, ⟨[], Nat.le_refl _⟩)
  | t :: rest =>
    match binaryOperator? t.kind with
    | none => .ok (left, ⟨t :: rest, Nat.le_refl _⟩)
    | some (op, binding) =>
      if binding < floor then .ok (left, ⟨t :: rest, Nat.le_refl _⟩)
      else do
        let (right, ⟨ts₁, h₁⟩) ← climb unary (binding + 1) rest
        let (e, ⟨ts₂, h₂⟩) ← climbFrom unary floor (.binary op t.comparison left right) ts₁
        return (e, ⟨ts₂, by simp only [List.length_cons]; omega⟩)
termination_by ts.length
decreasing_by all_goals simp only [List.length_cons]; omega

end

/-- A primary expression after any number of minus signs, with `levels` levels of nesting left. -/
def parseUnary (stop : Int) : (levels : Nat) → Parser Expr
  | 0, ts => .error (refuse stop .shallowNesting ts)
  | levels + 1, ts =>
    match accept .minus ts with
    | some ⟨ts₁, h₁⟩ => do
      let (operand, ⟨ts₂, h₂⟩) ← parseUnary stop levels ts₁
      return (.negate operand, ⟨ts₂, by omega⟩)
    | none => parsePrimary stop (climb (parseUnary stop levels) 1) ts

def parseExpression (stop : Int) (levels : Nat) : Parser Expr := climb (parseUnary stop levels) 1

/-- Where the input ends: past its last token. -/
def endOf (ts : List Token) : Int := (ts.getLast?.map Token.stop).getD 0

/-- The expression that a list of tokens denotes, all of it. -/
def parseTokens (ts : List Token) : Except SyntaxError Expr := do
  let (e, ⟨rest, _⟩) ← parseExpression (endOf ts) maxLevels ts
  if (nextToken (endOf ts) rest).kind = .eof then return e
  else throw (refuse (endOf ts) .endOfInput rest)

inductive ParseError where
  | lexical (e : LexError)
  | grammatical (e : SyntaxError)
deriving DecidableEq, Repr

def ParseError.message : ParseError → Bytes
  | .lexical e => e.message
  | .grammatical e => e.message

/-- The expression that a source denotes. -/
def parse (source : Bytes) : Except ParseError Expr :=
  match tokenize source with
  | .error e => .error (.lexical e)
  | .ok tokens => (parseTokens tokens).mapError .grammatical

end NodePath
