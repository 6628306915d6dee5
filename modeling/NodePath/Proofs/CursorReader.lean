import NodePath.Proofs.Readings

/-!
# Reading with a cursor

The readers once more, with the tokens standing still. A cursor keeps the index of the next token
and how deep the nesting is; past the last token stands the end of the input, however often it is
read. Nothing in a routine shows that it ends. So each one is told how deep its calls may be nested,
and has no outcome, which is `none`, when they go deeper; a routine ends if there is a depth that is
always enough. A loop is a routine that ends by calling itself.
-/

namespace NodePath

open NodePath.Text NodePath.Number

/-- Where the routines stand in their tokens, and how deep. -/
structure Cursor where
  tokens : List Token
  position : Nat
  depth : Nat
deriving DecidableEq, Repr

namespace Cursor

/-- The tokens from the next one on. -/
def left (c : Cursor) : List Token := c.tokens.drop c.position

/-- The offset at which the input ends. -/
def stop (c : Cursor) : Int := endOf c.tokens

/-- How many levels of nesting may still be opened. -/
def levels (c : Cursor) : Nat := maxLevels - c.depth

/-- The cursor some tokens further on. -/
def moved (c : Cursor) (n : Nat) : Cursor := { c with position := c.position + n }

/-- The cursor one level of nesting further in. -/
def nested (c : Cursor) : Cursor := { c with depth := c.depth + 1 }

/-- A depth of calls that is enough for every routine: there are at most ten of them, one inside
the other, until a token is taken. -/
def callDepth (c : Cursor) : Nat := 10 * c.left.length + 9

/-- The token some places behind the next one. -/
def peek (c : Cursor) (n : Nat) : Token := (c.tokens[c.position + n]?).getD (.endAt c.stop)

/-- The error that blames the next token. -/
def refusal (c : Cursor) (expected : Expectation) : SyntaxError :=
  ⟨expected, c.peek 0, c.tokens.length - c.position⟩

end Cursor

/-- What reads at a cursor: it fails, succeeds at another cursor, or comes to no end. -/
abbrev Routine := StateT Cursor (ExceptT SyntaxError Option)

namespace Routine

/-- Calls were nested too deep to come to an end. -/
def unfinished {α : Type} : Routine α := fun _ => none

/-- The token some places behind the next one. -/
def peek (n : Nat) : Routine Token := fun c => some (.ok (c.peek n, c))

/-- The next token. -/
def current : Routine Token := peek 0

/-- Takes the next token. The end of the input stays where it is. -/
def advance : Routine Token := fun c =>
  some (.ok (c.peek 0, if c.position < c.tokens.length then c.moved 1 else c))

/-- Refuses the next token. -/
def refuse {α : Type} (expected : Expectation) : Routine α := fun c =>
  some (.error (c.refusal expected))

/-- Takes the next token, which must be of a kind. -/
def expect (kind : Kind) (expected : Expectation) : Routine Token := do
  if (← current).kind = kind then advance else refuse expected

/-- Opens a level of nesting. -/
def enter : Routine Unit := fun c =>
  some (if maxLevels < c.nested.depth then .error (c.refusal .shallowNesting)
    else .ok ((), c.nested))

/-- Closes a level of nesting. -/
def leave : Routine Unit := fun c => some (.ok ((), { c with depth := c.depth - 1 }))

/-- Takes the next token for the value of its lexeme. A token that has none is blamed itself. -/
def takeValue {α : Type} (expected : Expectation) (value? : Bytes → Option α) : Routine α := do
  match value? (← current).lexeme with
  | none => refuse expected
  | some v =>
    let _ ← advance
    return v

def readName : Routine QName := do
  let first ← expect .name .name
  if (← current).kind = .colon then
    let _ ← advance
    let second ← expect .name .localName
    return ⟨first.lexeme, second.lexeme⟩
  else return ⟨[], first.lexeme⟩

def readTypeArgument : Routine (Option Bytes) := do
  let t ← current
  if t.kind = .stringLiteral then
    let _ ← advance
    return some t.lexeme
  else return none

def readTest : Routine Test := do
  let t ← current
  match t.kind with
  | .star =>
    let _ ← advance
    return .name .any
  | .name =>
    if (← peek 1).kind = .colon ∧ (← peek 2).kind = .star then
      let _ ← advance
      let _ ← advance
      let _ ← advance
      return .name (.anyIn t.lexeme)
    else return .name (.qualified (← readName))
  | .nodeType =>
    let _ ← advance
    let _ ← expect .leftParen .leftParen
    let argument ← readTypeArgument
    let _ ← expect .rightParen .rightParen
    return .nodeType t.lexeme argument
  | _ => refuse .nodeTest

/-- A truth value after its word. -/
def readTruth (value : Bool) : Routine Expr := do
  if (← current).kind = .leftParen then
    let _ ← advance
    let _ ← expect .rightParen .rightParen
    return .call ⟨truthCall value, []⟩ []
  else return .boolean value

mutual

/-- An expression whose operators all bind at least as tightly as `floor`. -/
def readBinary : (calls : Nat) → (floor : Int) → Routine Expr
  | 0, _ => unfinished
  | calls + 1, floor => do
    let left ← readUnary calls
    readOperators calls floor left

def readOperators : (calls : Nat) → (floor : Int) → (left : Expr) → Routine Expr
  | 0, _, _ => unfinished
  | calls + 1, floor, left => do
    let t ← current
    match binaryOperator? t.kind with
    | none => return left
    | some (op, binding) =>
      if binding < floor then return left
      else
        let _ ← advance
        let right ← readBinary calls (binding + 1)
        readOperators calls floor (.binary op t.comparison left right)

def readUnary : (calls : Nat) → Routine Expr
  | 0 => unfinished
  | calls + 1 => do
    enter
    let e ← readSigned calls
    leave
    return e

/-- What a level of nesting was opened for. -/
def readSigned : (calls : Nat) → Routine Expr
  | 0 => unfinished
  | calls + 1 => do
    if (← current).kind = .minus then
      let _ ← advance
      return .negate (← readUnary calls)
    else readPrimary calls

def readPrimary : (calls : Nat) → Routine Expr
  | 0 => unfinished
  | calls + 1 => do
    let t ← current
    if t.kind = .slash then
      let _ ← advance
      if (← current).kind.startsStep then return .absolute (← readPath calls) else return .root
    else if t.kind = .doubleSlash then
      let _ ← advance
      return .everywhere (← readPath calls)
    else if t.kind.startsStep then return .path (← readPath calls)
    else readFiltered calls

def readFiltered : (calls : Nat) → Routine Expr
  | 0 => unfinished
  | calls + 1 => do
    let source ← readSource calls
    let predicates ← readPredicates calls
    match separatorOf (← current).kind with
    | none => return narrowed source predicates
    | some separator =>
      let _ ← advance
      return .continued (narrowed source predicates) separator (← readPath calls)

def readSource : (calls : Nat) → Routine Expr
  | 0 => unfinished
  | calls + 1 => do
    let t ← current
    match t.kind with
    | .stringLiteral =>
      let _ ← advance
      return .literal t.lexeme
    | .integer => return .number (.ofInt (← takeValue .integerInRange integer?))
    | .float => return .number (.ofFloat (← takeValue .floatInRange float?))
    | .trueWord =>
      let _ ← advance
      readTruth true
    | .falseWord =>
      let _ ← advance
      readTruth false
    | .dollar =>
      let _ ← advance
      return .reference (← readName)
    | .functionName => readCall calls
    | .leftParen =>
      let _ ← advance
      let e ← readBinary calls 1
      let _ ← expect .rightParen .rightParen
      return e
    | _ => refuse .expression

/-- The name is not looked at: whoever calls this has seen it. -/
def readCall : (calls : Nat) → Routine Expr
  | 0 => unfinished
  | calls + 1 => do
    let name ← advance
    let _ ← expect .leftParen .leftParen
    if (← current).kind = .rightParen then
      let _ ← advance
      return .call ⟨.absent, name.lexeme⟩ []
    else
      let args ← readArguments calls
      let _ ← expect .rightParen .commaOrRightParen
      return .call ⟨.absent, name.lexeme⟩ args

def readArguments : (calls : Nat) → Routine (List Expr)
  | 0 => unfinished
  | calls + 1 => do
    let first ← readBinary calls 1
    if (← current).kind = .comma then
      let _ ← advance
      return first :: (← readArguments calls)
    else return [first]

def readPath : (calls : Nat) → Routine Path
  | 0 => unfinished
  | calls + 1 => do
    let step ← readStep calls
    return (.absent, step) :: (← readFurtherSteps calls)

def readFurtherSteps : (calls : Nat) → Routine Path
  | 0 => unfinished
  | calls + 1 => do
    match separatorOf (← current).kind with
    | none => return []
    | some separator =>
      let _ ← advance
      let step ← readStep calls
      return (separator, step) :: (← readFurtherSteps calls)

def readStep : (calls : Nat) → Routine Step
  | 0 => unfinished
  | calls + 1 => do
    let t ← current
    match t.kind with
    | .dot =>
      let _ ← advance
      return .sign .self
    | .doubleDot =>
      let _ ← advance
      return .sign .parent
    | .axisName =>
      let _ ← advance
      let _ ← expect .doubleColon .doubleColon
      readTestStep calls (some ⟨t.lexeme, false⟩)
    | .atSign =>
      let _ ← advance
      readTestStep calls (some ⟨utf8 "attribute", true⟩)
    | _ => readTestStep calls none

def readTestStep : (calls : Nat) → (axis : Option Axis) → Routine Step
  | 0, _ => unfinished
  | calls + 1, axis => do
    let test ← readTest
    return .mk axis test (← readPredicates calls)

def readPredicates : (calls : Nat) → Routine (List Expr)
  | 0 => unfinished
  | calls + 1 => do
    if (← current).kind = .leftBracket then
      let _ ← advance
      let first ← readBinary calls 1
      let _ ← expect .rightBracket .rightBracket
      return first :: (← readPredicates calls)
    else return []

end

/-- One expression with nothing behind it. -/
def readWhole (calls : Nat) : Routine Expr := do
  let e ← readBinary calls 1
  if (← current).kind = .eof then return e else refuse .endOfInput

/-- The expression that a list of tokens denotes, all of it. -/
def readTokens (ts : List Token) : Option (Except SyntaxError Expr) :=
  let c : Cursor := ⟨ts, 0, 0⟩
  ((readWhole c.callDepth).run' c).run

end Routine

end NodePath
