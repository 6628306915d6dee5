import NodePath.Number.Numeral
import NodePath.Query.Basic
import NodePath.Text.Glyph
import NodePath.Text.Reader

/-!
# Reading queries

A query begins with the root sign and ends with its last segment. Blanks may stand before segments and
inside brackets. In a condition, a query stands for its existence, and is compared only if it selects at
most one value; a function that gives a value is always compared.
-/

namespace NodePath.Query

open NodePath.Text NodePath.Number

def isQueryBlank (c : Char) : Bool := c = ' ' || c = '\t' || c = '\n' || c = '\r'

def skipBlanks (cs : List Char) : NoMore cs := (takeRun isQueryBlank cs).2

def isNameFirst (c : Char) : Bool := isAsciiLetter c || c = '_' || 0x80 ≤ c.toNat

def isNameChar (c : Char) : Bool := isNameFirst c || isAsciiDigit c

def readName : Reader (List Char)
  | [] => none
  | c :: rest =>
    if isNameFirst c then
      let (more, after) := takeRun isNameChar rest
      some (c :: more, after.under c)
    else none

/-- Exactly four hexadecimal digits. -/
def readFourHex : Reader Nat
  | a :: b :: c :: d :: rest => do
    return (← hexNumber? [a, b, c, d], (((Fewer.tail d rest).under c).under b).under a)
  | _ => none

/-- The second half of a surrogate pair, an escape of its own. -/
def readLowSurrogate : Reader Nat := fun cs => do
  let mark ← acceptChar '\\' cs
  let letter ← acceptChar 'u' mark.1
  let (low, after) ← readFourHex letter.1
  if 0xDC00 ≤ low && low < 0xE000 then return (low, mark.andThen (letter.andThen after)) else none

/-- The character of a numeric escape, after its letter; two surrogates make one character. -/
def readUnicodeEscape : Reader Char := fun cs => do
  let (high, after) ← readFourHex cs
  if 0xD800 ≤ high && high < 0xDC00 then
    let (low, after₂) ← readLowSurrogate after.1
    let c ← charOfNat? (0x10000 + (high - 0xD800) * 0x400 + (low - 0xDC00))
    return (c, after.andThen after₂)
  else return (← charOfNat? high, after)

/-- The character that a letter after a backslash denotes; a quote denotes itself in its own kind of
quotation. -/
def escapedLetter? (quote letter : Char) : Option Char :=
  if letter = quote || letter = '\\' || letter = '/' then some letter
  else if letter = 'b' then some '\x08'
  else if letter = 'f' then some '\x0c'
  else if letter = 'n' then some '\n'
  else if letter = 'r' then some '\r'
  else if letter = 't' then some '\t'
  else none

/-- One character of a quoted text, which may be written as an escape. -/
def readQuotedChar (quote : Char) : Reader Char
  | [] => none
  | c :: rest =>
    if c.toNat < 0x20 then none
    else if c ≠ '\\' then some (c, .tail c rest)
    else
      match acceptChar 'u' rest with
      | some digits => do
        let (value, after) ← readUnicodeEscape digits.1
        return (value, (digits.andThen after).under c)
      | none =>
        match rest with
        | [] => none
        | letter :: rest => do
          return (← escapedLetter? quote letter, (Fewer.tail letter rest).under c)

/-- The rest of a quoted text up to its closing quote. -/
def readQuoted (quote : Char) (cs : List Char) : Option (List Char × Fewer cs) :=
  match acceptChar quote cs with
  | some after => some ([], after)
  | none => do
    let (c, ⟨next, h⟩) ← readQuotedChar quote cs
    let (more, after) ← readQuoted quote next
    return (c :: more, Fewer.andThen ⟨next, h⟩ after)
termination_by cs.length

def readText : Reader Bytes
  | [] => none
  | c :: rest =>
    if c = '"' || c = '\'' then do
      let (s, after) ← readQuoted c rest
      return (s.flatMap encode, after.under c)
    else none

/-- Digits without superfluous zeros. -/
def readNatural : Reader (List Char)
  | [] => none
  | c :: rest =>
    if isAsciiDigit c then
      let (more, after) := takeRun isAsciiDigit rest
      if c = '0' && !more.isEmpty then none else some (c :: more, after.under c)
    else none

/-- An integer without superfluous zeros, which may be minus zero. -/
def readDigits (cs : List Char) : Option (List Char × Fewer cs) :=
  match acceptChar '-' cs with
  | some sign => do
    let (digits, after) ← readNatural sign.1
    return ('-' :: digits, sign.andThen after)
  | none => readNatural cs

/-- The largest magnitude of an index. -/
def maxIndex : Nat := 0x1FFFFFFFFFFFFF

/-- An index or a bound of a slice. -/
def readIndex : Reader Int := fun cs => do
  let (digits, after) ← readDigits cs
  if digits = ['-', '0'] then none
  let i : Int ←
    match digits with
    | '-' :: ds => some (-(decimalNumber ds : Int))
    | ds => some (decimalNumber ds : Int)
  if i.natAbs ≤ maxIndex then return (i, after) else none

/-- The fraction of a number, empty if there is none. -/
def readFraction (cs : List Char) : Option (List Char × NoMore cs) :=
  match acceptChar '.' cs with
  | none => some ([], .all cs)
  | some point =>
    let (digits, after) := takeRun isAsciiDigit point.1
    if digits.isEmpty then none else some ('.' :: digits, (point.andMaybe after).toNoMore)

/-- An optional sign. -/
def readSign (cs : List Char) : List Char × NoMore cs :=
  if cs.head? = some '-' || cs.head? = some '+' then (cs.take 1, .drop 1 cs) else ([], .all cs)

/-- The exponent of a number, empty if there is none. -/
def readExponent (cs : List Char) : Option (List Char × NoMore cs) :=
  match (acceptChar 'e' cs).or (acceptChar 'E' cs) with
  | none => some ([], .all cs)
  | some mark =>
    let sign := readSign mark.1
    let digits := takeRun isAsciiDigit sign.2.1
    if digits.1.isEmpty then none
    else some ('e' :: sign.1 ++ digits.1, (mark.andMaybe (sign.2.andMaybe digits.2)).toNoMore)

def readNumber : Reader Binary64 := fun cs => do
  let (digits, after) ← readDigits cs
  let (fraction, after₂) ← readFraction after.1
  let (exponent, after₃) ← readExponent after₂.1
  let numeral := (digits ++ fraction ++ exponent).flatMap encode
  let x ←
    if fraction.isEmpty && exponent.isEmpty then (integer? numeral).map Binary64.ofInt
    else float? numeral
  return (x, after.andMaybe (after₂.andMaybe after₃))

/-- A fixed word that no further name character follows. -/
def readWord (word : String) : Reader Unit := fun cs => do
  let (name, after) ← readName cs
  if name = word.toList then return ((), after) else none

def readLiteral (cs : List Char) : Option (Literal × Fewer cs) :=
  ((readText cs).map fun (s, after) => (.text s, after)).or <|
  ((readNumber cs).map fun (x, after) => (.number x, after)).or <|
  ((readWord "true" cs).map fun (_, after) => (.flag true, after)).or <|
  ((readWord "false" cs).map fun (_, after) => (.flag false, after)).or <|
  (readWord "null" cs).map fun (_, after) => (.null, after)

/-- An optional index between blanks. -/
def readOptionalIndex (cs : List Char) : Option Int × NoMore cs :=
  let start := skipBlanks cs
  match readIndex start.1 with
  | none => (none, start)
  | some (i, after) => (some i, (start.andThen (after.andMaybe (skipBlanks after.1))).toNoMore)

/-- The step of a slice, after its colon, if there is one. -/
def readStep (cs : List Char) : Option Int × NoMore cs :=
  match acceptChar ':' cs with
  | none => (none, .all cs)
  | some colon =>
    let (step, after) := readOptionalIndex colon.1
    (step, (colon.andMaybe after).toNoMore)

/-- A slice: two or three optional indexes with colons between them. -/
def readSlice : Reader Selector := fun cs => do
  let (start, after) := readOptionalIndex cs
  let colon ← acceptChar ':' after.1
  let (stop, after₂) := readOptionalIndex colon.1
  let (step, after₃) := readStep after₂.1
  return (.slice start stop step, after.andThen (colon.andMaybe (after₂.andMaybe after₃)))

/-- One selector in brackets; `condition` reads the condition of a filter. -/
def readSelector (condition : Reader Condition) (cs : List Char) : Option (Selector × Fewer cs) :=
  match acceptChar '*' cs, acceptChar '?' cs with
  | some after, _ => some (.wildcard, after)
  | none, some mark => do
    let (c, after) ← condition mark.1
    return (.filter c, mark.andThen after)
  | none, none =>
    ((readText cs).map fun (s, after) => (.name s, after)).or <|
    (readSlice cs).or <|
    (readIndex cs).map fun (i, after) => (.index i, after)

/-- What a reader reads between blanks. -/
def readSpaced {α : Type} (reader : Reader α) : Reader α := fun cs => do
  let start := skipBlanks cs
  let (x, after) ← reader start.1
  return (x, start.andThen (after.andMaybe (skipBlanks after.1)))

/-- Selectors with commas between them, up to the closing bracket. -/
def readSelectors (condition : Reader Condition) (cs : List Char) :
    Option (List Selector × Fewer cs) := do
  let (first, after) ← readSpaced (readSelector condition) cs
  match acceptChar ']' after.1 with
  | some close => return ([first], after.andThen close)
  | none =>
    let comma ← acceptChar ',' after.1
    let ⟨next, h⟩ := after.andThen comma
    let (others, last) ← readSelectors condition next
    return (first :: others, Fewer.andThen ⟨next, h⟩ last)
termination_by cs.length

/-- What follows a dot or two: a name, a wildcard or, after two, selectors in brackets. -/
def readAfterDots (condition : Reader Condition) (descendant : Bool) (cs : List Char) :
    Option (Segment × Fewer cs) :=
  match acceptChar '*' cs, acceptChar '[' cs with
  | some after, _ => some (.mk descendant [.wildcard], after)
  | none, some bracket =>
    if descendant then do
      let (selectors, after) ← readSelectors condition bracket.1
      return (.mk true selectors, bracket.andThen after)
    else none
  | none, none => do
    let (name, after) ← readName cs
    return (.mk descendant [.name (name.flatMap encode)], after)

/-- A segment that begins with a dot, after it. -/
def readDotted (condition : Reader Condition) (cs : List Char) : Option (Segment × Fewer cs) :=
  match acceptChar '.' cs with
  | some dot => do
    let (s, after) ← readAfterDots condition true dot.1
    return (s, dot.andThen after)
  | none => readAfterDots condition false cs

inductive SegmentReading (cs : List Char) where
  /-- No segment begins here. -/
  | none
  | malformed
  | segment (s : Segment) (rest : Fewer cs)

/-- A segment without the blanks before it. -/
def readSegment (condition : Reader Condition) (cs : List Char) : SegmentReading cs :=
  match acceptChar '[' cs, acceptChar '.' cs with
  | some bracket, _ =>
    match readSelectors condition bracket.1 with
    | some (selectors, after) => .segment (.mk false selectors) (bracket.andThen after)
    | Option.none => .malformed
  | Option.none, some dot =>
    match readDotted condition dot.1 with
    | some (s, after) => .segment s (dot.andThen after)
    | Option.none => .malformed
  | Option.none, Option.none => .none

/-- All segments that follow. Blanks after the last one are not taken. -/
def readSegments (condition : Reader Condition) (cs : List Char) :
    Option (List Segment × NoMore cs) :=
  let start := skipBlanks cs
  match readSegment condition start.1 with
  | .none => some ([], .all cs)
  | .malformed => none
  | .segment s after => do
    let ⟨next, h⟩ := start.andThen after
    let (others, last) ← readSegments condition next
    return (s :: others, (Fewer.andMaybe ⟨next, h⟩ last).toNoMore)
termination_by cs.length

/-- A query within a condition: whether it starts at the root, and its segments. -/
def readInnerQuery (condition : Reader Condition) (cs : List Char) :
    Option ((Bool × List Segment) × Fewer cs) :=
  match acceptChar '$' cs, acceptChar '@' cs with
  | some sign, _ => do
    let (segments, after) ← readSegments condition sign.1
    return ((true, segments), sign.andMaybe after)
  | none, some sign => do
    let (segments, after) ← readSegments condition sign.1
    return ((false, segments), sign.andMaybe after)
  | none, none => none

/-- A sign of comparison: one or two characters. -/
def readCompareOp (cs : List Char) : Option (CompareOp × Fewer cs) :=
  match cs with
  | [] => none
  | c :: rest =>
    match c, acceptChar '=' rest with
    | '=', some after => some (.equal, after.under c)
    | '!', some after => some (.notEqual, after.under c)
    | '<', some after => some (.lessEqual, after.under c)
    | '>', some after => some (.greaterEqual, after.under c)
    | '<', none => some (.less, .tail c rest)
    | '>', none => some (.greater, .tail c rest)
    | _, _ => none

/-- The closing parenthesis of a call, after blanks. -/
def readClosing (cs : List Char) : Option (Fewer cs) := do
  let start := skipBlanks cs
  let after ← acceptChar ')' start.1
  return start.andThen after

/-- What a reader reads after blanks, with the closing parenthesis. -/
def readArgument {α : Type} (reader : Reader α) : Reader α := fun cs => do
  let start := skipBlanks cs
  let (x, after) ← reader start.1
  let close ← readClosing after.1
  return (x, start.andThen (after.andThen close))

/-- A function name with the opening parenthesis right behind it. -/
def readFunctionName (cs : List Char) : Option (String × Fewer cs) := do
  let (name, after) ← readName cs
  let parenthesis ← acceptChar '(' after.1
  return (String.ofList name, after.andThen parenthesis)

/-- An operand: a literal, a query with at most one value, or a function with a value, whose arguments
nest at most `levels` deep. -/
def readOperand (condition : Reader Condition) : (levels : Nat) → Reader Operand
  | 0, _ => none
  | levels + 1, cs =>
    match readFunctionName cs with
    | some (name, args) =>
      if name = "length" then do
        let (operand, after) ← readArgument (readOperand condition levels) args.1
        return (.length operand, args.andThen after)
      else if name = "count" then do
        let ((rooted, segments), after) ← readArgument (readInnerQuery condition) args.1
        return (.count rooted segments, args.andThen after)
      else if name = "value" then do
        let ((rooted, segments), after) ← readArgument (readInnerQuery condition) args.1
        return (.value rooted segments, args.andThen after)
      else none
    | none =>
      match readInnerQuery condition cs with
      | some ((rooted, segments), after) =>
        if isSingular segments then some (.query rooted segments, after) else none
      | none => (readLiteral cs).map fun (l, after) => (.literal l, after)

/-- The two arguments of a test on texts, with the closing parenthesis. -/
def readTestArguments (condition : Reader Condition) (levels : Nat) (cs : List Char) :
    Option ((Operand × Operand) × Fewer cs) := do
  let (text, after) ← readSpaced (readOperand condition levels) cs
  let comma ← acceptChar ',' after.1
  let (pattern, after₂) ← readArgument (readOperand condition levels) comma.1
  return ((text, pattern), after.andThen (comma.andThen after₂))

/-- A function that is a condition by itself. -/
def readTest (condition : Reader Condition) (levels : Nat) (cs : List Char) :
    Option (Condition × Fewer cs) := do
  let (name, args) ← readFunctionName cs
  if name ≠ "match" ∧ name ≠ "search" then none
  let ((text, pattern), after) ← readTestArguments condition levels args.1
  return (if name = "match" then .matches text pattern else .search text pattern, args.andThen after)

/-- The rest of a comparison after its left side. -/
def readRightSide (condition : Reader Condition) (levels : Nat) (left : Operand) (cs : List Char) :
    Option (Condition × Fewer cs) := do
  let (op, after) ← readSpaced readCompareOp cs
  let (right, after₂) ← readOperand condition levels after.1
  return (.compare op left right, after.andThen after₂)

/-- A comparison of two operands. -/
def readComparison (condition : Reader Condition) (levels : Nat) (cs : List Char) :
    Option (Condition × Fewer cs) := do
  let (left, after) ← readOperand condition levels cs
  let (c, after₂) ← readRightSide condition levels left after.1
  return (c, after.andThen after₂)

/-- A query that is compared, if it selects at most one value and a comparison follows, and that
stands for its existence otherwise. -/
def readQueryCondition (condition : Reader Condition) (levels : Nat) (cs : List Char) :
    Option (Condition × Fewer cs) := do
  let ((rooted, segments), after) ← readInnerQuery condition cs
  if isSingular segments && (readCompareOp (skipBlanks after.1).1).isSome then
    let (c, after₂) ← readRightSide condition levels (.query rooted segments) after.1
    return (c, after.andThen after₂)
  else return (.found rooted segments, after)

/-- A query that stands for its existence. -/
def readFound (condition : Reader Condition) (cs : List Char) : Option (Condition × Fewer cs) := do
  let ((rooted, segments), after) ← readInnerQuery condition cs
  return (.found rooted segments, after)

/-- A condition in parentheses. -/
def readParenthesized (condition : Reader Condition) (cs : List Char) :
    Option (Condition × Fewer cs) := do
  let start ← acceptChar '(' cs
  let (c, after) ← condition start.1
  let close ← readClosing after.1
  return (c, start.andThen (after.andThen close))

/-- What may stand after a negation. -/
def readNegated (condition : Reader Condition) (levels : Nat) (cs : List Char) :
    Option (Condition × Fewer cs) :=
  match cs.head? with
  | some '(' => readParenthesized condition cs
  | some '@' | some '$' => readFound condition cs
  | _ => readTest condition levels cs

/-- A condition without operators between conditions. -/
def readBasic (condition : Reader Condition) (levels : Nat) (cs : List Char) :
    Option (Condition × Fewer cs) :=
  match acceptChar '!' cs with
  | some sign => do
    let start := skipBlanks sign.1
    let (c, after) ← readNegated condition levels start.1
    return (.not c, sign.andMaybe (start.andThen after).toNoMore)
  | none =>
    match cs.head? with
    | some '(' => readParenthesized condition cs
    | some '@' | some '$' => readQueryCondition condition levels cs
    | _ => (readTest condition levels cs).or (readComparison condition levels cs)

/-- A sign that is written twice. -/
def acceptTwice (c : Char) (cs : List Char) : Option (Fewer cs) := do
  let first ← acceptChar c cs
  let second ← acceptChar c first.1
  return first.andThen second

/-- Conditions that must all hold. -/
def readConjunction (condition : Reader Condition) (levels : Nat) (cs : List Char) :
    Option (Condition × Fewer cs) := do
  let (first, after) ← readSpaced (readBasic condition levels) cs
  match acceptTwice '&' after.1 with
  | none => return (first, after)
  | some sign =>
    let ⟨next, h⟩ := after.andThen sign
    let (others, last) ← readConjunction condition levels next
    return (.and first others, Fewer.andThen ⟨next, h⟩ last)
termination_by cs.length

/-- Conditions of which one must hold. -/
def readDisjunction (condition : Reader Condition) (levels : Nat) (cs : List Char) :
    Option (Condition × Fewer cs) := do
  let (first, after) ← readConjunction condition levels cs
  match acceptTwice '|' after.1 with
  | none => return (first, after)
  | some sign =>
    let ⟨next, h⟩ := after.andThen sign
    let (others, last) ← readDisjunction condition levels next
    return (.or first others, Fewer.andThen ⟨next, h⟩ last)
termination_by cs.length

/-- A condition whose parts nest at most `levels` deep. -/
def readCondition : (levels : Nat) → Reader Condition
  | 0, _ => none
  | levels + 1, cs => readDisjunction (readCondition levels) (levels + 1) cs

/-- The segments of a query on the root. No text nests deeper than it is long. -/
def ofText? (s : Bytes) : Option (List Segment) := do
  if !isWellFormed s then none
  match chars s with
  | '$' :: rest =>
    let (segments, ⟨after, _⟩) ← readSegments (readCondition (rest.length + 1)) rest
    if after.isEmpty then some segments else none
  | _ => none

end NodePath.Query
