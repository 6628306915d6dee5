import NodePath.Yaml.Token

/-!
# Quotations

A text in single quotes knows one escape, the doubled quote; a text in double quotes has escapes that
begin with a backslash. A line break counts as one blank, and a number of them as one break less; the
white space around breaks is left out.
-/

namespace NodePath.Yaml

inductive Quote where
  | single
  | double
deriving DecidableEq, Repr

def Quote.sign : Quote → Char
  | .single => '\''
  | .double => '"'

/-- A quotation that is being read. -/
structure Quotation where
  /-- The text so far, the last character first. -/
  reversed : List Char := []
  /-- Whether nothing but white space was read since the last line break. -/
  atMargin : Bool := false
  line : Nat
  /-- The column of the next character. -/
  column : Int
  /-- Whether a line break was read. -/
  broken : Bool := false
  /-- How many characters after the closing quote are passed over. -/
  overrun : Nat := 0
  /-- Everything that was read, the last character first. -/
  source : List Char
deriving Repr

/-- The character that a one letter escape denotes. -/
def escaped? : Char → Option Char
  | '0' => some '\x00'
  | 'a' => some '\x07'
  | 'b' => some '\x08'
  | 't' | '\t' => some '\t'
  | 'n' => some '\n'
  | 'v' => some '\x0b'
  | 'f' => some '\x0c'
  | 'r' => some '\r'
  | 'e' => some '\x1b'
  | ' ' => some ' '
  | '"' => some '"'
  | '/' => some '/'
  | '\\' => some '\\'
  | 'N' => some '\u0085'
  | '_' => some '\u00a0'
  | 'L' => some '\u2028'
  | 'P' => some '\u2029'
  | _ => none

/-- How many digits follow an escape letter. -/
def escapeWidth? : Char → Option Nat
  | 'x' => some 2
  | 'u' => some 4
  | 'U' => some 8
  | _ => none

/-- The value of a character as a hexadecimal digit; any character has one. -/
def looseDigit (c : Char) : Int :=
  if 'A' ≤ c && c ≤ 'F' then (c.toNat : Int) - 55
  else if 'a' ≤ c && c ≤ 'f' then (c.toNat : Int) - 87
  else (c.toNat : Int) - 48

def looseNumber (cs : List Char) : Int := cs.foldl (fun n c => n * 16 + looseDigit c) 0

/-- The character of a number of 32 bits; a number that is no scalar value gives the replacement. -/
def charOfCode (n : Int) : Char :=
  let n := n.bmod 0x100000000
  if 0 ≤ n then (Text.charOfNat? n.toNat).getD '\ufffd' else '\ufffd'

def isHighSurrogate (n : Int) : Bool := 0xD800 ≤ n && n < 0xDC00

def isLowSurrogate (n : Int) : Bool := 0xDC00 ≤ n && n < 0xE000

/-- The character of an escape by number, and how many characters of the text belong to it. Two escapes
with four digits may give the halves of a surrogate pair. -/
def codeEscape? (letter : Char) (width : Nat) (digits : List Char) : Option (Char × Nat) :=
  if digits.length < width then none
  else
    let n := looseNumber (digits.take width)
    if letter = 'u' && isHighSurrogate n then
      match digits.drop width with
      | '\\' :: 'u' :: low =>
        let m := looseNumber (low.take width)
        if low.length < width || !isLowSurrogate m then none
        else some (charOfCode (0x10000 + (n - 0xD800) * 0x400 + (m - 0xDC00)), 2 * width + 2)
      | _ => none
    else some (charOfCode n, width)

namespace Quotation

def add (q : Quotation) (c : Char) : Quotation := { q with reversed := c :: q.reversed }

/-- A quotation after `n` further characters of the line. -/
def advance (q : Quotation) (n : Nat) : Quotation := { q with column := q.column + n }

/-- A quotation at the beginning of the next line. -/
def nextLine (q : Quotation) : Quotation :=
  { q with atMargin := true, line := q.line + 1, column := 1, broken := true }

/-- Reads a line break: the first one counts as a blank, a further one as itself. -/
def foldBreak (q : Quotation) : Quotation :=
  let front := q.reversed.dropWhile (· = ' ')
  { q.nextLine with reversed := (if q.atMargin then '\n' else ' ') :: front }

/-- Reads a tab in double quotes: it counts unless nothing but white space follows on its line. A tab that
counts puts the end of the quotation off by a character, unless the closing quote follows at once. The
result says how many further characters have been read. -/
def addTab (q : Quotation) (rest : List Char) : Quotation × Nat :=
  let line := rest.takeWhile (!isBreak ·)
  if line.all isSpace then (q.advance (line.length + 1), line.length)
  else if rest.head? = some '"' then ((q.add '\t').advance 1, 0)
  else ({ (q.add '\t').advance 2 with overrun := q.overrun + 1 }, 0)

/-- Reads an escape after its backslash. The result says how many further characters have been read. -/
def addEscape? (q : Quotation) (rest : List Char) : Option (Quotation × Nat) :=
  let q := { q with atMargin := false }
  match rest with
  | [] => none
  | '\n' :: _ => some (q.nextLine, 1)
  | '\r' :: '\n' :: _ => some (q.nextLine.advance 2, 2)
  | '\r' :: _ => some (q.nextLine.advance 1, 1)
  | c :: digits =>
    match escapeWidth? c with
    | none => (escaped? c).map fun e => ((q.add e).advance 2, 1)
    | some width =>
      (codeEscape? c width digits).map fun (e, n) => ((q.add e).advance (n + 2), n + 1)

/-- Reads up to the closing quote; a tab may not stand at or before the column `delimiter`. The first `skip`
characters have already been read. -/
def close? (quote : Quote) (delimiter : Int) :
    (skip : Nat) → Quotation → List Char → Option (Quotation × List Char)
  | _, _, [] => none
  | skip + 1, q, c :: rest => close? quote delimiter skip { q with source := c :: q.source } rest
  | 0, q, c :: rest =>
    let q := { q with source := c :: q.source }
    if isBreak c then
      if atMarker rest then none else close? quote delimiter 0 q.foldBreak rest
    else if q.atMargin && c = ' ' then close? quote delimiter 0 (q.advance 1) rest
    else if q.atMargin && c = '\t' then
      if q.column ≤ delimiter then none else close? quote delimiter 0 (q.advance 1) rest
    else if quote = .double && c = '\\' then
      match q.addEscape? rest with
      | none => none
      | some (q, skip) => close? quote delimiter skip q rest
    else if quote = .double && c = '\t' then
      let (q, skip) := q.addTab rest
      close? quote delimiter skip q rest
    else if c ≠ quote.sign then
      close? quote delimiter 0 ({ q with atMargin := false }.add c |>.advance 1) rest
    else if quote = .single && rest.head? = some '\'' then
      close? quote delimiter 1 ((q.add c).advance 2) rest
    else some (q.advance 1, rest.drop q.overrun)

/-- The text that has been read. -/
def text (q : Quotation) : List Char := q.reversed.reverse

end Quotation

end NodePath.Yaml
