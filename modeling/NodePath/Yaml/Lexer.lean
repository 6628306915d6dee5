import NodePath.Yaml.Block
import NodePath.Yaml.Quotation

/-!
# Cutting a document stream into tokens

A stream is read character by character. Text is collected until a sign of the structure or a line that
stands too far left ends it. The column of the last key or hyphen tells how far in a line has to stand to
belong to it.
-/

namespace NodePath.Yaml

/-- How a line begins, seen from the last key or hyphen. -/
inductive Trend where
  | level
  | inward
  | outward
deriving DecidableEq, Repr

structure Lexer where
  line : Nat := 1
  column : Int := 1
  /-- How many blanks the line begins with. -/
  indent : Nat := 0
  /-- The column of the last key or hyphen, or zero. -/
  delimiter : Int := 0
  trend : Trend := .level
  /-- Whether nothing but blanks of the line has been read. -/
  atMargin : Bool := true
  /-- Whether the name of an anchor or alias is being read. -/
  inName : Bool := false
  inDirective : Bool := false
  /-- How many bracketed lists are open. -/
  lists : Int := 0
  /-- How many bracketed maps are open. -/
  maps : Nat := 0
  /-- Where a text began that goes on over a line break. -/
  origin : Option (Nat × Int) := none
  buffer : Buffer := {}
  block : Option Block := none
  /-- The tokens so far, the last one first. -/
  reversed : List Token := []

namespace Lexer

/-- What is left to read after a step, if there was no fault. -/
abbrev Step := Option (Lexer × List Char)

def inBrackets (l : Lexer) : Bool := 0 < l.lists || 0 < l.maps

def push (l : Lexer) (t : Token) : Lexer := { l with reversed := t :: l.reversed }

def clear (l : Lexer) : Lexer := { l with buffer := {}, block := none }

def record (l : Lexer) (c : Char) : Lexer := { l with buffer := l.buffer.record c }

def advance (l : Lexer) (n : Nat) : Lexer := { l with column := l.column + n }

def nextLine (l : Lexer) : Lexer :=
  { l with
    line := l.line + 1, column := 1, indent := 0, atMargin := true, inName := false,
    inDirective := false }

/-- A token at the current place. -/
def tokenHere (l : Lexer) (mark : Mark) (value : List Char) : Token :=
  ⟨mark, value, l.buffer.source.reverse ++ value, l.line, l.column⟩

/-- Pushes a sign of the structure and passes over it. -/
def sign (l : Lexer) (mark : Mark) (value : String) : Lexer :=
  ((l.push (l.tokenHere mark value.toList)).advance value.length).clear

/-! ## Text -/

/-- Where the first occurrence of a text begins, counted from one, or zero. -/
def occurrence (part : List Char) : (place : Nat) → List Char → Nat
  | place, [] => if part.isEmpty then place else 0
  | place, c :: rest =>
    if part.isPrefixOf (c :: rest) then place else occurrence part (place + 1) rest

/-- The column of the text in the buffer. -/
def textColumn (l : Lexer) : Int :=
  if l.block.isSome then occurrence l.buffer.whole 1 l.buffer.source.reverse
  else l.column - l.buffer.length

/-- A text is no number, truth value or nothing after a tag that is not a known one, nor in a block. -/
def textMark (l : Lexer) : Mark :=
  match l.block, l.reversed.head? with
  | some _, _ => .text
  | none, some t => if t.mark = .tag && Tag.ofText t.value = .other then .text else .plain
  | none, none => .plain

/-- The text in the buffer as a token, if there is one. -/
def bufferedToken? (l : Lexer) : Option Token :=
  let text :=
    match l.block with
    | some b => b.chomp l.buffer.kept
    | none => l.buffer.kept
  let (line, column) := l.origin.getD (l.line, l.textColumn)
  if text.isEmpty then none
  else some ⟨l.textMark, text, l.buffer.source.reverse, line, column⟩

/-- Pushes the text in the buffer. -/
def cut (l : Lexer) : Lexer :=
  match l.bufferedToken? with
  | some t => { l.push t with origin := none, buffer := {} }
  | none => { l with origin := none, buffer := l.buffer.spend }

/-- Reads a character of a text. -/
def addText (l : Lexer) (c : Char) (rest : List Char) : Step :=
  some ({ l with buffer := (l.buffer.add c).record c }.advance 1, rest)

/-! ## Blocks -/

/-- Leaves a block whose last line has been read. A block has a text, be it empty; one in the first column
must not be empty. -/
def leaveBlock (l : Lexer) : Option Lexer :=
  match l.reversed with
  | [] => some { l with block := none }
  | t :: _ =>
    if t.column = 1 then none
    else if t.mark = .text then some { l with block := none }
    else some { l.push ⟨.text, [], [], l.line, l.column⟩ with block := none }

/-- Ends a block with the text that has been read. -/
def closeBlock (l : Lexer) (b : Block) : Lexer :=
  (l.push ⟨.text, b.chomp l.buffer.kept, l.buffer.source.reverse, l.line, l.column⟩).clear

/-- Reads a character of a block. -/
def stepBlock (l : Lexer) (b : Block) (c : Char) (rest : List Char) : Step :=
  let l := l.record c
  if rest.isEmpty then
    let (b, buffer) :=
      if l.atMargin && c = ' ' then b.indent l.column l.buffer else (b, l.buffer.add c)
    let b := b.setColumn l.column
    if b.isIndented then some (({ l with buffer } : Lexer).closeBlock b |>.advance 1, rest) else none
  else if isBreak c then
    let b := b.nextLine l.column
    let l := { l with buffer := l.buffer.add c, block := some b }.nextLine
    some (if atMarker rest then l.closeBlock b else l, rest)
  else if l.atMargin && c = ' ' then
    let (b, buffer) := b.indent l.column l.buffer
    some ({ l with buffer, block := some b }.advance 1, rest)
  else if c = '\t' && b.isMargin l.column && l.atMargin then none
  else if c = '\t' && !b.isMargin l.column then
    some ({ l with buffer := l.buffer.addWithTab c }.advance 1, rest)
  else if b.first = 0 && l.column < b.reached then none
  else
    let b := b.setColumn l.column
    if !b.isIndented then none
    else
      let (folded, buffer) := b.fold l.column l.buffer
      some
        ({ l with
          delimiter := if 0 < b.first - 1 then b.first - 1 else l.delimiter
          buffer := buffer.addWithTab c
          block := some folded }.advance 1, rest)

/-- Reads the header of a block and its line break. The options end before a comment; the last character
of a stream without a line break is none. -/
def openBlock (l : Lexer) (c : Char) (rest : List Char) : Step := do
  let (line, after) := rest.span (!isBreak ·)
  let header := trimEnd (· = ' ') (if after.isEmpty then line.dropLast else line)
  let (front, comment) := header.span (· ≠ '#')
  let commented := !comment.isEmpty && !front.isEmpty
  let option := trimEnd isSpace (if commented then front else header)
  let delimiter := if l.column = 1 then 1 else l.delimiter
  let b ← Block.ofHeader? (c = '|') delimiter option
  let l := l.push (l.tokenHere (if c = '|' then .literal else .folded) (c :: option))
  let l :=
    if commented then l.push ⟨.comment, comment, comment, l.line, l.column + 1 + front.length⟩ else l
  return ({ l with delimiter, trend := .level, buffer := {}, block := some b }.nextLine, after.drop 1)

/-! ## Signs -/

/-- Reads a quotation, unless a text goes on. -/
def readQuotation (l : Lexer) (quote : Quote) (c : Char) (rest : List Char) : Step :=
  if l.buffer.holdsText then l.addText c rest
  else do
    let start : Quotation :=
      { line := l.line, column := l.column + 1, source := c :: l.buffer.source }
    let (q, rest) ← Quotation.close? quote l.delimiter 0 start rest
    let l := (l.push ⟨.quotation, q.text, q.source.reverse, l.line, l.column⟩).clear
    if q.broken then return ({ l.nextLine with line := q.line, column := q.column }, rest)
    else return ({ l with column := q.column }, rest)

/-- Reads a comment with its line break. -/
def readComment (l : Lexer) (c : Char) (rest : List Char) : Step :=
  if l.buffer.holdsText && !(l.buffer.source.head?.all isGap) then l.addText c rest
  else
    let l := l.cut
    let (comment, after) := rest.span (!isBreak ·)
    some ((l.push (l.tokenHere .comment comment)).nextLine.clear, after.drop 1)

/-- Reads a tag. A blank behind it is passed over without being counted. -/
def readTag (l : Lexer) (c : Char) (rest : List Char) : Step :=
  if l.buffer.holdsText || l.inDirective then l.addText c rest
  else
    let ends := fun c =>
      c = ' ' || isBreak c || (c = ',' && l.inBrackets) || c = '\x7b' || c = '\x7d'
    let (name, after) := rest.span (!ends ·)
    let tagged := l.push (l.tokenHere .tag (c :: name))
    match after with
    | [] => some (l.clear.advance name.length, [])
    | ' ' :: after => some (tagged.clear.advance (name.length + 1), after)
    | d :: after =>
      if d = '\x7b' || d = '\x7d' then none
      else some (tagged.clear.advance name.length, d :: after)

/-- Reads a sign that introduces a name, unless a text goes on. -/
def readNamed (l : Lexer) (mark : Mark) (c : Char) (rest : List Char) : Step :=
  if l.buffer.holdsText then l.addText c rest
  else some ({ l.sign mark (String.singleton c) with inName := true }, rest)

def readDirective (l : Lexer) (c : Char) (rest : List Char) : Step :=
  if l.buffer.holdsText || l.indent ≠ 0 then l.addText c rest
  else some ({ l.sign .directive "%" with inDirective := true }, rest)

def readExplicitKey (l : Lexer) (c : Char) (rest : List Char) : Step :=
  if l.buffer.holdsText || !rest.head?.any isSpace then l.addText c rest
  else some ({ l.sign .explicitKey "?" with delimiter := l.column }, rest)

/-- Whether a marker of three equal characters stands here. -/
def isMarker (l : Lexer) (c : Char) (rest : List Char) : Bool :=
  l.indent = 0 && l.column = 1 && (rest.takeWhile (· = c)).length = 2

def readDocumentEnd (l : Lexer) (c : Char) (rest : List Char) : Step :=
  if l.isMarker c rest then some (l.cut.sign .documentEnd "...", rest.drop 2) else l.addText c rest

/-- Reads a hyphen: the beginning of a document or of a list item, or a part of a text. A text that goes on
with a hyphen on a new line becomes a block. -/
def readHyphen (l : Lexer) (c : Char) (rest : List Char) : Step :=
  if l.isMarker c rest then
    some ({ l.cut.sign .documentStart "---" with delimiter := 0, indent := 0 }, rest.drop 2)
  else if l.buffer.holdsText && l.trend = .inward then
    { l with block := some (Block.ofHyphen l.column) }.addText c rest
  else if l.buffer.holdsText || !rest.head?.all (fun d => isGap d || d = '\x00') then l.addText c rest
  else if l.buffer.beginsWithTab then none
  else some ({ l.cut.sign .item "-" with delimiter := l.column }, rest)

/-- Whether a colon before a gap follows the key that takes over other maps. -/
def mergeFollows : List Char → Bool
  | [] => false
  | c :: rest =>
    if c = ' ' then mergeFollows rest
    else if c = ':' then rest.head?.any (fun d => d = ' ' || isBreak d) || mergeFollows rest
    else false

def readMerge (l : Lexer) (c : Char) (rest : List Char) : Step :=
  if (rest.takeWhile (· = '<')).length = 1 && mergeFollows (rest.drop 1) then
    some ({ l.sign .merge "<<" with delimiter := l.column }, rest.drop 1)
  else l.addText c rest

/-- Whether a colon stands behind a key. In a bracketed map it needs no gap behind it. -/
def endsKey (l : Lexer) (rest : List Char) : Bool :=
  !l.inDirective &&
    if l.maps = 0 then rest.head?.all isGap
    else rest.head? ≠ some '/' && !(l.reversed.head?.any (·.mark = .colon))

/-- Reads the colon behind a key; the column of the key is remembered. -/
def readColon (l : Lexer) (c : Char) (rest : List Char) : Step :=
  if !l.endsKey rest then l.addText c rest
  else if l.buffer.beginsWithTab then none
  else
    let delimiter :=
      match l.bufferedToken?, l.reversed.head? with
      | some key, _ => key.column
      | none, some t => if t.mark = .quotation then t.column else l.delimiter
      | none, none => l.delimiter
    some ({ l.cut.sign .colon ":" with delimiter }, rest)

/-- Reads a bracket or a comma of a bracketed part. -/
def readBracket (l : Lexer) (c : Char) (rest : List Char) : Step :=
  if c = '\x7b' then
    if l.buffer.holdsText && !l.inBrackets then l.addText c rest
    else some ({ l.cut.sign .openMap "\x7b" with maps := l.maps + 1 }, rest)
  else if c = '[' then
    if l.buffer.holdsText && !l.inBrackets then l.addText c rest
    else some ({ l.cut.sign .openList "[" with lists := l.lists + 1 }, rest)
  else if c = '\x7d' then
    if l.maps = 0 then l.addText c rest
    else some ({ l.cut.sign .closeMap "\x7d" with maps := l.maps - 1 }, rest)
  else if c = ']' then
    if l.buffer.holdsText && l.lists ≤ 0 then l.addText c rest
    else some ({ l.cut.sign .closeList "]" with lists := l.lists - 1 }, rest)
  else if l.inBrackets then some (l.cut.sign .comma ",", rest)
  else l.addText c rest

/-! ## White space -/

/-- Reads a line break. A text may go on after it; a pair of characters counts as one break. -/
def readBreak (l : Lexer) (c : Char) (rest : List Char) : Step :=
  let gap : Nat := l.buffer.gap
  let here : Nat × Int := (l.line, l.column - l.buffer.kept.length)
  let origin := if l.buffer.isEmpty then l.origin else some (l.origin.getD here)
  let l :=
    { l with
      column := l.column - gap
      origin := origin.map fun (line, column) => (line, column - gap)
      buffer := l.buffer.dropGap }
  let paired := c = '\r' && rest.head? = some '\n'
  let l := if paired then l.record '\r' else l
  let rest := if paired then rest.drop 1 else rest
  let l := if rest.isEmpty || l.inName || l.inDirective then l.cut else l
  let buffer :=
    if l.buffer.holdsText && l.atMargin then l.buffer.addBreak else l.buffer.add ' '
  some (({ l with buffer }.record (if paired then '\n' else c)).nextLine, rest)

def readBlank (l : Lexer) (c : Char) (rest : List Char) : Step :=
  if l.atMargin then some ((l.advance 1).record c, rest)
  else if l.inDirective then some ((l.cut.advance 1).record c, rest)
  else if l.inName then some (({ l.cut with inName := false }.advance 1).record c, rest)
  else l.addText c rest

/-- Reads a tab. Behind the last key or hyphen it is left out; it may not indent a line. -/
def readTab (l : Lexer) (c : Char) (rest : List Char) : Step :=
  if (l.buffer.holdsText && l.delimiter = 0) || l.delimiter < l.column then
    some ({ l with indent := l.indent + 1 }.record c, rest)
  else if l.inBrackets || !l.atMargin then l.addText c rest
  else none

/-! ## The whole stream -/

/-- Compares the beginning of a line with the last key or hyphen. -/
def setTrend (l : Lexer) (c : Char) : Lexer :=
  if !l.atMargin then { l with trend := .level }
  else if isBreak c || c = '\t' then l
  else if c = ' ' then { l with indent := l.indent + 1 }
  else
    { l with
      atMargin := false
      trend :=
        if l.delimiter = 0 then l.trend else if l.delimiter < l.column then .inward else .outward }

def readChar (l : Lexer) (c : Char) (rest : List Char) : Step :=
  if c = '\x7b' || c = '\x7d' || c = '[' || c = ']' || c = ',' then l.readBracket c rest
  else if c = '.' then l.readDocumentEnd c rest
  else if c = '<' then l.readMerge c rest
  else if c = '-' then l.readHyphen c rest
  else if c = ':' then l.readColon c rest
  else if (c = '|' || c = '>') && !l.buffer.holdsText then l.openBlock c rest
  else if c = '!' then l.readTag c rest
  else if c = '%' then l.readDirective c rest
  else if c = '?' then l.readExplicitKey c rest
  else if c = '&' then l.readNamed .anchor c rest
  else if c = '*' then l.readNamed .alias c rest
  else if c = '#' then l.readComment c rest
  else if c = '\'' then l.readQuotation .single c rest
  else if c = '"' then l.readQuotation .double c rest
  else if isBreak c then l.readBreak c rest
  else if c = ' ' then l.readBlank c rest
  else if (c = '@' || c = '\x60') && !l.buffer.holdsText then none
  else if c = '\t' then l.readTab c rest
  else l.addText c rest

/-- Reads a character. A line that stands too far left ends the text before it. -/
def step (l : Lexer) (c : Char) (rest : List Char) : Step :=
  let l := l.setTrend c
  let l' := if l.trend = .outward then l.cut else l
  match l'.block with
  | none => l'.readChar c rest
  | some b =>
    if l.trend = .outward then l'.leaveBlock.bind (·.readChar c rest) else l'.stepBlock b c rest

/-- Reads a stream to its end. Each step takes a character, so `fuel` need not exceed the length. -/
def run : (fuel : Nat) → Lexer → List Char → Option Lexer
  | _, l, [] => some l.cut
  | 0, _, _ => none
  | fuel + 1, l, c :: rest => (l.step c rest).bind fun (l, rest) => run fuel l rest

end Lexer

/-- The tokens of a stream without its comments, unless it is malformed. -/
def tokens? (cs : List Char) : Option (List Token) :=
  (Lexer.run cs.length {} cs).map fun l => l.reversed.reverse.filter (·.mark ≠ .comment)

end NodePath.Yaml
