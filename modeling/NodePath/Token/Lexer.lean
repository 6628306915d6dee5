import NodePath.Number.Numeral
import NodePath.Text.DecimalDigit
import NodePath.Text.Glyph
import NodePath.Text.Letter
import NodePath.Token.Basic
import NodePath.Token.Vocabulary

/-!
# Reading tokens

A source is read from left to right: gaps are skipped, and at each other place the longest lexeme is
taken. A word that is no keyword is a function or node type name when the next thing after it is an
opening parenthesis, and an axis name when it names an axis and a double colon comes next. The first
place where no lexeme fits, or where the bytes encode no character, is the error.
-/

namespace NodePath

open NodePath.Text NodePath.Number

inductive LexCause where
  | badEncoding
  | integerRange (digits : Bytes)
  | floatRange (digits : Bytes)
  | openLiteral
  | loneBang
  | unexpected (c : Char)
deriving DecidableEq, Repr

def LexCause.message : LexCause → Bytes
  | .badEncoding => utf8 "invalid UTF-8 encoding"
  | .integerRange digits => utf8 "integer literal " ++ quoted digits ++ utf8 " out of range"
  | .floatRange digits => utf8 "float literal " ++ quoted digits ++ utf8 " out of range"
  | .openLiteral => utf8 "unterminated string literal"
  | .loneBang => utf8 "unexpected character '!' (did you mean '!='?)"
  | .unexpected c => utf8 "unexpected character " ++ quotedChar c

structure LexError where
  offset : Nat
  cause : LexCause
deriving DecidableEq, Repr

def LexError.message (e : LexError) : Bytes :=
  utf8 "selector: lexical error at offset " ++ decimal e.offset ++ utf8 ": " ++ e.cause.message

def isGap (c : Char) : Bool := c = ' ' || c = '\t' || c = '\n' || c = '\r'

def isNameStart (c : Char) : Bool := c = '_' || isLetter c

def isNamePart (c : Char) : Bool := isNameStart c || c = '-' || c = '.' || isDecimalDigit c

/-- A digit that a number may hold, as opposed to the digits of other scripts in names. -/
def isNumeralDigit (c : Char) : Bool := '0' ≤ c && c ≤ '9'

/-- A lexeme that begins with one glyph, where `after` follows it: what kind of token it is, the text
the token keeps, how many bytes it takes, and what is left. -/
structure Lexeme (after : List Glyph) where
  kind : Kind
  text : Bytes
  width : Nat
  rest : List Glyph
  comparison : Comparison := .absent
  rest_le : rest.length ≤ after.length

theorem length_dropWhile_le {α : Type} (p : α → Bool) (xs : List α) :
    (xs.dropWhile p).length ≤ xs.length :=
  (List.dropWhile_suffix p).length_le

/-- The kind of a word, judged by what comes next after it. -/
def wordKind (word : Bytes) (rest : List Glyph) : Kind :=
  match keyword? word with
  | some kind => kind
  | none =>
    match rest.dropWhile (Glyph.satisfies isGap) with
    | .char '(' :: _ => if isNodeType word then .nodeType else .functionName
    | .char ':' :: .char ':' :: _ => if isAxisName word then .axisName else .name
    | _ => .name

def wordLexeme (first : Glyph) (after : List Glyph) : Lexeme after :=
  let text := bytesOf (first :: after.takeWhile (Glyph.satisfies isNamePart))
  let rest := after.dropWhile (Glyph.satisfies isNamePart)
  { kind := wordKind text rest, text, width := text.length, rest, rest_le := length_dropWhile_le .. }

/-- Digits, with a fraction only when a digit follows the point. -/
def numberLexeme (first : Glyph) (after : List Glyph) : Except LexCause (Lexeme after) :=
  let digit := Glyph.satisfies isNumeralDigit
  let whole := bytesOf (first :: after.takeWhile digit)
  let rest := after.dropWhile digit
  have hrest : rest.length ≤ after.length := length_dropWhile_le ..
  match h : rest with
  | .char '.' :: d :: tail =>
    if digit d then
      let text := whole ++ bytesOf (.char '.' :: d :: tail.takeWhile digit)
      match float? text with
      | none => .error (.floatRange text)
      | some _ =>
        .ok
          { kind := .float, text, width := text.length, rest := tail.dropWhile digit
            rest_le := by
              have := length_dropWhile_le digit tail
              simp only [List.length_cons] at hrest
              omega }
    else integer whole (.char '.' :: d :: tail) hrest
  | rest => integer whole rest hrest
where
  integer (text : Bytes) (rest : List Glyph) (hrest : rest.length ≤ after.length) :
      Except LexCause (Lexeme after) :=
    match integer? text with
    | none => .error (.integerRange text)
    | some _ => .ok { kind := .integer, text, width := text.length, rest, rest_le := hrest }

/-- The text up to the next equal quote, kept as it is: there are no escapes. A stray byte inside is
reported at its own place, so the error also says how far it lies from the opening quote. -/
def literalLexeme (quote : Char) (after : List Glyph) : Except (Nat × LexCause) (Lexeme after) :=
  let inside := after.takeWhile (· ≠ .char quote)
  match h : after.dropWhile (· ≠ .char quote) with
  | [] => .error (0, .openLiteral)
  | _ :: rest =>
    if inside.all Glyph.isChar then
      .ok
        { kind := .stringLiteral, text := bytesOf inside, width := widthOf inside + 2, rest
          rest_le := by
            have := length_dropWhile_le (· ≠ Glyph.char quote) after
            rw [h, List.length_cons] at this
            omega }
    else .error (1 + widthOf (inside.takeWhile Glyph.isChar), .badEncoding)

/-- A symbol of one character. -/
def single (kind : Kind) (c : Char) (after : List Glyph) : Lexeme after :=
  { kind, text := encode c, width := 1, rest := after, rest_le := Nat.le_refl _ }

/-- A symbol of two characters. -/
def double (kind : Kind) (c d : Char) (g : Glyph) (rest : List Glyph) : Lexeme (g :: rest) :=
  { kind, text := encode c ++ encode d, width := 2, rest, rest_le := by simp }

/-- The same lexeme as a comparison. -/
def Lexeme.comparing {after : List Glyph} (l : Lexeme after) (comparison : Comparison) :
    Lexeme after :=
  { l with comparison }

def symbolLexeme (c : Char) (after : List Glyph) : Except LexCause (Lexeme after) :=
  match c, after with
  | '/', .char '/' :: rest => .ok (double .doubleSlash '/' '/' _ rest)
  | '/', after => .ok (single .slash '/' after)
  | '.', .char '.' :: rest => .ok (double .doubleDot '.' '.' _ rest)
  | '.', after => .ok (single .dot '.' after)
  | ':', .char ':' :: rest => .ok (double .doubleColon ':' ':' _ rest)
  | ':', after => .ok (single .colon ':' after)
  | '@', after => .ok (single .atSign '@' after)
  | '(', after => .ok (single .leftParen '(' after)
  | ')', after => .ok (single .rightParen ')' after)
  | '[', after => .ok (single .leftBracket '[' after)
  | ']', after => .ok (single .rightBracket ']' after)
  | '|', after => .ok (single .bar '|' after)
  | '=', after => .ok (single .equals '=' after)
  | '+', after => .ok (single .plus '+' after)
  | '-', after => .ok (single .minus '-' after)
  | '*', after => .ok (single .star '*' after)
  | ',', after => .ok (single .comma ',' after)
  | '$', after => .ok (single .dollar '$' after)
  | '!', .char '=' :: rest => .ok ((double .comparison '!' '=' _ rest).comparing .notEqual)
  | '!', _ => .error .loneBang
  | '<', .char '=' :: rest => .ok ((double .comparison '<' '=' _ rest).comparing .lessEqual)
  | '<', after => .ok ((single .comparison '<' after).comparing .less)
  | '>', .char '=' :: rest => .ok ((double .comparison '>' '=' _ rest).comparing .greaterEqual)
  | '>', after => .ok ((single .comparison '>' after).comparing .greater)
  | c, _ => .error (.unexpected c)

/-- The lexeme that begins with a glyph at an offset. -/
def lexemeAt (offset : Nat) (g : Glyph) (after : List Glyph) : Except LexError (Lexeme after) :=
  match g with
  | .stray _ => .error ⟨offset, .badEncoding⟩
  | .char c =>
    if isNameStart c then .ok (wordLexeme g after)
    else if isNumeralDigit c then (numberLexeme g after).mapError fun cause => ⟨offset, cause⟩
    else if c = '"' || c = '\'' then
      (literalLexeme c after).mapError fun (ahead, cause) => ⟨offset + ahead, cause⟩
    else (symbolLexeme c after).mapError fun cause => ⟨offset, cause⟩

/-- The tokens of the glyphs from an offset on. -/
def tokensFrom (offset : Nat) : List Glyph → Except LexError (List Token)
  | [] => .ok []
  | g :: after =>
    if g.satisfies isGap then tokensFrom (offset + 1) after
    else
      match lexemeAt offset g after with
      | .error e => .error e
      | .ok l =>
        have := l.rest_le
        match tokensFrom (offset + l.width) l.rest with
        | .error e => .error e
        | .ok tokens => .ok (⟨l.kind, l.text, offset, l.comparison⟩ :: tokens)
termination_by gs => gs.length

/-- The tokens of a source, gaps left out. -/
def tokenize (source : Bytes) : Except LexError (List Token) := tokensFrom 0 (glyphs source)

end NodePath
