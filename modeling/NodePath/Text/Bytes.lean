/-!
# Texts as bytes

Every text the library reads or writes is a list of bytes: sources may hold bytes that encode no
character, and offsets count bytes. The constant texts of the library are written as strings and
taken to their UTF-8 form by `utf8`.
-/

namespace NodePath.Text

abbrev Bytes := List UInt8

def byteOf (n : Nat) : UInt8 := UInt8.ofNat n

/-- The UTF-8 form of one character: one to four bytes. -/
def encode (c : Char) : Bytes :=
  let n := c.toNat
  if n < 0x80 then [byteOf n]
  else if n < 0x800 then [byteOf (0xC0 + n / 0x40), byteOf (0x80 + n % 0x40)]
  else if n < 0x10000 then
    [byteOf (0xE0 + n / 0x1000), byteOf (0x80 + n / 0x40 % 0x40), byteOf (0x80 + n % 0x40)]
  else
    [byteOf (0xF0 + n / 0x40000), byteOf (0x80 + n / 0x1000 % 0x40), byteOf (0x80 + n / 0x40 % 0x40),
      byteOf (0x80 + n % 0x40)]

def utf8 (s : String) : Bytes := s.toList.flatMap encode

/-- The byte of an ASCII character. -/
def ascii (c : Char) : UInt8 := byteOf c.toNat

def isDigit (b : UInt8) : Bool := ascii '0' ≤ b && b ≤ ascii '9'

/-- The value of a decimal digit; meaningful under `isDigit`. -/
def digitValue (b : UInt8) : Nat := b.toNat - 48

/-- The number that a run of decimal digits denotes. -/
def natOfDigits (ds : Bytes) : Nat := ds.foldl (fun n d => n * 10 + digitValue d) 0

/-- The shortest decimal numeral of a number. -/
def decimal (n : Nat) : Bytes :=
  if n < 10 then [byteOf (48 + n)] else decimal (n / 10) ++ [byteOf (48 + n % 10)]
termination_by n

def decimalInt : Int → Bytes
  | .ofNat n => decimal n
  | .negSucc n => ascii '-' :: decimal (n + 1)

def hexDigit (n : Nat) : UInt8 := byteOf (if n < 10 then 48 + n else 87 + n)

/-- A number in lower-case hexadecimal with exactly `width` digits. -/
def hex : (width : Nat) → Nat → Bytes
  | 0, _ => []
  | width + 1, n => hex width (n / 16) ++ [hexDigit (n % 16)]

/-- The texts one after the other with `sep` between neighbours. -/
def joinWith (sep : Bytes) : List Bytes → Bytes
  | [] => []
  | [x] => x
  | x :: y :: rest => x ++ sep ++ joinWith sep (y :: rest)

/-- The pieces between the occurrences of one byte; there is always at least one piece. -/
def splitAt (sep : UInt8) : Bytes → List Bytes
  | [] => [[]]
  | b :: rest =>
    if b = sep then [] :: splitAt sep rest
    else
      match splitAt sep rest with
      | [] => [[b]]
      | piece :: pieces => (b :: piece) :: pieces

/-- What stands before and after the first occurrence of one byte. -/
def cutAt (sep : UInt8) : Bytes → Option (Bytes × Bytes)
  | [] => none
  | b :: rest =>
    if b = sep then some ([], rest)
    else (cutAt sep rest).map fun (before, after) => (b :: before, after)

/-- Whether one text stands somewhere inside another. -/
def occursIn (part : Bytes) : Bytes → Bool
  | [] => part.isEmpty
  | b :: rest => part.isPrefixOf (b :: rest) || occursIn part rest

/-- The order of texts byte by byte, a proper beginning first. -/
def precedes : Bytes → Bytes → Bool
  | _, [] => false
  | [], _ :: _ => true
  | a :: as, b :: bs => if a = b then precedes as bs else a < b

/-- A text filled up with blanks on the left to a width. -/
def padLeft (width : Nat) (s : Bytes) : Bytes := List.replicate (width - s.length) (ascii ' ') ++ s

/-- A text filled up with blanks on the right to a width. -/
def padRight (width : Nat) (s : Bytes) : Bytes := s ++ List.replicate (width - s.length) (ascii ' ')

def newline : UInt8 := ascii '\n'

end NodePath.Text
