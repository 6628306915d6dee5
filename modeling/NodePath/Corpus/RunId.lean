import NodePath.Text.Bytes

/-!
# Run ids

A report is named by a random identifier of 16 bytes. Its seventh byte tells the version, its ninth the
variant, and its text is five groups of hexadecimal digits.
-/

namespace NodePath.Corpus

open NodePath.Text

/-- Sets the bits for version four and for the variant. -/
def marked (random : Bytes) : Bytes :=
  random.mapIdx fun i b =>
    if i = 6 then b % 16 + 0x40 else if i = 8 then b % 64 + 0x80 else b

/-- The digits of the bytes, in groups of the given sizes. -/
def groups (bytes : Bytes) : List Nat → List Bytes
  | [] => []
  | size :: rest =>
    (bytes.take size).flatMap (fun b => hex 2 b.toNat) :: groups (bytes.drop size) rest

/-- The identifier of 16 random bytes. -/
def runId (random : Bytes) : Bytes :=
  joinWith (utf8 "-") (groups (marked random) [4, 2, 2, 2, 6])

end NodePath.Corpus
