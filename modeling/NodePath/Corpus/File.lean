import NodePath.Corpus.Basic
import NodePath.Files

/-!
# Corpus files

A corpus file is opened and decoded, and the corpus must list an entry. What the decoder makes of a
text, and how it complains, is left to the decoder.
-/

namespace NodePath

open NodePath.Text

namespace Corpus

/-- Why a decoder gives no corpus. -/
inductive DecodeFault where
  /-- There is no document. -/
  | nothing
  | malformed (complaint : Bytes)
deriving DecidableEq, Repr

/-- What a decoder makes of a text, or of the complaint that not all of the text could be read. -/
abbrev Decoder := Except Bytes Bytes → Except DecodeFault (List Entry)

inductive ReadError where
  | nothing
  | noSelectors
  | malformed (complaint : Bytes)
  | unopened (path cause : Bytes)
deriving DecidableEq, Repr

def ReadError.message : ReadError → Bytes
  | .nothing => utf8 "invalid corpus: EOF"
  | .noSelectors => utf8 "invalid corpus: no selectors"
  | .malformed complaint => utf8 "invalid corpus: " ++ complaint
  | .unopened path cause => utf8 "failed to open corpus " ++ path ++ utf8 ": " ++ cause

/-- The entries of a corpus, at least one. -/
def readWith (decode : Decoder) (text : Except Bytes Bytes) : Except ReadError (List Entry) :=
  match decode text with
  | .error .nothing => .error .nothing
  | .error (.malformed complaint) => .error (.malformed complaint)
  | .ok [] => .error .noSelectors
  | .ok entries => .ok entries

/-- The entries of a corpus file. -/
def load (decode : Decoder) (files : Files) (path : Bytes) : Except ReadError (List Entry) :=
  match files.openEntry path with
  | .error cause => .error (.unopened path cause)
  | .ok entry => readWith decode (Files.content path entry)

end Corpus

end NodePath
