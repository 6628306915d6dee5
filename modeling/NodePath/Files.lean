import NodePath.Text.Table

/-!
# Files

What paths lead to. In a directory of files a path starts in the directory; `.` and an empty part stay
where they are, and what lies above the directory is only known to be a directory.
-/

namespace NodePath

open NodePath.Text

inductive FileError where
  | missing
  | notADirectory
  | isADirectory
  | nameTooLong
  | badName
  | denied
deriving DecidableEq, Repr

def FileError.message : FileError → Bytes
  | .missing => utf8 "no such file or directory"
  | .notADirectory => utf8 "not a directory"
  | .isADirectory => utf8 "is a directory"
  | .nameTooLong => utf8 "file name too long"
  | .badName => utf8 "invalid argument"
  | .denied => utf8 "permission denied"

inductive Entry where
  | file (content : Bytes)
  | directory
deriving Repr

structure Files where
  entry : Bytes → Except FileError Entry

namespace Files

/-- What the parts of a path lead to, from inside a directory or, after `..`, from above it. -/
def follow (directory : Table Bytes) : (inside : Bool) → List Bytes → Except FileError Entry
  | _, [] => .ok .directory
  | inside, part :: rest =>
    if part.isEmpty || part = utf8 "." then follow directory inside rest
    else if part = utf8 ".." then follow directory false rest
    else if 255 < part.length then .error .nameTooLong
    else
      match inside, directory.get? part with
      | true, some content => if rest.isEmpty then .ok (.file content) else .error .notADirectory
      | _, _ => .error .missing

/-- A directory that holds nothing but files. -/
def ofDirectory (directory : Table Bytes) : Files where
  entry path :=
    if path.contains 0 then .error .badName
    else if path.isEmpty then .error .missing
    else follow directory (path.head? ≠ some (ascii '/')) (splitAt (ascii '/') path)

/-- The message of a failed operation on a path. -/
def failed (operation : String) (path : Bytes) (e : FileError) : Bytes :=
  utf8 operation ++ utf8 " " ++ path ++ utf8 ": " ++ e.message

/-- Whether there is anything at a path; the message otherwise. -/
def stat (files : Files) (path : Bytes) : Except Bytes Unit :=
  match files.entry path with
  | .ok _ => .ok ()
  | .error e => .error (failed "stat" path e)

/-- The entry at a path that can be opened; the message otherwise. -/
def openEntry (files : Files) (path : Bytes) : Except Bytes Entry :=
  (files.entry path).mapError (failed "open" path)

/-- The content of an opened entry; a directory has none. -/
def content (path : Bytes) : Entry → Except Bytes Bytes
  | .file content => .ok content
  | .directory => .error (failed "read" path .isADirectory)

def read (files : Files) (path : Bytes) : Except Bytes Bytes := do
  content path (← files.openEntry path)

end Files

end NodePath
