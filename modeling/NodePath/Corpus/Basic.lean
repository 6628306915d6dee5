import NodePath.Diagnostic
import NodePath.Expr.Equality
import NodePath.Expr.Printer

/-!
# Corpora

A corpus lists selectors that are expected to be valid or not. An entry passes when the reader judges
it as expected and, for a valid one, its canonical text reads back as the same tree.
-/

namespace NodePath

open NodePath.Text

namespace Corpus

structure Entry where
  name : Bytes
  selector : Bytes
  valid : Bool
deriving DecidableEq, Repr

structure Result where
  name : Bytes
  selector : Bytes
  expected : Bool
  valid : Bool
  passed : Bool
  canonical : Bytes
  error : Bytes
deriving DecidableEq, Repr

/-- Why a canonical text does not stand for its tree. -/
inductive RoundTripFault where
  | unreadable (cause : ParseError)
  | differs (canonical : Bytes)

def RoundTripFault.message (f : RoundTripFault) : Bytes :=
  utf8 "canonical form does not round-trip: " ++
    match f with
    | .unreadable cause => cause.message
    | .differs canonical => canonical

def roundTrip (e : Expr) (canonical : Bytes) : Option RoundTripFault :=
  match parse canonical with
  | .error cause => some (.unreadable cause)
  | .ok again => if e.same again then none else some (.differs canonical)

def Entry.check (entry : Entry) : Result :=
  match parse entry.selector with
  | .error cause =>
    ⟨entry.name, entry.selector, entry.valid, false, !entry.valid, [], cause.message⟩
  | .ok e =>
    let canonical := e.text?.getD []
    match roundTrip e canonical with
    | some fault =>
      ⟨entry.name, entry.selector, entry.valid, true, false, canonical, fault.message⟩
    | none => ⟨entry.name, entry.selector, entry.valid, true, entry.valid, canonical, []⟩

structure Report where
  runId : Bytes
  results : List Result
deriving DecidableEq, Repr

/-- The report of a corpus: the results of its entries in their order. -/
def check (runId : Bytes) (entries : List Entry) : Report := ⟨runId, entries.map Entry.check⟩

namespace Report

def total (r : Report) : Nat := r.results.length

def passed (r : Report) : Nat := r.results.countP Result.passed

def failed (r : Report) : Nat := r.results.countP (!·.passed)

def ok (r : Report) : Bool := r.failed = 0

end Report

end Corpus

end NodePath
