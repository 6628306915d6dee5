import NodePath.Run.Rendering
import NodePath.Sink

/-!
# The course of a run

A run shows the selectors of a configuration one after the other and stops at the first one with a
problem, or it checks a corpus and reports on it. Losing output is a problem; the separator between
YAML documents alone may get lost, because the next write then fails too. Each selector that is
shown takes one turn.
-/

namespace NodePath

open NodePath.Text

/-- What a run meets: the files, whether colours are on, whether it has been cancelled, and the name
of its report. -/
structure Setting where
  files : Files
  colored : Bool
  cancelled : Bool
  runId : Bytes

structure Console where
  output : Sink
  errors : Sink
deriving DecidableEq, Repr

structure Outcome where
  code : Nat
  console : Console
deriving DecidableEq, Repr

namespace Console

def tell (c : Console) (text : Bytes) : Console := { c with errors := c.errors.attempt text }

/-- The end of a run that failed with a message. -/
def fail (c : Console) (message : Bytes) : Outcome := ⟨Exit.failureCode, c.tell message⟩

end Console

/-- Shows one selector: the sink afterwards and the problem that was met. -/
def Config.process (c : Config) (l : Libraries) (turn : Nat) (source : Bytes) (out : Sink) :
    Sink × Option Problem :=
  match tokenize source with
  | .error cause => (out, some (.ofLexError cause))
  | .ok tokens =>
    match if c.tokens then out.write (listing tokens) else .ok out with
    | .error complaint => (out, some (.plain complaint))
    | .ok out =>
      match c.rendering l turn tokens with
      | .error problem => (out, some problem)
      | .ok payload =>
        match out.write payload with
        | .error complaint => (out, some (.plain complaint))
        | .ok out => (out, none)

/-- YAML documents after the first one are separated from the one before. -/
def Config.separates (c : Config) (shown : Nat) : Bool := 0 < shown && c.format = .yaml

def interrupted (shown total : Nat) : Bytes :=
  utf8 "\nInterrupted after " ++ decimal shown ++ utf8 " of " ++ decimal total ++ utf8 " selectors\n"

/-- Shows selectors after `shown` of `total` ones. -/
def Config.runFrom (c : Config) (l : Libraries) (s : Setting) (total : Nat) :
    (shown : Nat) → List Bytes → Console → Outcome
  | _, [], console => ⟨Exit.successCode, console⟩
  | shown, source :: rest, console =>
    if s.cancelled then console.fail (interrupted shown total)
    else
      let out := if c.separates shown then console.output.attempt (utf8 "---\n") else console.output
      match c.process l shown source out with
      | (out, some problem) =>
        { console with output := out }.fail (problem.render (s.colored && !c.noColor) source)
      | (out, none) => c.runFrom l s total (shown + 1) rest { console with output := out }

def Config.runSelectors (c : Config) (l : Libraries) (s : Setting) (console : Console) : Outcome :=
  c.runFrom l s c.selectors.length 0 c.selectors console

namespace Corpus

/-- What a result is called: its name or, without one, its selector. -/
def Result.label (r : Result) : Bytes := if r.name.isEmpty then r.selector else r.name

def Report.summary (r : Report) (colored : Bool) : Bytes :=
  status colored r.ok ++ utf8 " " ++ decimal r.passed ++ utf8 " passed, " ++ decimal r.failed ++
    utf8 " failed\n"

/-- Names the entries that failed and counts. -/
def Report.tell (r : Report) (colored : Bool) (console : Console) : Console :=
  let failures := r.results.filter (!·.passed)
  let console := failures.foldl
    (fun console result => console.tell (status colored false ++ utf8 " " ++ result.label ++ [newline]))
    console
  console.tell (r.summary colored)

end Corpus

def Config.runCorpus (c : Config) (l : Libraries) (s : Setting) (console : Console) : Outcome :=
  match Corpus.load l.corpus s.files c.corpusFile with
  | .error cause => console.fail (utf8 "Error: " ++ cause.message ++ [newline])
  | .ok entries =>
    if s.cancelled then
      console.fail (utf8 "\nInterrupted before checking " ++ decimal entries.length ++
        utf8 " selectors\n")
    else
      let report := Corpus.check s.runId entries
      let console := report.tell (s.colored && !c.noColor) console
      match l.reportYaml report with
      | .error complaint =>
        console.fail (utf8 "Error formatting results: encode report: " ++ complaint ++ [newline])
      | .ok text =>
        match console.output.write text with
        | .error complaint =>
          console.fail (utf8 "Error writing results: " ++ complaint ++ [newline])
        | .ok out =>
          ⟨if report.ok then Exit.successCode else Exit.failureCode, { console with output := out }⟩

/-- Does what a configuration asks for, with the help of libraries. -/
def Config.runWith (c : Config) (l : Libraries) (s : Setting) (console : Console) : Outcome :=
  if c.corpusFile.isEmpty then c.runSelectors l s console else c.runCorpus l s console

end NodePath
