import NodePath.Corpus.RunId
import NodePath.Run.Basic

/-!
# The command line

Looks at the files that the arguments name, runs, and writes what the run has left on its console.
-/

namespace NodePath

open NodePath.Text

def arrayOf (s : Bytes) : ByteArray := ⟨s.toArray⟩

/-- What a path leads to. -/
def lookAt (path : Bytes) : IO (Except FileError Entry) := do
  match String.fromUTF8? (arrayOf path) with
  | none => return .error .missing
  | some name =>
    try
      let content ← IO.FS.readBinFile name
      return .ok (.file content.toList)
    catch
      | .inappropriateType .. => return .ok .directory
      | .permissionDenied .. => return .error .denied
      | _ => return .error .missing

/-- The files that the flags of a command line name. -/
def filesNamedBy (args : List Bytes) : IO Files := do
  match parseFlags {} args with
  | .error _ => return ⟨fun _ => .error .missing⟩
  | .ok (flags, _) =>
    let bindings ← lookAt flags.variableFile
    let corpus ← lookAt flags.corpusFile
    return ⟨fun path => if path = flags.variableFile then bindings else corpus⟩

/-- Whether the terminal wants colours. -/
def wantsColor : IO Bool := do
  let plain := (← IO.getEnv "NO_COLOR").any (!·.isEmpty) || (← IO.getEnv "TERM") = some "dumb"
  return !plain && (← (← IO.getStdout).isTty)

def leave (e : Exit) : IO UInt32 := do
  let stream ←
    match e.channel with
    | .output => IO.getStdout
    | .errors => IO.getStderr
  stream.write (arrayOf e.message)
  return e.code.toUInt32

/-- Does what the arguments ask for; the exit code. -/
def command (arguments : List String) : IO UInt32 := do
  let args := arguments.map utf8
  let files ← filesNamedBy args
  match Config.ofArgs files (utf8 "selector" :: args) with
  | .error e => leave e.exit
  | .ok config =>
    let random ← IO.getRandomBytes 16
    let setting : Setting := ⟨files, ← wantsColor, false, Corpus.runId random.toList⟩
    let outcome := config.run setting ⟨.onto .keep, .onto .keep⟩
    for text in outcome.console.errors.writes do
      (← IO.getStderr).write (arrayOf text)
    for text in outcome.console.output.writes do
      (← IO.getStdout).write (arrayOf text)
    return outcome.code.toUInt32

end NodePath

def main (arguments : List String) : IO UInt32 := NodePath.command arguments
