import NodePath.Config.Bindings
import NodePath.Text.Quoted

/-!
# Options of the command line

An option is a name after one or two hyphens, with a value after an equals sign or as the next argument;
the options that are switches take a value only after an equals sign. Options end at the first argument
that is none, or after two lone hyphens.
-/

namespace NodePath

open NodePath.Text

structure Flags where
  format : Bytes := utf8 "text"
  tokens : Bool := false
  query : Bytes := []
  noColor : Bool := false
  corpusFile : Bytes := []
  bindings : Bindings := []
  variableFile : Bytes := []
  strictVariables : Bool := false

inductive FlagError where
  | help
  | badSyntax (arg : Bytes)
  | notDefined (name : Bytes)
  | noArgument (name : Bytes)
  | badSwitch (name value : Bytes)
  | badValue (name value : Bytes) (cause : BindingError)
deriving DecidableEq, Repr

def FlagError.message : FlagError → Bytes
  | .help => utf8 "flag: help requested"
  | .badSyntax arg => utf8 "bad flag syntax: " ++ arg
  | .notDefined name => utf8 "flag provided but not defined: -" ++ name
  | .noArgument name => utf8 "flag needs an argument: -" ++ name
  | .badSwitch name value =>
    utf8 "invalid boolean value " ++ quoted value ++ utf8 " for -" ++ name ++ utf8 ": parse error"
  | .badValue name value cause =>
    utf8 "invalid value " ++ quoted value ++ utf8 " for flag -" ++ name ++ utf8 ": " ++ cause.message

def switch? (value : Bytes) : Option Bool :=
  if (["1", "t", "T", "TRUE", "true", "True"].map utf8).contains value then some true
  else if (["0", "f", "F", "FALSE", "false", "False"].map utf8).contains value then some false
  else none

/-- The options there are: switches, texts and the one that adds a binding. -/
inductive FlagTarget where
  | switch (set : Bool → Flags → Flags)
  | text (set : Bytes → Flags → Flags)
  | binding

def flagTarget? (name : Bytes) : Option FlagTarget :=
  [ (utf8 "format", .text fun v f => { f with format := v }),
    (utf8 "tokens", .switch fun v f => { f with tokens := v }),
    (utf8 "query", .text fun v f => { f with query := v }),
    (utf8 "no-color", .switch fun v f => { f with noColor := v }),
    (utf8 "corpus", .text fun v f => { f with corpusFile := v }),
    (utf8 "variable-file", .text fun v f => { f with variableFile := v }),
    (utf8 "strict-vars", .switch fun v f => { f with strictVariables := v }),
    (utf8 "variable", .binding) ].lookup name

/-- What an argument is before its meaning is looked up. -/
inductive ArgShape where
  /-- No option: the options end before it. -/
  | operand
  /-- Two lone hyphens: the options end after it. -/
  | terminator
  | malformed
  | option (name : Bytes) (value : Option Bytes)

/-- A name up to an equals sign that is not its first character, and the value after it. -/
def splitOption : Bytes → Bytes × Option Bytes
  | [] => ([], none)
  | first :: rest =>
    match cutAt (ascii '=') rest with
    | none => (first :: rest, none)
    | some (name, value) => (first :: name, some value)

def optionShape (body : Bytes) : ArgShape :=
  match body with
  | [] => .malformed
  | b :: _ =>
    if b = ascii '-' || b = ascii '=' then .malformed
    else
      let (name, value) := splitOption body
      .option name value

def argShape (arg : Bytes) : ArgShape :=
  match arg with
  | a :: b :: rest =>
    if a ≠ ascii '-' then .operand
    else if b ≠ ascii '-' then optionShape (b :: rest)
    else if rest.isEmpty then .terminator
    else optionShape rest
  | _ => .operand

/-- Sets an option that takes a value. -/
def setValue (name value : Bytes) (flags : Flags) : FlagTarget → Except FlagError Flags
  | .switch set =>
    match switch? value with
    | none => .error (.badSwitch name value)
    | some v => .ok (set v flags)
  | .text set => .ok (set value flags)
  | .binding =>
    match flags.bindings.set value with
    | .error cause => .error (.badValue name value cause)
    | .ok bindings => .ok { flags with bindings }

/-- Reads options and gives what remains of the arguments. -/
def parseFlags (flags : Flags) : List Bytes → Except FlagError (Flags × List Bytes)
  | [] => .ok (flags, [])
  | arg :: rest =>
    match argShape arg with
    | .operand => .ok (flags, arg :: rest)
    | .terminator => .ok (flags, rest)
    | .malformed => .error (.badSyntax arg)
    | .option name value =>
      match flagTarget? name, value, rest with
      | none, _, _ =>
        if name = utf8 "help" || name = utf8 "h" then .error .help else .error (.notDefined name)
      | some target, some value, rest => do
        let flags ← setValue name value flags target
        parseFlags flags rest
      | some (.switch set), none, rest => parseFlags (set true flags) rest
      | some _, none, [] => .error (.noArgument name)
      | some target, none, value :: rest => do
        let flags ← setValue name value flags target
        parseFlags flags rest
termination_by args => args.length

end NodePath
