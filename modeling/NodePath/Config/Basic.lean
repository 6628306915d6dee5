import NodePath.Config.Flags
import NodePath.Config.Usage
import NodePath.Exit
import NodePath.Files

/-!
# Configurations

What a run is to do, from the command line and the bindings file. Bindings of the command line prevail
over those of the file.
-/

namespace NodePath

open NodePath.Text

inductive Format where
  | text
  | tree
  | yaml
  | json
  | unknown (name : Bytes)
deriving DecidableEq, Repr

namespace Format

def ofName (name : Bytes) : Format :=
  if name = utf8 "text" then .text
  else if name = utf8 "tree" then .tree
  else if name = utf8 "yaml" then .yaml
  else if name = utf8 "json" then .json
  else .unknown name

def name : Format → Bytes
  | .text => utf8 "text"
  | .tree => utf8 "tree"
  | .yaml => utf8 "yaml"
  | .json => utf8 "json"
  | .unknown name => name

end Format

structure Config where
  selectors : List Bytes
  format : Format
  /-- Print the tokens before the result. -/
  tokens : Bool
  /-- A query on the record of the tree; empty for none. -/
  query : Bytes
  noColor : Bool
  /-- A corpus to check; empty for none. -/
  corpusFile : Bytes
  bindings : Bindings
  variableFile : Bytes
  strictVariables : Bool

def Config.isBound (c : Config) (name : Bytes) : Bool := Table.has c.bindings name

inductive ConfigError where
  | noArguments
  | flags (cause : FlagError)
  | variableFileUnread (path cause : Bytes)
  | variableFileMalformed (cause : BindingLineError)
  | noSelectors
  | badFormat (name : Bytes)
  | corpusMissing (path cause : Bytes)
deriving DecidableEq, Repr

def ConfigError.message : ConfigError → Bytes
  | .noArguments => utf8 "no arguments provided"
  | .flags cause => utf8 "failed to parse arguments: " ++ cause.message
  | .variableFileUnread path cause =>
    utf8 "failed to load variable file: failed to read file " ++ path ++ utf8 ": " ++ cause
  | .variableFileMalformed cause => utf8 "failed to load variable file: " ++ cause.message
  | .noSelectors => utf8 "no selectors specified"
  | .badFormat name =>
    utf8 "invalid output format: " ++ quoted name ++ utf8 " (want one of text, tree, yaml, json)"
  | .corpusMissing path cause => utf8 "corpus file " ++ path ++ utf8 " not found: " ++ cause

/-- The exit that an error leads to; asking for help is a success. -/
def ConfigError.exit : ConfigError → Exit
  | .flags .help => .success usage
  | e => .usage (utf8 "Error: " ++ e.message ++ utf8 "\n\n" ++ usage)

/-- The bindings of a file, of none if no file is named. -/
def loadBindings (files : Files) (path : Bytes) : Except ConfigError Bindings :=
  if path.isEmpty then .ok []
  else
    match files.read path with
    | .error cause => .error (.variableFileUnread path cause)
    | .ok content => (readBindings content).mapError .variableFileMalformed

def Config.validate (files : Files) (c : Config) : Except ConfigError Unit := do
  if c.selectors.isEmpty && c.corpusFile.isEmpty then throw .noSelectors
  match c.format with
  | .unknown name => throw (.badFormat name)
  | _ => pure ()
  if !c.corpusFile.isEmpty then
    match files.stat c.corpusFile with
    | .error cause => throw (.corpusMissing c.corpusFile cause)
    | .ok _ => pure ()

/-- The configuration that a command line asks for; the first argument names the program. -/
def Config.ofArgs (files : Files) : List Bytes → Except ConfigError Config
  | [] => .error .noArguments
  | _ :: args => do
    let (flags, operands) ← (parseFlags {} args).mapError .flags
    let fileBindings ← loadBindings files flags.variableFile
    let config : Config :=
      { selectors := operands
        format := .ofName flags.format
        tokens := flags.tokens
        query := flags.query
        noColor := flags.noColor
        corpusFile := flags.corpusFile
        bindings := Table.merge fileBindings flags.bindings
        variableFile := flags.variableFile
        strictVariables := flags.strictVariables }
    config.validate files
    return config

end NodePath
