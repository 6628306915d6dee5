import NodePath.Corpus.Reader
import NodePath.Corpus.Writer
import NodePath.Query.Eval
import NodePath.Run.Course

/-!
# Runs

A run with the libraries of this project: its path queries, and its own reader and writer of YAML.
-/

namespace NodePath

open NodePath.Text

/-- The libraries of this project. -/
def Libraries.own : Libraries where
  queries := Query.language
  valueYaml v := .ok v.yaml
  reportYaml report := .ok report.yaml
  corpus := Corpus.decode

theorem Libraries.own_writesValues : own.WritesValues := fun v => ⟨v.yaml, rfl⟩

/-- Does what a configuration asks for. -/
def Config.run (c : Config) (s : Setting) (console : Console) : Outcome :=
  c.runWith .own s console

/-- The exit of a run without a configuration. -/
def missingConfiguration : Exit :=
  .usage (utf8 "Error creating runner: missing configuration\n")

end NodePath
