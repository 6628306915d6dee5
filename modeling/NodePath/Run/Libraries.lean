import NodePath.Corpus.File
import NodePath.Dump.Json
import NodePath.Dump.Query

/-!
# Libraries

What a run leaves to others: the language of queries, and YAML. Nothing is known of them unless it
is promised.
-/

namespace NodePath

open NodePath.Text

structure Libraries where
  queries : QueryLanguage
  /-- The YAML text of a value, or a complaint. -/
  valueYaml : Value → Except Bytes Bytes
  /-- The YAML text of a report, or a complaint. -/
  reportYaml : Corpus.Report → Except Bytes Bytes
  corpus : Corpus.Decoder

namespace Libraries

/-- The promise that texts, truth values, lists and records can always be written. -/
def WritesValues (l : Libraries) : Prop := ∀ v, ∃ text, l.valueYaml v = .ok text

def encodeYaml (l : Libraries) (v : Value) : Except EncodeError Bytes :=
  (l.valueYaml v).mapError .yaml

end Libraries

end NodePath
