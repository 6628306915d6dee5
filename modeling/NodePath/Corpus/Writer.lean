import NodePath.Corpus.Basic
import NodePath.Yaml.Writer

/-!
# Writing reports

A report as a YAML document. Its fields keep their order, and texts that need not be there are left out
when they are empty.
-/

namespace NodePath.Corpus

open NodePath.Text NodePath.Yaml

/-- A text field that is left out when it is empty. -/
def optionalField (name : String) (s : Bytes) : List (Bytes × Doc) :=
  if s.isEmpty then [] else [(utf8 name, .text s)]

def Result.doc (r : Result) : Doc :=
  .map (optionalField "name" r.name ++
    [(utf8 "selector", .text r.selector), (utf8 "expected_valid", wordOfBool r.expected),
      (utf8 "valid", wordOfBool r.valid), (utf8 "passed", wordOfBool r.passed)] ++
    optionalField "canonical" r.canonical ++ optionalField "error" r.error)

def Report.doc (r : Report) : Doc :=
  .map
    [(utf8 "run_id", .text r.runId), (utf8 "total", .word (decimal r.total)),
      (utf8 "passed", .word (decimal r.passed)), (utf8 "failed", .word (decimal r.failed)),
      (utf8 "results", .list (r.results.map Result.doc))]

def Report.yaml (r : Report) : Bytes := r.doc.render

end NodePath.Corpus
