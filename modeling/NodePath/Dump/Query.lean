import NodePath.Dump.Value

/-!
# Queries of records

A query selects values of a record. Which texts are queries, and what they select, is a matter of
the language of the queries.
-/

namespace NodePath

open NodePath.Text

/-- The selection that each query of a language stands for, or the complaint about the query. The
fields of a record need not be met in the same order every time, so a selection is told its turn. -/
abbrev QueryLanguage := Bytes → Except Bytes (Nat → Record → List Value)

inductive QueryError where
  | empty
  | malformed (query complaint : Bytes)
deriving DecidableEq, Repr

def QueryError.message : QueryError → Bytes
  | .empty => utf8 "dump: invalid query: query is empty"
  | .malformed query complaint => utf8 "dump: invalid query: " ++ query ++ utf8 ": " ++ complaint

/-- The values that a query selects of a record when it is asked in a turn. -/
def Record.ask (r : Record) (language : QueryLanguage) (turn : Nat) (query : Bytes) :
    Except QueryError (List Value) :=
  if query.isEmpty then .error .empty
  else
    match language query with
    | .error complaint => .error (.malformed query complaint)
    | .ok select => .ok (select turn r)

end NodePath
