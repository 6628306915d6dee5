import NodePath.Proofs.ViablePrefix

/-!
# What of a list of tokens is significant

A token of the kind `eof` ends the input as well as the end of the list does: nothing behind it is
looked at. The tokens before it are read as the same tree, or refused for the same reason at the same
place; only the end of the input is then where that token stands.

Of the tokens that are looked at, nothing matters but their kinds, the lexemes of names and literals
and the comparisons of operators. Lists that share these are read as the same tree, or refused at the
same token for the same reason; only the error then shows the other parts of the token it blames.
-/

namespace NodePath

open NodePath.Text

section ExplicitEnd

variable {ts vs : List Token} {t : Token} {err : SyntaxError}

/-- No reader can tell an explicit end from the end of the list. -/
theorem nextAlike_end (ht : t.kind = .eof) (vs rest : List Token) :
    NextAlike vs (vs ++ t :: rest) := by
  cases vs with
  | nil => exact ⟨ht.symm, fun _ hnone => by cases hnone⟩
  | cons v vs => exact .cons (.refl v)

theorem parseTokens_end_accepted {e : Expr} (ht : t.kind = .eof) (h : parseTokens ts = .ok e)
    (rest : List Token) : parseTokens (ts ++ t :: rest) = .ok e := by
  obtain ⟨us, vs, rfl, hagain⟩ := parseTokens_accepted h
  rw [List.append_assoc]
  exact hagain us (vs ++ t :: rest) (alikeAll_refl us) (nextAlike_end ht vs rest)

/-- The tokens from the refused one on decide what is found; none is left at the end of the list, and
the explicit end with all that follows it before that. -/
theorem parseTokens_end_refused (ht : t.kind = .eof) (h : parseTokens ts = .error err) :
    ∃ us vs, ts = us ++ vs ∧ err.found = nextToken (endOf ts) vs ∧ ∀ rest, ∃ err',
      parseTokens (ts ++ t :: rest) = .error err' ∧ err'.expected = err.expected ∧
        err'.found = nextToken t.offset (vs ++ [t]) := by
  obtain ⟨us, vs, rfl, hblame, -, hagain⟩ := parseTokens_refused h
  refine ⟨us, vs, rfl, congrArg SyntaxError.found hblame, fun rest => ?_⟩
  have hrefused := hagain us (vs ++ t :: rest) (alikeAll_refl us) (nextAlike_end ht vs rest)
  rw [← List.append_assoc] at hrefused
  refine ⟨_, hrefused, rfl, ?_⟩
  cases vs <;> rfl

end ExplicitEnd

/-- An explicit end ends the input wherever it stands. -/
theorem explicit_end_ends_input {ts : List Token} (hts : ∀ u ∈ ts, u.kind ≠ .eof) {t : Token}
    (ht : t.kind = .eof) (rest : List Token) :
    (∀ e, parseTokens (ts ++ t :: rest) = .ok e ↔ parseTokens ts = .ok e) ∧
    (∀ err, parseTokens ts = .error err → ∃ err', parseTokens (ts ++ t :: rest) = .error err' ∧
      err'.expected = err.expected ∧ err'.found.describe = err.found.describe ∧
      (err.found.describe ≠ utf8 "end of input" → err'.offset = err.offset) ∧
      (err.found.describe = utf8 "end of input" →
        err.offset = endOf ts ∧ err'.offset = t.offset)) ∧
    ∀ rest', (parseTokens (ts ++ t :: rest')).mapError (fun e => (e.expected, e.found)) =
      (parseTokens (ts ++ t :: rest)).mapError fun e => (e.expected, e.found) := by
  cases hparse : parseTokens ts with
  | ok e =>
    have hread := parseTokens_end_accepted ht hparse
    refine ⟨fun e' => ?_, fun _ herr => (by cases herr), fun rest' => ?_⟩
    · rw [hread rest]
    · rw [hread rest, hread rest']
  | error err =>
    obtain ⟨us, vs, hsplit, hfound, hrefused⟩ := parseTokens_end_refused ht hparse
    obtain ⟨err', herr', hexpected, hfound'⟩ := hrefused rest
    refine ⟨fun e => ?_, ?_, fun rest' => ?_⟩
    · rw [herr']
      exact ⟨fun h => (by cases h), fun h => (by cases h)⟩
    · rintro _ ⟨⟩
      refine ⟨err', herr', hexpected, ?_⟩
      rw [SyntaxError.offset, SyntaxError.offset, hfound, hfound']
      cases vs with
      | nil =>
        have hend : (Token.endAt (endOf ts)).describe = utf8 "end of input" := rfl
        exact ⟨describe_eq_end.mpr ht, fun hne => absurd hend hne, fun _ => ⟨rfl, rfl⟩⟩
      | cons v vs =>
        have hv : v.kind ≠ .eof := hts v (by simp [hsplit])
        exact ⟨rfl, fun _ => rfl, fun hend => absurd (describe_eq_end.mp hend) hv⟩
    · obtain ⟨err'', herr'', hexpected', hfound''⟩ := hrefused rest'
      rw [herr', herr'']
      simp only [Except.mapError, hexpected, hexpected', hfound', hfound'']

/-- The tokens of `(a`, without the end that the group lacks. -/
def openedGroup : List Token :=
  [⟨.leftParen, utf8 "(", 0, .absent⟩, ⟨.name, utf8 "a", 1, .absent⟩]

/-- A parenthesis behind the end does not close the group. -/
theorem explicit_end_ends_input_openedGroup :
    parseTokens openedGroup = .error ⟨.rightParen, .endAt 2, 0⟩ ∧
      ∃ err, parseTokens (openedGroup ++
          ⟨.eof, utf8 "b", 7, .absent⟩ :: [⟨.rightParen, utf8 ")", 3, .absent⟩]) = .error err ∧
        err.expected = .rightParen ∧ err.found.describe = utf8 "end of input" ∧
        err.offset = 7 := by
  have hopen : parseTokens openedGroup = .error ⟨.rightParen, .endAt 2, 0⟩ :=
    eq_error_of_match (by decide +kernel)
  have hkinds : ∀ u ∈ openedGroup, u.kind ≠ .eof := by decide
  obtain ⟨-, hrefused, -⟩ := explicit_end_ends_input hkinds
    (t := ⟨.eof, utf8 "b", 7, .absent⟩) rfl [⟨.rightParen, utf8 ")", 3, .absent⟩]
  obtain ⟨err, herr, hexpected, hfound, -, hend⟩ := hrefused _ hopen
  exact ⟨hopen, err, herr, hexpected, hfound, (hend rfl).2⟩

/-- An error blames a place in a list: it has the offset and the description of the token there, or,
behind the last token, the offset where that token ends and the description of the end. -/
structure SyntaxError.Blames (err : SyntaxError) (ts : List Token) (i : Nat) : Prop where
  index : err.index ts = i
  within : i ≤ ts.length
  token : ∀ t, ts[i]? = some t → err.offset = t.offset ∧ err.found.describe = t.describe
  ending : i = ts.length → err.offset = endOf ts ∧ err.found.describe = utf8 "end of input"

theorem SyntaxError.Blames.of_found {err : SyntaxError} {ts : List Token} {i : Nat}
    (hindex : err.index ts = i) (h : err.found = nextToken (endOf ts) (ts.drop i)) :
    err.Blames ts i where
  index := hindex
  within := hindex ▸ Nat.sub_le ..
  token t ht := by
    obtain ⟨hlt, rfl⟩ := List.getElem?_eq_some_iff.mp ht
    have hfound : err.found = ts[i] := by rw [h, List.drop_eq_getElem_cons hlt, nextToken]
    exact ⟨congrArg Token.offset hfound, congrArg Token.describe hfound⟩
  ending hi := by
    have hfound : err.found = .endAt (endOf ts) := by rw [h, hi, List.drop_length, nextToken]
    exact ⟨congrArg Token.offset hfound, congrArg Token.describe hfound⟩

/-- Only the significant parts of tokens decide what is read, or which token is refused and why. -/
theorem insignificant_parts_ignored {ts us : List Token} (h : AlikeAll ts us) :
    (∃ e, parseTokens ts = .ok e ∧ parseTokens us = .ok e) ∨
    ∃ err err' i, parseTokens ts = .error err ∧ parseTokens us = .error err' ∧
      err'.expected = err.expected ∧ err.Blames ts i ∧ err'.Blames us i := by
  rcases parseTokens_alike h with
    htree | ⟨err, err', herr, herr', hexpected, hindex, hfound, hfound'⟩
  · exact .inl htree
  · have hblames : err.Blames ts (err.index ts) := .of_found rfl hfound
    have hblames' : err'.Blames us (err.index ts) := .of_found hindex hfound'
    exact .inr ⟨err, err', err.index ts, herr, herr', hexpected, hblames, hblames'⟩

/-- The tokens of `(a < b`. -/
def openedComparison : List Token :=
  [⟨.leftParen, utf8 "(", 0, .absent⟩, ⟨.name, utf8 "a", 1, .absent⟩,
    ⟨.comparison, utf8 "<", 3, .less⟩, ⟨.name, utf8 "b", 5, .absent⟩]

/-- The same with odd places, with a sign that has no text, with one that has the text of a word,
and with comparisons where none belong. -/
def oddComparison : List Token :=
  [⟨.leftParen, [], 40, .greater⟩, ⟨.name, utf8 "a", -7, .unknown 9⟩,
    ⟨.comparison, utf8 "or", 2, .less⟩, ⟨.name, utf8 "b", -20, .notEqual⟩]

theorem insignificant_parts_ignored_oddComparison :
    AlikeAll openedComparison oddComparison ∧
      parseTokens openedComparison = .error ⟨.rightParen, .endAt 6, 0⟩ ∧
      ∃ err, parseTokens oddComparison = .error err ∧ err.expected = .rightParen ∧
        err.Blames oddComparison 4 ∧ err.offset = -19 := by
  have halike : AlikeAll openedComparison oddComparison := by decide
  have hopen : parseTokens openedComparison = .error ⟨.rightParen, .endAt 6, 0⟩ :=
    eq_error_of_match (by decide +kernel)
  refine ⟨halike, hopen, ?_⟩
  rcases insignificant_parts_ignored halike with
    ⟨e, he, -⟩ | ⟨err, err', i, herr, herr', hexpected, hblames, hblames'⟩
  · rw [hopen] at he
    cases he
  · rw [hopen] at herr
    cases herr
    obtain rfl : 4 = i := hblames.index
    exact ⟨err', herr', hexpected, hblames', (hblames'.ending rfl).1⟩

end NodePath
