import NodePath.Proofs.GrammarComplete

/-!
# The reader accepts exactly its grammar

For lists of tokens without an explicit end, the reader returns a tree exactly when the list denotes
that tree with a nesting of at most 255. A list denotes one tree at most, with one nesting. A list
that denotes a tree with a larger nesting is refused for its nesting, and for nothing else.
-/

namespace NodePath

open NodePath.Text NodePath.Number

theorem Denotes.answer {nesting : Nat} {ts : List Token} {e : Expr} (h : Denotes nesting ts e)
    (stop : Int) (levels : Nat) :
    Answers (nesting < levels) (parseExpression stop levels ts) e [] := by
  have hclose : (nextKind []).closes = true := rfl
  have hread : Answers (nesting < levels) (parseExpression stop levels (ts ++ [])) e [] :=
    (h.read stop).closed hclose
  rwa [List.append_nil] at hread

/-- Trees and nestings are unique because one reader, with enough levels or with just too few, has
one answer. -/
theorem Denotes.unique {m n : Nat} {ts : List Token} {e e' : Expr} (h : Denotes m ts e)
    (h' : Denotes n ts e') : e = e' ∧ m = n := by
  have agree : ∀ {m n : Nat} {e e' : Expr}, Denotes m ts e → Denotes n ts e' → m ≤ n →
      e = e' ∧ m = n := by
    intro m n e e' h h' hmn
    have htree : e = e' := by
      rcases h.answer 0 (n + 1) with ⟨_, _, hok⟩ | ⟨hno, _⟩
      · rcases h'.answer 0 (n + 1) with ⟨_, _, hok'⟩ | ⟨hno, _⟩
        · rw [hok] at hok'
          cases hok'
          rfl
        · exact absurd (Nat.lt_succ_self n) hno
      · exact absurd (Nat.lt_succ_of_le hmn) hno
    refine ⟨htree, Nat.le_antisymm hmn (Nat.le_of_not_lt fun hlt => ?_)⟩
    rcases h.answer 0 n with ⟨_, _, hok⟩ | ⟨hno, _⟩
    · rcases h'.answer 0 n with ⟨hlt', _⟩ | ⟨_, err, herr, _⟩
      · exact Nat.lt_irrefl n hlt'
      · rw [hok] at herr
        cases herr
    · exact hno hlt
  rcases Nat.le_total m n with hmn | hnm
  · exact agree h h' hmn
  · obtain ⟨he, hn⟩ := agree h' h hnm
    exact ⟨he.symm, hn.symm⟩

theorem parseTokens_of_denotes {nesting : Nat} {ts : List Token} {e : Expr}
    (h : Denotes nesting ts e) (hn : nesting ≤ 255) : parseTokens ts = .ok e := by
  rcases h.answer (endOf ts) maxLevels with ⟨_, hr, hok⟩ | ⟨hno, _⟩
  · rw [parseTokens, hok, ok_bind]
    rfl
  · exact absurd (Nat.lt_succ_of_le hn) hno

theorem parseTokens_of_denotes_deep {nesting : Nat} {ts : List Token} {e : Expr}
    (h : Denotes nesting ts e) (hn : 255 < nesting) :
    ∃ err, parseTokens ts = .error err ∧ err.expected = .shallowNesting := by
  rcases h.answer (endOf ts) maxLevels with ⟨hlt, _⟩ | ⟨_, err, herr, hexp⟩
  · exact absurd hn (Nat.not_lt.mpr (Nat.le_of_lt_succ hlt))
  · refine ⟨err, ?_, hexp⟩
    rw [parseTokens, herr]
    rfl

/-- Whatever is left over ends the input only if nothing is left over. -/
theorem denotes_of_parseTokens {ts : List Token} {e : Expr} (hts : ∀ t ∈ ts, t.kind ≠ .eof)
    (h : parseTokens ts = .ok e) : ∃ nesting ≤ 255, Denotes nesting ts e := by
  obtain ⟨⟨e', rest, hr⟩, hexpr, h⟩ := bind_ok h
  obtain ⟨d, us, hd, hsplit, hder⟩ := parseExpression_explained hexpr
  dsimp only at h
  split at h
  · next hend =>
    cases h
    cases rest with
    | nil =>
      rw [List.append_nil] at hsplit
      subst hsplit
      exact ⟨d, Nat.le_of_lt_succ hd, hder⟩
    | cons t tail =>
      have hmem : t ∈ ts := by
        rw [hsplit]
        simp
      exact absurd hend (hts t hmem)
  · cases h

/-- The grammar is exactly what the reader accepts. -/
theorem parseTokens_recognizes (ts : List Token) (hts : ∀ t ∈ ts, t.kind ≠ .eof) :
    (∀ e, parseTokens ts = .ok e ↔ ∃ nesting ≤ 255, Denotes nesting ts e) ∧
    (∀ m n e e', Denotes m ts e → Denotes n ts e' → e = e' ∧ m = n) ∧
    (∀ nesting e, Denotes nesting ts e → 255 < nesting →
      ∃ err, parseTokens ts = .error err ∧ err.expected = .shallowNesting) := by
  refine ⟨fun e => ⟨denotes_of_parseTokens hts, ?_⟩, ?_, ?_⟩
  · rintro ⟨nesting, hn, h⟩
    exact parseTokens_of_denotes h hn
  · intro m n e e' h h'
    exact h.unique h'
  · intro nesting e h hn
    exact parseTokens_of_denotes_deep h hn

/-- The path of one name. -/
def namePath (name : Bytes) : Expr :=
  .path [(.absent, .mk none (.name (.qualified ⟨[], name⟩)) [])]

theorem derives_namePath {t : Token} (h : t.kind = .name) :
    Derives (.level 10) 0 [t] (namePath t.lexeme) :=
  .operand (.unsigned (.relative
    (.steps (.plainStep (.oneName (.bareName h)) .noPredicates) .noFurtherSteps)))

/-- The tokens of a negated group of two names. -/
def negatedUnion : List Token :=
  [⟨.minus, utf8 "-", 0, .absent⟩, ⟨.leftParen, utf8 "(", 1, .absent⟩,
    ⟨.name, utf8 "a", 2, .absent⟩, ⟨.bar, utf8 "|", 3, .absent⟩, ⟨.name, utf8 "b", 4, .absent⟩,
    ⟨.rightParen, utf8 ")", 5, .absent⟩]

theorem parseTokens_recognizes_negatedUnion :
    (∀ t ∈ negatedUnion, t.kind ≠ .eof) ∧
      parseTokens negatedUnion =
        .ok (.negate (.binary .union .absent (namePath (utf8 "a")) (namePath (utf8 "b")))) := by
  have hts : ∀ t ∈ negatedUnion, t.kind ≠ .eof := by decide
  refine ⟨hts, ((parseTokens_recognizes negatedUnion hts).1 _).mpr ⟨2, by decide, ?_⟩⟩
  have hunion := Derives.binary (n := 3) (t := ⟨.bar, utf8 "|", 3, .absent⟩)
    ((derives_namePath (t := ⟨.name, utf8 "a", 2, .absent⟩) rfl).loosen (by decide)) rfl
    ((derives_namePath (t := ⟨.name, utf8 "b", 4, .absent⟩) rfl).loosen (by decide))
  have hgroup := Derives.group (l := ⟨.leftParen, utf8 "(", 1, .absent⟩)
    (r := ⟨.rightParen, utf8 ")", 5, .absent⟩) rfl (hunion.loosen (by decide)) rfl
  have hminus := Derives.negated (t := ⟨.minus, utf8 "-", 0, .absent⟩) rfl
    (.unsigned (.filtered hgroup .noPredicates))
  exact (Derives.operand hminus).loosen (by decide)

end NodePath
