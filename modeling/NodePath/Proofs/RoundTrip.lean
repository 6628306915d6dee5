import NodePath.Proofs.CanonicalDerivation

/-!
# Canonical texts read back

The canonical text of a well-formed tree reads back as that tree, unless one of its primaries lies
inside more than 255 groups, predicates, arguments and minus signs; then the text is refused for its
nesting. Since only well-formed trees are ever read, this holds of every tree that has been read.
-/

namespace NodePath

open NodePath.Text NodePath.Number

theorem Scans.tokenize {f : Bytes → Prop} {s : Bytes} {P : List Token → Prop} (h : Scans f s P)
    (hend : f []) : ∃ tokens, NodePath.tokenize s = .ok tokens ∧ P tokens := by
  obtain ⟨tokens, htokens, hscan⟩ := h 0 [] hend
  rw [List.append_nil, tokensFrom_nil] at hscan
  refine ⟨tokens, ?_, htokens⟩
  rw [NodePath.tokenize, hscan]
  simp [Except.map]

/-- The canonical text of a well-formed tree has tokens that denote the tree. -/
theorem text_denotes {e : Expr} (h : e.WellFormed) :
    ∃ text tokens, e.text? = some text ∧ tokenize text = .ok tokens ∧
      Denotes e.nesting tokens e := by
  obtain ⟨text, htext, hread⟩ := e.readable h
  obtain ⟨tokens, htokens, hden⟩ := hread.whole.tokenize .done
  exact ⟨text, tokens, htext, htokens, hden⟩

theorem parse_of_denotes {text : Bytes} {tokens : List Token} {nesting : Nat} {e : Expr}
    (htokens : tokenize text = .ok tokens) (h : Denotes nesting tokens e) (hn : nesting ≤ 255) :
    parse text = .ok e := by
  rw [parse, htokens]
  dsimp only
  rw [parseTokens_of_denotes h hn]
  rfl

theorem parse_of_denotes_deep {text : Bytes} {tokens : List Token} {nesting : Nat} {e : Expr}
    (htokens : tokenize text = .ok tokens) (h : Denotes nesting tokens e) (hn : 255 < nesting) :
    ∃ err, parse text = .error (.grammatical err) ∧ err.expected = .shallowNesting := by
  obtain ⟨err, herr, hexp⟩ := parseTokens_of_denotes_deep h hn
  refine ⟨err, ?_, hexp⟩
  rw [parse, htokens]
  dsimp only
  rw [herr]
  rfl

/-- Writing a well-formed tree and reading the text is the identity up to the nesting limit, and
every tree that is read is well-formed. -/
theorem canonical_text_reads_back :
    (∀ source e, parse source = .ok e → e.WellFormed) ∧
    ∀ e : Expr, e.WellFormed → ∃ text tokens, e.text? = some text ∧ tokenize text = .ok tokens ∧
      Denotes e.nesting tokens e ∧
      (e.nesting ≤ 255 → parse text = .ok e) ∧
      (255 < e.nesting → ∃ err, parse text = .error (.grammatical err) ∧
        err.expected = .shallowNesting) := by
  refine ⟨fun _ _ => wellFormed_of_parse, fun e h => ?_⟩
  obtain ⟨text, tokens, htext, htokens, hden⟩ := text_denotes h
  exact ⟨text, tokens, htext, htokens, hden, parse_of_denotes htokens hden,
    parse_of_denotes_deep htokens hden⟩

theorem wellFormed_namePath {name : Bytes} (h : IsName name) : (namePath name).WellFormed :=
  ⟨rfl, .inr ⟨by simp, .inr (.inr ⟨⟨[], name⟩, ⟨.inl rfl, h⟩, rfl⟩), trivial⟩, trivial⟩

theorem canonical_text_reads_back_negatedUnion :
    parse (utf8 "-(a | b)") =
        .ok (.negate (.binary .union .absent (namePath (utf8 "a")) (namePath (utf8 "b")))) ∧
      Expr.WellFormed
        (.negate (.binary .union .absent (namePath (utf8 "a")) (namePath (utf8 "b")))) := by
  have ha : IsName (utf8 "a") := ⟨isWord_utf8 (by decide), by decide⟩
  have hb : IsName (utf8 "b") := ⟨isWord_utf8 (by decide), by decide⟩
  have hwell : Expr.WellFormed
      (.negate (.binary .union .absent (namePath (utf8 "a")) (namePath (utf8 "b")))) :=
    ⟨⟨by decide, by decide⟩, wellFormed_namePath ha, wellFormed_namePath hb⟩
  obtain ⟨text, -, htext, -, -, hparse, -⟩ := canonical_text_reads_back.2 _ hwell
  have hcanonical : text = utf8 "-(a | b)" := Option.some.inj (htext.symm.trans (by decide))
  have hread := hparse (by decide)
  rw [hcanonical] at hread
  exact ⟨hread, canonical_text_reads_back.1 _ _ hread⟩

end NodePath
