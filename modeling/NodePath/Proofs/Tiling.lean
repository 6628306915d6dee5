import NodePath.Proofs.Lexemes

/-!
# Tokens tile their source

A source that is read as tokens is those tokens as they are written, with blanks, tabs and line ends
between them, and each token knows where it stands. The layout is stated first as a relation between
bytes and tokens that is read off from left to right, then by the offsets of the tokens.
-/

namespace NodePath

open NodePath.Text

/-- The bytes that may stand between tokens. -/
def gapBytes : Bytes := [ascii ' ', ascii '\t', ascii '\n', ascii '\r']

/-- `Tiles o s ts`: from the offset `o` on the source is `s`, and its tokens are exactly `ts`. -/
inductive Tiles : Nat → Bytes → List Token → Prop where
  | done {o : Nat} : Tiles o [] []
  | gap {o : Nat} {b : UInt8} {s : Bytes} {ts : List Token} : b ∈ gapBytes → Tiles (o + 1) s ts →
      Tiles o (b :: s) ts
  | token {o : Nat} {k : Kind} {x w s : Bytes} {c : Comparison} {ts : List Token} :
      Written k x c w → Tiles (o + w.length) s ts → Tiles o (w ++ s) (⟨k, x, o, c⟩ :: ts)

theorem gap_bytes {g : Glyph} (h : g.satisfies isGap = true) : ∃ b ∈ gapBytes, g.bytes = [b] := by
  cases g with
  | stray b => cases h
  | char c =>
    simp only [Glyph.satisfies, isGap, Bool.or_eq_true, decide_eq_true_eq] at h
    rcases h with ((rfl | rfl) | rfl) | rfl
    all_goals exact ⟨_, by decide, rfl⟩

theorem tokensFrom_tiles (o : Nat) (gs : List Glyph) {ts : List Token}
    (h : tokensFrom o gs = .ok ts) : Tiles o (bytesOf gs) ts := by
  fun_induction tokensFrom o gs generalizing ts with
  | case1 o =>
    cases h
    exact .done
  | case2 o g after hgap ih =>
    obtain ⟨b, hb, hbytes⟩ := gap_bytes hgap
    rw [bytesOf_cons, hbytes]
    exact .gap hb (ih h)
  | case3 => cases h
  | case4 => cases h
  | case5 o g after hgap l hl tokens hrest hok ih =>
    cases h
    obtain ⟨w, hw, hwidth, hbytes⟩ := lexemeAt_fits hl
    rw [hbytes]
    refine .token hw ?_
    rw [← hwidth]
    exact ih hok

theorem keyword_kind {w : Bytes} {k : Kind} (h : keyword? w = some k) :
    k ∈ keywords.map Prod.snd := by
  obtain ⟨before, after, hsplit, -⟩ := List.lookup_eq_some_iff.mp h
  rw [hsplit]
  simp

section Written

variable {k : Kind} {x w : Bytes} {c : Comparison}

theorem Written.kind_ne_eof (h : Written k x c w) : k ≠ .eof := by
  cases h with
  | keyword _ hk =>
    rintro rfl
    exact absurd (keyword_kind hk) (by decide)
  | symbol hs =>
    rintro rfl
    exact absurd (List.mem_map_of_mem hs) (by decide : Kind.eof ∉ symbols.map Prod.fst)
  | _ => decide

/-- Only literals are written with more than their lexeme. -/
theorem Written.spelling (h : Written k x c w) :
    (k ≠ .stringLiteral ∧ x ≠ [] ∧ w = x) ∨
      (k = .stringLiteral ∧ ∃ q ∈ quotes, ascii q ∉ x ∧ w = ascii q :: (x ++ [ascii q])) := by
  cases h with
  | literal hq _ hx => exact .inr ⟨rfl, _, hq, hx, rfl⟩
  | keyword hw hk =>
    refine .inl ⟨?_, hw.ne_nil, rfl⟩
    rintro rfl
    exact absurd (keyword_kind hk) (by decide)
  | name hw => exact .inl ⟨by decide, hw.ne_nil, rfl⟩
  | functionName hw => exact .inl ⟨by decide, hw.ne_nil, rfl⟩
  | nodeType hw => exact .inl ⟨by decide, hw.ne_nil, rfl⟩
  | axisName hw => exact .inl ⟨by decide, hw.ne_nil, rfl⟩
  | integer hds => exact .inl ⟨by decide, hds.1, rfl⟩
  | float hws => exact .inl ⟨by decide, by simp, rfl⟩
  | symbol hs =>
    have hsymbols : ∀ p ∈ symbols, p.1 ≠ .stringLiteral ∧ p.2 ≠ [] := by decide
    exact .inl ⟨(hsymbols _ hs).1, (hsymbols _ hs).2, rfl⟩
  | comparison hc =>
    have hsigns : ∀ c ∈ comparisons, c.symbol ≠ [] := by decide
    exact .inl ⟨by decide, hsigns _ hc, rfl⟩

/-- Comparison tokens, and only these, carry a comparison: the one they are written with. -/
theorem Written.comparison_iff (h : Written k x c w) :
    (c ≠ .absent ↔ k = .comparison) ∧ (k = .comparison → c.symbol = x) := by
  cases h with
  | comparison hc =>
    have hsome : ∀ c ∈ comparisons, c ≠ .absent := by decide
    exact ⟨⟨fun _ => rfl, fun _ => hsome _ hc⟩, fun _ => rfl⟩
  | keyword _ hk =>
    have hne : k ≠ .comparison := by
      rintro rfl
      exact absurd (keyword_kind hk) (by decide)
    exact ⟨⟨fun h => absurd rfl h, fun h => absurd h hne⟩, fun h => absurd h hne⟩
  | symbol hs =>
    have hsymbols : ∀ p ∈ symbols, p.1 ≠ .comparison := by decide
    exact ⟨⟨fun h => absurd rfl h, fun h => absurd h (hsymbols _ hs)⟩,
      fun h => absurd h (hsymbols _ hs)⟩
  | _ => exact ⟨by simp, by simp⟩

/-- A token ends where its written form ends. -/
theorem Written.stop (h : Written k x c w) (o : Int) :
    (Token.mk k x o c).stop = o + w.length ∧ 0 < w.length := by
  rcases h.spelling with ⟨hk, hx, rfl⟩ | ⟨rfl, q, -, -, rfl⟩
  · exact ⟨by simp [Token.stop, hk], List.length_pos_iff.mpr hx⟩
  · refine ⟨?_, by simp⟩
    simp only [Token.stop, if_true, List.length_cons, List.length_append, List.length_nil]
    omega

end Written

section Tiles

variable {o : Nat} {s : Bytes} {ts : List Token}

/-- Each token stands in the source at its offset. -/
theorem Tiles.mem (h : Tiles o s ts) {t : Token} (ht : t ∈ ts) :
    ∃ before w after, s = before ++ (w ++ after) ∧ t.offset = o + before.length ∧
      Written t.kind t.lexeme t.comparison w := by
  induction h with
  | done => cases ht
  | @gap o b s ts hb hrest ih =>
    obtain ⟨before, w, after, rfl, hoffset, hw⟩ := ih ht
    refine ⟨b :: before, w, after, rfl, ?_, hw⟩
    simp only [List.length_cons]
    omega
  | @token o k x w s c ts hw hrest ih =>
    rcases List.mem_cons.mp ht with rfl | ht
    · exact ⟨[], w, s, rfl, by simp, hw⟩
    · obtain ⟨before, v, after, rfl, hoffset, hv⟩ := ih ht
      refine ⟨w ++ before, v, after, (List.append_assoc ..).symm, ?_, hv⟩
      rw [List.length_append]
      omega

theorem Tiles.ascending (h : Tiles o s ts) :
    ts.Pairwise fun t u => t.offset < u.offset ∧ t.stop ≤ u.offset := by
  induction h with
  | done => exact .nil
  | gap hb hrest ih => exact ih
  | @token o k x w s c ts hw hrest ih =>
    refine .cons ?_ ih
    intro u hu
    obtain ⟨before, -, -, -, hoffset, -⟩ := hrest.mem hu
    obtain ⟨hstop, hpos⟩ := hw.stop o
    rw [hstop]
    show (o : Int) < u.offset ∧ _
    omega

/-- A byte belongs to a token unless it may stand between tokens. -/
theorem Tiles.covered (h : Tiles o s ts) {i : Nat} {b : UInt8} (hb : s[i]? = some b) :
    b ∈ gapBytes ∨ ∃ t ∈ ts, t.offset ≤ o + i ∧ o + i < t.stop := by
  induction h generalizing i with
  | done => simp at hb
  | @gap o g s ts hg hrest ih =>
    cases i with
    | zero =>
      simp only [List.getElem?_cons_zero, Option.some.injEq] at hb
      exact .inl (hb ▸ hg)
    | succ i =>
      rcases ih hb with hgap | ⟨t, ht, hlo, hhi⟩
      · exact .inl hgap
      · exact .inr ⟨t, ht, by omega, by omega⟩
  | @token o k x w s c ts hw hrest ih =>
    by_cases hi : i < w.length
    · refine .inr ⟨_, List.mem_cons_self, ?_⟩
      rw [(hw.stop o).1]
      show (o : Int) ≤ _ ∧ _
      omega
    · rw [List.getElem?_append_right (Nat.le_of_not_lt hi)] at hb
      rcases ih hb with hgap | ⟨t, ht, hlo, hhi⟩
      · exact .inl hgap
      · exact .inr ⟨t, List.mem_cons_of_mem _ ht, by omega, by omega⟩

end Tiles

/-- The bytes of a source from the start of a token to its stop. -/
def Token.spanIn (t : Token) (source : Bytes) : Bytes :=
  (source.drop t.offset.toNat).take (t.stop - t.offset).toNat

/-- What it means that tokens tile a source: their spans ascend without overlap inside it, each span
is the token as it is written, and only blanks, tabs and line ends lie outside all spans. -/
structure Tiling (source : Bytes) (tokens : List Token) : Prop where
  ascending : tokens.Pairwise fun t u => t.offset < u.offset ∧ t.stop ≤ u.offset
  inside : ∀ t ∈ tokens, 0 ≤ t.offset ∧ t.offset < t.stop ∧ t.stop ≤ source.length
  plain : ∀ t ∈ tokens, t.kind ≠ .stringLiteral → t.lexeme ≠ [] ∧ t.spanIn source = t.lexeme
  literal : ∀ t ∈ tokens, t.kind = .stringLiteral →
    ∃ q ∈ quotes, ascii q ∉ t.lexeme ∧ t.spanIn source = ascii q :: (t.lexeme ++ [ascii q])
  between : ∀ (i : Nat) b, source[i]? = some b → (∀ t ∈ tokens, ¬(t.offset ≤ i ∧ i < t.stop)) →
    b ∈ gapBytes
  noEnd : ∀ t ∈ tokens, t.kind ≠ .eof
  comparison : ∀ t ∈ tokens, (t.comparison ≠ .absent ↔ t.kind = .comparison) ∧
    (t.kind = .comparison → t.comparison.symbol = t.lexeme)

theorem Tiles.spanIn {source : Bytes} {tokens : List Token} (h : Tiles 0 source tokens) {t : Token}
    (ht : t ∈ tokens) : Written t.kind t.lexeme t.comparison (t.spanIn source) ∧
      0 ≤ t.offset ∧ t.offset < t.stop ∧ t.stop ≤ source.length := by
  obtain ⟨before, w, after, rfl, hoffset, hw⟩ := h.mem ht
  obtain ⟨hstop, hpos⟩ := hw.stop t.offset
  have hspan : t.spanIn (before ++ (w ++ after)) = w := by
    have hdrop : t.offset.toNat = before.length := by omega
    have htake : (t.stop - t.offset).toNat = w.length := by
      rw [hstop]
      omega
    rw [Token.spanIn, hdrop, htake, List.drop_left, List.take_left]
  refine ⟨hspan.symm ▸ hw, ?_⟩
  rw [hstop, List.length_append, List.length_append]
  omega

/-- The tokens of every accepted source tile it. -/
theorem tokenize_tiling {source : Bytes} {tokens : List Token} (h : tokenize source = .ok tokens) :
    Tiling source tokens := by
  have htiles : Tiles 0 source tokens := by
    have hfrom := tokensFrom_tiles 0 (glyphs source) h
    rwa [bytesOf_glyphs] at hfrom
  refine ⟨htiles.ascending, fun t ht => (htiles.spanIn ht).2, ?_, ?_, ?_, ?_, ?_⟩
  · intro t ht hk
    rcases (htiles.spanIn ht).1.spelling with ⟨-, hx, hspan⟩ | ⟨hk', -⟩
    · exact ⟨hx, hspan⟩
    · exact absurd hk' hk
  · intro t ht hk
    rcases (htiles.spanIn ht).1.spelling with ⟨hk', -⟩ | ⟨-, hq⟩
    · exact absurd hk hk'
    · exact hq
  · intro i b hb hout
    rcases htiles.covered hb with hgap | ⟨t, ht, hin⟩
    · exact hgap
    · exact absurd (by omega) (hout t ht)
  · intro t ht
    exact (htiles.spanIn ht).1.kind_ne_eof
  · intro t ht
    exact (htiles.spanIn ht).1.comparison_iff

theorem eq_ok_of_toOption {ε α : Type} {r : Except ε α} {a : α} (h : r.toOption = some a) :
    r = .ok a := by
  cases r with
  | error e => cases h
  | ok b => exact congrArg Except.ok (Option.some.inj h)

theorem eq_error_of_match {ε α : Type} {r : Except ε α} {e : ε}
    (h : (match r with | .error e => some e | .ok _ => none) = some e) : r = .error e := by
  cases r with
  | error e' => exact congrArg Except.error (Option.some.inj h)
  | ok a => cases h

/-- The tokens of ` é<='a'`, in which a letter takes two bytes. -/
def comparedName : List Token :=
  [⟨.name, utf8 "é", 1, .absent⟩, ⟨.comparison, utf8 "<=", 3, .lessEqual⟩,
    ⟨.stringLiteral, utf8 "a", 5, .absent⟩]

theorem tokenize_tiling_comparedName :
    tokenize (utf8 " é<='a'") = .ok comparedName ∧ Tiling (utf8 " é<='a'") comparedName := by
  have h : tokenize (utf8 " é<='a'") = .ok comparedName := eq_ok_of_toOption (by decide +kernel)
  exact ⟨h, tokenize_tiling h⟩

end NodePath
