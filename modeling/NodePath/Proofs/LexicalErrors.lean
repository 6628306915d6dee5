import NodePath.Proofs.Relexing
import NodePath.Proofs.Tiling

/-!
# Where the reader of tokens stops

A source is refused behind characters only: everything before the place that is blamed has been
read as characters, and the encoding is blamed exactly when a stray byte stands there. So a source
with tokens is well-formed throughout, and a blamed encoding is the first stray byte of all.
-/

namespace NodePath

open NodePath.Text NodePath.Number

/-- What a refusal can be, by the glyph at which the lexeme begins. -/
theorem lexemeAt_error_cases {o : Nat} {g : Glyph} {after : List Glyph} {e : LexError}
    (h : lexemeAt o g after = .error e) :
    (∃ b, g = .stray b ∧ e = ⟨o, .badEncoding⟩) ∨
    ∃ c, g = .char c ∧
      ((∃ cause, numberLexeme (.char c) after = .error cause ∧ e = ⟨o, cause⟩) ∨
        (c ∈ quotes ∧ ∃ ahead cause, literalLexeme c after = .error (ahead, cause) ∧
          e = ⟨o + ahead, cause⟩) ∨
        ∃ cause, symbolLexeme c after = .error cause ∧ e = ⟨o, cause⟩) := by
  unfold lexemeAt at h
  split at h
  · cases h
    exact .inl ⟨_, rfl, rfl⟩
  · next c =>
    refine .inr ⟨c, rfl, ?_⟩
    split at h
    · cases h
    · split at h
      · exact .inl (error_of_mapError h)
      · split at h
        · next hc =>
          obtain ⟨⟨ahead, cause⟩, hl, he⟩ := error_of_mapError h
          exact .inr (.inl ⟨by simpa [quotes] using hc, ahead, cause, hl, he⟩)
        · exact .inr (.inr (error_of_mapError h))

section Causes

variable {after : List Glyph} {cause : LexCause}

theorem numberLexeme_error {g : Glyph} (h : numberLexeme g after = .error cause) :
    cause ≠ .badEncoding := by
  have hinteger : ∀ {text rest hrest}, numberLexeme.integer after text rest hrest = .error cause →
      cause ≠ .badEncoding := by
    intro text rest hrest h
    unfold numberLexeme.integer at h
    split at h
    · cases h
      rintro ⟨⟩
    · cases h
  unfold numberLexeme at h
  dsimp only at h
  split at h
  · split at h
    · split at h
      · cases h
        rintro ⟨⟩
      · cases h
    · exact hinteger h
  · exact hinteger h

theorem symbolLexeme_error {c : Char} (h : symbolLexeme c after = .error cause) :
    cause ≠ .badEncoding := by
  unfold symbolLexeme at h
  split at h <;> cases h
  all_goals rintro ⟨⟩

/-- A literal is refused at its opening quote if it is never closed, and else at the first stray byte
before its closing quote. -/
theorem literalLexeme_error {q : Char} {ahead : Nat}
    (h : literalLexeme q after = .error (ahead, cause)) :
    (ahead = 0 ∧ cause = .openLiteral) ∨
    ∃ (cs : List Char) (b : UInt8) (rest : List Glyph), q ∉ cs ∧ .char q ∈ rest ∧
      after = cs.map .char ++ .stray b :: rest ∧
      ahead = 1 + (cs.flatMap encode).length ∧ cause = .badEncoding := by
  unfold literalLexeme at h
  dsimp only at h
  split at h
  · cases h
    exact .inl ⟨rfl, rfl⟩
  · next g rest hsplit =>
    split at h
    · cases h
    · next hinside =>
      cases h
      obtain ⟨cs, b, more, hgs, htake⟩ := exists_stray hinside
      have hnot : q ∉ cs := by
        intro hmem
        have hin : Glyph.char q ∈ after.takeWhile (· ≠ .char q) := by
          rw [hgs]
          exact List.mem_append_left _ (List.mem_map_of_mem hmem)
        simpa using List.all_eq_true.mp List.all_takeWhile _ hin
      have hhead : g ∈ (after.dropWhile (· ≠ .char q)).head? := by
        rw [hsplit]
        rfl
      obtain rfl : g = .char q := by simpa using head?_dropWhile hhead
      refine .inr ⟨cs, b, more ++ .char q :: rest, hnot, by simp, ?_, ?_, rfl⟩
      · calc after
            = after.takeWhile (· ≠ .char q) ++ after.dropWhile (· ≠ .char q) :=
              List.takeWhile_append_dropWhile.symm
          _ = cs.map .char ++ .stray b :: (more ++ .char q :: rest) := by
              rw [hgs, hsplit]
              simp
      · rw [htake, widthOf, bytesOf_chars]

end Causes

/-- A refusal of the glyphs from an offset on: it stands behind characters, and it blames the
encoding exactly when a stray byte comes next. -/
def LexError.Stops (e : LexError) (o : Nat) (gs : List Glyph) : Prop :=
  ∃ (cs : List Char) (g : Glyph) (rest : List Glyph), gs = cs.map .char ++ g :: rest ∧
    e.offset = o + (cs.flatMap encode).length ∧ (e.cause = .badEncoding ↔ g.isChar = false)

theorem LexError.Stops.after {e : LexError} {o : Nat} {gs : List Glyph} (cs : List Char)
    (h : e.Stops (o + (cs.flatMap encode).length) gs) : e.Stops o (cs.map .char ++ gs) := by
  obtain ⟨ds, g, rest, rfl, hoffset, hcause⟩ := h
  refine ⟨cs ++ ds, g, rest, by simp, ?_, hcause⟩
  rw [hoffset, List.flatMap_append, List.length_append, Nat.add_assoc]

theorem lexemeAt_stops {o : Nat} {g : Glyph} {after : List Glyph} {e : LexError}
    (h : lexemeAt o g after = .error e) : e.Stops o (g :: after) := by
  rcases lexemeAt_error_cases h with ⟨b, rfl, rfl⟩ | ⟨c, rfl, ⟨cause, hl, rfl⟩ |
    ⟨hc, ahead, cause, hl, rfl⟩ | ⟨cause, hl, rfl⟩⟩
  · exact ⟨[], .stray b, after, rfl, rfl, iff_of_true rfl rfl⟩
  · exact ⟨[], .char c, after, rfl, rfl, iff_of_false (numberLexeme_error hl) nofun⟩
  · rcases literalLexeme_error hl with ⟨rfl, rfl⟩ | ⟨cs, b, rest, -, -, rfl, rfl, rfl⟩
    · exact ⟨[], .char c, after, rfl, rfl, iff_of_false nofun nofun⟩
    · refine ⟨c :: cs, .stray b, rest, rfl, ?_, iff_of_true rfl rfl⟩
      rw [List.flatMap_cons, encode_ascii (quote_ascii c hc), List.length_append]
      rfl
  · exact ⟨[], .char c, after, rfl, rfl, iff_of_false (symbolLexeme_error hl) nofun⟩

theorem tokensFrom_stops (o : Nat) (gs : List Glyph) {e : LexError}
    (h : tokensFrom o gs = .error e) : e.Stops o gs := by
  fun_induction tokensFrom o gs with
  | case1 o => cases h
  | case2 o g after hgap ih =>
    obtain ⟨b, -, hbytes⟩ := gap_bytes hgap
    cases g with
    | stray b => cases hgap
    | char c =>
      have hwidth : ([c].flatMap encode).length = 1 := by
        rw [List.flatMap_singleton]
        exact congrArg List.length hbytes
      refine LexError.Stops.after [c] ?_
      rw [hwidth]
      exact ih h
  | case3 o g after hgap e' hl =>
    cases h
    exact lexemeAt_stops hl
  | case4 o g after hgap l hl hrest e' herr ih =>
    cases h
    obtain ⟨cs, hcs, hwidth, -⟩ := lexemeAt_repeats hl
    rw [hcs]
    refine LexError.Stops.after cs ?_
    rw [← hwidth]
    exact ih herr
  | case5 => cases h

theorem tokensFrom_chars (o : Nat) (gs : List Glyph) {ts : List Token}
    (h : tokensFrom o gs = .ok ts) : gs.all Glyph.isChar = true := by
  fun_induction tokensFrom o gs generalizing ts with
  | case1 o => rfl
  | case2 o g after hgap ih =>
    cases g with
    | stray b => cases hgap
    | char c => exact ih h
  | case3 => cases h
  | case4 => cases h
  | case5 o g after hgap l hl tokens hrest hok ih =>
    obtain ⟨cs, hcs, -⟩ := lexemeAt_repeats hl
    rw [hcs, List.all_append, ih hok]
    simp [Glyph.isChar]

theorem Written.isWellFormed {k : Kind} {x w : Bytes} {c : Comparison} (h : Written k x c w) :
    isWellFormed x = true := by
  cases h with
  | keyword hw => exact hw.isWellFormed
  | name hw => exact hw.isWellFormed
  | functionName hw => exact hw.isWellFormed
  | nodeType hw => exact hw.isWellFormed
  | axisName hw => exact hw.isWellFormed
  | integer hds => exact hds.isWellFormed
  | float hws hds =>
    exact isWellFormed_append hws.isWellFormed
      (isWellFormed_append (isWellFormed_utf8 ".") hds.isWellFormed)
  | literal _ hs => exact hs
  | symbol hs =>
    have hall : ∀ p ∈ symbols, NodePath.Text.isWellFormed p.2 = true := by decide
    exact hall _ hs
  | comparison hc =>
    have hall : ∀ c ∈ comparisons, NodePath.Text.isWellFormed c.symbol = true := by decide
    exact hall _ hc

/-- The text of a refusal tells whether the encoding is blamed. -/
theorem LexCause.message_eq_badEncoding {cause : LexCause} :
    cause.message = utf8 "invalid UTF-8 encoding" ↔ cause = .badEncoding := by
  refine ⟨fun h => ?_, fun h => congrArg _ h⟩
  have hthird : cause.message[2]? = some 118 := congrArg (·[2]?) h
  cases cause with
  | badEncoding => rfl
  | integerRange digits => exact absurd (Option.some.inj hthird) (by decide)
  | floatRange digits => exact absurd (Option.some.inj hthird) (by decide)
  | openLiteral => exact absurd (Option.some.inj hthird) (by decide)
  | loneBang => exact absurd (Option.some.inj hthird) (by decide)
  | unexpected c => exact absurd (Option.some.inj hthird) (by decide)

/-- A source is refused at a glyph of it, behind a well-formed text. -/
theorem tokenize_refused {source : Bytes} {e : LexError} (h : tokenize source = .error e) :
    e.offset < source.length ∧ isWellFormed (source.take e.offset) = true ∧
      ∃ g rest, glyphs (source.drop e.offset) = g :: rest ∧
        (e.cause = .badEncoding ↔ g.isChar = false) := by
  obtain ⟨cs, g, rest, hgs, hoffset, hcause⟩ := tokensFrom_stops 0 (glyphs source) h
  rw [Nat.zero_add] at hoffset
  have hsource : source = cs.flatMap encode ++ bytesOf (g :: rest) := by
    rw [← bytesOf_glyphs source, hgs, bytesOf_append, bytesOf_chars]
  have htake : source.take e.offset = cs.flatMap encode := by
    rw [hsource, hoffset, List.take_left]
  have hdrop : source.drop e.offset = bytesOf (g :: rest) := by
    rw [hsource, hoffset, List.drop_left]
  have hglyphs : glyphs (source.drop e.offset) = g :: rest := by
    rw [hsource, glyphs_flatMap_encode] at hgs
    rw [hdrop]
    exact List.append_cancel_left hgs
  refine ⟨?_, isWellFormed_iff.mpr ⟨cs, htake⟩, g, rest, hglyphs, hcause⟩
  refine Nat.lt_of_not_le fun hle => ?_
  rw [List.drop_of_length_le hle] at hglyphs
  cases hglyphs

/-- A place behind a well-formed text is not inside an encoded character. -/
theorem not_inside_encoding {before after : Bytes} {c : Char} {o : Nat}
    (h : isWellFormed ((before ++ (encode c ++ after)).take o) = true)
    (hlow : before.length < o) : before.length + (encode c).length ≤ o := by
  refine Nat.le_of_not_lt fun hhigh => ?_
  have hcut : (before ++ (encode c ++ after)).take o =
      before ++ (encode c).take (o - before.length) := by
    rw [List.take_append, List.take_of_length_le (Nat.le_of_lt hlow),
      List.take_append_of_le_length (by omega)]
  have hnot := not_isWellFormed_cut (List.take_append_drop (o - before.length) (encode c)).symm
    (by simp [encode_ne_nil]; omega) (by simp; omega) before
  rw [← hcut, h] at hnot
  cases hnot

/-- A source that has tokens is well-formed, and so is each lexeme. Where the encoding is blamed,
the source is well-formed up to that place and no character is encoded there. An encoded character,
the replacement character among them, is never blamed, not even in part. -/
theorem encoding_blamed_at_first_stray (source : Bytes) :
    (∀ tokens, tokenize source = .ok tokens →
      isWellFormed source = true ∧ ∀ t ∈ tokens, isWellFormed t.lexeme = true) ∧
    ∀ e, tokenize source = .error e → e.cause.message = utf8 "invalid UTF-8 encoding" →
      e.offset < source.length ∧ isWellFormed (source.take e.offset) = true ∧
      (∀ c, ¬encode c <+: source.drop e.offset) ∧
      ∀ before c after, source = before ++ (encode c ++ after) →
        e.offset < before.length ∨ before.length + (encode c).length ≤ e.offset := by
  constructor
  · intro tokens h
    refine ⟨tokensFrom_chars 0 (glyphs source) h, fun t ht => ?_⟩
    obtain ⟨-, w, -, -, -, hw⟩ := (tokensFrom_tiles 0 (glyphs source) h).mem ht
    exact hw.isWellFormed
  · intro e h hmessage
    obtain ⟨hlt, hwell, g, rest, hglyphs, hcause⟩ := tokenize_refused h
    have hstray := hcause.mp (LexCause.message_eq_badEncoding.mp hmessage)
    have hnone : ∀ c, ¬encode c <+: source.drop e.offset := by
      rintro c ⟨more, hmore⟩
      rw [← hmore, glyphs_encode_append] at hglyphs
      rw [← (List.cons.inj hglyphs).1] at hstray
      cases hstray
    refine ⟨hlt, hwell, hnone, ?_⟩
    rintro before c after rfl
    rcases Nat.lt_trichotomy e.offset before.length with hbefore | hat | hafter
    · exact .inl hbefore
    · rw [hat, List.drop_left] at hnone
      exact absurd (List.prefix_append _ _) (hnone c)
    · exact .inr (not_inside_encoding hwell hafter)

/-- `'\uFFFD' = "é` and the first two bytes of U+FFFD, before a closing quote. -/
def cutReplacement : Bytes := utf8 "'\uFFFD' = \"é" ++ [0xEF, 0xBF] ++ utf8 "\""

theorem encoding_blamed_at_first_stray_cutReplacement :
    tokenize cutReplacement = .error ⟨11, .badEncoding⟩ ∧
      isWellFormed (cutReplacement.take 11) = true ∧
      (∀ c, ¬encode c <+: cutReplacement.drop 11) ∧
      (∃ tokens, tokenize (cutReplacement.take 5) = .ok tokens) ∧
      isWellFormed (cutReplacement.take 5) = true := by
  have herr : tokenize cutReplacement = .error ⟨11, .badEncoding⟩ :=
    eq_error_of_match (by decide +kernel)
  have htokens : tokenize (cutReplacement.take 5) =
      .ok [⟨.stringLiteral, utf8 "\uFFFD", 0, .absent⟩] := eq_ok_of_toOption (by decide +kernel)
  obtain ⟨-, hwell, hnone, -⟩ := (encoding_blamed_at_first_stray cutReplacement).2 _ herr rfl
  exact ⟨herr, hwell, hnone, ⟨_, htokens⟩,
    ((encoding_blamed_at_first_stray (cutReplacement.take 5)).1 _ htokens).1⟩

end NodePath
