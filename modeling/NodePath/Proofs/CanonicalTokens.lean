import NodePath.Expr.Printer
import NodePath.Proofs.Scanning
import NodePath.Proofs.WellFormed

/-!
# The tokens of canonical texts

The pieces of canonical texts that hold no expression (names, marks, literals and node tests) are
read as the tokens that derive them. Every piece ends where its last token cannot grow: before a
closing mark, an operator or the end, or before a predicate or a separator.
-/

namespace NodePath

open NodePath.Text NodePath.Number

/-- The characters that the operators begin with. -/
def operatorStarts : List Char := ['s', 'i', '|', '-', '+', '<', '>', '!', '=', 'a', 'o']

/-- What follows an expression in a canonical text. -/
inductive Stops : Bytes → Prop where
  | done : Stops []
  | closer {c : Char} (hc : c ∈ [')', ']', ',']) (rest : Bytes) : Stops (ascii c :: rest)
  | operator {c : Char} (hc : c ∈ operatorStarts) (rest : Bytes) :
      Stops (ascii ' ' :: ascii c :: rest)

/-- What follows a part of a path in a canonical text. -/
inductive Pauses : Bytes → Prop where
  | stop {rest : Bytes} (h : Stops rest) : Pauses rest
  | opener {c : Char} (hc : c ∈ ['[', '/']) (rest : Bytes) : Pauses (ascii c :: rest)

theorem notBefore_ascii {p : Char → Bool} {c : Char} (hc : c.toNat < 0x80) (hp : p c = false)
    (rest : Bytes) : NotBefore p (ascii c :: rest) := by
  intro g hg
  rw [glyphs_ascii hc] at hg
  cases hg
  exact hp

theorem notBefore_nil {p : Char → Bool} : NotBefore p [] := by
  intro g hg
  cases hg

theorem NotBefore.mono {p q : Char → Bool} {rest : Bytes} (h : NotBefore p rest)
    (hqp : ∀ c, q c = true → p c = true) : NotBefore q rest := by
  intro g hg
  have hp := h g hg
  cases g with
  | stray b => rfl
  | char c =>
    rw [Bool.eq_false_iff]
    intro hq
    exact absurd (hqp c hq) (Bool.eq_false_iff.mp hp)

theorem Pauses.notBefore_namePart {rest : Bytes} (h : Pauses rest) : NotBefore isNamePart rest := by
  have hclosers : ∀ c ∈ [')', ']', ','], c.toNat < 0x80 ∧ isNamePart c = false :=
    List.all_iff_forall_prop.mp (by decide)
  have hopeners : ∀ c ∈ ['[', '/'], c.toNat < 0x80 ∧ isNamePart c = false :=
    List.all_iff_forall_prop.mp (by decide)
  cases h with
  | stop h =>
    cases h with
    | done => exact notBefore_nil
    | closer hc rest => exact notBefore_ascii (hclosers _ hc).1 (hclosers _ hc).2 rest
    | operator hc rest => exact notBefore_ascii (by decide) (by decide) _
  | opener hc rest => exact notBefore_ascii (hopeners _ hc).1 (hopeners _ hc).2 rest

theorem Stops.notBefore_slash {rest : Bytes} (h : Stops rest) : NotBefore (· = '/') rest := by
  have hclosers : ∀ c ∈ [')', ']', ','], c.toNat < 0x80 ∧ decide (c = '/') = false :=
    List.all_iff_forall_prop.mp (by decide)
  cases h with
  | done => exact notBefore_nil
  | closer hc rest => exact notBefore_ascii (hclosers _ hc).1 (hclosers _ hc).2 rest
  | operator hc rest => exact notBefore_ascii (by decide) (by decide) _

section WordKind

variable {w : Bytes}

/-- A word is a name unless a parenthesis or a colon follows. -/
theorem wordKind_before (hw : keyword? w = none) {c : Char} (hgap : isGap c = false)
    (hcall : c ≠ '(') (haxis : c ≠ ':') (gs : List Glyph) : wordKind w (.char c :: gs) = .name := by
  rw [wordKind_cons hw hgap, if_neg hcall, if_neg fun h => haxis h.1]

theorem wordKind_colon (hw : keyword? w = none) {c : Char} (hc : c ≠ ':') (gs : List Glyph) :
    wordKind w (.char ':' :: .char c :: gs) = .name := by
  have hhead : (Glyph.char c :: gs).head? ≠ some (.char ':') := by simpa using hc
  rw [wordKind_cons hw (by decide), if_neg (by decide), if_neg fun h => hhead h.2]

theorem Pauses.wordKind_eq {rest : Bytes} (h : Pauses rest) (hw : keyword? w = none) :
    wordKind w (glyphs rest) = .name := by
  have hclosers : ∀ c ∈ [')', ']', ','], c.toNat < 0x80 ∧ isGap c = false ∧ c ≠ '(' ∧ c ≠ ':' :=
    List.all_iff_forall_prop.mp (by decide)
  have hopeners : ∀ c ∈ ['[', '/'], c.toNat < 0x80 ∧ isGap c = false ∧ c ≠ '(' ∧ c ≠ ':' :=
    List.all_iff_forall_prop.mp (by decide)
  have hstarts : ∀ c ∈ operatorStarts,
      c.toNat < 0x80 ∧ isGap c = false ∧ c ≠ '(' ∧ c ≠ ':' :=
    List.all_iff_forall_prop.mp (by decide)
  cases h with
  | stop h =>
    cases h with
    | done => exact wordKind_nil hw
    | closer hc rest =>
      obtain ⟨hascii, hgap, hcall, haxis⟩ := hclosers _ hc
      rw [glyphs_ascii hascii, wordKind_before hw hgap hcall haxis]
    | operator hc rest =>
      obtain ⟨hascii, hgap, hcall, haxis⟩ := hstarts _ hc
      rw [glyphs_ascii (by decide), wordKind_gap (by decide), glyphs_ascii hascii,
        wordKind_before hw hgap hcall haxis]
  | opener hc rest =>
    obtain ⟨hascii, hgap, hcall, haxis⟩ := hopeners _ hc
    rw [glyphs_ascii hascii, wordKind_before hw hgap hcall haxis]

end WordKind

theorem scans_name {w : Bytes} (hw : IsName w) : Scans Pauses w (IsToken .name w .absent) :=
  (scans_word hw.1 .name).before fun _ h => ⟨h.notBefore_namePart, h.wordKind_eq hw.2⟩

theorem scans_keyword {w : Bytes} (hw : IsWord w) {k : Kind} (hk : keyword? w = some k) :
    Scans (NotBefore isNamePart) w (IsToken k w .absent) :=
  (scans_word hw k).before fun _ h => ⟨h, wordKind_keyword hk _⟩

/-- A text that begins with a character of a class. -/
def Begins (p : Char → Bool) (s : Bytes) : Prop := ∃ c r, s = encode c ++ r ∧ p c = true

theorem Begins.append {p : Char → Bool} {s : Bytes} (h : Begins p s) (t : Bytes) :
    Begins p (s ++ t) := by
  obtain ⟨c, r, rfl, hc⟩ := h
  exact ⟨c, r ++ t, by rw [List.append_assoc], hc⟩

theorem Begins.glyphs {p : Char → Bool} {s : Bytes} (h : Begins p s) :
    ∃ c gs, Text.glyphs s = .char c :: gs ∧ p c = true := by
  obtain ⟨c, r, rfl, hc⟩ := h
  exact ⟨c, Text.glyphs r, glyphs_encode_append c r, hc⟩

theorem Begins.notBefore {p q : Char → Bool} {s : Bytes} (h : Begins p s)
    (hpq : ∀ c, p c = true → q c = false) : NotBefore q s := by
  obtain ⟨c, gs, hgs, hc⟩ := h.glyphs
  intro g hg
  rw [hgs] at hg
  cases hg
  exact hpq c hc

theorem IsWord.begins {w : Bytes} (h : IsWord w) : Begins isNameStart w := by
  obtain ⟨c, cs, hc, -, rfl⟩ := h
  exact ⟨c, cs.flatMap encode, by rw [List.flatMap_cons], hc⟩

/-- Whether a constant text is a word. -/
def isWordText (s : String) : Bool :=
  match s.toList with
  | [] => false
  | c :: cs => isNameStart c && cs.all isNamePart

theorem isWord_utf8 {s : String} (h : isWordText s = true) : IsWord (utf8 s) := by
  unfold isWordText at h
  split at h
  · cases h
  · next c cs hs =>
    simp only [Bool.and_eq_true, List.all_eq_true] at h
    exact ⟨c, cs, h.1, h.2, by rw [utf8, hs]⟩

theorem nodeType_isName {w : Bytes} (h : isNodeType w = true) : IsName w := by
  have hw : w ∈ nodeTypes := by simpa [isNodeType] using h
  have hkeyword : ∀ w ∈ nodeTypes, keyword? w = none := by decide
  refine ⟨?_, hkeyword w hw⟩
  simp only [nodeTypes, List.mem_cons, List.not_mem_nil, or_false] at hw
  rcases hw with rfl | rfl | rfl | rfl
  all_goals exact isWord_utf8 (by decide)

theorem axisName_isName {w : Bytes} (h : isAxisName w = true) : IsName w := by
  have hw : w ∈ axisNames := by simpa [isAxisName] using h
  have hkeyword : ∀ w ∈ axisNames, keyword? w = none := by decide
  refine ⟨?_, hkeyword w hw⟩
  simp only [axisNames, List.mem_cons, List.not_mem_nil, or_false] at hw
  rcases hw with rfl | rfl | rfl | rfl | rfl | rfl | rfl | rfl | rfl | rfl | rfl | rfl | rfl
  all_goals exact isWord_utf8 (by decide)

/-- The token of a word before an opening parenthesis. -/
theorem scans_called {w : Bytes} (hw : IsName w) :
    Scans (fun rest => ∃ r, rest = ascii '(' :: r) w
      (IsToken (if isNodeType w then .nodeType else .functionName) w .absent) := by
  refine (scans_word hw.1 _).before ?_
  rintro rest ⟨r, rfl⟩
  refine ⟨notBefore_ascii (by decide) (by decide) r, ?_⟩
  rw [glyphs_ascii (by decide), wordKind_cons hw.2 (by decide), if_pos rfl]

/-- The token of an axis name before a double colon. -/
theorem scans_axisName {w : Bytes} (hw : isAxisName w = true) :
    Scans (fun rest => ∃ r, rest = utf8 "::" ++ r) w (IsToken .axisName w .absent) := by
  have hname := axisName_isName hw
  refine (scans_word hname.1 _).before ?_
  rintro rest ⟨r, rfl⟩
  refine ⟨notBefore_ascii (by decide) (by decide) _, ?_⟩
  show wordKind w (glyphs (ascii ':' :: ascii ':' :: r)) = _
  rw [glyphs_ascii (by decide), glyphs_ascii (by decide), wordKind_cons hname.2 (by decide),
    if_neg (by decide), if_pos ⟨rfl, rfl⟩, if_pos hw]

/-- A name space and its colon. -/
theorem scans_space {w : Bytes} (hw : IsName w) :
    Scans (Begins (· ≠ ':')) (w ++ utf8 ":") fun ts => ∃ t c : Token, ts = [t, c] ∧
      t.kind = .name ∧ t.lexeme = w ∧ c.kind = .colon := by
  have hname : Scans (fun rest => ∃ r, rest = ascii ':' :: r ∧ Begins (· ≠ ':') r) w
      (IsToken .name w .absent) := by
    refine (scans_word hw.1 .name).before ?_
    rintro rest ⟨r, rfl, hr⟩
    refine ⟨notBefore_ascii (by decide) (by decide) r, ?_⟩
    obtain ⟨c, gs, hgs, hc⟩ := hr.glyphs
    rw [glyphs_ascii (by decide), hgs]
    exact wordKind_colon hw.2 (of_decide_eq_true hc) gs
  have hcolon : Scans (Begins (· ≠ ':')) (utf8 ":") (IsToken .colon (utf8 ":") .absent) :=
    (scans_open (by decide : (Kind.colon, Comparison.absent, ':', ':') ∈ openSymbols)).before
      fun rest h => h.notBefore (by simp)
  refine hname.append hcolon (fun rest h => ⟨rest, rfl, h⟩) ?_
  rintro ts us ⟨o, rfl⟩ ⟨o', rfl⟩
  exact ⟨_, _, rfl, rfl, rfl, rfl⟩

theorem scans_qname {q : QName} (hq : q.WellFormed) :
    Scans Pauses q.text fun ts => Derives .name 0 ts q := by
  obtain ⟨space, name⟩ := q
  obtain ⟨hspace, hname⟩ := hq
  rcases hspace with hspace | hspace
  · cases hspace
    show Scans Pauses name _
    refine (scans_name hname).imp ?_
    rintro ts ⟨o, rfl⟩
    exact .bareName rfl
  · have htext : QName.text ⟨space, name⟩ = space ++ utf8 ":" ++ name := by
      simp only [QName.text, List.isEmpty_iff, hspace.1.ne_nil, if_false]
    have hstart : ∀ c, isNameStart c = true → decide (c ≠ ':') = true := by
      intro c hc
      rw [decide_eq_true_eq]
      rintro rfl
      exact absurd hc (by decide)
    rw [htext]
    refine (scans_space hspace).append (scans_name hname) (fun rest _ => ?_) ?_
    · obtain ⟨c, r, hr, hc⟩ := hname.1.begins.append rest
      exact ⟨c, r, hr, hstart c hc⟩
    · rintro ts us ⟨t, c, rfl, ht, hlex, hc⟩ ⟨o, rfl⟩
      have hder := Derives.spacedName (u := ⟨.name, name, o, .absent⟩) ht hc rfl
      rw [hlex] at hder
      exact hder

/-- A single token of a kind. -/
def IsMark (k : Kind) (ts : List Token) : Prop := ∃ t : Token, ts = [t] ∧ t.kind = k

theorem scans_mark {f : Bytes → Prop} {k : Kind} {s : Bytes}
    (h : (k, Comparison.absent, s) ∈ closedSymbols) : Scans f s (IsMark k) :=
  (scans_closed h).imp fun _ ⟨o, ho⟩ => ⟨⟨k, s, o, .absent⟩, ho, rfl⟩

theorem scans_literalText {f : Bytes → Prop} {value : Bytes} (h : IsLiteral value) :
    Scans f (literalText value) (IsToken .stringLiteral value .absent) := by
  unfold literalText
  dsimp only
  by_cases hdouble : ascii '"' ∈ value
  · rw [if_pos (List.contains_iff_mem.mpr hdouble)]
    exact scans_literal (q := '\'') (by decide) h.1 fun hsingle => h.2 ⟨hdouble, hsingle⟩
  · rw [if_neg (by rwa [List.contains_iff_mem])]
    exact scans_literal (q := '"') (by decide) h.1 hdouble

theorem IsWord.begins_ne {w : Bytes} (h : IsWord w) {c : Char} (hc : isNameStart c = false) :
    Begins (· ≠ c) w := by
  obtain ⟨d, r, hr, hd⟩ := h.begins
  refine ⟨d, r, hr, ?_⟩
  rw [decide_eq_true_eq]
  rintro rfl
  rw [hd] at hc
  cases hc

theorem scans_nameTest {t : NameTest} (ht : t.WellFormed) :
    Begins (· ≠ '/') t.text ∧ Scans Pauses t.text fun ts => Derives .test 0 ts (.name t) := by
  rcases ht with rfl | ⟨space, hspace, rfl⟩ | ⟨q, hq, rfl⟩
  · refine ⟨⟨'*', [], rfl, by decide⟩,
      (scans_mark (by decide : (Kind.star, _, utf8 "*") ∈ _)).imp ?_⟩
    rintro ts ⟨t, rfl, ht⟩
    exact .anyName ht
  · have htext : (NameTest.anyIn space).text = space ++ utf8 ":" ++ utf8 "*" := by
      rw [List.append_assoc]
      rfl
    rw [htext]
    refine ⟨((hspace.1.begins_ne (by decide)).append _).append _, ?_⟩
    refine (scans_space hspace).append (scans_mark (by decide : (Kind.star, _, utf8 "*") ∈ _))
      (fun rest _ => ⟨'*', rest, rfl, by decide⟩) ?_
    rintro ts us ⟨t, c, rfl, ht, rfl, hc⟩ ⟨s, rfl, hs⟩
    exact .anyNameIn ht hc hs
  · refine ⟨?_, (scans_qname hq).imp fun ts h => .oneName h⟩
    show Begins _ (QName.text q)
    rcases hq.1 with hspace | hspace
    · rw [QName.text, if_pos (by simp [hspace])]
      exact hq.2.1.begins_ne (by decide)
    · rw [QName.text, if_neg (by simp [hspace.1.ne_nil])]
      exact ((hspace.1.begins_ne (by decide)).append _).append _

/-- Tokens between two marks. -/
def Enclosed (l r : Kind) (P : List Token → Prop) (ts : List Token) : Prop :=
  ∃ (x y : Token) (us : List Token), ts = x :: (us ++ [y]) ∧ x.kind = l ∧ P us ∧ y.kind = r

theorem Scans.enclosed {f g : Bytes → Prop} {s a b : Bytes} {P : List Token → Prop} {l r : Kind}
    (h : Scans f s P) (ha : (l, Comparison.absent, a) ∈ closedSymbols)
    (hb : (r, Comparison.absent, b) ∈ closedSymbols) (hf : ∀ rest, f (b ++ rest)) :
    Scans g (a ++ s ++ b) (Enclosed l r P) := by
  have hinner : Scans f (a ++ s) fun ts => ∃ (x : Token) (us : List Token),
      ts = x :: us ∧ x.kind = l ∧ P us := by
    refine (scans_mark (f := fun _ => True) ha).append h (fun _ _ => trivial) ?_
    rintro ts us ⟨x, rfl, hx⟩ hus
    exact ⟨x, us, rfl, hx, hus⟩
  refine hinner.append (scans_mark hb) (fun rest _ => hf rest) ?_
  rintro ts us ⟨x, vs, rfl, hx, hvs⟩ ⟨y, rfl, hy⟩
  exact ⟨x, y, vs, rfl, hx, hvs, hy⟩

theorem Scans.parenthesized {f g : Bytes → Prop} {s : Bytes} {P : List Token → Prop}
    (h : Scans f s P) (hf : ∀ rest, f (utf8 ")" ++ rest)) :
    Scans g (parenthesized s) (Enclosed .leftParen .rightParen P) :=
  h.enclosed (by decide) (by decide) hf

theorem stops_rightParen (rest : Bytes) : Stops (utf8 ")" ++ rest) := .closer (by decide) rest

theorem scans_test {t : Test} (ht : t.WellFormed) : ∃ s, t.text? = some s ∧ Begins (· ≠ '/') s ∧
    Scans Pauses s fun ts => Derives .test 0 ts t := by
  cases t with
  | missing => cases ht
  | abbreviated step => cases ht
  | name t => exact ⟨t.text, rfl, scans_nameTest ht⟩
  | nodeType type argument =>
    obtain ⟨htype, hargument⟩ := ht
    have hname := nodeType_isName htype
    have hword := scans_called hname
    rw [if_pos htype] at hword
    have hstart := hname.1.begins_ne (c := '/') (by decide)
    cases argument with
    | none =>
      refine ⟨type ++ parenthesized [], rfl, hstart.append _, ?_⟩
      have hnone : Scans (fun _ => True) [] (· = []) := scans_nil rfl
      have hempty := hnone.parenthesized (g := Pauses) fun _ => trivial
      refine hword.append hempty (fun rest _ => ⟨_, rfl⟩) ?_
      rintro ts us ⟨o, rfl⟩ ⟨l, r, vs, rfl, hl, rfl, hr⟩
      exact .typeTest rfl hl hr
    | some value =>
      refine ⟨type ++ parenthesized (literalText value), ?_, hstart.append _, ?_⟩
      · simp only [Test.text?, parenthesized, List.append_assoc]
      have hvalue := (scans_literalText (f := fun _ => True) (hargument value rfl)).parenthesized
        (g := Pauses) fun _ => trivial
      refine hword.append hvalue (fun rest _ => ⟨_, rfl⟩) ?_
      rintro ts us ⟨o, rfl⟩ ⟨l, r, vs, rfl, hl, ⟨o', rfl⟩, hr⟩
      exact .typeTestOf rfl hl rfl hr

end NodePath
