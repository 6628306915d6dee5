import Mathlib.Data.List.Chain
import NodePath.Proofs.Relexing
import NodePath.Proofs.Tiling
import NodePath.Proofs.ViablePrefix

/-!
# Gaps carry no meaning

The tokens of a source may be set with other gaps: any gap may be put in, widened or narrowed, and
only between two tokens that were apart must some gap remain. The new source has the same tokens at
their new places, and so it is read as the same tree or refused at the same token for the same
reason.
-/

namespace NodePath

open NodePath.Text NodePath.Number

/-- The text of tokens that stand in `source`, each after its gap, with a last gap behind them. -/
def spread (source last : Bytes) : List (Bytes × Token) → Bytes
  | [] => last
  | (gap, t) :: layout => gap ++ (t.spanIn source ++ spread source last layout)

/-- The same tokens at their places in that text, which begins at the offset `o`. -/
def moved (source : Bytes) (o : Nat) : List (Bytes × Token) → List Token
  | [] => []
  | (gap, t) :: layout =>
    { t with offset := ↑(o + gap.length) } ::
      moved source (o + gap.length + (t.spanIn source).length) layout

/-- The gaps are gaps, and only tokens that stood together may stand together. -/
structure Respaces (layout : List (Bytes × Token)) (last : Bytes) : Prop where
  gaps : ∀ p ∈ layout, p.1 ⊆ gapBytes
  last : last ⊆ gapBytes
  apart : layout.IsChain fun p q => q.1 ≠ [] ∨ p.2.stop = q.2.offset

section Gaps

variable {w x : Bytes}

theorem glyphs_gap {b : UInt8} (hb : b ∈ gapBytes) (rest : Bytes) :
    ∃ c, isGap c = true ∧ glyphs (b :: rest) = .char c :: glyphs rest := by
  simp only [gapBytes, List.mem_cons, List.not_mem_nil, or_false] at hb
  rcases hb with rfl | rfl | rfl | rfl
  all_goals exact ⟨_, by decide, glyphs_ascii (by decide) rest⟩

theorem tokensFrom_gaps (hw : w ⊆ gapBytes) (o : Nat) (rest : Bytes) :
    tokensFrom o (glyphs (w ++ rest)) = tokensFrom (o + w.length) (glyphs rest) := by
  induction w generalizing o with
  | nil => rfl
  | cons b w ih =>
    obtain ⟨hb, hw⟩ := List.cons_subset.mp hw
    obtain ⟨c, hc, hgs⟩ := glyphs_gap hb (w ++ rest)
    rw [List.cons_append, hgs, tokensFrom_gap hc, ih hw, List.length_cons, Nat.add_assoc,
      Nat.add_comm 1]

theorem wordKind_gaps (hw : w ⊆ gapBytes) (rest : Bytes) :
    wordKind x (glyphs (w ++ rest)) = wordKind x (glyphs rest) := by
  induction w with
  | nil => rfl
  | cons b w ih =>
    obtain ⟨hb, hw⟩ := List.cons_subset.mp hw
    obtain ⟨c, hc, hgs⟩ := glyphs_gap hb (w ++ rest)
    have hgap : Glyph.satisfies isGap (.char c) = true := hc
    rw [List.cons_append, hgs, wordKind_gap hgap, ih hw]

/-- Nothing is glued to what stands before a gap or before the end. -/
theorem takeWhile_gaps (hw : w ⊆ gapBytes) {rest : Bytes} (hne : w = [] → rest = []) :
    (glyphs (w ++ rest)).takeWhile (fun g => !g.satisfies isGap) = [] := by
  cases w with
  | nil =>
    rw [hne rfl]
    rfl
  | cons b w =>
    obtain ⟨c, hc, hgs⟩ := glyphs_gap (hw List.mem_cons_self) (w ++ rest)
    rw [List.cons_append, hgs, List.takeWhile_cons, if_neg (by simp [Glyph.satisfies, hc])]

theorem takeWhile_last (hw : w ⊆ gapBytes) :
    (glyphs w).takeWhile (fun g => !g.satisfies isGap) = [] := by
  have hgaps : (glyphs (w ++ [])).takeWhile (fun g => !g.satisfies isGap) = [] :=
    takeWhile_gaps hw fun _ => rfl
  rwa [List.append_nil] at hgaps

end Gaps

theorem takeWhile_append_prefix {α : Type} {p : α → Bool} {as bs bs' : List α}
    (h : bs'.takeWhile p <+: bs) : (as ++ bs').takeWhile p <+: as ++ bs := by
  induction as with
  | nil => exact h
  | cons a as ih =>
    rw [List.cons_append, List.takeWhile_cons]
    split
    · exact (List.prefix_cons_inj a).mpr ih
    · exact List.nil_prefix

/-- A token that is read where no gap stands begins there. -/
theorem tokensFrom_offset {o : Nat} {g : Glyph} {after : List Glyph}
    (hg : g.satisfies isGap = false) {t : Token} {ts : List Token}
    (h : tokensFrom o (g :: after) = .ok (t :: ts)) : t.offset = o := by
  obtain ⟨l, us, -, -, heq⟩ := lexeme_of_tokensFrom hg h
  cases heq
  rfl

/-- A colon that is read alone has no colon behind it. -/
theorem lexemeAt_colon {o : Nat} {after : List Glyph} {l : Lexeme after}
    (h : lexemeAt o (.char ':') after = .ok l) (hl : l.width = 1) :
    after.head? ≠ some (.char ':') := by
  intro hhead
  obtain ⟨tail, rfl⟩ := List.head?_eq_some_iff.mp hhead
  cases h
  cases hl

/-- A piece that is one token gives that token at the place where the piece stands. -/
theorem Scans.at_offset {f : Bytes → Prop} {k : Kind} {x : Bytes} {cmp : Comparison} {c : Char}
    {w : Bytes} (h : Scans f (encode c ++ w) (IsToken k x cmp)) (hc : isGap c = false) {rest : Bytes}
    (hrest : f rest) (o : Nat) : tokensFrom o (glyphs (encode c ++ w ++ rest)) =
      (tokensFrom (o + (encode c ++ w).length) (glyphs rest)).map (⟨k, x, o, cmp⟩ :: ·) := by
  obtain ⟨_, ⟨offset, rfl⟩, heq⟩ := h o rest hrest
  rw [heq]
  cases hok : tokensFrom (o + (encode c ++ w).length) (glyphs rest) with
  | error e => rfl
  | ok ts =>
    have hread : tokensFrom o (.char c :: glyphs (w ++ rest)) = .ok (⟨k, x, offset, cmp⟩ :: ts) := by
      rw [← glyphs_encode_append, ← List.append_assoc, heq, hok]
      rfl
    have hgap : Glyph.satisfies isGap (.char c) = false := hc
    have hoffset : offset = o := tokensFrom_offset hgap hread
    rw [hoffset]
    rfl

theorem Replaces.gap {new : Bytes} {old : List Glyph} (h : Replaces new old) {b : UInt8}
    (hb : b ∈ gapBytes) {g : Glyph} (hg : g.satisfies isGap = true) :
    Replaces (b :: new) (g :: old) := by
  obtain ⟨c, hc, hglyphs⟩ := glyphs_gap hb new
  have hgap : Glyph.satisfies isGap (.char c) = true := hc
  constructor
  · rw [hglyphs, List.takeWhile_cons, hgap]
    exact List.nil_prefix
  · intro x
    rw [hglyphs, wordKind_gap hgap, wordKind_gap hg]
    exact h.word x

/-- What may take the place of what follows a lexeme may do so with the lexeme in front. -/
theorem Replaces.lexeme {new : Bytes} {o : Nat} {g : Glyph} {after : List Glyph} {l : Lexeme after}
    (h : Replaces new l.rest) (hg : g.satisfies isGap = false) (hl : lexemeAt o g after = .ok l)
    {cs : List Char} (hcs : g :: after = cs.map .char ++ l.rest)
    (hwidth : l.width = (cs.flatMap encode).length) :
    Replaces (cs.flatMap encode ++ new) (g :: after) := by
  have hglyphs : glyphs (cs.flatMap encode ++ new) = cs.map .char ++ glyphs new :=
    glyphs_flatMap_encode ..
  refine ⟨?_, fun x => ?_⟩
  · rw [hglyphs, hcs]
    exact takeWhile_append_prefix h.glued
  rw [hglyphs, hcs]
  cases cs with
  | nil => exact h.word x
  | cons c cs =>
    obtain ⟨rfl, hafter⟩ := List.cons.inj hcs
    refine wordKind_congr x hg fun hcolon => ?_
    subst hcolon
    cases cs with
    | cons d cs => exact Iff.rfl
    | nil =>
      have hold : l.rest.head? ≠ some (.char ':') := by
        have hhead := lexemeAt_colon hl hwidth
        rwa [hafter] at hhead
      exact ⟨fun hhead => absurd (h.head hhead rfl) hold, fun hhead => absurd hhead hold⟩

/-- A lexeme is read again, at any place, before what may take the place of what follows it. -/
theorem lexemeAt_anew {o : Nat} {g : Glyph} {after : List Glyph} {l : Lexeme after}
    (hg : g.satisfies isGap = false) (hl : lexemeAt o g after = .ok l) :
    ∃ w, bytesOf (g :: after) = w ++ bytesOf l.rest ∧ l.width = w.length ∧
      ∀ new, Replaces new l.rest → Replaces (w ++ new) (g :: after) ∧
        ∀ o', tokensFrom o' (glyphs (w ++ new)) =
          (tokensFrom (o' + w.length) (glyphs new)).map
            (⟨l.kind, l.text, o', l.comparison⟩ :: ·) := by
  obtain ⟨cs, hcs, hwidth, hscan⟩ := lexemeAt_repeats hl
  refine ⟨cs.flatMap encode, by rw [hcs, bytesOf_append, bytesOf_chars], hwidth, fun new hnew => ?_⟩
  refine ⟨hnew.lexeme hg hl hcs hwidth, fun o' => ?_⟩
  cases cs with
  | nil =>
    have hlength := congrArg List.length hcs
    have hle := l.rest_le
    simp at hlength
    omega
  | cons c cs =>
    obtain ⟨rfl, -⟩ := List.cons.inj hcs
    exact hscan.at_offset hg hnew o'

/-- What is known of the rest of a source, `gs` from the offset `o` on, once the tokens in it have
been set anew. -/
structure SetAnew (source last : Bytes) (layout : List (Bytes × Token)) (o : Nat)
    (gs : List Glyph) : Prop where
  tokens : ∀ o', tokensFrom o' (glyphs (spread source last layout)) = .ok (moved source o' layout)
  word : ∀ x, wordKind x (glyphs (spread source last layout)) = wordKind x gs
  glued : (∀ p ∈ layout.head?, p.1 ≠ [] ∨ p.2.offset = o) →
    (glyphs (spread source last layout)).takeWhile (fun g => !g.satisfies isGap) <+: gs

section SetAnew

variable {source last : Bytes} {layout : List (Bytes × Token)} {o : Nat} {gs : List Glyph}

theorem SetAnew.replaces (h : SetAnew source last layout o gs)
    (hhead : ∀ p ∈ layout.head?, p.1 ≠ [] ∨ p.2.offset = o) :
    Replaces (spread source last layout) gs :=
  ⟨h.glued hhead, h.word⟩

theorem setAnew_nil (hlast : last ⊆ gapBytes) : SetAnew source last [] o [] := by
  have hspread : spread source last [] = last ++ [] := (List.append_nil last).symm
  constructor
  · intro o'
    rw [hspread, tokensFrom_gaps hlast]
    exact tokensFrom.eq_1 _
  · intro x
    rw [hspread, wordKind_gaps hlast]
    rfl
  · intro _
    exact List.prefix_nil.mpr (takeWhile_last hlast)

theorem SetAnew.gap {g : Glyph} (hg : g.satisfies isGap = true) (hr : Respaces layout last)
    (hlater : ∀ p ∈ layout, o < p.2.offset) (h : SetAnew source last layout (o + 1) gs) :
    SetAnew source last layout o (g :: gs) := by
  refine ⟨h.tokens, fun x => ?_, fun hhead => ?_⟩
  · rw [h.word, wordKind_gap hg]
  · have hnone : (glyphs (spread source last layout)).takeWhile
        (fun g => !g.satisfies isGap) = [] := by
      cases layout with
      | nil => exact takeWhile_last hr.last
      | cons p layout =>
        refine takeWhile_gaps (hr.gaps p List.mem_cons_self) fun hnil => ?_
        rcases hhead p rfl with hne | hoffset
        · exact absurd hnil hne
        · exact absurd hoffset (Int.ne_of_gt (hlater p List.mem_cons_self))
    rw [hnone]
    exact List.nil_prefix

theorem lexemeAt_stop {g : Glyph} {after : List Glyph} {l : Lexeme after}
    (h : lexemeAt o g after = .ok l) :
    (Token.mk l.kind l.text o l.comparison).stop = o + l.width := by
  obtain ⟨w, hw, hwidth, -⟩ := lexemeAt_fits h
  rw [(hw.stop o).1, hwidth]

/-- A lexeme is set anew in front of what was set anew. -/
theorem SetAnew.token {g : Glyph} {after : List Glyph} {l : Lexeme after} {gap : Bytes}
    (hg : g.satisfies isGap = false) (hl : lexemeAt o g after = .ok l)
    (hsource : source.drop o = bytesOf (g :: after)) (hgap : gap ⊆ gapBytes)
    (hhead : ∀ p ∈ layout.head?, p.1 ≠ [] ∨ p.2.offset = ↑(o + l.width))
    (h : SetAnew source last layout (o + l.width) l.rest) :
    SetAnew source last ((gap, ⟨l.kind, l.text, o, l.comparison⟩) :: layout) o (g :: after) := by
  have hnew := h.replaces hhead
  obtain ⟨w, hbytes, hwidth, hanew⟩ := lexemeAt_anew hg hl
  obtain ⟨hwhole, htokens⟩ := hanew _ hnew
  have hspan : Token.spanIn ⟨l.kind, l.text, o, l.comparison⟩ source = w := by
    have htake : ((o : Int) + l.width - o).toNat = w.length := by
      rw [← hwidth]
      omega
    rw [Token.spanIn, lexemeAt_stop hl, htake, Int.toNat_natCast, hsource, hbytes, List.take_left]
  constructor
  · intro o'
    rw [spread, hspan, tokensFrom_gaps hgap, htokens, h.tokens, moved, hspan]
    rfl
  · intro x
    rw [spread, hspan, wordKind_gaps hgap]
    exact hwhole.word x
  · intro _
    by_cases hnil : gap = []
    · rw [spread, hspan, hnil, List.nil_append]
      exact hwhole.glued
    · rw [spread, takeWhile_gaps hgap fun h => absurd h hnil]
      exact List.nil_prefix

theorem Respaces.tail {p : Bytes × Token} (h : Respaces (p :: layout) last) :
    Respaces layout last :=
  ⟨fun q hq => h.gaps q (List.mem_cons_of_mem p hq), h.last, (List.isChain_cons.mp h.apart).2⟩

theorem tokensFrom_setAnew (o : Nat) (gs : List Glyph) {ts : List Token}
    (h : tokensFrom o gs = .ok ts) (hsource : source.drop o = bytesOf gs)
    (hlayout : layout.map Prod.snd = ts) (hr : Respaces layout last) :
    SetAnew source last layout o gs := by
  fun_induction tokensFrom o gs generalizing ts layout with
  | case1 o =>
    cases h
    obtain rfl := List.map_eq_nil_iff.mp hlayout
    exact setAnew_nil hr.last
  | case2 o g after hgap ih =>
    refine SetAnew.gap hgap hr (fun p hp => ?_) (ih h ?_ hlayout hr)
    · have hmem : p.2 ∈ ts := hlayout ▸ List.mem_map_of_mem hp
      obtain ⟨before, -, -, -, hoffset, -⟩ := (tokensFrom_tiles (o + 1) after h).mem hmem
      omega
    · obtain ⟨b, -, hbytes⟩ := gap_bytes hgap
      rw [← List.drop_drop, hsource, bytesOf_cons, hbytes]
      rfl
  | case3 => cases h
  | case4 => cases h
  | case5 o g after hgap l hl tokens hrest hok ih =>
    cases h
    obtain ⟨⟨gap, t⟩, layout, rfl, rfl, htail⟩ := List.map_eq_cons_iff.mp hlayout
    obtain ⟨w, -, hwidth, hbytes⟩ := lexemeAt_fits hl
    have hrest : source.drop (o + l.width) = bytesOf l.rest := by
      rw [← List.drop_drop, hsource, hbytes, hwidth, List.drop_left]
    refine SetAnew.token (Bool.eq_false_iff.mpr hgap) hl hsource (hr.gaps _ List.mem_cons_self) ?_
      (ih hok hrest htail hr.tail)
    intro p hp
    have hapart := (List.isChain_cons.mp hr.apart).1 p hp
    rw [lexemeAt_stop hl] at hapart
    exact hapart.imp_right Eq.symm

end SetAnew

/-- Two tokens that differ in their place only. -/
structure Token.SameText (t u : Token) : Prop where
  kind : u.kind = t.kind
  lexeme : u.lexeme = t.lexeme
  comparison : u.comparison = t.comparison

theorem Token.SameText.alike {t u : Token} (h : t.SameText u) : t.Alike u :=
  ⟨h.kind.symm, fun _ => h.lexeme.symm, fun _ => h.comparison.symm⟩

theorem moved_sameText (source : Bytes) (o : Nat) (layout : List (Bytes × Token)) :
    List.Forall₂ Token.SameText (layout.map Prod.snd) (moved source o layout) := by
  induction layout generalizing o with
  | nil => exact .nil
  | cons p layout ih => exact .cons ⟨rfl, rfl, rfl⟩ (ih _)

theorem describe_nextToken {ts us : List Token} (h : List.Forall₂ Token.SameText ts us)
    (stop stop' : Int) : (nextToken stop' us).describe = (nextToken stop ts).describe := by
  cases h with
  | nil => rfl
  | cons ht _ => rw [nextToken, nextToken, Token.describe, Token.describe, ht.kind, ht.lexeme]

/-- A source that is set with other gaps has the same tokens at their new places, and is read as the
same tree or refused at the same token for the same reason. -/
theorem respaced_source_reads_alike {source last : Bytes} {tokens : List Token}
    {layout : List (Bytes × Token)} (h : tokenize source = .ok tokens)
    (hlayout : layout.map Prod.snd = tokens) (hr : Respaces layout last) :
    tokenize (spread source last layout) = .ok (moved source 0 layout) ∧
    List.Forall₂ Token.SameText tokens (moved source 0 layout) ∧
    ((∃ e, parse source = .ok e ∧ parse (spread source last layout) = .ok e) ∨
      ∃ err err', parse source = .error (.grammatical err) ∧
        parse (spread source last layout) = .error (.grammatical err') ∧
        err'.expected = err.expected ∧ err'.found.describe = err.found.describe ∧
        err'.index (moved source 0 layout) = err.index tokens) := by
  have hsource : source.drop 0 = bytesOf (glyphs source) := (bytesOf_glyphs source).symm
  have hset := tokensFrom_setAnew 0 (glyphs source) h hsource hlayout hr
  have htokens : tokenize (spread source last layout) = .ok (moved source 0 layout) := hset.tokens 0
  have hsame : List.Forall₂ Token.SameText tokens (moved source 0 layout) :=
    hlayout ▸ moved_sameText source 0 layout
  refine ⟨htokens, hsame, ?_⟩
  rw [parse, parse, h, htokens]
  dsimp only
  rcases parseTokens_alike (hsame.imp fun _ _ => Token.SameText.alike) with
    ⟨e, he, he'⟩ | ⟨err, err', herr, herr', hexpected, hindex, hfound, hfound'⟩
  · rw [he, he']
    exact .inl ⟨e, rfl, rfl⟩
  · rw [herr, herr']
    refine .inr ⟨err, err', rfl, rfl, hexpected, ?_, hindex⟩
    rw [hfound, hfound']
    exact describe_nextToken (List.forall₂_drop _ hsame) ..

/-- The tokens of `text()='a b'`. -/
def comparedText : List Token :=
  [⟨.nodeType, utf8 "text", 0, .absent⟩, ⟨.leftParen, utf8 "(", 4, .absent⟩,
    ⟨.rightParen, utf8 ")", 5, .absent⟩, ⟨.equals, utf8 "=", 6, .absent⟩,
    ⟨.stringLiteral, utf8 "a b", 7, .absent⟩]

/-- A layout with gaps before the parentheses and before the literal. -/
def widerText : List (Bytes × Token) :=
  [[], utf8 "\t", utf8 " ", [], utf8 "\n "].zip comparedText

theorem respaced_source_reads_alike_widerText :
    tokenize (utf8 "text()='a b'") = .ok comparedText ∧ Respaces widerText (utf8 " ") ∧
      tokenize (utf8 "text\t( )=\n 'a b' ") =
        .ok (moved (utf8 "text()='a b'") 0 widerText) ∧
      ∃ e, parse (utf8 "text()='a b'") = .ok e ∧ parse (utf8 "text\t( )=\n 'a b' ") = .ok e := by
  have htokens : tokenize (utf8 "text()='a b'") = .ok comparedText :=
    eq_ok_of_toOption (by decide +kernel)
  have hr : Respaces widerText (utf8 " ") := ⟨by decide, by decide, by decide⟩
  have hspread : spread (utf8 "text()='a b'") (utf8 " ") widerText =
      utf8 "text\t( )=\n 'a b' " := by decide
  have hread : (parse (utf8 "text()='a b'")).toOption.isSome = true := by decide +kernel
  obtain ⟨hmoved, -, htree | ⟨err, -, herr, -⟩⟩ := respaced_source_reads_alike htokens rfl hr
  · rw [hspread] at hmoved htree
    exact ⟨htokens, hr, hmoved, htree⟩
  · rw [herr] at hread
    cases hread

end NodePath
