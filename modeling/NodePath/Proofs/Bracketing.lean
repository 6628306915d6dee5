import NodePath.Proofs.MaximalMunch
import NodePath.Proofs.RoundTrip

/-!
# Bracketing

A source with tokens has the same tokens before a closing mark or an operator, and so it can stand
for its tree between brackets: as a group, a negated group, a predicate, an argument or an operand.
The larger source is read as the tree that is built around it, as long as it does not become nested
too deep.
-/

namespace NodePath

open NodePath.Text

/-! Longest matches before what follows an expression. -/

/-- What texts that follow an expression begin with. -/
def stoppers : List Char := [')', ']', ',', ' ']

section Stopping

variable {rule : Rule} {w s rest : Bytes}

theorem Stops.head (h : Stops rest) : rest = [] ∨ ∃ c ∈ stoppers, ∃ t, rest = ascii c :: t := by
  cases h with
  | done => exact .inl rfl
  | closer hc t =>
    simp only [List.mem_cons, List.not_mem_nil, or_false] at hc
    refine .inr ⟨_, ?_, t, rfl⟩
    simp only [stoppers, List.mem_cons, List.not_mem_nil, or_false]
    tauto
  | operator hc t => exact .inr ⟨' ', by decide, _, rfl⟩

theorem IsNumeral.not_stopper {ds : Bytes} (h : IsNumeral ds) {c : Char} (hc : c ∈ stoppers) :
    ascii c ∉ ds := by
  have hall : ∀ c ∈ stoppers, isDigit (ascii c) = false :=
    List.all_iff_forall_prop.mp (by decide)
  intro hmem
  have hdigit := h.2 _ hmem
  rw [hall c hc] at hdigit
  cases hdigit

/-- Outside of quotes a stopper is a lexeme by itself. -/
theorem Matches.stopper_eq (h : Matches rule w) {c : Char} (hc : c ∈ stoppers)
    (hmem : ascii c ∈ w) : rule = .quoted ∨ w = [ascii c] := by
  have hstoppers : ∀ c ∈ stoppers, c.toNat < 0x80 ∧ isNamePart c = false ∧ isNameStart c = false ∧
      ascii c ≠ ascii '.' := List.all_iff_forall_prop.mp (by decide)
  obtain ⟨hascii, hpart, hstart, hpoint⟩ := hstoppers c hc
  cases h with
  | word hw =>
    obtain ⟨d, cs, hd, hcs, rfl⟩ := hw
    rw [ascii_mem_flatMap_encode hascii] at hmem
    rcases List.mem_cons.mp hmem with rfl | hmem
    · rw [hd] at hstart
      cases hstart
    · rw [hcs c hmem] at hpart
      cases hpart
  | digits hds => exact absurd hmem (hds.not_stopper hc)
  | fraction hws hds =>
    rcases List.mem_append.mp hmem with hmem | hmem
    · exact absurd hmem (hws.not_stopper hc)
    · rcases List.mem_cons.mp hmem with heq | hmem
      · exact absurd heq hpoint
      · exact absurd hmem (hds.not_stopper hc)
  | quoted => exact .inl rfl
  | sign hw =>
    have hsigns : ∀ p ∈ signs,
        stoppers.all fun c => decide (ascii c ∈ p.1 → p.1 = [ascii c]) := by decide
    exact .inr (List.all_iff_forall_prop.mp (hsigns _ hw) c hc hmem)

theorem Matches.quoted_begins {u : Bytes} (h : Matches rule w) (h' : Matches .quoted (w ++ u)) :
    rule = .quoted := by
  obtain ⟨c, v, hc, rfl⟩ := h.begins
  obtain ⟨d, v', hd, heq⟩ := h'.begins
  have hglyphs := congrArg glyphs heq
  rw [List.append_assoc, glyphs_encode_append, glyphs_encode_append] at hglyphs
  obtain rfl : c = d := Glyph.char.inj (List.cons.inj hglyphs).1
  rcases Rule.eq_of_begins hc hd with heq | ⟨-, heq⟩ | ⟨-, heq⟩
  · exact heq
  · cases heq
  · cases heq

theorem Matches.quoted_inv (h : Matches .quoted w) :
    ∃ q s, ascii q ∉ s ∧ w = ascii q :: (s ++ [ascii q]) := by
  cases h with
  | @quoted q s hq hs => exact ⟨q, s, hs, rfl⟩

/-- A quoted text does not go on behind its closing quote. -/
theorem Matches.quoted_whole {u : Bytes} (h : Matches .quoted w)
    (h' : Matches .quoted (w ++ u)) : u = [] := by
  obtain ⟨q, s, -, rfl⟩ := h.quoted_inv
  obtain ⟨q', s', hs', heq⟩ := h'.quoted_inv
  rcases List.eq_nil_or_concat' u with hu | ⟨u, b, rfl⟩
  · exact hu
  · have hinside : s ++ [ascii q] ++ (u ++ [b]) = s' ++ [ascii q'] := (List.cons.inj heq).2
    rw [← List.append_assoc] at hinside
    refine absurd ?_ hs'
    rw [← List.append_inj_left' hinside rfl, ← (List.cons.inj heq).1]
    simp

/-- What follows an expression does not become part of the last lexeme before it. -/
theorem Longest.before_stop (h : Longest rule w s) (hrest : Stops rest) :
    Longest rule w (s ++ rest) := by
  refine ⟨h.fits, fun rule' v hv hprefix => ?_⟩
  rw [← List.append_assoc] at hprefix
  rcases List.prefix_or_prefix_of_prefix hprefix (List.prefix_append (w ++ s) rest) with
    hshort | ⟨u, rfl⟩
  · exact h.most rule' v hv hshort
  · have hu : u <+: rest := (List.prefix_append_right_inj (w ++ s)).mp hprefix
    rcases hrest.head with rfl | ⟨c, hc, t, rfl⟩
    · obtain rfl := List.prefix_nil.mp hu
      rw [List.append_nil] at hv ⊢
      exact h.most rule' _ hv (List.prefix_refl _)
    · cases u with
      | nil =>
        rw [List.append_nil] at hv ⊢
        exact h.most rule' _ hv (List.prefix_refl _)
      | cons b u =>
        -- A match that goes on into `rest` holds a stopper. It is no single sign, as `w` is part of it,
        -- and a quoted text ends with `w` if it begins with it.
        obtain ⟨rfl, -⟩ := List.cons_prefix_cons.mp hu
        rcases hv.stopper_eq hc (by simp) with rfl | heq
        · rw [List.append_assoc] at hv
          obtain rfl := h.fits.quoted_begins hv
          have hnil := h.fits.quoted_whole hv
          simp at hnil
        · have hlength := congrArg List.length heq
          have hpos := List.length_pos_iff.mpr h.fits.ne_nil
          simp only [List.length_append, List.length_cons, List.length_nil] at hlength
          omega

theorem Stops.not_mark (h : Stops rest) :
    (∀ b ∈ rest.head?, b ≠ ascii ':') ∧
      ∀ b ∈ (rest.dropWhile gapBytes.contains).head?, b ≠ ascii '(' ∧ b ≠ ascii ':' := by
  have hclosers : ∀ c ∈ [')', ']', ','], gapBytes.contains (ascii c) = false ∧
      ascii c ≠ ascii '(' ∧ ascii c ≠ ascii ':' := List.all_iff_forall_prop.mp (by decide)
  have hstarts : ∀ c ∈ operatorStarts, gapBytes.contains (ascii c) = false ∧
      ascii c ≠ ascii '(' ∧ ascii c ≠ ascii ':' := List.all_iff_forall_prop.mp (by decide)
  cases h with
  | done => simp
  | closer hc t =>
    obtain ⟨hgap, hparen, hcolon⟩ := hclosers _ hc
    rw [List.dropWhile_cons, hgap]
    simp [hparen, hcolon]
  | operator hc t =>
    obtain ⟨hgap, hparen, hcolon⟩ := hstarts _ hc
    rw [List.dropWhile_cons, if_pos (by decide), List.dropWhile_cons, hgap]
    simp [hparen, hcolon]
    decide

theorem colons_prefix_iff {b : UInt8} {t : Bytes} :
    utf8 "::" <+: b :: t ↔ b = ascii ':' ∧ t.head? = some (ascii ':') := by
  have hcolons : utf8 "::" = [ascii ':', ascii ':'] := rfl
  rw [hcolons, List.cons_prefix_cons]
  cases t with
  | nil => simp
  | cons c t =>
    rw [List.cons_prefix_cons, List.head?_cons, Option.some_inj]
    simp [eq_comm]

/-- A word before what follows an expression is of the kind that it is at the end of the source. -/
theorem kindOfWord_before_stop (w s : Bytes) (hrest : Stops rest) :
    kindOfWord w (s ++ rest) = kindOfWord w s := by
  obtain ⟨hhead, hnext⟩ := hrest.not_mark
  rw [kindOfWord, kindOfWord, List.dropWhile_append]
  cases hs : s.dropWhile gapBytes.contains with
  | nil =>
    have hparen : (rest.dropWhile gapBytes.contains).head? ≠ some (ascii '(') :=
      fun h => (hnext _ h).1 rfl
    have hcolons : ¬utf8 "::" <+: rest.dropWhile gapBytes.contains := by
      rintro ⟨t, ht⟩
      exact (hnext (ascii ':') (by rw [← ht]; rfl)).2 rfl
    have hnil : ¬utf8 "::" <+: [] := by decide
    simp [hparen, hcolons, hnil]
  | cons b t =>
    have hcolons : utf8 "::" <+: b :: (t ++ rest) ↔ utf8 "::" <+: b :: t := by
      rw [colons_prefix_iff, colons_prefix_iff]
      cases t with
      | nil =>
        have hnot : rest.head? ≠ some (ascii ':') := fun h => hhead _ h rfl
        simp [hnot]
      | cons c t => simp
    simp [hcolons]

theorem Munches.before_stop {o : Nat} {ps : List Piece} (h : Munches o s ps)
    (hadmits : ∀ p ∈ ps, p.rule.Admits p.text) (hrest : Stops rest) (o' : Nat) :
    ∃ us, List.Forall₂ Token.SameText (ps.map Piece.token) us ∧
      tokensFrom o' (glyphs (s ++ rest)) =
        (tokensFrom (o' + s.length) (glyphs rest)).map (us ++ ·) := by
  induction h generalizing o' with
  | done => exact ⟨[], .nil, (map_nil_append _).symm⟩
  | @gap o b s ps hb _ ih =>
    obtain ⟨us, hus, heq⟩ := ih hadmits (o' + 1)
    obtain ⟨c, hc, hglyphs⟩ := glyphs_gap hb (s ++ rest)
    refine ⟨us, hus, ?_⟩
    rw [List.cons_append, hglyphs, tokensFrom_gap hc, heq, List.length_cons, Nat.add_assoc,
      Nat.add_comm 1]
  | @lexeme o rule w s ps hlongest _ ih =>
    obtain ⟨us, hus, heq⟩ := ih (fun p hp => hadmits p (List.mem_cons_of_mem _ hp)) (o' + w.length)
    have hlexeme := hadmits _ List.mem_cons_self
    refine ⟨Piece.token ⟨rule, o', w, s ++ rest⟩ :: us, .cons ?_ hus, ?_⟩
    · cases rule with
      | word => exact ⟨kindOfWord_before_stop w s hrest, rfl, rfl⟩
      | _ => exact ⟨rfl, rfl, rfl⟩
    · rw [List.append_assoc, (hlongest.before_stop hrest).tokensFrom_eq hlexeme, heq,
        List.length_append, Nat.add_assoc]
      exact map_map_append _ [_] us

end Stopping

/-- A source with tokens is read as these tokens before whatever follows an expression. -/
theorem scans_of_tokenize {s : Bytes} {ts : List Token} (h : tokenize s = .ok ts) :
    Scans Stops s (List.Forall₂ Token.SameText ts) := by
  intro o rest hrest
  obtain ⟨ps, hps, hadmits, rfl⟩ := munches_of_tokensFrom s 0 h
  exact hps.before_stop hadmits hrest o

/-! Trees of alike tokens. -/

theorem Denotes.exists_le {n : Nat} {ts us : List Token} {e : Expr} (h : Denotes n ts e)
    (hsame : List.Forall₂ Token.SameText ts us) : ∃ m ≤ n, Denotes m us e := by
  have halike : AlikeAll ts us := hsame.imp fun _ _ => Token.SameText.alike
  -- A reader with just enough levels for `ts` reads `us` alike, and derives what it reads.
  rcases h.answer 0 (n + 1) with ⟨-, hr, hok⟩ | ⟨hno, -⟩
  · have hplain : plain (parseExpression 0 (n + 1) ts) = .ok (e, []) := by
      rw [hok]
      rfl
    obtain ⟨vs, hts, -, hagain⟩ := (settles_expression (n + 1)).accepts hplain
    rw [List.append_nil] at hts
    subst hts
    obtain ⟨hr', hok'⟩ := plain_eq_ok (hagain 0 us [] halike (.refl []))
    obtain ⟨m, ws, hm, hus, hder⟩ := parseExpression_explained hok'
    rw [List.append_nil, List.append_nil] at hus
    subst hus
    exact ⟨m, Nat.le_of_lt_succ hm, hder⟩
  · exact absurd (Nat.lt_succ_self n) hno

/-- The places of tokens do not matter for what they denote. -/
theorem Denotes.sameText {n : Nat} {ts us : List Token} {e : Expr} (h : Denotes n ts e)
    (hsame : List.Forall₂ Token.SameText ts us) : Denotes n us e := by
  have hback : List.Forall₂ Token.SameText us ts :=
    (hsame.imp fun _ _ ht => ⟨ht.kind.symm, ht.lexeme.symm, ht.comparison.symm⟩).flip
  obtain ⟨m, hm, hus⟩ := h.exists_le hsame
  obtain ⟨n', hn', hts⟩ := hus.exists_le hback
  obtain ⟨-, rfl⟩ := h.unique hts
  obtain rfl := Nat.le_antisymm hm hn'
  exact hus

/-! Sources between brackets. -/

def bracketed (s : Bytes) : Bytes := utf8 "[" ++ s ++ utf8 "]"

/-- Before whatever follows an expression, the source is read as the tree, with a nesting. -/
def StandsFor (nesting : Nat) (e : Expr) (s : Bytes) : Prop :=
  Scans Stops s fun ts => Derives (.level 1) nesting ts e

/-- No primary of the source lies inside more than `limit` groups, predicates, arguments and minus
signs. -/
def NestsWithin (limit : Nat) (s : Bytes) : Prop :=
  ∀ tokens nesting e, tokenize s = .ok tokens → Denotes nesting tokens e → nesting ≤ limit

section StandsFor

variable {m n : Nat} {e e' : Expr} {s s' : Bytes}

theorem standsFor_of_denotes {tokens : List Token} (htokens : tokenize s = .ok tokens)
    (h : Denotes n tokens e) : StandsFor n e s :=
  (scans_of_tokenize htokens).imp fun _ hus => h.sameText hus

theorem nestsWithin_of_denotes {tokens : List Token} (htokens : tokenize s = .ok tokens)
    (h : Denotes n tokens e) {limit : Nat} (hn : n ≤ limit) : NestsWithin limit s := by
  intro tokens' n' e' htokens' h'
  rw [htokens] at htokens'
  cases htokens'
  obtain ⟨-, rfl⟩ := h.unique h'
  exact hn

theorem standsFor_of_parse (h : parse s = .ok e) {limit : Nat} (hs : NestsWithin limit s) :
    ∃ n ≤ limit, StandsFor n e s := by
  obtain ⟨tokens, htokens, n, -, hden⟩ := denotes_of_parse h
  exact ⟨n, hs tokens n e htokens hden, standsFor_of_denotes htokens hden⟩

theorem StandsFor.parse_eq (h : StandsFor n e s) (hn : n ≤ 255) : parse s = .ok e := by
  obtain ⟨tokens, htokens, hden⟩ := h.tokenize .done
  exact parse_of_denotes htokens hden hn

theorem StandsFor.operand (h : StandsFor n e s) : Scans Stops (parenthesized s) fun ts =>
    Derives .unary (n + 1) ts e :=
  (scans_group h).imp fun _ hts => .unsigned hts.source_primary

theorem StandsFor.group (h : StandsFor n e s) : StandsFor (n + 1) e (parenthesized s) :=
  h.operand.imp fun _ hts => hts.unary_level (by decide)

theorem StandsFor.negatedGroup (h : StandsFor n e s) :
    StandsFor (n + 2) (.negate e) (utf8 "-" ++ parenthesized s) :=
  (scans_negated h.operand).imp fun _ hts => hts.unary_level (by decide)

theorem StandsFor.step (h : StandsFor n e s) (h' : StandsFor m e' s') {a : Bytes} (ha : IsName a) :
    StandsFor (max (n + 1) (m + 1))
      (.path [(.absent, .mk none (.name (.qualified ⟨[], a⟩)) [e, e'])])
      (a ++ bracketed s ++ bracketed s') := by
  have hlast : Scans Pauses (bracketed s' ++ []) fun ts =>
      Derives .predicates (max (m + 1) 0) ts [e'] := scans_predicate h' (scans_nil .noPredicates)
  rw [List.append_nil, Nat.max_zero] at hlast
  have hboth : Scans Pauses (bracketed s ++ bracketed s') fun ts =>
      Derives .predicates (max (n + 1) (m + 1)) ts [e, e'] := scans_predicate h hlast
  have hstep : Scans Pauses (a ++ bracketed s ++ bracketed s') fun ts =>
      Derives .step (max (n + 1) (m + 1)) ts (.mk none (.name (.qualified ⟨[], a⟩)) [e, e']) := by
    rw [List.append_assoc]
    refine (scans_name ha).append hboth (fun rest _ => .opener (c := '[') (by decide) _) ?_
    rintro ts us ⟨o, rfl⟩ hus
    exact .plainStep (.oneName (.bareName rfl)) hus
  refine (hstep.before fun _ => .stop).imp fun ts hts => ?_
  have hpath := Derives.steps hts .noFurtherSteps
  rw [List.append_nil, Nat.max_zero] at hpath
  exact (Derives.unsigned (.relative hpath)).unary_level (by decide)

theorem StandsFor.call (h : StandsFor n e s) (h' : StandsFor m e' s') {f : Bytes} (hf : IsName f)
    (htype : isNodeType f = false) : StandsFor (max (n + 1) (m + 1)) (.call ⟨.absent, f⟩ [e, e'])
      (f ++ parenthesized (s ++ utf8 "," ++ s')) := by
  have hlast : Scans Stops s' fun ts => Derives .arguments (m + 1) ts [e'] :=
    h'.imp fun _ hts => .lastArgument hts
  have hcomma : Scans (fun _ => True) (utf8 ",") (IsMark .comma) := scans_mark (by decide)
  have hargs := scans_argument hcomma (fun rest => .closer (c := ',') (by decide) rest) h hlast
  refine ((scans_call hf htype hargs).before fun _ => .stop).imp fun ts hts => ?_
  exact (Derives.unsigned hts.source_primary).unary_level (by decide)

theorem StandsFor.binary (h : StandsFor n e s) (h' : StandsFor m e' s') {op : Operator}
    {c : Comparison} (hop : op.Takes c) :
    StandsFor (max (n + 1) (m + 1)) (.binary op c e e')
      (parenthesized s ++ utf8 " " ++ op.written c ++ utf8 " " ++ parenthesized s') := by
  obtain ⟨level, k, hlevel, hat, hscan⟩ := scans_operator hop
  refine (scans_binary hop hat hscan (h.operand.imp fun _ hts => hts.unary_level (by omega))
    (h'.operand.imp fun _ hts => hts.unary_level (by omega))).imp fun ts hts => ?_
  exact hts.loosen hlevel.1

end StandsFor

/-- Bracketing is compositional. A source that is read as a tree is read as that tree also in
parentheses, behind a minus sign, as a predicate, as an argument and as an operand, provided that no
primary comes to lie too deep. -/
theorem bracketing_is_compositional :
    (∀ s e, parse s = .ok e → NestsWithin 254 s → parse (parenthesized s) = .ok e) ∧
    (∀ s e, parse s = .ok e → NestsWithin 253 s →
      parse (utf8 "-" ++ parenthesized s) = .ok (.negate e)) ∧
    ∀ s₁ s₂ e₁ e₂, parse s₁ = .ok e₁ → NestsWithin 254 s₁ → parse s₂ = .ok e₂ →
      NestsWithin 254 s₂ →
      (∀ a, IsName a → parse (a ++ bracketed s₁ ++ bracketed s₂) =
        .ok (.path [(.absent, .mk none (.name (.qualified ⟨[], a⟩)) [e₁, e₂])])) ∧
      (∀ f, IsName f → isNodeType f = false →
        parse (f ++ parenthesized (s₁ ++ utf8 "," ++ s₂)) = .ok (.call ⟨.absent, f⟩ [e₁, e₂])) ∧
      ∀ (op : Operator) c, op.Takes c →
        parse (parenthesized s₁ ++ utf8 " " ++ op.written c ++ utf8 " " ++ parenthesized s₂) =
          .ok (.binary op c e₁ e₂) := by
  refine ⟨fun s e h hs => ?_, fun s e h hs => ?_, fun s₁ s₂ e₁ e₂ h₁ hs₁ h₂ hs₂ => ?_⟩
  · obtain ⟨n, hn, hstands⟩ := standsFor_of_parse h hs
    exact hstands.group.parse_eq (by omega)
  · obtain ⟨n, hn, hstands⟩ := standsFor_of_parse h hs
    exact hstands.negatedGroup.parse_eq (by omega)
  · obtain ⟨n₁, hn₁, hstands₁⟩ := standsFor_of_parse h₁ hs₁
    obtain ⟨n₂, hn₂, hstands₂⟩ := standsFor_of_parse h₂ hs₂
    have hmax : max (n₁ + 1) (n₂ + 1) ≤ 255 := by omega
    refine ⟨fun a ha => ?_, fun f hf htype => ?_, fun op c hop => ?_⟩
    · exact (hstands₁.step hstands₂ ha).parse_eq hmax
    · exact (hstands₁.call hstands₂ hf htype).parse_eq hmax
    · exact (hstands₁.binary hstands₂ hop).parse_eq hmax

/-- A union whose text ends with a name. -/
def nameUnion : Expr :=
  .binary .union .absent (namePath (utf8 "a")) (namePath (utf8 "b"))

theorem bracketing_is_compositional_nameUnion :
    parse (utf8 "a | b") = .ok nameUnion ∧ NestsWithin 253 (utf8 "a | b") ∧
      parse (utf8 "(a | b)") = .ok nameUnion ∧
      parse (utf8 "-(a | b)") = .ok (.negate nameUnion) ∧
      parse (utf8 "a[a | b][a | b]") =
        .ok (.path [(.absent, .mk none (.name (.qualified ⟨[], utf8 "a"⟩))
          [nameUnion, nameUnion])]) ∧
      parse (utf8 "f(a | b,a | b)") = .ok (.call ⟨.absent, utf8 "f"⟩ [nameUnion, nameUnion]) ∧
      parse (utf8 "(a | b) <= (a | b)") =
        .ok (.binary .compare .lessEqual nameUnion nameUnion) := by
  have ha : IsName (utf8 "a") := ⟨isWord_utf8 (by decide), by decide⟩
  have hb : IsName (utf8 "b") := ⟨isWord_utf8 (by decide), by decide⟩
  have hf : IsName (utf8 "f") := ⟨isWord_utf8 (by decide), by decide⟩
  have hwell : nameUnion.WellFormed :=
    ⟨⟨by decide, by decide⟩, wellFormed_namePath ha, wellFormed_namePath hb⟩
  obtain ⟨text, tokens, htext, htokens, hden⟩ := text_denotes hwell
  obtain rfl : text = utf8 "a | b" := Option.some.inj (htext.symm.trans (by decide))
  have hparse := parse_of_denotes htokens hden (by decide)
  have hwithin : ∀ limit, NestsWithin limit (utf8 "a | b") := fun limit =>
    nestsWithin_of_denotes htokens hden (Nat.zero_le limit)
  obtain ⟨hgroup, hnegated, htwo⟩ := bracketing_is_compositional
  obtain ⟨hstep, hcall, hbinary⟩ := htwo _ _ _ _ hparse (hwithin 254) hparse (hwithin 254)
  exact ⟨hparse, hwithin 253, hgroup _ _ hparse (hwithin 254), hnegated _ _ hparse (hwithin 253),
    hstep _ ha, hcall _ hf (by decide), hbinary .compare .lessEqual ⟨by decide, by decide⟩⟩

end NodePath
