import NodePath.Proofs.Readings

/-!
# Every reader is settled

Each reader is written in the parts of which the theory of readings knows what they look at. The
readers of steps, predicates and sources are taken with any settled reader of expressions, so that
the only induction over nesting is the one for `parseUnary`. The climbing loop is left with what
completes its left operand, and the next operator is known to bind no more tightly than that.
-/

namespace NodePath

open NodePath.Text NodePath.Number Reading

/-- The sentences of a symbol with a nesting below a limit. -/
def Sentence (s : Symbol) (limit : Nat) (ts : List Token) : Prop :=
  ∃ d v, d < limit ∧ Derives s d ts v

/-- Names and tests hold no primaries. -/
theorem Sentence.flat {s : Symbol} {ts : List Token} (h : Sentence s 1 ts) :
    ∃ v, Derives s 0 ts v := by
  obtain ⟨d, v, hd, hder⟩ := h
  obtain rfl : d = 0 := by omega
  exact ⟨v, hder⟩

section Names

variable {stop : Int} {ts : List Token}

theorem plain_parseName : plain (parseName stop ts) =
    ((need .name .name Token.lexeme).andThen fun first => ifNext .colon
      (need .name .localName fun u => QName.mk first u.lexeme) (give ⟨[], first⟩)) stop ts := by
  refine plain_expect_bind fun t rest hr => ?_
  rw [ifNext]
  dsimp only
  cases accept .colon rest with
  | none => rfl
  | some r => exact plain_expect fun _ _ _ => rfl

theorem settles_name :
    Settles (fun stop ts => plain (parseName stop ts)) (Sentence .name 1) stop ts := by
  have hbare : ∀ t : Token, t.kind = .name → Sentence .name 1 [t] :=
    fun t ht => ⟨0, _, by omega, .bareName ht⟩
  refine Settles.congr (settles_need_andThen (by decide) (fun t u => lexeme_shared rfl)
    (fun t ht => ⟨[], hbare t ht⟩) fun {t rest} _ ht => ?_) fun stop ts _ => plain_parseName
  refine settles_ifNext (by decide) (fun {c rest} _ hc => ?_) (settles_give (hbare t ht))
  refine settles_need (by decide) (fun u u' hu h => ?_) fun u hu =>
    ⟨0, _, by omega, .spacedName ht hc hu⟩
  rw [lexeme_shared rfl hu h]

/-- Behind its first name, a test is that name, a name in a space, or all of a space. -/
theorem parseTest_name {t : Token} (ht : t.kind = .name) :
    plain (parseTest stop (t :: ts)) = ifNext .colon
      (ifNext .star (give (Test.name (.anyIn t.lexeme)))
        (need .name .localName fun u => .name (.qualified ⟨t.lexeme, u.lexeme⟩)))
      (give (.name (.qualified ⟨[], t.lexeme⟩))) stop ts := by
  rw [parseTest, ht]
  dsimp only
  cases hany : acceptAnyIn (t :: ts) with
  | some a =>
    obtain ⟨space, rest, hr⟩ := a
    obtain ⟨t', c, s, -, hc, hs, rfl, hts⟩ := acceptAnyIn_some hany
    cases hts
    rw [ifNext, accept_cons hc]
    dsimp only
    rw [ifNext, accept_cons hs]
    rfl
  | none =>
    dsimp only
    rw [parseName, expect_cons ht]
    dsimp only [ok_bind]
    cases ts with
    | nil => rfl
    | cons c rest =>
      by_cases hc : c.kind = .colon
      · have hs : nextKind rest ≠ .star := by
          intro hs
          obtain ⟨s, rest, rfl, hs⟩ := eq_cons_of_nextKind hs (by decide)
          rw [acceptAnyIn, if_pos ⟨ht, hc, hs⟩] at hany
          cases hany
        rw [ifNext, accept_cons hc]
        dsimp only
        rw [ifNext, accept_eq_none hs]
        dsimp only
        rw [bind_assoc]
        exact plain_expect fun _ _ _ => rfl
      · have hnone : accept .colon (c :: rest) = none := accept_eq_none hc
        rw [ifNext, hnone]
        rfl

/-- The optional argument of a node type test, which is never refused. -/
def typeArgument : Reading (Option Bytes) := fun _ ts =>
  .ok ((parseTypeArgument ts).1, (parseTypeArgument ts).2.1)

theorem typeArgument_some {a : Token} (ha : a.kind = .stringLiteral) :
    typeArgument stop (a :: ts) = .ok (some a.lexeme, ts) := by
  rw [typeArgument, parseTypeArgument, if_pos ha]

theorem typeArgument_none (h : nextKind ts ≠ .stringLiteral) :
    typeArgument stop ts = give none stop ts := by
  cases ts with
  | nil => rfl
  | cons t rest =>
    have ht : ¬t.kind = .stringLiteral := h
    rw [typeArgument, parseTypeArgument, if_neg ht]
    rfl

theorem parseTest_nodeType {t : Token} (ht : t.kind = .nodeType) :
    plain (parseTest stop (t :: ts)) =
      ((need .leftParen .leftParen fun _ => ()).andThen fun _ =>
        typeArgument.andThen fun argument =>
          need .rightParen .rightParen fun _ => Test.nodeType t.lexeme argument) stop ts := by
  rw [parseTest, ht]
  refine plain_expect_bind fun l rest hr => ?_
  exact plain_expect fun r rest hr => rfl

theorem parseTest_other (hstar : nextKind ts ≠ .star) (hname : nextKind ts ≠ .name)
    (htype : nextKind ts ≠ .nodeType) : plain (parseTest stop ts) = fail .nodeTest stop ts := by
  cases ts with
  | nil => rfl
  | cons t rest =>
    rw [parseTest]
    split
    · exact absurd ‹_› hstar
    · exact absurd ‹_› hname
    · exact absurd ‹_› htype
    · rfl

theorem settles_typeArgument : Settles typeArgument
    (fun us => us = [] ∨ ∃ a : Token, a.kind = .stringLiteral ∧ us = [a]) stop ts := by
  by_cases hnext : nextKind ts = .stringLiteral
  · obtain ⟨a, rest, rfl, ha⟩ := eq_cons_of_nextKind hnext (by decide)
    refine (settles_give (v := some a.lexeme) (.inr ⟨a, ha, rfl⟩)).token fun _ a' _ halike _ => ?_
    rw [typeArgument_some (halike.kind.symm.trans ha), lexeme_shared rfl ha halike]
    rfl
  · exact (settles_give (v := none) (.inl rfl)).congr fun _ _ h =>
      typeArgument_none (h.kind ▸ hnext)

theorem settles_test :
    Settles (fun stop ts => plain (parseTest stop ts)) (Sentence .test 1) stop ts := by
  by_cases hstar : nextKind ts = .star
  · obtain ⟨t, rest, rfl, ht⟩ := eq_cons_of_nextKind hstar (by decide)
    refine settles_one (.name .any) ⟨0, _, by omega, .anyName ht⟩ fun stop ts u hu => ?_
    rw [parseTest, hu, ht]
    rfl
  by_cases hname : nextKind ts = .name
  · obtain ⟨t, rest, rfl, ht⟩ := eq_cons_of_nextKind hname (by decide)
    refine Settles.token ?_ fun stop' t' ts' halike _ =>
      (parseTest_name (halike.kind.symm.trans ht)).trans
        (by rw [← lexeme_shared rfl ht halike])
    refine settles_ifNext (by decide) (fun {c rest} _ hc => ?_)
      (settles_give ⟨0, _, by omega, .oneName (.bareName ht)⟩)
    refine settles_ifNext (by decide) (fun {s rest} _ hs => ?_) ?_
    · exact settles_give ⟨0, _, by omega, .anyNameIn ht hc hs⟩
    · refine settles_need (by decide) (fun u u' hu h => ?_) fun u hu =>
        ⟨0, _, by omega, .oneName (.spacedName ht hc hu)⟩
      rw [lexeme_shared rfl hu h]
  by_cases htype : nextKind ts = .nodeType
  · obtain ⟨t, rest, rfl, ht⟩ := eq_cons_of_nextKind htype (by decide)
    refine Settles.token ?_ fun stop' t' ts' halike _ =>
      (parseTest_nodeType (halike.kind.symm.trans ht)).trans
        (by rw [← lexeme_shared rfl ht halike])
    refine settles_need_andThen (by decide) (fun _ _ _ _ => rfl)
      (fun l hl => ⟨[Kind.rightParen.token], 0, _, by omega, .typeTest ht hl rfl⟩)
      fun {l rest} _ hl => settles_typeArgument.andThen ?_ ?_
    · rintro us (rfl | ⟨a, ha, rfl⟩)
      · exact ⟨[Kind.rightParen.token], 0, _, by omega, .typeTest ht hl rfl⟩
      · exact ⟨[Kind.rightParen.token], 0, _, by omega, .typeTestOf ht hl ha rfl⟩
    · rintro argument us rest - (rfl | ⟨a, ha, rfl⟩)
      · exact settles_need (by decide) (fun _ _ _ _ => rfl) fun r hr =>
          ⟨0, _, by omega, .typeTest ht hl hr⟩
      · exact settles_need (by decide) (fun _ _ _ _ => rfl) fun r hr =>
          ⟨0, _, by omega, .typeTestOf ht hl ha hr⟩
  · have hsome : ∃ us, Sentence .test 1 us := ⟨[Kind.star.token], 0, _, by omega, .anyName rfl⟩
    exact (settles_fail .nodeTest fun _ => hsome).congr fun _ _ h =>
      parseTest_other (h.kind ▸ hstar) (h.kind ▸ hname) (h.kind ▸ htype)

end Names

section Readers

variable {stop : Int} {ts : List Token} {levels : Nat} {x : Int → Parser Expr}

/-- A reader of expressions that is settled everywhere, with the sentences of the loosest level. -/
def ExpressionSettled (levels : Nat) (x : Int → Parser Expr) : Prop :=
  ∀ {stop ts}, Settles (fun stop ts => plain (x stop ts)) (Sentence (.level 1) levels) stop ts

theorem plain_parsePredicates : plain (parsePredicates stop (x stop) ts) =
    ifNext .leftBracket
      (Reading.andThen (fun stop ts => plain (x stop ts)) fun first =>
        (need .rightBracket .rightBracket fun _ => ()).andThen fun _ =>
          Reading.map (first :: ·) fun stop ts => plain (parsePredicates stop (x stop) ts))
      (give []) stop ts := by
  rw [parsePredicates, ifNext]
  cases accept .leftBracket ts with
  | none => rfl
  | some r =>
    exact plain_bind rfl fun _ _ _ => plain_expect_bind fun _ _ _ => plain_bind rfl fun _ _ _ => rfl

theorem Sentence.noPredicates : Sentence .predicates (levels + 1) [] :=
  ⟨0, _, by omega, .noPredicates⟩

theorem Sentence.predicate {l r : Token} {us vs : List Token} (hl : l.kind = .leftBracket)
    (hus : Sentence (.level 1) levels us) (hr : r.kind = .rightBracket)
    (hvs : Sentence .predicates (levels + 1) vs) :
    Sentence .predicates (levels + 1) (l :: (us ++ r :: vs)) := by
  obtain ⟨d, e, hd, he⟩ := hus
  obtain ⟨d', ps, hd', hps⟩ := hvs
  exact ⟨max (d + 1) d', _, by omega, .predicate hl he hr hps⟩

theorem settles_predicates (hx : ExpressionSettled levels x) (ts : List Token) :
    Settles (fun stop ts => plain (parsePredicates stop (x stop) ts))
      (Sentence .predicates (levels + 1)) stop ts := by
  refine Settles.congr ?_ fun stop ts _ => plain_parsePredicates
  refine settles_ifNext (by decide) (fun {l rest} hts hl => ?_) (settles_give .noPredicates)
  refine hx.andThen (fun us hus => ?_) fun {e us rest₁} he hus => ?_
  · exact ⟨[Kind.rightBracket.token], .predicate hl hus rfl .noPredicates⟩
  refine settles_need_andThen (by decide) (fun _ _ _ _ => rfl)
    (fun r hr => ⟨[], .predicate hl hus hr .noPredicates⟩) fun {r rest₂} hrest hr => ?_
  have hshort : rest₂.length < ts.length := by
    obtain ⟨hlt, -⟩ := plain_eq_ok he
    subst hts hrest
    simp only [List.length_cons] at hlt ⊢
    omega
  -- The other predicates are read from what is left, which is shorter.
  exact (settles_predicates hx rest₂).map.mono fun vs hvs => .predicate hl hus hr hvs
termination_by ts.length

theorem plain_parseTestStep {axis : Option Axis} :
    plain (parseTestStep stop (x stop) axis ts) =
      (Reading.andThen (fun stop ts => plain (parseTest stop ts)) fun test =>
        Reading.map (Step.mk axis test) fun stop ts =>
          plain (parsePredicates stop (x stop) ts)) stop ts :=
  plain_bind rfl fun _ _ _ => plain_bind rfl fun _ _ _ => rfl

/-- A node test with predicates completes whatever stands before it. -/
theorem settles_testStep (hx : ExpressionSettled levels x) {L : List Token → Prop}
    (axis : Option Axis)
    (hL : ∀ us vs test ps d, d < levels + 1 → Derives .test 0 us test →
      Derives .predicates d vs ps → L (us ++ vs)) :
    Settles (fun stop ts => plain (parseTestStep stop (x stop) axis ts)) L stop ts := by
  refine Settles.congr (settles_test.andThen (fun us hus => ?_) ?_)
    fun _ _ _ => plain_parseTestStep
  · obtain ⟨test, ht⟩ := hus.flat
    exact ⟨[], hL us [] test _ 0 (by omega) ht .noPredicates⟩
  · intro test us rest _ hus
    obtain ⟨test, ht⟩ := hus.flat
    refine (settles_predicates hx rest).map.mono ?_
    rintro vs ⟨d, ps, hd, hps⟩
    exact hL us vs test ps d hd ht hps

theorem parseStep_other (hdot : nextKind ts ≠ .dot) (hdots : nextKind ts ≠ .doubleDot)
    (haxis : nextKind ts ≠ .axisName) (hat : nextKind ts ≠ .atSign) {expression : Parser Expr} :
    parseStep stop expression ts = parseTestStep stop expression none ts := by
  cases ts with
  | nil => rfl
  | cons t rest =>
    rw [parseStep]
    split
    · exact absurd ‹_› hdot
    · exact absurd ‹_› hdots
    · exact absurd ‹_› haxis
    · exact absurd ‹_› hat
    · rfl

theorem parseStep_axis {t : Token} (ht : t.kind = .axisName) :
    plain (parseStep stop (x stop) (t :: ts)) =
      ((need .doubleColon .doubleColon fun _ => ()).andThen fun _ stop ts =>
        plain (parseTestStep stop (x stop) (some ⟨t.lexeme, false⟩) ts)) stop ts := by
  rw [parseStep, ht]
  exact plain_expect_bind fun _ _ _ => plain_pass fun _ _ _ => rfl

theorem parseStep_attribute {t : Token} (ht : t.kind = .atSign) :
    plain (parseStep stop (x stop) (t :: ts)) =
      plain (parseTestStep stop (x stop) (some ⟨utf8 "attribute", true⟩) ts) := by
  rw [parseStep, ht]
  exact plain_pass fun _ _ _ => rfl

theorem settles_step (hx : ExpressionSettled levels x) :
    Settles (fun stop ts => plain (parseStep stop (x stop) ts)) (Sentence .step (levels + 1))
      stop ts := by
  by_cases hdot : nextKind ts = .dot
  · obtain ⟨t, rest, rfl, ht⟩ := eq_cons_of_nextKind hdot (by decide)
    refine settles_one (.sign .self) ⟨0, _, by omega, .selfStep ht⟩ fun stop ts u hu => ?_
    rw [parseStep, hu, ht]
    rfl
  by_cases hdots : nextKind ts = .doubleDot
  · obtain ⟨t, rest, rfl, ht⟩ := eq_cons_of_nextKind hdots (by decide)
    refine settles_one (.sign .parent) ⟨0, _, by omega, .parentStep ht⟩ fun stop ts u hu => ?_
    rw [parseStep, hu, ht]
    rfl
  by_cases haxis : nextKind ts = .axisName
  · obtain ⟨t, rest, rfl, ht⟩ := eq_cons_of_nextKind haxis (by decide)
    refine Settles.token ?_ fun stop' t' ts' halike _ =>
      (parseStep_axis (halike.kind.symm.trans ht)).trans
        (by rw [← lexeme_shared rfl ht halike])
    refine settles_need_andThen (by decide) (fun _ _ _ _ => rfl) (fun c hc => ?_)
      fun {c rest} _ hc => ?_
    · exact ⟨[Kind.star.token], 0, _, by omega, .axisStep ht hc (.anyName rfl) .noPredicates⟩
    · exact settles_testStep hx _ fun us vs test ps d hd htest hps =>
        ⟨d, _, hd, .axisStep ht hc htest hps⟩
  by_cases hat : nextKind ts = .atSign
  · obtain ⟨t, rest, rfl, ht⟩ := eq_cons_of_nextKind hat (by decide)
    refine Settles.token (settles_testStep hx (some ⟨utf8 "attribute", true⟩)
      fun us vs test ps d hd htest hps => ⟨d, _, hd, .attributeStep ht htest hps⟩)
      fun _ _ _ halike _ => parseStep_attribute (halike.kind.symm.trans ht)
  · refine Settles.congr (settles_testStep hx none
      fun us vs test ps d hd htest hps => ⟨d, _, hd, .plainStep htest hps⟩) fun stop' ts' h => ?_
    rw [parseStep_other (h.kind ▸ hdot) (h.kind ▸ hdots) (h.kind ▸ haxis) (h.kind ▸ hat)]

theorem plain_parseFurtherSteps : plain (parseFurtherSteps stop (x stop) ts) =
    ifSeparator
      (fun separator =>
        Reading.andThen (fun stop ts => plain (parseStep stop (x stop) ts)) fun step =>
          Reading.map ((separator, step) :: ·) fun stop ts =>
            plain (parseFurtherSteps stop (x stop) ts))
      (give []) stop ts := by
  rw [parseFurtherSteps, ifSeparator]
  cases acceptSeparator ts with
  | none => rfl
  | some r => exact plain_bind rfl fun _ _ _ => plain_bind rfl fun _ _ _ => rfl

theorem Sentence.noFurtherSteps : Sentence .furtherSteps (levels + 1) [] :=
  ⟨0, _, by omega, .noFurtherSteps⟩

theorem Sentence.furtherStep {t : Token} {us vs : List Token} {separator : Separator}
    (ht : separatorOf t.kind = some separator) (hus : Sentence .step (levels + 1) us)
    (hvs : Sentence .furtherSteps (levels + 1) vs) :
    Sentence .furtherSteps (levels + 1) (t :: (us ++ vs)) := by
  obtain ⟨d, step, hd, hstep⟩ := hus
  obtain ⟨d', p, hd', hp⟩ := hvs
  exact ⟨max d d', _, by omega, .furtherStep ht hstep hp⟩

theorem settles_furtherSteps (hx : ExpressionSettled levels x) (ts : List Token) :
    Settles (fun stop ts => plain (parseFurtherSteps stop (x stop) ts))
      (Sentence .furtherSteps (levels + 1)) stop ts := by
  refine Settles.congr ?_ fun stop ts _ => plain_parseFurtherSteps
  refine settles_ifSeparator (fun {t rest separator} hts ht => ?_) (settles_give .noFurtherSteps)
  refine (settles_step hx).andThen (fun us hus => ⟨[], .furtherStep ht hus .noFurtherSteps⟩) ?_
  intro step us rest₁ hstep hus
  have hshort : rest₁.length < ts.length := by
    obtain ⟨hlt, -⟩ := plain_eq_ok hstep
    subst hts
    simp only [List.length_cons]
    omega
  exact (settles_furtherSteps hx rest₁).map.mono fun vs hvs => .furtherStep ht hus hvs
termination_by ts.length

theorem plain_parsePath : plain (parsePath stop (x stop) ts) =
    (Reading.andThen (fun stop ts => plain (parseStep stop (x stop) ts)) fun step =>
      Reading.map ((.absent, step) :: ·) fun stop ts =>
        plain (parseFurtherSteps stop (x stop) ts)) stop ts :=
  plain_bind rfl fun _ _ _ => plain_bind rfl fun _ _ _ => rfl

theorem settles_path (hx : ExpressionSettled levels x) :
    Settles (fun stop ts => plain (parsePath stop (x stop) ts)) (Sentence .path (levels + 1))
      stop ts := by
  have hpath : ∀ us vs, Sentence .step (levels + 1) us → Sentence .furtherSteps (levels + 1) vs →
      Sentence .path (levels + 1) (us ++ vs) := by
    rintro us vs ⟨d, step, hd, hstep⟩ ⟨d', p, hd', hp⟩
    exact ⟨max d d', _, by omega, .steps hstep hp⟩
  refine Settles.congr ?_ fun _ _ _ => plain_parsePath
  refine (settles_step hx).andThen (fun us hus => ?_) fun {step us rest} _ hus => ?_
  · exact ⟨[], hpath us [] hus .noFurtherSteps⟩
  · exact (settles_furtherSteps hx rest).map.mono fun vs hvs => hpath us vs hus hvs

theorem plain_parseArguments : plain (parseArguments (x stop) ts) =
    (Reading.andThen (fun stop ts => plain (x stop ts)) fun first =>
      ifNext .comma (Reading.map (first :: ·) fun stop ts => plain (parseArguments (x stop) ts))
        (give [first])) stop ts := by
  rw [parseArguments]
  refine plain_bind rfl fun first rest hr => ?_
  rw [ifNext]
  dsimp only
  cases accept .comma rest with
  | none => rfl
  | some r => exact plain_bind rfl fun _ _ _ => rfl

theorem settles_arguments (hx : ExpressionSettled levels x) (ts : List Token) :
    Settles (fun stop ts => plain (parseArguments (x stop) ts)) (Sentence .arguments (levels + 1))
      stop ts := by
  have hlast : ∀ us, Sentence (.level 1) levels us →
      Sentence .arguments (levels + 1) (us ++ []) := by
    rintro us ⟨d, e, hd, he⟩
    rw [List.append_nil]
    exact ⟨d + 1, _, by omega, .lastArgument he⟩
  refine Settles.congr ?_ fun stop ts _ => plain_parseArguments
  refine hx.andThen (fun us hus => ⟨[], hlast us hus⟩) fun {e us rest} he hus => ?_
  refine settles_ifNext (by decide) (fun {c rest₁} hrest hc => ?_) (settles_give (hlast us hus))
  have hshort : rest₁.length < ts.length := by
    obtain ⟨hlt, -⟩ := plain_eq_ok he
    subst hrest
    simp only [List.length_cons] at hlt
    omega
  refine (settles_arguments hx rest₁).map.mono ?_
  rintro vs ⟨d', es, hd', hes⟩
  obtain ⟨d, e', hd, he'⟩ := hus
  exact ⟨max (d + 1) d', _, by omega, .argument he' hc hes⟩
termination_by ts.length

theorem plain_parseCall {ident : Bytes} : plain (parseCall stop (x stop) ident ts) =
    ((need .leftParen .leftParen fun _ => ()).andThen fun _ =>
      ifNext .rightParen (give (Expr.call ⟨.absent, ident⟩ []))
        (Reading.andThen (fun stop ts => plain (parseArguments (x stop) ts)) fun args =>
          need .rightParen .commaOrRightParen fun _ => Expr.call ⟨.absent, ident⟩ args))
      stop ts := by
  refine plain_expect_bind fun l rest hr => ?_
  rw [ifNext]
  dsimp only
  cases accept .rightParen rest with
  | some r => rfl
  | none => exact plain_bind rfl fun _ _ _ => plain_expect fun _ _ _ => rfl

theorem settles_call (hx : ExpressionSettled levels x) {f : Token} (hf : f.kind = .functionName) :
    Settles (fun stop ts => plain (parseCall stop (x stop) f.lexeme ts))
      (fun us => Sentence .source (levels + 1) (f :: us)) stop ts := by
  have hempty : ∀ l r : Token, l.kind = .leftParen → r.kind = .rightParen →
      Sentence .source (levels + 1) [f, l, r] :=
    fun l r hl hr => ⟨0, _, by omega, .emptyCall hf hl hr⟩
  have hcall : ∀ (l r : Token) (us : List Token), l.kind = .leftParen → r.kind = .rightParen →
      Sentence .arguments (levels + 1) us →
      Sentence .source (levels + 1) (f :: l :: (us ++ [r])) := by
    rintro l r us hl hr ⟨d, es, hd, hes⟩
    exact ⟨d, _, hd, .call hf hl hes hr⟩
  refine Settles.congr ?_ fun _ _ _ => plain_parseCall
  refine settles_need_andThen (by decide) (fun _ _ _ _ => rfl)
    (fun l hl => ⟨[Kind.rightParen.token], hempty l _ hl rfl⟩) fun {l rest} _ hl => ?_
  refine settles_ifNext (by decide) (fun {r rest} _ hr => settles_give (hempty l r hl hr)) ?_
  refine (settles_arguments hx rest).andThen (fun us hus => ?_) fun {args us rest} _ hus => ?_
  · exact ⟨[Kind.rightParen.token], hcall l _ us hl rfl hus⟩
  · exact settles_need (by decide) (fun _ _ _ _ => rfl) fun r hr => hcall l r us hl hr hus

theorem plain_parseTruth {value : Bool} : plain (parseTruth stop value ts) =
    ifNext .leftParen
      (need .rightParen .rightParen fun _ => Expr.call ⟨truthCall value, []⟩ [])
      (give (.boolean value)) stop ts := by
  rw [parseTruth, ifNext]
  cases accept .leftParen ts with
  | none => rfl
  | some r => exact plain_expect fun _ _ _ => rfl

theorem settles_truth {t : Token} (value : Bool) (ht : t.kind = truthWord value) :
    Settles (fun stop ts => plain (parseTruth stop value ts))
      (fun us => Sentence .source (levels + 1) (t :: us)) stop ts := by
  refine Settles.congr ?_ fun _ _ _ => plain_parseTruth
  refine settles_ifNext (by decide) (fun {l rest} _ hl => ?_)
    (settles_give ⟨0, _, by omega, .truth ht⟩)
  exact settles_need (by decide) (fun _ _ _ _ => rfl) fun r hr =>
    ⟨0, _, by omega, .builtinCall ht hl hr⟩

theorem settles_group (hx : ExpressionSettled levels x) {l : Token} (hl : l.kind = .leftParen) :
    Settles (Reading.andThen (fun stop ts => plain (x stop ts)) fun e =>
        need .rightParen .rightParen fun _ => e)
      (fun us => Sentence .source (levels + 1) (l :: us)) stop ts := by
  have hgroup : ∀ (us : List Token) (r : Token), Sentence (.level 1) levels us →
      r.kind = .rightParen → Sentence .source (levels + 1) (l :: (us ++ [r])) := by
    rintro us r ⟨d, e, hd, he⟩ hr
    exact ⟨d + 1, _, by omega, .group hl he hr⟩
  refine hx.andThen (fun us hus => ?_) fun {e us rest} _ hus => ?_
  · exact ⟨[Kind.rightParen.token], hgroup us _ hus rfl⟩
  · exact settles_need (by decide) (fun _ _ _ _ => rfl) fun r hr => hgroup us r hus hr

theorem startsSource_cases {k : Kind} (h : k.startsSource = true) :
    k = .stringLiteral ∨ k = .integer ∨ k = .float ∨ (∃ value, k = truthWord value) ∨ k = .dollar ∨
      k = .functionName ∨ k = .leftParen := by
  cases k <;> simp_all [Kind.startsSource, truthWord]

theorem parseSource_other {expression : Parser Expr} (h : (nextKind ts).startsSource = false) :
    plain (parseSource stop expression ts) = fail .expression stop ts := by
  cases ts with
  | nil => rfl
  | cons t rest =>
    have ht : t.kind.startsSource = false := h
    rw [parseSource]
    split
    case h_9 => rfl
    all_goals
      rename_i hk
      rw [hk] at ht
      cases ht

theorem settles_source (hx : ExpressionSettled levels x) :
    Settles (fun stop ts => plain (parseSource stop (x stop) ts)) (Sentence .source (levels + 1))
      stop ts := by
  have hsome : ∃ us, Sentence .source (levels + 1) us :=
    ⟨[Kind.stringLiteral.token], 0, _, by omega, .literal rfl⟩
  cases hs : (nextKind ts).startsSource with
  | false =>
    exact (settles_fail .expression fun _ => hsome).congr fun _ _ h =>
      parseSource_other (h.kind ▸ hs)
  | true =>
    have hend : nextKind ts ≠ .eof := by
      intro hk
      rw [hk] at hs
      cases hs
    obtain ⟨t, rest, rfl, hk⟩ := eq_cons_of_nextKind rfl hend
    rw [← hk] at hs
    rcases startsSource_cases hs with hliteral | hinteger | hfloat | ⟨value, htruth⟩ | hdollar |
      hfunction | hparen
    · refine settles_valued .expression (fun lexeme => some (.literal lexeme))
        (by rw [hliteral]; rfl) (fun stop ts u hu => ?_)
        (fun v _ => ⟨0, _, by omega, .literal hliteral⟩) hsome
      rw [parseSource, hu, hliteral]
      rfl
    · refine settles_valued .integerInRange
        (fun lexeme => (integer? lexeme).map fun i => .number (.ofInt i))
        (by rw [hinteger]; rfl) (fun stop ts u hu => ?_) (fun v hv => ?_) hsome
      · rw [parseSource, hu, hinteger]
        dsimp only
        cases integer? u.lexeme <;> rfl
      · obtain ⟨i, hi, -⟩ := Option.map_eq_some_iff.mp hv
        exact ⟨0, _, by omega, .integer hinteger hi⟩
    · refine settles_valued .floatInRange
        (fun lexeme => (float? lexeme).map fun y => .number (.ofFloat y))
        (by rw [hfloat]; rfl) (fun stop ts u hu => ?_) (fun v hv => ?_) hsome
      · rw [parseSource, hu, hfloat]
        dsimp only
        cases float? u.lexeme <;> rfl
      · obtain ⟨y, hy, -⟩ := Option.map_eq_some_iff.mp hv
        exact ⟨0, _, by omega, .float hfloat hy⟩
    · refine (settles_truth value htruth).token fun stop' t' ts' halike _ => ?_
      rw [parseSource, halike.kind.symm.trans htruth]
      cases value <;> exact plain_pass fun _ _ _ => rfl
    · refine Settles.token ((settles_name.map (f := Expr.reference)).mono fun us hus => ?_)
        fun stop' t' ts' halike _ => ?_
      · obtain ⟨q, hq⟩ := hus.flat
        exact ⟨0, _, by omega, .reference hdollar hq⟩
      · rw [parseSource, halike.kind.symm.trans hdollar]
        exact plain_bind rfl fun _ _ _ => rfl
    · refine (settles_call hx hfunction).token fun stop' t' ts' halike _ => ?_
      rw [parseSource, halike.kind.symm.trans hfunction, ← lexeme_shared rfl hfunction halike]
      exact plain_pass fun _ _ _ => rfl
    · refine (settles_group hx hparen).token fun stop' t' ts' halike _ => ?_
      rw [parseSource, halike.kind.symm.trans hparen]
      exact plain_bind rfl fun _ _ _ => plain_expect fun _ _ _ => rfl

theorem plain_parseFiltered : plain (parseFiltered stop (x stop) ts) =
    (Reading.andThen (fun stop ts => plain (parseSource stop (x stop) ts)) fun source =>
      Reading.andThen (fun stop ts => plain (parsePredicates stop (x stop) ts)) fun predicates =>
        ifSeparator
          (fun separator => Reading.map (Expr.continued (narrowed source predicates) separator)
            fun stop ts => plain (parsePath stop (x stop) ts))
          (give (narrowed source predicates))) stop ts := by
  refine plain_bind rfl fun source rest hr => plain_bind rfl fun predicates rest₁ hr₁ => ?_
  rw [ifSeparator]
  dsimp only
  cases acceptSeparator rest₁ with
  | none => rfl
  | some r => exact plain_bind rfl fun _ _ _ => rfl

theorem settles_filtered (hx : ExpressionSettled levels x) :
    Settles (fun stop ts => plain (parseFiltered stop (x stop) ts)) (Sentence .primary (levels + 1))
      stop ts := by
  have hfiltered : ∀ us vs, Sentence .source (levels + 1) us →
      Sentence .predicates (levels + 1) vs → Sentence .primary (levels + 1) (us ++ (vs ++ [])) := by
    rintro us vs ⟨d, e, hd, he⟩ ⟨d', ps, hd', hps⟩
    rw [List.append_nil]
    exact ⟨max d d', _, by omega, .filtered he hps⟩
  refine Settles.congr ?_ fun stop ts _ => plain_parseFiltered
  refine (settles_source hx).andThen (fun us hus => ⟨[], ?_⟩) fun {source us rest} _ hus => ?_
  · exact hfiltered us [] hus .noPredicates
  refine (settles_predicates hx rest).andThen (fun vs hvs => ⟨[], ?_⟩) fun {ps vs rest₁} _ hvs => ?_
  · exact hfiltered us vs hus hvs
  refine settles_ifSeparator (fun {t rest₂ separator} _ ht => ?_)
    (settles_give (hfiltered us vs hus hvs))
  refine (settles_path hx).map.mono ?_
  rintro ws ⟨d'', p, hd'', hp⟩
  obtain ⟨d, e, hd, he⟩ := hus
  obtain ⟨d', ps, hd', hps⟩ := hvs
  exact ⟨max d (max d' d''), _, by omega, .continued he hps ht hp⟩

theorem parsePrimary_step (h : (nextKind ts).startsStep = true) :
    plain (parsePrimary stop (x stop) ts) =
      Reading.map Expr.path (fun stop ts => plain (parsePath stop (x stop) ts)) stop ts := by
  cases ts with
  | nil => cases h
  | cons t rest =>
    have ht : t.kind.startsStep = true := h
    rw [parsePrimary, if_neg (by rintro hk; simp [hk, Kind.startsStep] at ht),
      if_neg (by rintro hk; simp [hk, Kind.startsStep] at ht), if_pos ht]
    exact plain_bind rfl fun _ _ _ => rfl

theorem parsePrimary_other {expression : Parser Expr} (hslash : nextKind ts ≠ .slash)
    (hdouble : nextKind ts ≠ .doubleSlash) (hstep : (nextKind ts).startsStep = false) :
    parsePrimary stop expression ts = parseFiltered stop expression ts := by
  cases ts with
  | nil => rfl
  | cons t rest =>
    have hs : ¬t.kind = .slash := hslash
    have hd : ¬t.kind = .doubleSlash := hdouble
    have ht : ¬t.kind.startsStep = true := Bool.eq_false_iff.mp hstep
    rw [parsePrimary, if_neg hs, if_neg hd, if_neg ht]

theorem settles_primary (hx : ExpressionSettled levels x) :
    Settles (fun stop ts => plain (parsePrimary stop (x stop) ts)) (Sentence .primary (levels + 1))
      stop ts := by
  by_cases hslash : nextKind ts = .slash
  · obtain ⟨t, rest, rfl, ht⟩ := eq_cons_of_nextKind hslash (by decide)
    -- A slash is the root unless a step follows; the reader looks one token ahead for that.
    cases hstep : (nextKind rest).startsStep with
    | true =>
      refine Settles.token ((settles_path hx).map (f := Expr.absolute) |>.mono ?_) ?_
      · rintro us ⟨d, p, hd, hp⟩
        exact ⟨d, _, hd, .absolute ht hp⟩
      · intro stop' t' ts' halike hnext
        rw [parsePrimary, if_pos (halike.kind.symm.trans ht), nextToken_kind, ← hnext.kind,
          if_pos hstep]
        exact plain_bind rfl fun _ _ _ => rfl
    | false =>
      refine (settles_give (v := Expr.root) ⟨0, _, by omega, .root ht⟩).token ?_
      intro stop' t' ts' halike hnext
      rw [parsePrimary, if_pos (halike.kind.symm.trans ht), nextToken_kind, ← hnext.kind,
        if_neg (Bool.eq_false_iff.mp hstep)]
      rfl
  by_cases hdouble : nextKind ts = .doubleSlash
  · obtain ⟨t, rest, rfl, ht⟩ := eq_cons_of_nextKind hdouble (by decide)
    refine Settles.token ((settles_path hx).map (f := Expr.everywhere) |>.mono ?_) ?_
    · rintro us ⟨d, p, hd, hp⟩
      exact ⟨d, _, hd, .everywhere ht hp⟩
    · intro stop' t' ts' halike _
      have ht' := halike.kind.symm.trans ht
      rw [parsePrimary, if_neg (by simp [ht']), if_pos ht']
      exact plain_bind rfl fun _ _ _ => rfl
  cases hstep : (nextKind ts).startsStep with
  | true =>
    refine Settles.congr ((settles_path hx).map (f := Expr.path) |>.mono ?_) fun _ _ h =>
      parsePrimary_step (h.kind ▸ hstep)
    rintro us ⟨d, p, hd, hp⟩
    exact ⟨d, _, hd, .relative hp⟩
  | false =>
    refine (settles_filtered hx).congr fun stop' ts' h => ?_
    rw [parsePrimary_other (h.kind ▸ hslash) (h.kind ▸ hdouble) (h.kind ▸ hstep)]

end Readers

section Climbing

variable {stop : Int} {levels : Nat}

/-- A reader of operands that is settled everywhere. -/
def UnarySettled (levels : Nat) : Prop :=
  ∀ {stop ts}, Settles (fun stop ts => plain (parseUnary stop levels ts)) (Sentence .unary levels)
    stop ts

theorem bindsBelow_iff {bound : Nat} {ts : List Token} :
    BindsBelow bound ts ↔ ∀ op n, binaryOperator? (nextKind ts) = some (op, n) → n < bound := by
  cases ts with
  | nil => simp [BindsBelow, nextKind, binaryOperator?]
  | cons t rest => exact Iff.rfl

theorem climbFrom_stopped {unary : Parser Expr} {floor : Nat} {left : Expr} {ts : List Token}
    (h : BindsBelow floor ts) : plain (climbFrom unary floor left ts) = .ok (left, ts) := by
  have hanswer : Answers True (climbFrom unary floor left ts) left ts := climbFrom_stops h
  rcases hanswer with ⟨-, hr, hok⟩ | ⟨hno, -⟩
  · rw [hok]
    rfl
  · exact absurd trivial hno

theorem plain_climb {floor : Nat} {ts : List Token} :
    plain (climb (parseUnary stop levels) floor ts) =
      (Reading.andThen (fun stop ts => plain (parseUnary stop levels ts)) fun left stop ts =>
        plain (climbFrom (parseUnary stop levels) floor left ts)) stop ts := by
  rw [climb]
  exact plain_bind rfl fun _ _ _ => plain_pass fun _ _ _ => rfl

/-- Behind an operator that binds tightly enough, the loop reads its right operand and goes on. -/
theorem plain_climbFrom {floor b : Nat} {left : Expr} {t : Token} {op : Operator}
    {ts : List Token} (hop : binaryOperator? t.kind = some (op, b)) (hb : ¬b < floor) :
    plain (climbFrom (parseUnary stop levels) floor left (t :: ts)) =
      (Reading.andThen (fun stop ts => plain (climb (parseUnary stop levels) (b + 1) ts))
        fun right stop ts => plain (climbFrom (parseUnary stop levels) floor
          (.binary op t.comparison left right) ts)) stop ts := by
  rw [climbFrom, hop]
  dsimp only
  rw [if_neg hb]
  exact plain_bind rfl fun _ _ _ => plain_pass fun _ _ _ => rfl

mutual

theorem settles_climb (hu : UnarySettled levels) (floor : Nat) (hfloor : floor ≤ 10)
    (ts : List Token) :
    Settles (fun stop ts => plain (climb (parseUnary stop levels) floor ts))
      (Sentence (.level floor) levels) stop ts := by
  have hoperand : ∀ us, Sentence .unary levels us → Sentence (.level 10) levels us := by
    rintro us ⟨d, e, hd, he⟩
    exact ⟨d, e, hd, .operand he⟩
  refine Settles.congr (hu.andThen (fun us hus => ?_) fun {left us rest} hleft hus => ?_)
    fun _ _ _ => plain_climb
  · obtain ⟨d, e, hd, he⟩ := hoperand us hus
    exact ⟨[], d, e, hd, (List.append_nil us).symm ▸ he.loosen hfloor⟩
  · obtain ⟨hlt, -⟩ := plain_eq_ok hleft
    exact settles_climbFrom hu floor left 10 us hfloor (hoperand us hus) rest
      (bindsBelow_of_gt (by omega) rest)
termination_by ts.length

/-- The loop completes its left operand `us`, which comes from the level `n`. -/
theorem settles_climbFrom (hu : UnarySettled levels) (floor : Nat) (left : Expr) (n : Nat)
    (us : List Token) (hfloor : floor ≤ n) (hus : Sentence (.level n) levels us)
    (ts : List Token) (hbelow : BindsBelow (n + 1) ts) :
    Settles (fun stop ts => plain (climbFrom (parseUnary stop levels) floor left ts))
      (fun vs => Sentence (.level floor) levels (us ++ vs)) stop ts := by
  have hleft : Sentence (.level floor) levels (us ++ []) := by
    obtain ⟨d, e, hd, he⟩ := hus
    rw [List.append_nil]
    exact ⟨d, e, hd, he.loosen hfloor⟩
  by_cases hstop : BindsBelow floor ts
  · refine (settles_give (v := left) hleft).congr fun stop' ts' h => ?_
    rw [bindsBelow_iff, h.kind, ← bindsBelow_iff] at hstop
    exact climbFrom_stopped hstop
  cases ts with
  | nil => exact absurd trivial hstop
  | cons t rest =>
    obtain ⟨op, b, hop, hb⟩ : ∃ op b, binaryOperator? t.kind = some (op, b) ∧ ¬b < floor := by
      simpa [BindsBelow] using hstop
    have hb9 := binding_le hop
    have hbn : b < n + 1 := hbelow op b hop
    -- With its right operand from the level above `b`, the whole comes from the level `b`.
    have hbinary : ∀ vs, Sentence (.level (b + 1)) levels vs →
        Sentence (.level b) levels (us ++ t :: vs) := by
      rintro vs ⟨d', r, hd', hr⟩
      obtain ⟨d, l, hd, hl⟩ := hus
      exact ⟨max d d', _, by omega,
        .binary (hl.loosen (by omega)) (binaryOperator?_eq_some_iff.mp hop) hr⟩
    refine Settles.token ?_ fun stop' t' ts' halike _ =>
      (plain_climbFrom (halike.kind ▸ hop) hb).trans
        (by rw [← halike.comparison (by rw [hop]; rfl)])
    refine (settles_climb hu (b + 1) (by omega) rest).andThen (fun vs hvs => ⟨[], ?_⟩) ?_
    · obtain ⟨d, e, hd, he⟩ := hbinary vs hvs
      rw [List.append_nil]
      exact ⟨d, e, hd, he.loosen (by omega)⟩
    · intro right vs rest₁ hright hvs
      obtain ⟨hlt, hok⟩ := plain_eq_ok hright
      have hshort : rest₁.length < (t :: rest).length := Nat.lt_succ_of_lt hlt
      have hnext : BindsBelow (b + 1) rest₁ :=
        ((climb_explained (parseUnary_explained levels)).1 (b + 1) rest (by omega) hok).2
      refine (settles_climbFrom hu floor _ b (us ++ t :: vs) (by omega) (hbinary vs hvs)
        rest₁ hnext).mono fun ws hws => ?_
      rwa [List.append_assoc, List.cons_append] at hws
termination_by ts.length

end

theorem plain_parseUnary {ts : List Token} : plain (parseUnary stop (levels + 1) ts) =
    ifNext .minus (Reading.map .negate fun stop ts => plain (parseUnary stop levels ts))
      (fun stop ts => plain (parsePrimary stop (climb (parseUnary stop levels) 1) ts))
      stop ts := by
  rw [parseUnary, ifNext]
  cases accept .minus ts with
  | none => rfl
  | some r => exact plain_bind rfl fun _ _ _ => rfl

theorem settles_unary (levels : Nat) : UnarySettled levels := by
  induction levels with
  | zero =>
    intro stop ts
    exact (settles_fail .shallowNesting fun h => absurd rfl h).congr fun _ _ _ => rfl
  | succ levels ih =>
    intro stop ts
    have hx : ExpressionSettled levels fun stop => climb (parseUnary stop levels) 1 :=
      fun {stop ts} => settles_climb ih 1 (by omega) ts
    refine Settles.congr ?_ fun _ _ _ => plain_parseUnary
    refine settles_ifNext (by decide) (fun {t rest} _ ht => ih.map.mono ?_)
      ((settles_primary hx).mono ?_)
    · rintro us ⟨d, e, hd, he⟩
      exact ⟨d + 1, _, by omega, .negated ht he⟩
    · rintro us ⟨d, e, hd, he⟩
      exact ⟨d, e, hd, .unsigned he⟩

theorem settles_expression (levels : Nat) :
    ExpressionSettled levels fun stop => parseExpression stop levels :=
  fun {_ ts} => settles_climb (settles_unary levels) 1 (by omega) ts

/-- The whole input: an expression with nothing behind it. -/
def wholeInput : Reading Expr :=
  Reading.andThen (fun stop ts => plain (parseExpression stop maxLevels ts)) fun e stop rest =>
    if nextKind rest = .eof then give e stop rest else fail .endOfInput stop rest

theorem parseTokens_eq (ts : List Token) :
    parseTokens ts = (wholeInput (endOf ts) ts).map Prod.fst := by
  rw [parseTokens, wholeInput, Reading.andThen]
  cases parseExpression (endOf ts) maxLevels ts with
  | error e => rfl
  | ok a =>
    obtain ⟨e, rest, hr⟩ := a
    simp only [ok_bind, plain, Except.map, nextToken_kind]
    split <;> rfl

theorem settles_wholeInput {ts : List Token} :
    Settles wholeInput (Sentence (.level 1) maxLevels) stop ts := by
  have hnil : ∀ us, Sentence (.level 1) maxLevels us →
      Sentence (.level 1) maxLevels (us ++ []) :=
    fun us hus => (List.append_nil us).symm ▸ hus
  refine (settles_expression maxLevels).andThen (fun us hus => ⟨[], hnil us hus⟩)
    fun {e us rest} _ hus => ?_
  by_cases hend : nextKind rest = .eof
  · exact (settles_give (hnil us hus)).congr fun _ _ h => if_pos (h.kind ▸ hend)
  · refine (settles_fail .endOfInput fun _ => ⟨[], hnil us hus⟩).congr fun _ _ h => ?_
    exact if_neg (h.kind ▸ hend)

end Climbing

end NodePath
