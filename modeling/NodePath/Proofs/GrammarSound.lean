import NodePath.Proofs.Grammar

/-!
# What the reader returns is derived

Each reader is taken apart at a successful result: the tokens it took derive the value it returned,
with a nesting below the levels that were left. The readers of steps, predicates and sources are
taken with any reader of expressions that has this property, so that the only induction over
nesting is the one for `parseUnary`. The climbing loop keeps what its left operand has been read
as, together with the fact that the next operator binds no more tightly than that.
-/

namespace NodePath

open NodePath.Text NodePath.Number

/-- A list of tokens begins with a derivation of a value, of a nesting below a limit. -/
def Explains (s : Symbol) (limit : Nat) (ts : List Token) (v : s.Value)
    (rest : List Token) : Prop :=
  ∃ d us, d < limit ∧ ts = us ++ rest ∧ Derives s d us v

theorem bind_ok {ε α β : Type} {x : Except ε α} {f : α → Except ε β} {b : β}
    (h : x >>= f = .ok b) : ∃ a, x = .ok a ∧ f a = .ok b := by
  cases x with
  | error e => cases h
  | ok a => exact ⟨a, rfl, h⟩

theorem accept_some {kind : Kind} {ts rest : List Token} {h : rest.length < ts.length}
    (he : accept kind ts = some ⟨rest, h⟩) : ∃ t, t.kind = kind ∧ ts = t :: rest := by
  cases ts with
  | nil => cases he
  | cons t tail =>
    simp only [accept] at he
    split at he
    · next hk =>
      cases he
      exact ⟨t, hk, rfl⟩
    · cases he

theorem acceptSeparator_some {separator : Separator} {ts rest : List Token}
    {h : rest.length < ts.length} (he : acceptSeparator ts = some (separator, ⟨rest, h⟩)) :
    ∃ t, separatorOf t.kind = some separator ∧ ts = t :: rest := by
  cases ts with
  | nil => cases he
  | cons t tail =>
    simp only [acceptSeparator, Option.map_eq_some_iff] at he
    obtain ⟨s, hs, he⟩ := he
    cases he
    exact ⟨t, hs, rfl⟩

theorem expect_ok {stop : Int} {kind : Kind} {expected : Expectation} {ts rest : List Token}
    {t : Token} {h : rest.length < ts.length}
    (he : expect stop kind expected ts = .ok (t, ⟨rest, h⟩)) : t.kind = kind ∧ ts = t :: rest := by
  cases ts with
  | nil => cases he
  | cons u tail =>
    simp only [expect] at he
    split at he
    · next hk =>
      cases he
      exact ⟨hk, rfl⟩
    · cases he

theorem acceptAnyIn_some {ts rest : List Token} {space : Bytes} {h : rest.length < ts.length}
    (he : acceptAnyIn ts = some (space, ⟨rest, h⟩)) :
    ∃ t c s, t.kind = .name ∧ c.kind = .colon ∧ s.kind = .star ∧ space = t.lexeme ∧
      ts = t :: c :: s :: rest := by
  unfold acceptAnyIn at he
  split at he
  · split at he
    · next t c s tail hk =>
      cases he
      exact ⟨t, c, s, hk.1, hk.2.1, hk.2.2, rfl, rfl⟩
    · cases he
  · cases he

/-- Names and tests hold no primaries, so they derive at nesting zero. -/
theorem parseName_explained {stop : Int} {ts rest : List Token} {q : QName}
    {h : rest.length < ts.length} (he : parseName stop ts = .ok (q, ⟨rest, h⟩)) :
    ∃ us, ts = us ++ rest ∧ Derives .name 0 us q := by
  obtain ⟨⟨t, ts₁, h₁⟩, ht, he⟩ := bind_ok he
  obtain ⟨hk, rfl⟩ := expect_ok ht
  dsimp only at he
  split at he
  · cases he
    exact ⟨[t], rfl, .bareName hk⟩
  · next ts₂ h₂ hc =>
    obtain ⟨c, hck, rfl⟩ := accept_some hc
    obtain ⟨⟨u, ts₃, h₃⟩, hu, he⟩ := bind_ok he
    obtain ⟨huk, rfl⟩ := expect_ok hu
    cases he
    exact ⟨[t, c, u], rfl, .spacedName hk hck huk⟩

theorem parseTypeArgument_split (ts : List Token) :
    (ts = (parseTypeArgument ts).2.1 ∧ (parseTypeArgument ts).1 = none) ∨
    ∃ a, a.kind = .stringLiteral ∧ ts = a :: (parseTypeArgument ts).2.1 ∧
      (parseTypeArgument ts).1 = some a.lexeme := by
  cases ts with
  | nil => exact .inl ⟨rfl, rfl⟩
  | cons a tail =>
    by_cases hk : a.kind = .stringLiteral
    · exact .inr ⟨a, hk, by simp [parseTypeArgument, hk], by simp [parseTypeArgument, hk]⟩
    · exact .inl ⟨by simp [parseTypeArgument, hk], by simp [parseTypeArgument, hk]⟩

theorem parseTest_explained {stop : Int} {ts rest : List Token} {v : Test}
    {h : rest.length < ts.length} (he : parseTest stop ts = .ok (v, ⟨rest, h⟩)) :
    ∃ us, ts = us ++ rest ∧ Derives .test 0 us v := by
  cases ts with
  | nil => cases he
  | cons t tail =>
    simp only [parseTest] at he
    split at he
    · next hk =>
      cases he
      exact ⟨[t], rfl, .anyName hk⟩
    · next hk =>
      split at he
      · next space rest' ha =>
        cases he
        obtain ⟨t', c, s, ht, hc, hs, rfl, heq⟩ := acceptAnyIn_some ha
        exact ⟨[t', c, s], heq, .anyNameIn ht hc hs⟩
      · obtain ⟨⟨q, rest', hr⟩, hq, he⟩ := bind_ok he
        cases he
        obtain ⟨us, heq, hd⟩ := parseName_explained hq
        exact ⟨us, heq, .oneName hd⟩
    · next hk =>
      obtain ⟨⟨l, ts₁, h₁⟩, hl, he⟩ := bind_ok he
      obtain ⟨hlk, rfl⟩ := expect_ok hl
      dsimp only at he
      obtain ⟨⟨r, ts₃, h₃⟩, hr, he⟩ := bind_ok he
      obtain ⟨hrk, hts⟩ := expect_ok hr
      cases he
      rcases parseTypeArgument_split ts₁ with ⟨heq, harg⟩ | ⟨a, hak, heq, harg⟩
      · have htail : ts₁ = r :: ts₃ := heq.trans hts
        rw [harg]
        exact ⟨[t, l, r], congrArg (t :: l :: ·) htail, .typeTest hk hlk hrk⟩
      · have htail : ts₁ = a :: r :: ts₃ := heq.trans (congrArg (a :: ·) hts)
        rw [harg]
        exact ⟨[t, l, a, r], congrArg (t :: l :: ·) htail, .typeTestOf hk hlk hak hrk⟩
    · cases he

section Readers

variable {stop : Int} {levels : Nat} {expression : Parser Expr}

/-- A reader of expressions returns only what the loosest level derives. -/
def ExpressionExplained (levels : Nat) (expression : Parser Expr) : Prop :=
  ∀ {ts rest : List Token} {e : Expr} {h : rest.length < ts.length},
    expression ts = .ok (e, ⟨rest, h⟩) → Explains (.level 1) levels ts e rest

theorem parsePredicates_explained (hx : ExpressionExplained levels expression) (ts : List Token) :
    ∀ {ps : List Expr} {rest : List Token} {h : rest.length ≤ ts.length},
      parsePredicates stop expression ts = .ok (ps, ⟨rest, h⟩) →
      Explains .predicates (levels + 1) ts ps rest := by
  induction ts using parsePredicates.induct with
  | case1 ts hn =>
    intro ps rest h he
    rw [parsePredicates, hn] at he
    cases he
    exact ⟨0, [], by omega, rfl, .noPredicates⟩
  | case2 ts ts₁ h₁ hs ih =>
    intro ps rest h he
    rw [parsePredicates, hs] at he
    obtain ⟨l, hl, rfl⟩ := accept_some hs
    obtain ⟨⟨e, ts₂, h₂⟩, hfirst, he⟩ := bind_ok he
    obtain ⟨⟨r, ts₃, h₃⟩, hclose, he⟩ := bind_ok he
    obtain ⟨⟨others, ts₄, h₄⟩, hothers, he⟩ := bind_ok he
    cases he
    obtain ⟨d, us, hd, rfl, hde⟩ := hx hfirst
    obtain ⟨hr, rfl⟩ := expect_ok hclose
    obtain ⟨d', vs, hd', rfl, hdo⟩ := ih _ h₂ _ h₃ hothers
    exact ⟨max (d + 1) d', l :: (us ++ r :: vs), by omega, by simp, .predicate hl hde hr hdo⟩

theorem parseTestStep_explained (hx : ExpressionExplained levels expression) {axis : Option Axis}
    {ts rest : List Token} {s : Step} {h : rest.length < ts.length}
    (he : parseTestStep stop expression axis ts = .ok (s, ⟨rest, h⟩)) :
    ∃ d us vs test ps, d < levels + 1 ∧ ts = us ++ vs ++ rest ∧ s = .mk axis test ps ∧
      Derives .test 0 us test ∧ Derives .predicates d vs ps := by
  obtain ⟨⟨test, ts₁, h₁⟩, htest, he⟩ := bind_ok he
  obtain ⟨⟨ps, ts₂, h₂⟩, hps, he⟩ := bind_ok he
  cases he
  obtain ⟨us, rfl, hdt⟩ := parseTest_explained htest
  obtain ⟨d, vs, hd, rfl, hdp⟩ := parsePredicates_explained hx _ hps
  exact ⟨d, us, vs, test, ps, hd, by simp, rfl, hdt, hdp⟩

theorem parseStep_explained (hx : ExpressionExplained levels expression)
    {ts rest : List Token} {s : Step} {h : rest.length < ts.length}
    (he : parseStep stop expression ts = .ok (s, ⟨rest, h⟩)) :
    Explains .step (levels + 1) ts s rest := by
  have plain : ∀ {ts rest : List Token} {s : Step} {h : rest.length < ts.length},
      parseTestStep stop expression none ts = .ok (s, ⟨rest, h⟩) →
      Explains .step (levels + 1) ts s rest := by
    intro ts rest s h he
    obtain ⟨d, us, vs, test, ps, hd, rfl, rfl, hdt, hdp⟩ := parseTestStep_explained hx he
    exact ⟨d, us ++ vs, hd, rfl, .plainStep hdt hdp⟩
  cases ts with
  | nil => exact plain he
  | cons t tail =>
    simp only [parseStep] at he
    split at he
    · next hk =>
      cases he
      exact ⟨0, [t], by omega, rfl, .selfStep hk⟩
    · next hk =>
      cases he
      exact ⟨0, [t], by omega, rfl, .parentStep hk⟩
    · next hk =>
      obtain ⟨⟨c, ts₁, h₁⟩, hc, he⟩ := bind_ok he
      obtain ⟨⟨s', ts₂, h₂⟩, hs, he⟩ := bind_ok he
      cases he
      obtain ⟨hck, rfl⟩ := expect_ok hc
      obtain ⟨d, us, vs, test, ps, hd, rfl, rfl, hdt, hdp⟩ := parseTestStep_explained hx hs
      exact ⟨d, t :: c :: (us ++ vs), hd, by simp, .axisStep hk hck hdt hdp⟩
    · next hk =>
      obtain ⟨⟨s', ts₁, h₁⟩, hs, he⟩ := bind_ok he
      cases he
      obtain ⟨d, us, vs, test, ps, hd, rfl, rfl, hdt, hdp⟩ := parseTestStep_explained hx hs
      exact ⟨d, t :: (us ++ vs), hd, by simp, .attributeStep hk hdt hdp⟩
    · exact plain he

theorem parseFurtherSteps_explained (hx : ExpressionExplained levels expression)
    (ts : List Token) :
    ∀ {p : Path} {rest : List Token} {h : rest.length ≤ ts.length},
      parseFurtherSteps stop expression ts = .ok (p, ⟨rest, h⟩) →
      Explains .furtherSteps (levels + 1) ts p rest := by
  induction ts using parseFurtherSteps.induct with
  | case1 ts hn =>
    intro p rest h he
    rw [parseFurtherSteps, hn] at he
    cases he
    exact ⟨0, [], by omega, rfl, .noFurtherSteps⟩
  | case2 ts separator ts₁ h₁ hs ih =>
    intro p rest h he
    rw [parseFurtherSteps, hs] at he
    obtain ⟨t, ht, rfl⟩ := acceptSeparator_some hs
    obtain ⟨⟨s, ts₂, h₂⟩, hstep, he⟩ := bind_ok he
    obtain ⟨⟨others, ts₃, h₃⟩, hothers, he⟩ := bind_ok he
    cases he
    obtain ⟨d, us, hd, rfl, hds⟩ := parseStep_explained hx hstep
    obtain ⟨d', vs, hd', rfl, hdo⟩ := ih _ h₂ hothers
    exact ⟨max d d', t :: (us ++ vs), by omega, by simp, .furtherStep ht hds hdo⟩

theorem parsePath_explained (hx : ExpressionExplained levels expression)
    {ts rest : List Token} {p : Path} {h : rest.length < ts.length}
    (he : parsePath stop expression ts = .ok (p, ⟨rest, h⟩)) :
    Explains .path (levels + 1) ts p rest := by
  obtain ⟨⟨s, ts₁, h₁⟩, hstep, he⟩ := bind_ok he
  obtain ⟨⟨others, ts₂, h₂⟩, hothers, he⟩ := bind_ok he
  cases he
  obtain ⟨d, us, hd, rfl, hds⟩ := parseStep_explained hx hstep
  obtain ⟨d', vs, hd', rfl, hdo⟩ := parseFurtherSteps_explained hx _ hothers
  exact ⟨max d d', us ++ vs, by omega, by simp, .steps hds hdo⟩

theorem parseArguments_explained (hx : ExpressionExplained levels expression) (ts : List Token) :
    ∀ {es : List Expr} {rest : List Token} {h : rest.length < ts.length},
      parseArguments expression ts = .ok (es, ⟨rest, h⟩) →
      Explains .arguments (levels + 1) ts es rest := by
  induction ts using parseArguments.induct with
  | case1 ts ih =>
    intro es rest h he
    rw [parseArguments] at he
    obtain ⟨⟨e, ts₁, h₁⟩, hfirst, he⟩ := bind_ok he
    obtain ⟨d, us, hd, rfl, hde⟩ := hx hfirst
    dsimp only at he
    split at he
    · cases he
      exact ⟨d + 1, us, by omega, rfl, .lastArgument hde⟩
    · next ts₂ h₂ hc =>
      obtain ⟨c, hck, rfl⟩ := accept_some hc
      obtain ⟨⟨others, ts₃, h₃⟩, hothers, he⟩ := bind_ok he
      cases he
      obtain ⟨d', vs, hd', rfl, hdo⟩ := ih _ h₁ _ h₂ hothers
      exact ⟨max (d + 1) d', us ++ c :: vs, by omega, by simp, .argument hde hck hdo⟩

theorem parseCall_explained (hx : ExpressionExplained levels expression) {f : Token}
    (hf : f.kind = .functionName) {ts rest : List Token} {e : Expr} {h : rest.length < ts.length}
    (he : parseCall stop expression f.lexeme ts = .ok (e, ⟨rest, h⟩)) :
    Explains .source (levels + 1) (f :: ts) e rest := by
  obtain ⟨⟨l, ts₁, h₁⟩, hl, he⟩ := bind_ok he
  obtain ⟨hlk, rfl⟩ := expect_ok hl
  dsimp only at he
  split at he
  · next ts₂ h₂ hr =>
    obtain ⟨r, hrk, rfl⟩ := accept_some hr
    cases he
    exact ⟨0, [f, l, r], by omega, rfl, .emptyCall hf hlk hrk⟩
  · obtain ⟨⟨es, ts₂, h₂⟩, hargs, he⟩ := bind_ok he
    obtain ⟨⟨r, ts₃, h₃⟩, hr, he⟩ := bind_ok he
    cases he
    obtain ⟨d, us, hd, rfl, hda⟩ := parseArguments_explained hx _ hargs
    obtain ⟨hrk, rfl⟩ := expect_ok hr
    exact ⟨d, f :: l :: (us ++ [r]), hd, by simp, .call hf hlk hda hrk⟩

theorem parseTruth_explained {t : Token} (value : Bool) (ht : t.kind = truthWord value)
    {ts rest : List Token} {e : Expr} {h : rest.length ≤ ts.length}
    (he : parseTruth stop value ts = .ok (e, ⟨rest, h⟩)) :
    Explains .source (levels + 1) (t :: ts) e rest := by
  unfold parseTruth at he
  split at he
  · cases he
    exact ⟨0, [t], by omega, rfl, .truth ht⟩
  · next ts₁ h₁ hl =>
    obtain ⟨l, hlk, rfl⟩ := accept_some hl
    obtain ⟨⟨r, ts₂, h₂⟩, hr, he⟩ := bind_ok he
    obtain ⟨hrk, rfl⟩ := expect_ok hr
    cases he
    exact ⟨0, [t, l, r], by omega, rfl, .builtinCall ht hlk hrk⟩

theorem parseSource_explained (hx : ExpressionExplained levels expression)
    {ts rest : List Token} {e : Expr} {h : rest.length < ts.length}
    (he : parseSource stop expression ts = .ok (e, ⟨rest, h⟩)) :
    Explains .source (levels + 1) ts e rest := by
  cases ts with
  | nil => cases he
  | cons t tail =>
    simp only [parseSource] at he
    split at he
    · next hk =>
      cases he
      exact ⟨0, [t], by omega, rfl, .literal hk⟩
    · next hk =>
      split at he
      · cases he
      · next i hi =>
        cases he
        exact ⟨0, [t], by omega, rfl, .integer hk hi⟩
    · next hk =>
      split at he
      · cases he
      · next x hv =>
        cases he
        exact ⟨0, [t], by omega, rfl, .float hk hv⟩
    · next hk =>
      obtain ⟨⟨e', ts₁, h₁⟩, ht, he⟩ := bind_ok he
      cases he
      exact parseTruth_explained true hk ht
    · next hk =>
      obtain ⟨⟨e', ts₁, h₁⟩, ht, he⟩ := bind_ok he
      cases he
      exact parseTruth_explained false hk ht
    · next hk =>
      obtain ⟨⟨q, ts₁, h₁⟩, hq, he⟩ := bind_ok he
      cases he
      obtain ⟨us, rfl, hdq⟩ := parseName_explained hq
      exact ⟨0, t :: us, by omega, rfl, .reference hk hdq⟩
    · next hk =>
      obtain ⟨⟨e', ts₁, h₁⟩, hc, he⟩ := bind_ok he
      cases he
      exact parseCall_explained hx hk hc
    · next hk =>
      obtain ⟨⟨e', ts₁, h₁⟩, hin, he⟩ := bind_ok he
      obtain ⟨⟨r, ts₂, h₂⟩, hr, he⟩ := bind_ok he
      cases he
      obtain ⟨d, us, hd, rfl, hde⟩ := hx hin
      obtain ⟨hrk, rfl⟩ := expect_ok hr
      exact ⟨d + 1, t :: (us ++ [r]), by omega, by simp, .group hk hde hrk⟩
    · cases he

theorem parseFiltered_explained (hx : ExpressionExplained levels expression)
    {ts rest : List Token} {e : Expr} {h : rest.length < ts.length}
    (he : parseFiltered stop expression ts = .ok (e, ⟨rest, h⟩)) :
    Explains .primary (levels + 1) ts e rest := by
  obtain ⟨⟨source, ts₁, h₁⟩, hsource, he⟩ := bind_ok he
  obtain ⟨⟨ps, ts₂, h₂⟩, hps, he⟩ := bind_ok he
  obtain ⟨d, us, hd, rfl, hds⟩ := parseSource_explained hx hsource
  obtain ⟨d', vs, hd', rfl, hdp⟩ := parsePredicates_explained hx _ hps
  dsimp only at he
  split at he
  · cases he
    exact ⟨max d d', us ++ vs, by omega, by simp, .filtered hds hdp⟩
  · next separator ts₃ h₃ hs =>
    obtain ⟨t, ht, rfl⟩ := acceptSeparator_some hs
    obtain ⟨⟨p, ts₄, h₄⟩, hpath, he⟩ := bind_ok he
    cases he
    obtain ⟨d'', ws, hd'', rfl, hdpath⟩ := parsePath_explained hx hpath
    exact ⟨max d (max d' d''), us ++ (vs ++ t :: ws), by omega, by simp,
      .continued hds hdp ht hdpath⟩

theorem parsePrimary_explained (hx : ExpressionExplained levels expression)
    {ts rest : List Token} {e : Expr} {h : rest.length < ts.length}
    (he : parsePrimary stop expression ts = .ok (e, ⟨rest, h⟩)) :
    Explains .primary (levels + 1) ts e rest := by
  cases ts with
  | nil => exact parseFiltered_explained hx he
  | cons t tail =>
    simp only [parsePrimary] at he
    split at he
    · next hk =>
      split at he
      · obtain ⟨⟨p, ts₁, h₁⟩, hpath, he⟩ := bind_ok he
        cases he
        obtain ⟨d, us, hd, rfl, hdp⟩ := parsePath_explained hx hpath
        exact ⟨d, t :: us, hd, rfl, .absolute hk hdp⟩
      · cases he
        exact ⟨0, [t], by omega, rfl, .root hk⟩
    · split at he
      · next hk =>
        obtain ⟨⟨p, ts₁, h₁⟩, hpath, he⟩ := bind_ok he
        cases he
        obtain ⟨d, us, hd, rfl, hdp⟩ := parsePath_explained hx hpath
        exact ⟨d, t :: us, hd, rfl, .everywhere hk hdp⟩
      · split at he
        · obtain ⟨⟨p, ts₁, h₁⟩, hpath, he⟩ := bind_ok he
          cases he
          obtain ⟨d, us, hd, heq, hdp⟩ := parsePath_explained hx hpath
          exact ⟨d, us, hd, heq, .relative hdp⟩
        · exact parseFiltered_explained hx he

end Readers

theorem binaryOperator?_eq_some_iff {kind : Kind} {op : Operator} {n : Nat} :
    binaryOperator? kind = some (op, n) ↔ operatorAt n = some (kind, op) := by
  constructor
  · intro h
    cases kind <;> simp only [binaryOperator?, Option.some.injEq, Prod.mk.injEq, reduceCtorEq] at h
    all_goals
      obtain ⟨rfl, rfl⟩ := h
      rfl
  · intro h
    unfold operatorAt at h
    split at h
    all_goals
      cases h
      try rfl

theorem binding_le {kind : Kind} {op : Operator} {n : Nat}
    (h : binaryOperator? kind = some (op, n)) : n ≤ 9 := by
  cases kind <;> simp only [binaryOperator?, Option.some.injEq, Prod.mk.injEq, reduceCtorEq] at h
  all_goals omega

/-- What a tighter level derives, every looser level derives. -/
theorem Derives.loosen {n m d : Nat} {ts : List Token} {e : Expr} (hnm : n ≤ m)
    (h : Derives (.level m) d ts e) : Derives (.level n) d ts e := by
  induction hnm with
  | refl => exact h
  | step _ ih => exact ih (.tighter h)

/-- An operator that comes next binds less tightly than a bound. -/
def BindsBelow (bound : Nat) : List Token → Prop
  | [] => True
  | t :: _ => ∀ op n, binaryOperator? t.kind = some (op, n) → n < bound

theorem BindsBelow.mono {bound bound' : Nat} {ts : List Token} (h : BindsBelow bound ts)
    (hle : bound ≤ bound') : BindsBelow bound' ts := by
  cases ts with
  | nil => trivial
  | cons t tail => exact fun op n hop => Nat.lt_of_lt_of_le (h op n hop) hle

theorem bindsBelow_of_gt {bound : Nat} (hb : 9 < bound) (ts : List Token) :
    BindsBelow bound ts := by
  cases ts with
  | nil => trivial
  | cons t tail =>
    intro op n h
    have := binding_le h
    omega

/-- The climbing loop returns what the level of its floor derives, and stops before an operator that
binds less tightly. Inside the loop the left operand is known to come from some level `n`, and the
next operator to bind no more tightly than `n`; an operator of binding `b` brings `n` down to
`b`. -/
theorem climb_explained {levels : Nat} {unary : Parser Expr}
    (hu : ∀ {ts rest : List Token} {e : Expr} {h : rest.length < ts.length},
      unary ts = .ok (e, ⟨rest, h⟩) → Explains .unary levels ts e rest) :
    (∀ (floor : Nat) (ts : List Token), floor ≤ 10 →
      ∀ {e : Expr} {rest : List Token} {h : rest.length < ts.length},
        climb unary floor ts = .ok (e, ⟨rest, h⟩) →
        Explains (.level floor) levels ts e rest ∧ BindsBelow floor rest) ∧
    (∀ (floor : Nat) (left : Expr) (ts : List Token) (n d : Nat) (us : List Token),
      floor ≤ n → n ≤ 10 → BindsBelow (n + 1) ts → d < levels → Derives (.level n) d us left →
      ∀ {e : Expr} {rest : List Token} {h : rest.length ≤ ts.length},
        climbFrom unary floor left ts = .ok (e, ⟨rest, h⟩) →
        Explains (.level floor) levels (us ++ ts) e rest ∧ BindsBelow floor rest) := by
  have done : ∀ (floor : Nat) (left : Expr) (ts : List Token) (n d : Nat) (us : List Token),
      floor ≤ n → d < levels → Derives (.level n) d us left → BindsBelow floor ts →
      Explains (.level floor) levels (us ++ ts) left ts ∧ BindsBelow floor ts := by
    intro floor left ts n d us hfn hd hl hb
    exact ⟨⟨d, us, hd, rfl, hl.loosen hfn⟩, hb⟩
  apply climb.mutual_induct
  case case1 =>
    intro floor ts ih hf e rest h he
    rw [climb] at he
    obtain ⟨⟨left, ts₁, h₁⟩, hleft, he⟩ := bind_ok he
    obtain ⟨⟨e', ts₂, h₂⟩, hfrom, he⟩ := bind_ok he
    cases he
    obtain ⟨d, us, hd, rfl, hdl⟩ := hu hleft
    exact ih left ts₁ h₁ 10 d us hf (Nat.le_refl _) (bindsBelow_of_gt (by omega) ts₁) hd
      (.operand hdl) hfrom
  case case2 =>
    intro floor left n d us hfn _ _ hd hl e rest h he
    rw [climbFrom] at he
    cases he
    exact done floor left [] n d us hfn hd hl trivial
  case case3 =>
    intro floor left t tail hop n d us hfn _ _ hd hl e rest h he
    rw [climbFrom, hop] at he
    cases he
    refine done floor left (t :: tail) n d us hfn hd hl ?_
    intro op b hb
    rw [hop] at hb
    cases hb
  case case4 =>
    intro floor left t tail op b hop hlt n d us hfn _ _ hd hl e rest h he
    rw [climbFrom, hop] at he
    dsimp only at he
    rw [if_pos hlt] at he
    cases he
    refine done floor left (t :: tail) n d us hfn hd hl ?_
    intro op' b' hb
    rw [hop] at hb
    cases hb
    exact hlt
  case case5 =>
    intro floor left t tail op b hop hge ihr ihf n d us hfn hn hbn hd hl e rest h he
    rw [climbFrom, hop] at he
    dsimp only at he
    rw [if_neg hge] at he
    obtain ⟨⟨right, ts₁, h₁⟩, hright, he⟩ := bind_ok he
    obtain ⟨⟨e', ts₂, h₂⟩, hfrom, he⟩ := bind_ok he
    cases he
    have hb9 := binding_le hop
    have hbn' : b < n + 1 := hbn op b hop
    obtain ⟨⟨d', vs, hd', rfl, hdr⟩, hbelow⟩ := ihr (by omega) hright
    -- The right operand comes from the level above `b`, so what follows it binds at most at `b`.
    have hbin := Derives.binary (hl.loosen (by omega : b ≤ n))
      (binaryOperator?_eq_some_iff.mp hop) hdr
    have hall := ihf right ts₁ h₁ b (max d d') (us ++ t :: vs) (by omega) (by omega) hbelow
      (by omega) hbin hfrom
    simpa using hall

theorem parseUnary_explained {stop : Int} (levels : Nat) :
    ∀ {ts rest : List Token} {e : Expr} {h : rest.length < ts.length},
      parseUnary stop levels ts = .ok (e, ⟨rest, h⟩) → Explains .unary levels ts e rest := by
  induction levels with
  | zero =>
    intro ts rest e h he
    cases he
  | succ levels ih =>
    intro ts rest e h he
    rw [parseUnary] at he
    split at he
    · next ts₁ h₁ hm =>
      obtain ⟨t, ht, rfl⟩ := accept_some hm
      obtain ⟨⟨operand, ts₂, h₂⟩, hop, he⟩ := bind_ok he
      cases he
      obtain ⟨d, us, hd, rfl, hdo⟩ := ih hop
      exact ⟨d + 1, t :: us, by omega, rfl, .negated ht hdo⟩
    · have hx : ExpressionExplained levels (climb (parseUnary stop levels) 1) :=
        fun he => ((climb_explained ih).1 1 _ (by omega) he).1
      obtain ⟨d, us, hd, heq, hdp⟩ := parsePrimary_explained hx he
      exact ⟨d, us, hd, heq, .unsigned hdp⟩

theorem parseExpression_explained {stop : Int} {levels : Nat} {ts rest : List Token} {e : Expr}
    {h : rest.length < ts.length} (he : parseExpression stop levels ts = .ok (e, ⟨rest, h⟩)) :
    Explains (.level 1) levels ts e rest :=
  ((climb_explained (parseUnary_explained levels)).1 1 ts (by omega) he).1

end NodePath
