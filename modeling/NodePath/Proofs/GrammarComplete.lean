import NodePath.Proofs.GrammarSound

/-!
# What is derived is read

Where a derivation of the grammar stands in front of tokens that cannot extend it, the reader takes
exactly the derivation: it returns the derived value when the nesting fits into the levels that are
left, and refuses the tokens for their nesting when it does not. No other refusal is possible. The
greedy choices of the reader are right because of two facts about neighbouring tokens: what a
derivation can begin with, and what cannot follow it.
-/

namespace NodePath

open NodePath.Text NodePath.Number

/-- The kind of the next token; the end of the input counts as `eof`. -/
def nextKind : List Token → Kind
  | [] => .eof
  | t :: _ => t.kind

theorem nextToken_kind (stop : Int) (ts : List Token) : (nextToken stop ts).kind = nextKind ts := by
  cases ts <;> rfl

/-- The kinds that a source can begin with. -/
def Kind.startsSource : Kind → Bool
  | .stringLiteral | .integer | .float | .trueWord | .falseWord | .dollar | .functionName
  | .leftParen => true
  | _ => false

def Kind.startsPrimary (k : Kind) : Bool :=
  k = .slash || k = .doubleSlash || k.startsStep || k.startsSource

/-- What a derivation begins with. Lists of predicates and of further steps may be empty. -/
def Symbol.Begins : Symbol → Kind → Prop
  | .name, k => k = .name
  | .test, k => k = .star ∨ k = .name ∨ k = .nodeType
  | .predicates, _ => True
  | .step, k => k.startsStep
  | .furtherSteps, _ => True
  | .path, k => k.startsStep
  | .arguments, k => k = .minus ∨ k.startsPrimary
  | .source, k => k.startsSource
  | .primary, k => k.startsPrimary
  | .unary, k => k = .minus ∨ k.startsPrimary
  | .level _, k => k = .minus ∨ k.startsPrimary

theorem nextKind_append {ts rest : List Token} (h : ts ≠ []) :
    nextKind (ts ++ rest) = nextKind ts := by
  cases ts with
  | nil => exact absurd rfl h
  | cons t tail => rfl

theorem separatorOf_cases {kind : Kind} {separator : Separator}
    (h : separatorOf kind = some separator) : kind = .slash ∨ kind = .doubleSlash := by
  cases kind <;> simp_all [separatorOf]

/-- Whether a symbol derives no empty list of tokens. -/
def Symbol.IsSolid : Symbol → Prop
  | .predicates => False
  | .furtherSteps => False
  | _ => True

theorem Derives.ne_nil {s : Symbol} {d : Nat} {ts : List Token} {v : s.Value}
    (h : Derives s d ts v) (hs : s.IsSolid) : ts ≠ [] := by
  induction h with
  | oneName _ ih => exact ih trivial
  | plainStep _ _ ih _ => exact fun he => ih trivial (List.append_eq_nil_iff.mp he).1
  | steps _ _ ih _ => exact fun he => ih trivial (List.append_eq_nil_iff.mp he).1
  | lastArgument _ ih => exact ih trivial
  | relative _ ih => exact ih trivial
  | filtered _ _ ih _ => exact fun he => ih trivial (List.append_eq_nil_iff.mp he).1
  | unsigned _ ih => exact ih trivial
  | operand _ ih => exact ih trivial
  | tighter _ ih => exact ih trivial
  | noPredicates => exact hs.elim
  | noFurtherSteps => exact hs.elim
  | _ => simp

theorem Derives.begins {s : Symbol} {d : Nat} {ts : List Token} {v : s.Value}
    (h : Derives s d ts v) : s.Begins (nextKind ts) := by
  induction h with
  | bareName ht => exact ht
  | spacedName ht => exact ht
  | anyName ht => exact .inl ht
  | anyNameIn ht => exact .inr (.inl ht)
  | oneName _ ih => exact .inr (.inl ih)
  | typeTest ht => exact .inr (.inr ht)
  | typeTestOf ht => exact .inr (.inr ht)
  | noPredicates => trivial
  | predicate => trivial
  | selfStep ht => simp [Symbol.Begins, nextKind, ht, Kind.startsStep]
  | parentStep ht => simp [Symbol.Begins, nextKind, ht, Kind.startsStep]
  | plainStep ht _ ih _ =>
    rw [nextKind_append (ht.ne_nil trivial)]
    rcases ih with ih | ih | ih <;> simp [Symbol.Begins, ih, Kind.startsStep]
  | axisStep ht => simp [Symbol.Begins, nextKind, ht, Kind.startsStep]
  | attributeStep ht => simp [Symbol.Begins, nextKind, ht, Kind.startsStep]
  | noFurtherSteps => trivial
  | furtherStep => trivial
  | steps hs _ ih _ =>
    rw [nextKind_append (hs.ne_nil trivial)]
    exact ih
  | lastArgument _ ih => exact ih
  | argument he _ _ ih _ =>
    rw [nextKind_append (he.ne_nil trivial)]
    exact ih
  | literal ht => simp [Symbol.Begins, nextKind, ht, Kind.startsSource]
  | integer ht => simp [Symbol.Begins, nextKind, ht, Kind.startsSource]
  | float ht => simp [Symbol.Begins, nextKind, ht, Kind.startsSource]
  | @truth t value ht =>
    cases value <;> simp [Symbol.Begins, nextKind, ht, truthWord, Kind.startsSource]
  | @builtinCall t l r value ht =>
    cases value <;> simp [Symbol.Begins, nextKind, ht, truthWord, Kind.startsSource]
  | reference ht => simp [Symbol.Begins, nextKind, ht, Kind.startsSource]
  | emptyCall ht => simp [Symbol.Begins, nextKind, ht, Kind.startsSource]
  | call ht => simp [Symbol.Begins, nextKind, ht, Kind.startsSource]
  | group ht => simp [Symbol.Begins, nextKind, ht, Kind.startsSource]
  | root ht => simp [Symbol.Begins, nextKind, ht, Kind.startsPrimary]
  | absolute ht => simp [Symbol.Begins, nextKind, ht, Kind.startsPrimary]
  | everywhere ht => simp [Symbol.Begins, nextKind, ht, Kind.startsPrimary]
  | relative _ ih =>
    have hs : Kind.startsStep _ = true := ih
    simp [Symbol.Begins, Kind.startsPrimary, hs]
  | filtered hs _ ih _ =>
    rw [nextKind_append (hs.ne_nil trivial)]
    have hs : Kind.startsSource _ = true := ih
    simp [Symbol.Begins, Kind.startsPrimary, hs]
  | continued hs _ _ _ ih _ _ =>
    rw [nextKind_append (hs.ne_nil trivial)]
    have hs : Kind.startsSource _ = true := ih
    simp [Symbol.Begins, Kind.startsPrimary, hs]
  | unsigned _ ih => exact .inr ih
  | negated ht => exact .inl ht
  | operand _ ih => exact ih
  | tighter _ ih => exact ih
  | binary hl _ _ ih _ =>
    rw [nextKind_append (hl.ne_nil trivial)]
    exact ih

theorem Derives.predicates_next {d : Nat} {ts : List Token} {ps : List Expr}
    (h : Derives .predicates d ts ps) (rest : List Token) :
    nextKind (ts ++ rest) = nextKind rest ∨ nextKind (ts ++ rest) = .leftBracket := by
  cases h with
  | noPredicates => exact .inl rfl
  | predicate hl => exact .inr hl

theorem Derives.furtherSteps_next {d : Nat} {ts : List Token} {p : Path}
    (h : Derives .furtherSteps d ts p) (rest : List Token) :
    nextKind (ts ++ rest) = nextKind rest ∨ nextKind (ts ++ rest) = .slash ∨
      nextKind (ts ++ rest) = .doubleSlash := by
  cases h with
  | noFurtherSteps => exact .inl rfl
  | furtherStep ht => exact .inr (separatorOf_cases ht)

/-- Kinds that would be taken into a primary that stands before them. -/
def Kind.extendsPrimary (k : Kind) : Bool :=
  k = .colon || k = .leftParen || k = .leftBracket || k = .slash || k = .doubleSlash || k.startsStep

/-- No operator is taken into its left operand. -/
theorem extendsPrimary_of_operator {k : Kind} {op : Operator × Nat}
    (h : binaryOperator? k = some op) : k.extendsPrimary = false := by
  revert h
  cases k <;> simp [binaryOperator?, Kind.extendsPrimary, Kind.startsStep]

/-- What may stand behind a derivation without being taken into it. -/
def Symbol.Ends : Symbol → List Token → Prop
  | .name, rest => nextKind rest ≠ .colon
  | .test, rest => nextKind rest ≠ .colon
  | .predicates, rest => nextKind rest ≠ .leftBracket
  | .step, rest => nextKind rest ≠ .colon ∧ nextKind rest ≠ .leftBracket
  | .furtherSteps, rest => (nextKind rest).extendsPrimary = false
  | .path, rest => (nextKind rest).extendsPrimary = false
  | .arguments, rest => nextKind rest = .rightParen
  | .source, rest => nextKind rest ≠ .colon ∧ nextKind rest ≠ .leftParen
  | .primary, rest => (nextKind rest).extendsPrimary = false
  | .unary, rest => (nextKind rest).extendsPrimary = false
  | .level n, rest => (nextKind rest).extendsPrimary = false ∧ BindsBelow (n + 1) rest

/-- The answer of a reader: the value and the rest when the nesting fits, else a refusal of the
nesting. -/
def Answers {α : Type} {P : List Token → Prop} (fits : Prop)
    (answer : Except SyntaxError (α × { rest : List Token // P rest })) (v : α)
    (rest : List Token) : Prop :=
  (fits ∧ ∃ h, answer = .ok (v, ⟨rest, h⟩)) ∨
    (¬fits ∧ ∃ e, answer = .error e ∧ e.expected = .shallowNesting)

namespace Answers

variable {α β : Type} {P Q : List Token → Prop} {fits fits' : Prop}

theorem congr {answer : Except SyntaxError (α × { rest : List Token // P rest })} {v : α}
    {rest : List Token} (hf : fits ↔ fits') (h : Answers fits answer v rest) :
    Answers fits' answer v rest := by
  unfold Answers at h ⊢
  rwa [← hf]

theorem ok {v : α} {rest : List Token} (hf : fits) (h : P rest) :
    Answers fits (.ok (v, ⟨rest, h⟩) : Except SyntaxError (α × { rest // P rest })) v rest :=
  .inl ⟨hf, h, rfl⟩

/-- Reading on after an answer: a refusal stays, a value is handed on. -/
theorem bind {answer : Except SyntaxError (α × { rest : List Token // P rest })}
    {f : α × { rest : List Token // P rest } →
      Except SyntaxError (β × { rest : List Token // Q rest })}
    {v : α} {w : β} {rest rest' : List Token} (h : Answers fits answer v rest)
    (further : Prop) (hfits : fits' ↔ fits ∧ further)
    (hf : ∀ hr, Answers further (f (v, ⟨rest, hr⟩)) w rest') :
    Answers fits' (answer >>= f) w rest' := by
  rcases h with ⟨hfit, hr, rfl⟩ | ⟨hfit, e, rfl, he⟩
  · exact congr ⟨fun h => hfits.mpr ⟨hfit, h⟩, fun h => (hfits.mp h).2⟩ (hf hr)
  · exact .inr ⟨fun h => hfit (hfits.mp h).1, e, rfl, he⟩

/-- The last step of a reader, which only builds its value. -/
theorem finish {answer : Except SyntaxError (α × { rest : List Token // P rest })}
    {f : α × { rest : List Token // P rest } →
      Except SyntaxError (β × { rest : List Token // Q rest })}
    {v : α} {w : β} {rest rest' : List Token} (h : Answers fits answer v rest)
    (hf : ∀ hr, ∃ hr', f (v, ⟨rest, hr⟩) = .ok (w, ⟨rest', hr'⟩)) :
    Answers fits (answer >>= f) w rest' := by
  rcases h with ⟨hfit, hr, rfl⟩ | ⟨hfit, e, rfl, he⟩
  · obtain ⟨hr', hw⟩ := hf hr
    exact .inl ⟨hfit, hr', hw⟩
  · exact .inr ⟨hfit, e, rfl, he⟩

end Answers

section Neighbours

variable {stop : Int} {expected : Expectation}

theorem ok_bind {ε α β : Type} (a : α) (f : α → Except ε β) :
    (Except.ok a >>= f) = f a := rfl

theorem accept_cons {kind : Kind} {t : Token} {rest : List Token} (h : t.kind = kind) :
    accept kind (t :: rest) = some ⟨rest, Nat.lt_succ_self _⟩ := if_pos h

theorem accept_eq_none {kind : Kind} {ts : List Token} (h : nextKind ts ≠ kind) :
    accept kind ts = none := by
  cases ts with
  | nil => rfl
  | cons t tail => exact if_neg h

theorem expect_cons {kind : Kind} {t : Token} {rest : List Token} (h : t.kind = kind) :
    expect stop kind expected (t :: rest) = .ok (t, ⟨rest, Nat.lt_succ_self _⟩) := if_pos h

theorem acceptSeparator_cons {t : Token} {rest : List Token} {separator : Separator}
    (h : separatorOf t.kind = some separator) :
    acceptSeparator (t :: rest) = some (separator, ⟨rest, Nat.lt_succ_self _⟩) := by
  simp [acceptSeparator, h]

theorem acceptSeparator_none {ts : List Token} (h : separatorOf (nextKind ts) = none) :
    acceptSeparator ts = none := by
  cases ts with
  | nil => rfl
  | cons t tail => exact Option.map_eq_none_iff.mpr h

theorem acceptSeparator_eq_none {ts : List Token} (h : (nextKind ts).extendsPrimary = false) :
    acceptSeparator ts = none := by
  cases hs : separatorOf (nextKind ts) with
  | none => exact acceptSeparator_none hs
  | some separator =>
    rcases separatorOf_cases hs with hk | hk <;> simp [hk, Kind.extendsPrimary] at h

end Neighbours

/-- The tokens are read as the value, in front of any tokens that end it. A level is read as far as
the loop that goes on behind it: whatever the loop answers from there, the climb answers as well. -/
def Symbol.Read (stop : Int) : (s : Symbol) → Nat → List Token → s.Value → Prop
  | .name, _, ts, (v : QName) =>
    ∀ rest, Symbol.name.Ends rest → Answers True (parseName stop (ts ++ rest)) v rest
  | .test, _, ts, (v : Test) =>
    ∀ rest, Symbol.test.Ends rest → Answers True (parseTest stop (ts ++ rest)) v rest
  | .predicates, d, ts, (v : List Expr) => ∀ levels rest, Symbol.predicates.Ends rest →
    Answers (d ≤ levels) (parsePredicates stop (parseExpression stop levels) (ts ++ rest)) v rest
  | .step, d, ts, (v : Step) => ∀ levels rest, Symbol.step.Ends rest →
    Answers (d ≤ levels) (parseStep stop (parseExpression stop levels) (ts ++ rest)) v rest
  | .furtherSteps, d, ts, (v : Path) => ∀ levels rest, Symbol.furtherSteps.Ends rest →
    Answers (d ≤ levels) (parseFurtherSteps stop (parseExpression stop levels) (ts ++ rest)) v rest
  | .path, d, ts, (v : Path) => ∀ levels rest, Symbol.path.Ends rest →
    Answers (d ≤ levels) (parsePath stop (parseExpression stop levels) (ts ++ rest)) v rest
  | .arguments, d, ts, (v : List Expr) => ∀ levels rest, Symbol.arguments.Ends rest →
    Answers (d ≤ levels) (parseArguments (parseExpression stop levels) (ts ++ rest)) v rest
  | .source, d, ts, (v : Expr) => ∀ levels rest, Symbol.source.Ends rest →
    Answers (d ≤ levels) (parseSource stop (parseExpression stop levels) (ts ++ rest)) v rest
  | .primary, d, ts, (v : Expr) => ∀ levels rest, Symbol.primary.Ends rest →
    Answers (d ≤ levels) (parsePrimary stop (parseExpression stop levels) (ts ++ rest)) v rest
  | .unary, d, ts, (v : Expr) => ∀ levels rest, Symbol.unary.Ends rest →
    Answers (d < levels) (parseUnary stop levels (ts ++ rest)) v rest
  | .level n, d, ts, (v : Expr) => ∀ levels floor rest fits w rest', floor ≤ n →
    (Symbol.level n).Ends rest →
    Answers fits (climbFrom (parseUnary stop levels) floor v rest) w rest' →
    Answers (d < levels ∧ fits) (climb (parseUnary stop levels) floor (ts ++ rest)) w rest'

theorem climbFrom_stops {unary : Parser Expr} {floor : Nat} {e : Expr} {rest : List Token}
    (h : BindsBelow floor rest) : Answers True (climbFrom unary floor e rest) e rest := by
  cases rest with
  | nil =>
    rw [climbFrom]
    exact .ok trivial _
  | cons t tail =>
    rw [climbFrom]
    split
    · exact .ok trivial _
    · next op n hop =>
      rw [if_pos (h op n hop)]
      exact .ok trivial _

/-- The kinds that close what an expression stands in. -/
def Kind.closes : Kind → Bool
  | .rightParen | .rightBracket | .comma | .eof => true
  | _ => false

theorem closes_ends {rest : List Token} (h : (nextKind rest).closes) :
    (nextKind rest).extendsPrimary = false ∧ BindsBelow 1 rest := by
  cases rest with
  | nil => exact ⟨rfl, trivial⟩
  | cons t tail =>
    have hk : t.kind.closes = true := h
    constructor
    · show t.kind.extendsPrimary = false
      cases hkind : t.kind <;> simp_all [Kind.closes, Kind.extendsPrimary, Kind.startsStep]
    · intro op n hop
      cases hkind : t.kind <;> simp_all [Kind.closes, binaryOperator?]

theorem Symbol.Read.closed {stop : Int} {levels d : Nat} {ts rest : List Token} {e : Expr}
    (h : (Symbol.level 1).Read stop d ts e) (hc : (nextKind rest).closes) :
    Answers (d < levels) (parseExpression stop levels (ts ++ rest)) e rest := by
  obtain ⟨hx, hb⟩ := closes_ends hc
  have hends : (Symbol.level 1).Ends rest := ⟨hx, hb.mono (by omega)⟩
  have hread := h levels 1 rest True e rest (Nat.le_refl _) hends (climbFrom_stops hb)
  exact hread.congr (and_true _ ▸ Iff.rfl)

section Productions

variable {stop : Int} {d d' : Nat} {ts us : List Token}

theorem read_bareName {t : Token} (ht : t.kind = .name) :
    Symbol.name.Read stop 0 [t] (QName.mk [] t.lexeme) := by
  intro rest hend
  rw [List.singleton_append, parseName, expect_cons ht, ok_bind]
  dsimp only
  rw [accept_eq_none hend]
  exact .ok trivial _

theorem read_spacedName {t c u : Token} (ht : t.kind = .name) (hc : c.kind = .colon)
    (hu : u.kind = .name) : Symbol.name.Read stop 0 [t, c, u] (QName.mk t.lexeme u.lexeme) := by
  intro rest _
  show Answers True (parseName stop (t :: c :: u :: rest)) _ rest
  rw [parseName, expect_cons ht, ok_bind]
  dsimp only
  rw [accept_cons hc]
  dsimp only
  rw [expect_cons hu, ok_bind]
  exact .ok trivial _

theorem read_anyName {t : Token} (ht : t.kind = .star) :
    Symbol.test.Read stop 0 [t] (Test.name .any) := by
  intro rest _
  rw [List.singleton_append, parseTest, ht]
  exact .ok trivial _

theorem read_anyNameIn {t c s : Token} (ht : t.kind = .name) (hc : c.kind = .colon)
    (hs : s.kind = .star) : Symbol.test.Read stop 0 [t, c, s] (Test.name (.anyIn t.lexeme)) := by
  intro rest _
  show Answers True (parseTest stop (t :: c :: s :: rest)) _ rest
  rw [parseTest, ht]
  dsimp only
  rw [acceptAnyIn, if_pos ⟨ht, hc, hs⟩]
  exact .ok trivial _

/-- A derived name is not the beginning of a name space with a star. -/
theorem acceptAnyIn_eq_none {q : QName} (h : Derives .name d ts q) {rest : List Token}
    (hend : Symbol.name.Ends rest) : acceptAnyIn (ts ++ rest) = none := by
  cases h with
  | bareName ht =>
    cases rest with
    | nil => rfl
    | cons c tail =>
      cases tail with
      | nil => rfl
      | cons s tail => exact if_neg fun hk => hend hk.2.1
  | spacedName _ _ hu => exact if_neg fun hk => by simp [hu] at hk

theorem read_oneName {q : QName} (h : Derives .name d ts q)
    (hread : Symbol.name.Read stop d ts q) :
    Symbol.test.Read stop 0 ts (Test.name (.qualified q)) := by
  intro rest hend
  have hnone := acceptAnyIn_eq_none h hend
  have hbegin : nextKind ts = .name := h.begins
  cases ts with
  | nil => exact absurd rfl (h.ne_nil trivial)
  | cons t tail =>
    have ht : t.kind = .name := hbegin
    rw [List.cons_append] at hnone ⊢
    rw [parseTest, ht]
    dsimp only
    rw [hnone]
    exact (hread rest hend).finish fun hr => ⟨hr, rfl⟩

theorem read_typeTest {t l r : Token} (ht : t.kind = .nodeType) (hl : l.kind = .leftParen)
    (hr : r.kind = .rightParen) :
    Symbol.test.Read stop 0 [t, l, r] (Test.nodeType t.lexeme none) := by
  intro rest _
  have harg : parseTypeArgument (r :: rest) = (none, ⟨r :: rest, Nat.le_refl _⟩) := by
    rw [parseTypeArgument, if_neg (by simp [hr])]
  show Answers True (parseTest stop (t :: l :: r :: rest)) _ rest
  rw [parseTest, ht]
  dsimp only
  rw [expect_cons hl, ok_bind]
  dsimp only
  rw [harg]
  dsimp only
  rw [expect_cons hr, ok_bind]
  exact .ok trivial _

theorem read_typeTestOf {t l a r : Token} (ht : t.kind = .nodeType) (hl : l.kind = .leftParen)
    (ha : a.kind = .stringLiteral) (hr : r.kind = .rightParen) :
    Symbol.test.Read stop 0 [t, l, a, r] (Test.nodeType t.lexeme (some a.lexeme)) := by
  intro rest _
  have harg : parseTypeArgument (a :: r :: rest) = (some a.lexeme, ⟨r :: rest, by simp⟩) := by
    rw [parseTypeArgument, if_pos ha]
  show Answers True (parseTest stop (t :: l :: a :: r :: rest)) _ rest
  rw [parseTest, ht]
  dsimp only
  rw [expect_cons hl, ok_bind]
  dsimp only
  rw [harg]
  dsimp only
  rw [expect_cons hr, ok_bind]
  exact .ok trivial _

theorem read_noPredicates : Symbol.predicates.Read stop 0 [] ([] : List Expr) := by
  intro levels rest hend
  rw [List.nil_append, parsePredicates, accept_eq_none hend]
  exact .ok (Nat.zero_le _) _

theorem read_predicate {l r : Token} {e : Expr} {ps : List Expr} (hl : l.kind = .leftBracket)
    (he : (Symbol.level 1).Read stop d ts e) (hr : r.kind = .rightBracket)
    (hps : Symbol.predicates.Read stop d' us ps) :
    Symbol.predicates.Read stop (max (d + 1) d') (l :: (ts ++ r :: us)) (e :: ps : List Expr) := by
  intro levels rest hend
  have hclose : (nextKind (r :: (us ++ rest))).closes = true := by simp [nextKind, hr, Kind.closes]
  rw [List.cons_append, List.append_assoc, List.cons_append, parsePredicates, accept_cons hl]
  refine (he.closed hclose).bind (d' ≤ levels) (by omega) fun h₂ => ?_
  dsimp only
  rw [expect_cons hr, ok_bind]
  exact (hps levels rest hend).finish fun h₄ => ⟨_, rfl⟩

theorem read_selfStep {t : Token} (ht : t.kind = .dot) :
    Symbol.step.Read stop 0 [t] (Step.sign .self) := by
  intro levels rest _
  rw [List.singleton_append, parseStep, ht]
  exact .ok (Nat.zero_le _) _

theorem read_parentStep {t : Token} (ht : t.kind = .doubleDot) :
    Symbol.step.Read stop 0 [t] (Step.sign .parent) := by
  intro levels rest _
  rw [List.singleton_append, parseStep, ht]
  exact .ok (Nat.zero_le _) _

theorem parseTestStep_answers {axis : Option Axis} {t : Test} {ps : List Expr} {levels : Nat}
    {rest : List Token} (ht : Symbol.test.Read stop 0 ts t) (hd : Derives .predicates d us ps)
    (hps : Symbol.predicates.Read stop d us ps) (hend : Symbol.step.Ends rest) :
    Answers (d ≤ levels)
      (parseTestStep stop (parseExpression stop levels) axis (ts ++ (us ++ rest)))
      (Step.mk axis t ps) rest := by
  have hcolon : Symbol.test.Ends (us ++ rest) := by
    show nextKind (us ++ rest) ≠ .colon
    rcases hd.predicates_next rest with hk | hk <;> rw [hk]
    · exact hend.1
    · decide
  refine (ht (us ++ rest) hcolon).bind (d ≤ levels) (by simp) fun h₁ => ?_
  exact (hps levels rest hend.2).finish fun h₂ => ⟨_, rfl⟩

theorem read_plainStep {t : Test} {ps : List Expr} (hdt : Derives .test 0 ts t)
    (hd : Derives .predicates d us ps) (ht : Symbol.test.Read stop 0 ts t)
    (hps : Symbol.predicates.Read stop d us ps) :
    Symbol.step.Read stop d (ts ++ us) (Step.mk none t ps) := by
  intro levels rest hend
  have hout : Answers (d ≤ levels) (parseTestStep stop (parseExpression stop levels) none
      (ts ++ (us ++ rest))) (Step.mk none t ps) rest := parseTestStep_answers ht hd hps hend
  have hbegin : Symbol.test.Begins (nextKind ts) := hdt.begins
  rw [List.append_assoc]
  cases ts with
  | nil => exact absurd rfl (hdt.ne_nil trivial)
  | cons u tail =>
    rw [List.cons_append] at hout ⊢
    rw [parseStep]
    rcases hbegin with hk | hk | hk <;>
      · have hk : u.kind = _ := hk
        rw [hk]
        exact hout

theorem read_axisStep {a c : Token} {t : Test} {ps : List Expr} (ha : a.kind = .axisName)
    (hc : c.kind = .doubleColon) (hd : Derives .predicates d us ps)
    (ht : Symbol.test.Read stop 0 ts t) (hps : Symbol.predicates.Read stop d us ps) :
    Symbol.step.Read stop d (a :: c :: (ts ++ us)) (Step.mk (some ⟨a.lexeme, false⟩) t ps) := by
  intro levels rest hend
  rw [List.cons_append, List.cons_append, List.append_assoc, parseStep, ha]
  dsimp only
  rw [expect_cons hc, ok_bind]
  exact (parseTestStep_answers ht hd hps hend).finish fun h₂ => ⟨_, rfl⟩

theorem read_attributeStep {a : Token} {t : Test} {ps : List Expr} (ha : a.kind = .atSign)
    (hd : Derives .predicates d us ps) (ht : Symbol.test.Read stop 0 ts t)
    (hps : Symbol.predicates.Read stop d us ps) :
    Symbol.step.Read stop d (a :: (ts ++ us)) (Step.mk (some ⟨utf8 "attribute", true⟩) t ps) := by
  intro levels rest hend
  rw [List.cons_append, List.append_assoc, parseStep, ha]
  exact (parseTestStep_answers ht hd hps hend).finish fun h₁ => ⟨_, rfl⟩

theorem read_noFurtherSteps : Symbol.furtherSteps.Read stop 0 [] ([] : Path) := by
  intro levels rest hend
  rw [List.nil_append, parseFurtherSteps, acceptSeparator_eq_none hend]
  exact .ok (Nat.zero_le _) _

/-- A step may be followed by further steps or by what ends a path. -/
theorem Derives.furtherSteps_ends {p : Path} (h : Derives .furtherSteps d us p) {rest : List Token}
    (hend : Symbol.path.Ends rest) : Symbol.step.Ends (us ++ rest) := by
  have hx : (nextKind rest).extendsPrimary = false := hend
  simp only [Symbol.Ends]
  rcases h.furtherSteps_next rest with hk | hk | hk <;> rw [hk]
  · constructor <;>
      · intro hk'
        simp [hk', Kind.extendsPrimary] at hx
  · decide
  · decide

theorem read_furtherStep {t : Token} {separator : Separator} {s : Step} {p : Path}
    (ht : separatorOf t.kind = some separator) (hd : Derives .furtherSteps d' us p)
    (hs : Symbol.step.Read stop d ts s) (hp : Symbol.furtherSteps.Read stop d' us p) :
    Symbol.furtherSteps.Read stop (max d d') (t :: (ts ++ us)) ((separator, s) :: p : Path) := by
  intro levels rest hend
  rw [List.cons_append, List.append_assoc, parseFurtherSteps, acceptSeparator_cons ht]
  refine (hs levels _ (hd.furtherSteps_ends hend)).bind (d' ≤ levels) (by omega) fun h₂ => ?_
  exact (hp levels rest hend).finish fun h₃ => ⟨_, rfl⟩

theorem read_steps {s : Step} {p : Path} (hd : Derives .furtherSteps d' us p)
    (hs : Symbol.step.Read stop d ts s) (hp : Symbol.furtherSteps.Read stop d' us p) :
    Symbol.path.Read stop (max d d') (ts ++ us) ((.absent, s) :: p : Path) := by
  intro levels rest hend
  rw [List.append_assoc]
  refine (hs levels _ (hd.furtherSteps_ends hend)).bind (d' ≤ levels) (by omega) fun h₁ => ?_
  exact (hp levels rest hend).finish fun h₂ => ⟨_, rfl⟩

theorem read_lastArgument {e : Expr} (he : (Symbol.level 1).Read stop d ts e) :
    Symbol.arguments.Read stop (d + 1) ts ([e] : List Expr) := by
  intro levels rest hend
  have hk : nextKind rest = .rightParen := hend
  rw [parseArguments]
  have hclose : (nextKind rest).closes = true := by rw [hk]; rfl
  refine Answers.finish (he.closed hclose) fun h₁ => ?_
  dsimp only
  rw [accept_eq_none (by rw [hk]; decide)]
  exact ⟨_, rfl⟩

theorem read_argument {c : Token} {e : Expr} {es : List Expr}
    (he : (Symbol.level 1).Read stop d ts e) (hc : c.kind = .comma)
    (hes : Symbol.arguments.Read stop d' us es) :
    Symbol.arguments.Read stop (max (d + 1) d') (ts ++ c :: us) (e :: es : List Expr) := by
  intro levels rest hend
  have hclose : (nextKind (c :: (us ++ rest))).closes = true := by simp [nextKind, hc, Kind.closes]
  rw [List.append_assoc, List.cons_append, parseArguments]
  refine (he.closed hclose).bind (d' ≤ levels) (by omega) fun h₁ => ?_
  dsimp only
  rw [accept_cons hc]
  exact (hes levels rest hend).finish fun h₃ => ⟨_, rfl⟩

theorem read_literal {t : Token} (ht : t.kind = .stringLiteral) :
    Symbol.source.Read stop 0 [t] (Expr.literal t.lexeme) := by
  intro levels rest _
  rw [List.singleton_append, parseSource, ht]
  exact .ok (Nat.zero_le _) _

theorem read_integer {t : Token} {i : Int} (ht : t.kind = .integer)
    (hi : integer? t.lexeme = some i) :
    Symbol.source.Read stop 0 [t] (Expr.number (.ofInt i)) := by
  intro levels rest _
  rw [List.singleton_append, parseSource, ht]
  dsimp only
  rw [hi]
  exact .ok (Nat.zero_le _) _

theorem read_float {t : Token} {x : Binary64} (ht : t.kind = .float)
    (hx : float? t.lexeme = some x) :
    Symbol.source.Read stop 0 [t] (Expr.number (.ofFloat x)) := by
  intro levels rest _
  rw [List.singleton_append, parseSource, ht]
  dsimp only
  rw [hx]
  exact .ok (Nat.zero_le _) _

/-- Behind its word, a truth value is read by `parseTruth`. -/
theorem parseSource_truth {expression : Parser Expr} {t : Token} {value : Bool} {e : Expr}
    {fits : Prop} {tail rest : List Token} (ht : t.kind = truthWord value)
    (h : Answers fits (parseTruth stop value tail) e rest) :
    Answers fits (parseSource stop expression (t :: tail)) e rest := by
  cases value <;>
    · rw [parseSource, ht]
      exact h.finish fun h₁ => ⟨_, rfl⟩

theorem read_truth {t : Token} {value : Bool} (ht : t.kind = truthWord value) :
    Symbol.source.Read stop 0 [t] (Expr.boolean value) := by
  intro levels rest hend
  rw [List.singleton_append]
  refine parseSource_truth ht ?_
  rw [parseTruth, accept_eq_none hend.2]
  exact .ok (Nat.zero_le _) _

theorem read_builtinCall {t l r : Token} {value : Bool} (ht : t.kind = truthWord value)
    (hl : l.kind = .leftParen) (hr : r.kind = .rightParen) :
    Symbol.source.Read stop 0 [t, l, r] (Expr.call ⟨truthCall value, []⟩ []) := by
  intro levels rest _
  show Answers _ (parseSource stop _ (t :: l :: r :: rest)) _ rest
  refine parseSource_truth ht ?_
  rw [parseTruth, accept_cons hl]
  dsimp only
  rw [expect_cons hr, ok_bind]
  exact .ok (Nat.zero_le _) _

theorem read_reference {t : Token} {q : QName} (ht : t.kind = .dollar)
    (hq : Symbol.name.Read stop 0 ts q) :
    Symbol.source.Read stop 0 (t :: ts) (Expr.reference q) := by
  intro levels rest hend
  rw [List.cons_append, parseSource, ht]
  exact ((hq rest hend.1).congr (by simp)).finish fun h₁ => ⟨_, rfl⟩

theorem read_emptyCall {f l r : Token} (hf : f.kind = .functionName) (hl : l.kind = .leftParen)
    (hr : r.kind = .rightParen) :
    Symbol.source.Read stop 0 [f, l, r] (Expr.call ⟨.absent, f.lexeme⟩ []) := by
  intro levels rest _
  show Answers _ (parseSource stop _ (f :: l :: r :: rest)) _ rest
  rw [parseSource, hf]
  dsimp only
  rw [parseCall, expect_cons hl, ok_bind]
  dsimp only
  rw [accept_cons hr]
  exact .ok (Nat.zero_le _) _

theorem read_call {f l r : Token} {es : List Expr} (hf : f.kind = .functionName)
    (hl : l.kind = .leftParen) (hd : Derives .arguments d ts es) (hr : r.kind = .rightParen)
    (hes : Symbol.arguments.Read stop d ts es) :
    Symbol.source.Read stop d (f :: l :: (ts ++ [r])) (Expr.call ⟨.absent, f.lexeme⟩ es) := by
  intro levels rest _
  have hopen : accept .rightParen (ts ++ r :: rest) = none := by
    apply accept_eq_none
    rw [nextKind_append (hd.ne_nil trivial)]
    intro hk
    have hbegin : Symbol.arguments.Begins (nextKind ts) := hd.begins
    rw [hk] at hbegin
    simp [Symbol.Begins, Kind.startsPrimary, Kind.startsStep, Kind.startsSource] at hbegin
  rw [List.cons_append, List.cons_append, List.append_assoc, List.singleton_append, parseSource, hf]
  dsimp only
  rw [parseCall, expect_cons hl, ok_bind]
  dsimp only
  rw [hopen]
  refine Answers.finish (Answers.finish (hes levels (r :: rest) hr) fun h₂ => ?_) fun h₁ => ⟨_, rfl⟩
  dsimp only
  rw [expect_cons hr, ok_bind]
  exact ⟨_, rfl⟩

theorem read_group {l r : Token} {e : Expr} (hl : l.kind = .leftParen)
    (he : (Symbol.level 1).Read stop d ts e) (hr : r.kind = .rightParen) :
    Symbol.source.Read stop (d + 1) (l :: (ts ++ [r])) e := by
  intro levels rest _
  have hclose : (nextKind (r :: rest)).closes = true := by simp [nextKind, hr, Kind.closes]
  rw [List.cons_append, List.append_assoc, List.singleton_append, parseSource, hl]
  refine Answers.finish (he.closed hclose) fun h₁ => ?_
  dsimp only
  rw [expect_cons hr, ok_bind]
  exact ⟨_, rfl⟩

theorem read_root {t : Token} (ht : t.kind = .slash) :
    Symbol.primary.Read stop 0 [t] Expr.root := by
  intro levels rest hend
  have hx : (nextKind rest).extendsPrimary = false := hend
  have hstep : (nextToken stop rest).kind.startsStep = false := by
    rw [nextToken_kind]
    simp only [Kind.extendsPrimary, Bool.or_eq_false_iff] at hx
    exact hx.2
  rw [List.singleton_append, parsePrimary, if_pos ht, hstep, if_neg Bool.false_ne_true]
  exact .ok (Nat.zero_le _) _

theorem read_absolute {t : Token} {p : Path} (ht : t.kind = .slash) (hd : Derives .path d ts p)
    (hp : Symbol.path.Read stop d ts p) :
    Symbol.primary.Read stop d (t :: ts) (Expr.absolute p) := by
  intro levels rest hend
  have hstep : (nextToken stop (ts ++ rest)).kind.startsStep = true := by
    rw [nextToken_kind, nextKind_append (hd.ne_nil trivial)]
    exact hd.begins
  rw [List.cons_append, parsePrimary, if_pos ht, if_pos hstep]
  exact (hp levels rest hend).finish fun h₁ => ⟨_, rfl⟩

theorem read_everywhere {t : Token} {p : Path} (ht : t.kind = .doubleSlash)
    (hp : Symbol.path.Read stop d ts p) :
    Symbol.primary.Read stop d (t :: ts) (Expr.everywhere p) := by
  intro levels rest hend
  rw [List.cons_append, parsePrimary, if_neg (by simp [ht]), if_pos ht]
  exact (hp levels rest hend).finish fun h₁ => ⟨_, rfl⟩

theorem read_relative {p : Path} (hd : Derives .path d ts p) (hp : Symbol.path.Read stop d ts p) :
    Symbol.primary.Read stop d ts (Expr.path p) := by
  intro levels rest hend
  have hbegin : (nextKind ts).startsStep = true := hd.begins
  have hout := hp levels rest hend
  cases ts with
  | nil => exact absurd rfl (hd.ne_nil trivial)
  | cons t tail =>
    have ht : t.kind.startsStep = true := hbegin
    rw [List.cons_append] at hout ⊢
    rw [parsePrimary, if_neg (by rintro hk; simp [hk, Kind.startsStep] at ht),
      if_neg (by rintro hk; simp [hk, Kind.startsStep] at ht), if_pos ht]
    exact hout.finish fun h₁ => ⟨_, rfl⟩

/-- A primary that begins like a source is read by `parseFiltered`. -/
theorem parsePrimary_source {expression : Parser Expr} (h : (nextKind ts).startsSource = true) :
    parsePrimary stop expression ts = parseFiltered stop expression ts := by
  cases ts with
  | nil => rfl
  | cons t tail =>
    have ht : t.kind.startsSource = true := h
    rw [parsePrimary, if_neg (by rintro hk; simp [hk, Kind.startsSource] at ht),
      if_neg (by rintro hk; simp [hk, Kind.startsSource] at ht), if_neg]
    intro hs
    revert hs ht
    cases t.kind <;> simp [Kind.startsSource, Kind.startsStep]

/-- A source may be followed by predicates or by what may follow those. -/
theorem Derives.source_ends {ps : List Expr} (h : Derives .predicates d us ps) {rest : List Token}
    (hcolon : nextKind rest ≠ .colon) (hparen : nextKind rest ≠ .leftParen) :
    Symbol.source.Ends (us ++ rest) := by
  simp only [Symbol.Ends]
  rcases h.predicates_next rest with hk | hk <;> rw [hk]
  · exact ⟨hcolon, hparen⟩
  · decide

theorem read_filtered {e : Expr} {ps : List Expr} (hds : Derives .source d ts e)
    (hdp : Derives .predicates d' us ps) (he : Symbol.source.Read stop d ts e)
    (hps : Symbol.predicates.Read stop d' us ps) :
    Symbol.primary.Read stop (max d d') (ts ++ us) (narrowed e ps) := by
  intro levels rest hend
  have hx : (nextKind rest).extendsPrimary = false := hend
  have hnext : ∀ k : Kind, k.extendsPrimary = true → nextKind rest ≠ k := by
    rintro k hk rfl
    exact Bool.false_ne_true (hx.symm.trans hk)
  have hsource := hdp.source_ends (hnext .colon rfl) (hnext .leftParen rfl)
  have hbegin : (nextKind (ts ++ (us ++ rest))).startsSource = true := by
    rw [nextKind_append (hds.ne_nil trivial)]
    exact hds.begins
  rw [List.append_assoc, parsePrimary_source hbegin]
  refine (he levels _ hsource).bind (d' ≤ levels) (by omega) fun h₁ => ?_
  refine (hps levels rest (hnext .leftBracket rfl)).finish fun h₂ => ?_
  dsimp only
  rw [acceptSeparator_eq_none hend]
  exact ⟨_, rfl⟩

theorem read_continued {t : Token} {vs : List Token} {d'' : Nat} {e : Expr} {ps : List Expr}
    {separator : Separator} {p : Path} (hds : Derives .source d ts e)
    (hdp : Derives .predicates d' us ps) (ht : separatorOf t.kind = some separator)
    (he : Symbol.source.Read stop d ts e) (hps : Symbol.predicates.Read stop d' us ps)
    (hp : Symbol.path.Read stop d'' vs p) :
    Symbol.primary.Read stop (max d (max d' d'')) (ts ++ (us ++ t :: vs))
      (Expr.continued (narrowed e ps) separator p) := by
  intro levels rest hend
  have hslash : t.kind = .slash ∨ t.kind = .doubleSlash := separatorOf_cases ht
  have hnext : ∀ k, k ≠ .slash → k ≠ .doubleSlash → nextKind (t :: (vs ++ rest)) ≠ k := by
    intro k h₁ h₂ hk
    rcases hslash with hs | hs
    · exact h₁ (hk.symm.trans hs)
    · exact h₂ (hk.symm.trans hs)
  have hsource := hdp.source_ends (hnext .colon (by decide) (by decide))
    (hnext .leftParen (by decide) (by decide))
  have hbegin : (nextKind (ts ++ (us ++ t :: (vs ++ rest)))).startsSource = true := by
    rw [nextKind_append (hds.ne_nil trivial)]
    exact hds.begins
  rw [List.append_assoc, List.append_assoc, List.cons_append, parsePrimary_source hbegin]
  refine (he levels _ hsource).bind (max d' d'' ≤ levels) (by omega) fun h₁ => ?_
  refine (hps levels _ (hnext .leftBracket (by decide) (by decide))).bind (d'' ≤ levels) (by omega)
    fun h₂ => ?_
  dsimp only
  rw [acceptSeparator_cons ht]
  exact (hp levels rest hend).finish fun h₄ => ⟨_, rfl⟩

theorem read_unsigned {e : Expr} (hd : Derives .primary d ts e)
    (he : Symbol.primary.Read stop d ts e) : Symbol.unary.Read stop d ts e := by
  intro levels rest hend
  cases levels with
  | zero => exact .inr ⟨Nat.not_lt_zero d, _, rfl, rfl⟩
  | succ levels =>
    have hminus : accept .minus (ts ++ rest) = none := by
      apply accept_eq_none
      rw [nextKind_append (hd.ne_nil trivial)]
      intro hk
      have hbegin : (nextKind ts).startsPrimary = true := hd.begins
      rw [hk] at hbegin
      exact absurd hbegin (by decide)
    rw [parseUnary, hminus]
    exact (he levels rest hend).congr Nat.lt_succ_iff.symm

theorem read_negated {t : Token} {e : Expr} (ht : t.kind = .minus)
    (he : Symbol.unary.Read stop d ts e) :
    Symbol.unary.Read stop (d + 1) (t :: ts) (Expr.negate e) := by
  intro levels rest hend
  cases levels with
  | zero => exact .inr ⟨Nat.not_lt_zero _, _, rfl, rfl⟩
  | succ levels =>
    rw [List.cons_append, parseUnary, accept_cons ht]
    exact ((he levels rest hend).congr Nat.succ_lt_succ_iff.symm).finish fun h₂ => ⟨_, rfl⟩

theorem read_operand {e : Expr} (he : Symbol.unary.Read stop d ts e) :
    (Symbol.level 10).Read stop d ts e := by
  intro levels floor rest fits w rest' _ hend hfrom
  rw [climb]
  refine (he levels rest hend.1).bind fits Iff.rfl fun h₁ => ?_
  exact hfrom.finish fun h₂ => ⟨_, rfl⟩

theorem read_tighter {n : Nat} {e : Expr} (he : (Symbol.level (n + 1)).Read stop d ts e) :
    (Symbol.level n).Read stop d ts e := by
  intro levels floor rest fits w rest' hfloor hend hfrom
  have hends : (Symbol.level (n + 1)).Ends rest := ⟨hend.1, hend.2.mono (by omega)⟩
  exact he levels floor rest fits w rest' (by omega) hends hfrom

/-- The right operand is read to the end because the operator behind it binds no more tightly than
the one before it; the loop then goes on with both operands joined. -/
theorem read_binary {n : Nat} {t : Token} {op : Operator} {l r : Expr}
    (hop : operatorAt n = some (t.kind, op)) (hl : (Symbol.level n).Read stop d ts l)
    (hr : (Symbol.level (n + 1)).Read stop d' us r) :
    (Symbol.level n).Read stop (max d d') (ts ++ t :: us) (Expr.binary op t.comparison l r) := by
  intro levels floor rest fits w rest' hfloor hend hfrom
  have hbin : binaryOperator? t.kind = some (op, n) := binaryOperator?_eq_some_iff.mpr hop
  have hright : Answers (d' < levels ∧ True)
      (climb (parseUnary stop levels) (n + 1) (us ++ rest)) r rest := by
    have hends : (Symbol.level (n + 1)).Ends rest := ⟨hend.1, hend.2.mono (by omega)⟩
    exact hr levels (n + 1) rest True r rest (Nat.le_refl _) hends (climbFrom_stops hend.2)
  have hloop : Answers (d' < levels ∧ fits)
      (climbFrom (parseUnary stop levels) floor l (t :: (us ++ rest))) w rest' := by
    rw [climbFrom, hbin]
    dsimp only
    rw [if_neg (by omega)]
    refine hright.bind fits (by simp) fun h₁ => ?_
    exact hfrom.finish fun h₂ => ⟨_, rfl⟩
  have hleft : (Symbol.level n).Ends (t :: (us ++ rest)) := by
    refine ⟨extendsPrimary_of_operator hbin, ?_⟩
    intro op' b hb
    rw [hbin] at hb
    cases hb
    exact Nat.lt_succ_self n
  rw [List.append_assoc, List.cons_append]
  exact (hl levels floor _ _ w rest' hfloor hleft hloop).congr (by rw [Nat.max_lt, and_assoc])

end Productions

theorem Derives.read {s : Symbol} {d : Nat} {ts : List Token} {v : s.Value} (stop : Int)
    (h : Derives s d ts v) : s.Read stop d ts v := by
  induction h with
  | bareName ht => exact read_bareName ht
  | spacedName ht hc hu => exact read_spacedName ht hc hu
  | anyName ht => exact read_anyName ht
  | anyNameIn ht hc hs => exact read_anyNameIn ht hc hs
  | oneName h ih => exact read_oneName h ih
  | typeTest ht hl hr => exact read_typeTest ht hl hr
  | typeTestOf ht hl ha hr => exact read_typeTestOf ht hl ha hr
  | noPredicates => exact read_noPredicates
  | predicate hl _ hr _ ihe ihp => exact read_predicate hl ihe hr ihp
  | selfStep ht => exact read_selfStep ht
  | parentStep ht => exact read_parentStep ht
  | plainStep ht hp iht ihp => exact read_plainStep ht hp iht ihp
  | axisStep ha hc _ hp iht ihp => exact read_axisStep ha hc hp iht ihp
  | attributeStep ha _ hp iht ihp => exact read_attributeStep ha hp iht ihp
  | noFurtherSteps => exact read_noFurtherSteps
  | furtherStep ht _ hp ihs ihp => exact read_furtherStep ht hp ihs ihp
  | steps _ hp ihs ihp => exact read_steps hp ihs ihp
  | lastArgument _ ih => exact read_lastArgument ih
  | argument _ hc _ ihe ihs => exact read_argument ihe hc ihs
  | literal ht => exact read_literal ht
  | integer ht hi => exact read_integer ht hi
  | float ht hx => exact read_float ht hx
  | truth ht => exact read_truth ht
  | builtinCall ht hl hr => exact read_builtinCall ht hl hr
  | reference ht _ ih => exact read_reference ht ih
  | emptyCall hf hl hr => exact read_emptyCall hf hl hr
  | call hf hl ha hr ih => exact read_call hf hl ha hr ih
  | group hl _ hr ih => exact read_group hl ih hr
  | root ht => exact read_root ht
  | absolute ht hp ih => exact read_absolute ht hp ih
  | everywhere ht _ ih => exact read_everywhere ht ih
  | relative hp ih => exact read_relative hp ih
  | filtered hs hp ihs ihp => exact read_filtered hs hp ihs ihp
  | continued hs hp ht _ ihs ihp ihpath => exact read_continued hs hp ht ihs ihp ihpath
  | unsigned hp ih => exact read_unsigned hp ih
  | negated ht _ ih => exact read_negated ht ih
  | operand _ ih => exact read_operand ih
  | tighter _ ih => exact read_tighter ih
  | binary _ hop _ ihl ihr => exact read_binary hop ihl ihr

end NodePath
