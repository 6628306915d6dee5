import NodePath.Proofs.Relexing
import NodePath.Proofs.ViablePrefix
import NodePath.Proofs.WellFormed

/-!
# What the kind of a word foretells

The reader of tokens looks past the gaps behind a word before it decides on the kind of the word, so
the kind foretells the next token. The reader of trees demands again what has been foretold, and the
value of a numeral that has been judged before. On the tokens of a source these demands are always
met: no source is refused for the lack of a parenthesis, a double colon or a number in range.
-/

namespace NodePath

open NodePath.Text NodePath.Number

/-- What the kind of a word says about the tokens after it. -/
structure Token.Foretells (t : Token) (after : List Token) : Prop where
  called : t.kind = .functionName ∨ t.kind = .nodeType → nextKind after = .leftParen
  axis : t.kind = .axisName → nextKind after = .doubleColon
  notCalled : t.kind = .name → nextKind after ≠ .leftParen
  notAxis : t.kind = .name → isAxisName t.lexeme = true → nextKind after ≠ .doubleColon

section Glyphs

variable {after : List Glyph} {l : Lexeme after}

/-- The glyphs from the next one on that is no gap. -/
def ahead (gs : List Glyph) : List Glyph := gs.dropWhile (Glyph.satisfies isGap)

/-- The kinds of words that are not reserved. -/
def nameKinds : List Kind := [.functionName, .nodeType, .axisName, .name]

theorem numberLexeme_kind {g : Glyph} (h : numberLexeme g after = .ok l) :
    l.kind = .integer ∨ l.kind = .float := by
  rcases numberLexeme_cases h with ⟨_, _, _, _, _, hl⟩ | ⟨_, _, _, _, _, _, _, _, hl⟩
  · exact .inl hl.kind
  · exact .inr hl.kind

theorem literalLexeme_kind {q : Char} (h : literalLexeme q after = .ok l) :
    l.kind = .stringLiteral := by
  obtain ⟨-, -, -, hkind, -⟩ := literalLexeme_split h
  exact hkind

theorem symbolLexeme_kind {c : Char} (h : symbolLexeme c after = .ok l) :
    l.kind ∉ nameKinds ∧ (l.kind = .leftParen ↔ c = '(') ∧
      (l.kind = .doubleColon ↔ c = ':' ∧ ∃ more, after = .char ':' :: more) := by
  unfold symbolLexeme at h
  split at h <;> cases h
  all_goals simp_all [single, double, Lexeme.comparing, nameKinds]

theorem wordKind_kind (w : Bytes) (rest : List Glyph) :
    wordKind w rest ≠ .leftParen ∧ wordKind w rest ≠ .doubleColon := by
  unfold wordKind
  split
  · next k hk =>
    have hwords : ∀ k ∈ keywords.map Prod.snd, k ≠ .leftParen ∧ k ≠ .doubleColon := by decide
    exact hwords k (keyword_kind hk)
  · split
    · split <;> decide
    · split <;> decide
    · decide

/-- Two kinds of tokens can be told from the next glyphs. -/
theorem lexemeAt_kind {o : Nat} {g : Glyph} (h : lexemeAt o g after = .ok l) :
    (l.kind = .leftParen ↔ g = .char '(') ∧
      (l.kind = .doubleColon ↔ g = .char ':' ∧ ∃ more, after = .char ':' :: more) := by
  have hsigns : ∀ c : Char, isNameStart c = true ∨ isNumeralDigit c = true ∨ c ∈ quotes →
      c ≠ '(' ∧ c ≠ ':' := by
    rintro c hc
    constructor <;> (rintro rfl; revert hc; decide)
  obtain ⟨c, rfl, ⟨hc, rfl⟩ | ⟨hc, hl⟩ | ⟨hc, hl⟩ | hl⟩ := lexemeAt_cases h
  · obtain ⟨hparen, hcolon⟩ := hsigns c (.inl hc)
    obtain ⟨hnot, hnot'⟩ := wordKind_kind (wordLexeme (.char c) after).text _
    exact ⟨iff_of_false hnot (by simpa using hparen), iff_of_false hnot' (by simp [hcolon])⟩
  · obtain ⟨hparen, hcolon⟩ := hsigns c (.inr (.inl hc))
    rcases numberLexeme_kind hl with hkind | hkind <;> simp [hkind, hparen, hcolon]
  · obtain ⟨hparen, hcolon⟩ := hsigns c (.inr (.inr hc))
    simp [literalLexeme_kind hl, hparen, hcolon]
  · simpa using (symbolLexeme_kind hl).2

/-- What the next token is can be told from the glyphs ahead. -/
theorem nextKind_ahead {o : Nat} {gs : List Glyph} {ts : List Token}
    (h : tokensFrom o gs = .ok ts) :
    (nextKind ts = .leftParen ↔ ∃ more, ahead gs = .char '(' :: more) ∧
      (nextKind ts = .doubleColon ↔ ∃ more, ahead gs = .char ':' :: .char ':' :: more) := by
  fun_induction tokensFrom o gs generalizing ts with
  | case1 o =>
    cases h
    simp [nextKind, ahead]
  | case2 o g after hgap ih =>
    rw [ahead, List.dropWhile_cons, if_pos hgap]
    exact ih h
  | case3 => cases h
  | case4 => cases h
  | case5 o g after hgap l hl tokens hrest hok ih =>
    cases h
    obtain ⟨hparen, hcolon⟩ := lexemeAt_kind hl
    rw [ahead, List.dropWhile_cons, if_neg hgap]
    constructor
    · refine hparen.trans ⟨?_, ?_⟩
      · rintro rfl
        exact ⟨after, rfl⟩
      · rintro ⟨more, hmore⟩
        exact (List.cons.inj hmore).1
    · refine hcolon.trans ⟨?_, ?_⟩
      · rintro ⟨rfl, more, rfl⟩
        exact ⟨more, rfl⟩
      · rintro ⟨more, hmore⟩
        exact ⟨(List.cons.inj hmore).1, more, (List.cons.inj hmore).2⟩

/-- The kind of a word is decided by what is ahead. -/
theorem wordKind_ahead (w : Bytes) (rest : List Glyph) :
    (wordKind w rest = .functionName ∨ wordKind w rest = .nodeType →
      ∃ more, ahead rest = .char '(' :: more) ∧
    (wordKind w rest = .axisName → ∃ more, ahead rest = .char ':' :: .char ':' :: more) ∧
    (wordKind w rest = .name → (¬∃ more, ahead rest = .char '(' :: more) ∧
      (isAxisName w = true → ¬∃ more, ahead rest = .char ':' :: .char ':' :: more)) := by
  unfold wordKind
  split
  · next k hk =>
    have hwords : ∀ k ∈ keywords.map Prod.snd, k ∉ nameKinds := by decide
    have hnot := hwords k (keyword_kind hk)
    simp only [nameKinds, List.mem_cons, List.not_mem_nil, or_false, not_or] at hnot
    simp [hnot]
  · rw [ahead]
    split
    · next more hmore =>
      rw [hmore]
      split <;> simp
    · next more hmore =>
      rw [hmore]
      split <;> simp [*]
    · next hparen hcolon => simpa using ⟨hparen, fun _ => hcolon⟩

/-- Tokens that are no names foretell nothing. -/
theorem Token.Foretells.of_notMem {t : Token} (h : t.kind ∉ nameKinds) (ts : List Token) :
    t.Foretells ts := by
  simp only [nameKinds, List.mem_cons, List.not_mem_nil, or_false, not_or] at h
  obtain ⟨hfunction, htype, haxis, hname⟩ := h
  exact ⟨fun hk => absurd hk (not_or.mpr ⟨hfunction, htype⟩), fun hk => absurd hk haxis,
    fun hk => absurd hk hname, fun hk => absurd hk hname⟩

theorem lexemeAt_foretells {o : Nat} {g : Glyph} (h : lexemeAt o g after = .ok l) {o' : Nat}
    {ts : List Token} (hts : tokensFrom o' l.rest = .ok ts) :
    (Token.mk l.kind l.text o l.comparison).Foretells ts := by
  obtain ⟨c, rfl, ⟨hc, rfl⟩ | ⟨hc, hl⟩ | ⟨hc, hl⟩ | hl⟩ := lexemeAt_cases h
  · obtain ⟨hparen, hcolon⟩ := nextKind_ahead hts
    obtain ⟨hcalled, haxis, hname⟩ := wordKind_ahead (wordLexeme (.char c) after).text
      (wordLexeme (.char c) after).rest
    exact ⟨fun hk => hparen.mpr (hcalled hk), fun hk => hcolon.mpr (haxis hk),
      fun hk => mt hparen.mp (hname hk).1, fun hk hword => mt hcolon.mp ((hname hk).2 hword)⟩
  · refine .of_notMem ?_ ts
    rcases numberLexeme_kind hl with hkind | hkind <;> simp [hkind, nameKinds]
  · refine .of_notMem ?_ ts
    simp [literalLexeme_kind hl, nameKinds]
  · exact .of_notMem (symbolLexeme_kind hl).1 ts

end Glyphs

/-- A numeral has a value in range. -/
structure Token.Measured (t : Token) : Prop where
  integer : t.kind = .integer → integer? t.lexeme ≠ none
  float : t.kind = .float → float? t.lexeme ≠ none

theorem Written.integer_value {x w : Bytes} {c : Comparison} (h : Written .integer x c w) :
    integer? x ≠ none := by
  cases h with
  | keyword _ hk => exact absurd hk (not_keyword (by decide))
  | integer _ hi => exact Option.ne_none_iff_exists'.mpr ⟨_, hi⟩
  | symbol hs => exact absurd hs (not_symbol (by decide))

theorem Written.float_value {x w : Bytes} {c : Comparison} (h : Written .float x c w) :
    float? x ≠ none := by
  cases h with
  | keyword _ hk => exact absurd hk (not_keyword (by decide))
  | float _ _ hv => exact Option.ne_none_iff_exists'.mpr ⟨_, hv⟩
  | symbol hs => exact absurd hs (not_symbol (by decide))

theorem Token.Genuine.measured {t : Token} (h : t.Genuine) : t.Measured where
  integer hk := (h.written hk).elim fun _ hw => hw.integer_value
  float hk := (h.written hk).elim fun _ hw => hw.float_value

/-- Each token stands before what it foretells, and each numeral has a value. -/
def Orderly : List Token → Prop
  | [] => True
  | t :: after => t.Foretells after ∧ t.Measured ∧ Orderly after

theorem Orderly.foretells {before after : List Token} {t : Token}
    (h : Orderly (before ++ t :: after)) : t.Foretells after := by
  induction before with
  | nil => exact h.1
  | cons u before ih => exact ih h.2.2

theorem tokensFrom_orderly {o : Nat} {gs : List Glyph} {ts : List Token}
    (h : tokensFrom o gs = .ok ts) : Orderly ts := by
  fun_induction tokensFrom o gs generalizing ts with
  | case1 o =>
    cases h
    trivial
  | case2 o g after hgap ih => exact ih h
  | case3 => cases h
  | case4 => cases h
  | case5 o g after hgap l hl tokens hrest hok ih =>
    cases h
    obtain ⟨w, hw, -⟩ := lexemeAt_fits hl
    have hgenuine : (Token.mk l.kind l.text o l.comparison).Genuine := ⟨w, hw⟩
    exact ⟨lexemeAt_foretells hl hok, hgenuine.measured, ih hok⟩

/-- The expectations that orderly tokens meet wherever they are asked for. -/
def Expectation.isForetold : Expectation → Bool
  | .leftParen | .doubleColon | .integerInRange | .floatInRange => true
  | _ => false

/-- An answer that leaves orderly tokens, or refuses none that was foretold. -/
def Fair {α : Type} {P : List Token → Prop} :
    Except SyntaxError (α × { rest : List Token // P rest }) → Prop
  | .ok (_, rest) => Orderly rest.1
  | .error err => err.expected.isForetold = false

section Readers

variable {α β : Type} {P Q : List Token → Prop} {stop : Int} {ts : List Token}
  {expression : Parser Expr}

theorem Fair.bind {answer : Except SyntaxError (α × { rest : List Token // P rest })}
    {f : α × { rest : List Token // P rest } →
      Except SyntaxError (β × { rest : List Token // Q rest })}
    (h : Fair answer) (hf : ∀ v rest hr, Orderly rest → Fair (f (v, ⟨rest, hr⟩))) :
    Fair (answer >>= f) := by
  cases answer with
  | error err => exact h
  | ok a => exact hf a.1 a.2.1 a.2.2 h

theorem fair_refuse {expected : Expectation} (h : expected.isForetold = false) :
    Fair (.error (refuse stop expected ts) : Except SyntaxError (α × { rest // P rest })) := h

theorem fair_expect {kind : Kind} {expected : Expectation} (hts : Orderly ts)
    (h : expected.isForetold = false) : Fair (expect stop kind expected ts) := by
  cases ts with
  | nil => exact fair_refuse h
  | cons t rest =>
    rw [expect]
    split
    · exact hts.2.2
    · exact fair_refuse h

/-- A demand that has been foretold is met. -/
theorem fair_demand {kind : Kind} {expected : Expectation} (hts : Orderly ts)
    (h : nextKind ts = kind) (hkind : kind ≠ .eof) : Fair (expect stop kind expected ts) := by
  cases ts with
  | nil => exact absurd h.symm hkind
  | cons t rest =>
    rw [expect_cons h]
    exact hts.2.2

theorem orderly_of_accept {kind : Kind} {rest : List Token} {hr : rest.length < ts.length}
    (hts : Orderly ts) (h : accept kind ts = some ⟨rest, hr⟩) : Orderly rest := by
  obtain ⟨t, -, rfl⟩ := accept_some h
  exact hts.2.2

theorem orderly_of_acceptSeparator {separator : Separator} {rest : List Token}
    {hr : rest.length < ts.length} (hts : Orderly ts)
    (h : acceptSeparator ts = some (separator, ⟨rest, hr⟩)) : Orderly rest := by
  obtain ⟨t, -, rfl⟩ := acceptSeparator_some h
  exact hts.2.2

theorem orderly_typeArgument (hts : Orderly ts) : Orderly (parseTypeArgument ts).2.1 := by
  rcases parseTypeArgument_split ts with ⟨h, -⟩ | ⟨a, -, h, -⟩
  · exact h ▸ hts
  · rw [h] at hts
    exact hts.2.2

theorem fair_parseName (hts : Orderly ts) : Fair (parseName stop ts) := by
  refine (fair_expect hts rfl).bind fun first ts₁ h₁ hts₁ => ?_
  dsimp only
  split
  · exact hts₁
  · next ts₂ h₂ hc =>
    exact (fair_expect (orderly_of_accept hts₁ hc) rfl).bind fun _ _ _ h => h

theorem fair_parseTest (hts : Orderly ts) : Fair (parseTest stop ts) := by
  cases ts with
  | nil => exact fair_refuse rfl
  | cons t rest =>
    rw [parseTest]
    split
    · exact hts.2.2
    · split
      · next space left hany =>
        obtain ⟨t', c, s, -, -, -, -, heq⟩ := acceptAnyIn_some hany
        rw [heq] at hts
        exact hts.2.2.2.2.2.2
      · exact (fair_parseName hts).bind fun _ _ _ h => h
    · next hk =>
      refine (fair_demand hts.2.2 (hts.1.called (.inr hk)) (by decide)).bind
        fun _ ts₁ h₁ hts₁ => ?_
      exact (fair_expect (orderly_typeArgument hts₁) rfl).bind fun _ _ _ h => h
    · exact fair_refuse rfl

/-- A reader of expressions that is fair to every orderly list. -/
def FairReader (expression : Parser Expr) : Prop :=
  ∀ {ts : List Token}, Orderly ts → Fair (expression ts)

theorem fair_parsePredicates (hx : FairReader expression) (ts : List Token) :
    Orderly ts → Fair (parsePredicates stop expression ts) := by
  induction ts using parsePredicates.induct with
  | case1 ts hnone =>
    intro hts
    rw [parsePredicates, hnone]
    exact hts
  | case2 ts ts₁ h₁ hopen ih =>
    intro hts
    rw [parsePredicates, hopen]
    refine (hx (orderly_of_accept hts hopen)).bind fun _ ts₂ h₂ hts₂ => ?_
    refine (fair_expect hts₂ rfl).bind fun _ ts₃ h₃ hts₃ => ?_
    exact (ih ts₂ h₂ ts₃ h₃ hts₃).bind fun _ _ _ h => h

theorem fair_parseTestStep (hx : FairReader expression) {axis : Option Axis} (hts : Orderly ts) :
    Fair (parseTestStep stop expression axis ts) := by
  refine (fair_parseTest hts).bind fun _ ts₁ _ hts₁ => ?_
  exact (fair_parsePredicates hx ts₁ hts₁).bind fun _ _ _ h => h

theorem fair_parseStep (hx : FairReader expression) (hts : Orderly ts) :
    Fair (parseStep stop expression ts) := by
  cases ts with
  | nil => exact fair_parseTestStep hx hts
  | cons t rest =>
    rw [parseStep]
    split
    · exact hts.2.2
    · exact hts.2.2
    · next hk =>
      refine (fair_demand hts.2.2 (hts.1.axis hk) (by decide)).bind fun _ ts₁ _ hts₁ => ?_
      exact (fair_parseTestStep hx hts₁).bind fun _ _ _ h => h
    · exact (fair_parseTestStep hx hts.2.2).bind fun _ _ _ h => h
    · exact fair_parseTestStep hx hts

theorem fair_parseFurtherSteps (hx : FairReader expression) (ts : List Token) :
    Orderly ts → Fair (parseFurtherSteps stop expression ts) := by
  induction ts using parseFurtherSteps.induct with
  | case1 ts hnone =>
    intro hts
    rw [parseFurtherSteps, hnone]
    exact hts
  | case2 ts separator ts₁ h₁ hsep ih =>
    intro hts
    rw [parseFurtherSteps, hsep]
    refine (fair_parseStep hx (orderly_of_acceptSeparator hts hsep)).bind
      fun _ ts₂ h₂ hts₂ => ?_
    exact (ih ts₂ h₂ hts₂).bind fun _ _ _ h => h

theorem fair_parsePath (hx : FairReader expression) (hts : Orderly ts) :
    Fair (parsePath stop expression ts) := by
  refine (fair_parseStep hx hts).bind fun _ ts₁ _ hts₁ => ?_
  exact (fair_parseFurtherSteps hx ts₁ hts₁).bind fun _ _ _ h => h

theorem fair_parseArguments (hx : FairReader expression) (ts : List Token) :
    Orderly ts → Fair (parseArguments expression ts) := by
  induction ts using parseArguments.induct with
  | case1 ts ih =>
    intro hts
    rw [parseArguments]
    refine (hx hts).bind fun _ ts₁ h₁ hts₁ => ?_
    dsimp only
    split
    · exact hts₁
    · next ts₂ h₂ hcomma =>
      exact (ih ts₁ h₁ ts₂ h₂ (orderly_of_accept hts₁ hcomma)).bind fun _ _ _ h => h

/-- The name of a function foretells the parenthesis that its call demands. -/
theorem fair_parseCall (hx : FairReader expression) {ident : Bytes} (hts : Orderly ts)
    (hopen : nextKind ts = .leftParen) : Fair (parseCall stop expression ident ts) := by
  refine (fair_demand hts hopen (by decide)).bind fun _ ts₁ _ hts₁ => ?_
  dsimp only
  split
  · next ts₂ h₂ hclose =>
    have hts₂ : Orderly ts₂ := orderly_of_accept hts₁ hclose
    exact hts₂
  · refine (fair_parseArguments hx ts₁ hts₁).bind fun _ ts₂ _ hts₂ => ?_
    exact (fair_expect hts₂ rfl).bind fun _ _ _ h => h

theorem fair_parseTruth {value : Bool} (hts : Orderly ts) : Fair (parseTruth stop value ts) := by
  rw [parseTruth]
  split
  · exact hts
  · next ts₁ h₁ hopen =>
    exact (fair_expect (orderly_of_accept hts hopen) rfl).bind fun _ _ _ h => h

theorem fair_parseSource (hx : FairReader expression) (hts : Orderly ts) :
    Fair (parseSource stop expression ts) := by
  cases ts with
  | nil => exact fair_refuse rfl
  | cons t rest =>
    obtain ⟨hforetells, hmeasured, hrest⟩ := hts
    rw [parseSource]
    split
    · exact hrest
    · next hk =>
      split
      · next hnone => exact absurd hnone (hmeasured.integer hk)
      · exact hrest
    · next hk =>
      split
      · next hnone => exact absurd hnone (hmeasured.float hk)
      · exact hrest
    · exact (fair_parseTruth hrest).bind fun _ _ _ h => h
    · exact (fair_parseTruth hrest).bind fun _ _ _ h => h
    · exact (fair_parseName hrest).bind fun _ _ _ h => h
    · next hk =>
      exact (fair_parseCall hx hrest (hforetells.called (.inl hk))).bind fun _ _ _ h => h
    · refine (hx hrest).bind fun _ ts₁ _ hts₁ => ?_
      exact (fair_expect hts₁ rfl).bind fun _ _ _ h => h
    · exact fair_refuse rfl

theorem fair_parseFiltered (hx : FairReader expression) (hts : Orderly ts) :
    Fair (parseFiltered stop expression ts) := by
  refine (fair_parseSource hx hts).bind fun _ ts₁ _ hts₁ => ?_
  refine (fair_parsePredicates hx ts₁ hts₁).bind fun _ ts₂ _ hts₂ => ?_
  dsimp only
  split
  · exact hts₂
  · next separator ts₃ h₃ hsep =>
    exact (fair_parsePath hx (orderly_of_acceptSeparator hts₂ hsep)).bind fun _ _ _ h => h

theorem fair_parsePrimary (hx : FairReader expression) (hts : Orderly ts) :
    Fair (parsePrimary stop expression ts) := by
  cases ts with
  | nil => exact fair_parseFiltered hx hts
  | cons t rest =>
    rw [parsePrimary]
    split
    · split
      · exact (fair_parsePath hx hts.2.2).bind fun _ _ _ h => h
      · exact hts.2.2
    · split
      · exact (fair_parsePath hx hts.2.2).bind fun _ _ _ h => h
      · split
        · exact (fair_parsePath hx hts).bind fun _ _ _ h => h
        · exact fair_parseFiltered hx hts

theorem fair_climb {unary : Parser Expr} (hu : FairReader unary) :
    (∀ (floor : Nat) (ts : List Token), Orderly ts → Fair (climb unary floor ts)) ∧
    (∀ (floor : Nat) (left : Expr) (ts : List Token), Orderly ts →
      Fair (climbFrom unary floor left ts)) := by
  apply climb.mutual_induct
  case case1 =>
    intro floor ts ih hts
    rw [climb]
    refine (hu hts).bind fun left ts₁ h₁ hts₁ => ?_
    exact (ih left ts₁ h₁ hts₁).bind fun _ _ _ h => h
  case case2 =>
    intro floor left hts
    rw [climbFrom]
    exact hts
  case case3 =>
    intro floor left t rest hop hts
    rw [climbFrom, hop]
    exact hts
  case case4 =>
    intro floor left t rest op binding hop hlt hts
    rw [climbFrom, hop]
    dsimp only
    rw [if_pos hlt]
    exact hts
  case case5 =>
    intro floor left t rest op binding hop hge ihright ihfrom hts
    rw [climbFrom, hop]
    dsimp only
    rw [if_neg hge]
    refine (ihright hts.2.2).bind fun right ts₁ h₁ hts₁ => ?_
    exact (ihfrom right ts₁ h₁ hts₁).bind fun _ _ _ h => h

theorem fair_parseUnary (levels : Nat) : FairReader (parseUnary stop levels) := by
  induction levels with
  | zero => exact fun _ => fair_refuse rfl
  | succ levels ih =>
    intro ts hts
    rw [parseUnary]
    split
    · next ts₁ h₁ hminus => exact (ih (orderly_of_accept hts hminus)).bind fun _ _ _ h => h
    · exact fair_parsePrimary (fun h => (fair_climb ih).1 1 _ h) hts

theorem fair_parseExpression (levels : Nat) : FairReader (parseExpression stop levels) :=
  fun hts => (fair_climb (fair_parseUnary levels)).1 1 _ hts

theorem parseTokens_unforetold {err : SyntaxError} (hts : Orderly ts)
    (h : parseTokens ts = .error err) : err.expected.isForetold = false := by
  have hfair : Fair (parseExpression (endOf ts) maxLevels ts) := fair_parseExpression maxLevels hts
  rw [parseTokens] at h
  cases hanswer : parseExpression (endOf ts) maxLevels ts with
  | error err' =>
    rw [hanswer] at h hfair
    cases h
    exact hfair
  | ok a =>
    rw [hanswer, ok_bind] at h
    dsimp only at h
    split at h
    · cases h
    · cases h
      rfl

end Readers

theorem Expectation.isForetold_of_text {e : Expectation}
    (h : e.text ∈ [utf8 "'('", utf8 "'::'", utf8 "integer in range", utf8 "float in range"]) :
    e.isForetold = true := by
  revert h
  cases e <;> decide

/-- In the tokens of a source every word stands before what its kind foretells, and no source is
refused for the lack of what has been foretold. -/
theorem lookahead_meets_demands (source : Bytes) :
    (∀ tokens, tokenize source = .ok tokens → ∀ before t after, tokens = before ++ t :: after →
      t.Foretells after) ∧
    ∀ err, parse source = .error (.grammatical err) → err.expected.text ∉
      [utf8 "'('", utf8 "'::'", utf8 "integer in range", utf8 "float in range"] := by
  constructor
  · rintro tokens htokens before t after rfl
    exact (tokensFrom_orderly htokens).foretells
  · intro err herr hforetold
    rw [parse] at herr
    split at herr
    · cases herr
    · next tokens htokens =>
      cases hts : parseTokens tokens with
      | ok e =>
        rw [hts] at herr
        cases herr
      | error err' =>
        rw [hts] at herr
        cases herr
        have hfair := parseTokens_unforetold (tokensFrom_orderly htokens) hts
        rw [Expectation.isForetold_of_text hforetold] at hfair
        cases hfair

/-- The tokens of `self :: text ('x')[f (self,`. -/
def unfinishedCall : List Token :=
  [⟨.axisName, utf8 "self", 0, .absent⟩, ⟨.doubleColon, utf8 "::", 5, .absent⟩,
    ⟨.nodeType, utf8 "text", 8, .absent⟩, ⟨.leftParen, utf8 "(", 13, .absent⟩,
    ⟨.stringLiteral, utf8 "x", 14, .absent⟩, ⟨.rightParen, utf8 ")", 17, .absent⟩,
    ⟨.leftBracket, utf8 "[", 18, .absent⟩, ⟨.functionName, utf8 "f", 19, .absent⟩,
    ⟨.leftParen, utf8 "(", 21, .absent⟩, ⟨.name, utf8 "self", 22, .absent⟩,
    ⟨.comma, utf8 ",", 26, .absent⟩]

theorem lookahead_meets_demands_unfinishedCall :
    tokenize (utf8 "self :: text ('x')[f (self,") = .ok unfinishedCall ∧
      (∀ before t after, unfinishedCall = before ++ t :: after → t.Foretells after) ∧
      ∃ err, parse (utf8 "self :: text ('x')[f (self,") = .error (.grammatical err) ∧
        err.expected.text = utf8 "expression" ∧ err.expected.text ∉
          [utf8 "'('", utf8 "'::'", utf8 "integer in range", utf8 "float in range"] := by
  have htokens : tokenize (utf8 "self :: text ('x')[f (self,") = .ok unfinishedCall :=
    eq_ok_of_toOption (by decide +kernel)
  have herr : parse (utf8 "self :: text ('x')[f (self,") =
      .error (.grammatical ⟨.expression, .endAt 27, 0⟩) := eq_error_of_match (by decide +kernel)
  obtain ⟨hforetells, hnot⟩ := lookahead_meets_demands (utf8 "self :: text ('x')[f (self,")
  exact ⟨htokens, hforetells unfinishedCall htokens, _, herr, rfl, hnot _ herr⟩

end NodePath
