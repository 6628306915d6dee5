import NodePath.Proofs.Numerals
import NodePath.Proofs.Recognition
import NodePath.Proofs.Tiling

/-!
# Well-formed trees

Trees may be made by hand, with parts that no text stands for. A tree is well-formed when every part
of it can be written: its names are words that are not reserved, its literals leave one quote free,
its numbers have a numeral, and its lists are as long as their place demands. Whatever is read from
a text is well-formed.
-/

namespace NodePath

open NodePath.Text NodePath.Number

/-- A word that is not reserved. -/
def IsName (w : Bytes) : Prop := IsWord w ∧ keyword? w = none

/-- A text that can stand between quotes: it encodes characters and does not hold both quotes. -/
def IsLiteral (s : Bytes) : Prop :=
  isWellFormed s = true ∧ ¬(ascii '"' ∈ s ∧ ascii '\'' ∈ s)

def QName.WellFormed (q : QName) : Prop := (q.space = [] ∨ IsName q.space) ∧ IsName q.name

/-- The fields that a kind of name test does not use are empty. -/
def NameTest.WellFormed (t : NameTest) : Prop :=
  t = .any ∨ (∃ space, IsName space ∧ t = .anyIn space) ∨ ∃ q, q.WellFormed ∧ t = .qualified q

/-- A test that may stand after an axis and before predicates. -/
def Test.WellFormed : Test → Prop
  | .name t => t.WellFormed
  | .nodeType type argument => isNodeType type = true ∧ ∀ s ∈ argument, IsLiteral s
  | .missing | .abbreviated _ => False

/-- An axis that is written as a sign is the attribute axis. -/
def Axis.WellFormed (a : Axis) : Prop :=
  if a.abbreviated then a.name = utf8 "attribute" else isAxisName a.name = true

/-- A separator between steps. -/
def Separator.IsWritten (s : Separator) : Prop := s = .child ∨ s = .descendant

/-- Integers are not negative and fit in 64 bits, floating point numbers are finite and neither
negative nor the negative zero; the field that is not used is zero. -/
def NumberLit.WellFormed (n : NumberLit) : Prop :=
  (∃ i : Int, 0 ≤ i ∧ i < 2 ^ 63 ∧ n = .ofInt i) ∨
    ∃ x : Binary64, x.bits.toNat < Binary64.infinityBits ∧ n = .ofFloat x

/-- A function with a name of its own, or a built-in one without arguments. -/
def FunctionName.Takes (f : FunctionName) (args : List Expr) : Prop :=
  (f.builtin = .absent ∧ IsName f.ident ∧ isNodeType f.ident = false) ∨
    ((f.builtin = .trueCall ∨ f.builtin = .falseCall) ∧ f.ident = [] ∧ args = [])

/-- Only comparisons carry a comparison. -/
def Operator.Takes (op : Operator) (c : Comparison) : Prop :=
  op ∈ Operator.all ∧ if op = .compare then c ∈ comparisons else c = .absent

mutual

def Expr.WellFormed : Expr → Prop
  | .missing | .rootName _ => False
  | .literal value => IsLiteral value
  | .number value => value.WellFormed
  | .boolean _ | .root => True
  | .reference name => name.WellFormed
  | .path steps | .absolute steps | .everywhere steps => pathWellFormed steps
  | .call function args => function.Takes args ∧ allWellFormed args
  | .negate operand => operand.WellFormed
  | .binary op comparison lhs rhs => op.Takes comparison ∧ lhs.WellFormed ∧ rhs.WellFormed
  | .filter source predicates => source.WellFormed ∧ predicates ≠ [] ∧ allWellFormed predicates
  | .continued source separator steps =>
    source.WellFormed ∧ separator.IsWritten ∧ pathWellFormed steps

def allWellFormed : List Expr → Prop
  | [] => True
  | e :: rest => e.WellFormed ∧ allWellFormed rest

/-- The first step of a path has no separator, every other step has one. -/
def pathWellFormed : List (Separator × Step) → Prop
  | [] => False
  | (separator, step) :: rest =>
    separator = .absent ∧ step.WellFormed ∧ furtherWellFormed rest

def furtherWellFormed : List (Separator × Step) → Prop
  | [] => True
  | (separator, step) :: rest =>
    separator.IsWritten ∧ step.WellFormed ∧ furtherWellFormed rest

/-- A step that is a single sign has nothing else. -/
def Step.WellFormed : Step → Prop
  | .mk axis test predicates =>
    (axis = none ∧ (test = .abbreviated .self ∨ test = .abbreviated .parent) ∧ predicates = []) ∨
      ((∀ a ∈ axis, a.WellFormed) ∧ test.WellFormed ∧ allWellFormed predicates)

end

/-- A token that some source can hold. -/
def Token.Genuine (t : Token) : Prop := ∃ w, Written t.kind t.lexeme t.comparison w

theorem tokenize_genuine {source : Bytes} {tokens : List Token} (h : tokenize source = .ok tokens) :
    ∀ t ∈ tokens, t.Genuine := by
  intro t ht
  obtain ⟨-, w, -, -, -, hw⟩ := (tokensFrom_tiles 0 (glyphs source) h).mem ht
  exact ⟨w, hw⟩

theorem Token.Genuine.written {t : Token} (h : t.Genuine) {k : Kind} (hk : t.kind = k) :
    ∃ w, Written k t.lexeme t.comparison w := hk ▸ h

section Genuine

variable {x w : Bytes} {c : Comparison}

theorem not_keyword {k : Kind} (hk : k ∉ keywords.map Prod.snd) : keyword? x ≠ some k :=
  fun h => hk (keyword_kind h)

theorem not_symbol {k : Kind} (hk : k ∉ symbols.map Prod.fst) : (k, x) ∉ symbols :=
  fun h => hk (List.mem_map_of_mem h)

theorem Written.name_inv (h : Written .name x c w) : IsName x := by
  cases h with
  | keyword _ hk => exact absurd hk (not_keyword (by decide))
  | name hw hk => exact ⟨hw, hk⟩
  | symbol hs => exact absurd hs (not_symbol (by decide))

theorem Written.functionName_inv (h : Written .functionName x c w) :
    IsName x ∧ isNodeType x = false := by
  cases h with
  | keyword _ hk => exact absurd hk (not_keyword (by decide))
  | functionName hw hk ht => exact ⟨⟨hw, hk⟩, ht⟩
  | symbol hs => exact absurd hs (not_symbol (by decide))

theorem Written.nodeType_inv (h : Written .nodeType x c w) : isNodeType x = true := by
  cases h with
  | keyword _ hk => exact absurd hk (not_keyword (by decide))
  | nodeType _ _ ht => exact ht
  | symbol hs => exact absurd hs (not_symbol (by decide))

theorem Written.axisName_inv (h : Written .axisName x c w) : isAxisName x = true := by
  cases h with
  | keyword _ hk => exact absurd hk (not_keyword (by decide))
  | axisName _ _ ha => exact ha
  | symbol hs => exact absurd hs (not_symbol (by decide))

theorem Written.literal_inv (h : Written .stringLiteral x c w) : IsLiteral x := by
  cases h with
  | keyword _ hk => exact absurd hk (not_keyword (by decide))
  | @literal _ q hq hs hnot =>
    refine ⟨hs, fun ⟨hdouble, hsingle⟩ => ?_⟩
    simp only [quotes, List.mem_cons, List.not_mem_nil, or_false] at hq
    rcases hq with rfl | rfl
    · exact hnot hdouble
    · exact hnot hsingle
  | symbol hs => exact absurd hs (not_symbol (by decide))

theorem Written.integer_inv (h : Written .integer x c w) : IsNumeral x := by
  cases h with
  | keyword _ hk => exact absurd hk (not_keyword (by decide))
  | integer hds _ => exact hds
  | symbol hs => exact absurd hs (not_symbol (by decide))

theorem Written.float_inv (h : Written .float x c w) :
    ∃ ws ds, IsNumeral ws ∧ IsNumeral ds ∧ x = ws ++ ascii '.' :: ds := by
  cases h with
  | keyword _ hk => exact absurd hk (not_keyword (by decide))
  | float hws hds _ => exact ⟨_, _, hws, hds, rfl⟩
  | symbol hs => exact absurd hs (not_symbol (by decide))

theorem Written.comparison_inv (h : Written .comparison x c w) : c ∈ comparisons := by
  cases h with
  | keyword _ hk => exact absurd hk (not_keyword (by decide))
  | symbol hs => exact absurd hs (not_symbol (by decide))
  | comparison hc => exact hc

end Genuine

/-- What a sentence of a symbol denotes is well-formed. -/
def Symbol.Sound : (s : Symbol) → s.Value → Prop
  | .name, q => QName.WellFormed q
  | .test, t => Test.WellFormed t
  | .predicates, ps => allWellFormed ps
  | .step, s => Step.WellFormed s
  | .furtherSteps, p => furtherWellFormed p
  | .path, p => pathWellFormed p
  | .arguments, es => allWellFormed es
  | .source, e => Expr.WellFormed e
  | .primary, e => Expr.WellFormed e
  | .unary, e => Expr.WellFormed e
  | .level _, e => Expr.WellFormed e

theorem separatorOf_isWritten {k : Kind} {s : Separator} (h : separatorOf k = some s) :
    s.IsWritten := by
  unfold separatorOf at h
  split at h
  · cases h
    exact .inl rfl
  · cases h
    exact .inr rfl
  · cases h

theorem narrowed_wellFormed {e : Expr} {ps : List Expr} (he : e.WellFormed)
    (hps : allWellFormed ps) : (narrowed e ps).WellFormed := by
  cases ps with
  | nil => exact he
  | cons p ps => exact ⟨he, by simp, hps⟩

theorem operator_takes {n : Nat} {t : Token} {op : Operator} (ht : t.Genuine)
    (h : operatorAt n = some (t.kind, op)) : op.Takes t.comparison := by
  obtain ⟨w, hw⟩ := ht
  have hplain : t.kind ≠ .comparison → t.comparison = .absent := fun hk =>
    Decidable.of_not_not (mt hw.comparison_iff.1.mp hk)
  unfold operatorAt at h
  split at h
  all_goals
    simp only [Option.some.injEq, Prod.mk.injEq, reduceCtorEq] at h
  case h_6 =>
    obtain ⟨hk, rfl⟩ := h
    rw [← hk] at hw
    exact ⟨by decide, hw.comparison_inv⟩
  all_goals
    obtain ⟨hk, rfl⟩ := h
    exact ⟨by decide, hplain (by rw [← hk]; decide)⟩

/-- The trees that genuine tokens derive are well-formed, production by production. -/
theorem Derives.sound {s : Symbol} {d : Nat} {ts : List Token} {v : s.Value}
    (h : Derives s d ts v) (hts : ∀ t ∈ ts, t.Genuine) : s.Sound v := by
  induction h with
  | bareName hk =>
    obtain ⟨w, hw⟩ := (hts _ (by simp)).written hk
    exact ⟨.inl rfl, hw.name_inv⟩
  | spacedName hk _ hk' =>
    obtain ⟨w, hw⟩ := (hts _ (by simp)).written hk
    obtain ⟨w', hw'⟩ := (hts _ (by simp)).written hk'
    exact ⟨.inr hw.name_inv, hw'.name_inv⟩
  | anyName => exact .inl rfl
  | anyNameIn hk =>
    obtain ⟨w, hw⟩ := (hts _ (by simp)).written hk
    exact .inr (.inl ⟨_, hw.name_inv, rfl⟩)
  | oneName _ ih => exact .inr (.inr ⟨_, ih hts, rfl⟩)
  | typeTest hk =>
    obtain ⟨w, hw⟩ := (hts _ (by simp)).written hk
    exact ⟨hw.nodeType_inv, by simp⟩
  | typeTestOf hk _ ha =>
    obtain ⟨w, hw⟩ := (hts _ (by simp)).written hk
    obtain ⟨w', hw'⟩ := (hts _ (by simp)).written ha
    exact ⟨hw.nodeType_inv, by simpa using hw'.literal_inv⟩
  | noPredicates => trivial
  | predicate _ _ _ _ ihe ihps =>
    exact ⟨ihe fun t ht => hts t (by simp [ht]), ihps fun t ht => hts t (by simp [ht])⟩
  | selfStep => exact .inl ⟨rfl, .inl rfl, rfl⟩
  | parentStep => exact .inl ⟨rfl, .inr rfl, rfl⟩
  | plainStep _ _ iht ihps =>
    exact .inr ⟨by simp, iht fun t ht => hts t (by simp [ht]),
      ihps fun t ht => hts t (by simp [ht])⟩
  | axisStep ha _ _ _ iht ihps =>
    obtain ⟨w, hw⟩ := (hts _ (by simp)).written ha
    refine .inr ⟨?_, iht fun t ht => hts t (by simp [ht]), ihps fun t ht => hts t (by simp [ht])⟩
    simpa [Axis.WellFormed] using hw.axisName_inv
  | attributeStep _ _ _ iht ihps =>
    refine .inr ⟨?_, iht fun t ht => hts t (by simp [ht]), ihps fun t ht => hts t (by simp [ht])⟩
    simp [Axis.WellFormed]
  | noFurtherSteps => trivial
  | furtherStep hsep _ _ ihs ihp =>
    exact ⟨separatorOf_isWritten hsep, ihs fun t ht => hts t (by simp [ht]),
      ihp fun t ht => hts t (by simp [ht])⟩
  | steps _ _ ihs ihp =>
    exact ⟨rfl, ihs fun t ht => hts t (by simp [ht]), ihp fun t ht => hts t (by simp [ht])⟩
  | lastArgument _ ih => exact ⟨ih hts, trivial⟩
  | argument _ _ _ ihe ihes =>
    exact ⟨ihe fun t ht => hts t (by simp [ht]), ihes fun t ht => hts t (by simp [ht])⟩
  | literal hk =>
    obtain ⟨w, hw⟩ := (hts _ (by simp)).written hk
    exact hw.literal_inv
  | integer hk hi =>
    obtain ⟨w, hw⟩ := (hts _ (by simp)).written hk
    obtain ⟨hlo, hhi⟩ := integer?_bounds hw.integer_inv hi
    exact .inl ⟨_, hlo, hhi, rfl⟩
  | float hk hx =>
    obtain ⟨w, hw⟩ := (hts _ (by simp)).written hk
    obtain ⟨ws, ds, hws, hds, hlex⟩ := hw.float_inv
    rw [hlex] at hx
    exact .inr ⟨_, float?_finite hws hds hx, rfl⟩
  | truth => trivial
  | @builtinCall _ _ _ value =>
    refine ⟨.inr ⟨?_, rfl, rfl⟩, trivial⟩
    cases value
    · exact .inr rfl
    · exact .inl rfl
  | reference _ _ ih => exact ih fun t ht => hts t (by simp [ht])
  | emptyCall hk =>
    obtain ⟨w, hw⟩ := (hts _ (by simp)).written hk
    exact ⟨.inl ⟨rfl, hw.functionName_inv⟩, trivial⟩
  | call hk _ _ _ ih =>
    obtain ⟨w, hw⟩ := (hts _ (by simp)).written hk
    exact ⟨.inl ⟨rfl, hw.functionName_inv⟩, ih fun t ht => hts t (by simp [ht])⟩
  | group _ _ _ ih => exact ih fun t ht => hts t (by simp [ht])
  | root => trivial
  | absolute _ _ ih => exact ih fun t ht => hts t (by simp [ht])
  | everywhere _ _ ih => exact ih fun t ht => hts t (by simp [ht])
  | relative _ ih => exact ih hts
  | filtered _ _ ihe ihps =>
    exact narrowed_wellFormed (ihe fun t ht => hts t (by simp [ht]))
      (ihps fun t ht => hts t (by simp [ht]))
  | continued _ _ hsep _ ihe ihps ihp =>
    exact ⟨narrowed_wellFormed (ihe fun t ht => hts t (by simp [ht]))
        (ihps fun t ht => hts t (by simp [ht])), separatorOf_isWritten hsep,
      ihp fun t ht => hts t (by simp [ht])⟩
  | unsigned _ ih => exact ih hts
  | negated _ _ ih => exact ih fun t ht => hts t (by simp [ht])
  | operand _ ih => exact ih hts
  | tighter _ ih => exact ih hts
  | binary _ hop _ ihl ihr =>
    exact ⟨operator_takes (hts _ (by simp)) hop, ihl fun t ht => hts t (by simp [ht]),
      ihr fun t ht => hts t (by simp [ht])⟩

theorem tokens_of_parse {source : Bytes} {e : Expr} (h : parse source = .ok e) :
    ∃ tokens, tokenize source = .ok tokens ∧ parseTokens tokens = .ok e := by
  rw [parse] at h
  split at h
  · cases h
  · next tokens htokens =>
    cases he : parseTokens tokens with
    | error cause =>
      rw [he] at h
      cases h
    | ok e' =>
      rw [he] at h
      cases h
      exact ⟨tokens, htokens, he⟩

theorem denotes_of_tokens {source : Bytes} {tokens : List Token} {e : Expr}
    (h : tokenize source = .ok tokens) (he : parseTokens tokens = .ok e) :
    ∃ nesting ≤ 255, Denotes nesting tokens e := by
  refine denotes_of_parseTokens (fun t ht => ?_) he
  obtain ⟨w, hw⟩ := tokenize_genuine h t ht
  exact hw.kind_ne_eof

/-- A text is read as an expression when its tokens denote that expression. -/
theorem denotes_of_parse {source : Bytes} {e : Expr} (h : parse source = .ok e) :
    ∃ tokens, tokenize source = .ok tokens ∧ ∃ nesting ≤ 255, Denotes nesting tokens e := by
  obtain ⟨tokens, htokens, he⟩ := tokens_of_parse h
  exact ⟨tokens, htokens, denotes_of_tokens htokens he⟩

/-- Whatever is read from a text is well-formed. -/
theorem wellFormed_of_parse {source : Bytes} {e : Expr} (h : parse source = .ok e) :
    e.WellFormed := by
  obtain ⟨tokens, htokens, nesting, -, hden⟩ := denotes_of_parse h
  exact hden.sound (tokenize_genuine htokens)

end NodePath
