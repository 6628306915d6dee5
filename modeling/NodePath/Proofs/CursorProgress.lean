import NodePath.Proofs.CursorFollows
import NodePath.Proofs.OperatorChains

/-!
# Progress at one depth

A routine always ends. Where it succeeds it has taken at least one token, and it leaves the depth as
it found it. So the depth counts what is open around a token and nothing that stands beside it: what
the grammar derives is refused exactly when its nesting, on top of the depth it is read at, goes
over the limit. The nesting of a row is that of its most nested part, however long the row is.
-/

namespace NodePath

open NodePath.Text NodePath.Number

namespace Routine

/-- A routine ends. Where it succeeds it is further on in the same tokens and not behind them, at
the same depth. -/
structure Advances {α : Type} (m : Routine α) (c : Cursor) : Prop where
  ends : ∃ outcome, m c = some outcome
  moves : ∀ {v c'}, m c = some (.ok (v, c')) → c.position < c'.position ∧
    c'.position ≤ c.tokens.length ∧ c'.depth = c.depth ∧ c'.tokens = c.tokens

section Answers

variable {α : Type} {P : List Token → Prop} {m : Routine α} {q : Reading α} {c : Cursor}
  {answer : Except SyntaxError (α × { rest : List Token // P rest })}

theorem Follows.ends (h : Follows m q c) : ∃ outcome, m c = some outcome := by
  cases h with
  | accepts hn hq hm => exact ⟨_, hm⟩
  | refuses hq hm => exact ⟨_, hm⟩

/-- A success is a move by tokens that are left. -/
theorem Follows.moved {v : α} {c' : Cursor} (h : Follows m q c) (hok : m c = some (.ok (v, c'))) :
    ∃ n, n ≤ c.left.length ∧ c' = c.moved n ∧ q c.stop c.left = .ok (v, c.left.drop n) := by
  cases h with
  | refuses hq hm =>
    rw [hm] at hok
    cases hok
  | @accepts w n hn hq hm =>
    rw [hm] at hok
    cases hok
    exact ⟨n, hn, rfl, hq⟩

theorem Follows.advances (h : Follows m q c)
    (hq : ∀ {v rest}, q c.stop c.left = .ok (v, rest) → rest.length < c.left.length)
    (hin : c.position ≤ c.tokens.length) : Advances m c where
  ends := h.ends
  moves hok := by
    obtain ⟨n, hn, rfl, hread⟩ := h.moved hok
    have hlt := hq hread
    rw [List.length_drop] at hlt
    rw [Cursor.left, List.length_drop] at hn hlt
    exact ⟨by simp only [Cursor.moved]; omega, by simp only [Cursor.moved]; omega, rfl, rfl⟩

/-- A routine takes some tokens for a value when their nesting fits, and else refuses them for
it. -/
def ReadsIf (fits : Prop) (m : Routine α) (c : Cursor) (v : α) (us : List Token) : Prop :=
  (fits ∧ m c = some (.ok (v, c.moved us.length))) ∨
    (¬fits ∧ ∃ e, m c = some (.error e) ∧ e.expected = .shallowNesting)

theorem ReadsIf.congr {fits fits' : Prop} {v : α} {us : List Token} (hf : fits ↔ fits')
    (h : ReadsIf fits m c v us) : ReadsIf fits' m c v us := by
  unfold ReadsIf at h ⊢
  rwa [← hf]

/-- A routine that follows a reader answers as the reader does. -/
theorem Follows.reads {fits : Prop} {v : α} {us rest : List Token} (h : Follows m q c)
    (hleft : c.left = us ++ rest) (hq : q c.stop (us ++ rest) = plain answer)
    (ha : Answers fits answer v rest) : ReadsIf fits m c v us := by
  rw [← hleft] at hq
  rcases ha with ⟨hfits, hr, rfl⟩ | ⟨hfits, e, rfl, he⟩
  · left
    refine ⟨hfits, ?_⟩
    cases h with
    | refuses hq' hm =>
      rw [hq] at hq'
      cases hq'
    | @accepts w n hn hq' hm =>
      obtain ⟨rfl, hrest⟩ := Prod.mk.inj (Except.ok.inj (hq.symm.trans hq'))
      have hlen : c.left.length = us.length + rest.length := by
        rw [hleft, List.length_append]
      have hdrop : rest.length = c.left.length - n :=
        (congrArg List.length hrest).trans List.length_drop
      obtain rfl : n = us.length := by omega
      exact hm
  · right
    refine ⟨hfits, e, ?_, he⟩
    cases h with
    | accepts hn hq' hm =>
      rw [hq] at hq'
      cases hq'
    | refuses hq' hm =>
      rw [hq] at hq'
      cases hq'
      exact hm

end Answers

/-- What is read by a routine that takes tokens. The calls of a function are read whatever token
stands for the name. -/
inductive Construct where
  | binary (floor : Int)
  | unary
  | primary
  | filtered
  | source
  | call
  | path
  | step
  | test
  | name

def Construct.Value : Construct → Type
  | .path => Path
  | .step => Step
  | .test => Test
  | .name => QName
  | _ => Expr

def Construct.routine (calls : Nat) : (k : Construct) → Routine k.Value
  | .binary floor => readBinary calls floor
  | .unary => readUnary calls
  | .primary => readPrimary calls
  | .filtered => readFiltered calls
  | .source => readSource calls
  | .call => readCall calls
  | .path => readPath calls
  | .step => readStep calls
  | .test => readTest
  | .name => readName

/-- The reader of a construct where some levels of nesting are left. -/
def Construct.reading (levels : Nat) : (k : Construct) → Reading k.Value
  | .binary floor => fun stop ts => plain (climb (parseUnary stop levels) floor.toNat ts)
  | .unary => fun stop ts => plain (parseUnary stop levels ts)
  | .primary => fun stop ts => plain (parsePrimary stop (parseExpression stop levels) ts)
  | .filtered => fun stop ts => plain (parseFiltered stop (parseExpression stop levels) ts)
  | .source => fun stop ts => plain (parseSource stop (parseExpression stop levels) ts)
  | .call => namedCall fun stop => parseExpression stop levels
  | .path => fun stop ts => plain (parsePath stop (parseExpression stop levels) ts)
  | .step => fun stop ts => plain (parseStep stop (parseExpression stop levels) ts)
  | .test => fun stop ts => plain (parseTest stop ts)
  | .name => fun stop ts => plain (parseName stop ts)

theorem Construct.follows (k : Construct) {calls : Nat} {c : Cursor}
    (hcalls : c.callDepth ≤ calls) : Follows (k.routine calls) (k.reading c.levels) c := by
  have hx := follows_expression c.levels
  have hu := follows_unary c.levels
  rw [Cursor.callDepth] at hcalls
  cases k with
  | binary floor => exact follows_binary hu calls floor c rfl (by omega)
  | unary => exact hu calls c rfl (by omega)
  | primary => exact follows_primary hx calls c rfl (by omega)
  | filtered => exact follows_filtered hx calls c rfl (by omega)
  | source => exact follows_source hx calls c rfl (by omega)
  | call => exact follows_call hx calls c rfl (by omega)
  | path => exact follows_path hx calls c rfl (by omega)
  | step => exact follows_step hx calls c rfl (by omega)
  | test => exact follows_test
  | name => exact follows_name

theorem Construct.reading_shorter (k : Construct) {levels : Nat} {stop : Int} {ts rest : List Token}
    {v : k.Value} (h : k.reading levels stop ts = .ok (v, rest)) : rest.length < ts.length := by
  cases k with
  | call =>
    obtain ⟨hlt, -⟩ := plain_eq_ok h
    rw [List.length_drop] at hlt
    omega
  | _ =>
    obtain ⟨hlt, -⟩ := plain_eq_ok h
    exact hlt

theorem Construct.advances (k : Construct) {calls : Nat} {c : Cursor}
    (hin : c.position ≤ c.tokens.length) (hcalls : c.callDepth ≤ calls) :
    Advances (k.routine calls) c :=
  (k.follows hcalls).advances k.reading_shorter hin

/-- Predicates are returned exactly when tokens were taken. -/
theorem predicates_taken {stop : Int} {expression : Parser Expr} {ts rest : List Token}
    {ps : List Expr} (h : plain (parsePredicates stop expression ts) = .ok (ps, rest)) :
    rest.length < ts.length ↔ ps ≠ [] := by
  obtain ⟨hr, hok⟩ := plain_eq_ok h
  rw [parsePredicates] at hok
  split at hok
  · cases hok
    simp
  · obtain ⟨⟨first, ts₂, h₂⟩, -, hok⟩ := NodePath.bind_ok hok
    obtain ⟨⟨close, ts₃, h₃⟩, -, hok⟩ := NodePath.bind_ok hok
    obtain ⟨⟨others, ts₄, h₄⟩, -, hok⟩ := NodePath.bind_ok hok
    cases hok
    simp
    omega

end Routine

/-- The routine that reads the sentences of a symbol. -/
def Symbol.routine (calls : Nat) : (s : Symbol) → Routine s.Value
  | .name => Routine.readName
  | .test => Routine.readTest
  | .predicates => Routine.readPredicates calls
  | .step => Routine.readStep calls
  | .furtherSteps => Routine.readFurtherSteps calls
  | .path => Routine.readPath calls
  | .arguments => Routine.readArguments calls
  | .source => Routine.readSource calls
  | .primary => Routine.readPrimary calls
  | .unary => Routine.readUnary calls
  | .level n => Routine.readBinary calls n

/-- The levels of nesting that stand open around the primaries of a symbol, apart from what is
written. -/
def Symbol.opened : Symbol → Nat
  | .unary => 1
  | .level _ => 1
  | _ => 0

/-- What may stand behind a sentence and leaves it complete. -/
def Symbol.Stops : Symbol → List Token → Prop
  | .level n, rest => (Symbol.level n).Ends rest ∧ BindsBelow n rest
  | s, rest => s.Ends rest

/-- Names and tests hold nothing that nests. -/
theorem Derives.nesting_eq_zero {s : Symbol} {d : Nat} {ts : List Token} {v : s.Value}
    (h : Derives s d ts v) (hs : s = .name ∨ s = .test) : d = 0 := by
  rcases hs with rfl | rfl <;> cases h <;> rfl

open Routine

/-- A derivation is read at a depth exactly when its nesting fits on top of it. -/
theorem Derives.reads {s : Symbol} {d : Nat} {us rest : List Token} {v : s.Value}
    (h : Derives s d us v) {calls : Nat} {c : Cursor} (hdepth : c.depth ≤ maxLevels)
    (hcalls : c.callDepth ≤ calls) (hleft : c.left = us ++ rest) (hrest : s.Stops rest) :
    ReadsIf (c.depth + s.opened + d ≤ maxLevels) (s.routine calls) c v us := by
  have hx := follows_expression c.levels
  have hu := follows_unary c.levels
  have hread := h.read c.stop
  have hwithin : d ≤ c.levels ↔ c.depth + d ≤ maxLevels := by
    rw [Cursor.levels]
    omega
  have hbelow : d < c.levels ↔ c.depth + 1 + d ≤ maxLevels := by
    rw [Cursor.levels]
    omega
  rw [Cursor.callDepth] at hcalls
  cases s with
  | name =>
    obtain rfl := h.nesting_eq_zero (.inl rfl)
    exact (follows_name.reads hleft rfl (hread rest hrest)).congr (iff_of_true trivial hdepth)
  | test =>
    obtain rfl := h.nesting_eq_zero (.inr rfl)
    exact (follows_test.reads hleft rfl (hread rest hrest)).congr (iff_of_true trivial hdepth)
  | predicates =>
    have hfollows := follows_predicates hx calls c rfl (by omega)
    exact (hfollows.reads hleft rfl (hread _ rest hrest)).congr hwithin
  | step =>
    have hfollows := follows_step hx calls c rfl (by omega)
    exact (hfollows.reads hleft rfl (hread _ rest hrest)).congr hwithin
  | furtherSteps =>
    have hfollows := follows_furtherSteps hx calls c rfl (by omega)
    exact (hfollows.reads hleft rfl (hread _ rest hrest)).congr hwithin
  | path =>
    have hfollows := follows_path hx calls c rfl (by omega)
    exact (hfollows.reads hleft rfl (hread _ rest hrest)).congr hwithin
  | arguments =>
    have hfollows := follows_arguments hx calls c rfl hcalls
    exact (hfollows.reads hleft rfl (hread _ rest hrest)).congr hwithin
  | source =>
    have hfollows := follows_source hx calls c rfl (by omega)
    exact (hfollows.reads hleft rfl (hread _ rest hrest)).congr hwithin
  | primary =>
    have hfollows := follows_primary hx calls c rfl (by omega)
    exact (hfollows.reads hleft rfl (hread _ rest hrest)).congr hwithin
  | unary =>
    have hfollows := hu calls c rfl (by omega)
    exact (hfollows.reads hleft rfl (hread _ rest hrest)).congr hbelow
  | level n =>
    have hfollows := follows_binary hu calls n c rfl (by omega)
    have hclimb := hread c.levels n rest True v rest (Nat.le_refl _) hrest.1
      (climbFrom_stops hrest.2)
    refine (hfollows.reads hleft rfl hclimb).congr ?_
    rw [and_true]
    exact hbelow

/-- Parts side by side: predicates, arguments, steps, or operands with operators between them. The
list holds the nesting that each part has in the row, from left to right. -/
inductive Row : (s : Symbol) → List Nat → List Token → s.Value → Prop where
  | noPredicates : Row .predicates [] [] ([] : List Expr)
  | predicate {l r : Token} {ts us : List Token} {d : Nat} {ns : List Nat} {e : Expr}
      {ps : List Expr} : l.kind = .leftBracket → Derives (.level 1) d ts e →
      r.kind = .rightBracket → Row .predicates ns us ps →
      Row .predicates ((d + 1) :: ns) (l :: (ts ++ r :: us)) (e :: ps : List Expr)
  | lastArgument {ts : List Token} {d : Nat} {e : Expr} : Derives (.level 1) d ts e →
      Row .arguments [d + 1] ts ([e] : List Expr)
  | argument {c : Token} {ts us : List Token} {d : Nat} {ns : List Nat} {e : Expr}
      {es : List Expr} : Derives (.level 1) d ts e → c.kind = .comma → Row .arguments ns us es →
      Row .arguments ((d + 1) :: ns) (ts ++ c :: us) (e :: es : List Expr)
  | noFurtherSteps : Row .furtherSteps [] [] ([] : Path)
  | furtherStep {t : Token} {ts us : List Token} {d : Nat} {ns : List Nat} {separator : Separator}
      {s : Step} {p : Path} : separatorOf t.kind = some separator → Derives .step d ts s →
      Row .furtherSteps ns us p →
      Row .furtherSteps (d :: ns) (t :: (ts ++ us)) ((separator, s) :: p : Path)
  | steps {ts us : List Token} {d : Nat} {ns : List Nat} {s : Step} {p : Path} :
      Derives .step d ts s → Row .furtherSteps ns us p →
      Row .path (d :: ns) (ts ++ us) ((.absent, s) :: p : Path)
  | operand {ts : List Token} {d : Nat} {e : Expr} : Derives .unary d ts e →
      Row (.level 10) [d] ts e
  | tighter {n : Nat} {ns : List Nat} {ts : List Token} {e : Expr} : Row (.level (n + 1)) ns ts e →
      Row (.level n) ns ts e
  | binary {n : Nat} {t : Token} {ns ns' : List Nat} {ts us : List Token} {op : Operator}
      {l r : Expr} : Row (.level n) ns ts l → operatorAt n = some (t.kind, op) →
      Row (.level (n + 1)) ns' us r →
      Row (.level n) (ns ++ ns') (ts ++ t :: us) (Expr.binary op t.comparison l r)

namespace Row

variable {s : Symbol} {ns : List Nat} {ts : List Token} {v : s.Value}

theorem max_le_cons {d d' : Nat} (h : ∀ k, d' ≤ k ↔ ∀ n ∈ ns, n ≤ k) (k : Nat) :
    max d d' ≤ k ↔ ∀ n ∈ d :: ns, n ≤ k := by
  rw [Nat.max_le, h k, List.forall_mem_cons]

/-- The nesting of a row is the largest one of its parts. -/
theorem derives (h : Row s ns ts v) :
    ∃ d, Derives s d ts v ∧ ∀ k, d ≤ k ↔ ∀ n ∈ ns, n ≤ k := by
  induction h with
  | noPredicates => exact ⟨0, .noPredicates, by simp⟩
  | predicate hl he hr _ ih =>
    obtain ⟨d', hps, hmax⟩ := ih
    exact ⟨_, .predicate hl he hr hps, max_le_cons hmax⟩
  | lastArgument he => exact ⟨_, .lastArgument he, by simp⟩
  | argument he hc _ ih =>
    obtain ⟨d', hes, hmax⟩ := ih
    exact ⟨_, .argument he hc hes, max_le_cons hmax⟩
  | noFurtherSteps => exact ⟨0, .noFurtherSteps, by simp⟩
  | furtherStep ht hstep _ ih =>
    obtain ⟨d', hp, hmax⟩ := ih
    exact ⟨_, .furtherStep ht hstep hp, max_le_cons hmax⟩
  | steps hstep _ ih =>
    obtain ⟨d', hp, hmax⟩ := ih
    exact ⟨_, .steps hstep hp, max_le_cons hmax⟩
  | operand he => exact ⟨_, .operand he, by simp⟩
  | tighter _ ih =>
    obtain ⟨d, he, hmax⟩ := ih
    exact ⟨d, .tighter he, hmax⟩
  | binary _ hop _ ihl ihr =>
    obtain ⟨d, hl, hmax⟩ := ihl
    obtain ⟨d', hr, hmax'⟩ := ihr
    refine ⟨_, .binary hl hop hr, fun k => ?_⟩
    simp only [Nat.max_le, hmax, hmax', List.mem_append, or_imp, forall_and]

/-- Operators have operands. -/
theorem ne_nil (h : Row s ns ts v) (hs : s.opened ≠ 0) : ns ≠ [] := by
  induction h with
  | operand => simp
  | tighter _ ih => exact ih hs
  | binary _ _ _ ih => simp [ih hs]
  | _ => exact absurd rfl hs

/-- A row is read at a depth exactly when each of its parts fits on top of it. -/
theorem reads (h : Row s ns ts v) {calls : Nat} {c : Cursor} {rest : List Token}
    (hdepth : c.depth ≤ maxLevels) (hcalls : c.callDepth ≤ calls) (hleft : c.left = ts ++ rest)
    (hrest : s.Stops rest) :
    ReadsIf (∀ n ∈ ns, c.depth + s.opened + n ≤ maxLevels) (s.routine calls) c v ts := by
  obtain ⟨d, hd, hmax⟩ := h.derives
  refine (hd.reads hdepth hcalls hleft hrest).congr ?_
  by_cases hroom : c.depth + s.opened ≤ maxLevels
  · have hfits : ∀ n, c.depth + s.opened + n ≤ maxLevels ↔
        n ≤ maxLevels - (c.depth + s.opened) := fun n => by omega
    simp only [hfits, hmax]
  · obtain ⟨n, hn⟩ := List.exists_mem_of_ne_nil ns (h.ne_nil (by omega))
    exact iff_of_false (by omega) fun hall => by
      have := hall n hn
      omega

end Row

/-- From every place in any tokens and at every depth, each routine ends, and no deeper calls change
the answer, which is that of its reader. If it succeeds, it stands further on in the same tokens, at
the same depth; only predicates may leave it where it was, and they do when there are none. A
sentence is refused for its nesting exactly when that goes over the limit on top of the depth, and a
row when one of its parts does. -/
theorem routines_advance_at_one_depth (c : Cursor) (hin : c.position ≤ c.tokens.length)
    (hdepth : c.depth ≤ maxLevels) (calls : Nat) (hcalls : c.callDepth ≤ calls) :
    (∀ k : Construct,
      Advances (k.routine calls) c ∧ Follows (k.routine calls) (k.reading c.levels) c) ∧
    (∃ outcome, readPredicates calls c = some outcome) ∧
    (∀ ps c', readPredicates calls c = some (.ok (ps, c')) →
      c.position ≤ c'.position ∧ (c.position < c'.position ↔ ps ≠ []) ∧
        c'.position ≤ c.tokens.length ∧ c'.depth = c.depth ∧ c'.tokens = c.tokens) ∧
    readTokens c.tokens = some (parseTokens c.tokens) ∧
    (∀ s d us rest v, Derives s d us v → c.left = us ++ rest → s.Stops rest →
      ReadsIf (c.depth + s.opened + d ≤ maxLevels) (s.routine calls) c v us) ∧
    ∀ s ns us rest v, Row s ns us v → c.left = us ++ rest → s.Stops rest →
      ReadsIf (∀ n ∈ ns, c.depth + s.opened + n ≤ maxLevels) (s.routine calls) c v us := by
  have hps := follows_predicates (follows_expression c.levels) calls c rfl
    (Nat.le_trans (Nat.add_le_add_left (by decide) _) hcalls)
  refine ⟨fun k => ⟨k.advances hin hcalls, k.follows hcalls⟩, hps.ends, ?_,
    readTokens_eq c.tokens, fun _ _ _ _ _ h => h.reads hdepth hcalls,
    fun _ _ _ _ _ h => h.reads hdepth hcalls⟩
  intro ps c' hok
  obtain ⟨n, hn, rfl, hplain⟩ := hps.moved hok
  have htaken := predicates_taken hplain
  rw [List.length_drop] at htaken
  have hstrict : c.position < (c.moved n).position ↔ ps ≠ [] := by
    rw [← htaken]
    simp only [Cursor.moved]
    omega
  rw [Cursor.left, List.length_drop] at hn
  refine ⟨?_, hstrict, ?_, rfl, rfl⟩
  all_goals
    simp only [Cursor.moved]
    omega

/-- In front of the predicates of `a[1][2]`, with some levels open. -/
def atPredicates (depth : Nat) : Cursor where
  tokens := [⟨.name, utf8 "a", 0, .absent⟩, ⟨.leftBracket, utf8 "[", 1, .absent⟩,
    ⟨.integer, utf8 "1", 2, .absent⟩, ⟨.rightBracket, utf8 "]", 3, .absent⟩,
    ⟨.leftBracket, utf8 "[", 4, .absent⟩, ⟨.integer, utf8 "2", 5, .absent⟩,
    ⟨.rightBracket, utf8 "]", 6, .absent⟩]
  position := 1
  depth := depth

theorem row_atPredicates (depth : Nat) : Row .predicates [1, 1] (atPredicates depth).left
    ([.number (.ofInt 1), .number (.ofInt 2)] : List Expr) := by
  have hone : Derives (.level 10) 0 [⟨.integer, utf8 "1", 2, .absent⟩] (.number (.ofInt 1)) :=
    .operand (derives_numeral rfl (by decide))
  have htwo : Derives (.level 10) 0 [⟨.integer, utf8 "2", 5, .absent⟩] (.number (.ofInt 2)) :=
    .operand (derives_numeral rfl (by decide))
  exact .predicate rfl (hone.loosen (by decide)) rfl
    (.predicate rfl (htwo.loosen (by decide)) rfl .noPredicates)

/-- Each of two predicates needs the last level, and both are read. When that level is open already,
they are refused. -/
theorem routines_advance_at_one_depth_lastLevel :
    (atPredicates 255).position ≤ (atPredicates 255).tokens.length ∧ 255 ≤ maxLevels ∧
      (atPredicates 255).callDepth ≤ 69 ∧
      readPredicates 69 (atPredicates 255) = some (.ok
        ([.number (.ofInt 1), .number (.ofInt 2)], { atPredicates 255 with position := 7 })) ∧
      ∃ e, readPredicates 69 (atPredicates 256) = some (.error e) ∧
        e.expected = .shallowNesting := by
  refine ⟨by decide, by decide, by decide, ?_, ?_⟩
  · obtain ⟨-, -, -, -, -, hrow⟩ := routines_advance_at_one_depth (atPredicates 255) (by decide)
      (by decide) 69 (by decide)
    rcases hrow _ _ _ [] _ (row_atPredicates 255) (by simp) nofun with ⟨-, hok⟩ | ⟨hdeep, -⟩
    · exact hok
    · exact absurd (by decide) hdeep
  · obtain ⟨-, -, -, -, -, hrow⟩ := routines_advance_at_one_depth (atPredicates 256) (by decide)
      (by decide) 69 (by decide)
    rcases hrow _ _ _ [] _ (row_atPredicates 256) (by simp) nofun with ⟨hfits, -⟩ | ⟨-, herror⟩
    · exact absurd hfits (by decide)
    · exact herror

end NodePath
