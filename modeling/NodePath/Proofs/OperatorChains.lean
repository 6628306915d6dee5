import Mathlib.Data.List.Induction
import NodePath.Proofs.Locality

/-!
# Chains of operators

Operands with operators between them are joined to one tree. In that tree an operator binds more
tightly than the one above it, or as tightly when it stands to the left. There is exactly one such
tree for every chain: the last operator and operand can be taken off it and put back in one way
only. The climbing loop builds it, because it leaves an operator that binds too loosely for a right
operand to the loop it came from.
-/

namespace NodePath

open NodePath.Text NodePath.Number

/-- A token that is a binary operator. -/
structure Sign where
  token : Token
  op : Operator
  binding : Nat
  reads : binaryOperator? token.kind = some (op, binding)

/-- Tokens that are read as one operand to their end. -/
structure Operand (levels : Nat) where
  tokens : List Token
  tree : Expr
  reads : ∃ stop h, parseUnary stop levels tokens = .ok (tree, ⟨[], h⟩)

/-- Operands with operators between them. -/
structure Chain (levels : Nat) where
  first : Operand levels
  links : List (Sign × Operand levels)

variable {levels : Nat}

namespace Chain

def tokens (c : Chain levels) : List Token :=
  c.first.tokens ++ c.links.flatMap fun link => link.1.token :: link.2.tokens

def last (c : Chain levels) : Operand levels :=
  (c.links.getLast?.map Prod.snd).getD c.first

def join (l : Chain levels) (s : Sign) (r : Chain levels) : Chain levels :=
  ⟨l.first, l.links ++ (s, r.first) :: r.links⟩

@[simp] theorem tokens_join (l : Chain levels) (s : Sign) (r : Chain levels) :
    (l.join s r).tokens = l.tokens ++ s.token :: r.tokens := by
  simp [tokens, join]

@[simp] theorem last_join (l : Chain levels) (s : Sign) (r : Chain levels) :
    (l.join s r).last = r.last := by
  cases h : r.links.getLast? <;> simp [last, join, List.getLast?_cons, h]

end Chain

/-- A tree over operands. -/
inductive Grouping (levels : Nat) where
  | operand (u : Operand levels)
  | binary (l : Grouping levels) (s : Sign) (r : Grouping levels)

namespace Grouping

/-- The operands and operators from left to right. -/
def chain : Grouping levels → Chain levels
  | operand u => ⟨u, []⟩
  | binary l s r => l.chain.join s r.chain

def expr : Grouping levels → Expr
  | operand u => u.tree
  | binary l s r => .binary s.op s.token.comparison l.expr r.expr

/-- How tightly the operator at the root binds, if there is one. -/
def root? : Grouping levels → Option Nat
  | operand _ => none
  | binary _ s _ => some s.binding

/-- The left operand of an operator binds at least as tightly as the operator, and its right operand
more tightly. -/
inductive Respects : Grouping levels → Prop
  | operand (u : Operand levels) : Respects (.operand u)
  | binary {l r : Grouping levels} {s : Sign} (left : Respects l) (right : Respects r)
      (hleft : ∀ b ∈ l.root?, s.binding ≤ b) (hright : ∀ b ∈ r.root?, s.binding < b) :
      Respects (.binary l s r)

/-- The tree of a chain to which an operator and an operand are added at the end. -/
def extend (s : Sign) (u : Operand levels) : Grouping levels → Grouping levels
  | operand v => .binary (.operand v) s (.operand u)
  | binary l s' r =>
    if s'.binding < s.binding then .binary l s' (r.extend s u)
    else .binary (.binary l s' r) s (.operand u)

variable {g g' : Grouping levels} {s : Sign} {u : Operand levels}

theorem eq_operand (h : g.chain.links = []) : g = .operand g.chain.first := by
  cases g with
  | operand u => rfl
  | binary l s r => simp [chain, Chain.join] at h

theorem chain_extend (g : Grouping levels) (s : Sign) (u : Operand levels) :
    (g.extend s u).chain = g.chain.join s ⟨u, []⟩ := by
  induction g with
  | operand v => rfl
  | binary l s' r _ ih =>
    rw [extend]
    split
    · simp [chain, Chain.join, ih]
    · rfl

theorem extend_eq_binary (h : ∀ b ∈ g.root?, s.binding ≤ b) :
    g.extend s u = .binary g s (.operand u) := by
  cases g with
  | operand v => rfl
  | binary l s' r =>
    have hs : s.binding ≤ s'.binding := h s'.binding rfl
    rw [extend, if_neg (Nat.not_lt.mpr hs)]

/-- The root of an extended tree is the looser one of the old root and the new operator. -/
theorem root_extend (g : Grouping levels) (s : Sign) (u : Operand levels) :
    ∃ b, (g.extend s u).root? = some b ∧ b ≤ s.binding ∧ (∀ b' ∈ g.root?, b ≤ b') ∧
      (b = s.binding ∨ b ∈ g.root?) := by
  cases g with
  | operand v => exact ⟨s.binding, rfl, Nat.le_refl _, nofun, .inl rfl⟩
  | binary l s' r =>
    rw [extend]
    split
    · next hlt =>
      refine ⟨s'.binding, rfl, Nat.le_of_lt hlt, ?_, .inr rfl⟩
      rintro b' ⟨⟩
      exact Nat.le_refl _
    · next hge =>
      refine ⟨s.binding, rfl, Nat.le_refl _, ?_, .inl rfl⟩
      rintro b' ⟨⟩
      exact Nat.not_lt.mp hge

namespace Respects

theorem extend (h : g.Respects) (s : Sign) (u : Operand levels) : (g.extend s u).Respects := by
  induction h with
  | operand v => exact .binary (.operand v) (.operand u) nofun nofun
  | @binary l r s' hl hr hleft hright _ ih =>
    rw [Grouping.extend]
    split
    · next hlt =>
      refine .binary hl ih hleft fun b hb => ?_
      obtain ⟨b', hroot, -, -, hcases⟩ := root_extend r s u
      obtain rfl : b' = b := Option.some.inj (hroot.symm.trans hb)
      rcases hcases with rfl | hmem
      · exact hlt
      · exact hright b' hmem
    · next hge =>
      refine .binary (.binary hl hr hleft hright) (.operand u) ?_ nofun
      rintro b ⟨⟩
      exact Nat.not_lt.mp hge

/-- The last operator and operand of a chain can be taken off its tree. -/
theorem exists_extend (h : g.Respects) {links : List (Sign × Operand levels)}
    (hlinks : g.chain.links = links ++ [(s, u)]) :
    ∃ g' : Grouping levels,
      g'.Respects ∧ g'.chain = ⟨g.chain.first, links⟩ ∧ g = g'.extend s u := by
  induction h generalizing links with
  | operand v => simp [chain] at hlinks
  | @binary l r s' hl hr hleft hright _ ih =>
    have hall : l.chain.links ++ (s', r.chain.first) :: r.chain.links = links ++ [(s, u)] := hlinks
    rcases List.eq_nil_or_concat' r.chain.links with hnil | ⟨front, link, hfront⟩
    · rw [hnil] at hall
      obtain ⟨rfl, hlast⟩ := List.append_inj' hall rfl
      obtain ⟨rfl, rfl⟩ := Prod.mk.inj (List.singleton_inj.mp hlast)
      exact ⟨l, hl, rfl, by rw [extend_eq_binary hleft, ← eq_operand hnil]⟩
    · rw [hfront, ← List.cons_append, ← List.append_assoc] at hall
      obtain ⟨rfl, hlast⟩ := List.append_inj' hall rfl
      obtain rfl := List.singleton_inj.mp hlast
      obtain ⟨r', hr', hchain, rfl⟩ := ih hfront
      obtain ⟨b, hroot, hnew, hold, -⟩ := root_extend r' s u
      have hb : s'.binding < b := hright b hroot
      refine ⟨.binary l s' r', .binary hl hr' hleft fun b' hb' => ?_, ?_, ?_⟩
      · exact Nat.lt_of_lt_of_le hb (hold b' hb')
      · simp [chain, Chain.join, hchain]
      · rw [Grouping.extend, if_pos (Nat.lt_of_lt_of_le hb hnew)]

/-- A chain has one tree. -/
theorem eq_of_chain_eq (h : g.Respects) (h' : g'.Respects) (heq : g.chain = g'.chain) :
    g = g' := by
  obtain ⟨links, hlinks⟩ : ∃ links, g.chain.links = links := ⟨_, rfl⟩
  induction links using List.reverseRecOn generalizing g g' with
  | nil =>
    have hlinks' : g'.chain.links = [] := heq ▸ hlinks
    rw [eq_operand hlinks, eq_operand hlinks', heq]
  | append_singleton links link ih =>
    obtain ⟨f, hf, hchain, rfl⟩ := h.exists_extend hlinks
    obtain ⟨f', hf', hchain', rfl⟩ := h'.exists_extend (heq ▸ hlinks)
    rw [← heq] at hchain'
    rw [ih hf hf' (hchain.trans hchain'.symm) (congrArg Chain.links hchain)]

end Respects

/-- Every chain has a tree. -/
theorem exists_respects (c : Chain levels) : ∃ g : Grouping levels, g.Respects ∧ g.chain = c := by
  obtain ⟨first, links⟩ := c
  induction links using List.reverseRecOn with
  | nil => exact ⟨.operand first, .operand first, rfl⟩
  | append_singleton links link ih =>
    obtain ⟨g, hg, hchain⟩ := ih
    refine ⟨g.extend link.1 link.2, hg.extend link.1 link.2, ?_⟩
    rw [chain_extend, hchain]
    rfl

theorem root_mem {b : Nat} (h : b ∈ g.root?) : ∃ link ∈ g.chain.links, link.1.binding = b := by
  cases g with
  | operand u => cases h
  | binary l s r =>
    cases h
    exact ⟨(s, r.chain.first), by simp [chain, Chain.join], rfl⟩

end Grouping

/-- The operand is not extended by what follows: in front of the next token, that token is left. -/
def Operand.EndsBefore (u : Operand levels) (rest : List Token) : Prop :=
  ∃ stop h, parseUnary stop levels (u.tokens ++ rest.take 1) = .ok (u.tree, ⟨rest.take 1, h⟩)

theorem nextAlike_take (ts : List Token) : NextAlike (ts.take 1) ts := by
  cases ts with
  | nil => exact .refl []
  | cons t rest => exact .cons (.refl t)

/-- The next token alone decides where an operand ends. -/
theorem Operand.EndsBefore.read {u : Operand levels} {rest : List Token} (h : u.EndsBefore rest)
    (stop : Int) : plain (parseUnary stop levels (u.tokens ++ rest)) = .ok (u.tree, rest) := by
  obtain ⟨stop', hr, hok⟩ := h
  have hplain : plain (parseUnary stop' levels (u.tokens ++ rest.take 1)) =
      .ok (u.tree, rest.take 1) := by
    rw [hok]
    rfl
  obtain ⟨us, hus, -, hread⟩ := (settles_unary levels).accepts hplain
  obtain rfl := List.append_cancel_right hus
  exact hread stop u.tokens rest (alikeAll_refl _) (nextAlike_take rest)

theorem Operand.endsBefore (u : Operand levels) {rest : List Token}
    (h : (nextKind rest).extendsPrimary = false) : u.EndsBefore rest := by
  obtain ⟨stop, hr, hok⟩ := u.reads
  obtain ⟨d, us, hd, hus, hderives⟩ := parseUnary_explained levels hok
  obtain rfl : us = u.tokens := by rw [hus, List.append_nil]
  have hend : Symbol.unary.Ends (rest.take 1) := by cases rest <;> exact h
  rcases hderives.read stop levels (rest.take 1) hend with ⟨-, h', hok'⟩ | ⟨hdeep, -⟩
  · exact ⟨stop, h', hok'⟩
  · exact absurd hd hdeep

/-- No operator extends the operand in front of it. -/
theorem Operand.endsBefore_sign (u : Operand levels) (s : Sign) (rest : List Token) :
    u.EndsBefore (s.token :: rest) :=
  u.endsBefore (extendsPrimary_of_operator s.reads)

section Climbing

variable {stop : Int} {floor : Nat}

theorem bindsBelow_sign (s : Sign) (rest : List Token) :
    BindsBelow (s.binding + 1) (s.token :: rest) := by
  intro op b h
  rw [s.reads] at h
  cases h
  exact Nat.lt_succ_self _

theorem climb_operand {u : Operand levels} {rest : List Token} (h : u.EndsBefore rest) :
    plain (climb (parseUnary stop levels) floor (u.tokens ++ rest)) =
      plain (climbFrom (parseUnary stop levels) floor u.tree rest) := by
  obtain ⟨hr, hok⟩ := plain_eq_ok (h.read stop)
  rw [climb, hok, ok_bind]
  exact plain_pass fun _ _ _ => rfl

/-- Behind an operator the right operand is read first. When an operator follows that binds no more
tightly, the loop goes on with both operands joined. -/
theorem climbFrom_sign {s : Sign} {left right : Expr} {ts rest : List Token}
    (hfloor : floor ≤ s.binding)
    (hright : plain (climb (parseUnary stop levels) (s.binding + 1) ts) = .ok (right, rest)) :
    plain (climbFrom (parseUnary stop levels) floor left (s.token :: ts)) =
      plain (climbFrom (parseUnary stop levels) floor
        (.binary s.op s.token.comparison left right) rest) := by
  obtain ⟨hr, hok⟩ := plain_eq_ok hright
  rw [climbFrom, s.reads]
  dsimp only
  rw [if_neg (Nat.not_lt.mpr hfloor), hok, ok_bind]
  exact plain_pass fun _ _ _ => rfl

/-- A tree is built while its chain is read, and the loop goes on with it. -/
theorem Grouping.Respects.climb_chain {g : Grouping levels} (h : g.Respects) {rest : List Token}
    (hfloor : ∀ b ∈ g.root?, floor ≤ b) (hnext : ∀ b ∈ g.root?, BindsBelow (b + 1) rest)
    (hend : g.chain.last.EndsBefore rest) :
    plain (climb (parseUnary stop levels) floor (g.chain.tokens ++ rest)) =
      plain (climbFrom (parseUnary stop levels) floor g.expr rest) := by
  induction h generalizing floor rest with
  | operand u =>
    have htokens : (Grouping.operand u).chain.tokens = u.tokens := by simp [chain, Chain.tokens]
    rw [htokens]
    exact climb_operand hend
  | @binary l r s _ _ hleft hright ihl ihr =>
    have hs : floor ≤ s.binding := hfloor s.binding rfl
    have hbelow : BindsBelow (s.binding + 1) rest := hnext s.binding rfl
    rw [chain, Chain.last_join] at hend
    have hr : plain (climb (parseUnary stop levels) (s.binding + 1)
        (r.chain.tokens ++ rest)) = .ok (r.expr, rest) := by
      rw [ihr hright (fun b hb => hbelow.mono (by have := hright b hb; omega)) hend]
      exact climbFrom_stopped hbelow
    have hl : plain (climb (parseUnary stop levels) floor
        (l.chain.tokens ++ s.token :: (r.chain.tokens ++ rest))) =
        plain (climbFrom (parseUnary stop levels) floor l.expr
          (s.token :: (r.chain.tokens ++ rest))) := by
      refine ihl (fun b hb => Nat.le_trans hs (hleft b hb)) (fun b hb => ?_)
        (l.chain.last.endsBefore_sign s _)
      exact (bindsBelow_sign s _).mono (Nat.succ_le_succ (hleft b hb))
    rw [chain, Chain.tokens_join, List.append_assoc, List.cons_append, hl]
    exact climbFrom_sign hs hr

/-- A tree whose operators bind tightly enough is what the climb answers, when the next token is
neither an operator that binds tightly enough nor one that extends the last operand. -/
theorem Grouping.Respects.climb_eq_ok {g : Grouping levels} (h : g.Respects) {rest : List Token}
    (hfloor : ∀ link ∈ g.chain.links, floor ≤ link.1.binding) (hrest : BindsBelow floor rest)
    (hend : g.chain.last.EndsBefore rest) :
    ∃ hr, climb (parseUnary stop levels) floor (g.chain.tokens ++ rest) =
      .ok (g.expr, ⟨rest, hr⟩) := by
  have hroot : ∀ b ∈ g.root?, floor ≤ b := by
    intro b hb
    obtain ⟨link, hlink, rfl⟩ := root_mem hb
    exact hfloor link hlink
  have hplain : plain (climb (parseUnary stop levels) floor (g.chain.tokens ++ rest)) =
      .ok (g.expr, rest) := by
    rw [h.climb_chain hroot (fun b hb => hrest.mono (Nat.le_succ_of_le (hroot b hb))) hend]
    exact climbFrom_stopped hrest
  exact plain_eq_ok hplain

/-- A chain whose operators all bind as tightly as the floor has exactly one tree that respects how
tightly they bind. The climb builds it and stops before the next token, when that is no operator and
does not extend the last operand, or when it is an operator that binds more loosely than the
floor. -/
theorem climb_builds_chain (c : Chain levels)
    (hfloor : ∀ link ∈ c.links, floor ≤ link.1.binding) :
    ∃ g : Grouping levels, (g.chain = c ∧ g.Respects) ∧
      (∀ g' : Grouping levels, g'.chain = c → g'.Respects → g' = g) ∧
      (∀ stop rest, binaryOperator? (nextKind rest) = none → c.last.EndsBefore rest →
        ∃ h, climb (parseUnary stop levels) floor (c.tokens ++ rest) = .ok (g.expr, ⟨rest, h⟩)) ∧
      ∀ stop (s : Sign) more, s.binding < floor →
        ∃ h, climb (parseUnary stop levels) floor (c.tokens ++ s.token :: more) =
          .ok (g.expr, ⟨s.token :: more, h⟩) := by
  obtain ⟨g, hg, rfl⟩ := Grouping.exists_respects c
  refine ⟨g, ⟨rfl, hg⟩, fun g' hchain hg' => hg'.eq_of_chain_eq hg hchain, ?_, ?_⟩
  · intro stop rest hnone hend
    refine hg.climb_eq_ok hfloor (bindsBelow_iff.mpr fun op b hop => ?_) hend
    rw [hnone] at hop
    cases hop
  · intro stop s more hlt
    exact hg.climb_eq_ok hfloor ((bindsBelow_sign s more).mono hlt)
      (g.chain.last.endsBefore_sign s more)

end Climbing

section Numerals

def minusSign : Sign := ⟨⟨.minus, utf8 "-", 0, .absent⟩, .subtract, 4, rfl⟩

def plusSign : Sign := ⟨⟨.plus, utf8 "+", 0, .absent⟩, .add, 5, rfl⟩

def orSign : Sign := ⟨⟨.orWord, utf8 "or", 0, .absent⟩, .or, 9, rfl⟩

def barSign : Sign := ⟨⟨.bar, utf8 "|", 0, .absent⟩, .union, 3, rfl⟩

/-- What the grammar derives as an operand is one. -/
def Operand.ofDerives {d : Nat} {ts : List Token} {e : Expr} (h : Derives .unary d ts e)
    (hd : d < levels) : Operand levels where
  tokens := ts
  tree := e
  reads := by
    rcases h.read 0 levels [] rfl with ⟨-, hr, hok⟩ | ⟨hdeep, -⟩
    · have hplain : plain (parseUnary 0 levels (ts ++ [])) = .ok (e, []) := by
        rw [hok]
        rfl
      rw [List.append_nil] at hplain
      exact ⟨0, plain_eq_ok hplain⟩
    · exact absurd hd hdeep

theorem derives_numeral {t : Token} {i : Int} (ht : t.kind = .integer)
    (hi : integer? t.lexeme = some i) : Derives .unary 0 [t] (Expr.number (.ofInt i)) :=
  .unsigned (.filtered (.integer ht hi) .noPredicates)

def numeralOne : Operand 2 :=
  .ofDerives (derives_numeral (t := ⟨.integer, utf8 "1", 0, .absent⟩) (i := 1) rfl (by decide))
    (by decide)

def negatedTwo : Operand 2 :=
  .ofDerives (.negated (t := minusSign.token) rfl
    (derives_numeral (t := ⟨.integer, utf8 "2", 0, .absent⟩) (i := 2) rfl (by decide))) (by decide)

/-- The chain `1 - -2 - 1 + -2 or 1`. -/
def sums : Chain 2 :=
  ⟨numeralOne, [(minusSign, negatedTwo), (minusSign, numeralOne), (plusSign, negatedTwo),
    (orSign, numeralOne)]⟩

/-- The tree `(1 - -2) - (1 + (-2 or 1))`. -/
def sumsTree : Grouping 2 :=
  .binary (.binary (.operand numeralOne) minusSign (.operand negatedTwo)) minusSign
    (.binary (.operand numeralOne) plusSign
      (.binary (.operand negatedTwo) orSign (.operand numeralOne)))

/-- In front of a closing parenthesis, and in front of `|`, which binds more loosely than `-`. -/
theorem climb_builds_chain_sums :
    (∀ g : Grouping 2, g.chain = sums → g.Respects → g = sumsTree) ∧
    (∃ h, climb (parseUnary 0 2) 4 (sums.tokens ++ [Kind.rightParen.token]) =
      .ok (sumsTree.expr, ⟨[Kind.rightParen.token], h⟩)) ∧
    ∃ h, climb (parseUnary 0 2) 4 (sums.tokens ++ barSign.token :: negatedTwo.tokens) =
      .ok (sumsTree.expr, ⟨barSign.token :: negatedTwo.tokens, h⟩) := by
  have hfloor : ∀ link ∈ sums.links, 4 ≤ link.1.binding := by
    simp [sums, minusSign, plusSign, orSign]
  have htree : sumsTree.Respects := by
    refine .binary (.binary (.operand _) (.operand _) nofun nofun)
      (.binary (.operand _) (.binary (.operand _) (.operand _) nofun nofun) nofun ?_) ?_ ?_
    all_goals
      rintro b ⟨⟩
      decide
  obtain ⟨g, -, hunique, hread, hstop⟩ := climb_builds_chain sums hfloor
  obtain rfl := hunique sumsTree rfl htree
  exact ⟨hunique, hread 0 _ rfl (sums.last.endsBefore rfl), hstop 0 barSign _ (by decide)⟩

end Numerals

end NodePath
