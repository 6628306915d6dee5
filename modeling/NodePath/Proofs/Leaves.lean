import Mathlib.Data.List.Basic
import NodePath.Proofs.NodeInvariants
import NodePath.Proofs.Walks

/-!
# The leaves of a tree stand in its source

Some nodes are introduced by one token each: the tests, the calls and all that has no parts. What a
token introduces can be told from the token and its neighbours alone, without reading the tree. In a
tree that was read, the nodes of these kinds come in the order of the tokens that introduce them,
each token once. So the names of functions and variables are those of the source, in the order of
their first occurrence.
-/

namespace NodePath

open NodePath.Text NodePath.Number

/-- What a token can introduce. -/
inductive Leaf where
  | literal (value : Bytes)
  | number (value : NumberLit)
  | boolean (value : Bool)
  | reference (name : QName)
  | call (function : FunctionName)
  | name (test : NameTest)
  | nodeType (type : Bytes) (argument : Option Bytes)
  | sign (step : Abbreviation)
deriving DecidableEq, Repr

namespace Leaf

def functionName? : Leaf → Option Bytes
  | .call function => some function.text
  | _ => none

def variableName? : Leaf → Option Bytes
  | .reference q => some q.text
  | _ => none

end Leaf

namespace Node

/-- What the token of a node introduces; other nodes have no token of their own. -/
def leaf? : Node → Option Leaf
  | .expr (.literal value) => some (.literal value)
  | .expr (.number value) => some (.number value)
  | .expr (.boolean value) => some (.boolean value)
  | .expr (.reference q) => some (.reference q)
  | .expr (.call function _) => some (.call function)
  | .test (.name t) => some (.name t)
  | .test (.nodeType type argument) => some (.nodeType type argument)
  | .test (.abbreviated sign) => some (.sign sign)
  | _ => none

/-- The leaves of a tree, in the order of its nodes. -/
def leaves (n : Node) : List Leaf := n.nodes.filterMap leaf?

theorem leaves_eq (n : Node) : n.leaves = n.leaf?.toList ++ n.children.flatMap leaves := by
  have hchildren : (n.children.flatMap nodes).filterMap leaf? = n.children.flatMap leaves :=
    List.filterMap_flatMap
  rw [leaves, nodes_eq, List.filterMap_cons, hchildren]
  cases n.leaf? <;> rfl

theorem functionNames_eq (n : Node) :
    n.functionNames = (n.leaves.filterMap Leaf.functionName?).eraseDups := by
  rw [functionNames, leaves, List.filterMap_filterMap]
  congr 2
  funext m
  cases m with
  | expr e => cases e <;> rfl
  | test t => cases t <;> rfl
  | step s => rfl

theorem variableNames_eq (n : Node) :
    n.variableNames = (n.leaves.filterMap Leaf.variableName?).eraseDups := by
  rw [variableNames, leaves, List.filterMap_filterMap]
  congr 2
  funext m
  cases m with
  | expr e => cases e <;> rfl
  | test t => cases t <;> rfl
  | step s => rfl

end Node

/-! The leaves of a list of tokens. -/

/-- A name behind a token of this kind is part of a longer spelling. -/
def Kind.joins (k : Kind) : Bool := k = .dollar || k = .colon

/-- The name that begins with a token: with a colon and another name behind it, it is a name in a
name space. -/
def nameAt (t : Token) : List Token → QName
  | c :: u :: _ =>
    if c.kind = .colon ∧ u.kind = .name then ⟨t.lexeme, u.lexeme⟩ else ⟨[], t.lexeme⟩
  | _ => ⟨[], t.lexeme⟩

/-- The name behind a dollar sign. -/
def referenceAt : List Token → QName
  | [] => ⟨[], []⟩
  | t :: after => nameAt t after

/-- The test that begins with a name: with a colon and a star behind it, it takes any name. -/
def nameTestAt (t : Token) (after : List Token) : NameTest :=
  match after with
  | c :: u :: _ =>
    if c.kind = .colon ∧ u.kind = .star then .anyIn t.lexeme else .qualified (nameAt t after)
  | _ => .qualified (nameAt t after)

/-- The literal between the parentheses behind a node type. -/
def argumentAt : List Token → Option Bytes
  | _ :: a :: _ => if a.kind = .stringLiteral then some a.lexeme else none
  | _ => none

/-- The word of a truth value is a call when a parenthesis opens behind it. -/
def truthAt (value : Bool) (after : List Token) : Leaf :=
  if nextKind after = .leftParen then .call ⟨truthCall value, []⟩ else .boolean value

/-- What a token introduces, by the kind before it and the tokens behind it. A numeral out of range
counts as zero here; no tree is read from it. -/
def introduced (before : Kind) (t : Token) (after : List Token) : Option Leaf :=
  match t.kind with
  | .stringLiteral => some (.literal t.lexeme)
  | .integer => some (.number (.ofInt ((integer? t.lexeme).getD 0)))
  | .float => some (.number (.ofFloat ((float? t.lexeme).getD .zero)))
  | .trueWord => some (truthAt true after)
  | .falseWord => some (truthAt false after)
  | .functionName => some (.call ⟨.absent, t.lexeme⟩)
  | .dollar => some (.reference (referenceAt after))
  | .nodeType => some (.nodeType t.lexeme (argumentAt after))
  | .dot => some (.sign .self)
  | .doubleDot => some (.sign .parent)
  | .name => if before.joins then none else some (.name (nameTestAt t after))
  | .star => if before = .colon then none else some (.name .any)
  | _ => none

/-- What the tokens introduce one after the other behind a token of the kind `before`. -/
def leavesBehind (before : Kind) : List Token → List Leaf
  | [] => []
  | t :: after => (introduced before t after).toList ++ leavesBehind t.kind after

/-- The leaves of a list of tokens. What stands before the first token counts as `eof`. -/
def leavesOf (ts : List Token) : List Leaf := leavesBehind .eof ts

theorem leavesBehind_eq {before : Kind} (h : before.joins = false) (ts : List Token) :
    leavesBehind before ts = leavesOf ts := by
  cases ts with
  | nil => rfl
  | cons t after =>
    have hcolon : before ≠ .colon := by
      rintro rfl
      cases h
    have hintro : introduced before t after = introduced .eof t after := by
      unfold introduced
      rw [h, if_neg hcolon]
      rfl
    rw [leavesOf, leavesBehind, leavesBehind, hintro]

theorem leavesOf_cons {t : Token} (h : t.kind.joins = false) (after : List Token) :
    leavesOf (t :: after) = (introduced .eof t after).toList ++ leavesOf after := by
  rw [leavesOf, leavesBehind, leavesBehind_eq h]

/-- The kinds of tokens that only hold a sentence together. -/
def Kind.isMark : Kind → Bool
  | .slash | .doubleSlash | .doubleColon | .atSign | .axisName | .leftParen | .rightParen
  | .leftBracket | .rightBracket | .comma | .bar | .equals | .comparison | .plus | .minus
  | .orWord | .andWord | .intersectWord | .streamWord => true
  | _ => false

theorem leavesOf_mark {t : Token} {k : Kind} (ht : t.kind = k) (after : List Token)
    (hk : k.isMark = true := by rfl) : leavesOf (t :: after) = leavesOf after := by
  subst ht
  have hjoins : t.kind.joins = false := by
    cases hkind : t.kind <;> simp_all [Kind.isMark, Kind.joins]
  have hnone : introduced .eof t after = none := by
    unfold introduced
    split <;> simp_all [Kind.isMark]
  rw [leavesOf_cons hjoins, hnone]
  rfl

/-! Derivations. -/

/-- A token of this kind is neither taken into a name that stands before it nor opens the arguments
of a truth value. -/
def Kind.detaches (k : Kind) : Bool := k ≠ .colon && k ≠ .leftParen

/-- What stands next is no part of a name or a truth value before it. -/
def Detached (rest : List Token) : Prop := (nextKind rest).detaches = true

theorem detached_cons {t : Token} {k : Kind} (ht : t.kind = k) (rest : List Token)
    (hk : k.detaches = true := by rfl) : Detached (t :: rest) := by
  rw [Detached, nextKind, ht]
  exact hk

theorem Detached.no_colon {rest : List Token} (h : Detached rest) : nextKind rest ≠ .colon := by
  intro hcolon
  rw [Detached, hcolon] at h
  cases h

theorem Detached.no_parenthesis {rest : List Token} (h : Detached rest) :
    nextKind rest ≠ .leftParen := by
  intro hparen
  rw [Detached, hparen] at h
  cases h

theorem separatorOf_isMark {k : Kind} {separator : Separator} (h : separatorOf k = some separator) :
    k.isMark = true ∧ k.detaches = true := by
  rcases separatorOf_cases h with rfl | rfl <;> exact ⟨rfl, rfl⟩

theorem operatorAt_isMark {n : Nat} {k : Kind} {op : Operator} (h : operatorAt n = some (k, op)) :
    k.isMark = true ∧ k.detaches = true := by
  unfold operatorAt at h
  split at h <;> cases h <;> exact ⟨rfl, rfl⟩

theorem Derives.predicates_detached {d : Nat} {ts rest : List Token} {ps : List Expr}
    (h : Derives .predicates d ts ps) (hrest : Detached rest) : Detached (ts ++ rest) := by
  rw [Detached]
  rcases h.predicates_next rest with hnext | hnext
  · rw [hnext]
    exact hrest
  · rw [hnext]
    rfl

theorem Derives.furtherSteps_detached {d : Nat} {ts rest : List Token} {p : Path}
    (h : Derives .furtherSteps d ts p) (hrest : Detached rest) : Detached (ts ++ rest) := by
  rw [Detached]
  rcases h.furtherSteps_next rest with hnext | hnext | hnext
  · rw [hnext]
    exact hrest
  all_goals
    rw [hnext]
    rfl

/-- The leaves of expressions, in order. -/
def exprLeaves (es : List Expr) : List Leaf := es.flatMap fun e => (Node.expr e).leaves

/-- The leaves of the steps of a path. -/
def pathLeaves (p : Path) : List Leaf := p.flatMap fun entry => (Node.step entry.2).leaves

/-- In front of tokens that are no part of it, a sentence has the leaves of what it denotes. A name
has a leaf when it stands alone; behind a dollar sign the leaf is that of the sign. -/
def Symbol.Yields : (s : Symbol) → List Token → s.Value → Prop
  | .name, ts, q => ∀ rest, Detached rest →
    leavesOf (ts ++ rest) = .name (.qualified q) :: leavesOf rest ∧
    ∀ t : Token, t.kind = .dollar → leavesOf (t :: (ts ++ rest)) = .reference q :: leavesOf rest
  | .test, ts, (t : Test) =>
    ∀ rest, Detached rest → leavesOf (ts ++ rest) = (Node.test t).leaves ++ leavesOf rest
  | .predicates, ts, (es : List Expr) | .arguments, ts, (es : List Expr) =>
    ∀ rest, Detached rest → leavesOf (ts ++ rest) = exprLeaves es ++ leavesOf rest
  | .step, ts, (s : Step) =>
    ∀ rest, Detached rest → leavesOf (ts ++ rest) = (Node.step s).leaves ++ leavesOf rest
  | .furtherSteps, ts, (p : Path) | .path, ts, (p : Path) =>
    ∀ rest, Detached rest → leavesOf (ts ++ rest) = pathLeaves p ++ leavesOf rest
  | .source, ts, (e : Expr) | .primary, ts, (e : Expr) | .unary, ts, (e : Expr)
  | .level _, ts, (e : Expr) =>
    ∀ rest, Detached rest → leavesOf (ts ++ rest) = (Node.expr e).leaves ++ leavesOf rest

section Trees

theorem leaves_path (p : Path) : (Node.expr (.path p)).leaves = pathLeaves p := by
  rw [Node.leaves_eq, Node.children, List.flatMap_map]
  rfl

theorem leaves_step (axis : Option Axis) (t : Test) (ps : List Expr) :
    (Node.step (.mk axis t ps)).leaves = (Node.test t).leaves ++ exprLeaves ps := by
  rw [Node.leaves_eq, Node.children, List.flatMap_cons, List.flatMap_map]
  rfl

theorem leaves_call (f : FunctionName) (args : List Expr) :
    (Node.expr (.call f args)).leaves = .call f :: exprLeaves args := by
  rw [Node.leaves_eq, Node.children, List.flatMap_map]
  rfl

theorem leaves_narrowed (e : Expr) (ps : List Expr) :
    (Node.expr (narrowed e ps)).leaves = (Node.expr e).leaves ++ exprLeaves ps := by
  cases ps with
  | nil => exact (List.append_nil _).symm
  | cons p rest =>
    rw [narrowed, Node.leaves_eq, Node.children, List.flatMap_cons, List.flatMap_map]
    rfl

theorem leaves_continued (e : Expr) (separator : Separator) (p : Path) :
    (Node.expr (.continued e separator p)).leaves = (Node.expr e).leaves ++ pathLeaves p := by
  rw [Node.leaves_eq, Node.children, List.flatMap_cons, List.flatMap_cons, pathNode, leaves_path,
    List.flatMap_nil, List.append_nil]
  rfl

theorem leaves_below_root (p : Path) : (Node.expr (.absolute p)).leaves = pathLeaves p ∧
    (Node.expr (.everywhere p)).leaves = pathLeaves p := by
  constructor <;>
  · rw [Node.leaves_eq, Node.children, List.flatMap_singleton, pathNode, leaves_path]
    rfl

theorem leaves_negate (e : Expr) : (Node.expr (.negate e)).leaves = (Node.expr e).leaves := by
  rw [Node.leaves_eq, Node.children, List.flatMap_singleton]
  rfl

theorem leaves_binary (op : Operator) (c : Comparison) (l r : Expr) :
    (Node.expr (.binary op c l r)).leaves = (Node.expr l).leaves ++ (Node.expr r).leaves := by
  rw [Node.leaves_eq, Node.children, List.flatMap_cons, List.flatMap_singleton]
  rfl

end Trees

section Tokens

variable {t : Token} {after : List Token}

theorem leavesOf_introduced {leaf : Leaf} (hjoins : t.kind.joins = false)
    (h : introduced .eof t after = some leaf) :
    leavesOf (t :: after) = leaf :: leavesOf after := by
  rw [leavesOf_cons hjoins, h]
  rfl

/-- A token that introduces a node without children. -/
theorem leavesOf_leaf {n : Node} (hjoins : t.kind.joins = false)
    (h : introduced .eof t after = n.leaf?) (hn : n.children = []) :
    leavesOf (t :: after) = n.leaves ++ leavesOf after := by
  rw [leavesOf_cons hjoins, h, Node.leaves_eq, hn, List.flatMap_nil, List.append_nil]

theorem leavesOf_literal (ht : t.kind = .stringLiteral) (after : List Token) :
    leavesOf (t :: after) = .literal t.lexeme :: leavesOf after :=
  leavesOf_introduced (by rw [ht]; rfl) (by rw [introduced, ht])

theorem leavesOf_call (ht : t.kind = .functionName) (after : List Token) :
    leavesOf (t :: after) = .call ⟨.absent, t.lexeme⟩ :: leavesOf after :=
  leavesOf_introduced (by rw [ht]; rfl) (by rw [introduced, ht])

theorem leavesOf_nodeType (ht : t.kind = .nodeType) (after : List Token) :
    leavesOf (t :: after) = .nodeType t.lexeme (argumentAt after) :: leavesOf after :=
  leavesOf_introduced (by rw [ht]; rfl) (by rw [introduced, ht])

theorem leavesOf_name (ht : t.kind = .name) (after : List Token) :
    leavesOf (t :: after) = .name (nameTestAt t after) :: leavesOf after :=
  leavesOf_introduced (by rw [ht]; rfl) (by rw [introduced, ht]; rfl)

theorem leavesOf_truth {value : Bool} (ht : t.kind = truthWord value) (after : List Token) :
    leavesOf (t :: after) = truthAt value after :: leavesOf after := by
  cases value with
  | false =>
    have hk : t.kind = .falseWord := ht
    exact leavesOf_introduced (by rw [hk]; rfl) (by rw [introduced, hk])
  | true =>
    have hk : t.kind = .trueWord := ht
    exact leavesOf_introduced (by rw [hk]; rfl) (by rw [introduced, hk])

/-- A name behind a dollar sign introduces nothing, since the sign does. -/
theorem leavesOf_dollar {u : Token} (ht : t.kind = .dollar) (hu : u.kind = .name)
    (after : List Token) :
    leavesOf (t :: u :: after) = .reference (nameAt u after) :: leavesOf after := by
  have hjoins : u.kind.joins = false := by rw [hu]; rfl
  rw [leavesOf, leavesBehind, leavesBehind, leavesBehind_eq hjoins, introduced, introduced, ht, hu]
  rfl

/-- What follows a colon introduces nothing, since the name before the colon does. -/
theorem leavesOf_colon {u : Token} (ht : t.kind = .colon) (hu : u.kind = .name ∨ u.kind = .star)
    (after : List Token) : leavesOf (t :: u :: after) = leavesOf after := by
  have hjoins : u.kind.joins = false := by rcases hu with hu | hu <;> rw [hu] <;> rfl
  have hnone : introduced .colon u after = none := by
    rcases hu with hu | hu <;> rw [introduced, hu] <;> rfl
  rw [leavesOf, leavesBehind, leavesBehind, leavesBehind_eq hjoins, ht, hnone, introduced, ht]
  rfl

theorem nameAt_bare (h : nextKind after ≠ .colon) : nameAt t after = ⟨[], t.lexeme⟩ := by
  unfold nameAt
  split
  · exact if_neg fun hc => h hc.1
  · rfl

theorem nameTestAt_bare (h : nextKind after ≠ .colon) :
    nameTestAt t after = .qualified ⟨[], t.lexeme⟩ := by
  unfold nameTestAt
  rw [nameAt_bare h]
  split
  · exact if_neg fun hc => h hc.1
  · rfl

end Tokens

theorem Derives.yields {s : Symbol} {d : Nat} {ts : List Token} {v : s.Value}
    (h : Derives s d ts v) : s.Yields ts v := by
  induction h with
  | bareName ht =>
    intro rest hrest
    refine ⟨?_, fun t hdollar => ?_⟩
    · exact (leavesOf_name ht rest).trans (by rw [nameTestAt_bare hrest.no_colon])
    · exact (leavesOf_dollar hdollar ht rest).trans (by rw [nameAt_bare hrest.no_colon])
  | spacedName ht hc hu =>
    intro rest _
    refine ⟨?_, fun d hdollar => ?_⟩
    · show leavesOf (_ :: _ :: _ :: rest) = _
      rw [leavesOf_name ht, leavesOf_colon hc (.inl hu)]
      simp [nameTestAt, nameAt, hc, hu]
    · show leavesOf (_ :: _ :: _ :: _ :: rest) = _
      rw [leavesOf_dollar hdollar ht, leavesOf_colon hc (.inl hu)]
      simp [nameAt, hc, hu]
  | anyName ht =>
    intro rest _
    exact leavesOf_leaf (by rw [ht]; rfl) (by rw [introduced, ht]; rfl) rfl
  | anyNameIn ht hc hs =>
    intro rest _
    show leavesOf (_ :: _ :: _ :: rest) = _
    rw [leavesOf_name ht, leavesOf_colon hc (.inr hs), Node.leaves_eq]
    simp [nameTestAt, hc, hs, Node.leaf?, Node.children]
  | oneName _ ih =>
    intro rest hrest
    rw [(ih rest hrest).1, Node.leaves_eq]
    rfl
  | typeTest ht hl hr =>
    intro rest _
    show leavesOf (_ :: _ :: _ :: rest) = _
    rw [leavesOf_nodeType ht, leavesOf_mark hl, leavesOf_mark hr, Node.leaves_eq]
    simp [argumentAt, hr, Node.leaf?, Node.children]
  | typeTestOf ht hl ha hr =>
    intro rest _
    show leavesOf (_ :: _ :: _ :: _ :: rest) = _
    rw [leavesOf_nodeType ht, leavesOf_mark hl, leavesOf_literal ha, leavesOf_mark hr,
      Node.leaves_eq]
    simp [argumentAt, ha, Node.leaf?, Node.children, Node.leaves_eq (.expr (.literal _))]
  | noPredicates =>
    intro rest _
    rfl
  | predicate hl _ hr _ ihe ihps =>
    intro rest hrest
    rw [List.cons_append, List.append_assoc, List.cons_append, leavesOf_mark hl,
      ihe _ (detached_cons hr _),
      leavesOf_mark hr, ihps rest hrest, ← List.append_assoc]
    rfl
  | selfStep ht | parentStep ht =>
    intro rest _
    rw [Step.sign, leaves_step, exprLeaves, List.flatMap_nil, List.append_nil]
    exact leavesOf_leaf (by rw [ht]; rfl) (by rw [introduced, ht]; rfl) rfl
  | plainStep _ hps iht ihps =>
    intro rest hrest
    rw [List.append_assoc, iht _ (hps.predicates_detached hrest), ihps rest hrest, leaves_step,
      List.append_assoc]
  | axisStep ha hc _ hps iht ihps =>
    intro rest hrest
    rw [List.cons_append, List.cons_append, List.append_assoc, leavesOf_mark ha,
      leavesOf_mark hc, iht _ (hps.predicates_detached hrest), ihps rest hrest,
      leaves_step, List.append_assoc]
  | attributeStep ha _ hps iht ihps =>
    intro rest hrest
    rw [List.cons_append, List.append_assoc, leavesOf_mark ha,
      iht _ (hps.predicates_detached hrest), ihps rest hrest, leaves_step, List.append_assoc]
  | noFurtherSteps =>
    intro rest _
    rfl
  | furtherStep hsep _ hp ihs ihp =>
    intro rest hrest
    rw [List.cons_append, List.append_assoc, leavesOf_mark rfl _ (separatorOf_isMark hsep).1,
      ihs _ (hp.furtherSteps_detached hrest), ihp rest hrest, ← List.append_assoc]
    rfl
  | steps _ hp ihs ihp =>
    intro rest hrest
    rw [List.append_assoc, ihs _ (hp.furtherSteps_detached hrest), ihp rest hrest,
      ← List.append_assoc]
    rfl
  | lastArgument _ ih =>
    intro rest hrest
    rw [ih rest hrest, exprLeaves, List.flatMap_singleton]
  | argument _ hc _ ihe ihes =>
    intro rest hrest
    rw [List.append_assoc, List.cons_append,
      ihe _ (detached_cons hc _),
      leavesOf_mark hc, ihes rest hrest, ← List.append_assoc]
    rfl
  | literal ht =>
    intro rest _
    exact leavesOf_leaf (by rw [ht]; rfl) (by rw [introduced, ht]; rfl) rfl
  | integer ht hi =>
    intro rest _
    exact leavesOf_leaf (by rw [ht]; rfl) (by rw [introduced, ht]; dsimp only; rw [hi]; rfl) rfl
  | float ht hx =>
    intro rest _
    exact leavesOf_leaf (by rw [ht]; rfl) (by rw [introduced, ht]; dsimp only; rw [hx]; rfl) rfl
  | truth ht =>
    intro rest hrest
    refine (leavesOf_truth ht rest).trans ?_
    rw [truthAt, if_neg hrest.no_parenthesis, Node.leaves_eq]
    rfl
  | builtinCall ht hl hr =>
    intro rest _
    show leavesOf (_ :: _ :: _ :: rest) = _
    rw [leavesOf_truth ht, leavesOf_mark hl, leavesOf_mark hr, leaves_call]
    simp [truthAt, nextKind, hl, exprLeaves]
  | reference ht _ ih =>
    intro rest hrest
    rw [List.cons_append, (ih rest hrest).2 _ ht, Node.leaves_eq]
    rfl
  | emptyCall hf hl hr =>
    intro rest _
    show leavesOf (_ :: _ :: _ :: rest) = _
    rw [leavesOf_call hf, leavesOf_mark hl, leavesOf_mark hr, leaves_call]
    rfl
  | call hf hl _ hr ih =>
    intro rest _
    rw [List.cons_append, List.cons_append, List.append_assoc, List.singleton_append,
      leavesOf_call hf, leavesOf_mark hl, ih _ (detached_cons hr _), leavesOf_mark hr, leaves_call]
    rfl
  | group hl _ hr ih =>
    intro rest _
    rw [List.cons_append, List.append_assoc, leavesOf_mark hl, List.singleton_append,
      ih _ (detached_cons hr _),
      leavesOf_mark hr]
  | root ht =>
    intro rest _
    exact leavesOf_leaf (by rw [ht]; rfl) (by rw [introduced, ht]; rfl) rfl
  | absolute ht _ ih =>
    intro rest hrest
    rw [List.cons_append, leavesOf_mark ht, ih rest hrest, (leaves_below_root _).1]
  | everywhere ht _ ih =>
    intro rest hrest
    rw [List.cons_append, leavesOf_mark ht, ih rest hrest, (leaves_below_root _).2]
  | relative _ ih =>
    intro rest hrest
    rw [ih rest hrest, leaves_path]
  | filtered _ hps ihe ihps =>
    intro rest hrest
    rw [List.append_assoc, ihe _ (hps.predicates_detached hrest), ihps rest hrest, leaves_narrowed,
      List.append_assoc]
  | @continued _ _ _ vs _ _ _ _ _ _ _ _ hps hsep _ ihe ihps ihp =>
    intro rest hrest
    obtain ⟨hmark, hdetach⟩ := separatorOf_isMark hsep
    have hnext := detached_cons rfl (vs ++ rest) hdetach
    rw [List.append_assoc, List.append_assoc, List.cons_append,
      ihe _ (hps.predicates_detached hnext), ihps _ hnext, leavesOf_mark rfl _ hmark,
      ihp rest hrest, leaves_continued, leaves_narrowed]
    simp only [List.append_assoc]
  | unsigned _ ih => exact ih
  | negated ht _ ih =>
    intro rest hrest
    rw [List.cons_append, leavesOf_mark ht, ih rest hrest, leaves_negate]
  | operand _ ih => exact ih
  | tighter _ ih => exact ih
  | binary _ hop _ ihl ihr =>
    intro rest hrest
    obtain ⟨hmark, hdetach⟩ := operatorAt_isMark hop
    rw [List.append_assoc, List.cons_append, ihl _ (detached_cons rfl _ hdetach),
      leavesOf_mark rfl _ hmark, ihr rest hrest, leaves_binary, List.append_assoc]

/-- The leaves of a tree are those of its source. -/
theorem leaves_of_parseTokens {source : Bytes} {tokens : List Token} {e : Expr}
    (h : tokenize source = .ok tokens) (he : parseTokens tokens = .ok e) :
    (Node.expr e).leaves = leavesOf tokens := by
  obtain ⟨nesting, -, hden⟩ := denotes_of_tokens h he
  have hyields := hden.yields [] rfl
  rw [List.append_nil] at hyields
  exact (hyields.trans (List.append_nil _)).symm

/-- The names that occur in a list, each once, in the order of their first occurrence. -/
structure FirstOccurrences (names all : List Bytes) : Prop where
  mem_iff : ∀ name, name ∈ names ↔ name ∈ all
  nodup : names.Nodup
  ordered : names.Pairwise fun a b => all.idxOf a < all.idxOf b

theorem eraseDups_ordered (all : List Bytes) :
    all.eraseDups.Pairwise fun a b => all.idxOf a < all.idxOf b := by
  -- From the end: a new last name has a larger index than all names before it.
  induction all using List.reverseRecOn with
  | nil => exact .nil
  | append_singleton all last ih =>
    have hkept : all.eraseDups.Pairwise fun a b =>
        (all ++ [last]).idxOf a < (all ++ [last]).idxOf b := by
      refine ih.imp_of_mem fun ha hb hlt => ?_
      rwa [List.idxOf_append_of_mem (List.mem_eraseDups.mp ha),
        List.idxOf_append_of_mem (List.mem_eraseDups.mp hb)]
    rw [List.eraseDups_append]
    by_cases hlast : last ∈ all
    · have hnone : [last].removeAll all = [] := by simp [List.removeAll, hlast]
      rw [hnone, List.eraseDups_nil, List.append_nil]
      exact hkept
    · have hnew : [last].removeAll all = [last] := by simp [List.removeAll, hlast]
      rw [hnew, List.eraseDups_cons, List.filter_nil, List.eraseDups_nil, List.pairwise_append]
      refine ⟨hkept, List.pairwise_singleton _ _, fun a ha b hb => ?_⟩
      have hmem := List.mem_eraseDups.mp ha
      rw [List.mem_singleton.mp hb, List.idxOf_append_of_mem hmem,
        List.idxOf_append_of_notMem hlast]
      exact Nat.lt_of_lt_of_le (List.idxOf_lt_length_of_mem hmem) (Nat.le_add_right _ _)

theorem firstOccurrences_eraseDups (all : List Bytes) : FirstOccurrences all.eraseDups all where
  mem_iff _ := List.mem_eraseDups
  nodup := (eraseDups_ordered all).imp fun hlt heq => by
    rw [heq] at hlt
    exact Nat.lt_irrefl _ hlt
  ordered := eraseDups_ordered all

/-- In a tree that was read, the nodes with a token of their own are entered in the order of these
tokens, and each is what its token introduces. The functions and variables of the tree are those of
the tokens in the order of their first occurrence. -/
theorem leaves_follow_tokens {source : Bytes} {e : Expr} (h : parse source = .ok e) :
    ∃ tokens events, tokenize source = .ok tokens ∧ e.events? = some events ∧
      (events.filterMap Event.entered?).filterMap Node.leaf? = leavesOf tokens ∧
      FirstOccurrences (Node.expr e).functionNames
        ((leavesOf tokens).filterMap Leaf.functionName?) ∧
      FirstOccurrences (Node.expr e).variableNames
        ((leavesOf tokens).filterMap Leaf.variableName?) := by
  obtain ⟨tokens, htokens, nesting, -, hden⟩ := denotes_of_parse h
  have hleaves : (Node.expr e).leaves = leavesOf tokens := by
    have hyields := hden.yields [] rfl
    rw [List.append_nil] at hyields
    exact (hyields.trans (List.append_nil _)).symm
  have hwalk : e.events? = some (Node.expr e).walk :=
    (Node.WellFormed.complete (n := .expr e) (wellFormed_of_parse h)).events?_eq_walk
  refine ⟨tokens, _, htokens, hwalk, ?_, ?_, ?_⟩
  · rw [Node.walk_entered]
    exact hleaves
  · rw [Node.functionNames_eq, hleaves]
    exact firstOccurrences_eraseDups _
  · rw [Node.variableNames_eq, hleaves]
    exact firstOccurrences_eraseDups _

/-- Two calls of one function and two uses of one variable, with others in between. -/
def repeatedNames : Bytes := utf8 "f($b, $a:b)[$b = f(true())]/text('x')"

def repeatedLeaves : List Leaf :=
  [.call ⟨.absent, utf8 "f"⟩, .reference ⟨[], utf8 "b"⟩, .reference ⟨utf8 "a", utf8 "b"⟩,
    .reference ⟨[], utf8 "b"⟩, .call ⟨.absent, utf8 "f"⟩, .call ⟨.trueCall, []⟩,
    .nodeType (utf8 "text") (some (utf8 "x")), .literal (utf8 "x")]

theorem leaves_follow_tokens_repeatedNames :
    ∃ e events, parse repeatedNames = .ok e ∧ e.events? = some events ∧
      (events.filterMap Event.entered?).filterMap Node.leaf? = repeatedLeaves ∧
      FirstOccurrences (Node.expr e).functionNames [utf8 "f", utf8 "f", utf8 "true"] ∧
      FirstOccurrences (Node.expr e).variableNames [utf8 "b", utf8 "a:b", utf8 "b"] := by
  have hread : (parse repeatedNames).isOk = true := by decide +kernel
  have hleaves : (tokenize repeatedNames).toOption.map leavesOf = some repeatedLeaves := by
    decide +kernel
  cases hparse : parse repeatedNames with
  | error cause =>
    rw [hparse] at hread
    cases hread
  | ok e =>
    obtain ⟨tokens, events, htokens, hevents, hnodes, hfunctions, hvariables⟩ :=
      leaves_follow_tokens hparse
    rw [htokens] at hleaves
    have htokenLeaves : leavesOf tokens = repeatedLeaves := Option.some.inj hleaves
    rw [htokenLeaves] at hnodes hfunctions hvariables
    exact ⟨e, events, rfl, hevents, hnodes, hfunctions, hvariables⟩

end NodePath
