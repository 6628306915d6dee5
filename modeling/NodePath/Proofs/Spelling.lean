import NodePath.Proofs.Everywhere
import NodePath.Proofs.RoundTrip

/-!
# Root name tests are absolute paths

A tree has a text exactly when no part of it is missing. A name test right below the root is written
like the absolute path of one step, and wherever the text of an expression depends on the kind of a
part, the two kinds are treated alike. So root name tests may be spelled out as absolute paths
anywhere in a tree without a change to its text, and that text reads back as the tree that has them
spelled out.
-/

namespace NodePath

open NodePath.Text NodePath.Number

section Texts

theorem isSome_one {α β : Type} (x : Option α) (f : α → β) :
    (do let a ← x; return f a).isSome = true ↔ x.isSome = true := by
  cases x <;> simp

/-- Two texts are put together when both are there. -/
theorem isSome_both {α β γ : Type} (x : Option α) (y : Option β) (f : α → β → γ) :
    (do let a ← x; let b ← y; return f a b).isSome = true ↔ x.isSome = true ∧ y.isSome = true := by
  cases x <;> cases y <;> simp

theorem argumentTexts?_isSome (es : List Expr) :
    (argumentTexts? es).isSome = true ↔ ∀ c ∈ es.map Node.expr, c.text?.isSome = true := by
  induction es with
  | nil => simp [argumentTexts?]
  | cons e rest ih =>
    rw [argumentTexts?, isSome_both, ih, List.map_cons, List.forall_mem_cons, Node.text?]

theorem predicatesText?_isSome (es : List Expr) :
    (predicatesText? es).isSome = true ↔ ∀ c ∈ es.map Node.expr, c.text?.isSome = true := by
  induction es with
  | nil => simp [predicatesText?]
  | cons e rest ih =>
    rw [predicatesText?, isSome_both, ih, List.map_cons, List.forall_mem_cons, Node.text?]

theorem pathText?_isSome (steps : Path) :
    (pathText? steps).isSome = true ↔ ∀ c ∈ (pathNode steps).children, c.text?.isSome = true := by
  induction steps with
  | nil => simp [pathText?, pathNode, Node.children]
  | cons entry rest ih =>
    have hchildren : (pathNode (entry :: rest)).children =
        .step entry.2 :: (pathNode rest).children := rfl
    rw [pathText?, isSome_both, ih, hchildren, List.forall_mem_cons, Node.text?]

end Texts

namespace Node

/-- A node has a text when it is there and each of its children has one. -/
theorem text?_isSome (n : Node) : n.text?.isSome = true ↔
    n.kind? ≠ none ∧ ∀ c ∈ n.children, c.text?.isSome = true := by
  cases n with
  | expr e =>
    cases e with
    | missing => simp [text?, Expr.text?, kind?, Expr.kind?]
    | literal | number | boolean | reference | root =>
      simp [text?, Expr.text?, kind?, Expr.kind?, children]
    | path steps =>
      rw [text?, Expr.text?, pathText?_isSome]
      simp [kind?, Expr.kind?, pathNode]
    | absolute steps | everywhere steps =>
      simp [text?, Expr.text?, kind?, Expr.kind?, children, pathNode]
    | call function args =>
      rw [text?, Expr.text?, isSome_one, argumentTexts?_isSome]
      simp [kind?, Expr.kind?, children]
    | negate operand =>
      rw [text?, Expr.text?, isSome_one]
      simp [text?, kind?, Expr.kind?, children]
    | binary op comparison lhs rhs =>
      rw [text?, Expr.text?, isSome_both]
      simp [text?, kind?, Expr.kind?, children]
    | filter source predicates =>
      rw [text?, Expr.text?, isSome_both, predicatesText?_isSome, children, List.forall_mem_cons]
      simp [text?, kind?, Expr.kind?]
    | continued source separator steps =>
      rw [text?, Expr.text?, isSome_both]
      simp [text?, Expr.text?, kind?, Expr.kind?, children, pathNode]
    | rootName test => simp [text?, Expr.text?, kind?, Expr.kind?, children, Test.text?]
  | test t =>
    cases t with
    | missing => simp [text?, Test.text?, kind?, Test.kind?]
    | name | abbreviated => simp [text?, Test.text?, kind?, Test.kind?, children]
    | nodeType type argument =>
      cases argument <;> simp [text?, Test.text?, kind?, Test.kind?, children, Expr.text?]
  | step s =>
    obtain ⟨axis, test, predicates⟩ := s
    rw [text?, Step.text?, isSome_both, predicatesText?_isSome, children, List.forall_mem_cons]
    simp [text?, kind?]

/-- A tree has a text exactly when no part of it is missing. -/
theorem text?_isSome_iff (n : Node) : n.text?.isSome = true ↔ n.Complete := by
  induction n using induction_on_children with
  | h n ih =>
    rw [text?_isSome, Complete, everywhere_iff]
    exact and_congr_right fun _ => forall₂_congr ih

end Node

mutual

/-- An expression with its root name tests spelled as absolute paths of one step. -/
def Expr.spelledOut : Expr → Expr
  | .rootName test => .absolute [(.absent, .mk none (.name test) [])]
  | .path steps => .path (spelledOutPath steps)
  | .absolute steps => .absolute (spelledOutPath steps)
  | .everywhere steps => .everywhere (spelledOutPath steps)
  | .call function args => .call function (spelledOutAll args)
  | .negate operand => .negate operand.spelledOut
  | .binary op comparison lhs rhs => .binary op comparison lhs.spelledOut rhs.spelledOut
  | .filter source predicates => .filter source.spelledOut (spelledOutAll predicates)
  | .continued source separator steps =>
    .continued source.spelledOut separator (spelledOutPath steps)
  | .missing => .missing
  | .literal value => .literal value
  | .number value => .number value
  | .boolean value => .boolean value
  | .reference name => .reference name
  | .root => .root

def spelledOutAll : List Expr → List Expr
  | [] => []
  | e :: rest => e.spelledOut :: spelledOutAll rest

def spelledOutPath : List (Separator × Step) → List (Separator × Step)
  | [] => []
  | (separator, step) :: rest => (separator, step.spelledOut) :: spelledOutPath rest

def Step.spelledOut : Step → Step
  | .mk axis test predicates => .mk axis test (spelledOutAll predicates)

end

/-! Where parentheses stand depends on these three questions. -/

namespace Expr

@[simp]
theorem isBinary_spelledOut (e : Expr) : e.spelledOut.isBinary = e.isBinary := by
  cases e <;> rfl

@[simp]
theorem isFilter_spelledOut (e : Expr) : e.spelledOut.isFilter = e.isFilter := by
  cases e <;> rfl

@[simp]
theorem delimitsItself_spelledOut (e : Expr) :
    e.spelledOut.delimitsItself = e.delimitsItself := by
  cases e <;> rfl

end Expr

mutual

theorem Expr.text?_spelledOut (e : Expr) : e.spelledOut.text? = e.text? := by
  cases e with
  | missing | literal | number | boolean | reference | root => rfl
  | rootName test =>
    simp [Expr.spelledOut, Expr.text?, pathText?, Step.text?, Test.text?, predicatesText?,
      Separator.symbol]
  | path steps => rw [Expr.spelledOut, Expr.text?, Expr.text?, pathText?_spelledOut steps]
  | absolute steps => rw [Expr.spelledOut, Expr.text?, Expr.text?, pathText?_spelledOut steps]
  | everywhere steps => rw [Expr.spelledOut, Expr.text?, Expr.text?, pathText?_spelledOut steps]
  | call f args => rw [Expr.spelledOut, Expr.text?, Expr.text?, argumentTexts?_spelledOut args]
  | negate operand =>
    rw [Expr.spelledOut, Expr.text?, Expr.text?, operand.text?_spelledOut,
      operand.isBinary_spelledOut]
  | binary op c lhs rhs =>
    rw [Expr.spelledOut, Expr.text?, Expr.text?, lhs.text?_spelledOut, rhs.text?_spelledOut,
      lhs.isBinary_spelledOut, rhs.isBinary_spelledOut]
  | filter source predicates =>
    rw [Expr.spelledOut, Expr.text?, Expr.text?, source.text?_spelledOut,
      predicatesText?_spelledOut predicates, source.delimitsItself_spelledOut]
  | continued source separator steps =>
    rw [Expr.spelledOut, Expr.text?, Expr.text?, source.text?_spelledOut,
      pathText?_spelledOut steps, source.delimitsItself_spelledOut, source.isFilter_spelledOut]

theorem argumentTexts?_spelledOut (es : List Expr) :
    argumentTexts? (spelledOutAll es) = argumentTexts? es := by
  cases es with
  | nil => rfl
  | cons e rest =>
    rw [spelledOutAll, argumentTexts?, argumentTexts?, e.text?_spelledOut,
      argumentTexts?_spelledOut rest]

theorem predicatesText?_spelledOut (es : List Expr) :
    predicatesText? (spelledOutAll es) = predicatesText? es := by
  cases es with
  | nil => rfl
  | cons e rest =>
    rw [spelledOutAll, predicatesText?, predicatesText?, e.text?_spelledOut,
      predicatesText?_spelledOut rest]

theorem pathText?_spelledOut (steps : List (Separator × Step)) :
    pathText? (spelledOutPath steps) = pathText? steps := by
  match steps with
  | [] => rfl
  | (separator, step) :: rest =>
    rw [spelledOutPath, pathText?, pathText?, step.text?_spelledOut, pathText?_spelledOut rest]

theorem Step.text?_spelledOut (s : Step) : s.spelledOut.text? = s.text? := by
  match s with
  | .mk axis test predicates =>
    rw [Step.spelledOut, Step.text?, Step.text?, predicatesText?_spelledOut predicates]

end

/-- Spelling out root name tests changes no text, and the text of a tree reads back as the tree with
its root name tests spelled out. -/
theorem root_names_are_absolute_paths (e : Expr) :
    e.text? = e.spelledOut.text? ∧
    ((Node.expr e).Complete →
      ∃ text, e.text? = some text ∧ e.spelledOut.text? = some text) ∧
    (e.spelledOut.WellFormed → ∃ text tokens, e.text? = some text ∧ tokenize text = .ok tokens ∧
      Denotes e.spelledOut.nesting tokens e.spelledOut ∧
      (e.spelledOut.nesting ≤ 255 → parse text = .ok e.spelledOut)) := by
  refine ⟨e.text?_spelledOut.symm, fun h => ?_, fun h => ?_⟩
  · obtain ⟨text, htext⟩ := Option.isSome_iff_exists.mp ((Node.text?_isSome_iff _).mpr h)
    have htext : e.text? = some text := htext
    exact ⟨text, htext, e.text?_spelledOut.trans htext⟩
  · obtain ⟨text, tokens, htext, htokens, hden⟩ := text_denotes h
    rw [e.text?_spelledOut] at htext
    exact ⟨text, tokens, htext, htokens, hden, parse_of_denotes htokens hden⟩

/-- `(/a)[/* | /b]//b` with root name tests in its group and its predicate. -/
def rootNames : Expr :=
  .continued
    (.filter (.rootName (.qualified ⟨[], utf8 "a"⟩))
      [.binary .union .absent (.rootName .any) (.rootName (.qualified ⟨[], utf8 "b"⟩))])
    .descendant [(.absent, .mk none (.name (.qualified ⟨[], utf8 "b"⟩)) [])]

theorem root_names_are_absolute_paths_grouped :
    (Node.expr rootNames).Complete ∧ rootNames.spelledOut.WellFormed ∧
      rootNames.spelledOut.text? = some (utf8 "(/a)[/* | /b]//b") ∧
      parse (utf8 "(/a)[/* | /b]//b") = .ok rootNames.spelledOut := by
  have hcomplete : (Node.expr rootNames).Complete := (Node.text?_isSome_iff _).mp (by decide)
  have ha : IsName (utf8 "a") := ⟨isWord_utf8 (by decide), by decide⟩
  have hb : IsName (utf8 "b") := ⟨isWord_utf8 (by decide), by decide⟩
  have hroot : ∀ test : NameTest, test.WellFormed → (Expr.rootName test).spelledOut.WellFormed :=
    fun test h => ⟨rfl, .inr ⟨by simp, h, trivial⟩, trivial⟩
  have hname : ∀ {name : Bytes}, IsName name → (NameTest.qualified ⟨[], name⟩).WellFormed :=
    fun h => .inr (.inr ⟨_, ⟨.inl rfl, h⟩, rfl⟩)
  have hpredicate : Expr.WellFormed (.binary .union .absent (Expr.rootName .any).spelledOut
      (Expr.rootName (.qualified ⟨[], utf8 "b"⟩)).spelledOut) :=
    ⟨⟨by decide, by decide⟩, hroot _ (.inl rfl), hroot _ (hname hb)⟩
  have hwell : rootNames.spelledOut.WellFormed :=
    ⟨⟨hroot _ (hname ha), by simp [spelledOutAll], hpredicate, trivial⟩, .inr rfl,
      wellFormed_namePath hb⟩
  obtain ⟨-, hcommon, hreads⟩ := root_names_are_absolute_paths rootNames
  obtain ⟨text, htext, hspelled⟩ := hcommon hcomplete
  obtain ⟨text', -, htext', -, -, hparse⟩ := hreads hwell
  have hwritten : rootNames.text? = some (utf8 "(/a)[/* | /b]//b") := by decide
  have heq : text = utf8 "(/a)[/* | /b]//b" := Option.some.inj (htext.symm.trans hwritten)
  have heq' : text' = utf8 "(/a)[/* | /b]//b" := Option.some.inj (htext'.symm.trans hwritten)
  rw [heq] at hspelled
  rw [heq'] at hparse
  exact ⟨hcomplete, hwell, hspelled, hparse (by decide)⟩

end NodePath
