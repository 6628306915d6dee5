import NodePath.Proofs.CursorReader
import NodePath.Proofs.Locality

/-!
# Routines follow readings

At every cursor a routine whose calls may be nested deep enough has an outcome, and it is the answer
of the reader of the same name to the tokens that are left: the same value with the cursor moved by
the tokens taken, or the same error.
The parts that routines are put together from follow the parts of readings. The levels that a reader
has left are those between the depth of the cursor and the limit.
-/

namespace NodePath

open NodePath.Text NodePath.Number Reading

namespace Cursor

variable (c : Cursor) (m n : Nat)

@[simp] theorem left_moved : (c.moved n).left = c.left.drop n := by
  simp [left, moved, List.drop_drop]

theorem length_left_moved : (c.moved n).left.length = c.left.length - n := by
  rw [left_moved, List.length_drop]

@[simp] theorem stop_moved : (c.moved n).stop = c.stop := rfl

@[simp] theorem moved_zero : c.moved 0 = c := rfl

@[simp] theorem moved_moved : (c.moved m).moved n = c.moved (m + n) := by
  simp [moved, Nat.add_assoc]

theorem peek_eq : c.peek n = nextToken c.stop (c.left.drop n) := by
  have hget : c.tokens[c.position + n]? = (c.left.drop n).head? := by
    rw [left, List.drop_drop, List.head?_drop]
  rw [peek, hget]
  cases c.left.drop n <;> rfl

theorem peek_kind : (c.peek n).kind = nextKind (c.left.drop n) := by
  rw [peek_eq, nextToken_kind]

theorem next_kind : (c.peek 0).kind = nextKind c.left := peek_kind c 0

theorem refusal_eq (expected : Expectation) :
    c.refusal expected = refuse c.stop expected c.left := by
  rw [refusal, peek_eq, List.drop_zero, refuse, left, List.length_drop]

section Cons

variable {c n} {t : Token} {rest : List Token}

theorem peek_cons (h : c.left = t :: rest) : c.peek 0 = t := by
  rw [peek_eq, h]
  rfl

theorem peek_behind (h : c.left = t :: rest) :
    (c.peek (n + 1)).kind = nextKind (rest.drop n) := by
  rw [peek_kind, h]
  rfl

theorem left_behind (h : c.left = t :: rest) : (c.moved 1).left = rest := by
  rw [left_moved, h]
  rfl

theorem position_ge (h : c.left = []) : ¬c.position < c.tokens.length :=
  Nat.not_lt.mpr (List.drop_eq_nil_iff.mp h)

theorem position_lt (h : c.left = t :: rest) : c.position < c.tokens.length := by
  have hlen := congrArg List.length h
  rw [left, List.length_drop, List.length_cons] at hlen
  omega

end Cons

end Cursor

namespace Routine

variable {α β : Type} {m : Routine α} {q q' : Reading α} {c : Cursor}

/-- At a cursor a routine gives the answer of a reading of the tokens that are left, and moves on by
as many tokens as the reading takes. -/
inductive Follows (m : Routine α) (q : Reading α) (c : Cursor) : Prop
  | accepts {v : α} {n : Nat} (hn : n ≤ c.left.length)
      (hq : q c.stop c.left = .ok (v, c.left.drop n)) (hm : m c = some (.ok (v, c.moved n)))
  | refuses {e : SyntaxError} (hq : q c.stop c.left = .error e) (hm : m c = some (.error e))

theorem bind_ok {k : α → Routine β} {v : α} {c' : Cursor} (h : m c = some (.ok (v, c'))) :
    (m >>= k) c = k v c' := by
  show (m c).bind _ = _
  rw [h]
  rfl

theorem bind_error {k : α → Routine β} {e : SyntaxError} (h : m c = some (.error e)) :
    (m >>= k) c = some (.error e) := by
  show (m c).bind _ = _
  rw [h]
  rfl

namespace Follows

theorem congr (h : Follows m q c) (heq : q' c.stop c.left = q c.stop c.left) : Follows m q' c := by
  cases h with
  | accepts hn hq hm => exact .accepts hn (heq.trans hq) hm
  | refuses hq hm => exact .refuses (heq.trans hq) hm

theorem give (v : α) : Follows (pure v) (give v) c := .accepts (Nat.zero_le _) rfl rfl

theorem refuse (expected : Expectation) :
    Follows (refuse expected : Routine α) (fail expected) c := by
  refine .refuses rfl ?_
  rw [Routine.refuse, Cursor.refusal_eq]

theorem bind {k : α → Routine β} {k' : α → Reading β} (h : Follows m q c)
    (hk : ∀ {v n}, q c.stop c.left = .ok (v, c.left.drop n) → Follows (k v) (k' v) (c.moved n)) :
    Follows (m >>= k) (q.andThen k') c := by
  cases h with
  | refuses hq hm => exact .refuses (by rw [andThen, hq]; rfl) (bind_error hm)
  | @accepts v n hn hq hm =>
    have hthen : (q.andThen k') c.stop c.left = k' v c.stop (c.left.drop n) := by
      rw [andThen, hq]
      rfl
    cases hk hq with
    | refuses hq' hm' =>
      rw [Cursor.stop_moved, Cursor.left_moved, ← hthen] at hq'
      exact .refuses hq' ((bind_ok hm).trans hm')
    | @accepts w n' hn' hq' hm' =>
      rw [Cursor.stop_moved, Cursor.left_moved, ← hthen, List.drop_drop] at hq'
      rw [Cursor.left_moved, List.length_drop] at hn'
      rw [Cursor.moved_moved] at hm'
      exact .accepts (by omega) hq' ((bind_ok hm).trans hm')

theorem map {f : α → β} (h : Follows m q c) : Follows (m >>= fun v => pure (f v)) (q.map f) c :=
  h.bind fun _ => give _

/-- Looking at a token moves nothing. -/
theorem peek {n : Nat} {k : Token → Routine α} (h : Follows (k (c.peek n)) q c) :
    Follows (peek n >>= k) q c := by
  cases h with
  | accepts hn hq hm => exact .accepts hn hq hm
  | refuses hq hm => exact .refuses hq hm

theorem current {k : Token → Routine α} (h : Follows (k (c.peek 0)) q c) :
    Follows (current >>= k) q c := h.peek

/-- Taking a token and going on as another reading. -/
theorem token {k : Token → Routine α} {t : Token} {rest : List Token} (hleft : c.left = t :: rest)
    (h : Follows (k t) q (c.moved 1)) (heq : q' c.stop (t :: rest) = q c.stop rest) :
    Follows (advance >>= k) q' c := by
  have hadvance : advance c = some (.ok (t, c.moved 1)) := by
    rw [advance, Cursor.peek_cons hleft, if_pos (Cursor.position_lt hleft)]
  have hrest := Cursor.left_behind hleft
  have hq' : q' c.stop c.left = q (c.moved 1).stop (c.moved 1).left := by
    rw [hleft, hrest]
    exact heq
  cases h with
  | refuses hq hm => exact .refuses (hq'.trans hq) ((bind_ok hadvance).trans hm)
  | @accepts v n hn hq hm =>
    rw [hrest] at hn
    have hlen : 1 + n ≤ c.left.length := by
      rw [hleft, List.length_cons]
      omega
    rw [← hq', Cursor.left_moved, List.drop_drop] at hq
    rw [Cursor.moved_moved] at hm
    exact .accepts hlen hq ((bind_ok hadvance).trans hm)

/-- Taking the next token for a value, and nothing else. -/
theorem one {t : Token} {rest : List Token} {v : α} (hleft : c.left = t :: rest)
    (heq : q c.stop (t :: rest) = .ok (v, rest)) : Follows (advance >>= fun _ => pure v) q c :=
  token hleft (give v) heq

end Follows

theorem expect_refuses {kind : Kind} {expected : Expectation} (h : nextKind c.left ≠ kind) :
    expect kind expected c = some (.error (c.refusal expected)) := by
  show (if (c.peek 0).kind = kind then advance else Routine.refuse expected) c = _
  rw [Cursor.next_kind, if_neg h]
  rfl

theorem follows_expect_bind {kind : Kind} {expected : Expectation} {value : Token → α}
    {k : Token → Routine β} {k' : α → Reading β} (hkind : kind ≠ .eof)
    (h : ∀ t, Follows (k t) (k' (value t)) (c.moved 1)) :
    Follows (expect kind expected >>= k) ((need kind expected value).andThen k') c := by
  by_cases hnext : nextKind c.left = kind
  · rw [expect, bind_assoc]
    refine .current ?_
    rw [Cursor.next_kind, if_pos hnext]
    obtain ⟨t, rest, hleft, ht⟩ := eq_cons_of_nextKind hnext hkind
    refine .token hleft (h t) ?_
    rw [andThen, need, if_pos ht]
    rfl
  · refine .refuses ?_ (bind_error (expect_refuses hnext))
    rw [andThen, need_eq_fail hnext, Cursor.refusal_eq]
    rfl

theorem follows_expect {kind : Kind} {expected : Expectation} {f : Token → α}
    (hkind : kind ≠ .eof) :
    Follows (expect kind expected >>= fun t => pure (f t)) (need kind expected f) c := by
  rw [← andThen_give (need kind expected f)]
  exact follows_expect_bind hkind fun t => .give (f t)

theorem follows_ifNext {kind : Kind} {yes no : Routine α} {yes' no' : Reading α}
    (hkind : kind ≠ .eof) (hyes : 0 < c.left.length → Follows yes yes' (c.moved 1))
    (hno : Follows no no' c) :
    Follows (current >>= fun t => if t.kind = kind then advance >>= fun _ => yes else no)
      (ifNext kind yes' no') c := by
  refine .current ?_
  rw [Cursor.next_kind]
  split
  · next hnext =>
    obtain ⟨t, rest, hleft, ht⟩ := eq_cons_of_nextKind hnext hkind
    refine .token hleft (hyes (by simp [hleft])) ?_
    rw [ifNext, accept_cons ht]
  · next hnext =>
    refine hno.congr ?_
    rw [ifNext, accept_eq_none hnext]

theorem follows_ifSeparator {yes : Separator → Routine α} {no : Routine α}
    {yes' : Separator → Reading α} {no' : Reading α}
    (hyes : ∀ separator, 0 < c.left.length → Follows (yes separator) (yes' separator) (c.moved 1))
    (hno : Follows no no' c) :
    Follows (current >>= fun t => match separatorOf t.kind with
      | none => no
      | some separator => advance >>= fun _ => yes separator) (ifSeparator yes' no') c := by
  refine .current ?_
  rw [Cursor.next_kind]
  split
  · next hnone =>
    refine hno.congr ?_
    rw [ifSeparator, acceptSeparator_none hnone]
  · next separator hsome =>
    have hend : nextKind c.left ≠ .eof := by
      intro hk
      rw [hk] at hsome
      cases hsome
    obtain ⟨t, rest, hleft, ht⟩ := eq_cons_of_nextKind rfl hend
    refine .token hleft (hyes separator (by simp [hleft])) ?_
    rw [ifSeparator, acceptSeparator_cons (ht ▸ hsome)]

/-- A token that is taken for its value. -/
theorem follows_takeValue {value? : Bytes → Option α} {expected : Expectation} {t : Token}
    {rest : List Token} {f : α → β} (hleft : c.left = t :: rest) {q : Reading β}
    (hq : q c.stop (t :: rest) = match value? t.lexeme with
      | none => .error (NodePath.refuse c.stop expected (t :: rest))
      | some v => .ok (f v, rest)) :
    Follows (takeValue expected value? >>= fun v => pure (f v)) q c := by
  rw [takeValue, bind_assoc]
  refine .current ?_
  rw [Cursor.peek_cons hleft]
  cases hv : value? t.lexeme with
  | none =>
    rw [hv, ← hleft, ← Cursor.refusal_eq] at hq
    exact .refuses hq (bind_error rfl)
  | some v =>
    rw [hv] at hq
    exact .one hleft hq

/-- What takes a token leaves less. -/
theorem taken_pos {ts : List Token} {answer : Except SyntaxError (α × Shorter ts)} {v : α} {n : Nat}
    (h : plain answer = .ok (v, ts.drop n)) : 0 < n ∧ 0 < ts.length := by
  obtain ⟨hlt, -⟩ := plain_eq_ok h
  rw [List.length_drop] at hlt
  omega

theorem follows_name : Follows readName (fun stop ts => plain (parseName stop ts)) c := by
  refine Follows.congr ?_ plain_parseName
  refine follows_expect_bind (by decide) fun first => ?_
  exact follows_ifNext (by decide) (fun _ => follows_expect (by decide)) (.give _)

theorem follows_typeArgument : Follows readTypeArgument typeArgument c := by
  refine .current ?_
  rw [Cursor.next_kind]
  split
  · next hnext =>
    obtain ⟨a, rest, hleft, ha⟩ := eq_cons_of_nextKind hnext (by decide)
    rw [Cursor.peek_cons hleft]
    exact .one hleft (typeArgument_some ha)
  · next hnext => exact (Follows.give none).congr (typeArgument_none hnext)

theorem follows_test : Follows readTest (fun stop ts => plain (parseTest stop ts)) c := by
  refine .current ?_
  rw [Cursor.next_kind]
  split
  · next hnext =>
    obtain ⟨t, rest, hleft, ht⟩ := eq_cons_of_nextKind hnext (by decide)
    refine .one hleft ?_
    rw [parseTest, ht]
    rfl
  · next hnext =>
    obtain ⟨t, rest, hleft, ht⟩ := eq_cons_of_nextKind hnext (by decide)
    rw [Cursor.peek_cons hleft]
    refine .peek (.peek ?_)
    rw [Cursor.peek_behind hleft, Cursor.peek_behind hleft]
    split
    · next hany =>
      obtain ⟨u, rest, rfl, hu⟩ := eq_cons_of_nextKind hany.1 (by decide)
      obtain ⟨s, rest, rfl, hs⟩ := eq_cons_of_nextKind hany.2 (by decide)
      refine .token hleft (q := fun _ ts => .ok (.name (.anyIn t.lexeme), ts.drop 2)) ?_ ?_
      · have hleft := Cursor.left_behind hleft
        refine .token hleft (q := fun _ ts => .ok (.name (.anyIn t.lexeme), ts.drop 1)) ?_ rfl
        exact .one (Cursor.left_behind hleft) rfl
      · rw [parseTest, ht]
        dsimp only
        rw [acceptAnyIn, if_pos ⟨ht, hu, hs⟩]
        rfl
    · next hnot =>
      have hnone : acceptAnyIn (t :: rest) = none := by
        cases hany : acceptAnyIn (t :: rest) with
        | none => rfl
        | some a =>
          obtain ⟨space, rest', hr⟩ := a
          obtain ⟨t', u, s, -, hu, hs, -, heq⟩ := acceptAnyIn_some hany
          cases heq
          exact absurd ⟨hu, hs⟩ hnot
      refine follows_name.map.congr ?_
      rw [hleft, parseTest, ht]
      dsimp only
      rw [hnone]
      exact plain_bind rfl fun _ _ _ => rfl
  · next hnext =>
    obtain ⟨t, rest, hleft, ht⟩ := eq_cons_of_nextKind hnext (by decide)
    rw [Cursor.peek_cons hleft]
    refine .token hleft ?_ (parseTest_nodeType ht)
    refine follows_expect_bind (by decide) fun _ => follows_typeArgument.bind fun _ => ?_
    exact follows_expect (by decide)
  · next hstar hname htype =>
    exact (Follows.refuse _).congr (parseTest_other hstar hname htype)

theorem follows_truth (value : Bool) :
    Follows (readTruth value) (fun stop ts => plain (parseTruth stop value ts)) c := by
  refine Follows.congr ?_ plain_parseTruth
  exact follows_ifNext (by decide) (fun _ => follows_expect (by decide)) (.give _)

section Nested

variable {levels : Nat} {x : Int → Parser Expr}

/-! Until a token is taken at most ten calls are nested. The summand in the bound of a routine says
how many of them it may still need. -/

/-- Where some levels of nesting are left, expressions are read as a reader reads them. -/
def ExpressionFollowed (levels : Nat) (x : Int → Parser Expr) : Prop :=
  ∀ (calls : Nat) (c : Cursor), c.levels = levels → 10 * c.left.length + 8 ≤ calls →
    Follows (readBinary calls 1) (fun stop ts => plain (x stop ts)) c

theorem follows_predicates (hx : ExpressionFollowed levels x) (calls : Nat) (c : Cursor)
    (hc : c.levels = levels) (hcalls : 10 * c.left.length + 1 ≤ calls) :
    Follows (readPredicates calls) (fun stop ts => plain (parsePredicates stop (x stop) ts)) c := by
  induction calls generalizing c with
  | zero => omega
  | succ calls ih =>
    rw [readPredicates]
    refine Follows.congr ?_ plain_parsePredicates
    refine follows_ifNext (by decide) (fun hlen => ?_) (.give [])
    refine (hx calls (c.moved 1) hc (by simp only [Cursor.length_left_moved]; omega)).bind
      fun {first n} _ => ?_
    refine follows_expect_bind (by decide) fun _ => ?_
    exact (ih (((c.moved 1).moved n).moved 1) hc
      (by simp only [Cursor.length_left_moved]; omega)).map

theorem follows_testStep (hx : ExpressionFollowed levels x) (calls : Nat) (c : Cursor)
    (hc : c.levels = levels) (hcalls : 10 * c.left.length + 2 ≤ calls) (axis : Option Axis) :
    Follows (readTestStep calls axis)
      (fun stop ts => plain (parseTestStep stop (x stop) axis ts)) c := by
  cases calls with
  | zero => omega
  | succ calls =>
    rw [readTestStep]
    refine Follows.congr ?_ plain_parseTestStep
    exact follows_test.bind fun {_ n} _ => (follows_predicates hx calls (c.moved n) hc
      (by simp only [Cursor.length_left_moved]; omega)).map

theorem follows_step (hx : ExpressionFollowed levels x) (calls : Nat) (c : Cursor)
    (hc : c.levels = levels) (hcalls : 10 * c.left.length + 3 ≤ calls) :
    Follows (readStep calls) (fun stop ts => plain (parseStep stop (x stop) ts)) c := by
  cases calls with
  | zero => omega
  | succ calls =>
  have htestStep : ∀ n axis, Follows (readTestStep calls axis)
      (fun stop ts => plain (parseTestStep stop (x stop) axis ts)) (c.moved n) := fun n axis =>
    follows_testStep hx calls (c.moved n) hc (by rw [Cursor.length_left_moved]; omega) axis
  rw [readStep]
  refine .current ?_
  rw [Cursor.next_kind]
  split
  · next hnext =>
    obtain ⟨t, rest, hleft, ht⟩ := eq_cons_of_nextKind hnext (by decide)
    refine .one hleft ?_
    rw [parseStep, ht]
    rfl
  · next hnext =>
    obtain ⟨t, rest, hleft, ht⟩ := eq_cons_of_nextKind hnext (by decide)
    refine .one hleft ?_
    rw [parseStep, ht]
    rfl
  · next hnext =>
    obtain ⟨t, rest, hleft, ht⟩ := eq_cons_of_nextKind hnext (by decide)
    rw [Cursor.peek_cons hleft]
    refine .token hleft ?_ (parseStep_axis ht)
    exact follows_expect_bind (by decide) fun _ => htestStep (1 + 1) _
  · next hnext =>
    obtain ⟨t, rest, hleft, ht⟩ := eq_cons_of_nextKind hnext (by decide)
    exact .token hleft (htestStep 1 _) (parseStep_attribute ht)
  · next hdot hdots haxis hat =>
    refine (htestStep 0 none).congr ?_
    rw [Cursor.moved_zero, parseStep_other hdot hdots haxis hat]

theorem follows_furtherSteps (hx : ExpressionFollowed levels x) (calls : Nat) (c : Cursor)
    (hc : c.levels = levels) (hcalls : 10 * c.left.length + 1 ≤ calls) :
    Follows (readFurtherSteps calls)
      (fun stop ts => plain (parseFurtherSteps stop (x stop) ts)) c := by
  induction calls generalizing c with
  | zero => omega
  | succ calls ih =>
    rw [readFurtherSteps]
    refine Follows.congr ?_ plain_parseFurtherSteps
    refine follows_ifSeparator (fun separator hlen => ?_) (.give [])
    refine (follows_step hx calls (c.moved 1) hc
      (by simp only [Cursor.length_left_moved]; omega)).bind fun {step n} _ => ?_
    exact (ih ((c.moved 1).moved n) hc (by simp only [Cursor.length_left_moved]; omega)).map

theorem follows_path (hx : ExpressionFollowed levels x) (calls : Nat) (c : Cursor)
    (hc : c.levels = levels) (hcalls : 10 * c.left.length + 4 ≤ calls) :
    Follows (readPath calls) (fun stop ts => plain (parsePath stop (x stop) ts)) c := by
  cases calls with
  | zero => omega
  | succ calls =>
    rw [readPath]
    refine Follows.congr ?_ plain_parsePath
    refine (follows_step hx calls c hc (by omega)).bind fun {_ n} _ => ?_
    exact (follows_furtherSteps hx calls (c.moved n) hc
      (by rw [Cursor.length_left_moved]; omega)).map

theorem follows_arguments (hx : ExpressionFollowed levels x) (calls : Nat) (c : Cursor)
    (hc : c.levels = levels) (hcalls : 10 * c.left.length + 9 ≤ calls) :
    Follows (readArguments calls) (fun stop ts => plain (parseArguments (x stop) ts)) c := by
  induction calls generalizing c with
  | zero => omega
  | succ calls ih =>
    rw [readArguments]
    refine Follows.congr ?_ plain_parseArguments
    refine (hx calls c hc (by omega)).bind fun {first n} hfirst =>
      follows_ifNext (by decide) (fun _ => ?_) (.give _)
    have htaken := taken_pos hfirst
    exact (ih ((c.moved n).moved 1) hc (by simp only [Cursor.length_left_moved]; omega)).map

/-- A call with its name, which any token can stand for. -/
def namedCall (x : Int → Parser Expr) : Reading Expr := fun stop ts =>
  plain (parseCall stop (x stop) (nextToken stop ts).lexeme (ts.drop 1))

theorem follows_call (hx : ExpressionFollowed levels x) (calls : Nat) (c : Cursor)
    (hc : c.levels = levels) (hcalls : 10 * c.left.length + 1 ≤ calls) :
    Follows (readCall calls) (namedCall x) c := by
  cases calls with
  | zero => omega
  | succ calls =>
  rw [readCall]
  cases hleft : c.left with
  | nil =>
    -- The end of the input is taken for the name, and stays to be refused.
    have hadvance : advance c = some (.ok (c.peek 0, c)) := by
      rw [advance, if_neg (Cursor.position_ge hleft)]
    have hend : nextKind c.left ≠ .leftParen := by
      rw [hleft]
      decide
    refine .refuses ?_ ((bind_ok hadvance).trans (bind_error (expect_refuses hend)))
    rw [Cursor.refusal_eq, hleft]
    rfl
  | cons t rest =>
    have hlen : 0 < c.left.length := by simp [hleft]
    refine .token (q := fun stop ts => plain (parseCall stop (x stop) t.lexeme ts)) hleft ?_ rfl
    refine Follows.congr ?_ plain_parseCall
    refine follows_expect_bind (by decide) fun _ => ?_
    refine follows_ifNext (by decide) (fun _ => .give _) ?_
    refine (follows_arguments hx calls ((c.moved 1).moved 1) hc
      (by simp only [Cursor.length_left_moved]; omega)).bind fun _ => ?_
    exact follows_expect (by decide)

theorem follows_source (hx : ExpressionFollowed levels x) (calls : Nat) (c : Cursor)
    (hc : c.levels = levels) (hcalls : 10 * c.left.length + 2 ≤ calls) :
    Follows (readSource calls) (fun stop ts => plain (parseSource stop (x stop) ts)) c := by
  cases calls with
  | zero => omega
  | succ calls =>
  rw [readSource]
  refine .current ?_
  rw [Cursor.next_kind]
  split
  · next hnext =>
    obtain ⟨t, rest, hleft, ht⟩ := eq_cons_of_nextKind hnext (by decide)
    rw [Cursor.peek_cons hleft]
    refine .one hleft ?_
    rw [parseSource, ht]
    rfl
  · next hnext =>
    obtain ⟨t, rest, hleft, ht⟩ := eq_cons_of_nextKind hnext (by decide)
    refine follows_takeValue hleft (f := fun i => Expr.number (.ofInt i)) ?_
    rw [parseSource, ht]
    dsimp only
    cases integer? t.lexeme <;> rfl
  · next hnext =>
    obtain ⟨t, rest, hleft, ht⟩ := eq_cons_of_nextKind hnext (by decide)
    refine follows_takeValue hleft (f := fun y => Expr.number (.ofFloat y)) ?_
    rw [parseSource, ht]
    dsimp only
    cases float? t.lexeme <;> rfl
  · next hnext =>
    obtain ⟨t, rest, hleft, ht⟩ := eq_cons_of_nextKind hnext (by decide)
    refine .token hleft (follows_truth true) ?_
    rw [parseSource, ht]
    exact plain_pass fun _ _ _ => rfl
  · next hnext =>
    obtain ⟨t, rest, hleft, ht⟩ := eq_cons_of_nextKind hnext (by decide)
    refine .token hleft (follows_truth false) ?_
    rw [parseSource, ht]
    exact plain_pass fun _ _ _ => rfl
  · next hnext =>
    obtain ⟨t, rest, hleft, ht⟩ := eq_cons_of_nextKind hnext (by decide)
    refine .token hleft (follows_name.map (f := Expr.reference)) ?_
    rw [parseSource, ht]
    exact plain_bind rfl fun _ _ _ => rfl
  · next hnext =>
    obtain ⟨t, rest, hleft, ht⟩ := eq_cons_of_nextKind hnext (by decide)
    refine (follows_call hx calls c hc (by omega)).congr ?_
    rw [hleft, parseSource, ht]
    exact plain_pass fun _ _ _ => rfl
  · next hnext =>
    obtain ⟨t, rest, hleft, ht⟩ := eq_cons_of_nextKind hnext (by decide)
    have hlen : 0 < c.left.length := by simp [hleft]
    have hinner := hx calls (c.moved 1) hc (by rw [Cursor.length_left_moved]; omega)
    refine .token hleft (hinner.bind fun _ => follows_expect (by decide)) ?_
    rw [parseSource, ht]
    exact plain_bind rfl fun _ _ _ => plain_expect fun _ _ _ => rfl
  · next h₁ h₂ h₃ h₄ h₅ h₆ h₇ h₈ =>
    refine (Follows.refuse .expression).congr (parseSource_other ?_)
    cases hk : nextKind c.left <;> first | rfl | contradiction

theorem follows_filtered (hx : ExpressionFollowed levels x) (calls : Nat) (c : Cursor)
    (hc : c.levels = levels) (hcalls : 10 * c.left.length + 3 ≤ calls) :
    Follows (readFiltered calls) (fun stop ts => plain (parseFiltered stop (x stop) ts)) c := by
  cases calls with
  | zero => omega
  | succ calls =>
    rw [readFiltered]
    refine Follows.congr ?_ plain_parseFiltered
    refine (follows_source hx calls c hc (by omega)).bind fun {source n} _ => ?_
    refine (follows_predicates hx calls (c.moved n) hc
      (by rw [Cursor.length_left_moved]; omega)).bind fun {ps n'} _ => ?_
    refine follows_ifSeparator (fun separator hlen => ?_) (.give _)
    simp only [Cursor.length_left_moved] at hlen
    exact (follows_path hx calls (((c.moved n).moved n').moved 1) hc
      (by simp only [Cursor.length_left_moved]; omega)).map

theorem follows_primary (hx : ExpressionFollowed levels x) (calls : Nat) (c : Cursor)
    (hc : c.levels = levels) (hcalls : 10 * c.left.length + 5 ≤ calls) :
    Follows (readPrimary calls) (fun stop ts => plain (parsePrimary stop (x stop) ts)) c := by
  cases calls with
  | zero => omega
  | succ calls =>
  have hpath : ∀ n, Follows (readPath calls) (fun stop ts => plain (parsePath stop (x stop) ts))
      (c.moved n) := fun n =>
    follows_path hx calls (c.moved n) hc (by rw [Cursor.length_left_moved]; omega)
  rw [readPrimary]
  refine .current ?_
  rw [Cursor.next_kind]
  split
  · next hslash =>
    obtain ⟨t, rest, hleft, ht⟩ := eq_cons_of_nextKind hslash (by decide)
    refine .token hleft (q := fun stop ts => plain (parsePrimary stop (x stop) (t :: ts)))
      (.current ?_) rfl
    rw [Cursor.next_kind, Cursor.left_behind hleft]
    split
    · next hstep =>
      refine (hpath 1).map.congr ?_
      rw [Cursor.left_behind hleft, parsePrimary, if_pos ht, nextToken_kind, if_pos hstep]
      exact plain_bind rfl fun _ _ _ => rfl
    · next hstep =>
      refine (Follows.give Expr.root).congr ?_
      rw [Cursor.left_behind hleft, parsePrimary, if_pos ht, nextToken_kind, if_neg hstep]
      rfl
  split
  · next hdouble =>
    obtain ⟨t, rest, hleft, ht⟩ := eq_cons_of_nextKind hdouble (by decide)
    refine .token hleft (hpath 1).map ?_
    rw [parsePrimary, if_neg (by simp [ht]), if_pos ht]
    exact plain_bind rfl fun _ _ _ => rfl
  split
  · next hstep => exact (hpath 0).map.congr (parsePrimary_step hstep)
  · next hslash hdouble hstep =>
    refine (follows_filtered hx calls c hc (by omega)).congr ?_
    rw [parsePrimary_other hslash hdouble (Bool.eq_false_iff.mpr hstep)]

end Nested

/-- A level of nesting is closed again behind what it was opened for. -/
theorem follows_nesting (hdepth : c.depth < maxLevels) (h : Follows m q c.nested) :
    Follows (enter >>= fun _ => m >>= fun v => leave >>= fun _ => pure v) q c := by
  have henter : enter c = some (.ok ((), c.nested)) := by
    rw [enter, if_neg (by simp only [Cursor.nested]; omega)]
  cases h with
  | refuses hq hm => exact .refuses hq ((bind_ok henter).trans (bind_error hm))
  | accepts hn hq hm => exact .accepts hn hq ((bind_ok henter).trans (bind_ok hm))

/-- Where some levels of nesting are left, operands are read as the reader reads them. -/
def UnaryFollowed (levels : Nat) : Prop :=
  ∀ (calls : Nat) (c : Cursor), c.levels = levels → 10 * c.left.length + 7 ≤ calls →
    Follows (readUnary calls) (fun stop ts => plain (parseUnary stop levels ts)) c

section Climbing

variable {levels : Nat}

mutual

theorem follows_binary (hu : UnaryFollowed levels) (calls : Nat) (floor : Int) (c : Cursor)
    (hc : c.levels = levels) (hcalls : 10 * c.left.length + 8 ≤ calls) :
    Follows (readBinary calls floor)
      (fun stop ts => plain (climb (parseUnary stop levels) floor.toNat ts)) c := by
  cases calls with
  | zero => omega
  | succ calls =>
    rw [readBinary]
    refine Follows.congr ?_ plain_climb
    refine (hu calls c hc (by omega)).bind fun {left n} _ => ?_
    exact follows_operators hu calls floor left (c.moved n) hc
      (by rw [Cursor.length_left_moved]; omega)
termination_by calls

theorem follows_operators (hu : UnaryFollowed levels) (calls : Nat) (floor : Int) (left : Expr)
    (c : Cursor) (hc : c.levels = levels) (hcalls : 10 * c.left.length + 1 ≤ calls) :
    Follows (readOperators calls floor left)
      (fun stop ts => plain (climbFrom (parseUnary stop levels) floor.toNat left ts)) c := by
  cases calls with
  | zero => omega
  | succ calls =>
  rw [readOperators]
  refine .current ?_
  rw [Cursor.next_kind]
  split
  · next hnone =>
    refine (Follows.give left).congr (climbFrom_stopped (bindsBelow_iff.mpr ?_))
    simp [hnone]
  next op b hop =>
  split
  · next hlt =>
    refine (Follows.give left).congr (climbFrom_stopped (bindsBelow_iff.mpr ?_))
    rw [hop]
    rintro _ _ ⟨⟩
    omega
  · next hge =>
    have hend : nextKind c.left ≠ .eof := by
      intro hk
      rw [hk] at hop
      cases hop
    obtain ⟨t, rest, hleft, ht⟩ := eq_cons_of_nextKind rfl hend
    have hlen : 0 < c.left.length := by simp [hleft]
    rw [Cursor.peek_cons hleft]
    refine .token hleft ?_ (plain_climbFrom (ht ▸ hop) (by omega))
    have hright : Follows (readBinary calls (b + 1))
        (fun stop ts => plain (climb (parseUnary stop levels) (b + 1) ts)) (c.moved 1) :=
      follows_binary hu calls (b + 1) (c.moved 1) hc (by rw [Cursor.length_left_moved]; omega)
    exact hright.bind fun {right n} _ =>
      follows_operators hu calls floor (.binary op t.comparison left right)
        ((c.moved 1).moved n) hc (by simp only [Cursor.length_left_moved]; omega)
termination_by calls

end

theorem follows_unary (levels : Nat) : UnaryFollowed levels := by
  induction levels with
  | zero =>
    intro calls c hc hcalls
    cases calls with
    | zero => omega
    | succ calls =>
    have hdeep : maxLevels < c.nested.depth := by
      simp only [Cursor.levels, Cursor.nested] at hc ⊢
      omega
    rw [readUnary]
    refine .refuses (e := c.refusal .shallowNesting) ?_ (bind_error ?_)
    · rw [Cursor.refusal_eq]
      rfl
    · rw [enter, if_pos hdeep]
  | succ levels ih =>
    intro calls c hc hcalls
    have hnested : c.nested.levels = levels := by
      simp only [Cursor.levels, Cursor.nested] at hc ⊢
      omega
    obtain ⟨calls, rfl⟩ : ∃ n, calls = n + 2 := ⟨calls - 2, by omega⟩
    have hroom : 10 * c.nested.left.length + 5 ≤ calls := by
      show 10 * c.left.length + 5 ≤ calls
      omega
    rw [readUnary]
    refine follows_nesting (by rw [Cursor.levels] at hc; omega) ?_
    rw [readSigned]
    refine Follows.congr ?_ plain_parseUnary
    have hx : ExpressionFollowed levels fun stop => climb (parseUnary stop levels) 1 :=
      fun calls c => follows_binary ih calls 1 c
    refine follows_ifNext (by decide) (fun hlen => ?_)
      (follows_primary hx calls c.nested hnested hroom)
    exact (ih calls (c.nested.moved 1) hnested (by rw [Cursor.length_left_moved]; omega)).map

end Climbing

theorem follows_expression (levels : Nat) :
    ExpressionFollowed levels fun stop => parseExpression stop levels :=
  fun calls c => follows_binary (follows_unary levels) calls 1 c

theorem follows_whole (hc : c.levels = maxLevels) :
    Follows (readWhole c.callDepth) wholeInput c := by
  rw [readWhole]
  refine (follows_expression maxLevels c.callDepth c hc (Nat.le_succ _)).bind fun {e n} _ => ?_
  refine .current ?_
  rw [Cursor.next_kind]
  split
  · next hend => exact (Follows.give e).congr (if_pos hend)
  · next hend => exact (Follows.refuse .endOfInput).congr (if_neg hend)

/-- Whole lists of tokens are read alike. -/
theorem readTokens_eq (ts : List Token) : readTokens ts = some (parseTokens ts) := by
  have hfollows := follows_whole (c := ⟨ts, 0, 0⟩) rfl
  rw [parseTokens_eq]
  show (Prod.fst <$> readWhole _ ⟨ts, 0, 0⟩ : ExceptT SyntaxError Option Expr) = _
  cases hfollows with
  | accepts hn hq hm =>
    have hanswer : wholeInput (endOf ts) ts = _ := hq
    rw [hanswer, hm]
    rfl
  | refuses hq hm =>
    have hanswer : wholeInput (endOf ts) ts = _ := hq
    rw [hanswer, hm]
    rfl

end Routine

end NodePath
