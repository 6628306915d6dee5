import Mathlib.Data.List.Forall2
import NodePath.Proofs.GrammarComplete

/-!
# What a reading looks at

A reading decides by the tokens it takes and by the next one, never by what comes later. So its
answer is the same on every list that begins with tokens it cannot tell from those, as far as the
token it stops at. Where it refuses a token, the tokens before that one begin a sentence of its
language, unless the refusal is for nesting. Both facts are one property, `Settles`, and the parts
that readers are put together from have it: to give a value, to refuse, to demand a kind, to branch
on the next kind, and to read one thing after another.
-/

namespace NodePath

open NodePath.Text NodePath.Number

/-- The kinds of which the lexeme matters. -/
def Kind.keepsLexeme : Kind → Bool
  | .stringLiteral | .integer | .float | .name | .functionName | .nodeType | .axisName => true
  | _ => false

/-- Two tokens that no reader can tell apart. -/
structure Token.Alike (t u : Token) : Prop where
  kind : t.kind = u.kind
  lexeme : t.kind.keepsLexeme = true → t.lexeme = u.lexeme
  comparison : (binaryOperator? t.kind).isSome = true → t.comparison = u.comparison

instance (t u : Token) : Decidable (t.Alike u) :=
  decidable_of_iff (t.kind = u.kind ∧ (t.kind.keepsLexeme = true → t.lexeme = u.lexeme) ∧
      ((binaryOperator? t.kind).isSome = true → t.comparison = u.comparison))
    ⟨fun ⟨hkind, hlexeme, hcomparison⟩ => ⟨hkind, hlexeme, hcomparison⟩,
      fun h => ⟨h.kind, h.lexeme, h.comparison⟩⟩

theorem Token.Alike.refl (t : Token) : t.Alike t := ⟨rfl, fun _ => rfl, fun _ => rfl⟩

/-- Alike tokens share a lexeme that matters. -/
theorem lexeme_shared {kind : Kind} (hkeep : kind.keepsLexeme = true) {t u : Token}
    (hk : t.kind = kind) (h : t.Alike u) : t.lexeme = u.lexeme :=
  h.lexeme (hk ▸ hkeep)

/-- Two lists of tokens that no reader can tell apart. -/
abbrev AlikeAll : List Token → List Token → Prop := List.Forall₂ Token.Alike

/-- Two lists that begin alike; a list that is over begins like one that says so. -/
structure NextAlike (ts us : List Token) : Prop where
  kind : nextKind ts = nextKind us
  token : ∀ t ∈ ts.head?, ∀ u ∈ us.head?, t.Alike u

/-- Some token of a kind. -/
def Kind.token (kind : Kind) : Token := ⟨kind, [], 0, .absent⟩

section Alike

variable {t u : Token} {ts us vs ws : List Token}

theorem alikeAll_refl (ts : List Token) : AlikeAll ts ts :=
  List.forall₂_same.mpr fun t _ => .refl t

theorem AlikeAll.append_inv (h : AlikeAll (ts ++ us) ws) :
    ∃ ts' us', ws = ts' ++ us' ∧ AlikeAll ts ts' ∧ AlikeAll us us' := by
  induction ts generalizing ws with
  | nil => exact ⟨[], ws, rfl, .nil, h⟩
  | cons t ts ih =>
    obtain ⟨t', ws', ht, hws, rfl⟩ := List.forall₂_cons_left_iff.mp h
    obtain ⟨ts', us', rfl, hts, hus⟩ := ih hws
    exact ⟨t' :: ts', us', rfl, .cons ht hts, hus⟩

theorem NextAlike.refl (ts : List Token) : NextAlike ts ts := by
  refine ⟨rfl, fun t ht u hu => ?_⟩
  obtain rfl := Option.mem_unique ht hu
  exact .refl t

theorem NextAlike.cons (h : t.Alike u) : NextAlike (t :: ts) (u :: us) := by
  refine ⟨h.kind, fun t' ht u' hu => ?_⟩
  obtain rfl := Option.some.inj ht
  obtain rfl := Option.some.inj hu
  exact h

theorem NextAlike.append (h : AlikeAll ts us) (h' : NextAlike vs ws) :
    NextAlike (ts ++ vs) (us ++ ws) := by
  cases h with
  | nil => exact h'
  | cons ht _ => exact .cons ht

theorem NextAlike.of_alikeAll (h : AlikeAll ts us) : NextAlike ts us := by
  cases h with
  | nil => exact .refl []
  | cons ht _ => exact .cons ht

/-- What begins like a token that does not end the input begins with a token. -/
theorem NextAlike.exists_cons (h : NextAlike (t :: ts) us) (ht : t.kind ≠ .eof) :
    ∃ u us', us = u :: us' ∧ t.Alike u := by
  cases us with
  | nil => exact absurd h.kind ht
  | cons u us' => exact ⟨u, us', rfl, h.token t rfl u rfl⟩

end Alike

/-- A reader without the fact that what it leaves is shorter. -/
abbrev Reading (α : Type) := Int → List Token → Except SyntaxError (α × List Token)

/-- An answer without the fact that what is left is shorter. -/
def plain {α : Type} {P : List Token → Prop}
    (answer : Except SyntaxError (α × { rest : List Token // P rest })) :
    Except SyntaxError (α × List Token) :=
  answer.map fun a => (a.1, a.2.1)

theorem plain_eq_ok {α : Type} {P : List Token → Prop}
    {answer : Except SyntaxError (α × { rest : List Token // P rest })} {v : α}
    {rest : List Token} (h : plain answer = .ok (v, rest)) :
    ∃ hr, answer = .ok (v, ⟨rest, hr⟩) := by
  cases answer with
  | error e => cases h
  | ok a =>
    cases h
    exact ⟨a.2.2, rfl⟩

namespace Reading

variable {α β : Type}

/-- Takes nothing and gives a value. -/
def give (v : α) : Reading α := fun _ ts => .ok (v, ts)

/-- Refuses the next token. -/
def fail (expected : Expectation) : Reading α := fun stop ts => .error (refuse stop expected ts)

/-- Takes the next token, which must be of a kind, for some value. -/
def need (kind : Kind) (expected : Expectation) (value : Token → α) : Reading α
  | stop, [] => .error (refuse stop expected [])
  | stop, t :: rest =>
    if t.kind = kind then .ok (value t, rest) else .error (refuse stop expected (t :: rest))

/-- Takes the next token if it is of a kind, and goes on either way. -/
def ifNext (kind : Kind) (yes no : Reading α) : Reading α := fun stop ts =>
  match accept kind ts with
  | some ⟨rest, _⟩ => yes stop rest
  | none => no stop ts

/-- Takes the next token if it is a separator, and goes on either way. -/
def ifSeparator (yes : Separator → Reading α) (no : Reading α) : Reading α := fun stop ts =>
  match acceptSeparator ts with
  | some (separator, ⟨rest, _⟩) => yes separator stop rest
  | none => no stop ts

/-- Reads on with what was left. -/
def andThen (q : Reading α) (k : α → Reading β) : Reading β :=
  fun stop ts => q stop ts >>= fun a => k a.1 stop a.2

/-- Reads a value and builds another one from it. -/
def map (f : α → β) (q : Reading α) : Reading β := q.andThen fun v => give (f v)

theorem andThen_give (q : Reading α) : q.andThen give = q := by
  funext stop ts
  rw [andThen]
  cases q stop ts <;> rfl

end Reading

open Reading

/-! Readers in terms of these parts. -/

section Plain

variable {α β : Type} {P Q : List Token → Prop} {stop : Int} {ts : List Token}

theorem plain_bind {answer : Except SyntaxError (α × { rest : List Token // P rest })}
    {f : α × { rest : List Token // P rest } →
      Except SyntaxError (β × { rest : List Token // Q rest })}
    {q : Reading α} {k : α → Reading β} (hq : plain answer = q stop ts)
    (h : ∀ v rest hr, plain (f (v, ⟨rest, hr⟩)) = k v stop rest) :
    plain (answer >>= f) = (q.andThen k) stop ts := by
  rw [Reading.andThen, ← hq]
  cases answer with
  | error e => rfl
  | ok a => exact h a.1 a.2.1 a.2.2

/-- Only the fact about what is left changes. -/
theorem plain_pass {answer : Except SyntaxError (α × { rest : List Token // P rest })}
    {f : α × { rest : List Token // P rest } →
      Except SyntaxError (α × { rest : List Token // Q rest })}
    (h : ∀ v rest hr, plain (f (v, ⟨rest, hr⟩)) = .ok (v, rest)) :
    plain (answer >>= f) = plain answer := by
  cases answer with
  | error e => rfl
  | ok a => exact h a.1 a.2.1 a.2.2

theorem plain_expect_bind {kind : Kind} {expected : Expectation}
    {f : Token × Shorter ts → Except SyntaxError (β × { rest : List Token // Q rest })}
    {value : Token → α} {k : α → Reading β}
    (h : ∀ t rest hr, plain (f (t, ⟨rest, hr⟩)) = k (value t) stop rest) :
    plain (expect stop kind expected ts >>= f) =
      ((need kind expected value).andThen k) stop ts := by
  cases ts with
  | nil => rfl
  | cons t rest =>
    by_cases ht : t.kind = kind
    · rw [expect_cons ht, Reading.andThen, need, if_pos ht]
      exact h t rest _
    · rw [expect, if_neg ht, Reading.andThen, need, if_neg ht]
      rfl

theorem plain_expect {kind : Kind} {expected : Expectation}
    {f : Token × Shorter ts → Except SyntaxError (β × { rest : List Token // Q rest })}
    {value : Token → β} (h : ∀ t rest hr, plain (f (t, ⟨rest, hr⟩)) = .ok (value t, rest)) :
    plain (expect stop kind expected ts >>= f) = need kind expected value stop ts := by
  rw [← andThen_give (need kind expected value)]
  exact plain_expect_bind h

end Plain

/-- What is known of a reading at a list. An accepted beginning is a sentence of the `language`,
and so is some continuation of what stands before a refused token, unless the nesting was refused.
Either answer is given again wherever the tokens taken and the next one look alike. -/
structure Settles {α : Type} (q : Reading α) (language : List Token → Prop) (stop : Int)
    (ts : List Token) : Prop where
  accepts : ∀ {v rest}, q stop ts = .ok (v, rest) → ∃ us, ts = us ++ rest ∧ language us ∧
    ∀ stop' us' rest', AlikeAll us us' → NextAlike rest rest' →
      q stop' (us' ++ rest') = .ok (v, rest')
  refuses : ∀ {e}, q stop ts = .error e → ∃ us vs, ts = us ++ vs ∧ e = refuse stop e.expected vs ∧
    (e.expected ≠ .shallowNesting → ∃ more, language (us ++ more)) ∧
    ∀ stop' us' vs', AlikeAll us us' → NextAlike vs vs' →
      q stop' (us' ++ vs') = .error (refuse stop' e.expected vs')

section Settles

variable {α β : Type} {q q' : Reading α} {L A : List Token → Prop} {stop : Int} {ts : List Token}

theorem settles_give {v : α} (h : L []) : Settles (give v) L stop ts where
  accepts hok := by
    cases hok
    refine ⟨[], rfl, h, fun stop' us' rest' hus _ => ?_⟩
    cases hus
    rfl
  refuses he := by cases he

theorem settles_fail (expected : Expectation) (h : expected ≠ .shallowNesting → ∃ us, L us) :
    Settles (fail expected : Reading α) L stop ts where
  accepts hok := by cases hok
  refuses he := by
    cases he
    refine ⟨[], ts, rfl, rfl, h, fun stop' us' vs' hus _ => ?_⟩
    cases hus
    rfl

theorem Settles.mono (h : Settles q A stop ts) (hAL : ∀ us, A us → L us) : Settles q L stop ts where
  accepts hok := by
    obtain ⟨us, hts, hus, hagain⟩ := h.accepts hok
    exact ⟨us, hts, hAL us hus, hagain⟩
  refuses he := by
    obtain ⟨us, vs, hts, hblame, hmore, hagain⟩ := h.refuses he
    refine ⟨us, vs, hts, hblame, fun hn => ?_, hagain⟩
    obtain ⟨more, hmore⟩ := hmore hn
    exact ⟨more, hAL _ hmore⟩

/-- Two readings that agree on lists which begin alike are settled alike. -/
theorem Settles.congr (h : Settles q L stop ts)
    (heq : ∀ stop' ts', NextAlike ts ts' → q' stop' ts' = q stop' ts') :
    Settles q' L stop ts where
  accepts hok := by
    rw [heq stop ts (.refl ts)] at hok
    obtain ⟨us, rfl, hus, hagain⟩ := h.accepts hok
    refine ⟨us, rfl, hus, fun stop' us' rest' halike hnext => ?_⟩
    rw [heq _ _ (.append halike hnext)]
    exact hagain stop' us' rest' halike hnext
  refuses he := by
    rw [heq stop ts (.refl ts)] at he
    obtain ⟨us, vs, rfl, hblame, hmore, hagain⟩ := h.refuses he
    refine ⟨us, vs, rfl, hblame, hmore, fun stop' us' vs' halike hnext => ?_⟩
    rw [heq _ _ (.append halike hnext)]
    exact hagain stop' us' vs' halike hnext

/-- A reading that takes a token and goes on as another one. The language left to that one is what
completes the token. -/
theorem Settles.token {t : Token} (h : Settles q (fun us => L (t :: us)) stop ts)
    (heq : ∀ stop' t' ts', t.Alike t' → NextAlike ts ts' → q' stop' (t' :: ts') = q stop' ts') :
    Settles q' L stop (t :: ts) where
  accepts hok := by
    rw [heq stop t ts (.refl t) (.refl ts)] at hok
    obtain ⟨us, rfl, hus, hagain⟩ := h.accepts hok
    refine ⟨t :: us, rfl, hus, fun stop' us' rest' halike hnext => ?_⟩
    obtain ⟨t', us'', ht, hus', rfl⟩ := List.forall₂_cons_left_iff.mp halike
    rw [List.cons_append, heq _ _ _ ht (.append hus' hnext)]
    exact hagain stop' us'' rest' hus' hnext
  refuses he := by
    rw [heq stop t ts (.refl t) (.refl ts)] at he
    obtain ⟨us, vs, rfl, hblame, hmore, hagain⟩ := h.refuses he
    refine ⟨t :: us, vs, rfl, hblame, hmore, fun stop' us' vs' halike hnext => ?_⟩
    obtain ⟨t', us'', ht, hus', rfl⟩ := List.forall₂_cons_left_iff.mp halike
    rw [List.cons_append, heq _ _ _ ht (.append hus' hnext)]
    exact hagain stop' us'' vs' hus' hnext

/-- One token of which only the kind matters. -/
theorem settles_one {t : Token} (v : α) (hL : L [t])
    (heq : ∀ stop ts (u : Token), u.kind = t.kind → q stop (u :: ts) = .ok (v, ts)) :
    Settles q L stop (t :: ts) :=
  (settles_give hL).token fun stop' u ts' halike _ => heq stop' ts' u halike.kind.symm

/-- One reading after another. What the first one was stopped in can be completed because each of
its sentences can. -/
theorem Settles.andThen {k : α → Reading β} (h : Settles q A stop ts)
    (hmore : ∀ us, A us → ∃ more, L (us ++ more))
    (hk : ∀ {v us rest}, q stop ts = .ok (v, rest) → A us →
      Settles (k v) (fun vs => L (us ++ vs)) stop rest) :
    Settles (q.andThen k) L stop ts where
  accepts hok := by
    obtain ⟨⟨v, rest⟩, hq, hrest⟩ := bind_ok hok
    obtain ⟨us, rfl, hus, hagain⟩ := h.accepts hq
    obtain ⟨vs, rfl, hvs, hagain'⟩ := (hk hq hus).accepts hrest
    refine ⟨us ++ vs, (List.append_assoc ..).symm, hvs, ?_⟩
    intro stop' ws' rest' halike hnext
    obtain ⟨us', vs', rfl, hus', hvs'⟩ := AlikeAll.append_inv halike
    rw [List.append_assoc, Reading.andThen, hagain stop' us' _ hus' (.append hvs' hnext)]
    exact hagain' stop' vs' rest' hvs' hnext
  refuses he := by
    rw [Reading.andThen] at he
    cases hq : q stop ts with
    | error e' =>
      rw [hq] at he
      cases he
      obtain ⟨us, vs, rfl, hblame, hbegun, hagain⟩ := h.refuses hq
      refine ⟨us, vs, rfl, hblame, fun hn => ?_, fun stop' us' vs' halike hnext => ?_⟩
      · obtain ⟨more, hsentence⟩ := hbegun hn
        obtain ⟨more', hmore'⟩ := hmore _ hsentence
        exact ⟨more ++ more', List.append_assoc .. ▸ hmore'⟩
      · rw [Reading.andThen, hagain stop' us' vs' halike hnext]
        rfl
    | ok a =>
      obtain ⟨v, rest⟩ := a
      rw [hq] at he
      obtain ⟨us, rfl, hus, hagain⟩ := h.accepts hq
      obtain ⟨vs, ws, rfl, hblame, hbegun, hagain'⟩ := (hk hq hus).refuses he
      refine ⟨us ++ vs, ws, (List.append_assoc ..).symm, hblame, fun hn => ?_, ?_⟩
      · obtain ⟨more, hsentence⟩ := hbegun hn
        exact ⟨more, (List.append_assoc us vs more).symm ▸ hsentence⟩
      · intro stop' ys' ws' halike hnext
        obtain ⟨us', vs', rfl, hus', hvs'⟩ := AlikeAll.append_inv halike
        rw [List.append_assoc, Reading.andThen, hagain stop' us' _ hus' (.append hvs' hnext)]
        exact hagain' stop' vs' ws' hvs' hnext

theorem Settles.map {f : α → β} (h : Settles q L stop ts) : Settles (q.map f) L stop ts := by
  have hnil : ∀ us, L us → L (us ++ []) := fun us hus => (List.append_nil us).symm ▸ hus
  exact h.andThen (fun us hus => ⟨[], hnil us hus⟩) fun _ hus => settles_give (hnil _ hus)

/-- One token that is taken for its value, or refused for having none. -/
theorem settles_valued {t : Token} {rest : List Token} (expected : Expectation)
    (value? : Bytes → Option α) (ht : t.kind.keepsLexeme = true)
    (heq : ∀ stop ts (u : Token), u.kind = t.kind → q stop (u :: ts) =
      match value? u.lexeme with
      | none => .error (refuse stop expected (u :: ts))
      | some v => .ok (v, ts))
    (hL : ∀ v, value? t.lexeme = some v → L [t]) (hsome : ∃ us, L us) :
    Settles q L stop (t :: rest) := by
  cases hv : value? t.lexeme with
  | some v =>
    refine (settles_give (v := v) (hL v hv)).token fun stop' t' ts' halike _ => ?_
    rw [heq _ _ _ halike.kind.symm, ← halike.lexeme ht, hv]
    rfl
  | none =>
    refine (settles_fail expected fun _ => hsome).congr fun stop' ts' h => ?_
    have hend : t.kind ≠ .eof := by
      intro hk
      rw [hk] at ht
      cases ht
    obtain ⟨t', ts', rfl, halike⟩ := h.exists_cons hend
    rw [heq _ _ _ halike.kind.symm, ← halike.lexeme ht, hv]
    rfl

theorem need_eq_fail {kind : Kind} {expected : Expectation} {value : Token → α}
    (h : nextKind ts ≠ kind) : need kind expected value stop ts = fail expected stop ts := by
  cases ts with
  | nil => rfl
  | cons t rest => exact if_neg h

theorem eq_cons_of_nextKind {kind : Kind} (h : nextKind ts = kind) (hkind : kind ≠ .eof) :
    ∃ t rest, ts = t :: rest ∧ t.kind = kind := by
  cases ts with
  | nil => exact absurd h.symm hkind
  | cons t rest => exact ⟨t, rest, rfl, h⟩

/-- A demanded token and what follows it. -/
theorem settles_need_andThen {kind : Kind} {expected : Expectation} {value : Token → α}
    {k : α → Reading β} {L : List Token → Prop} (hkind : kind ≠ .eof)
    (hvalue : ∀ t u : Token, t.kind = kind → t.Alike u → value t = value u)
    (hmore : ∀ t : Token, t.kind = kind → ∃ more, L (t :: more))
    (hk : ∀ {t rest}, ts = t :: rest → t.kind = kind →
      Settles (k (value t)) (fun us => L (t :: us)) stop rest) :
    Settles ((need kind expected value).andThen k) L stop ts := by
  by_cases hnext : nextKind ts = kind
  · obtain ⟨t, rest, rfl, ht⟩ := eq_cons_of_nextKind hnext hkind
    refine (hk rfl ht).token fun stop' t' ts' halike _ => ?_
    rw [Reading.andThen, need, if_pos (halike.kind.symm.trans ht), hvalue t t' ht halike]
    rfl
  · have hsome : ∃ us, L us := by
      obtain ⟨more, hmore⟩ := hmore kind.token rfl
      exact ⟨_, hmore⟩
    refine (settles_fail expected fun _ => hsome).congr fun stop' ts' h => ?_
    rw [Reading.andThen, need_eq_fail (h.kind ▸ hnext)]
    rfl

theorem settles_need {kind : Kind} {expected : Expectation} {value : Token → α}
    (hkind : kind ≠ .eof) (hvalue : ∀ t u : Token, t.kind = kind → t.Alike u → value t = value u)
    (hL : ∀ t : Token, t.kind = kind → L [t]) : Settles (need kind expected value) L stop ts := by
  rw [← andThen_give (need kind expected value)]
  refine settles_need_andThen hkind hvalue (fun t ht => ⟨[], hL t ht⟩) fun _ ht => ?_
  exact settles_give (hL _ ht)

theorem settles_ifNext {kind : Kind} {yes no : Reading α} (hkind : kind ≠ .eof)
    (hyes : ∀ {t rest}, ts = t :: rest → t.kind = kind →
      Settles yes (fun us => L (t :: us)) stop rest)
    (hno : Settles no L stop ts) : Settles (ifNext kind yes no) L stop ts := by
  by_cases hnext : nextKind ts = kind
  · obtain ⟨t, rest, rfl, ht⟩ := eq_cons_of_nextKind hnext hkind
    refine (hyes rfl ht).token fun stop' t' ts' halike _ => ?_
    rw [ifNext, accept_cons (halike.kind.symm.trans ht)]
  · refine hno.congr fun stop' ts' h => ?_
    rw [ifNext, accept_eq_none (h.kind ▸ hnext)]

theorem settles_ifSeparator {yes : Separator → Reading α} {no : Reading α}
    (hyes : ∀ {t rest separator}, ts = t :: rest → separatorOf t.kind = some separator →
      Settles (yes separator) (fun us => L (t :: us)) stop rest)
    (hno : Settles no L stop ts) : Settles (ifSeparator yes no) L stop ts := by
  cases hnext : separatorOf (nextKind ts) with
  | none =>
    refine hno.congr fun stop' ts' h => ?_
    rw [ifSeparator, acceptSeparator_none (h.kind ▸ hnext)]
  | some separator =>
    cases ts with
    | nil => cases hnext
    | cons t rest =>
      have ht : separatorOf t.kind = some separator := hnext
      refine (hyes rfl ht).token fun stop' t' ts' halike _ => ?_
      rw [ifSeparator, acceptSeparator_cons (halike.kind ▸ ht)]

end Settles

end NodePath
