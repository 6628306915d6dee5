import NodePath.Proofs.Locality
import NodePath.Proofs.Recognition
import NodePath.Proofs.Tiling

/-!
# A syntax error blames the first impossible token

The tokens before the one that a syntax error blames can be continued to a list that is accepted,
and no list that begins with them and the blamed token is: each is refused at that token, for the
same reason. Only a refusal of the nesting is no such verdict, for it is about the limit and not
about the token.
-/

namespace NodePath

open NodePath.Text NodePath.Number

/-- Where in its list the blamed token stands; the length of the list when the input ended. -/
def SyntaxError.index (e : SyntaxError) (ts : List Token) : Nat := ts.length - e.unread

theorem index_refuse (stop : Int) (expected : Expectation) (us vs : List Token) :
    (refuse stop expected vs).index (us ++ vs) = us.length := by
  rw [SyntaxError.index, List.length_append]
  exact Nat.add_sub_cancel ..

theorem parseTokens_of_sentence {ts : List Token} (h : Sentence (.level 1) maxLevels ts) :
    ∃ e, parseTokens ts = .ok e := by
  obtain ⟨d, e, hd, he⟩ := h
  exact ⟨e, parseTokens_of_denotes he (Nat.le_of_lt_succ hd)⟩

/-- A tree is given again for every list of alike tokens. -/
theorem parseTokens_accepted {ts : List Token} {e : Expr} (h : parseTokens ts = .ok e) :
    ∃ us vs, ts = us ++ vs ∧ ∀ us' vs', AlikeAll us us' → NextAlike vs vs' →
      parseTokens (us' ++ vs') = .ok e := by
  rw [parseTokens_eq] at h
  obtain ⟨⟨e', vs⟩, hok, he⟩ : ∃ a, wholeInput (endOf ts) ts = .ok a ∧ a.1 = e := by
    cases hw : wholeInput (endOf ts) ts with
    | error err =>
      rw [hw] at h
      cases h
    | ok a =>
      rw [hw] at h
      exact ⟨a, rfl, Except.ok.inj h⟩
  obtain ⟨us, hts, -, hagain⟩ := settles_wholeInput.accepts hok
  refine ⟨us, vs, hts, fun us' vs' hus hvs => ?_⟩
  rw [parseTokens_eq, hagain _ us' vs' hus hvs]
  exact congrArg Except.ok he

/-- A refusal splits the list at the token it blames. What stands before can be completed, and the
refusal is made again wherever the tokens look alike up to the blamed one. -/
theorem parseTokens_refused {ts : List Token} {err : SyntaxError}
    (h : parseTokens ts = .error err) :
    ∃ us vs, ts = us ++ vs ∧ err = refuse (endOf ts) err.expected vs ∧
      (err.expected ≠ .shallowNesting → ∃ more e, parseTokens (us ++ more) = .ok e) ∧
      ∀ us' vs', AlikeAll us us' → NextAlike vs vs' →
        parseTokens (us' ++ vs') = .error (refuse (endOf (us' ++ vs')) err.expected vs') := by
  rw [parseTokens_eq] at h
  have herr : wholeInput (endOf ts) ts = .error err := by
    cases hw : wholeInput (endOf ts) ts with
    | error err' =>
      rw [hw] at h
      cases h
      rfl
    | ok a =>
      rw [hw] at h
      cases h
  obtain ⟨us, vs, hts, hblame, hmore, hagain⟩ := settles_wholeInput.refuses herr
  refine ⟨us, vs, hts, hblame, fun hn => ?_, fun us' vs' hus hvs => ?_⟩
  · obtain ⟨more, hsentence⟩ := hmore hn
    exact ⟨more, parseTokens_of_sentence hsentence⟩
  · rw [parseTokens_eq, hagain _ us' vs' hus hvs]
    rfl

/-- Lists that no reader can tell apart are read as the same tree, or refused at the same place for
the same reason. -/
theorem parseTokens_alike {ts us : List Token} (h : AlikeAll ts us) :
    (∃ e, parseTokens ts = .ok e ∧ parseTokens us = .ok e) ∨
    ∃ err err', parseTokens ts = .error err ∧ parseTokens us = .error err' ∧
      err'.expected = err.expected ∧ err'.index us = err.index ts ∧
      err.found = nextToken (endOf ts) (ts.drop (err.index ts)) ∧
      err'.found = nextToken (endOf us) (us.drop (err.index ts)) := by
  cases hts : parseTokens ts with
  | ok e =>
    obtain ⟨vs, ws, rfl, hagain⟩ := parseTokens_accepted hts
    obtain ⟨vs', ws', rfl, hvs, hws⟩ := AlikeAll.append_inv h
    exact .inl ⟨e, rfl, hagain vs' ws' hvs (.of_alikeAll hws)⟩
  | error err =>
    obtain ⟨vs, ws, rfl, hblame, -, hagain⟩ := parseTokens_refused hts
    obtain ⟨vs', ws', rfl, hvs, hws⟩ := AlikeAll.append_inv h
    have hindex : err.index (vs ++ ws) = vs.length := by
      rw [hblame]
      exact index_refuse ..
    refine .inr ⟨err, _, rfl, hagain vs' ws' hvs (.of_alikeAll hws), rfl, ?_, ?_, ?_⟩
    · rw [hindex, index_refuse, hvs.length_eq]
    · rw [hindex, List.drop_left]
      exact congrArg SyntaxError.found hblame
    · rw [hindex, hvs.length_eq, List.drop_left]
      rfl

/-- Labels begin with a capital letter. -/
theorem label_capital (k : Kind) : k.label.head?.any (· < 97) = true := by
  cases k with
  | unknown code => rfl
  | _ => decide

theorem describe_eq_end {t : Token} : t.describe = utf8 "end of input" ↔ t.kind = .eof := by
  refine ⟨fun h => ?_, fun h => if_pos h⟩
  by_contra hk
  obtain ⟨b, hb, hcapital⟩ := (Option.any_eq_true ..).mp (label_capital t.kind)
  obtain ⟨rest, hlabel⟩ := List.head?_eq_some_iff.mp hb
  have hhead : t.describe.head? = some b := by
    rw [Token.describe, if_neg hk, hlabel]
    split <;> rfl
  have hsmall : some b = some 101 := by
    rw [← hhead, h]
    decide
  rw [Option.some.inj hsmall] at hcapital
  cases hcapital

/-- The blamed token is the first that no accepted list can have there. -/
theorem first_impossible_token_blamed {ts : List Token} (hts : ∀ t ∈ ts, t.kind ≠ .eof)
    {err : SyntaxError} (herr : parseTokens ts = .error err) (hn : err.expected ≠ .shallowNesting) :
    (err.found.describe = utf8 "end of input" ↔ err.index ts = ts.length) ∧
    (err.index ts < ts.length → ts[err.index ts]? = some err.found) ∧
    (∃ more e, parseTokens (ts.take (err.index ts) ++ more) = .ok e) ∧
    (err.index ts < ts.length → ∀ more, ∃ err',
      parseTokens (ts.take (err.index ts + 1) ++ more) = .error err' ∧
      err'.offset = err.offset ∧ err'.expected = err.expected ∧ err'.found = err.found ∧
      err'.index (ts.take (err.index ts + 1) ++ more) = err.index ts) := by
  obtain ⟨us, vs, rfl, hblame, hmore, hagain⟩ := parseTokens_refused herr
  have hfound : err.found = nextToken (endOf (us ++ vs)) vs := congrArg SyntaxError.found hblame
  have hk : err.index (us ++ vs) = us.length := by
    rw [hblame]
    exact index_refuse ..
  rw [hk, describe_eq_end, hfound, List.length_append, List.take_left]
  refine ⟨?_, fun hlt => ?_, hmore hn, fun hlt more => ?_⟩
  · cases vs with
    | nil => exact ⟨fun _ => rfl, fun _ => rfl⟩
    | cons t vs =>
      have ht : t.kind ≠ .eof := hts t (by simp)
      exact ⟨fun h => absurd h ht, fun h => by simp at h⟩
  · cases vs with
    | nil => simp at hlt
    | cons t vs => simp [nextToken]
  · cases vs with
    | nil => simp at hlt
    | cons t vs =>
      have htake : (us ++ t :: vs).take (us.length + 1) ++ more = us ++ t :: more := by
        simp [List.take_append, List.take_of_length_le]
      rw [htake]
      refine ⟨_, hagain us (t :: more) (alikeAll_refl us) (.cons (.refl t)), ?_, rfl, rfl, ?_⟩
      · rw [SyntaxError.offset, SyntaxError.offset, hfound]
        rfl
      · exact index_refuse ..

/-- The tokens of `(a]b`. -/
def unclosedGroup : List Token :=
  [⟨.leftParen, utf8 "(", 0, .absent⟩, ⟨.name, utf8 "a", 1, .absent⟩,
    ⟨.rightBracket, utf8 "]", 2, .absent⟩, ⟨.name, utf8 "b", 3, .absent⟩]

theorem first_impossible_token_blamed_unclosedGroup :
    parseTokens unclosedGroup =
        .error ⟨.rightParen, ⟨.rightBracket, utf8 "]", 2, .absent⟩, 2⟩ ∧
      (∃ more e, parseTokens (unclosedGroup.take 2 ++ more) = .ok e) ∧
      ∀ more, ∃ err', parseTokens (unclosedGroup.take 3 ++ more) = .error err' ∧
        err'.offset = 2 ∧ err'.expected = .rightParen := by
  have herr : parseTokens unclosedGroup =
      .error ⟨.rightParen, ⟨.rightBracket, utf8 "]", 2, .absent⟩, 2⟩ :=
    eq_error_of_match (by decide +kernel)
  obtain ⟨-, -, hmore, hagain⟩ := first_impossible_token_blamed (by decide) herr (by decide)
  refine ⟨herr, hmore, fun more => ?_⟩
  obtain ⟨err', herr', hoffset, hexpected, -⟩ := hagain (by decide) more
  exact ⟨err', herr', hoffset, hexpected⟩

end NodePath
