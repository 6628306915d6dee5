import NodePath.Corpus.Basic
import NodePath.Proofs.RoundTrip

/-!
# The verdict on a corpus entry

An entry whose selector is refused, or is read as a tree whose canonical text is not nested too
deeply, passes exactly when it is judged as expected. An entry whose selector is read as any other
tree never passes: its canonical text is refused for a nesting that the selector need not have,
since a chain of operators nests only once it is written in its canonical form.
-/

namespace NodePath

open NodePath.Text NodePath.Number

mutual

theorem Expr.same_iff (e e' : Expr) : e.same e' = true ↔ e = e' := by
  cases e with
  | missing | literal | number | boolean | reference | root | rootName =>
    cases e' <;> simp [Expr.same]
  | path steps | absolute steps | everywhere steps =>
    cases e' <;> simp [Expr.same, samePath_iff steps]
  | call f args => cases e' <;> simp [Expr.same, sameExprs_iff args]
  | negate a => cases e' <;> simp [Expr.same, a.same_iff]
  | binary op c l r => cases e' <;> simp [Expr.same, l.same_iff, r.same_iff, and_assoc]
  | filter a ps => cases e' <;> simp [Expr.same, a.same_iff, sameExprs_iff ps]
  | continued a separator steps =>
    cases e' <;> simp [Expr.same, a.same_iff, samePath_iff steps, and_assoc]

theorem sameExprs_iff (es es' : List Expr) : sameExprs es es' = true ↔ es = es' := by
  cases es with
  | nil => cases es' <;> simp [sameExprs]
  | cons e rest => cases es' <;> simp [sameExprs, e.same_iff, sameExprs_iff rest]

theorem samePath_iff (p p' : List (Separator × Step)) : samePath p p' = true ↔ p = p' := by
  match p, p' with
  | [], [] | [], _ :: _ | (_, _) :: _, [] => simp [samePath]
  | (_, step) :: rest, (_, _) :: _ => simp [samePath, step.same_iff, samePath_iff rest]

theorem Step.same_iff (s s' : Step) : s.same s' = true ↔ s = s' := by
  match s, s' with
  | .mk _ _ ps, .mk _ _ _ => simp [Step.same, sameExprs_iff ps, and_assoc]

end

section Chain

/-- One name again and again, joined by one operator. -/
def chain (op : Operator) (c : Comparison) (name : Bytes) : Nat → Expr
  | 0 => namePath name
  | n + 1 => .binary op c (chain op c name n) (namePath name)

/-- A chain as it is written without parentheses. -/
def flatText (op : Operator) (c : Comparison) (name : Bytes) : Nat → Bytes
  | 0 => name
  | n + 1 => flatText op c name n ++ utf8 " " ++ op.written c ++ utf8 " " ++ name

variable {op : Operator} {c : Comparison} {name : Bytes}

theorem scans_namePath (hname : IsName name) {n : Nat} (hn : n ≤ 10) :
    Scans Stops name fun ts => Derives (.level n) 0 ts (namePath name) := by
  refine ((scans_name hname).before fun _ => .stop).imp ?_
  rintro ts ⟨o, rfl⟩
  exact (derives_namePath (t := ⟨.name, name, o, .absent⟩) rfl).loosen hn

/-- Operators are joined from the left, so a chain needs no groups. -/
theorem scans_flatText (h : op.Takes c) (hname : IsName name) (n : Nat) :
    Scans Stops (flatText op c name n) fun ts => Derives (.level 1) 0 ts (chain op c name n) := by
  obtain ⟨level, k, ⟨hlow, hhigh⟩, hlevel, hop⟩ := scans_operator h
  have hchain : Scans Stops (flatText op c name n) fun ts =>
      Derives (.level level) 0 ts (chain op c name n) := by
    induction n with
    | zero => exact scans_namePath hname (by omega)
    | succ n ih => exact scans_binary h hlevel hop ih (scans_namePath hname (by omega))
  exact hchain.imp fun _ hts => hts.loosen hlow

/-- In the canonical text every operand of a chain but the innermost ones is a group. -/
theorem chain_nesting (n : Nat) : (chain op c name (n + 1)).nesting = n := by
  induction n with
  | zero => rfl
  | succ n ih =>
    rw [chain, Expr.nesting, ih, chain]
    show max (n + 1) 0 = n + 1
    rw [Nat.max_zero]

theorem parse_flatText (h : op.Takes c) (hname : IsName name) (n : Nat) :
    parse (flatText op c name n) = .ok (chain op c name n) := by
  obtain ⟨tokens, htokens, hden⟩ := (scans_flatText h hname n).tokenize .done
  exact parse_of_denotes htokens hden (Nat.zero_le 255)

end Chain

namespace Corpus

/-- A canonical text stands for its tree exactly when it is read as that tree. -/
theorem roundTrip_none_iff (e : Expr) (canonical : Bytes) :
    roundTrip e canonical = none ↔ parse canonical = .ok e := by
  unfold roundTrip
  cases parse canonical with
  | error cause => simp
  | ok again => simpa [Expr.same_iff] using eq_comm

section Check

variable {entry : Entry} {e : Expr}

theorem check_refused {cause : ParseError} (h : parse entry.selector = .error cause) :
    entry.check =
      ⟨entry.name, entry.selector, entry.valid, false, !entry.valid, [], cause.message⟩ := by
  rw [Entry.check, h]

theorem check_shallow (h : parse entry.selector = .ok e) (hn : e.nesting ≤ 255) :
    ∃ canonical, e.text? = some canonical ∧ parse canonical = .ok e ∧
      entry.check =
        ⟨entry.name, entry.selector, entry.valid, true, entry.valid, canonical, []⟩ := by
  obtain ⟨canonical, tokens, htext, htokens, hden⟩ := text_denotes (wellFormed_of_parse h)
  have hread := parse_of_denotes htokens hden hn
  refine ⟨canonical, htext, hread, ?_⟩
  rw [Entry.check, h]
  dsimp only
  rw [htext, Option.getD_some, (roundTrip_none_iff e canonical).mpr hread]

theorem check_deep (h : parse entry.selector = .ok e) (hn : 255 < e.nesting) :
    ∃ canonical err, e.text? = some canonical ∧
      parse canonical = .error (.grammatical err) ∧ err.expected = .shallowNesting ∧
      entry.check = ⟨entry.name, entry.selector, entry.valid, true, false, canonical,
        (RoundTripFault.unreadable (.grammatical err)).message⟩ := by
  obtain ⟨canonical, tokens, htext, htokens, hden⟩ := text_denotes (wellFormed_of_parse h)
  obtain ⟨err, herr, hexp⟩ := parse_of_denotes_deep htokens hden hn
  refine ⟨canonical, err, htext, herr, hexp, ?_⟩
  rw [Entry.check, h]
  dsimp only
  rw [htext, Option.getD_some, roundTrip, herr]

end Check

/-- An entry passes exactly when it is judged as expected and, if its selector is read at all, the
canonical text of the tree is nested at most as deeply as the reader goes. Where the text is nested
more deeply, that is the only thing wrong with it. -/
theorem check_verdict (entry : Entry) :
    entry.check.expected = entry.valid ∧
    (entry.check.valid = true ↔ ∃ e, parse entry.selector = .ok e) ∧
    (entry.check.passed = true ↔ entry.check.expected = entry.check.valid ∧
      ∀ e, parse entry.selector = .ok e → e.nesting ≤ 255) ∧
    ∀ e, parse entry.selector = .ok e → ∃ canonical, e.text? = some canonical ∧
      (e.nesting ≤ 255 → parse canonical = .ok e ∧ entry.check.error = []) ∧
      (255 < e.nesting → ∃ err, parse canonical = .error (.grammatical err) ∧
        err.expected = .shallowNesting ∧
        entry.check.error = (RoundTripFault.unreadable (.grammatical err)).message) := by
  cases h : parse entry.selector with
  | error cause =>
    rw [check_refused h]
    simp
  | ok e =>
    rcases Nat.lt_or_ge 255 e.nesting with hn | hn
    · obtain ⟨canonical, err, htext, herr, hexp, hcheck⟩ := check_deep h hn
      rw [hcheck]
      refine ⟨rfl, by simp, ?_, ?_⟩
      · simpa using fun _ => hn
      · rintro _ ⟨⟩
        exact ⟨canonical, htext, fun hle => absurd hn (Nat.not_lt.mpr hle),
          fun _ => ⟨err, herr, hexp, rfl⟩⟩
    · obtain ⟨canonical, htext, hread, hcheck⟩ := check_shallow h hn
      rw [hcheck]
      refine ⟨rfl, by simp, by simpa using fun _ => hn, ?_⟩
      rintro _ ⟨⟩
      exact ⟨canonical, htext, fun _ => ⟨hread, rfl⟩, fun hlt => absurd hlt (Nat.not_lt.mpr hn)⟩

theorem isName_a : IsName (utf8 "a") := ⟨isWord_utf8 (by decide), by decide⟩

theorem check_verdict_unions :
    (Entry.check ⟨[], flatText .union .absent (utf8 "a") 256, true⟩).passed = true ∧
      (Entry.check ⟨[], flatText .union .absent (utf8 "a") 257, true⟩).passed = false := by
  have hparse : ∀ n, parse (flatText .union .absent (utf8 "a") n) =
      .ok (chain .union .absent (utf8 "a") n) := parse_flatText ⟨by decide, by decide⟩ isName_a
  constructor
  · obtain ⟨hexpected, hvalid, hpassed, -⟩ :=
      check_verdict ⟨[], flatText .union .absent (utf8 "a") 256, true⟩
    refine hpassed.mpr ⟨?_, fun e he => ?_⟩
    · rw [hexpected, hvalid.mpr ⟨_, hparse 256⟩]
    · rw [hparse 256] at he
      cases he
      rw [chain_nesting]
  · rw [← Bool.not_eq_true, (check_verdict _).2.2.1]
    rintro ⟨-, hall⟩
    have hle := hall _ (hparse 257)
    rw [chain_nesting] at hle
    exact absurd hle (by decide)

/-- A chain of more than 256 operators is read, and then failed since its canonical text is not. -/
theorem check_flatText {op : Operator} {c : Comparison} (h : op.Takes c) {name : Bytes}
    (hname : IsName name) {n : Nat} (hn : 256 < n) (label : Bytes) (valid : Bool) :
    ∃ canonical err, err.expected = .shallowNesting ∧
      Entry.check ⟨label, flatText op c name n, valid⟩ =
        ⟨label, flatText op c name n, valid, true, false, canonical,
          (RoundTripFault.unreadable (.grammatical err)).message⟩ := by
  obtain ⟨m, rfl⟩ : ∃ m, n = m + 1 := ⟨n - 1, by omega⟩
  have hdeep : 255 < (chain op c name (m + 1)).nesting := by
    rw [chain_nesting]
    omega
  have hread : parse (Entry.mk label (flatText op c name (m + 1)) valid).selector =
      .ok (chain op c name (m + 1)) := parse_flatText h hname (m + 1)
  obtain ⟨canonical, err, -, -, hexp, hcheck⟩ := check_deep hread hdeep
  exact ⟨canonical, err, hexp, hcheck⟩

theorem check_flatText_unions :
    (∃ e, parse (flatText .union .absent (utf8 "a") 257) = .ok e) ∧
      (Entry.check ⟨[], flatText .union .absent (utf8 "a") 257, true⟩).expected = true ∧
      (Entry.check ⟨[], flatText .union .absent (utf8 "a") 257, true⟩).valid = true ∧
      (Entry.check ⟨[], flatText .union .absent (utf8 "a") 257, true⟩).passed = false := by
  have htakes : Operator.Takes .union .absent := ⟨by decide, by decide⟩
  obtain ⟨canonical, err, -, hcheck⟩ :=
    check_flatText htakes isName_a (n := 257) (by decide) [] true
  rw [hcheck]
  exact ⟨⟨_, parse_flatText htakes isName_a 257⟩, rfl, rfl, rfl⟩

end Corpus

end NodePath
