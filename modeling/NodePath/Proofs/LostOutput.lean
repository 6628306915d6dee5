import NodePath.Run.Basic

/-!
# Lost output is never a success

A selector has texts to write and, after them, perhaps a problem; what becomes of it depends on the
sink alone. A run is compared with the same run onto a sink that fails after some writes. As long as
nothing is lost the two runs are the same. Once a write is lost the run fails, and its output is
what the whole run wrote first. This holds although a separator may get lost unnoticed: every
selector writes something after its separator or ends the run with a problem of its own. Nothing is
asked of the libraries.
-/

namespace NodePath

open NodePath.Text

namespace Sink

/-- Writes texts one after the other, up to the first complaint. -/
def writeAll (s : Sink) : List Bytes → Sink × Option Bytes
  | [] => (s, none)
  | text :: rest =>
    match s.write text with
    | .error complaint => (s, some complaint)
    | .ok s => s.writeAll rest

/-- A sink that has kept all the writes it was offered. -/
def whole (writes : List Bytes) : Sink := ⟨.keep, writes⟩

/-- A sink that has kept the first `n` of the writes it was offered and complained of the others. -/
def cut (n : Nat) (complaint : Bytes) (writes : List Bytes) : Sink :=
  ⟨.limited n complaint, writes.take n⟩

variable {n : Nat} {complaint : Bytes} {writes more : List Bytes}

theorem writeAll_whole (texts : List Bytes) :
    (whole writes).writeAll texts = (whole (writes ++ texts), none) := by
  induction texts generalizing writes with
  | nil => rw [List.append_nil]; rfl
  | cons text rest ih =>
    show (whole (writes ++ [text])).writeAll rest = _
    rw [ih, List.append_assoc, List.singleton_append]

theorem cut_append (h : n ≤ writes.length) :
    cut n complaint (writes ++ more) = cut n complaint writes := by
  rw [cut, cut, List.take_append_of_le_length h]

theorem write_cut (text : Bytes) : (cut n complaint writes).write text =
    if writes.length < n then .ok (cut n complaint (writes ++ [text])) else .error complaint := by
  have hroom : (writes.take n).length < n ↔ writes.length < n := by
    rw [List.length_take]
    omega
  simp only [write, cut, hroom]
  split
  · next h =>
    have hlast : (writes ++ [text]).length ≤ n := by
      rw [List.length_append]
      exact h
    rw [List.take_of_length_le (Nat.le_of_lt h), List.take_of_length_le hlast]
  · rfl

/-- All that was offered counts, but only the first writes are there. -/
theorem writeAll_cut (texts : List Bytes) : (cut n complaint writes).writeAll texts =
    (cut n complaint (writes ++ texts),
      if texts = [] ∨ (writes ++ texts).length ≤ n then none else some complaint) := by
  induction texts generalizing writes with
  | nil => rw [List.append_nil, if_pos (.inl rfl)]; rfl
  | cons text rest ih =>
    rw [writeAll, write_cut]
    by_cases h : writes.length < n
    · have hnil : rest = [] → (writes ++ text :: rest).length ≤ n := by
        rintro rfl
        rw [List.length_append]
        exact h
      rw [if_pos h]
      dsimp only
      rw [ih, List.append_assoc, List.singleton_append]
      simp only [reduceCtorEq, false_or, or_iff_right_of_imp hnil]
    · have hlong : ¬(writes ++ text :: rest).length ≤ n := by
        simp only [List.length_append, List.length_cons]
        omega
      rw [if_neg h, cut_append (Nat.le_of_not_lt h), if_neg (by simpa using hlong)]

/-- Nobody notices the loss of a write that was only attempted. -/
theorem attempt_cut (text : Bytes) :
    (cut n complaint writes).attempt text = cut n complaint (writes ++ [text]) := by
  rw [attempt, write_cut]
  by_cases h : writes.length < n
  · rw [if_pos h]
  · rw [if_neg h, cut_append (Nat.le_of_not_lt h)]

end Sink

namespace Config

/-- The token listing, if one was asked for. -/
def listed (c : Config) (tokens : List Token) : List Bytes :=
  if c.tokens then [listing tokens] else []

/-- What is written for a selector, and the problem that is met after that. -/
def offers (c : Config) (l : Libraries) (turn : Nat) (source : Bytes) :
    List Bytes × Option Problem :=
  match tokenize source with
  | .error cause => ([], some (.ofLexError cause))
  | .ok tokens =>
    match c.rendering l turn tokens with
    | .error problem => (c.listed tokens, some problem)
    | .ok payload => (c.listed tokens ++ [payload], none)

section Offers

variable {c : Config} {l : Libraries} {turn : Nat} {source : Bytes} {tokens : List Token}

theorem offers_unread {cause : LexError} (h : tokenize source = .error cause) :
    c.offers l turn source = ([], some (.ofLexError cause)) := by
  rw [offers, h]

theorem offers_refused {problem : Problem} (h : tokenize source = .ok tokens)
    (hr : c.rendering l turn tokens = .error problem) :
    c.offers l turn source = (c.listed tokens, some problem) := by
  rw [offers, h]
  dsimp only
  rw [hr]

theorem offers_shown {payload : Bytes} (h : tokenize source = .ok tokens)
    (hr : c.rendering l turn tokens = .ok payload) :
    c.offers l turn source = (c.listed tokens ++ [payload], none) := by
  rw [offers, h]
  dsimp only
  rw [hr]

/-- A complaint of the sink prevails over a problem that would have been met later. -/
theorem process_eq (out : Sink) : c.process l turn source out =
    ((out.writeAll (c.offers l turn source).1).1,
      ((out.writeAll (c.offers l turn source).1).2.map Problem.plain).or
        (c.offers l turn source).2) := by
  cases h : tokenize source with
  | error cause =>
    rw [offers_unread h, process, h]
    rfl
  | ok tokens =>
    rw [process, h]
    dsimp only
    cases hr : c.rendering l turn tokens with
    | error problem =>
      rw [offers_refused h hr, listed]
      cases c.tokens
      · rfl
      · simp only [Sink.writeAll, if_true]
        cases out.write (listing tokens) <;> rfl
    | ok payload =>
      rw [offers_shown h hr, listed]
      cases c.tokens
      · simp only [Sink.writeAll, List.nil_append, Bool.false_eq_true, if_false]
        cases out.write payload <;> rfl
      · simp only [Sink.writeAll, List.singleton_append, if_true]
        cases out.write (listing tokens) with
        | error complaint => rfl
        | ok out =>
          dsimp only
          cases out.write payload <;> rfl

/-- A selector without a problem has something to write. -/
theorem offers_ne_nil (hnone : (c.offers l turn source).2 = none) :
    (c.offers l turn source).1 ≠ [] := by
  cases h : tokenize source with
  | error cause =>
    rw [offers_unread h] at hnone
    cases hnone
  | ok tokens =>
    cases hr : c.rendering l turn tokens with
    | error problem =>
      rw [offers_refused h hr] at hnone
      cases hnone
    | ok payload => simp [offers_shown h hr]

end Offers

end Config

/-- Two runs that were offered the same writes, one of which could keep only the first `n`. -/
structure Outcome.Truncates (part full : Outcome) (n : Nat) (complaint : Bytes)
    (writes : List Bytes) : Prop where
  whole : full.console.output = .whole writes
  cut : part.console.output = .cut n complaint writes
  same : writes.length ≤ n → part.code = full.code ∧ part.console.errors = full.console.errors
  failed : n < writes.length → part.code = Exit.failureCode

/-- A run that lost a write and failed, while the other run went on. -/
theorem truncates_of_fail {full : Outcome} {n : Nat} {complaint : Bytes} {written : List Bytes}
    (hlong : n < written.length) (hfull : ∃ more, full.console.output = .whole (written ++ more))
    (errors : Sink) (message : Bytes) :
    ∃ all, (Console.fail ⟨.cut n complaint written, errors⟩ message).Truncates full n complaint
      all := by
  obtain ⟨more, hmore⟩ := hfull
  refine ⟨written ++ more, hmore, ?_, fun hle => ?_, fun _ => rfl⟩
  · exact (Sink.cut_append (Nat.le_of_lt hlong)).symm
  · rw [List.length_append] at hle
    omega

section Runs

variable (c : Config) (l : Libraries) (s : Setting) (total : Nat)

theorem process_whole (turn : Nat) (source : Bytes) (writes : List Bytes) :
    c.process l turn source (.whole writes) =
      (.whole (writes ++ (c.offers l turn source).1), (c.offers l turn source).2) := by
  rw [c.process_eq, Sink.writeAll_whole]
  rfl

/-- Onto a sink that fails, a selector ends as it would end otherwise unless a write is lost, and
then it ends with a problem. -/
theorem process_cut (turn n : Nat) (complaint source : Bytes) (writes : List Bytes) :
    ∃ problem, c.process l turn source (.cut n complaint writes) =
        (.cut n complaint (writes ++ (c.offers l turn source).1), problem) ∧
      ((writes ++ (c.offers l turn source).1).length ≤ n → problem = (c.offers l turn source).2) ∧
      (n < (writes ++ (c.offers l turn source).1).length → problem ≠ none) := by
  refine ⟨_, by rw [c.process_eq, Sink.writeAll_cut], fun hle => ?_, fun hlt => ?_⟩
  · rw [if_pos (.inr hle)]
    rfl
  · intro hnone
    rw [Option.or_eq_none_iff, Option.map_eq_none_iff] at hnone
    obtain ⟨hkept, hoffers⟩ := hnone
    rw [if_neg (not_or.mpr ⟨c.offers_ne_nil hoffers, Nat.not_le.mpr hlt⟩)] at hkept
    cases hkept

/-- The separator that is due before a selector. -/
def Config.separator (shown : Nat) : List Bytes :=
  if c.separates shown then [utf8 "---\n"] else []

theorem separated_whole (shown : Nat) (writes : List Bytes) :
    (if c.separates shown then (Sink.whole writes).attempt (utf8 "---\n") else .whole writes) =
      .whole (writes ++ c.separator shown) := by
  rw [Config.separator]
  split
  · rfl
  · rw [List.append_nil]

theorem separated_cut (n : Nat) (complaint : Bytes) (shown : Nat) (writes : List Bytes) :
    (if c.separates shown then (Sink.cut n complaint writes).attempt (utf8 "---\n")
      else .cut n complaint writes) = .cut n complaint (writes ++ c.separator shown) := by
  rw [Config.separator]
  split
  · exact Sink.attempt_cut _
  · rw [List.append_nil]

/-- One selector of a run onto a sink that keeps all: the run goes on unless a problem is met. -/
theorem runFrom_whole (hs : s.cancelled = false) (shown : Nat) (source : Bytes) (rest : List Bytes)
    (writes : List Bytes) (errors : Sink) :
    c.runFrom l s total shown (source :: rest) ⟨.whole writes, errors⟩ =
      let console : Console :=
        ⟨.whole (writes ++ c.separator shown ++ (c.offers l shown source).1), errors⟩
      match (c.offers l shown source).2 with
      | some problem => console.fail (problem.render (s.colored && !c.noColor) source)
      | none => c.runFrom l s total (shown + 1) rest console := by
  rw [Config.runFrom, hs]
  simp only [Bool.false_eq_true, if_false]
  rw [separated_whole, process_whole]
  cases (c.offers l shown source).2 <;> rfl

/-- A run adds to what has been written. -/
theorem runFrom_extends (shown : Nat) (sources writes : List Bytes) (errors : Sink) :
    ∃ more, (c.runFrom l s total shown sources ⟨.whole writes, errors⟩).console.output =
      .whole (writes ++ more) := by
  induction sources generalizing shown writes with
  | nil => exact ⟨[], by rw [List.append_nil]; rfl⟩
  | cons source rest ih =>
    cases hs : s.cancelled with
    | true =>
      refine ⟨[], ?_⟩
      rw [Config.runFrom, hs, List.append_nil]
      rfl
    | false =>
      rw [runFrom_whole c l s total hs]
      dsimp only
      cases (c.offers l shown source).2 with
      | some problem => exact ⟨_, by rw [List.append_assoc]; rfl⟩
      | none =>
        obtain ⟨more, hmore⟩ :=
          ih (shown + 1) (writes ++ c.separator shown ++ (c.offers l shown source).1)
        exact ⟨_, hmore.trans (by rw [List.append_assoc, List.append_assoc])⟩

theorem runFrom_truncates (n : Nat) (complaint : Bytes) (shown : Nat) (sources writes : List Bytes)
    (errors : Sink) (hroom : writes.length ≤ n) :
    ∃ all, (c.runFrom l s total shown sources ⟨.cut n complaint writes, errors⟩).Truncates
      (c.runFrom l s total shown sources ⟨.whole writes, errors⟩) n complaint all := by
  induction sources generalizing shown writes with
  | nil => exact ⟨writes, rfl, rfl, fun _ => ⟨rfl, rfl⟩, fun h => absurd hroom (Nat.not_le.mpr h)⟩
  | cons source rest ih =>
    cases hs : s.cancelled with
    | true =>
      refine ⟨writes, ?_, ?_, ?_, fun h => absurd hroom (Nat.not_le.mpr h)⟩
      all_goals simp [Config.runFrom, hs, Console.fail, Console.tell]
    | false =>
      rw [runFrom_whole c l s total hs]
      obtain ⟨problem, hcut, hsame, hlost⟩ :=
        process_cut c l shown n complaint source (writes ++ c.separator shown)
      rw [Config.runFrom, hs]
      simp only [Bool.false_eq_true, if_false]
      rw [separated_cut, hcut]
      generalize hwrites : writes ++ c.separator shown ++ (c.offers l shown source).1 = written at *
      by_cases hkept : written.length ≤ n
      · rw [hsame hkept]
        cases (c.offers l shown source).2 with
        | some problem =>
          exact ⟨written, rfl, rfl, fun _ => ⟨rfl, rfl⟩,
            fun h => absurd hkept (Nat.not_le.mpr h)⟩
        | none => exact ih (shown + 1) written hkept
      · -- The problem that ends the run is the complaint or one that the selector has anyway.
        obtain ⟨problem, rfl⟩ := Option.ne_none_iff_exists'.mp (hlost (Nat.lt_of_not_le hkept))
        have hlong : n < written.length := Nat.lt_of_not_le hkept
        refine truncates_of_fail hlong ?_ _ _
        cases (c.offers l shown source).2 with
        | some problem => exact ⟨[], by rw [List.append_nil]; rfl⟩
        | none => exact runFrom_extends c l s total (shown + 1) rest written errors

/-- The report on a corpus is told to the error sink only. -/
theorem tell_eq (report : Corpus.Report) (colored : Bool) (errors : Sink) :
    ∃ errors', ∀ output, report.tell colored ⟨output, errors⟩ = ⟨output, errors'⟩ := by
  have hfold : ∀ (failures : List Corpus.Result) (errors : Sink), ∃ errors', ∀ output,
      failures.foldl (fun console result => console.tell (status colored false ++ utf8 " " ++
        result.label ++ [newline])) (Console.mk output errors) = ⟨output, errors'⟩ := by
    intro failures
    induction failures with
    | nil => exact fun errors => ⟨errors, fun _ => rfl⟩
    | cons result rest ih =>
      intro errors
      obtain ⟨errors', hrest⟩ :=
        ih (errors.attempt (status colored false ++ utf8 " " ++ result.label ++ [newline]))
      exact ⟨errors', hrest⟩
  obtain ⟨errors', hfailures⟩ := hfold (report.results.filter (!·.passed)) errors
  refine ⟨errors'.attempt (report.summary colored), fun output => ?_⟩
  rw [Corpus.Report.tell, hfailures]
  rfl

/-- A corpus is reported on in a single write. -/
theorem runCorpus_truncates (n : Nat) (complaint : Bytes) (errors : Sink) :
    ∃ all, (c.runCorpus l s ⟨.cut n complaint [], errors⟩).Truncates
      (c.runCorpus l s ⟨.whole [], errors⟩) n complaint all := by
  have hnone : ∀ errors message, ∃ all,
      (Console.fail ⟨.cut n complaint [], errors⟩ message).Truncates
        (Console.fail ⟨.whole [], errors⟩ message) n complaint all := fun errors message =>
    ⟨[], rfl, rfl, fun _ => ⟨rfl, rfl⟩, fun h => absurd h (Nat.not_lt_zero n)⟩
  unfold Config.runCorpus
  cases Corpus.load l.corpus s.files c.corpusFile with
  | error cause => exact hnone _ _
  | ok entries =>
    dsimp only
    split
    · exact hnone _ _
    · obtain ⟨errors', htell⟩ :=
        tell_eq (Corpus.check s.runId entries) (s.colored && !c.noColor) errors
      rw [htell, htell]
      cases l.reportYaml (Corpus.check s.runId entries) with
      | error cause => exact hnone _ _
      | ok text =>
        dsimp only
        rw [Sink.write_cut, List.length_nil]
        rcases Nat.eq_zero_or_pos n with rfl | hn
        · have hlong : 0 < [text].length := Nat.zero_lt_one
          exact truncates_of_fail hlong ⟨[], rfl⟩ _ _
        · rw [if_pos hn]
          exact ⟨[_], rfl, rfl, fun _ => ⟨rfl, rfl⟩,
            fun h => absurd hn (Nat.not_lt.mpr (Nat.le_of_lt_succ h))⟩

theorem run_truncates (n : Nat) (complaint : Bytes) (errors : Sink) :
    ∃ all, (c.runWith l s ⟨.cut n complaint [], errors⟩).Truncates
      (c.runWith l s ⟨.whole [], errors⟩) n complaint all := by
  unfold Config.runWith
  split
  · exact runFrom_truncates c l s _ n complaint 0 c.selectors [] errors (Nat.zero_le n)
  · exact runCorpus_truncates c l s n complaint errors

end Runs

/-- As long as all writes are kept, a run onto a sink that fails later is the same run; otherwise it
fails with the first writes as its output. The libraries may do what they like. -/
theorem lost_output_fails (c : Config) (l : Libraries) (s : Setting) (n : Nat) (complaint : Bytes)
    (errors : Sink) :
    let full := c.runWith l s ⟨.onto .keep, errors⟩
    let part := c.runWith l s ⟨.onto (.limited n complaint), errors⟩
    (full.console.output.writes.length ≤ n → part.code = full.code ∧
      part.console.output.writes = full.console.output.writes ∧
      part.console.errors = full.console.errors) ∧
    (n < full.console.output.writes.length → part.code = 1 ∧
      part.console.output.writes = full.console.output.writes.take n) := by
  intro full part
  obtain ⟨all, hall⟩ := run_truncates c l s n complaint errors
  have hpart : part = c.runWith l s ⟨.cut n complaint [], errors⟩ := by
    rw [Sink.cut, List.take_nil]
    rfl
  rw [← hpart] at hall
  have hwhole : full.console.output.writes = all := congrArg Sink.writes hall.whole
  have hcut : part.console.output.writes = all.take n := congrArg Sink.writes hall.cut
  rw [hwhole, hcut]
  refine ⟨fun hle => ⟨(hall.same hle).1, List.take_of_length_le hle, (hall.same hle).2⟩, ?_⟩
  exact fun hlt => ⟨hall.failed hlt, rfl⟩

/-- Two selectors as YAML documents. -/
def twoDocuments : Config :=
  { selectors := [utf8 "a", utf8 "b"], format := .yaml, tokens := false, query := []
    noColor := true, corpusFile := [], bindings := [], variableFile := []
    strictVariables := false }

def bareSetting : Setting :=
  { files := .ofDirectory [], colored := false, cancelled := false, runId := [] }

/-- The separator is the write that gets lost, and the second document then has no place. -/
theorem lost_output_fails_separator :
    let full := twoDocuments.run bareSetting ⟨.onto .keep, .onto .keep⟩
    let part := twoDocuments.run bareSetting ⟨.onto (.limited 1 (utf8 "full")), .onto .keep⟩
    full.code = 0 ∧ full.console.output.writes.length = 3 ∧ part.code = 1 ∧
      part.console.output.writes = full.console.output.writes.take 1 := by
  intro full part
  have hcode : full.code = 0 := by decide +kernel
  have hlength : full.console.output.writes.length = 3 := by decide +kernel
  have hlong : 1 < full.console.output.writes.length := by
    rw [hlength]
    decide
  have hlost := (lost_output_fails twoDocuments .own bareSetting 1 (utf8 "full") (.onto .keep)).2
  exact ⟨hcode, hlength, hlost hlong⟩

end NodePath
