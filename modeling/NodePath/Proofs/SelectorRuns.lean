import NodePath.Proofs.DumpExact
import NodePath.Proofs.JsonDepth
import NodePath.Proofs.Leaves
import NodePath.Proofs.LostOutput

/-!
# A run stops at its first bad selector

A selector is good when it is read as tokens and as a tree, in a strict run its variables are bound,
the query, if there is one, is a query, and what is to be shown as JSON is not nested too deeply.
Which texts are queries, what they select and how YAML is written is left to the libraries; all that
is asked of them is that values can be written as YAML. A run over good selectors writes what is due
for each of them. A run with a bad selector among them stops there with the one problem of that
selector, and what comes later has no influence.
-/

namespace NodePath

open NodePath.Text

/-- The variables of a source, each time they occur, in the order of the source. -/
def variablesIn (tokens : List Token) : List Bytes :=
  (leavesOf tokens).filterMap Leaf.variableName?

namespace Config

/-- Only in a strict run must variables be bound. -/
def Binds (c : Config) (tokens : List Token) : Prop :=
  c.strictVariables = true → ∀ name ∈ variablesIn tokens, c.isBound name = true

/-- A query, where one is given, can be asked. -/
def Asks (c : Config) (l : Libraries) : Prop :=
  c.query ≠ [] → ∃ select, l.queries c.query = .ok select

/-- The values that the query selects of a tree in a turn. -/
def found (c : Config) (l : Libraries) (turn : Nat) (e : Expr) : List Value :=
  match l.queries c.query with
  | .error _ => []
  | .ok select => select turn e.record

/-- The record of a tree, or what the query selects of it. -/
def displayed (c : Config) (l : Libraries) (turn : Nat) (e : Expr) : Value :=
  if c.query.isEmpty then .record e.record else .list (c.found l turn e)

/-- Only JSON texts have a limit to their nesting. -/
def Encodes (c : Config) (l : Libraries) (turn : Nat) (e : Expr) : Prop :=
  c.format = .json → (c.displayed l turn e).depth ≤ maxJsonDepth

/-- A selector with which nothing is wrong in its turn. -/
def Good (c : Config) (l : Libraries) (turn : Nat) (source : Bytes) : Prop :=
  ∃ tokens e, tokenize source = .ok tokens ∧ parseTokens tokens = .ok e ∧ c.Binds tokens ∧
    c.Asks l ∧ c.Encodes l turn e

/-- Selectors that are good each in its turn, the first of them in the turn `shown`. -/
def AllGood (c : Config) (l : Libraries) (shown : Nat) (sources : List Bytes) : Prop :=
  ∀ entry ∈ sources.zipIdx shown, c.Good l entry.2 entry.1

/-- What is wrong with a selector. Of the variables without a binding the first one counts. -/
inductive Meets (c : Config) (l : Libraries) (turn : Nat) (source : Bytes) : Problem → Prop where
  | unreadable {cause : LexError} : tokenize source = .error cause →
      c.Meets l turn source (.ofLexError cause)
  | ungrammatical {tokens : List Token} {cause : SyntaxError} : tokenize source = .ok tokens →
      parseTokens tokens = .error cause → c.Meets l turn source (.ofSyntaxError cause)
  | unbound {tokens : List Token} {e : Expr} {before after : List Bytes} {name : Bytes} :
      tokenize source = .ok tokens → parseTokens tokens = .ok e → c.strictVariables = true →
      variablesIn tokens = before ++ name :: after → (∀ v ∈ before, c.isBound v = true) →
      c.isBound name = false →
      c.Meets l turn source (.plain (utf8 "unbound variable: $" ++ name))
  | badQuery {tokens : List Token} {e : Expr} {complaint : Bytes} :
      tokenize source = .ok tokens → parseTokens tokens = .ok e → c.Binds tokens →
      c.query ≠ [] → l.queries c.query = .error complaint →
      c.Meets l turn source (.plain (QueryError.malformed c.query complaint).message)
  | tooDeep {tokens : List Token} {e : Expr} : tokenize source = .ok tokens →
      parseTokens tokens = .ok e → c.Binds tokens → c.Asks l → c.format = .json →
      maxJsonDepth < (c.displayed l turn e).depth →
      c.Meets l turn source (.plain EncodeError.tooDeep.message)

/-- The token listing of a selector that is read as tokens, if listings were asked for. -/
def listingText (c : Config) (source : Bytes) : Bytes :=
  match tokenize source with
  | .error _ => []
  | .ok tokens => if c.tokens then listing tokens else []

/-- A tree in the format that was asked for, or what the query selects of it. -/
def rendered (c : Config) (l : Libraries) (turn : Nat) (e : Expr) : Except Problem Bytes :=
  if c.query.isEmpty then c.formatted l e else c.formattedMatches l (c.found l turn e)

def renderingText (c : Config) (l : Libraries) (turn : Nat) (source : Bytes) : Bytes :=
  match parse source with
  | .error _ => []
  | .ok e => (c.rendered l turn e).toOption.getD []

/-- What stands before the selector with an index. -/
def separatorText (c : Config) (index : Nat) : Bytes :=
  if 0 < index ∧ c.format = .yaml then utf8 "---\n" else []

/-- What is written for good selectors, the first of which has the index `shown`. -/
def transcript (c : Config) (l : Libraries) (shown : Nat) (sources : List Bytes) : Bytes :=
  (sources.zipIdx shown).flatMap fun entry =>
    c.separatorText entry.2 ++ c.listingText entry.1 ++ c.renderingText l entry.2 entry.1

end Config

section Variables

theorem find?_eraseDups {α : Type} [BEq α] [LawfulBEq α] (p : α → Bool) (l : List α) :
    l.eraseDups.find? p = l.find? p := by
  induction l using List.reverseRecOn with
  | nil => rfl
  | append_singleton l last ih =>
    rw [List.eraseDups_append, List.find?_append, List.find?_append, ih]
    by_cases hlast : last ∈ l
    · cases hfind : l.find? p with
      | some a => rfl
      | none =>
        have hp : p last = false := by simpa using List.find?_eq_none.mp hfind last hlast
        simp [List.removeAll, hlast, hp]
    · simp [List.removeAll, hlast, List.eraseDups_cons]

variable {source : Bytes} {tokens : List Token} {e : Expr}

theorem unbound?_eq (c : Config) (h : tokenize source = .ok tokens)
    (he : parseTokens tokens = .ok e) :
    c.unbound? e = (variablesIn tokens).find? (!c.isBound ·) := by
  rw [Config.unbound?, Node.variableNames_eq, leaves_of_parseTokens h he, find?_eraseDups]
  rfl

theorem unbound?_eq_none (c : Config) (h : tokenize source = .ok tokens)
    (he : parseTokens tokens = .ok e) :
    (if c.strictVariables then c.unbound? e else none) = none ↔ c.Binds tokens := by
  rw [Config.Binds, unbound?_eq c h he]
  cases c.strictVariables <;> simp

theorem unbound?_eq_some (c : Config) (h : tokenize source = .ok tokens)
    (he : parseTokens tokens = .ok e) {name : Bytes} :
    (if c.strictVariables then c.unbound? e else none) = some name ↔ c.strictVariables = true ∧
      c.isBound name = false ∧ ∃ before after, variablesIn tokens = before ++ name :: after ∧
        ∀ v ∈ before, c.isBound v = true := by
  rw [unbound?_eq c h he]
  cases c.strictVariables <;> simp [List.find?_eq_some_iff_append]

end Variables

section Selectors

variable {c : Config} {l : Libraries} {turn : Nat} {source : Bytes} {tokens : List Token} {e : Expr}

theorem parse_of_tokens (h : tokenize source = .ok tokens) (he : parseTokens tokens = .ok e) :
    parse source = .ok e := by
  rw [parse, h]
  dsimp only
  rw [he]
  rfl

theorem flatten_listed (h : tokenize source = .ok tokens) :
    (c.listed tokens).flatten = c.listingText source := by
  rw [Config.listingText, h, Config.listed]
  dsimp only
  split
  · exact List.append_nil _
  · rfl

/-- When every variable that must be bound is bound, only the payload is left. -/
theorem rendering_bound (h : tokenize source = .ok tokens) (he : parseTokens tokens = .ok e)
    (hbinds : c.Binds tokens) : c.rendering l turn tokens = c.payload l turn e := by
  rw [Config.rendering, he]
  dsimp only
  rw [(unbound?_eq_none c h he).mpr hbinds]

theorem payload_asked (hquery : c.Asks l) : c.payload l turn e = c.rendered l turn e := by
  rw [Config.payload, Config.rendered]
  split
  · rfl
  · next hne =>
    obtain ⟨select, hselect⟩ := hquery (by simpa using hne)
    rw [Record.ask, if_neg hne, Config.found, hselect]

theorem payload_bad {complaint : Bytes} (hne : c.query ≠ [])
    (hquery : l.queries c.query = .error complaint) :
    c.payload l turn e = .error (.plain (QueryError.malformed c.query complaint).message) := by
  have hempty : ¬c.query.isEmpty = true := by simpa using hne
  rw [Config.payload, if_neg hempty, Record.ask, if_neg hempty, hquery]

theorem rendered_json (h : c.format = .json) :
    c.rendered l turn e = payloadOf (c.displayed l turn e).encoded := by
  rw [Config.rendered, Config.formatted, Config.formattedMatches, Config.displayed, h]
  split <;> rfl

theorem rendered_too_deep (h : c.format = .json)
    (hdeep : maxJsonDepth < (c.displayed l turn e).depth) :
    c.rendered l turn e = .error (.plain EncodeError.tooDeep.message) := by
  rw [rendered_json h, Value.encoded_of_deep hdeep]
  rfl

theorem payloadOf_yaml (hyaml : l.WritesValues) (v : Value) :
    ∃ text, payloadOf (l.encodeYaml v) = .ok text := by
  obtain ⟨text, htext⟩ := hyaml v
  refine ⟨text, ?_⟩
  rw [Libraries.encodeYaml, htext]
  rfl

theorem rendered_of_encodes (hyaml : l.WritesValues) (h : c.Encodes l turn e) :
    ∃ text, c.rendered l turn e = .ok text := by
  by_cases hformat : c.format = .json
  · refine ⟨(c.displayed l turn e).json, ?_⟩
    rw [rendered_json hformat, Value.encoded_of_shallow (h hformat)]
    rfl
  · rw [Config.rendered]
    split
    · rw [Config.formatted]
      split
      · exact ⟨_, rfl⟩
      · exact payloadOf_yaml hyaml _
      · next hjson => exact absurd hjson hformat
      all_goals exact ⟨_, rfl⟩
    · rw [Config.formattedMatches, if_neg hformat]
      exact payloadOf_yaml hyaml _

/-- A good selector writes its listing and its rendering. -/
theorem offers_good (hyaml : l.WritesValues) (h : c.Good l turn source) :
    (c.offers l turn source).2 = none ∧ (c.offers l turn source).1.flatten =
      c.listingText source ++ c.renderingText l turn source := by
  obtain ⟨tokens, e, htokens, he, hbinds, hquery, hencodes⟩ := h
  obtain ⟨text, htext⟩ := rendered_of_encodes hyaml hencodes
  have hrendering : c.rendering l turn tokens = .ok (c.renderingText l turn source) := by
    rw [rendering_bound htokens he hbinds, payload_asked hquery, Config.renderingText,
      parse_of_tokens htokens he]
    dsimp only
    rw [htext]
    rfl
  rw [Config.offers_shown htokens hrendering]
  refine ⟨rfl, ?_⟩
  rw [List.flatten_append, flatten_listed htokens]
  simp

/-- A selector with a problem writes at most its listing. -/
theorem offers_meets {problem : Problem} (h : c.Meets l turn source problem) :
    (c.offers l turn source).2 = some problem ∧
      (c.offers l turn source).1.flatten = c.listingText source := by
  have hrefused : ∀ {tokens : List Token}, tokenize source = .ok tokens →
      c.rendering l turn tokens = .error problem → (c.offers l turn source).2 = some problem ∧
        (c.offers l turn source).1.flatten = c.listingText source := by
    intro tokens htokens hrendering
    rw [Config.offers_refused htokens hrendering]
    exact ⟨rfl, flatten_listed htokens⟩
  cases h with
  | unreadable hcause =>
    rw [Config.offers_unread hcause, Config.listingText, hcause]
    exact ⟨rfl, rfl⟩
  | ungrammatical htokens hcause =>
    refine hrefused htokens ?_
    rw [Config.rendering, hcause]
  | unbound htokens he hstrict hsplit hbefore hname =>
    refine hrefused htokens ?_
    rw [Config.rendering, he]
    dsimp only
    rw [(unbound?_eq_some c htokens he).mpr ⟨hstrict, hname, _, _, hsplit, hbefore⟩]
    rfl
  | badQuery htokens he hbinds hne hquery =>
    refine hrefused htokens ?_
    rw [rendering_bound htokens he hbinds]
    exact payload_bad hne hquery
  | tooDeep htokens he hbinds hquery hformat hdeep =>
    refine hrefused htokens ?_
    rw [rendering_bound htokens he hbinds]
    exact (payload_asked hquery).trans (rendered_too_deep hformat hdeep)

/-- A selector that is not good has a problem. -/
theorem meets_of_not_good (h : ¬c.Good l turn source) :
    ∃ problem, c.Meets l turn source problem := by
  cases htokens : tokenize source with
  | error cause => exact ⟨_, .unreadable htokens⟩
  | ok tokens =>
    cases he : parseTokens tokens with
    | error cause => exact ⟨_, .ungrammatical htokens he⟩
    | ok e =>
      cases hunbound : if c.strictVariables then c.unbound? e else none with
      | some name =>
        obtain ⟨hstrict, hname, before, after, hsplit, hbefore⟩ :=
          (unbound?_eq_some c htokens he).mp hunbound
        exact ⟨_, .unbound htokens he hstrict hsplit hbefore hname⟩
      | none =>
        have hbinds := (unbound?_eq_none c htokens he).mp hunbound
        by_cases hquery : c.Asks l
        · have hdeep : ¬c.Encodes l turn e := fun hencodes =>
            h ⟨tokens, e, htokens, he, hbinds, hquery, hencodes⟩
          obtain ⟨hformat, hdepth⟩ := Classical.not_imp.mp hdeep
          exact ⟨_, .tooDeep htokens he hbinds hquery hformat (Nat.lt_of_not_le hdepth)⟩
        · obtain ⟨hne, hnone⟩ := Classical.not_imp.mp hquery
          cases hcomplaint : l.queries c.query with
          | error complaint => exact ⟨_, .badQuery htokens he hbinds hne hcomplaint⟩
          | ok select => exact absurd ⟨select, hcomplaint⟩ hnone

/-- A selector is good, or it has exactly one problem. -/
theorem meets_iff {problem : Problem} (h : c.Meets l turn source problem) (p : Problem) :
    c.Meets l turn source p ↔ p = problem := by
  constructor
  · intro hp
    have hsome := (offers_meets hp).1
    rw [(offers_meets h).1] at hsome
    exact (Option.some.inj hsome).symm
  · rintro rfl
    exact h

theorem flatten_separator (index : Nat) : (c.separator index).flatten = c.separatorText index := by
  rw [Config.separator, Config.separatorText, Config.separates]
  simp only [Bool.and_eq_true, decide_eq_true_eq]
  split
  · exact List.append_nil _
  · rfl

/-- All that selectors have to write, separators included, the first of them with an index. -/
def Config.offered (c : Config) (l : Libraries) (shown : Nat) (sources : List Bytes) : List Bytes :=
  (sources.zipIdx shown).flatMap fun entry =>
    c.separator entry.2 ++ (c.offers l entry.2 entry.1).1

theorem allGood_nil (shown : Nat) : c.AllGood l shown [] := nofun

theorem allGood_cons {shown : Nat} {rest : List Bytes} :
    c.AllGood l shown (source :: rest) ↔ c.Good l shown source ∧ c.AllGood l (shown + 1) rest :=
  List.forall_mem_cons

theorem offered_cons (shown : Nat) (source : Bytes) (rest : List Bytes) :
    c.offered l shown (source :: rest) =
      c.separator shown ++ (c.offers l shown source).1 ++ c.offered l (shown + 1) rest := rfl

theorem transcript_cons (shown : Nat) (source : Bytes) (rest : List Bytes) :
    c.transcript l shown (source :: rest) = c.separatorText shown ++ c.listingText source ++
      c.renderingText l shown source ++ c.transcript l (shown + 1) rest := rfl

theorem flatten_offered (hyaml : l.WritesValues) {shown : Nat} {sources : List Bytes}
    (h : c.AllGood l shown sources) :
    (c.offered l shown sources).flatten = c.transcript l shown sources := by
  induction sources generalizing shown with
  | nil => rfl
  | cons source rest ih =>
    obtain ⟨hsource, hrest⟩ := allGood_cons.mp h
    rw [offered_cons, transcript_cons, List.flatten_append, List.flatten_append,
      (offers_good hyaml hsource).2, ih hrest, flatten_separator,
      List.append_assoc (c.separatorText shown) (c.listingText source)]

end Selectors

section Runs

variable {c : Config} {l : Libraries} {s : Setting} {before : List Bytes} (total : Nat)

/-- A run goes past good selectors. -/
theorem runFrom_goods (hyaml : l.WritesValues) (hs : s.cancelled = false) {shown : Nat}
    (hgood : c.AllGood l shown before) (rest writes : List Bytes) (errors : Sink) :
    c.runFrom l s total shown (before ++ rest) ⟨.whole writes, errors⟩ =
      c.runFrom l s total (shown + before.length) rest
        ⟨.whole (writes ++ c.offered l shown before), errors⟩ := by
  induction before generalizing shown writes with
  | nil =>
    show _ = c.runFrom l s total shown rest ⟨.whole (writes ++ []), errors⟩
    rw [List.append_nil, List.nil_append]
  | cons source before ih =>
    obtain ⟨hsource, hbefore⟩ := allGood_cons.mp hgood
    rw [List.cons_append, runFrom_whole c l s total hs]
    dsimp only
    rw [(offers_good hyaml hsource).1]
    dsimp only
    rw [ih hbefore, offered_cons, List.length_cons, Nat.add_assoc, Nat.add_comm 1,
      List.append_assoc writes, List.append_assoc writes]

theorem run_eq (hcorpus : c.corpusFile = []) : c.runWith l s ⟨.onto .keep, .onto .keep⟩ =
    c.runFrom l s c.selectors.length 0 c.selectors ⟨.whole [], .whole []⟩ := by
  have hempty : c.corpusFile.isEmpty = true := by rw [hcorpus]; rfl
  exact if_pos hempty

/-- All of a run that meets a problem: what comes after the bad selector leaves no trace. -/
theorem run_meets (hyaml : l.WritesValues) (hcorpus : c.corpusFile = [])
    (hs : s.cancelled = false) {bad : Bytes} {problem : Problem} {after : List Bytes}
    (hsplit : c.selectors = before ++ bad :: after) (hgood : c.AllGood l 0 before)
    (h : (c.offers l before.length bad).2 = some problem) :
    c.runWith l s ⟨.onto .keep, .onto .keep⟩ =
      Console.fail
        ⟨.whole (c.offered l 0 before ++ c.separator before.length ++
          (c.offers l before.length bad).1), .whole []⟩
        (problem.render (s.colored && !c.noColor) bad) := by
  rw [run_eq hcorpus, hsplit, runFrom_goods _ hyaml hs hgood, runFrom_whole _ _ _ _ hs,
    Nat.zero_add, List.nil_append]
  dsimp only
  rw [h]

end Runs

/-- A run over good selectors writes all that is due for them and succeeds. At its first bad
selector a run fails with the one problem of that selector, after what is due for the selectors
before it, a separator and the listing of its tokens, and the selectors behind it make no
difference. The libraries may differ in all but one respect: values can be written as YAML. -/
theorem run_stops_at_first_bad (c : Config) (l : Libraries) (s : Setting) (hyaml : l.WritesValues)
    (hcorpus : c.corpusFile = []) (hs : s.cancelled = false) :
    let outcome := c.runWith l s ⟨.onto .keep, .onto .keep⟩
    (c.AllGood l 0 c.selectors → outcome.code = 0 ∧
      outcome.console.errors.writes = [] ∧
      outcome.console.output.content = c.transcript l 0 c.selectors) ∧
    ∀ before bad after, c.selectors = before ++ bad :: after →
      c.AllGood l 0 before → ¬c.Good l before.length bad → outcome.code = 1 ∧
        outcome.console.output.content =
          c.transcript l 0 before ++ c.separatorText before.length ++ c.listingText bad ∧
        (∃ problem, (∀ p, c.Meets l before.length bad p ↔ p = problem) ∧
          outcome.console.errors.content = problem.render (s.colored && !c.noColor) bad) ∧
        ∀ others, Config.runWith { c with selectors := before ++ bad :: others } l s
          ⟨.onto .keep, .onto .keep⟩ = outcome := by
  intro outcome
  constructor
  · intro hgood
    have hrun : outcome = ⟨0, ⟨.whole (c.offered l 0 c.selectors), .whole []⟩⟩ := by
      have hgoods := runFrom_goods c.selectors.length hyaml hs hgood [] [] (.whole [])
      rw [List.append_nil, ← run_eq hcorpus] at hgoods
      exact hgoods
    rw [hrun]
    exact ⟨rfl, rfl, flatten_offered hyaml hgood⟩
  · intro before bad after hsplit hgood hbad
    obtain ⟨problem, hproblem⟩ := meets_of_not_good hbad
    obtain ⟨hmet, hlisting⟩ := offers_meets hproblem
    have hrun : outcome = _ := run_meets hyaml hcorpus hs hsplit hgood hmet
    have hwritten : (c.offered l 0 before ++ c.separator before.length ++
        (c.offers l before.length bad).1).flatten =
          c.transcript l 0 before ++ c.separatorText before.length ++ c.listingText bad := by
      rw [List.flatten_append, List.flatten_append, flatten_offered hyaml hgood, flatten_separator,
        hlisting]
    rw [hrun]
    refine ⟨rfl, hwritten, ⟨problem, meets_iff hproblem, List.append_nil _⟩, fun others => ?_⟩
    -- The configurations differ in their selectors only, of which neither side speaks.
    exact run_meets (c := { c with selectors := before ++ bad :: others }) hyaml hcorpus hs rfl
      hgood hmet

/-- A strict run with one binding and three selectors, of which the last one is not even read. -/
def partlyBound : Config :=
  { selectors := [utf8 "a", utf8 "$x+$y", utf8 "b)"], format := .yaml, tokens := true, query := []
    noColor := true, corpusFile := [], bindings := [(utf8 "x", utf8 "1")], variableFile := []
    strictVariables := true }

/-- The tokens of `$x+$y`. -/
def twoVariables : List Token :=
  [⟨.dollar, utf8 "$", 0, .absent⟩, ⟨.name, utf8 "x", 1, .absent⟩, ⟨.plus, utf8 "+", 2, .absent⟩,
    ⟨.dollar, utf8 "$", 3, .absent⟩, ⟨.name, utf8 "y", 4, .absent⟩]

theorem exists_of_isOk {ε α : Type} {r : Except ε α} (h : r.isOk = true) : ∃ a, r = .ok a := by
  cases r with
  | error e => cases h
  | ok a => exact ⟨a, rfl⟩

theorem run_stops_at_first_bad_partlyBound :
    let outcome := partlyBound.run bareSetting ⟨.onto .keep, .onto .keep⟩
    partlyBound.Good .own 0 (utf8 "a") ∧ ¬partlyBound.Good .own 1 (utf8 "$x+$y") ∧
      outcome.code = 1 ∧
      outcome.console.output.content =
        partlyBound.transcript .own 0 [utf8 "a"] ++ utf8 "---\n" ++ listing twoVariables ∧
      outcome.console.errors.content = utf8 "error: unbound variable: $y\n" := by
  have hname : tokenize (utf8 "a") = .ok [⟨.name, utf8 "a", 0, .absent⟩] :=
    eq_ok_of_toOption (by decide +kernel)
  have htokens : tokenize (utf8 "$x+$y") = .ok twoVariables :=
    eq_ok_of_toOption (by decide +kernel)
  obtain ⟨path, hpath⟩ := exists_of_isOk (r := parseTokens [⟨.name, utf8 "a", 0, .absent⟩])
    (by decide +kernel)
  obtain ⟨sum, hsum⟩ := exists_of_isOk (r := parseTokens twoVariables) (by decide +kernel)
  have hvariables : variablesIn twoVariables = [utf8 "x"] ++ utf8 "y" :: [] := by decide
  have hgood : partlyBound.Good .own 0 (utf8 "a") :=
    ⟨_, path, hname, hpath, fun _ => by decide, fun hquery => absurd rfl hquery, nofun⟩
  have hbad : ¬partlyBound.Good .own 1 (utf8 "$x+$y") := by
    rintro ⟨tokens, e, hread, -, hbinds, -⟩
    obtain rfl : twoVariables = tokens := Except.ok.inj (htokens.symm.trans hread)
    exact absurd (hbinds rfl (utf8 "y") (by rw [hvariables]; decide)) (by decide)
  have hmeets : partlyBound.Meets .own 1 (utf8 "$x+$y")
      (.plain (utf8 "unbound variable: $" ++ utf8 "y")) :=
    .unbound htokens hsum rfl hvariables (by decide) (by decide)
  obtain ⟨hcode, houtput, ⟨problem, hproblem, herrors⟩, -⟩ :=
    (run_stops_at_first_bad partlyBound .own bareSetting Libraries.own_writesValues rfl rfl).2
      [utf8 "a"] (utf8 "$x+$y") [utf8 "b)"] rfl (allGood_cons.mpr ⟨hgood, allGood_nil 1⟩) hbad
  refine ⟨hgood, hbad, hcode, houtput.trans ?_, herrors.trans ?_⟩
  · rw [Config.listingText, htokens]
    rfl
  · rw [← (hproblem _).mp hmeets]
    decide

/-- A sum with a number of signs, as JSON. -/
def sumRun (n : Nat) : Config :=
  { selectors := [sumText n], format := .json, tokens := false, query := [], noColor := true
    corpusFile := [], bindings := [], variableFile := [], strictVariables := false }

section Sums

variable {l : Libraries} {n : Nat}

/-- A long sum is read, and then refused for the nesting of its record. -/
theorem sumRun_meets (h : maxJsonDepth ≤ n) :
    (sumRun n).Meets l 0 (sumText n) (.plain EncodeError.tooDeep.message) := by
  have hparse := parse_sumText n
  obtain ⟨tokens, htokens, he⟩ := tokens_of_parse hparse
  have hrecord : (sum n).record = (sum n).translation := by
    rw [Expr.record, (wellFormed_of_parse hparse).dump_eq]
    rfl
  refine .tooDeep htokens he nofun (fun hquery => absurd rfl hquery) rfl ?_
  show maxJsonDepth < (Value.record (sum n).record).depth
  rw [hrecord, sum_depth]
  exact Nat.lt_succ_of_le h

theorem sumRun_refused (hyaml : l.WritesValues) (h : maxJsonDepth ≤ n) :
    let outcome := (sumRun n).runWith l bareSetting ⟨.onto .keep, .onto .keep⟩
    outcome.code = 1 ∧ outcome.console.output.content = [] ∧ outcome.console.errors.content =
      utf8 "error: dump: encode failed: json: exceeded max depth\n" := by
  obtain ⟨tokens, htokens, -⟩ := tokens_of_parse (parse_sumText n)
  obtain ⟨hmet, hlisting⟩ := offers_meets (sumRun_meets (l := l) h)
  intro outcome
  have hsplit : (sumRun n).selectors = [] ++ sumText n :: [] := rfl
  have hrun : outcome = _ := run_meets hyaml rfl rfl hsplit (allGood_nil 0) hmet
  rw [hrun]
  refine ⟨rfl, hlisting.trans ?_, ?_⟩
  · rw [Config.listingText, htokens]
    rfl
  · exact (List.append_nil _).trans rfl

end Sums

theorem sumRun_refused_at_limit :
    (∃ tokens e, tokenize (sumText 10000) = .ok tokens ∧ parseTokens tokens = .ok e) ∧
      (sumRun 10000).strictVariables = false ∧ (sumRun 10000).query = [] ∧
      ((sumRun 10000).run bareSetting ⟨.onto .keep, .onto .keep⟩).code = 1 := by
  obtain ⟨tokens, htokens, he⟩ := tokens_of_parse (parse_sumText 10000)
  have hrefused := sumRun_refused Libraries.own_writesValues (Nat.le_refl maxJsonDepth)
  exact ⟨⟨tokens, _, htokens, he⟩, rfl, rfl, hrefused.1⟩

end NodePath
