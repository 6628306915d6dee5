import NodePath.Proofs.BindingFiles
import NodePath.Proofs.GrammarComplete
import NodePath.Proofs.GrammarSound
import NodePath.Proofs.SelectorRuns

/-!
# Bindings of the command line

The options of a command line are set one after the other, up to the first argument that is none. Only
the options that bind a variable touch the bindings, and only the one that names a bindings file
touches that, so the two kinds can change places. What the command line binds last counts, and what it
does not bind has what the file gives it.
-/

namespace NodePath

open NodePath.Text

/-- The arguments begin with options, of the names and values listed, before what is left of them. -/
inductive Options : List Bytes → List (Bytes × Bytes) → List Bytes → Prop where
  | none {left : List Bytes} : Options left [] left
  | inline {arg name value : Bytes} {target : FlagTarget} {rest left : List Bytes}
      {settings : List (Bytes × Bytes)} :
      argShape arg = .option name (some value) → flagTarget? name = some target →
      Options rest settings left → Options (arg :: rest) ((name, value) :: settings) left
  | bare {arg name : Bytes} {set : Bool → Flags → Flags} {rest left : List Bytes}
      {settings : List (Bytes × Bytes)} :
      argShape arg = .option name none → flagTarget? name = some (.switch set) →
      Options rest settings left → Options (arg :: rest) ((name, utf8 "true") :: settings) left
  | separate {arg name value : Bytes} {target : FlagTarget} {rest left : List Bytes}
      {settings : List (Bytes × Bytes)} :
      argShape arg = .option name none → flagTarget? name = some target →
      (∀ set, target ≠ .switch set) →
      Options rest settings left → Options (arg :: value :: rest) ((name, value) :: settings) left

/-- What is left has no more options, but operands only. -/
inductive OptionsEnd : List Bytes → List Bytes → Prop where
  | nil : OptionsEnd [] []
  | operand {arg : Bytes} {rest : List Bytes} : argShape arg = .operand →
      OptionsEnd (arg :: rest) (arg :: rest)
  | terminator {arg : Bytes} {rest : List Bytes} : argShape arg = .terminator →
      OptionsEnd (arg :: rest) rest

/-- The values that the options of one name have, in their order. -/
def valuesOf (name : Bytes) (settings : List (Bytes × Bytes)) : List Bytes :=
  (settings.filter fun setting => setting.1 = name).map Prod.snd

namespace Flags

def apply (flags : Flags) (setting : Bytes × Bytes) : Except FlagError Flags :=
  match flagTarget? setting.1 with
  | none => .error (.notDefined setting.1)
  | some target => setValue setting.1 setting.2 flags target

def withFile (path : Bytes) (flags : Flags) : Flags := { flags with variableFile := path }

/-- A way to set something that leaves the bindings and their file alone. -/
structure SetsAside {α : Type} (set : α → Flags → Flags) : Prop where
  bindings_eq : ∀ v f, (set v f).bindings = f.bindings
  variableFile_eq : ∀ v f, (set v f).variableFile = f.variableFile
  withFile_comm : ∀ v f path, set v (f.withFile path) = (set v f).withFile path

end Flags

open Flags

/-- What the option sets is no concern of the bindings, nor of the file that they may come from. -/
def FlagTarget.Aside : FlagTarget → Prop
  | .switch set => SetsAside set
  | .text set => SetsAside set
  | .binding => False

section OneBinding

variable {w : Bytes} {b b' : Bindings}

/-- A value that binds nothing: one without an equals sign, or without a name before it. -/
def Rejected (w : Bytes) : Prop := ascii '=' ∉ w ∨ ∃ value, Gives w [] value

theorem set_error_iff (b : Bindings) (w : Bytes) :
    (∃ cause, b.set w = .error cause) ↔ Rejected w := by
  constructor
  · rintro ⟨cause, herror⟩
    rw [Bindings.set] at herror
    split at herror
    · next hcut => exact .inl (cutAt_eq_none_iff.mp hcut)
    · next before value hcut =>
      split at herror
      · next hname =>
        exact .inr ⟨value, gives_iff.mpr ⟨before, hcut, List.isEmpty_iff.mp hname⟩⟩
      · cases herror
  · rintro (hsign | ⟨value, hgives⟩)
    · exact ⟨.noEqualsSign w, by rw [Bindings.set, cutAt_eq_none_iff.mpr hsign]⟩
    · obtain ⟨before, hcut, hname⟩ := gives_iff.mp hgives
      exact ⟨.noName, by simp [Bindings.set, hcut, hname]⟩

theorem set_ok (h : b.set w = .ok b') : ¬Rejected w ∧ ∃ key held, b' = b.insert key held ∧
    ∀ name value, Gives w name value ↔ name = key ∧ value = held := by
  refine ⟨fun hrejected => ?_, ?_⟩
  · obtain ⟨cause, herror⟩ := (set_error_iff b w).mpr hrejected
    rw [herror] at h
    cases h
  · rw [Bindings.set] at h
    split at h
    · cases h
    · next before held hcut =>
      split at h
      · cases h
      · cases h
        refine ⟨trim before, held, rfl, fun name value => ?_⟩
        simp [gives_iff, hcut, eq_comm, and_comm]

end OneBinding

section OneSetting

variable {name value : Bytes} {target : FlagTarget} {flags flags' : Flags}

theorem apply_eq (h : flagTarget? name = some target) (flags : Flags) :
    flags.apply (name, value) = setValue name value flags target := by
  rw [Flags.apply, h]

/-- There is one option that binds and one that names a file; the others set something else. -/
theorem flagTarget_cases (h : flagTarget? name = some target) :
    (name = utf8 "variable" ∧ target = .binding) ∨
    (name = utf8 "variable-file" ∧ target = .text withFile) ∨
    (name ≠ utf8 "variable" ∧ name ≠ utf8 "variable-file" ∧ target.Aside) := by
  obtain ⟨front, back, hoptions, -⟩ := List.lookup_eq_some_iff.mp h
  have hmem : (name, target) ∈ front ++ (name, target) :: back := by simp
  rw [← hoptions] at hmem
  simp only [List.mem_cons, Prod.mk.injEq, List.not_mem_nil, or_false] at hmem
  rcases hmem with ⟨rfl, rfl⟩ | ⟨rfl, rfl⟩ | ⟨rfl, rfl⟩ | ⟨rfl, rfl⟩ | ⟨rfl, rfl⟩ | ⟨rfl, rfl⟩ |
    ⟨rfl, rfl⟩ | ⟨rfl, rfl⟩
  case inr.inr.inr.inr.inr.inl => exact .inr (.inl ⟨rfl, rfl⟩)
  case inr.inr.inr.inr.inr.inr.inr => exact .inl ⟨rfl, rfl⟩
  all_goals exact .inr (.inr ⟨by decide, by decide, fun _ _ => rfl, fun _ _ => rfl, fun _ _ _ => rfl⟩)

theorem apply_ok (h : flags.apply (name, value) = .ok flags') :
    (name = utf8 "variable" ∧ flags.bindings.set value = .ok flags'.bindings ∧
      flags'.variableFile = flags.variableFile) ∨
    (name = utf8 "variable-file" ∧ flags' = flags.withFile value) ∨
    (name ≠ utf8 "variable" ∧ name ≠ utf8 "variable-file" ∧ flags'.bindings = flags.bindings ∧
      flags'.variableFile = flags.variableFile) := by
  unfold Flags.apply at h
  split at h
  · cases h
  · next target htarget =>
    rcases flagTarget_cases htarget with ⟨hname, rfl⟩ | ⟨hname, rfl⟩ | ⟨hname, hname', haside⟩
    · rw [setValue] at h
      split at h
      · cases h
      · next bindings hset =>
        cases h
        exact .inl ⟨hname, hset, rfl⟩
    · cases h
      exact .inr (.inl ⟨hname, rfl⟩)
    · refine .inr (.inr ⟨hname, hname', ?_⟩)
      cases target with
      | binding => cases haside
      | text set =>
        cases h
        exact ⟨haside.bindings_eq value flags, haside.variableFile_eq value flags⟩
      | switch set =>
        rw [setValue] at h
        split at h
        · cases h
        · next v hv =>
          cases h
          exact ⟨haside.bindings_eq v flags, haside.variableFile_eq v flags⟩

/-- Help is asked for by a name that is no option, never by a value. -/
theorem apply_error {setting : Bytes × Bytes} {cause : FlagError}
    (h : flags.apply setting = .error cause) : cause ≠ .help := by
  rintro rfl
  unfold Flags.apply setValue at h
  repeat' split at h
  all_goals cases h

/-- Which file is named makes no difference to the other options. -/
theorem apply_withFile {setting : Bytes × Bytes} (hname : setting.1 ≠ utf8 "variable-file")
    (path : Bytes) :
    (flags.withFile path).apply setting = (flags.apply setting).map (withFile path) := by
  unfold Flags.apply
  split
  · rfl
  · next target htarget =>
    rcases flagTarget_cases htarget with ⟨-, rfl⟩ | ⟨hfile, -⟩ | ⟨-, -, haside⟩
    · have hsame : (flags.withFile path).bindings = flags.bindings := rfl
      rw [setValue, setValue, hsame]
      cases flags.bindings.set setting.2 <;> rfl
    · exact absurd hfile hname
    · cases target with
      | binding => cases haside
      | text set => exact congrArg Except.ok (haside.withFile_comm setting.2 flags path)
      | switch set =>
        rw [setValue, setValue]
        split
        · rfl
        · next v hv => exact congrArg Except.ok (haside.withFile_comm v flags path)

end OneSetting

section AllSettings

variable {name value : Bytes} {flags flags' : Flags} {settings settings' : List (Bytes × Bytes)}
variable {cause : FlagError}

def Flags.applyAll (flags : Flags) (settings : List (Bytes × Bytes)) : Except FlagError Flags :=
  settings.foldlM Flags.apply flags

theorem applyAll_cons (flags : Flags) (setting : Bytes × Bytes) (settings : List (Bytes × Bytes)) :
    flags.applyAll (setting :: settings) = flags.apply setting >>= fun f => f.applyAll settings :=
  List.foldlM_cons

theorem valuesOf_cons_self (name value : Bytes) (settings : List (Bytes × Bytes)) :
    valuesOf name ((name, value) :: settings) = value :: valuesOf name settings := by
  simp [valuesOf]

theorem valuesOf_cons_of_ne {name' : Bytes} (h : name' ≠ name) (value : Bytes)
    (settings : List (Bytes × Bytes)) :
    valuesOf name ((name', value) :: settings) = valuesOf name settings := by
  simp [valuesOf, h]

theorem applyAll_ok (h : flags.applyAll settings = .ok flags') :
    Table.Updates Gives (valuesOf (utf8 "variable") settings) flags.bindings flags'.bindings ∧
    (flags.bindings.Ascending → flags'.bindings.Ascending) ∧
    flags'.variableFile =
      (valuesOf (utf8 "variable-file") settings).getLastD flags.variableFile ∧
    ∀ w ∈ valuesOf (utf8 "variable") settings, ¬Rejected w := by
  have hdistinct : utf8 "variable-file" ≠ utf8 "variable" := by decide
  induction settings generalizing flags with
  | nil =>
    cases h
    exact ⟨Table.Updates.nil, id, rfl, fun _ => nofun⟩
  | cons setting settings ih =>
    obtain ⟨name, value⟩ := setting
    obtain ⟨next, hnext, hrest⟩ := bind_ok (applyAll_cons flags _ settings ▸ h)
    obtain ⟨hupdates, hascending, hfile, haccepted⟩ := ih hrest
    rcases apply_ok hnext with ⟨rfl, hset, hsame⟩ | ⟨rfl, rfl⟩ | ⟨hbind, hname, hsame, hsamefile⟩
    · obtain ⟨hvalue, key, held, hinsert, hgives⟩ := set_ok hset
      rw [valuesOf_cons_self, valuesOf_cons_of_ne hdistinct.symm]
      rw [hinsert] at hupdates hascending
      refine ⟨hupdates.insert hgives, fun hsorted => hascending (hsorted.insert key held), ?_,
        List.forall_mem_cons.mpr ⟨hvalue, haccepted⟩⟩
      rw [hfile, hsame]
    · rw [valuesOf_cons_self, valuesOf_cons_of_ne hdistinct, List.getLastD_cons]
      exact ⟨hupdates, hascending, hfile, haccepted⟩
    · rw [valuesOf_cons_of_ne hbind, valuesOf_cons_of_ne hname]
      rw [hsame] at hupdates hascending
      rw [hsamefile] at hfile
      exact ⟨hupdates, hascending, hfile, haccepted⟩

theorem applyAll_error (h : flags.applyAll settings = .error cause) : cause ≠ .help := by
  induction settings generalizing flags with
  | nil => cases h
  | cons setting settings ih =>
    rw [applyAll_cons] at h
    cases hnext : flags.apply setting with
    | error cause' =>
      rw [hnext] at h
      cases h
      exact apply_error hnext
    | ok next =>
      rw [hnext] at h
      exact ih h

/-- The options that name a file. -/
def NamesFile (setting : Bytes × Bytes) : Prop := setting.1 = utf8 "variable-file"

instance : DecidablePred NamesFile := fun setting =>
  inferInstanceAs (Decidable (setting.1 = utf8 "variable-file"))

theorem applyAll_withFile (h : ∀ setting ∈ settings, ¬NamesFile setting) (path : Bytes) :
    (flags.withFile path).applyAll settings = (flags.applyAll settings).map (withFile path) := by
  induction settings generalizing flags with
  | nil => rfl
  | cons setting settings ih =>
    obtain ⟨hsetting, hrest⟩ := List.forall_mem_cons.mp h
    rw [applyAll_cons, applyAll_cons, apply_withFile hsetting]
    cases flags.apply setting with
    | error cause => rfl
    | ok next => exact ih hrest

theorem apply_file (path : Bytes) :
    flags.apply (utf8 "variable-file", path) = .ok (flags.withFile path) := rfl

/-- The options that name a file may as well be the last ones. -/
theorem applyAll_eq (flags : Flags) (settings : List (Bytes × Bytes)) :
    flags.applyAll settings = (do
      let next ← flags.applyAll (settings.filter fun setting => ¬NamesFile setting)
      next.applyAll (settings.filter NamesFile)) := by
  induction settings generalizing flags with
  | nil => rfl
  | cons setting settings ih =>
    by_cases hfile : NamesFile setting
    · rw [List.filter_cons_of_neg (by simpa using hfile),
        List.filter_cons_of_pos (by simpa using hfile)]
      obtain ⟨name, path⟩ := setting
      obtain rfl : name = utf8 "variable-file" := hfile
      have hothers : ∀ setting ∈ settings.filter fun setting => ¬NamesFile setting,
          ¬NamesFile setting := by
        simp
      rw [applyAll_cons, apply_file, ok_bind, ih, applyAll_withFile hothers]
      cases flags.applyAll (settings.filter fun setting => ¬NamesFile setting) with
      | error cause => rfl
      | ok next => rw [ok_bind, applyAll_cons, apply_file, ok_bind]; rfl
    · rw [List.filter_cons_of_pos (by simpa using hfile),
        List.filter_cons_of_neg (by simpa using hfile), applyAll_cons, applyAll_cons]
      cases flags.apply setting with
      | error cause => rfl
      | ok next => exact ih next

/-- The same options, in which those that name a file may have changed places with the others. -/
def FilesMoved (settings settings' : List (Bytes × Bytes)) : Prop :=
  settings.filter NamesFile = settings'.filter NamesFile ∧
    (settings.filter fun setting => ¬NamesFile setting) =
      settings'.filter fun setting => ¬NamesFile setting

theorem FilesMoved.applyAll_eq (h : FilesMoved settings settings') (flags : Flags) :
    flags.applyAll settings' = flags.applyAll settings := by
  rw [NodePath.applyAll_eq, NodePath.applyAll_eq flags settings, h.1, h.2]

end AllSettings

section Arguments

variable {args left operands : List Bytes} {settings : List (Bytes × Bytes)} {flags flags' : Flags}

theorem parseFlags_options (h : Options args settings left) (flags : Flags) :
    parseFlags flags args = flags.applyAll settings >>= fun f => parseFlags f left := by
  induction h generalizing flags with
  | none => rfl
  | @inline arg name value target rest left settings hshape htarget _ ih =>
    rw [parseFlags, hshape, applyAll_cons, apply_eq htarget]
    simp only [htarget]
    cases setValue name value flags target with
    | error cause => rfl
    | ok next => exact ih next
  | @bare arg name set rest left settings hshape htarget _ ih =>
    rw [parseFlags, hshape, applyAll_cons, apply_eq htarget]
    simp only [htarget]
    exact ih (set true flags)
  | @separate arg name value target rest left settings hshape htarget hvalue _ ih =>
    rw [parseFlags, hshape, applyAll_cons, apply_eq htarget]
    simp only [htarget]
    cases target with
    | switch set => exact absurd rfl (hvalue set)
    | text set => exact ih (set value flags)
    | binding =>
      cases setValue name value flags .binding with
      | error cause => rfl
      | ok next => exact ih next

theorem exists_options (h : parseFlags flags args = .ok (flags', operands)) :
    ∃ settings left, Options args settings left ∧ OptionsEnd left operands := by
  fun_induction parseFlags flags args with
  | case1 flags =>
    cases h
    exact ⟨[], [], .none, .nil⟩
  | case2 flags arg rest hshape =>
    cases h
    exact ⟨[], arg :: rest, .none, .operand hshape⟩
  | case3 flags arg rest hshape =>
    cases h
    exact ⟨[], arg :: operands, .none, .terminator hshape⟩
  | case4 => cases h
  | case5 => cases h
  | case6 => cases h
  | case7 flags arg name target value rest htarget hshape ih =>
    obtain ⟨next, -, hrest⟩ := bind_ok h
    obtain ⟨settings, left, hoptions, hend⟩ := ih next hrest
    exact ⟨(name, value) :: settings, left, .inline hshape htarget hoptions, hend⟩
  | case8 flags arg name set rest htarget hshape ih =>
    obtain ⟨settings, left, hoptions, hend⟩ := ih h
    exact ⟨(name, utf8 "true") :: settings, left, .bare hshape htarget hoptions, hend⟩
  | case9 => cases h
  | case10 flags arg name target value rest hvalue htarget hshape ih =>
    obtain ⟨next, -, hrest⟩ := bind_ok h
    obtain ⟨settings, left, hoptions, hend⟩ := ih next hrest
    exact ⟨(name, value) :: settings, left, .separate hshape htarget hvalue hoptions, hend⟩

theorem parseFlags_end (h : OptionsEnd left operands) (flags : Flags) :
    parseFlags flags left = .ok (flags, operands) := by
  cases h with
  | nil => rw [parseFlags]
  | operand hshape => rw [parseFlags, hshape]
  | terminator hshape => rw [parseFlags, hshape]

end Arguments

section Configuration

variable {files : Files} {program name value w : Bytes} {args args' left operands : List Bytes}
variable {settings settings' before after : List (Bytes × Bytes)} {config : Config}

/-- The bindings file that is named last, if it has a name, gives the name a value. -/
def FileGives (files : Files) (settings : List (Bytes × Bytes)) (name value : Bytes) : Prop :=
  ∃ path bound, (valuesOf (utf8 "variable-file") settings).getLast? = some path ∧ path ≠ [] ∧
    loadBindings files path = .ok bound ∧ bound.get? name = some value

theorem fileGives_iff {bound : Bindings}
    (hload : loadBindings files ((valuesOf (utf8 "variable-file") settings).getLastD []) = .ok bound) :
    FileGives files settings name value ↔ bound.get? name = some value := by
  have hnone : loadBindings files [] = .ok [] := rfl
  rw [List.getLastD_eq_getLast?] at hload
  rw [FileGives]
  cases hlast : (valuesOf (utf8 "variable-file") settings).getLast? with
  | none =>
    rw [hlast, Option.getD_none, hnone] at hload
    cases hload
    simp [Table.get?]
  | some path =>
    rw [hlast, Option.getD_some] at hload
    by_cases hpath : path = []
    · rw [hpath, hnone] at hload
      cases hload
      simp [hpath, Table.get?]
    · simp [hpath, hload]

theorem ofArgs_ok (h : Config.ofArgs files (program :: args) = .ok config) :
    ∃ flags fromFile, parseFlags {} args = .ok (flags, config.selectors) ∧
      loadBindings files flags.variableFile = .ok fromFile ∧
      config.bindings = Table.merge fromFile flags.bindings := by
  rw [Config.ofArgs] at h
  obtain ⟨⟨flags, operands⟩, hparse, h⟩ := bind_ok h
  obtain ⟨fromFile, hload, h⟩ := bind_ok h
  obtain ⟨-, -, h⟩ := bind_ok h
  cases h
  exact ⟨flags, fromFile, ok_of_mapError hparse, hload, rfl⟩

theorem ofArgs_bindings (h : Config.ofArgs files (program :: args) = .ok config)
    (hargs : Options args settings left) (hend : OptionsEnd left operands) :
    config.bindings.get? name = some value ↔
      Table.LastGiven Gives (valuesOf (utf8 "variable") settings) name value ∨
      Table.Unset Gives (valuesOf (utf8 "variable") settings) name ∧
        FileGives files settings name value := by
  obtain ⟨flags, fromFile, hparse, hload, hbindings⟩ := ofArgs_ok h
  rw [parseFlags_options hargs] at hparse
  obtain ⟨set, hset, hleft⟩ := bind_ok hparse
  rw [parseFlags_end hend] at hleft
  obtain ⟨rfl, -⟩ := Prod.mk.inj (Except.ok.inj hleft)
  obtain ⟨hupdates, hascending, hfile, -⟩ := applyAll_ok hset
  rw [hfile] at hload
  rw [hbindings, hupdates.merge (hascending List.Pairwise.nil) fromFile, fileGives_iff hload]

theorem ofArgs_filesMoved (hargs : Options args settings left) (hargs' : Options args' settings' left)
    (hmoved : FilesMoved settings settings') :
    Config.ofArgs files (program :: args') = Config.ofArgs files (program :: args) := by
  rw [Config.ofArgs, Config.ofArgs, parseFlags_options hargs, parseFlags_options hargs',
    hmoved.applyAll_eq]

/-- A value that binds nothing is as far as a command line is read, whatever stands before it. -/
theorem ofArgs_rejected (hw : Rejected w)
    (hargs : Options args (before ++ (utf8 "variable", w) :: after) left) :
    ∃ cause, Config.ofArgs files (program :: args) = .error (.flags cause) ∧ cause ≠ .help := by
  have hmem : w ∈ valuesOf (utf8 "variable") (before ++ (utf8 "variable", w) :: after) := by
    simp [valuesOf]
  cases hset : Flags.applyAll {} (before ++ (utf8 "variable", w) :: after) with
  | ok flags => exact absurd hw ((applyAll_ok hset).2.2.2 w hmem)
  | error cause =>
    refine ⟨cause, ?_, applyAll_error hset⟩
    rw [Config.ofArgs, parseFlags_options hargs, hset]
    rfl

theorem exit_flags {cause : FlagError} (h : cause ≠ .help) :
    (ConfigError.flags cause).exit =
      .usage (utf8 "Error: " ++ (ConfigError.flags cause).message ++ utf8 "\n\n" ++ usage) := by
  cases cause with
  | help => exact absurd rfl h
  | _ => rfl

/-- A variable has what the last option that binds it gives it, as it stands there, or else what the
bindings file gives it. It does not matter where among the options the file is named. An option that
is given a value that binds nothing leaves the bindings as they are and ends in a usage error. -/
theorem flag_bindings_override_file (files : Files) (program : Bytes) (args : List Bytes) :
    (∀ config, Config.ofArgs files (program :: args) = .ok config →
      (∃ settings left, Options args settings left ∧ OptionsEnd left config.selectors) ∧
      ∀ settings left operands, Options args settings left → OptionsEnd left operands →
        ∀ name value, config.bindings.get? name = some value ↔
          Table.LastGiven Gives (valuesOf (utf8 "variable") settings) name value ∨
          Table.Unset Gives (valuesOf (utf8 "variable") settings) name ∧
            FileGives files settings name value) ∧
    (∀ args' settings settings' left, Options args settings left → Options args' settings' left →
      FilesMoved settings settings' →
      Config.ofArgs files (program :: args') = Config.ofArgs files (program :: args)) ∧
    (∀ (b : Bindings) w, (∃ cause, b.set w = .error cause) ↔ Rejected w) ∧
    ∀ w, Rejected w → (∀ b : Bindings, (b.set w).toOption.getD b = b) ∧
      ∀ before after left, Options args (before ++ (utf8 "variable", w) :: after) left →
        ∃ cause, Config.ofArgs files (program :: args) = .error (.flags cause) ∧
          (ConfigError.flags cause).exit = .usage (utf8 "Error: " ++
            (ConfigError.flags cause).message ++ utf8 "\n\n" ++ usage) := by
  refine ⟨fun config h => ⟨?_, ?_⟩, ?_, set_error_iff, fun w hw => ⟨fun b => ?_, ?_⟩⟩
  · obtain ⟨flags, fromFile, hparse, -⟩ := ofArgs_ok h
    exact exists_options hparse
  · intro settings left operands hargs hend name value
    exact ofArgs_bindings h hargs hend
  · intro args' settings settings' left hargs hargs' hmoved
    exact ofArgs_filesMoved hargs hargs' hmoved
  · obtain ⟨cause, herror⟩ := (set_error_iff b w).mpr hw
    rw [herror]
    rfl
  · intro before after left hargs
    obtain ⟨cause, herror, hhelp⟩ := ofArgs_rejected hw hargs
    exact ⟨cause, herror, exit_flags hhelp⟩

/-- The file binds one variable that the command line binds twice, and one that it does not bind. -/
def variableFiles : Files := .ofDirectory [(utf8 "vars", utf8 "x = of the file\ny = of the file")]

def fileBetween : List Bytes :=
  [utf8 "-variable", utf8 " x = first", utf8 "--variable-file=vars", utf8 "-tokens",
    utf8 "-variable=x= last ", utf8 "//p"]

def fileFirst : List Bytes :=
  [utf8 "-variable-file", utf8 "vars", utf8 "-variable", utf8 " x = first", utf8 "-tokens",
    utf8 "-variable=x= last ", utf8 "//p"]

theorem flag_bindings_override_file_twice :
    (∃ config, Config.ofArgs variableFiles (utf8 "selector" :: fileBetween) = .ok config ∧
      ∀ name value, config.bindings.get? name = some value ↔
        Table.LastGiven Gives [utf8 " x = first", utf8 "x= last "] name value ∨
        Table.Unset Gives [utf8 " x = first", utf8 "x= last "] name ∧
          FileGives variableFiles [(utf8 "variable-file", utf8 "vars")] name value) ∧
    Config.ofArgs variableFiles (utf8 "selector" :: fileFirst) =
      Config.ofArgs variableFiles (utf8 "selector" :: fileBetween) ∧
    ∃ cause, Config.ofArgs variableFiles [utf8 "selector", utf8 "-variable", utf8 " =1"] =
      .error (.flags cause) := by
  have hbetween : Options fileBetween
      [(utf8 "variable", utf8 " x = first"), (utf8 "variable-file", utf8 "vars"),
        (utf8 "tokens", utf8 "true"), (utf8 "variable", utf8 "x= last ")] [utf8 "//p"] :=
    .separate rfl rfl nofun (.inline rfl rfl (.bare rfl rfl (.inline rfl rfl .none)))
  have hfirst : Options fileFirst
      [(utf8 "variable-file", utf8 "vars"), (utf8 "variable", utf8 " x = first"),
        (utf8 "tokens", utf8 "true"), (utf8 "variable", utf8 "x= last ")] [utf8 "//p"] :=
    .separate rfl rfl nofun (.separate rfl rfl nofun (.bare rfl rfl (.inline rfl rfl .none)))
  have hnameless : Options [utf8 "-variable", utf8 " =1"] [(utf8 "variable", utf8 " =1")] [] :=
    .separate rfl rfl nofun .none
  refine ⟨?_, ?_, ?_⟩
  · obtain ⟨config, hconfig⟩ : ∃ config,
        Config.ofArgs variableFiles (utf8 "selector" :: fileBetween) = .ok config :=
      exists_of_isOk (by decide +kernel)
    exact ⟨config, hconfig, ((flag_bindings_override_file variableFiles _ _).1 config hconfig).2
      _ _ _ hbetween (.operand rfl)⟩
  · exact (flag_bindings_override_file variableFiles _ _).2.1 _ _ _ _ hbetween hfirst
      ⟨by decide +kernel, by decide +kernel⟩
  · have hrejected : Rejected (utf8 " =1") := .inr ⟨utf8 "1", [0x20], rfl, by decide, by decide⟩
    obtain ⟨cause, hcause, -⟩ :=
      ((flag_bindings_override_file variableFiles _ _).2.2.2 _ hrejected).2 [] [] [] hnameless
    exact ⟨cause, hcause⟩

end Configuration

end NodePath
