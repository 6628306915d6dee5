import Mathlib.Tactic.MkIffOfInductiveProp
import NodePath.Config.Basic
import NodePath.Proofs.Lexemes
import NodePath.Proofs.Tables
import NodePath.Proofs.Tiling
import NodePath.Proofs.Trimming

/-!
# Reading bindings files

A line of a bindings file is ignored, binds a name or cannot be read, whatever stands on the other
lines. A file is read when all of its lines can be, and then the last line that binds a name counts;
otherwise the first line that cannot be read is named. A table that is written down line by line, in
whatever order, is read back.
-/

namespace NodePath

open NodePath.Text

section Gives

variable {text name value : Bytes}

/-- A text gives the name before its first equals sign all that stands behind the sign. -/
def Gives (text name value : Bytes) : Prop :=
  ∃ before, text = before ++ ascii '=' :: value ∧ ascii '=' ∉ before ∧ trim before = name

theorem gives_iff : Gives text name value ↔
    ∃ before, cutAt (ascii '=') text = some (before, value) ∧ trim before = name := by
  simp [Gives, cutAt_eq_some_iff, and_assoc]

end Gives

namespace BindingLine

variable {line name value : Bytes} {number : Nat}

/-- A line with nothing but white space, or with a number sign in front. -/
def Ignored (line : Bytes) : Prop := trim line = [] ∨ (trim line).head? = some (ascii '#')

instance : DecidablePred Ignored := fun _ => inferInstanceAs (Decidable (_ ∨ _))

/-- A line that is not ignored binds the name before its first equals sign, if it has one there. -/
def Binds (line name value : Bytes) : Prop :=
  ¬Ignored line ∧ name ≠ [] ∧ ∃ after, Gives (trim line) name after ∧ trim after = value

def Readable (line : Bytes) : Prop := Ignored line ∨ ∃ name value, Binds line name value

/-- What is wrong with a line that cannot be read. -/
def fault (number : Nat) (line : Bytes) : BindingLineError :=
  if ascii '=' ∈ line then .noName number line else .noEqualsSign number line

theorem readBindingLine_ignored (h : Ignored line) :
    readBindingLine number (trim line) = .ok none := by
  rcases h with h | h <;> simp [readBindingLine, h]

theorem readBindingLine_binds (h : Binds line name value) :
    readBindingLine number (trim line) = .ok (some (name, value)) := by
  obtain ⟨hread, hname, after, hgives, rfl⟩ := h
  obtain ⟨before, hcut, rfl⟩ := gives_iff.mp hgives
  rw [Ignored, not_or] at hread
  simp [readBindingLine, hread, hcut, hname]

theorem readBindingLine_unreadable (h : ¬Readable line) :
    readBindingLine number (trim line) = .error (fault number (trim line)) := by
  rw [Readable, not_or] at h
  obtain ⟨hread, hbinds⟩ := h
  have hnot := hread
  rw [Ignored, not_or] at hnot
  cases hcut : cutAt (ascii '=') (trim line) with
  | none =>
    have hsign : ascii '=' ∉ trim line := cutAt_eq_none_iff.mp hcut
    simp [readBindingLine, fault, hnot, hcut, hsign]
  | some cut =>
    obtain ⟨before, after⟩ := cut
    have hsign : ascii '=' ∈ trim line := by simp [(cutAt_eq_some_iff.mp hcut).1]
    -- Only the name can be missing, or else the line would bind it.
    have hblank : trim before = [] := by
      by_contra hname
      exact hbinds ⟨trim before, trim after, hread, hname, after, gives_iff.mpr ⟨before, hcut, rfl⟩, rfl⟩
    simp [readBindingLine, fault, hnot, hcut, hsign, hblank]

theorem Binds.unique {name' value' : Bytes} (h : Binds line name value)
    (h' : Binds line name' value') : name' = name ∧ value' = value := by
  have hread : readBindingLine 1 (trim line) = .ok (some (name, value)) := readBindingLine_binds h
  rw [readBindingLine_binds h'] at hread
  simpa using hread

/-- The message of a fault names the line by its number. -/
theorem fault_message (number : Nat) (line : Bytes) :
    ∃ what more, (fault number line).message =
      what ++ utf8 " at line " ++ decimal number ++ utf8 ": " ++ line ++ more := by
  unfold fault
  split
  · exact ⟨utf8 "empty key", [], by simp only [List.append_nil]; rfl⟩
  · exact ⟨utf8 "invalid format", utf8 " (expected key=value)", rfl⟩

end BindingLine

open BindingLine

section Lines

variable {lines before after : List Bytes} {line : Bytes}

theorem readBindingLines_readable (number : Nat) (t : Bindings) (h : ∀ line ∈ lines, Readable line) :
    ∃ bound, readBindingLines number t lines = .ok bound ∧ Table.Updates Binds lines t bound ∧
      (t.Ascending → bound.Ascending) := by
  induction lines generalizing number t with
  | nil => exact ⟨t, rfl, Table.Updates.nil, id⟩
  | cons line lines ih =>
    obtain ⟨hline, hlines⟩ := List.forall_mem_cons.mp h
    rcases hline with hignored | ⟨name, value, hbinds⟩
    · obtain ⟨bound, hbound, hupdates, hascending⟩ := ih (number + 1) t hlines
      have hsilent : ∀ name value, ¬Binds line name value := fun _ _ hbinds => hbinds.1 hignored
      refine ⟨bound, ?_, hupdates.skip hsilent, hascending⟩
      rw [readBindingLines, readBindingLine_ignored hignored]
      exact hbound
    · obtain ⟨bound, hbound, hupdates, hascending⟩ := ih (number + 1) (t.insert name value) hlines
      have honly : ∀ name' value', Binds line name' value' ↔ name' = name ∧ value' = value := by
        refine fun name' value' => ⟨hbinds.unique, ?_⟩
        rintro ⟨rfl, rfl⟩
        exact hbinds
      refine ⟨bound, ?_, hupdates.insert honly, fun ht => hascending (ht.insert name value)⟩
      rw [readBindingLines, readBindingLine_binds hbinds]
      exact hbound

theorem readBindingLines_unreadable (number : Nat) (t : Bindings)
    (hbefore : ∀ line ∈ before, Readable line) (hline : ¬Readable line) :
    readBindingLines number t (before ++ line :: after) =
      .error (fault (number + before.length) (trim line)) := by
  induction before generalizing number t with
  | nil =>
    rw [List.nil_append, readBindingLines, readBindingLine_unreadable hline]
    rfl
  | cons first before ih =>
    obtain ⟨hfirst, hrest⟩ := List.forall_mem_cons.mp hbefore
    have hnumber : number + (first :: before).length = number + 1 + before.length := by
      rw [List.length_cons]
      omega
    rw [List.cons_append, readBindingLines, hnumber]
    rcases hfirst with hignored | ⟨name, value, hbinds⟩
    · rw [readBindingLine_ignored hignored]
      exact ih (number + 1) t hrest
    · rw [readBindingLine_binds hbinds]
      exact ih (number + 1) (t.insert name value) hrest

/-- Unless all lines can be read there is a first one that cannot. -/
theorem exists_first_unreadable (h : ¬∀ line ∈ lines, Readable line) :
    ∃ before line after, lines = before ++ line :: after ∧ (∀ l ∈ before, Readable l) ∧
      ¬Readable line := by
  induction lines with
  | nil => exact absurd (fun _ => nofun) h
  | cons first lines ih =>
    by_cases hfirst : Readable first
    · rw [List.forall_mem_cons, not_and] at h
      obtain ⟨before, line, after, rfl, hbefore, hline⟩ := ih (h hfirst)
      exact ⟨first :: before, line, after, rfl, List.forall_mem_cons.mpr ⟨hfirst, hbefore⟩, hline⟩
    · exact ⟨[], first, lines, rfl, fun _ => nofun, hfirst⟩

end Lines

section Written

variable {entry : Bytes × Bytes} {bound : Bindings} {lines : List Bytes} {name value : Bytes}

/-- A name and a value that can be written down in one line. -/
@[mk_iff]
structure Storable (entry : Bytes × Bytes) : Prop where
  named : entry.1 ≠ []
  name_trimmed : trim entry.1 = entry.1
  no_equals_sign : ascii '=' ∉ entry.1
  name_one_line : newline ∉ entry.1
  no_number_sign : entry.1.head? ≠ some (ascii '#')
  value_trimmed : trim entry.2 = entry.2
  value_one_line : newline ∉ entry.2

instance : DecidablePred Storable := fun entry => decidable_of_iff _ (storable_iff entry).symm

def entryLine (entry : Bytes × Bytes) : Bytes := entry.1 ++ ascii '=' :: entry.2

theorem Storable.trim_entryLine (h : Storable entry) : trim (entryLine entry) = entryLine entry :=
  trim_joined (by decide) (by decide) h.named h.name_trimmed h.value_trimmed

theorem Storable.newline_not_mem (h : Storable entry) : newline ∉ entryLine entry := by
  have hsign : newline ≠ ascii '=' := by decide
  simp [entryLine, h.name_one_line, h.value_one_line, hsign]

theorem Storable.binds (h : Storable entry) : Binds (entryLine entry) entry.1 entry.2 := by
  refine ⟨?_, h.named, entry.2, ?_, h.value_trimmed⟩
  · rw [Ignored, h.trim_entryLine, not_or]
    refine ⟨by simp [entryLine], ?_⟩
    rw [entryLine, List.head?_append_of_ne_nil _ h.named]
    exact h.no_number_sign
  · exact ⟨entry.1, h.trim_entryLine, h.no_equals_sign, h.name_trimmed⟩

/-- The lines are those of the entries, in some order, with ignored lines in between. -/
structure WrittenAs (bound : Bindings) (lines : List Bytes) : Prop where
  entries : (lines.filter fun line => ¬Ignored line).Perm (bound.map entryLine)
  one_line : ∀ line ∈ lines, Ignored line → newline ∉ line

theorem WrittenAs.line_cases (h : WrittenAs bound lines) {line : Bytes} (hline : line ∈ lines) :
    Ignored line ∨ ∃ entry ∈ bound, entryLine entry = line := by
  by_cases hignored : Ignored line
  · exact .inl hignored
  · have hmem : line ∈ lines.filter fun line => ¬Ignored line :=
      List.mem_filter.mpr ⟨hline, by simpa using hignored⟩
    exact .inr (List.mem_map.mp (h.entries.mem_iff.mp hmem))

theorem WrittenAs.mem_lines (h : WrittenAs bound lines) (hentry : entry ∈ bound) :
    entryLine entry ∈ lines :=
  List.mem_of_mem_filter (h.entries.mem_iff.mpr (List.mem_map_of_mem hentry))

theorem WrittenAs.readable (h : WrittenAs bound lines) (hbound : ∀ entry ∈ bound, Storable entry) :
    ∀ line ∈ lines, Readable line := by
  intro line hline
  rcases h.line_cases hline with hignored | ⟨entry, hentry, rfl⟩
  · exact .inl hignored
  · exact .inr ⟨entry.1, entry.2, (hbound entry hentry).binds⟩

theorem WrittenAs.mem_of_lastGiven (h : WrittenAs bound lines)
    (hbound : ∀ entry ∈ bound, Storable entry) (hlast : Table.LastGiven Binds lines name value) :
    (name, value) ∈ bound := by
  obtain ⟨front, line, back, rfl, hbinds, -⟩ := hlast
  have hline : line ∈ front ++ line :: back := by simp
  rcases h.line_cases hline with hignored | ⟨entry, hentry, rfl⟩
  · exact absurd hignored hbinds.1
  · obtain ⟨rfl, rfl⟩ := (hbound entry hentry).binds.unique hbinds
    exact hentry

/-- No name has two lines, so the last one is the only one. -/
theorem WrittenAs.lastGiven_iff (h : WrittenAs bound lines)
    (hbound : ∀ entry ∈ bound, Storable entry) (hascending : bound.Ascending) :
    Table.LastGiven Binds lines name value ↔ bound.get? name = some value := by
  rw [← hascending.mem_iff]
  refine ⟨h.mem_of_lastGiven hbound, fun hentry => ?_⟩
  obtain ⟨last, hlast⟩ := Table.exists_lastGiven (h.mem_lines hentry) (hbound _ hentry).binds
  have hvalue := hascending.mem_iff.mp (h.mem_of_lastGiven hbound hlast)
  rw [hascending.mem_iff.mp hentry] at hvalue
  cases hvalue
  exact hlast

/-- The pieces of a written text are lines of the same table; a text of no lines is one empty line. -/
theorem WrittenAs.split (h : WrittenAs bound lines) (hbound : ∀ entry ∈ bound, Storable entry) :
    WrittenAs bound (([newline].intercalate lines).splitOn newline) := by
  by_cases hnone : lines = []
  · subst hnone
    have hempty : Ignored [] := .inl rfl
    refine ⟨by simpa [hempty] using h.entries, fun line hline _ => ?_⟩
    obtain rfl : line = [] := List.mem_singleton.mp hline
    exact List.not_mem_nil
  · have honeline : ∀ line ∈ lines, newline ∉ line := by
      intro line hline
      rcases h.line_cases hline with hignored | ⟨entry, hentry, rfl⟩
      · exact h.one_line line hline hignored
      · exact (hbound entry hentry).newline_not_mem
    rwa [List.splitOn_intercalate newline honeline hnone]

end Written

section Files

variable {files : Files} {path content : Bytes}

theorem loadBindings_eq (hpath : path ≠ []) (hread : files.read path = .ok content) :
    loadBindings files path =
      (readBindingLines 1 [] (content.splitOn newline)).mapError .variableFileMalformed := by
  rw [loadBindings, if_neg (by simpa using hpath), hread, ← splitAt_eq_splitOn]
  rfl

theorem loadBindings_readable (hpath : path ≠ []) (hread : files.read path = .ok content)
    (h : ∀ line ∈ content.splitOn newline, Readable line) :
    ∃ bound, loadBindings files path = .ok bound ∧ bound.Ascending ∧ ∀ name value,
      bound.get? name = some value ↔
        Table.LastGiven Binds (content.splitOn newline) name value := by
  obtain ⟨bound, hbound, hupdates, hascending⟩ := readBindingLines_readable 1 [] h
  refine ⟨bound, ?_, hascending List.Pairwise.nil, fun name value => hupdates.get?_iff⟩
  rw [loadBindings_eq hpath hread, hbound]
  rfl

theorem loadBindings_unreadable (hpath : path ≠ []) (hread : files.read path = .ok content)
    (h : ¬∀ line ∈ content.splitOn newline, Readable line) :
    ∃ before line after, content.splitOn newline = before ++ line :: after ∧
      (∀ l ∈ before, Readable l) ∧ ¬Readable line ∧
      loadBindings files path =
        .error (.variableFileMalformed (fault (before.length + 1) (trim line))) := by
  obtain ⟨before, line, after, hlines, hbefore, hline⟩ := exists_first_unreadable h
  refine ⟨before, line, after, hlines, hbefore, hline, ?_⟩
  rw [loadBindings_eq hpath hread, hlines, readBindingLines_unreadable 1 [] hbefore hline,
    Nat.add_comm]
  rfl

theorem readable_of_loadBindings (hpath : path ≠ []) (hread : files.read path = .ok content)
    {bound : Bindings} (h : loadBindings files path = .ok bound) :
    ∀ line ∈ content.splitOn newline, Readable line := by
  by_contra hnot
  obtain ⟨before, line, after, -, -, -, herror⟩ := loadBindings_unreadable hpath hread hnot
  rw [herror] at h
  cases h

theorem loadBindings_error (hpath : path ≠ []) (hread : files.read path = .ok content)
    {e : ConfigError} (h : loadBindings files path = .error e) :
    ∃ before line after, content.splitOn newline = before ++ line :: after ∧
      (∀ l ∈ before, Readable l) ∧ ¬Readable line ∧
      e = .variableFileMalformed (fault (before.length + 1) (trim line)) := by
  have hnot : ¬∀ line ∈ content.splitOn newline, Readable line := by
    intro hreadable
    obtain ⟨bound, hbound, -⟩ := loadBindings_readable hpath hread hreadable
    rw [hbound] at h
    cases h
  obtain ⟨before, line, after, hlines, hbefore, hline, herror⟩ :=
    loadBindings_unreadable hpath hread hnot
  exact ⟨before, line, after, hlines, hbefore, hline, Except.error.inj (h.symm.trans herror)⟩

theorem loadBindings_written {bound : Bindings} {lines : List Bytes} (hpath : path ≠ [])
    (hread : files.read path = .ok ([newline].intercalate lines)) (hascending : bound.Ascending)
    (hbound : ∀ entry ∈ bound, Storable entry) (hwritten : WrittenAs bound lines) :
    loadBindings files path = .ok bound := by
  have hsplit := hwritten.split hbound
  obtain ⟨bound', hload, hascending', hget⟩ :=
    loadBindings_readable hpath hread (hsplit.readable hbound)
  rw [hload, hascending'.ext hascending fun name => ?_]
  refine Option.ext fun value => ?_
  rw [hget, hsplit.lastGiven_iff hbound hascending]

/-- A bindings file is read when each of its lines can be. Then a name has what the last line that
binds it gives it, and other names have nothing. Otherwise the error is for the first line that
cannot be read and names it by its number. What is written down from a table is read as the table. -/
theorem bindings_file_read_exactly (files : Files) (path content : Bytes) (hpath : path ≠ [])
    (hread : files.read path = .ok content) :
    ((∃ bound, loadBindings files path = .ok bound) ↔
      ∀ line ∈ content.splitOn newline, Readable line) ∧
    (∀ bound, loadBindings files path = .ok bound → ∀ name value,
      bound.get? name = some value ↔
        Table.LastGiven Binds (content.splitOn newline) name value) ∧
    (∀ e, loadBindings files path = .error e → ∃ before line after,
      content.splitOn newline = before ++ line :: after ∧
      (∀ l ∈ before, Readable l) ∧ ¬Readable line ∧
      e = .variableFileMalformed (fault (before.length + 1) (trim line)) ∧
      ∃ what more, e.message = what ++ utf8 " at line " ++ decimal (before.length + 1) ++
        utf8 ": " ++ trim line ++ more) ∧
    ∀ bound lines, bound.Ascending → (∀ entry ∈ bound, Storable entry) → WrittenAs bound lines →
      content = [newline].intercalate lines → loadBindings files path = .ok bound := by
  refine ⟨⟨?_, fun h => ?_⟩, fun bound hbound => ?_, fun e he => ?_, ?_⟩
  · rintro ⟨bound, hbound⟩
    exact readable_of_loadBindings hpath hread hbound
  · obtain ⟨bound, hbound, -⟩ := loadBindings_readable hpath hread h
    exact ⟨bound, hbound⟩
  · have hreadable := readable_of_loadBindings hpath hread hbound
    obtain ⟨bound', hbound', -, hget⟩ := loadBindings_readable hpath hread hreadable
    obtain rfl : bound' = bound := Except.ok.inj (hbound'.symm.trans hbound)
    exact hget
  · obtain ⟨before, line, after, hlines, hbefore, hline, rfl⟩ := loadBindings_error hpath hread he
    obtain ⟨what, more, hmessage⟩ := fault_message (before.length + 1) (trim line)
    refine ⟨before, line, after, hlines, hbefore, hline, rfl,
      utf8 "failed to load variable file: " ++ what, more, ?_⟩
    rw [ConfigError.message, hmessage]
    simp only [List.append_assoc]
  · rintro bound lines hascending hbound hwritten rfl
    exact loadBindings_written hpath hread hascending hbound hwritten

/-- Two lines that bind, behind a remark and around a line of white space. -/
def unitLines : List Bytes :=
  [utf8 "# units", utf8 "limit=a = b", utf8 "\u00a0\r", utf8 "entity=ORG"]

def unitBindings : Bindings := [(utf8 "entity", utf8 "ORG"), (utf8 "limit", utf8 "a = b")]

def repeated : Bytes := utf8 "x = 1\r\n\r\nx = 2\r\n"

def nameless : Bytes := utf8 "x=1\n#\n = 2\ny"

def bindingFiles : Files :=
  .ofDirectory
    [ (utf8 "nameless", nameless),
      (utf8 "repeated", repeated),
      (utf8 "units", [newline].intercalate unitLines) ]

theorem bindings_file_read_exactly_units :
    (∀ name value, Table.get? [(utf8 "x", utf8 "2")] name = some value ↔
      Table.LastGiven Binds (repeated.splitOn newline) name value) ∧
    (∃ before line after, nameless.splitOn newline = before ++ line :: after ∧
      (∀ l ∈ before, Readable l) ∧ ¬Readable line ∧
      ConfigError.variableFileMalformed (.noName 3 (utf8 "= 2")) =
        .variableFileMalformed (fault (before.length + 1) (trim line))) ∧
    loadBindings bindingFiles (utf8 "units") = .ok unitBindings := by
  have hpath : utf8 "nameless" ≠ [] ∧ utf8 "repeated" ≠ [] ∧ utf8 "units" ≠ [] := by decide
  have hnameless : bindingFiles.read (utf8 "nameless") = .ok nameless :=
    eq_ok_of_toOption (by decide +kernel)
  have hrepeated : bindingFiles.read (utf8 "repeated") = .ok repeated :=
    eq_ok_of_toOption (by decide +kernel)
  have hunits : bindingFiles.read (utf8 "units") = .ok ([newline].intercalate unitLines) :=
    eq_ok_of_toOption (by decide +kernel)
  refine ⟨?_, ?_, ?_⟩
  · exact (bindings_file_read_exactly bindingFiles _ _ hpath.2.1 hrepeated).2.1 _
      (eq_ok_of_toOption (by decide +kernel))
  · have hload : loadBindings bindingFiles (utf8 "nameless") =
        .error (.variableFileMalformed (.noName 3 (utf8 "= 2"))) :=
      eq_error_of_match (by decide +kernel)
    obtain ⟨before, line, after, hlines, hbefore, hline, he, -⟩ :=
      (bindings_file_read_exactly bindingFiles _ _ hpath.1 hnameless).2.2.1 _ hload
    exact ⟨before, line, after, hlines, hbefore, hline, he⟩
  · have hascending : unitBindings.Ascending := by
      unfold Table.Ascending
      decide +kernel
    exact (bindings_file_read_exactly bindingFiles _ _ hpath.2.2 hunits).2.2.2 unitBindings unitLines
      hascending (by decide +kernel) ⟨by decide +kernel, by decide +kernel⟩ rfl

end Files

end NodePath
