import NodePath.Proofs.DumpExact
import NodePath.Proofs.JsonDepth
import NodePath.Proofs.JsonRoundTrip

/-!
# The JSON texts of trees

The record of a tree that was read has proper texts only: words, numerals and signs are characters,
and a literal holds no stray byte, for none can stand between quotes. So the JSON text of the record
is read back as the record, unless the record is nested too deeply to have one.
-/

namespace NodePath

open NodePath.Text NodePath.Number

section Texts

variable {s : Bytes}

theorem IsName.isWellFormed (h : IsName s) : isWellFormed s = true := h.1.isWellFormed

theorem QName.isWellFormed_text {q : QName} (h : q.WellFormed) : isWellFormed q.text = true := by
  rw [QName.text]
  rcases h.1 with hspace | hspace
  · rw [hspace]
    exact h.2.isWellFormed
  · rw [if_neg (by simpa using hspace.1.ne_nil)]
    exact isWellFormed_append (isWellFormed_append hspace.isWellFormed (isWellFormed_utf8 ":"))
      h.2.isWellFormed

theorem NumberLit.isWellFormed_text {n : NumberLit} (h : n.WellFormed) :
    isWellFormed n.text = true := by
  rcases h with ⟨i, hlow, -, rfl⟩ | ⟨x, hx, rfl⟩
  · obtain ⟨m, rfl⟩ := Int.eq_ofNat_of_zero_le hlow
    exact (isNumeral_decimal m).isWellFormed
  · obtain ⟨ws, ds, htext, hws, hds, -⟩ := text_reads_back hx
    rw [htext]
    exact isWellFormed_append hws.isWellFormed
      (isWellFormed_append (isWellFormed_utf8 ".") hds.isWellFormed)

theorem FunctionName.isWellFormed_text {f : FunctionName} {args : List Expr} (h : f.Takes args) :
    isWellFormed f.text = true := by
  obtain ⟨builtin, ident⟩ := f
  rcases h with ⟨rfl, hname, -⟩ | ⟨rfl | rfl, -, -⟩
  · exact hname.isWellFormed
  · exact isWellFormed_utf8 "true"
  · exact isWellFormed_utf8 "false"

theorem Operator.isWellFormed_written {op : Operator} {c : Comparison} (h : op.Takes c) :
    isWellFormed (op.written c) = true := by
  have hall : ∀ p ∈ operations, isWellFormed (p.1.written p.2) = true := by decide
  exact hall _ h.mem

theorem isWellFormed_nodeType (h : isNodeType s = true) : isWellFormed s = true := by
  have hall : ∀ type ∈ nodeTypes, isWellFormed type = true := by decide
  exact hall s (List.contains_iff_mem.mp h)

theorem Axis.isWellFormed_name {a : Axis} (h : a.WellFormed) : isWellFormed a.name = true := by
  have hall : ∀ name ∈ axisNames, isWellFormed name = true := by decide
  exact hall a.name h.wellMade.1

end Texts

section Fields

variable {fields : List (String × Value)} {rs : List Record}

@[simp]
theorem proper_text (s : Bytes) : (Value.text s).Proper ↔ isWellFormed s = true :=
  ⟨fun h => by cases h with | text hs => exact hs, .text⟩

@[simp]
theorem proper_flag (b : Bool) : (Value.flag b).Proper := .flag b

/-- Fields with proper values make a proper record, in whatever order they are given. -/
theorem Value.Proper.ofFields (h : ∀ field ∈ fields, field.2.Proper) :
    (Value.record (Record.ofFields fields)).Proper := by
  refine .record (ascending_ofFields fields) ?_ ?_
  · intro entry hentry
    obtain ⟨field, -, rfl⟩ := mem_ofFields hentry
    exact isWellFormed_utf8 field.1
  · intro entry hentry
    obtain ⟨field, hfield, rfl⟩ := mem_ofFields hentry
    exact h field hfield

theorem proper_records (h : ∀ r ∈ rs, (Value.record r).Proper) : (Value.records rs).Proper := by
  refine .list fun v hv => ?_
  obtain ⟨r, hr, rfl⟩ := List.mem_map.mp hv
  exact h r hr

theorem pathRecord_proper (h : ∀ r ∈ rs, (Value.record r).Proper) :
    (Value.record (pathRecord rs)).Proper :=
  .ofFields (by simp [kindField, proper_records h])

end Fields

theorem NameTest.proper {t : NameTest} (h : t.WellFormed) :
    (Value.record (Record.ofFields (kindField "name_test" :: t.fields))).Proper := by
  apply Value.Proper.ofFields
  rcases h with rfl | ⟨space, hspace, rfl⟩ | ⟨⟨space, name⟩, ⟨hspace, hname⟩, rfl⟩
  · simp [NameTest.fields_any, kindField, textField]
  · simp [NameTest.fields_anyIn, kindField, textField, hspace.isWellFormed]
  · rw [NameTest.fields_qualified]
    rcases hspace with hspace | hspace
    · have hnil : space = [] := hspace
      simp [kindField, textField, hnil, hname.isWellFormed]
    · have hne : space ≠ [] := hspace.1.ne_nil
      simp [kindField, textField, hne, hname.isWellFormed, hspace.isWellFormed]

theorem Test.proper {t : Test} (h : (Node.test t).WellFormed) :
    (Value.record t.translation).Proper := by
  cases t with
  | missing => exact h.wellMade.elim
  | name test => exact NameTest.proper (Test.name_wellFormed h)
  | nodeType type argument =>
    obtain ⟨htype, hargument⟩ : isNodeType type = true ∧ ∀ s ∈ argument, IsLiteral s := by
      rcases h with h | h | h
      · exact h
      · cases h
      · cases h
    rw [Test.nodeType_translation]
    apply Value.Proper.ofFields
    cases argument with
    | none => simp [kindField, textField, isWellFormed_nodeType htype]
    | some value =>
      simp [kindField, textField, isWellFormed_nodeType htype, (hargument value rfl).1]
  | abbreviated step =>
    have htext : isWellFormed step.text = true := by
      cases step <;> exact isWellFormed_utf8 _
    exact .ofFields (by simp [kindField, textField, htext])

theorem separatorFields_proper (s : Separator) : ∀ field ∈ separatorFields s, field.2.Proper := by
  have hsymbol : isWellFormed s.symbol = true := by
    cases s <;> rfl
  cases s <;> simp [separatorFields, textField, hsymbol]

theorem axisFields_proper {axis : Option Axis} (h : ∀ a ∈ axis, a.WellFormed) :
    ∀ field ∈ axisFields axis, field.2.Proper := by
  cases axis with
  | none => simp [axisFields]
  | some a =>
    have hname := Axis.isWellFormed_name (h a rfl)
    cases hsign : a.abbreviated <;> simp [axisFields, textField, hname, hsign]

mutual

/-- A well-formed expression has a proper record, one case for each kind of node. -/
theorem Expr.proper : (e : Expr) → e.WellFormed → (Value.record e.translation).Proper
  | .missing, h => h.elim
  | .rootName _, h => h.elim
  | .literal value, h => by
    have hvalue : isWellFormed value = true := h.1
    exact .ofFields (by simp [kindField, textField, hvalue])
  | .number n, h => by
    have htext := NumberLit.isWellFormed_text h
    exact .ofFields (by simp [kindField, textField, htext])
  | .boolean _, _ => .ofFields (by simp [kindField])
  | .reference name, h => by
    have htext := QName.isWellFormed_text h
    exact .ofFields (by simp [kindField, textField, htext])
  | .path steps, h => pathRecord_proper (steps_proper steps fun _ => step_of_mem h)
  | .root, _ => .ofFields (by simp [kindField])
  | .absolute steps, h => by
    have hpath := pathRecord_proper (steps_proper steps fun _ => step_of_mem h)
    exact .ofFields (by simp [kindField, recordField, hpath])
  | .everywhere steps, h => by
    have hpath := pathRecord_proper (steps_proper steps fun _ => step_of_mem h)
    exact .ofFields (by simp [kindField, recordField, hpath])
  | .call function args, h => by
    have hname := FunctionName.isWellFormed_text h.1
    have hargs := proper_records (exprs_proper args h.2)
    refine .ofFields ?_
    split <;> split <;> simp [kindField, textField, hname, hargs]
  | .negate operand, h => by
    have hoperand := operand.proper h
    exact .ofFields (by simp [kindField, recordField, hoperand])
  | .binary op comparison lhs rhs, h => by
    have hop := Operator.isWellFormed_written h.1
    have hlhs := lhs.proper h.2.1
    have hrhs := rhs.proper h.2.2
    exact .ofFields (by simp [kindField, textField, recordField, hop, hlhs, hrhs])
  | .filter source predicates, h => by
    have hsource := source.proper h.1
    have hpredicates := proper_records (exprs_proper predicates h.2.2)
    exact .ofFields (by simp [kindField, recordField, hsource, hpredicates])
  | .continued source separator steps, h => by
    have hsource := source.proper h.1
    have hseparator : isWellFormed separator.symbol = true := by
      rcases h.2.1 with rfl | rfl <;> rfl
    have hpath := pathRecord_proper (steps_proper steps fun _ => step_of_mem h.2.2)
    exact .ofFields (by simp [kindField, textField, recordField, hsource, hseparator, hpath])

theorem exprs_proper : (es : List Expr) → allWellFormed es →
    ∀ r ∈ translations es, (Value.record r).Proper
  | [], _ => nofun
  | e :: rest, h => List.forall_mem_cons.mpr ⟨e.proper h.1, exprs_proper rest h.2⟩

theorem steps_proper : (steps : List (Separator × Step)) →
    (∀ entry ∈ steps, entry.2.WellFormed) →
    ∀ r ∈ stepTranslations steps, (Value.record r).Proper
  | [], _ => nofun
  | (separator, step) :: rest, h => by
    have hstep := step.fields_proper (h _ List.mem_cons_self)
    have hfields := List.forall_mem_append.mpr ⟨hstep, separatorFields_proper separator⟩
    have hrest := steps_proper rest fun entry he => h entry (List.mem_cons_of_mem _ he)
    exact List.forall_mem_cons.mpr ⟨.ofFields hfields, hrest⟩

theorem Step.fields_proper : (s : Step) → s.WellFormed → ∀ field ∈ s.fields, field.2.Proper
  | .mk axis test predicates, h => by
    have htest := Test.proper h.test
    have hpredicates := proper_records (exprs_proper predicates h.predicates)
    have haxis : ∀ field ∈ axisFields axis, field.2.Proper := by
      rcases h with ⟨rfl, -, -⟩ | ⟨haxis, -, -⟩
      · nofun
      · exact axisFields_proper haxis
    have hopening : ∀ field ∈ [kindField "step", recordField "test" test.translation],
        field.2.Proper := by
      simp [kindField, recordField, htest]
    rw [Step.fields]
    refine List.forall_mem_append.mpr ⟨List.forall_mem_append.mpr ⟨hopening, haxis⟩, ?_⟩
    split <;> simp [hpredicates]

end

/-- Every text that is read has a record. Unless the record is nested too deeply, it has a JSON
text, which ends with one line break and stands for this record and for no other value. -/
theorem json_reads_back_of_parse {source : Bytes} {e : Expr} (h : parse source = .ok e) :
    ∃ r, e.dump = .ok r ∧
      ((Value.record r).depth ≤ maxJsonDepth → ∃ front last,
        (Value.record r).encoded = .ok (front ++ [last, newline]) ∧ last ≠ newline ∧
        ∀ v : Value, Json.ofText? (front ++ [last, newline]) = some v.toJson ↔ v = .record r) ∧
      (maxJsonDepth < (Value.record r).depth → (Value.record r).encoded = .error .tooDeep) := by
  have hwf := wellFormed_of_parse h
  refine ⟨e.translation, hwf.dump_eq, fun hshallow => ?_, Value.encoded_of_deep⟩
  obtain ⟨front, last, hbody, hlast⟩ := jsonValue_last 0 (.record e.translation)
  have htext : (Value.record e.translation).json = front ++ [last, newline] := by
    rw [Value.json, hbody, List.append_assoc]
    rfl
  refine ⟨front, last, ?_, hlast, ?_⟩
  · rw [Value.encoded_of_shallow hshallow, htext]
  · rw [← htext]
    exact Json.ofText?_json_iff (e.proper hwf)

/-- A literal most characters of which are escaped. -/
def awkwardLiteral : Expr := .literal (utf8 "\"\\\t<é\u2028")

def awkwardText : Bytes :=
  utf8 "\x7b\n  \"kind\": \"literal\",\n  \"value\": \"\\\"\\\\\\t\\u003cé\\u2028\"\n\x7d\n"

theorem json_reads_back_of_parse_awkward :
    parse (utf8 "'\"\\\t<é\u2028'") = .ok awkwardLiteral ∧
      ∃ r, awkwardLiteral.dump = .ok r ∧ (Value.record r).depth ≤ maxJsonDepth ∧
        (Value.record r).encoded = .ok awkwardText ∧
        Json.ofText? awkwardText = some (Value.record r).toJson := by
  have hparse : parse (utf8 "'\"\\\t<é\u2028'") = .ok awkwardLiteral :=
    parse_of_same (by decide +kernel)
  have hrecord := (wellFormed_of_parse hparse).dump_eq
  have hdepth : (Value.record awkwardLiteral.translation).depth ≤ maxJsonDepth := by
    decide
  have hjson : (Value.record awkwardLiteral.translation).json = awkwardText := by
    decide +kernel
  have htext : (Value.record awkwardLiteral.translation).encoded = .ok awkwardText := by
    rw [Value.encoded_of_shallow hdepth, hjson]
  obtain ⟨r, hdump, hshallow, -⟩ := json_reads_back_of_parse hparse
  obtain rfl : awkwardLiteral.translation = r := Except.ok.inj (hrecord.symm.trans hdump)
  obtain ⟨front, last, hencoded, -, hread⟩ := hshallow hdepth
  have hsame : awkwardText = front ++ [last, newline] :=
    Except.ok.inj (htext.symm.trans hencoded)
  rw [← hsame] at hread
  exact ⟨hparse, _, hrecord, hdepth, htext, (hread _).mpr rfl⟩

/-- A long sum is read and has a record, but no JSON text. -/
theorem sum_refused {n : Nat} (h : maxJsonDepth ≤ n) :
    ∃ r, (sum n).dump = .ok r ∧ (Value.record r).encoded = .error .tooDeep := by
  have hdeep : maxJsonDepth < (Value.record (sum n).translation).depth := by
    rw [sum_depth]
    exact Nat.lt_succ_of_le h
  exact ⟨_, (wellFormed_of_parse (parse_sumText n)).dump_eq, Value.encoded_of_deep hdeep⟩

theorem sum_refused_at_limit :
    ∃ e r, parse (sumText 10000) = .ok e ∧ e.dump = .ok r ∧
      (Value.record r).encoded = .error .tooDeep := by
  obtain ⟨r, hdump, hrefused⟩ := sum_refused (Nat.le_refl maxJsonDepth)
  exact ⟨_, r, parse_sumText 10000, hdump, hrefused⟩

end NodePath
