import Mathlib.Data.List.Basic
import NodePath.Proofs.DumpTranslation
import NodePath.Proofs.NodeInvariants
import NodePath.Proofs.Tables
import NodePath.Proofs.Verdict

/-!
# Records tell trees apart

The record of a tree joins the parts of names, reduces operators to their signs and numbers to their
texts, and leaves out what is absent. Of trees that were read nothing is lost by this: two of them
with the same record are the same tree. A record is known by its fields, and the kind of a node is
one of them, so that nodes are compared kind by kind and field by field.
-/

namespace NodePath

open NodePath.Text NodePath.Number

section Fields

theorem utf8_injective {s t : String} (h : utf8 s = utf8 t) : s = t := by
  have hchars : s.toList.map Glyph.char = t.toList.map Glyph.char := by
    rw [← glyphs_chars, ← glyphs_chars]
    exact congrArg glyphs h
  exact String.toList_inj.mp ((List.map_inj_right fun _ _ hc => Glyph.char.inj hc).mp hchars)

/-- The last field of a name. -/
def fieldOf (name : String) : List (String × Value) → Option Value
  | [] => none
  | (other, value) :: rest => (fieldOf name rest).or (if other = name then some value else none)

@[simp]
theorem fieldOf_append (name : String) (fields more : List (String × Value)) :
    fieldOf name (fields ++ more) = (fieldOf name more).or (fieldOf name fields) := by
  induction fields with
  | nil => rw [List.nil_append, fieldOf, Option.or_none]
  | cons field rest ih => rw [List.cons_append, fieldOf, fieldOf, ih, Option.or_assoc]

/-- A field that stands under a condition. -/
@[simp]
theorem fieldOf_ite (name : String) (condition : Prop) [Decidable condition]
    (fields more : List (String × Value)) :
    fieldOf name (if condition then fields else more) =
      if condition then fieldOf name fields else fieldOf name more :=
  apply_ite _ _ _ _

theorem get?_ofFields (fields : List (String × Value)) (name : String) :
    (Record.ofFields fields).get? (utf8 name) = fieldOf name fields := by
  induction fields using List.reverseRecOn with
  | nil => rfl
  | append_singleton fields field ih =>
    obtain ⟨other, value⟩ := field
    rw [ofFields_append_singleton, Table.get?_insert, ih, fieldOf_append, fieldOf, fieldOf,
      Option.none_or]
    by_cases h : other = name
    · rw [if_pos (congrArg utf8 h.symm), if_pos h, Option.some_or]
    · rw [if_neg fun hutf => h (utf8_injective hutf.symm), if_neg h, Option.none_or]

theorem mem_ofFields {fields : List (String × Value)} {entry : Bytes × Value}
    (h : entry ∈ Record.ofFields fields) : ∃ field ∈ fields, (utf8 field.1, field.2) = entry := by
  rcases Table.mem_merge h with hnone | hentry
  · cases hnone
  · exact List.mem_map.mp hentry

theorem ascending_ofFields (fields : List (String × Value)) :
    Table.Ascending (Record.ofFields fields) := by
  have hnone : Table.Ascending ([] : Record) := List.Pairwise.nil
  exact hnone.merge _

/-- Equal records have equal fields. -/
theorem fields_agree {fields fields' : List (String × Value)}
    (h : Record.ofFields fields = Record.ofFields fields') (name : String) :
    fieldOf name fields = fieldOf name fields' := by
  rw [← get?_ofFields, ← get?_ofFields, h]

end Fields

section Kinds

/-- The kind of a node as its record gives it. -/
def NodeKind.label : NodeKind → String
  | .literal => "literal"
  | .number => "number"
  | .boolean => "boolean"
  | .reference => "variable"
  | .nameTest => "name_test"
  | .nodeTypeTest => "node_type_test"
  | .abbreviatedTest => "abbreviated_step"
  | .step => "step"
  | .path => "relative_path"
  | .absolutePath => "absolute_path"
  | .everywherePath => "abbreviated_absolute_path"
  | .call => "function_call"
  | .negation => "unary_minus"
  | .binary => "binary"
  | .filter => "filter"
  | .continuedPath => "filter_with_path"
  | .rootName => "root_name_test"

theorem label_injective {k k' : NodeKind} (h : k.label = k'.label) : k = k' := by
  revert h
  cases k <;> cases k' <;> decide

theorem Expr.translation_kind (e : Expr) :
    e.translation.get? (utf8 "kind") = e.kind?.map fun k => .text (utf8 k.label) := by
  cases e with
  | missing => rfl
  | call function args =>
    rw [Expr.translation, get?_ofFields]
    simp [fieldOf, textField, kindField, Expr.kind?, NodeKind.label]
  | path => rw [Expr.translation, pathRecord, get?_ofFields]; rfl
  | _ => rw [Expr.translation, get?_ofFields]; rfl

theorem Test.translation_kind (t : Test) :
    t.translation.get? (utf8 "kind") = t.kind?.map fun k => .text (utf8 k.label) := by
  cases t with
  | missing => rfl
  | name test =>
    rw [Test.translation, get?_ofFields]
    obtain ⟨kind, space, ⟨nameSpace, name⟩⟩ := test
    cases kind with
    | qualified => cases nameSpace <;> rfl
    | _ => rfl
  | nodeType type argument => cases argument <;> (rw [Test.translation, get?_ofFields]; rfl)
  | abbreviated step => rw [Test.translation, get?_ofFields]; rfl

theorem kind_of_text {k k' : Option NodeKind}
    (h : (k.map fun k => Value.text (utf8 k.label)) = k'.map fun k => .text (utf8 k.label)) :
    k = k' := by
  refine Option.map_injective ?_ h
  intro k k' hk
  exact label_injective (utf8_injective (Value.text.inj hk))

theorem Expr.kind_of_translation {e e' : Expr} (h : e.translation = e'.translation) :
    e.kind? = e'.kind? := by
  apply kind_of_text
  rw [← Expr.translation_kind, ← Expr.translation_kind, h]

theorem Test.kind_of_translation {t t' : Test} (h : t.translation = t'.translation) :
    t.kind? = t'.kind? := by
  apply kind_of_text
  rw [← Test.translation_kind, ← Test.translation_kind, h]

end Kinds

section Leaves

theorem colon_not_mem {w : Bytes} (h : IsName w) : ascii ':' ∉ w := by
  obtain ⟨c, cs, hc, hcs, rfl⟩ := h.1
  rw [ascii_mem_flatMap_encode (by decide)]
  intro hmem
  rcases List.mem_cons.mp hmem with rfl | hmem
  · exact absurd hc (by decide)
  · exact absurd (hcs _ hmem) (by decide)

/-- The parts of a name can be told from its text, since no part holds a colon. -/
theorem QName.text_inj {q q' : QName} (hq : q.WellFormed) (hq' : q'.WellFormed)
    (h : q.text = q'.text) : q = q' := by
  obtain ⟨space, name⟩ := q
  obtain ⟨space', name'⟩ := q'
  have hname : ascii ':' ∉ name := colon_not_mem hq.2
  have hname' : ascii ':' ∉ name' := colon_not_mem hq'.2
  have hjoined : ∀ {s n : Bytes}, s ≠ [] → (QName.mk s n).text = s ++ ascii ':' :: n := by
    intro s n hs
    rw [QName.text, if_neg (by simpa using hs), List.append_assoc]
    rfl
  rcases hq.1 with rfl | hspace <;> rcases hq'.1 with rfl | hspace'
  · exact congrArg (QName.mk []) h
  · refine absurd ?_ hname
    rw [show name = _ from h.trans (hjoined hspace'.1.ne_nil)]
    simp
  · refine absurd ?_ hname'
    rw [show name' = _ from h.symm.trans (hjoined hspace.1.ne_nil)]
    simp
  · rw [hjoined hspace.1.ne_nil, hjoined hspace'.1.ne_nil,
      List.append_cons_inj_of_notMem (colon_not_mem hspace) hname] at h
    exact congrArg₂ QName.mk h.1 h.2.2

theorem NumberLit.text_inj {n n' : NumberLit} (hn : n.WellFormed) (hn' : n'.WellFormed)
    (hfloat : n.isFloat = n'.isFloat) (h : n.text = n'.text) : n = n' := by
  rcases hn with ⟨i, hlow, -, rfl⟩ | ⟨x, hx, rfl⟩ <;>
    rcases hn' with ⟨j, hlow', -, rfl⟩ | ⟨y, hy, rfl⟩
  · obtain ⟨a, rfl⟩ := Int.eq_ofNat_of_zero_le hlow
    obtain ⟨b, rfl⟩ := Int.eq_ofNat_of_zero_le hlow'
    have hdecimal : decimal a = decimal b := h
    have hvalue := congrArg natOfDigits hdecimal
    rw [natOfDigits_decimal, natOfDigits_decimal] at hvalue
    rw [hvalue]
  · cases hfloat
  · cases hfloat
  · obtain ⟨ws, ds, htext, -, -, hread⟩ := text_reads_back hx
    obtain ⟨ws', ds', htext', -, -, hread'⟩ := text_reads_back hy
    rw [← htext] at hread
    rw [← htext', ← h, hread] at hread'
    rw [Option.some.inj hread']

theorem FunctionName.text_inj {f f' : FunctionName} {args args' : List Expr} (hf : f.Takes args)
    (hf' : f'.Takes args') (hbuiltin : f.builtin = .absent ↔ f'.builtin = .absent)
    (h : f.text = f'.text) : f = f' := by
  obtain ⟨builtin, ident⟩ := f
  obtain ⟨builtin', ident'⟩ := f'
  dsimp only [FunctionName.Takes] at hf hf' hbuiltin
  rcases hf with ⟨rfl, -⟩ | ⟨hword, rfl, -⟩ <;> rcases hf' with ⟨rfl, -⟩ | ⟨hword', rfl, -⟩
  · exact congrArg (FunctionName.mk .absent) h
  · rw [hbuiltin.mp rfl] at hword'
    rcases hword' with hword' | hword' <;> cases hword'
  · rw [hbuiltin.mpr rfl] at hword
    rcases hword with hword | hword <;> cases hword
  · rcases hword with rfl | rfl <;> rcases hword' with rfl | rfl
    · rfl
    · exact absurd h (by decide)
    · exact absurd h (by decide)
    · rfl

theorem Operator.written_inj {op op' : Operator} {c c' : Comparison} (h : op.Takes c)
    (h' : op'.Takes c') (hwritten : op.written c = op'.written c') : op = op' ∧ c = c' := by
  have hdistinct : ∀ p ∈ operations, ∀ p' ∈ operations,
      p.1.written p.2 = p'.1.written p'.2 → p = p' := by decide
  exact Prod.mk.inj (hdistinct _ h.mem _ h'.mem hwritten)

theorem NameTest.fields_any : NameTest.any.fields = [textField "match" (utf8 "any")] := rfl

theorem NameTest.fields_anyIn (space : Bytes) :
    (NameTest.anyIn space).fields =
      [textField "match" (utf8 "prefixed_any"), textField "prefix" space] := rfl

theorem NameTest.fields_qualified (space name : Bytes) :
    (NameTest.qualified ⟨space, name⟩).fields =
      [textField "match" (utf8 "qualified"), textField "name" name] ++
        if space = [] then [] else [textField "prefix" space] := by
  cases space <;> rfl

/-- The forms of a name test differ in what they match, which is one of the fields. -/
theorem NameTest.fields_inj {t t' : NameTest} (ht : t.WellFormed) (ht' : t'.WellFormed)
    (h : Record.ofFields (kindField "name_test" :: t.fields) =
      Record.ofFields (kindField "name_test" :: t'.fields)) : t = t' := by
  have hform := fields_agree h "match"
  have hname := fields_agree h "name"
  have hspace := fields_agree h "prefix"
  have hforms : utf8 "any" ≠ utf8 "prefixed_any" ∧ utf8 "any" ≠ utf8 "qualified" ∧
      utf8 "prefixed_any" ≠ utf8 "qualified" := by decide
  obtain ⟨hany, hone, hprefixed⟩ := hforms
  rcases ht with rfl | ⟨space, -, rfl⟩ | ⟨⟨space, name⟩, -, rfl⟩ <;>
    rcases ht' with rfl | ⟨space', -, rfl⟩ | ⟨⟨space', name'⟩, -, rfl⟩ <;>
    simp [NameTest.fields_any, NameTest.fields_anyIn, NameTest.fields_qualified, kindField,
      textField, fieldOf, hany, hany.symm, hone, hone.symm, hprefixed, hprefixed.symm]
      at hform hname hspace
  · rfl
  · rw [hspace]
  · rw [hname]
    split_ifs at hspace with hempty hempty' hempty'
    · rw [hempty, hempty']
    · rw [Value.text.inj (Option.some.inj hspace)]

theorem Abbreviation.text_inj {a a' : Abbreviation} (ha : a = .self ∨ a = .parent)
    (ha' : a' = .self ∨ a' = .parent) (h : a.text = a'.text) : a = a' := by
  rcases ha with rfl | rfl <;> rcases ha' with rfl | rfl
  · rfl
  · exact absurd h (by decide)
  · exact absurd h (by decide)
  · rfl

theorem Test.nodeType_translation (type : Bytes) (argument : Option Bytes) :
    (Test.nodeType type argument).translation =
      Record.ofFields ([kindField "node_type_test", textField "type" type] ++
        argument.toList.map (textField "argument")) := by
  cases argument <;> rfl

theorem Test.name_wellFormed {t : NameTest} (h : (Node.test (.name t)).WellFormed) :
    t.WellFormed := by
  rcases h with h | h | h
  · exact h
  · cases h
  · cases h

theorem Test.translation_inj {t t' : Test} (ht : (Node.test t).WellFormed)
    (ht' : (Node.test t').WellFormed) (h : t.translation = t'.translation) : t = t' := by
  have hkind := Test.kind_of_translation h
  cases t with
  | missing => exact ht.wellMade.elim
  | name test =>
    cases t' <;> cases hkind
    next test' =>
    rw [NameTest.fields_inj (Test.name_wellFormed ht) (Test.name_wellFormed ht') h]
  | nodeType type argument =>
    cases t' <;> cases hkind
    next type' argument' =>
    rw [Test.nodeType_translation, Test.nodeType_translation] at h
    have htype := fields_agree h "type"
    have hargument := fields_agree h "argument"
    cases argument <;> cases argument' <;>
      simp [fieldOf, textField, kindField] at htype hargument
    · rw [htype]
    · rw [htype, hargument]
  | abbreviated step =>
    cases t' <;> cases hkind
    next step' =>
    have hstep : step.text = step'.text := by
      simpa [fieldOf, textField, kindField] using fields_agree h "step"
    rw [Abbreviation.text_inj ht.wellMade ht'.wellMade hstep]

end Leaves

section Lists

theorem records_inj {rs rs' : List Record} (h : Value.records rs = Value.records rs') :
    rs = rs' :=
  (List.map_inj_right fun _ _ hr => Value.record.inj hr).mp (Value.list.inj h)

theorem pathRecord_inj {rs rs' : List Record} (h : pathRecord rs = pathRecord rs') : rs = rs' := by
  have hsteps : Value.records rs = .records rs' := by
    simpa [fieldOf, kindField] using fields_agree h "steps"
  exact records_inj hsteps

@[simp]
theorem fieldOf_listField (name other : String) (rs : List Record) :
    fieldOf other (listField name rs) =
      if name = other ∧ rs ≠ [] then some (.records rs) else none := by
  cases rs <;> simp [listField, fieldOf]

/-- A list that is left out is empty. -/
theorem listField_inj {name : String} {rs rs' : List Record}
    (h : fieldOf name (listField name rs) = fieldOf name (listField name rs')) : rs = rs' := by
  simp only [fieldOf_listField, true_and] at h
  split_ifs at h with hrs hrs' hrs'
  · exact records_inj (Option.some.inj h)
  · rw [not_ne_iff.mp hrs, not_ne_iff.mp hrs']

end Lists

section Steps

/-- The separators that a step of a path can have. -/
def Separator.IsKnown (s : Separator) : Prop := s = .absent ∨ s.IsWritten

theorem Separator.symbol_inj {s s' : Separator} (hs : s.IsWritten) (hs' : s'.IsWritten)
    (h : s.symbol = s'.symbol) : s = s' := by
  rcases hs with rfl | rfl <;> rcases hs' with rfl | rfl
  · rfl
  · exact absurd h (by decide)
  · exact absurd h (by decide)
  · rfl

theorem fieldOf_separator (s : Separator) :
    fieldOf "separator" (separatorFields s) =
      if s = .absent then none else some (.text s.symbol) := by
  cases s <;> rfl

theorem separatorFields_inj {s s' : Separator} (hs : s.IsKnown) (hs' : s'.IsKnown)
    (h : fieldOf "separator" (separatorFields s) = fieldOf "separator" (separatorFields s')) :
    s = s' := by
  rw [fieldOf_separator, fieldOf_separator] at h
  split_ifs at h with habsent habsent' habsent'
  · rw [habsent, habsent']
  · exact Separator.symbol_inj (hs.resolve_left habsent) (hs'.resolve_left habsent')
      (Value.text.inj (Option.some.inj h))

theorem axisFields_inj {a a' : Option Axis}
    (hname : fieldOf "axis" (axisFields a) = fieldOf "axis" (axisFields a'))
    (hsign : fieldOf "abbreviated_axis" (axisFields a) =
      fieldOf "abbreviated_axis" (axisFields a')) : a = a' := by
  rcases a with _ | ⟨name, abbreviated⟩ <;> rcases a' with _ | ⟨name', abbreviated'⟩ <;>
    simp [axisFields, fieldOf, textField] at hname hsign
  · rfl
  · cases abbreviated <;> cases abbreviated' <;> simp_all

theorem fieldOf_axisFields {name : String} (hname : name ≠ "axis")
    (hsign : name ≠ "abbreviated_axis") (a : Option Axis) :
    fieldOf name (axisFields a) = none := by
  cases a <;> simp [axisFields, fieldOf, textField, hname.symm, hsign.symm]

theorem fieldOf_separatorFields {name : String} (hname : name ≠ "separator") (s : Separator) :
    fieldOf name (separatorFields s) = none := by
  cases s <;> simp [separatorFields, fieldOf, textField, hname.symm]

/-- The record of a step in a path determines the parts of the step, or their records. -/
theorem step_parts {separator separator' : Separator} {axis axis' : Option Axis} {test test' : Test}
    {predicates predicates' : List Expr} (hs : separator.IsKnown) (hs' : separator'.IsKnown)
    (h : Record.ofFields ((Step.mk axis test predicates).fields ++ separatorFields separator) =
      Record.ofFields ((Step.mk axis' test' predicates').fields ++ separatorFields separator')) :
    separator = separator' ∧ axis = axis' ∧ test.translation = test'.translation ∧
      translations predicates = translations predicates' := by
  have hfield : ∀ name, fieldOf name _ = fieldOf name _ := fields_agree h
  simp only [Step.fields, ← listField_translations, fieldOf_append, fieldOf, kindField,
    recordField] at hfield
  have hseparator : fieldOf "separator" (separatorFields separator) =
      fieldOf "separator" (separatorFields separator') := by
    simpa [fieldOf_axisFields] using hfield "separator"
  have hname : fieldOf "axis" (axisFields axis) = fieldOf "axis" (axisFields axis') := by
    simpa [fieldOf_separatorFields] using hfield "axis"
  have hsign : fieldOf "abbreviated_axis" (axisFields axis) =
      fieldOf "abbreviated_axis" (axisFields axis') := by
    simpa [fieldOf_separatorFields] using hfield "abbreviated_axis"
  have htest : test.translation = test'.translation := by
    simpa [fieldOf_axisFields, fieldOf_separatorFields] using hfield "test"
  have hpredicates : fieldOf "predicates" (listField "predicates" (translations predicates)) =
      fieldOf "predicates" (listField "predicates" (translations predicates')) := by
    simpa [fieldOf_axisFields, fieldOf_separatorFields] using hfield "predicates"
  exact ⟨separatorFields_inj hs hs' hseparator, axisFields_inj hname hsign, htest,
    listField_inj hpredicates⟩

theorem Step.WellFormed.test {axis : Option Axis} {test : Test} {predicates : List Expr}
    (h : (Step.mk axis test predicates).WellFormed) : (Node.test test).WellFormed := by
  rcases h with ⟨-, htest, -⟩ | ⟨-, htest, -⟩
  · exact .inr htest
  · exact .inl htest

theorem Step.WellFormed.predicates {axis : Option Axis} {test : Test} {predicates : List Expr}
    (h : (Step.mk axis test predicates).WellFormed) : allWellFormed predicates := by
  rcases h with ⟨-, -, rfl⟩ | ⟨-, -, hpredicates⟩
  · trivial
  · exact hpredicates

theorem entries_of_path {p : Path} (h : pathWellFormed p) :
    ∀ entry ∈ p, entry.1.IsKnown ∧ entry.2.WellFormed := by
  intro entry hentry
  refine ⟨?_, step_of_mem h hentry⟩
  obtain ⟨first, others, rfl, hothers⟩ := pathWellMade_of_wellFormed h
  rcases List.mem_cons.mp hentry with rfl | hentry
  · exact .inl rfl
  · exact .inr (hothers entry hentry)

end Steps

mutual

/-- Well-formed expressions with one record are the same. Their kinds agree, and the fields of that
kind determine the parts or their records. -/
theorem Expr.translation_inj (e e' : Expr) (he : e.WellFormed) (he' : e'.WellFormed)
    (h : e.translation = e'.translation) : e = e' := by
  have hkind := Expr.kind_of_translation h
  cases e <;> cases e' <;> cases hkind
  case missing.missing => rfl
  case rootName.rootName => exact he.elim
  case literal.literal value value' =>
    have hvalue : value = value' := by
      simpa [fieldOf, kindField, textField] using fields_agree h "value"
    rw [hvalue]
  case number.number n n' =>
    have htext : n.text = n'.text := by
      simpa [fieldOf, kindField, textField] using fields_agree h "value"
    have hfloat : n.isFloat = n'.isFloat := by
      simpa [fieldOf, kindField, textField] using fields_agree h "float"
    rw [NumberLit.text_inj he he' hfloat htext]
  case boolean.boolean value value' =>
    have hvalue : value = value' := by
      simpa [fieldOf, kindField] using fields_agree h "value"
    rw [hvalue]
  case reference.reference name name' =>
    have hname : name.text = name'.text := by
      simpa [fieldOf, kindField, textField] using fields_agree h "name"
    rw [QName.text_inj he he' hname]
  case path.path steps steps' =>
    rw [stepTranslations_inj steps steps' (entries_of_path he) (entries_of_path he')
      (pathRecord_inj h)]
  case root.root => rfl
  case root.absolute steps' =>
    have hpath := fields_agree h "path"
    simp [fieldOf, kindField, recordField] at hpath
  case absolute.root steps =>
    have hpath := fields_agree h "path"
    simp [fieldOf, kindField, recordField] at hpath
  case absolute.absolute steps steps' =>
    have hpath : pathRecord (stepTranslations steps) = pathRecord (stepTranslations steps') := by
      simpa [fieldOf, kindField, recordField] using fields_agree h "path"
    rw [stepTranslations_inj steps steps' (entries_of_path he) (entries_of_path he')
      (pathRecord_inj hpath)]
  case everywhere.everywhere steps steps' =>
    have hpath : pathRecord (stepTranslations steps) = pathRecord (stepTranslations steps') := by
      simpa [fieldOf, kindField, recordField] using fields_agree h "path"
    rw [stepTranslations_inj steps steps' (entries_of_path he) (entries_of_path he')
      (pathRecord_inj hpath)]
  case call.call function args function' args' =>
    simp only [Expr.translation, ← listField_translations] at h
    have hname : function.text = function'.text := by
      simpa [fieldOf, kindField, textField] using fields_agree h "name"
    have hbuiltin : function.builtin = .absent ↔ function'.builtin = .absent := by
      have hflag := fields_agree h "builtin"
      simp [fieldOf, kindField, textField] at hflag
      split_ifs at hflag <;> simp_all
    have hargs : fieldOf "args" (listField "args" (translations args)) =
        fieldOf "args" (listField "args" (translations args')) := by
      simpa [fieldOf, kindField, textField] using fields_agree h "args"
    rw [FunctionName.text_inj he.1 he'.1 hbuiltin hname,
      translations_inj args args' he.2 he'.2 (listField_inj hargs)]
  case negate.negate operand operand' =>
    have hoperand : operand.translation = operand'.translation := by
      simpa [fieldOf, kindField, recordField] using fields_agree h "operand"
    rw [operand.translation_inj operand' he he' hoperand]
  case binary.binary op comparison lhs rhs op' comparison' lhs' rhs' =>
    have hop : op.written comparison = op'.written comparison' := by
      simpa [fieldOf, kindField, textField, recordField] using fields_agree h "op"
    have hlhs : lhs.translation = lhs'.translation := by
      simpa [fieldOf, kindField, textField, recordField] using fields_agree h "lhs"
    have hrhs : rhs.translation = rhs'.translation := by
      simpa [fieldOf, kindField, textField, recordField] using fields_agree h "rhs"
    obtain ⟨rfl, rfl⟩ := Operator.written_inj he.1 he'.1 hop
    rw [lhs.translation_inj lhs' he.2.1 he'.2.1 hlhs, rhs.translation_inj rhs' he.2.2 he'.2.2 hrhs]
  case filter.filter source predicates source' predicates' =>
    have hsource : source.translation = source'.translation := by
      simpa [fieldOf, kindField, recordField] using fields_agree h "primary"
    have hpredicates : Value.records (translations predicates) =
        .records (translations predicates') := by
      simpa [fieldOf, kindField, recordField] using fields_agree h "predicates"
    rw [source.translation_inj source' he.1 he'.1 hsource,
      translations_inj predicates predicates' he.2.2 he'.2.2 (records_inj hpredicates)]
  case continued.continued source separator steps source' separator' steps' =>
    have hsource : source.translation = source'.translation := by
      simpa [fieldOf, kindField, textField, recordField] using fields_agree h "filter"
    have hseparator : separator.symbol = separator'.symbol := by
      simpa [fieldOf, kindField, textField, recordField] using fields_agree h "separator"
    have hpath : pathRecord (stepTranslations steps) = pathRecord (stepTranslations steps') := by
      simpa [fieldOf, kindField, textField, recordField] using fields_agree h "path"
    rw [source.translation_inj source' he.1 he'.1 hsource,
      Separator.symbol_inj he.2.1 he'.2.1 hseparator,
      stepTranslations_inj steps steps' (entries_of_path he.2.2) (entries_of_path he'.2.2)
        (pathRecord_inj hpath)]
termination_by structural e

theorem translations_inj : (es es' : List Expr) → allWellFormed es → allWellFormed es' →
    translations es = translations es' → es = es'
  | [], [], _, _, _ => rfl
  | e :: rest, e' :: rest', hes, hes', h => by
    obtain ⟨hfirst, hrest⟩ := List.cons.inj h
    rw [e.translation_inj e' hes.1 hes'.1 hfirst, translations_inj rest rest' hes.2 hes'.2 hrest]
termination_by structural es => es

theorem stepTranslations_inj : (p p' : List (Separator × Step)) →
    (∀ entry ∈ p, entry.1.IsKnown ∧ entry.2.WellFormed) →
    (∀ entry ∈ p', entry.1.IsKnown ∧ entry.2.WellFormed) →
    stepTranslations p = stepTranslations p' → p = p'
  | [], [], _, _, _ => rfl
  | (separator, step) :: rest, (separator', step') :: rest', hp, hp', h => by
    obtain ⟨hfirst, hrest⟩ := List.cons.inj h
    obtain ⟨⟨hseparator, hstep⟩, hothers⟩ := List.forall_mem_cons.mp hp
    obtain ⟨⟨hseparator', hstep'⟩, hothers'⟩ := List.forall_mem_cons.mp hp'
    obtain ⟨rfl, rfl⟩ := step.fields_inj step' hstep hstep' hseparator hseparator' hfirst
    rw [stepTranslations_inj rest rest' hothers hothers' hrest]
termination_by structural p => p

theorem Step.fields_inj : (s s' : Step) → s.WellFormed → s'.WellFormed →
    {separator separator' : Separator} → separator.IsKnown → separator'.IsKnown →
    Record.ofFields (s.fields ++ separatorFields separator) =
      Record.ofFields (s'.fields ++ separatorFields separator') → separator = separator' ∧ s = s'
  | .mk axis test predicates, .mk axis' test' predicates', hs, hs', _, _, hsep, hsep', h => by
    obtain ⟨rfl, rfl, htest, hpredicates⟩ := step_parts hsep hsep' h
    refine ⟨rfl, ?_⟩
    rw [Test.translation_inj hs.test hs'.test htest,
      translations_inj predicates predicates' hs.predicates hs'.predicates hpredicates]
termination_by structural s => s

end

/-- A reading can be checked by comparing trees. -/
theorem parse_of_same {source : Bytes} {e : Expr}
    (h : (parse source).toOption.any (·.same e) = true) : parse source = .ok e := by
  obtain ⟨e', hparse, hsame⟩ := (Option.any_eq_true _ _).mp h
  rw [Expr.same_iff] at hsame
  exact eq_ok_of_toOption (hsame ▸ hparse)

theorem Expr.WellFormed.dump_eq {e : Expr} (h : e.WellFormed) : e.dump = .ok e.translation :=
  (Node.WellFormed.complete (n := .expr e) h).dump_eq

/-- Every text that is read has a record, and texts with one record are read as one tree. -/
theorem dump_exact_of_parse {source source' : Bytes} {e e' : Expr} (h : parse source = .ok e)
    (h' : parse source' = .ok e') :
    (∃ r, e.dump = .ok r) ∧ (e.dump = e'.dump → e = e') := by
  have hwf := wellFormed_of_parse h
  have hwf' := wellFormed_of_parse h'
  refine ⟨⟨_, hwf.dump_eq⟩, fun hdump => ?_⟩
  rw [hwf.dump_eq, hwf'.dump_eq] at hdump
  exact e.translation_inj e' hwf hwf' (Except.ok.inj hdump)

/-- The attributes of one name, with their axis as a sign or as a word. -/
def attributeTree (abbreviated : Bool) : Expr :=
  .path [(.absent,
    .mk (some ⟨utf8 "attribute", abbreviated⟩) (.name (.qualified ⟨[], utf8 "a"⟩)) [])]

theorem dump_exact_of_parse_attributes :
    parse (utf8 "@a") = .ok (attributeTree true) ∧
      parse (utf8 "attribute::a") = .ok (attributeTree false) ∧
      (∃ r, (attributeTree true).dump = .ok r) ∧
      (attributeTree true).dump ≠ (attributeTree false).dump := by
  have hsign : parse (utf8 "@a") = .ok (attributeTree true) :=
    parse_of_same (by decide +kernel)
  have hword : parse (utf8 "attribute::a") = .ok (attributeTree false) :=
    parse_of_same (by decide +kernel)
  have hne : attributeTree true ≠ attributeTree false := by
    simp [attributeTree]
  obtain ⟨hrecord, hexact⟩ := dump_exact_of_parse hsign hword
  exact ⟨hsign, hword, hrecord, mt hexact hne⟩

end NodePath
