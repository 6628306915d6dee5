import NodePath.Dump.Builder
import NodePath.Proofs.Everywhere

/-!
# The builder translates trees

The record of a tree can be given by recursion on the tree alone, without frames. The builder gives
the same record: whatever frames are open before a walk through a complete tree, afterwards they are
the same frames, with that one record added to the frame on top. So no frame ever holds too few
records for its node.
-/

namespace NodePath

open NodePath.Text

/-- The fields of a name test besides its kind. -/
def NameTest.fields : NameTest → List (String × Value)
  | ⟨.any, _, _⟩ => [textField "match" (utf8 "any")]
  | ⟨.anyIn, space, _⟩ => [textField "match" (utf8 "prefixed_any"), textField "prefix" space]
  | ⟨.qualified, _, ⟨[], name⟩⟩ => [textField "match" (utf8 "qualified"), textField "name" name]
  | ⟨.qualified, _, ⟨space, name⟩⟩ =>
    [textField "match" (utf8 "qualified"), textField "name" name, textField "prefix" space]
  | ⟨.unknown _, _, _⟩ => []

/-- A test as a record; nothing stands for a missing one. -/
def Test.translation : Test → Record
  | .missing => []
  | .name t => Record.ofFields (kindField "name_test" :: t.fields)
  | .nodeType type none => Record.ofFields [kindField "node_type_test", textField "type" type]
  | .nodeType type (some argument) =>
    Record.ofFields [kindField "node_type_test", textField "type" type,
      textField "argument" argument]
  | .abbreviated step =>
    Record.ofFields [kindField "abbreviated_step", textField "step" step.text]

/-- The separator of a step, if it has one. -/
def separatorFields : Separator → List (String × Value)
  | .absent => []
  | separator => [textField "separator" separator.symbol]

/-- The record of a path from those of its steps. -/
def pathRecord (steps : List Record) : Record :=
  Record.ofFields [kindField "relative_path", ("steps", .records steps)]

mutual

/-- A tree as a record, part by part. -/
def Expr.translation : Expr → Record
  | .missing => []
  | .literal value => Record.ofFields [kindField "literal", textField "value" value]
  | .number n =>
    Record.ofFields [kindField "number", textField "value" n.text, ("float", .flag n.isFloat)]
  | .boolean value => Record.ofFields [kindField "boolean", ("value", .flag value)]
  | .reference name => Record.ofFields [kindField "variable", textField "name" name.text]
  | .path steps => pathRecord (stepTranslations steps)
  | .root => Record.ofFields [kindField "absolute_path"]
  | .absolute steps =>
    Record.ofFields [kindField "absolute_path",
      recordField "path" (pathRecord (stepTranslations steps))]
  | .everywhere steps =>
    Record.ofFields [kindField "abbreviated_absolute_path",
      recordField "path" (pathRecord (stepTranslations steps))]
  | .call function args =>
    Record.ofFields ([kindField "function_call", textField "name" function.text] ++
      (if function.builtin = .absent then [] else [("builtin", .flag true)]) ++
      if args.isEmpty then [] else [("args", .records (translations args))])
  | .negate operand =>
    Record.ofFields [kindField "unary_minus", recordField "operand" operand.translation]
  | .binary op comparison lhs rhs =>
    Record.ofFields [kindField "binary", textField "op" (op.written comparison),
      recordField "lhs" lhs.translation, recordField "rhs" rhs.translation]
  | .filter source predicates =>
    Record.ofFields [kindField "filter", recordField "primary" source.translation,
      ("predicates", .records (translations predicates))]
  | .continued source separator steps =>
    Record.ofFields [kindField "filter_with_path", recordField "filter" source.translation,
      textField "separator" separator.symbol,
      recordField "path" (pathRecord (stepTranslations steps))]
  | .rootName t =>
    Record.ofFields [kindField "root_name_test",
      recordField "test" (Record.ofFields (kindField "name_test" :: t.fields))]

def translations : List Expr → List Record
  | [] => []
  | e :: rest => e.translation :: translations rest

/-- The steps of a path, each with its separator. -/
def stepTranslations : List (Separator × Step) → List Record
  | [] => []
  | (separator, step) :: rest =>
    Record.ofFields (step.fields ++ separatorFields separator) :: stepTranslations rest

/-- The fields of a step. -/
def Step.fields : Step → List (String × Value)
  | .mk axis test predicates =>
    [kindField "step", recordField "test" test.translation] ++ axisFields axis ++
      if predicates.isEmpty then [] else [("predicates", .records (translations predicates))]

end

def Step.translation (s : Step) : Record := Record.ofFields s.fields

/-- A node as a record, part by part. -/
def Node.translation : Node → Record
  | .expr e => e.translation
  | .test t => t.translation
  | .step s => s.translation

namespace Builder

/-- Records one after the other. -/
def emitAll (b : Builder) (rs : List Record) : Builder := rs.foldl emit b

theorem emitAll_append (b : Builder) (rs ss : List Record) :
    b.emitAll (rs ++ ss) = (b.emitAll rs).emitAll ss := List.foldl_append

/-- Records join the frame on top and leave the other frames alone. -/
theorem emitAll_frame (top : List Record) (frames : List (List Record)) (result : Option Record)
    (rs : List Record) :
    (Builder.mk ⟨top :: frames⟩ result).emitAll rs = ⟨⟨(top ++ rs) :: frames⟩, result⟩ := by
  induction rs generalizing top with
  | nil => rw [List.append_nil]; rfl
  | cons r rs ih =>
    have hstep : (Builder.mk ⟨top :: frames⟩ result).emit r =
        ⟨⟨(top ++ [r]) :: frames⟩, result⟩ := rfl
    rw [emitAll, List.foldl_cons, hstep]
    show Builder.emitAll _ rs = _
    rw [ih, List.append_assoc, List.singleton_append]

theorem closeFrame_emitAll (b : Builder) (rs : List Record) :
    (b.openFrame.emitAll rs).closeFrame = (rs, b) := by
  obtain ⟨⟨frames⟩, result⟩ := b
  have hopen : (Builder.mk ⟨frames⟩ result).openFrame = ⟨⟨[] :: frames⟩, result⟩ := rfl
  rw [hopen, emitAll_frame, List.nil_append]
  rfl

/-- A walk through some events adds some records and changes nothing else. -/
def Emits (events : List Event) (rs : List Record) : Prop :=
  ∀ b : Builder, b.run events = .ok (b.emitAll rs)

theorem run_append (b : Builder) (es fs : List Event) :
    b.run (es ++ fs) = b.run es >>= fun b => b.run fs := List.foldlM_append

theorem emits_nil : Emits [] [] := fun _ => rfl

theorem Emits.append {es fs : List Event} {rs ss : List Record} (h : Emits es rs)
    (h' : Emits fs ss) : Emits (es ++ fs) (rs ++ ss) := by
  intro b
  rw [run_append, h b, emitAll_append]
  exact h' _

/-- A node with a frame gathers the records of its inner events and adds its own. -/
theorem Emits.within {n : Node} {inner : List Event} {rs : List Record} {r : Record}
    (h : Emits inner rs) (hn : n.hasFrame = true) (hr : n.record? rs = .ok r) :
    Emits (within n inner) [r] := by
  intro b
  have henter : b.enter n = b.openFrame := if_pos hn
  have hleave : (b.openFrame.emitAll rs).leave n = .ok (b.emit r) := by
    rw [leave, if_pos hn, closeFrame_emitAll]
    dsimp only
    rw [hr]
    rfl
  show (b.enter n).run (inner ++ [.leave n]) = .ok (b.emit r)
  rw [henter, run_append, h]
  show (b.openFrame.emitAll rs).leave n >>= _ = _
  rw [hleave]
  rfl

/-- A node without a frame adds its record at once. -/
theorem emits_leaf {n : Node} {r : Record} (hn : n.hasFrame = false) (hr : n.record? [] = .ok r) :
    Emits (leafEvents n) [r] := by
  intro b
  have hne : ¬n.hasFrame = true := by rw [hn]; exact Bool.false_ne_true
  have henter : b.enter n = b := if_neg hne
  have hleave : b.leave n = .ok (b.emit r) := by
    rw [leave, if_neg hne, hr]
    rfl
  show (b.enter n).leave n >>= _ = _
  rw [henter, hleave]
  rfl

end Builder

open Builder

theorem NameTest.record_eq (t : NameTest) :
    t.record = Record.ofFields (kindField "name_test" :: t.fields) := by
  obtain ⟨kind, space, ⟨nameSpace, name⟩⟩ := t
  cases kind with
  | qualified => cases nameSpace <;> rfl
  | _ => rfl

theorem ofFields_append_singleton (fields : List (String × Value)) (name : String) (value : Value) :
    Record.ofFields (fields ++ [(name, value)]) =
      Table.insert (utf8 name) value (Record.ofFields fields) := by
  simp [Record.ofFields, Table.ofList, Table.merge]

theorem joinedRecord_ofFields (separator : Separator) (fields : List (String × Value)) :
    joinedRecord separator (Record.ofFields fields) =
      Record.ofFields (fields ++ separatorFields separator) := by
  cases separator with
  | absent => rw [separatorFields, List.append_nil]; rfl
  | _ =>
    rw [separatorFields, textField, ofFields_append_singleton]
    · rfl
    · simp

/-- The records of the steps get their separators when the path is left. -/
theorem zipWith_joinedRecord (steps : Path) :
    List.zipWith (fun entry r => joinedRecord entry.1 r) steps
      (steps.map fun entry => entry.2.translation) = stepTranslations steps := by
  induction steps with
  | nil => rfl
  | cons entry rest ih =>
    obtain ⟨separator, step⟩ := entry
    rw [List.map_cons, List.zipWith_cons_cons, ih, stepTranslations, Step.translation,
      joinedRecord_ofFields]

theorem path_record? (steps : Path) :
    (Expr.path steps).record? (steps.map fun entry => entry.2.translation) =
      .ok (pathRecord (stepTranslations steps)) := by
  rw [Expr.record?, if_pos (by simp), zipWith_joinedRecord]
  rfl

/-- A path node adds the record of its steps. -/
theorem Builder.Emits.path {steps : Path} {inner : List Event}
    (h : Emits inner (steps.map fun entry => entry.2.translation)) :
    Emits (NodePath.within (pathNode steps) inner) [pathRecord (stepTranslations steps)] :=
  h.within rfl (path_record? steps)

theorem listField_translations (name : String) (es : List Expr) :
    listField name (translations es) =
      if es.isEmpty then [] else [(name, .records (translations es))] := by
  cases es <;> rfl

theorem Test.emits (t : Test) (h : (Node.test t).Complete) :
    ∃ events, t.events? = some events ∧ Emits events [t.translation] := by
  cases t with
  | missing => exact absurd rfl h.kind
  | name t => exact ⟨_, rfl, emits_leaf rfl (congrArg Except.ok t.record_eq)⟩
  | abbreviated step => exact ⟨_, rfl, emits_leaf rfl rfl⟩
  | nodeType type argument =>
    cases argument with
    | none => exact ⟨_, rfl, emits_nil.within rfl rfl⟩
    | some value =>
      -- The argument is shown as a text, and its record is dropped with the frame.
      have hinner : Emits (leafEvents (.expr (.literal value))) [_] := emits_leaf rfl rfl
      exact ⟨_, rfl, hinner.within rfl rfl⟩

mutual

/-- A walk through a complete tree adds its record, one case for each kind of node. -/
theorem Expr.emits : (e : Expr) → (Node.expr e).Complete →
    ∃ events, e.events? = some events ∧ Emits events [e.translation]
  | .missing, h => absurd rfl h.kind
  | .literal _, _ => ⟨_, rfl, emits_leaf rfl rfl⟩
  | .number _, _ => ⟨_, rfl, emits_leaf rfl rfl⟩
  | .boolean _, _ => ⟨_, rfl, emits_leaf rfl rfl⟩
  | .reference _, _ => ⟨_, rfl, emits_leaf rfl rfl⟩
  | .root, _ => ⟨_, rfl, emits_nil.within rfl rfl⟩
  | .path steps, h => by
    obtain ⟨inner, hinner, hsteps⟩ := steps_emit steps h.steps
    exact ⟨_, by rw [Expr.events?, hinner]; rfl, hsteps.path⟩
  | .absolute steps, h => by
    have hpath : (pathNode steps).Complete := h.child (List.mem_singleton.mpr rfl)
    obtain ⟨inner, hinner, hsteps⟩ := steps_emit steps hpath.steps
    exact ⟨_, by rw [Expr.events?, hinner]; rfl, hsteps.path.within rfl rfl⟩
  | .everywhere steps, h => by
    have hpath : (pathNode steps).Complete := h.child (List.mem_singleton.mpr rfl)
    obtain ⟨inner, hinner, hsteps⟩ := steps_emit steps hpath.steps
    exact ⟨_, by rw [Expr.events?, hinner]; rfl, hsteps.path.within rfl rfl⟩
  | .call function args, h => by
    obtain ⟨inner, hinner, hargs⟩ :=
      exprs_emit args fun e he => h.child (List.mem_map_of_mem he)
    refine ⟨_, by rw [Expr.events?, hinner]; rfl, hargs.within rfl ?_⟩
    rw [Expr.translation, ← listField_translations]
    rfl
  | .negate operand, h => by
    obtain ⟨inner, hinner, hoperand⟩ := operand.emits (h.child (List.mem_singleton.mpr rfl))
    exact ⟨_, by rw [Expr.events?, hinner]; rfl, hoperand.within rfl rfl⟩
  | .binary op comparison lhs rhs, h => by
    obtain ⟨left, hleft, hlhs⟩ := lhs.emits (h.child (by simp [Node.children]))
    obtain ⟨right, hright, hrhs⟩ := rhs.emits (h.child (by simp [Node.children]))
    exact ⟨_, by rw [Expr.events?, hleft, hright]; rfl, (hlhs.append hrhs).within rfl rfl⟩
  | .filter source predicates, h => by
    obtain ⟨inner, hinner, hsource⟩ := source.emits (h.child List.mem_cons_self)
    obtain ⟨filters, hfilters, hpredicates⟩ := exprs_emit predicates fun e he =>
      h.child (List.mem_cons_of_mem _ (List.mem_map_of_mem he))
    exact ⟨_, by rw [Expr.events?, hinner, hfilters]; rfl,
      (hsource.append hpredicates).within rfl rfl⟩
  | .continued source separator steps, h => by
    have hpath : (pathNode steps).Complete := h.child (by simp [Node.children])
    obtain ⟨inner, hinner, hsource⟩ := source.emits (h.child List.mem_cons_self)
    obtain ⟨further, hfurther, hsteps⟩ := steps_emit steps hpath.steps
    exact ⟨_, by rw [Expr.events?, hinner, hfurther]; rfl,
      (hsource.append hsteps.path).within rfl rfl⟩
  | .rootName t, h => by
    have htest : Emits (leafEvents (.test (.name t))) [_] :=
      emits_leaf rfl (congrArg Except.ok t.record_eq)
    exact ⟨_, rfl, htest.within rfl rfl⟩

theorem exprs_emit : (es : List Expr) → (∀ e ∈ es, (Node.expr e).Complete) →
    ∃ events, exprsEvents? es = some events ∧ Emits events (translations es)
  | [], _ => ⟨[], rfl, emits_nil⟩
  | e :: rest, h => by
    obtain ⟨first, hfirst, he⟩ := e.emits (h e List.mem_cons_self)
    obtain ⟨others, hothers, hrest⟩ :=
      exprs_emit rest fun e he => h e (List.mem_cons_of_mem _ he)
    exact ⟨_, by rw [exprsEvents?, hfirst, hothers]; rfl, he.append hrest⟩

theorem steps_emit : (steps : List (Separator × Step)) →
    (∀ entry ∈ steps, (Node.step entry.2).Complete) →
    ∃ events, pathEvents? steps = some events ∧
      Emits events (steps.map fun entry => entry.2.translation)
  | [], _ => ⟨[], rfl, emits_nil⟩
  | (separator, step) :: rest, h => by
    obtain ⟨first, hfirst, hstep⟩ := step.emits (h (separator, step) List.mem_cons_self)
    obtain ⟨others, hothers, hrest⟩ :=
      steps_emit rest fun entry he => h entry (List.mem_cons_of_mem _ he)
    exact ⟨_, by rw [pathEvents?, hfirst, hothers]; rfl, hstep.append hrest⟩

theorem Step.emits : (s : Step) → (Node.step s).Complete →
    ∃ events, s.events? = some events ∧ Emits events [s.translation]
  | .mk axis test predicates, h => by
    obtain ⟨inner, hinner, htest⟩ := test.emits (h.child List.mem_cons_self)
    obtain ⟨filters, hfilters, hpredicates⟩ := exprs_emit predicates fun e he =>
      h.child (List.mem_cons_of_mem _ (List.mem_map_of_mem he))
    refine ⟨_, by rw [Step.events?, hinner, hfilters]; rfl,
      (htest.append hpredicates).within rfl ?_⟩
    rw [Step.translation, Step.fields, ← listField_translations]
    rfl

end

theorem Node.emits (n : Node) (h : n.Complete) :
    ∃ events, n.events? = some events ∧ Emits events [n.translation] := by
  cases n with
  | expr e => exact e.emits h
  | test t => exact t.emits h
  | step s => exact s.emits h

theorem Node.Complete.dump_eq {n : Node} (h : n.Complete) : n.dump = .ok n.translation := by
  obtain ⟨events, hevents, hemits⟩ := n.emits h
  have hrun : Builder.start.run events = .ok ⟨.empty, some n.translation⟩ := hemits _
  rw [Node.dump, hevents]
  dsimp only
  rw [hrun]
  rfl

/-- The builder restores its frames and adds the translation of the tree, to the frame on top if
there is one; started without frames, it returns the translation. -/
theorem builder_translates (n : Node) (h : n.Complete) :
    ∃ events, n.events? = some events ∧
      (∀ top frames result, (Builder.mk ⟨top :: frames⟩ result).run events =
        .ok ⟨⟨(top ++ [n.translation]) :: frames⟩, result⟩) ∧
      (∀ result, (Builder.mk ⟨[]⟩ result).run events = .ok ⟨⟨[]⟩, some n.translation⟩) ∧
      n.dump = .ok n.translation := by
  obtain ⟨events, hevents, hemits⟩ := n.emits h
  refine ⟨events, hevents, fun top frames result => ?_, fun result => hemits _, ?_⟩
  · rw [hemits, emitAll_frame]
  · rw [Node.dump, hevents]
    dsimp only
    rw [hemits]
    rfl

/-- `(/*)[true()]//text('x')/..`, the source of which is made by hand. -/
def handMade : Node :=
  .expr (.continued (.filter (.rootName .any) [.call ⟨.trueCall, []⟩ []]) .descendant
    [(.absent, .mk none (.nodeType (utf8 "text") (some (utf8 "x"))) []), (.child, .sign .parent)])

theorem builder_translates_handMade :
    handMade.Complete ∧ ∃ events, handMade.events? = some events ∧
      (Builder.mk ⟨[[Record.ofFields [kindField "literal"]], []]⟩ none).run events =
        .ok ⟨⟨[[Record.ofFields [kindField "literal"], handMade.translation], []]⟩, none⟩ ∧
      handMade.dump = .ok handMade.translation := by
  have hcomplete : handMade.Complete := by
    show ∀ m ∈ handMade.nodes, m.kind? ≠ none
    decide +kernel
  obtain ⟨events, hevents, hframe, -, hdump⟩ := builder_translates handMade hcomplete
  exact ⟨hcomplete, events, hevents, hframe _ _ _, hdump⟩

end NodePath
