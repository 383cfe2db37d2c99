import QueryFusion.Proofs.Generate.RowCode

/-!
# What generators write for a row

The generators of a run follow the rules for the code of a row, as long as they write code at all.
Their lines are read as the statements of the steps, with comments around the code of each node, and
the whole stands in the loop over the entries of the scan.
-/

namespace QueryFusion.Generate

open Emit
open Script (Term Ty Stmt stmtTokens)

/-! ## Fields and conditions -/

section Emission

variable {draft : RoutineDraft} {id : NodeId} {spec : ScanSpec}

/-- The text of reading the cursor. -/
theorem cursor_text (method : String) :
    invoke (VariableKind.scanCursor.sourceOf id) method [] =
      (Term.call .first (cursorTerm id) method []).source := by
  have tight : (cursorTerm id).level = 8 := rfl
  have text : VariableKind.scanCursor.sourceOf id = (cursorTerm id).source := by
    simp [VariableKind.sourceOf, thisField, cursorTerm, Term.source, Term.level, Script.enclose]
  rw [text]
  exact invoke_eq tight method []

/-- The whole key or value is written by the rules. -/
theorem emitTop_code (ofKey : Bool) (locals : ScanLocals) :
    Drafts (emitTop id spec ofKey locals) draft
      (fun result next => ∃ bindings, TopCode id spec ofKey locals result.1 result.2 bindings ∧
        Writes draft bindings next)
      fun _ _ => True := by
  have method : (if ofKey then Script.Method.cursorKey else .cursorValue).name =
      sideName ofKey := by
    cases ofKey <;> rfl
  have written : "_" ++ id.text ++ "_top_" ++ sideName ofKey = topName id ofKey := by
    simp [topName, stemOf, String.append_assoc]
  unfold emitTop
  cases found : (if ofKey then locals.key else locals.value) with
  | some top => exact .pure ⟨[], .known found, .refl draft⟩
  | none =>
    have read := @cursor_text id (sideName ofKey)
    dsimp only
    rw [method, written]
    have shaped : (if ofKey then spec.keyShape else spec.valueShape) = spec.shapeOf ofKey := rfl
    rw [shaped]
    have rule : TopCode id spec ofKey locals _ _ _ := .read found
    revert rule
    cases spec.shapeOf ofKey with
    | ofClass className =>
      intro rule
      have text : castTo (invoke (VariableKind.scanCursor.sourceOf id) (sideName ofKey) [])
          (LocalType.object className).name =
            (topBinding id ofKey (.ofClass className)).value.source := by
        have tight : (readTerm id ofKey).level = 8 := rfl
        rw [read]
        exact castTo_eq tight (.object (some className))
      dsimp only
      rw [text]
      refine (declare_writes (topBinding id ofKey (.ofClass className))).bind ?_
      rintro _ next ⟨-, writes⟩
      exact .pure ⟨_, rule, writes⟩
    | scalar type =>
      intro rule
      have text : invoke (VariableKind.scanCursor.sourceOf id) (sideName ofKey) [] =
          (topBinding id ofKey (.scalar type)).value.source := read
      dsimp only
      rw [text]
      refine (declare_writes (topBinding id ofKey (.scalar type))).bind ?_
      rintro _ next ⟨-, writes⟩
      exact .pure ⟨_, rule, writes⟩

/-- A field is declared under its own name or under that with its index. -/
theorem declareField_code {own : String} {value : Term} {type : DataType} (index : Nat)
    (locals : ScanLocals) :
    Drafts
      (do
        let taken := ((← get).localOf? own).isSome
        let entry : Local := ⟨if taken then own ++ "_" ++ toString index else own, .scalar type⟩
        Drafting.declare entry value.source
        pure (entry, locals)) draft
      (fun result next => ∃ name, Numerable own name ∧ result = (⟨name, .scalar type⟩, locals) ∧
        Writes draft [⟨⟨name, .scalar type⟩, value⟩] next)
      fun _ _ => True := by
  refine get_succeeds.bind ?_
  rintro _ _ ⟨rfl, rfl⟩
  rename RoutineDraft => draft
  dsimp only
  generalize named : (if (draft.localOf? own).isSome then own ++ "_" ++ toString index else own) =
    name
  have numerable : Numerable own name := by
    rw [← named]
    split
    · exact .inr ⟨index, rfl⟩
    · exact .inl rfl
  refine (declare_writes ⟨⟨name, .scalar type⟩, value⟩).bind ?_
  rintro _ next ⟨-, writes⟩
  exact .pure ⟨name, numerable, rfl, writes⟩

/-- A field is written by the rules. -/
theorem emitField_code (index : Nat) (path : FieldPath) (type : DataType) (locals : ScanLocals) :
    Drafts (emitField id spec index path type locals) draft
      (fun result next => ∃ bindings, FieldCode id spec path type locals result.1
        result.2 bindings ∧
        Writes draft bindings next)
      fun _ _ => True := by
  have stem : "_" ++ id.text ++ "_" ++ (if path.ofKey then "key" else "value") =
      stemOf id (sideName path.ofKey) := rfl
  have shaped : (if path.ofKey then spec.keyShape else spec.valueShape) =
      spec.shapeOf path.ofKey := rfl
  unfold emitField
  refine (emitTop_code path.ofKey locals).bind ?_
  rintro ⟨top, known⟩ changed ⟨bindings, read, writes⟩
  dsimp only at read ⊢
  have tight : (termOf top).level = 8 := rfl
  rw [stem, shaped]
  cases below : path.below with
  | none =>
    cases shape : spec.shapeOf path.ofKey with
    | ofClass className => exact .pure ⟨bindings, .whole below shape read, writes⟩
    | scalar scalar =>
      have text : castTo top.name (LocalType.scalar type).name =
          (Term.cast .first (termOf top) (writtenType (scalarTy type))).source :=
        castTo_eq tight (scalarTy type)
      dsimp only
      rw [text]
      refine (declareField_code index known).imp ?_ fun _ _ _ => trivial
      rintro _ next ⟨name, named, rfl, more⟩
      exact ⟨_, .scalar below shape read named, writes.trans more⟩
  | some field =>
    cases shape : spec.shapeOf path.ofKey with
    | scalar scalar => exact .throw trivial
    | ofClass className =>
      have called : (Term.call .first (termOf top) (getterName field) []).level = 8 := rfl
      have text : "(" ++ top.name ++ " == null) ? null : " ++
          castTo (invoke top.name (getterName field) []) (LocalType.scalar type).name =
            (fieldTerm top field type).source := by
        have inner : invoke top.name (getterName field) [] =
            (Term.call .first (termOf top) (getterName field) []).source :=
          invoke_eq tight (getterName field) []
        have typed : (LocalType.scalar type).name = (scalarTy type).text := rfl
        rw [inner, typed, castTo_eq called, fieldTerm, Term.source, equalTerm_source _ rfl,
          ← String.toList_inj]
        simp [Term.level, equalTerm, Script.BinaryOp.level, Script.enclose, Term.source]
      dsimp only
      rw [text]
      refine (declareField_code index known).imp ?_ fun _ _ _ => trivial
      rintro _ next ⟨name, named, rfl, more⟩
      exact ⟨_, .field below shape read named, writes.trans more⟩

/-- All fields are written by the rules. -/
theorem emitFields_code (fields : List (FieldPath × DataType)) (index : Nat) (locals : ScanLocals) :
    Drafts (emitFields id spec fields index locals) draft
      (fun row next => ∃ bindings, FieldsCode id spec fields locals row bindings ∧
        Writes draft bindings next)
      fun _ _ => True := by
  induction fields generalizing index locals draft with
  | nil => exact .pure ⟨[], .nil, .refl draft⟩
  | cons field rest step =>
    obtain ⟨path, type⟩ := field
    rw [emitFields]
    cases found : locals.fields.find? fun entry => entry.1 == (path, type) with
    | some seen =>
      obtain ⟨key, entry⟩ := seen
      have same : key = (path, type) := by simpa using List.find?_some found
      have member := List.mem_of_find?_eq_some found
      rw [same] at member
      refine (step (index + 1) locals).bind ?_
      rintro others next ⟨bindings, further, writes⟩
      exact .pure ⟨bindings, .again member further, writes⟩
    | none =>
      refine (emitField_code index path type locals).bind ?_
      rintro ⟨entry, known⟩ changed ⟨first, read, writes⟩
      refine (step (index + 1) (known.withField path type entry)).bind ?_
      rintro others next ⟨bindings, further, more⟩
      exact .pure ⟨first ++ bindings, .fresh read further, writes.trans more⟩

/-- The names that an expression takes are free below a free stem. -/
theorem names_free {suffix : String} {inputs : List Local} {expr : Expr}
    (free : Lacks draft (Under (stemOf id suffix))) :
    ∀ name ∈ Inlining.names ⟨stemOf id suffix, inputs⟩ expr, draft.localOf? name = none := by
  have under : ∀ name ∈ Inlining.names ⟨stemOf id suffix, inputs⟩ expr,
      Under (stemOf id suffix) name := by
    intro name member
    rcases List.mem_cons.1 member with rfl | behind
    · exact .inl rfl
    rcases List.mem_cons.1 behind with rfl | numbered
    · exact .inr ⟨"row", by rw [String.append_assoc]; rfl⟩
    · obtain ⟨number, -, rfl⟩ := List.mem_map.1 numbered
      exact (expressionName_nameOf id suffix inputs number).1
  intro name member
  rw [localOf?_eq_none_iff]
  intro entry inside same
  exact free entry inside (same ▸ under name member)

/-- The text of a field of the unit. -/
theorem sourceOf_eq (kind : VariableKind) (id : NodeId) :
    kind.sourceOf id = (Keeper.field (kind.fieldOf id)).term.source := by
  simp [VariableKind.sourceOf, thisField, Keeper.term, Term.source, Term.level, Script.enclose]

/-- A condition with its test is written by the rules. -/
theorem emitTest_code {kind : VariableKind} {condition : Expr} {inputs : List Local}
    (free : Lacks draft (Under (stemOf id "filter"))) :
    Succeeds (do
        let passed ← emitCondition id "filter" condition inputs (kind.sourceOf id)
        emitSkipUnless passed) draft
      fun _ next => ∃ steps, TestCode id kind inputs condition steps ∧
        Grows False draft steps next := by
  unfold emitCondition
  rw [sourceOf_eq, bind_assoc]
  have emitted : Succeeds (emitExpression id "filter" condition inputs
      (Keeper.field (kind.fieldOf id)).term.source) draft fun entry next =>
        (∃ bindings, Inlining.Emits ⟨stemOf id "filter", inputs⟩
          (.field (kind.fieldOf id)) condition
          next.imports entry bindings ∧ Writes draft bindings next) ∧
            Adds draft next (ExpressionName id "filter") :=
    (Drafts.and (emitExpression_emits (names_free free))
      (emitExpression_succeeds condition inputs _ free)).imp (fun _ _ both => both)
        fun _ _ never => never.1
  refine emitted.bind ?_
  rintro entry changed ⟨⟨bindings, emits, writes⟩, adds⟩
  by_cases boolean : entry.type = .scalar .boolean
  · rw [if_pos boolean]
    refine (emitSkipUnless_grows entry).imp ?_ fun _ _ never => never
    intro _ next grows
    exact ⟨_, .boolean emits boolean, writes.grows.before grows⟩
  · rw [if_neg boolean]
    have lacks : Lacks changed (· = (passedBinding id entry).entry.name) := by
      refine Lacks.adds ?_ adds fun name named same => named.2 same
      intro other member same
      exact free other member (same ▸ under_passed id "filter")
    have finish : ∀ text, text = (passedBinding id entry).value.source →
        Succeeds (do
          Drafting.declare (passedLocal id) text
          emitSkipUnless (passedLocal id)) changed fun _ next =>
            ∃ steps, TestCode id kind inputs condition steps ∧ Grows False draft steps next := by
      rintro _ rfl
      have declared : Succeeds (Drafting.declare (passedBinding id entry).entry
          (passedBinding id entry).value.source) changed
          fun _ next => Writes changed [passedBinding id entry] next := by
        refine (Drafts.and (declare_succeeds lacks _) (declare_writes (passedBinding id entry))).imp
          ?_ ?_
        · exact fun _ _ both => both.2.2
        · exact fun _ _ never => never.1
      refine declared.bind ?_
      intro _ last more
      refine (emitSkipUnless_grows (passedLocal id)).imp ?_ fun _ _ never => never
      intro _ next grows
      exact ⟨_, .cast emits boolean, writes.grows.before (more.grows.before grows)⟩
    simp only [bind_assoc, pure_bind]
    refine finish _ ?_
    have named : (termOf entry).level = 8 := rfl
    have taken : (Term.cast .first (termOf entry) (writtenType .value)).level = 8 := rfl
    have through := castTo_eq taken .boolean
    rw [← castTo_eq named .value] at through
    cases shape : entry.type with
    | object className =>
      simp only [passedBinding, shape]
      exact through
    | _ =>
      simp only [passedBinding, shape]
      exact castTo_eq named .boolean

/-- The line that opens the loop over the entries. -/
def loopLine (id : NodeId) : List Command :=
  lineOf ("while (" ++ (Term.call .first (cursorTerm id) "tryAdvance" []).source ++ ") \x7b") ++
    [Command.indent]

/-- A scan is written by the rules, inside the loop over its entries. -/
theorem emitScan_code (accepted : checkScan spec = .ok ()) (empty : draft.locals = []) :
    Drafts (emitScan id spec) draft
      (fun row next => ∃ steps, RowCode False (.scan id spec) row steps ∧
        Grows False (draft.extend (loopLine id)) steps next)
      fun _ _ => True := by
  obtain ⟨-, accepted⟩ := checkScan_ok accepted
  have opening : Succeeds (Drafting.opening ("while (" ++ invoke
      (VariableKind.scanCursor.sourceOf id) "tryAdvance" [] ++ ") \x7b")) draft
      fun _ next => next = draft.extend (loopLine id) := by
    rw [cursor_text]
    exact .of_ok rfl rfl
  unfold emitScan
  refine opening.bind ?_
  rintro _ _ rfl
  have names := emitFields_drafts
    (@ScanNames.start (draft.extend (loopLine id)) id spec _ empty) List.drop_zero accepted
  refine (Drafts.and (emitFields_code (spec.paths.zip spec.types) 0 .empty) names).imp
    (fun _ _ both => both) (fun _ _ _ => trivial) |>.bind ?_
  rintro fields changed ⟨⟨bindings, read, writes⟩, -, roles, -⟩
  have locals : changed.locals = bindings.map Binding.entry := by
    rw [writes.locals, show (draft.extend (loopLine id)).locals = [] from empty, List.nil_append]
  have plain : ∀ role ∈ ["top", "key", "value"], Plain role ∧ role ≠ "filter" := by
    intro role member
    obtain ⟨top, key, value, -⟩ := plain_roles
    simp only [List.mem_cons, List.not_mem_nil, or_false] at member
    rcases member with rfl | rfl | rfl
    · exact ⟨top, by decide⟩
    · exact ⟨key, by decide⟩
    · exact ⟨value, by decide⟩
  have free : Lacks changed (Under (stemOf id "filter")) := by
    intro entry member other
    obtain ⟨role, listed, under⟩ := roles entry member
    exact (plain role listed).2
      (under.role_unique other (plain role listed).1 plain_roles.2.2.2.1)
  have apart : Apart (stemOf id "filter") bindings := by
    intro binding member
    refine free binding.entry ?_
    rw [locals]
    exact List.mem_map_of_mem member
  have differ : (bindings.map fun binding => binding.entry.name).Nodup := by
    have once := changed.names_nodup
    rw [locals, List.map_map] at once
    exact once
  have chosen : ∀ {next : RoutineDraft} {steps : List RowStep},
      OptionalTestCode id .scanFilter fields spec.filter steps → Grows False changed steps next →
      Drafts (liftExcept (selectLocals id fields spec.projects) : Drafting (List Local)) next
        (fun row next => ∃ steps, RowCode False (.scan id spec) row steps ∧
          Grows False (draft.extend (loopLine id)) steps next) fun _ _ => True := by
    intro next steps tests grows
    refine .liftExcept (fun row selected => ?_) fun _ _ => trivial
    exact ⟨_, .scan read differ tests apart selected, writes.grows.before grows⟩
  cases filtered : spec.filter with
  | none =>
    rw [filtered] at chosen
    refine chosen .none ⟨⟨[], (List.append_nil _).symm, fun _ => .of_yields .nil⟩, ?_,
      .refl changed⟩
    exact (List.append_nil _).symm
  | some condition =>
    rw [filtered] at chosen
    have tested := @emitTest_code _ _ .scanFilter condition fields free
    have whole := Succeeds.bind tested fun _ next found =>
      found.elim fun _ found => chosen (.some found.1) found.2
    rw [bind_assoc] at whole
    exact whole

/-- How the code of a unit gets hold of an expression of a projection. -/
def projectText (id : NodeId) (index : Nat) : String :=
  invoke (VariableKind.projectExpressions.sourceOf id) Script.Method.listGet.name [toString index]

/-- The text is that of a call, as long as the number of the expression is an integer. -/
theorem projectText_eq {index : Nat} (small : index < 2 ^ 31) :
    projectText id index = (projectKeeper id index).term.source := by
  have number : (Int32.ofNat index).toInt = index := by
    rw [Int32.toInt_ofNat_of_lt]
    omega
  have target : (Term.member .first (.this .first)
      (VariableKind.projectExpressions.fieldOf id)).level = 8 := rfl
  have text : [toString index] = Term.sources [.int .first (Int32.ofNat index)] := by
    rw [Term.sources, Term.source, number]
    rfl
  rw [projectText, sourceOf_eq, text]
  exact invoke_eq target "get" _

/-- A number that is no integer is read as one out of range. -/
theorem wide_toDigits {index : Nat} (large : 2 ^ 31 ≤ index) :
    Script.Token.Wide ⟨.integer, String.ofList (Nat.toDigits 10 index), .first⟩ := by
  refine ⟨rfl, ?_, ?_⟩
  · rw [String.toList_ofList]
    intro suffixed
    have digit := Nat.isDigit_of_mem_toDigits (by decide) (by decide)
      (List.mem_of_getLast? suffixed)
    exact absurd digit (by decide)
  · rw [String.toList_ofList, Script.valueOf_toDigits, int32?, if_neg (by omega)]

/-- What evaluates an expression whose number is no integer has an integer out of range. -/
theorem prints_projectText {index : Nat} (large : 2 ^ 31 ≤ index) {name : String}
    (field : Script.isName (VariableKind.projectExpressions.fieldOf id) = true)
    (named : Script.isName name = true) : ∃ tokens,
      Script.Prints (Term.call .first (.name .first (projectText id index)) "eval"
        [.name .first name]).source tokens ∧ Script.Overflows tokens := by
  let list : Term := .member .first (.this .first) (VariableKind.projectExpressions.fieldOf id)
  have listed : list.Writable := ⟨trivial, field⟩
  have number := Script.Prints.integer (index : Int)
  have get : Script.isName "get" = true := by decide
  have eval : Script.isName "eval" = true := by decide
  have item := (Script.Term.prints listed).called get (.cons number .nil)
  have whole := item.called eval (.cons (.name named) .nil)
  have text : (Term.call .first (.name .first (projectText id index)) "eval"
      [.name .first name]).source = list.source ++ "." ++ "get" ++ "(" ++
        String.intercalate ", " [toString (index : Int)] ++ ")" ++ "." ++ "eval" ++ "(" ++
          String.intercalate ", " [name] ++ ")" := by
    have target : VariableKind.projectExpressions.sourceOf id = list.source := sourceOf_eq _ _
    simp only [Term.source, Term.level, Script.enclose, projectText, target]
    rfl
  have digits : Script.integerTokens (index : Int) [] =
      [⟨.integer, String.ofList (Nat.toDigits 10 index), .first⟩] := by
    simp [Script.integerTokens]
  rw [← text, digits] at whole
  refine ⟨_, whole, .append (.append ?_ _) _⟩
  exact ⟨list.tokens ++ [Script.Token.mark ".", .named "get"], .mark "(", _, [.mark ")"],
    by simp [Script.separated], rfl, wide_toDigits large⟩

/-- One expression of a projection is written by the rules. -/
theorem emitProject_code (row : List Local) (expression : Expr) {index : Nat}
    (free : Lacks draft (Under (stemOf id ("project_" ++ toString index)))) :
    Succeeds (emitExpression id ("project_" ++ toString index) expression row
      (projectText id index))
      draft fun entry next => ∃ wide bindings, (wide → 2 ^ 31 ≤ index) ∧
        (projection id row index).Emits (projectKeeper id index) expression next.imports entry
          bindings ∧
        (¬ wide → inlineType? (projection id row index).inputTypes expression = none →
          index < 2 ^ 31) ∧ Grows wide draft (bindings.map .bind) next := by
  by_cases small : index < 2 ^ 31
  · rw [projectText_eq small]
    refine (emitExpression_emits (names_free free)).imp ?_ fun _ _ never => never
    rintro entry next ⟨bindings, emits, writes⟩
    exact ⟨False, bindings, False.elim, emits, fun _ _ => small, writes.grows⟩
  · have large : 2 ^ 31 ≤ index := by omega
    refine (@emitExpression_emits _ _ _ _ (.held (projectText id index)) _
      (names_free free)).imp ?_ fun _ _ never => never
    rintro entry next ⟨bindings, emits, writes⟩
    cases emits with
    | inlined inlines =>
      refine ⟨False, bindings, False.elim, .inlined inlines, fun _ untyped => ?_, writes.grows⟩
      have typed := inlines.type_eq.symm.trans untyped
      cases typed
    | evaluated untyped provided =>
      let inlining := projection id row index
      refine ⟨True, [inlining.rowBinding, inlining.evalBinding (projectKeeper id index)],
        fun _ => large, .evaluated untyped provided, fun fits => absurd trivial fits,
        ⟨_, writes.commands, fun writable => ?_⟩, writes.locals, writes.continues⟩
      rw [List.map_cons, List.map_singleton, List.forall_mem_cons, List.forall_mem_singleton]
        at writable
      obtain ⟨row, named, typed, ⟨⟨-, field⟩, -⟩, -, argument, -⟩ := writable
      obtain ⟨tokens, prints, overflows⟩ := @prints_projectText id index large _ field argument
      have first := yields_linesOf (List.forall_mem_singleton.2 row)
      have second := Yields.declared named typed prints
      rw [writtenType_text] at second
      have behind : Shows True (linesOf [inlining.evalBinding (.held (projectText id index))])
          (stmtTokens [(inlining.evalBinding (projectKeeper id index)).statement]) := by
        have line : linesOf [inlining.evalBinding (.held (projectText id index))] = lineOf _ :=
          List.append_nil _
        rw [line]
        have valued := (overflows.append [.mark ";"]).prepend [.sign "="]
        have typed := valued.prepend (writtenType LocalType.value.ty).tokens
        exact ⟨fun fits => absurd trivial fits, fun _ => ⟨_, second,
          typed.prepend [.reserved "let", .named inlining.stem, .mark ":"]⟩⟩
      exact ((Shows.of_yields first).block behind).congr (Iff.of_eq (false_or True))

/-- The expressions of a projection are written by the rules. -/
theorem emitProjects_code (row : List Local) (expressions : List Expr) {index : Nat}
    (free : ∀ number, index ≤ number →
      Lacks draft (Under (stemOf id ("project_" ++ toString number)))) :
    Succeeds (Generator.emitProjects id row expressions index) draft
      fun projected next => ∃ wide bindings, (wide → 2 ^ 31 < index + expressions.length) ∧
        ProjectsCode wide id row expressions index projected bindings ∧
        Grows wide draft (bindings.map .bind) next := by
  induction expressions generalizing draft index with
  | nil =>
    exact .pure ⟨False, [], False.elim, .nil,
      ⟨[], (List.append_nil _).symm, fun _ => .of_yields .nil⟩,
      (List.append_nil _).symm, .refl draft⟩
  | cons expression rest step =>
    rw [List.length_cons]
    have here := free index (Nat.le_refl _)
    rw [Generator.emitProjects]
    refine Succeeds.bind ((Drafts.and (emitProject_code row expression here)
      (emitExpression_succeeds expression row _ here)).imp (fun _ _ both => both)
        fun _ _ never => never.1) ?_
    rintro entry next ⟨⟨wide, first, large, emits, small, grows⟩, adds⟩
    have later : ∀ number, index + 1 ≤ number →
        Lacks next (Under (stemOf id ("project_" ++ toString number))) := by
      intro number behind
      refine (free number (by omega)).adds adds fun name mine other => ?_
      have := @projection_unique id row index number name mine.1 other
      omega
    refine (step later).bind ?_
    rintro others last ⟨many, bindings, most, further, more⟩
    have code : ProjectsCode (wide ∨ many) id row (expression :: rest) index (entry :: others)
        (first ++ bindings) :=
      .cons emits (fun fits => small fun wide => fits (.inl wide)) (further.imp .inr)
    refine .pure ⟨wide ∨ many, first ++ bindings, ?_, code, ?_⟩
    · rintro (wide | many)
      · have := large wide
        omega
      · have := most many
        omega
    · rw [List.map_append]
      exact grows.trans more

/-- The characters of the text of an id stand on one line. -/
theorem text_plain (id : NodeId) : ∀ c ∈ id.text.toList, c ≠ '\n' ∧ c ≠ '\x00' := by
  have digits : ∀ number : Nat, ∀ c ∈ Nat.toDigits 10 number, c ≠ '\n' ∧ c ≠ '\x00' := by
    intro number c member
    have digit := Nat.isDigit_of_mem_toDigits (by decide) (by decide) member
    constructor <;>
    · rintro rfl
      exact absurd digit (by decide)
  unfold NodeId.text
  rw [Script.toList_toString]
  intro c member
  split at member
  · exact digits _ c member
  · rcases List.mem_cons.1 member with rfl | behind
    · decide
    · exact digits _ c behind

/-- A text without line ends, checked character by character. -/
theorem plain_of_all {text : String}
    (checked : (text.toList.all fun c => c != '\n' && c != '\x00') = true) :
    ∀ c ∈ text.toList, c ≠ '\n' ∧ c ≠ '\x00' := by
  simpa using checked

/-- The comment in front of the code of a node. -/
def startComment (generator : Generator) : String :=
  "// NODE START: " ++ generator.id.text ++ " (" ++ generator.kindName ++ ")"

/-- The comment in front of a node spells nothing. -/
theorem yields_startComment (generator : Generator) :
    Yields (lineOf (startComment generator)) [] := by
  have kind : ∀ c ∈ generator.kindName.toList, c ≠ '\n' ∧ c ≠ '\x00' := by
    refine plain_of_all ?_
    cases generator <;> simp only [Generator.kindName] <;> decide
  have front : ∀ c ∈ " NODE START: ".toList, c ≠ '\n' ∧ c ≠ '\x00' := plain_of_all (by decide)
  have opening : ∀ c ∈ " (".toList, c ≠ '\n' ∧ c ≠ '\x00' := plain_of_all (by decide)
  have closing : ∀ c ∈ ")".toList, c ≠ '\n' ∧ c ≠ '\x00' := plain_of_all (by decide)
  have split : ∀ name kind : String, "// NODE START: " ++ name ++ " (" ++ kind ++ ")" =
      "//" ++ (" NODE START: " ++ name ++ " (" ++ kind ++ ")") := by
    intro name kind
    rw [← String.toList_inj]
    simp
  have text : startComment generator = _ := split generator.id.text generator.kindName
  rw [text]
  refine .comment ?_
  simp only [String.toList_append, List.forall_mem_append]
  exact ⟨⟨⟨⟨front, text_plain generator.id⟩, opening⟩, kind⟩, closing⟩

/-- The comment behind a node spells nothing. -/
theorem yields_endComment (generator : Generator) :
    Yields (lineOf ("// NODE END  : " ++ generator.id.text)) [] := by
  have front : ∀ c ∈ " NODE END  : ".toList, c ≠ '\n' ∧ c ≠ '\x00' := plain_of_all (by decide)
  have text : "// NODE END  : " ++ generator.id.text =
      "//" ++ (" NODE END  : " ++ generator.id.text) := by
    have split : "// NODE END  : " = "//" ++ " NODE END  : " := by simp
    rewrite [split]
    simp only [String.append_assoc, -String.reduceAppend]
  rw [text]
  refine .comment ?_
  simp only [String.toList_append, List.forall_mem_append]
  exact ⟨front, text_plain generator.id⟩

/-- The code of a scan, with the names that it takes. -/
theorem scan_rowStart (accepted : checkScan spec = .ok ()) (empty : draft.locals = []) :
    Drafts (Generator.rowStart none (.scan id spec)) draft
      (fun result next => ∃ row steps, result = some row ∧ RowCode False (.scan id spec) row steps ∧
        Grows False (draft.extend (loopLine id)) steps next ∧ Owned [id] id next)
      fun _ _ => True := by
  have both := Drafts.and (@emitScan_code _ id _ accepted empty) (emitScan_drafts accepted empty)
  refine (both.imp (fun _ _ holds => holds) fun _ _ _ => trivial).bind ?_
  rintro row next ⟨⟨steps, code, grows⟩, owned, -⟩
  exact .pure ⟨row, steps, rfl, code, grows, owned⟩

/-- The code of a filter, with the names that it takes. -/
theorem filter_rowStart (condition : Expr) (row : List Local)
    (free : Lacks draft (Under (stemOf id "filter"))) :
    Succeeds (Generator.rowStart (some row) (.filter id condition)) draft
      fun result next => result = some row ∧
        (∃ steps, TestCode id .filterCondition row condition steps ∧ Grows False draft steps next) ∧
        Adds draft next (Under (stemOf id "filter")) := by
  have named : Succeeds (do
      let passed ← emitCondition id "filter" condition row
        (VariableKind.filterCondition.sourceOf id)
      emitSkipUnless passed) draft fun _ next => Adds draft next (Under (stemOf id "filter")) := by
    refine (emitCondition_succeeds condition row _ free).bind fun passed tested adds => ?_
    refine (emitSkipUnless_succeeds passed).imp (fun _ _ kept => ?_) fun _ _ never => never
    exact adds.trans (.refl kept)
  have both := Drafts.and (@emitTest_code _ _ .filterCondition _ _ free) named
  have done : ∀ next, ((∃ steps, TestCode id .filterCondition row condition steps ∧
      Grows False draft steps next) ∧ Adds draft next (Under (stemOf id "filter"))) →
      Succeeds (pure (some row)) next fun result next => result = some row ∧
        (∃ steps, TestCode id .filterCondition row condition steps ∧ Grows False draft steps next) ∧
        Adds draft next (Under (stemOf id "filter")) := fun _ holds => .pure ⟨rfl, holds⟩
  have whole := Drafts.bind (both.imp (fun _ _ holds => holds) fun _ _ never => never.1)
    fun _ => done
  rw [bind_assoc] at whole
  exact whole

/-- The code of a projection, with the names that it takes. -/
theorem project_rowStart (expressions : List Expr) (row : List Local)
    (free : ∀ suffix, Lacks draft (Under (stemOf id suffix))) :
    Succeeds (Generator.rowStart (some row) (.project id expressions)) draft
      fun result next => ∃ wide projected bindings, result = some projected ∧
        (wide → 2 ^ 31 < expressions.length) ∧
        ProjectsCode wide id row expressions 0 projected bindings ∧
        Grows wide draft (bindings.map .bind) next ∧
        Adds draft next (Under (stemOf id "project")) := by
  have both := Drafts.and (@emitProjects_code _ _ row expressions 0 fun number _ => free _)
    (emitProjects_succeeds row expressions fun number _ => free _)
  have whole : Succeeds (do
      let projected ← Generator.emitProjects id row expressions 0
      pure (some projected)) draft fun result next => ∃ wide projected bindings,
        result = some projected ∧ (wide → 2 ^ 31 < expressions.length) ∧
        ProjectsCode wide id row expressions 0 projected bindings ∧
        Grows wide draft (bindings.map .bind) next ∧
        Adds draft next (Under (stemOf id "project")) := by
    refine Drafts.bind (both.imp (fun _ _ holds => holds) fun _ _ never => never.1) ?_
    rintro projected next ⟨⟨wide, bindings, many, code, grows⟩, adds⟩
    rw [Nat.zero_add] at many
    exact .pure ⟨wide, projected, bindings, rfl, many, code, grows, adds⟩
  exact whole

end Emission

end QueryFusion.Generate
