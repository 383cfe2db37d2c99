import QueryFusion.Proofs.Generate.Binding
import QueryFusion.Proofs.Generate.CompiledUnits
import QueryFusion.Proofs.Generate.EmittedValues
import QueryFusion.Proofs.Script.Refinement

/-!
# Units of one expression

The code of an expression is put into a unit of its own. Fields hold the values of the locals that
are in scope and the expression itself, and one more field takes the result. The source of such a
unit is accepted, and a run of it leaves in that field what the expression gives on the row of its
inputs, or fails with the error of the expression.
-/

namespace QueryFusion

namespace Generate

open Emit
open Script (Term TypeName Ty Stmt Slot Env CompiledUnit Memory FieldDecl RoutineDecl Member Import
  SourceUnit UnitScope FieldInfo UnitFrame AcceptsRoutine Admits Locals Contents stmtTokens isName)

/-- An expression with what surrounds its code: the locals in scope, those among them that it is
evaluated on, and the node and the suffix that its own locals are named after. -/
structure Formula where
  locals : List Local
  inputs : List Local
  id : NodeId
  suffix : String
  expr : Expr

namespace Formula

/-- The field with the value of a local. -/
def inputField (entry : Local) : String :=
  "in_" ++ entry.name

/-- The field with the expression. -/
def expressionField : String :=
  "expression"

/-- The field for the result. -/
def outcomeField : String :=
  "outcome"

/-- Names and types of the fields. -/
def fields (formula : Formula) (result : Local) : List FieldInfo :=
  formula.locals.map (fun entry => ⟨inputField entry, entry.type.ty⟩) ++
    [⟨expressionField, .expression⟩, ⟨outcomeField, result.type.ty⟩]

/-- Writes the routine: it reads the locals, computes the expression and stores the result. -/
def emit (formula : Formula) : Drafting Local := do
  emitEach (fun entry => Drafting.declare entry (thisField (inputField entry))) formula.locals
  let result ← emitExpression formula.id formula.suffix formula.expr formula.inputs
    (thisField expressionField)
  Drafting.line (thisField outcomeField ++ " = " ++ result.name ++ ";")
  let done ← Drafting.staticMember Ty.progress.text "FETCHED_DONE"
  Drafting.line ("return " ++ done ++ ";")
  pure result

/-- The modules that the unit imports: those of its routine, of its fields and of its base. -/
def imports (formula : Formula) (result : Local) (routine : RoutineDraft) : List String :=
  insertModules routine.imports (insertModules
    ((formula.fields result).flatMap fun field => Symbol.modulesOfType field.type.text)
      ["sql.exec"])

/-- The constructor of the unit. -/
def constructor : RoutineDraft :=
  (RoutineDraft.start .constructor []).extend (lineOf "super(1, [1]);")

/-- The unit under construction. -/
def draft (formula : Formula) (result : Local) (routine : RoutineDraft) : UnitDraft :=
  ⟨Symbol.unitModule, "Formula", Symbol.baseUnit, formula.imports result routine,
    (formula.fields result).map fun field => (field.name, field.type.text),
    [constructor, .start (.method "prepare" none) [("exec", Ty.executor.text)],
      .start (.method "setup" none) [("ctx", Ty.context.text)], routine]⟩

/-- Writes the unit and compiles its source. -/
def compile (formula : Formula) : Except Error (Local × CompiledUnit) :=
  match formula.emit.runOn advanceStart with
  | (.error error, _) => .error error
  | (.ok result, routine) => do
    let unit ← Script.compile (formula.draft result routine).source
      (formula.draft result routine).qualifiedName
    .ok (result, unit)

/-- The memory of an instance of the unit. -/
def memory (formula : Formula) (content : Local → Value) (outcome : Slot) (batch : RowBatch) :
    Memory :=
  ⟨formula.locals.map (fun entry => Slot.value (content entry)) ++
    [Slot.handle (.expression formula.expr), outcome], batch, []⟩

/-- What a run of the routine should come to: the value of the expression in the field for the
result, or the error of the expression and nothing stored. -/
def answer (formula : Formula) (content : Local → Value) (batch : RowBatch) :
    Except Error Slot × Memory :=
  match formula.expr.eval (formula.inputs.map content) with
  | .ok value => (.ok (.progress .finished), formula.memory content (.value value) batch)
  | .error error => (.error error, formula.memory content .unset batch)

/-- What the expression is written with. -/
def inlining (formula : Formula) : Inlining :=
  ⟨stemOf formula.id formula.suffix, formula.inputs⟩

/-- The locals in scope have different names that can be written and belong to no engine symbol, the
inputs are among them, and none of them has a name that the code of the expression may take. The
expression belongs to a plan node, whose id is not negative (`PlanTree.Sound.valid`). -/
structure Sound (formula : Formula) : Prop where
  named : ∀ entry ∈ formula.locals, isName entry.name = true ∧ Symbol.moduleOf? entry.name = none
  typed : ∀ entry ∈ formula.locals, entry.type ≠ .row
  classes : ∀ entry ∈ formula.locals, ∀ className, entry.type = .object className →
    Script.IsDotted className
  apart : (formula.locals.map Local.name).Nodup
  inputs : ∀ input ∈ formula.inputs, input ∈ formula.locals
  positive : 0 ≤ formula.id
  suffix : Wordy formula.suffix
  free : ∀ name ∈ formula.inlining.names formula.expr, ∀ entry ∈ formula.locals, entry.name ≠ name

/-! ## What is written -/

/-- A local with the field that it is read from. -/
def inputBinding (entry : Local) : Binding :=
  ⟨entry, fieldOfThis (inputField entry)⟩

/-- How the code gets hold of the expression. -/
def keeper : Keeper :=
  .field expressionField

/-- The answer of the routine. -/
def done : Term :=
  .member .first (.name .first "IterationResult") "FETCHED_DONE"

/-- The statements of the routine. -/
def statements (formula : Formula) (result : Local) (bindings : List Binding) : List Stmt :=
  (formula.locals.map inputBinding ++ bindings).map Binding.statement ++
    [Stmt.setField .first outcomeField (termOf result), Stmt.answer .first done]

/-- The routine has the code of the expression behind that of its locals. -/
structure Written (formula : Formula) (result : Local) (routine : RoutineDraft)
    (bindings : List Binding) : Prop where
  emits : formula.inlining.Emits keeper formula.expr routine.imports result bindings
  lines : (∀ statement ∈ formula.statements result bindings, statement.Writable) →
    Yields routine.commands (stmtTokens (formula.statements result bindings))
  continues : Continues advanceStart routine

section Writing

variable {formula : Formula} {result : Local} {routine : RoutineDraft} {bindings : List Binding}

/-- Locals with different names are declared one after another. -/
theorem emitInputs_writes {entries : List Local} {draft : RoutineDraft}
    (apart : (entries.map Local.name).Nodup)
    (free : ∀ entry ∈ entries, draft.localOf? entry.name = none) :
    Succeeds (emitEach (fun entry => Drafting.declare entry (thisField (inputField entry))) entries)
      draft fun _ next => Writes draft (entries.map inputBinding) next := by
  induction entries generalizing draft with
  | nil =>
    refine .pure ⟨?_, ?_, .refl draft⟩
    · simp [linesOf]
    · simp
  | cons entry rest step =>
    rw [List.map_cons, List.nodup_cons] at apart
    have text : thisField (inputField entry) = (inputBinding entry).value.source := by
      simp [thisField, inputBinding, fieldOfThis, Term.source, Term.level, Script.enclose]
    have first : Succeeds (Drafting.declare entry (thisField (inputField entry))) draft
        fun _ next => next = draft.declared entry (inputBinding entry).value.source := by
      rw [text]
      exact .of_ok (runOn_declare (free entry List.mem_cons_self) _) rfl
    refine first.bind ?_
    rintro _ _ rfl
    have unused : ∀ other ∈ rest,
        (draft.declared entry (inputBinding entry).value.source).localOf? other.name = none := by
      intro other member
      have different : other.name ≠ entry.name := fun same =>
        apart.1 (same ▸ List.mem_map_of_mem member)
      rw [RoutineDraft.localOf?_declared_of_ne different]
      exact free other (List.mem_cons_of_mem _ member)
    refine (step apart.2 unused).imp ?_ fun _ _ never => never
    rintro _ next ⟨commands, locals, continues⟩
    refine ⟨?_, ?_, (Continues.declared _ _ _).trans continues⟩
    · rw [commands]
      simp [RoutineDraft.declared, linesOf, inputBinding]
    · rw [locals, RoutineDraft.locals_declared (free entry List.mem_cons_self), List.append_assoc]
      rfl

/-- The routine is written. -/
theorem emit_written (sound : formula.Sound) :
    Succeeds formula.emit advanceStart fun result routine => ∃ bindings,
      formula.Written result routine bindings := by
  have fresh : ∀ entry ∈ formula.locals, advanceStart.localOf? entry.name = none := fun _ _ => rfl
  unfold emit
  refine (emitInputs_writes sound.apart fresh).bind ?_
  intro _ given inputs
  have free : ∀ name ∈ formula.inlining.names formula.expr, given.localOf? name = none := by
    intro name member
    rw [localOf?_eq_none_iff, inputs.locals]
    intro entry declared
    have inside : entry ∈ formula.locals := by
      simpa [advanceStart, inputBinding] using declared
    exact sound.free name member entry inside
  have source : thisField expressionField = keeper.term.source := by
    simp [thisField, keeper, Keeper.term, Term.source, Term.level, Script.enclose]
  rw [source]
  refine (emitExpression_emits free).bind ?_
  rintro result middle ⟨bindings, emits, writes⟩
  have stored : Succeeds (Drafting.line (thisField outcomeField ++ " = " ++ result.name ++ ";"))
      middle fun _ next => Puts middle [.setField .first outcomeField (termOf result)] next :=
    setField_puts rfl
  refine stored.bind fun _ assigned puts => ?_
  have answered : Succeeds (Drafting.staticMember Ty.progress.text "FETCHED_DONE") assigned
      fun text next => text = done.source ∧ next = assigned.useSymbol "IterationResult" :=
    .of_ok rfl ⟨rfl, rfl⟩
  refine answered.bind ?_
  rintro _ _ ⟨rfl, rfl⟩
  have last : Succeeds (Drafting.line ("return " ++ done.source ++ ";"))
      (assigned.useSymbol "IterationResult") fun _ next =>
        Puts (assigned.useSymbol "IterationResult") [.answer .first done] next :=
    Puts.line fun writable => .answer writable
  refine last.bind fun _ routine ends => .pure ⟨bindings, ?_, fun writable => ?_, ?_⟩
  · refine emits.mono fun moduleName known => ?_
    have behind := (puts.continues.trans (.useSymbol _ _)).trans ends.continues
    exact behind.imports moduleName known
  · rw [statements, List.forall_mem_append, List.forall_mem_map] at writable
    obtain ⟨declared, others⟩ := writable
    have lines : Yields (linesOf (formula.locals.map inputBinding ++ bindings)) _ :=
      yields_linesOf declared
    rw [List.forall_mem_cons, List.forall_mem_singleton] at others
    obtain ⟨store, stores, storeLines⟩ := puts.lines
    obtain ⟨answer, answers, answerLines⟩ := ends.lines
    have shape : routine.commands =
        linesOf (formula.locals.map inputBinding ++ bindings) ++ (store ++ answer) := by
      have started : assigned.commands = (assigned.useSymbol "IterationResult").commands := rfl
      have empty : advanceStart.commands = [] := rfl
      rw [answers, ← started, stores, writes.commands, inputs.commands, empty, List.nil_append,
        linesOf, linesOf, linesOf, List.flatMap_append, List.append_assoc, List.append_assoc]
    rw [shape, statements]
    exact lines.block ((storeLines ⟨others.1, trivial⟩).block (answerLines ⟨others.2, trivial⟩))
  · exact (inputs.continues.trans writes.continues).trans
      ((puts.continues.trans (.useSymbol _ _)).trans ends.continues)

end Writing

/-! ## The source unit -/

/-- A routine without statements. -/
def emptyDecl (name param : String) (type : Ty) : RoutineDecl :=
  ⟨name, [⟨param, writtenType type, .first⟩], none, [], .first⟩

/-- The routine that computes the expression. -/
def advanceDecl (formula : Formula) (result : Local) (bindings : List Binding) : RoutineDecl :=
  ⟨"advance", [], some (writtenType .progress), formula.statements result bindings, .first⟩

/-- The source unit. -/
def sourceUnit (formula : Formula) (imports : List String) (result : Local)
    (bindings : List Binding) : SourceUnit :=
  ⟨Symbol.unitModule, imports.map fun moduleName => ⟨moduleName, .first⟩,
    ⟨"Formula", Symbol.baseUnit,
      (formula.fields result).map fun field => ⟨field.name, writtenType field.type, .first⟩,
      [⟨[.construct .first [.int .first 1, .ints .first [1]]], .first⟩],
      [emptyDecl "prepare" "exec" .executor, emptyDecl "setup" "ctx" .context,
        formula.advanceDecl result bindings], .first⟩⟩

section Names

variable {formula : Formula} {result : Local} {routine : RoutineDraft} {bindings : List Binding}
  {imports : List String}

/-- The name of the field of a local can be written. -/
theorem isName_inputField {entry : Local} (named : isName entry.name = true) :
    isName (inputField entry) = true := by
  have wordy : Wordy entry.name := by
    rw [isName, Bool.and_eq_true, Script.isWord, Bool.and_eq_true, List.all_eq_true] at named
    exact named.1.2
  have begins : (inputField entry).toList = 'i' :: ("n_" ++ entry.name).toList := by
    simp [inputField]
  have free : Script.isKeyword (inputField entry) = false := by
    refine isKeyword_eq_false 3 ?_
    have first : (inputField entry).toList.take 3 = ['i', 'n', '_'] := by simp [inputField]
    rw [first]
    decide
  have usable : Usable [] (inputField entry) :=
    .of_begins begins (by decide) (by decide) (Wordy.append (by decide) wordy) free
  exact usable.1

/-- The type of a local can be written. -/
theorem Sound.writtenType_writable (sound : formula.Sound) {entry : Local}
    (member : entry ∈ formula.locals) : (writtenType entry.type.ty).Writable := by
  cases shape : entry.type with
  | object className =>
    refine ⟨(by decide : isName "Object" = true), fun argument given => ?_⟩
    cases given
    exact sound.classes entry member className shape
  | row => exact absurd shape (sound.typed entry member)
  | value =>
    refine ⟨by decide, fun argument given => ?_⟩
    cases given
  | scalar type =>
    have fits : (writtenType (LocalType.scalar type).ty).Fits (Usable []) :=
      Inlining.fits_scalar type
    exact fits.writable fun _ usable => usable.1

/-- The declarations of the expression can be written, under names that start with an underscore,
and so can the name of its result. -/
theorem Written.proper (sound : formula.Sound) (written : formula.Written result routine bindings) :
    isName result.name = true ∧
      ∀ binding ∈ bindings, Underscored binding.entry.name ∧ binding.statement.Writable := by
  have suits : formula.inlining.Suits routine.imports := by
    refine ⟨underscored_stemOf sound.positive sound.suffix, fun input member => ?_⟩
    obtain ⟨named, free⟩ := sound.named input (sound.inputs input member)
    exact .of_free named free
  have kept : keeper.term.Fits (Usable routine.imports) :=
    ⟨trivial, .of_free (by decide) (by decide)⟩
  obtain ⟨named, proper⟩ := written.emits.fits suits kept
  refine ⟨named.1, fun binding member => ?_⟩
  obtain ⟨underscored, fits⟩ := proper binding member
  exact ⟨underscored, fits.writable fun _ usable => usable.1⟩

/-- The type of the result can be written. -/
theorem Written.type_writable (sound : formula.Sound)
    (written : formula.Written result routine bindings) :
    (writtenType result.type.ty).Writable := by
  rcases written.emits.declared with input | ⟨binding, member, rfl⟩
  · exact sound.writtenType_writable (sound.inputs result input)
  · exact ((written.proper sound).2 binding member).2.2.1

/-- All statements of the routine can be written. -/
theorem Written.writable (sound : formula.Sound)
    (written : formula.Written result routine bindings) :
    ∀ statement ∈ formula.statements result bindings, statement.Writable := by
  obtain ⟨resultNamed, proper⟩ := written.proper sound
  have outcome : isName outcomeField = true := by decide
  have owner : isName "IterationResult" = true := by decide
  have word : isName "FETCHED_DONE" = true := by decide
  rw [statements, List.forall_mem_append, List.forall_mem_map, List.forall_mem_append,
    List.forall_mem_map, List.forall_mem_cons, List.forall_mem_singleton]
  refine ⟨⟨fun entry member => ?_, fun binding member => (proper binding member).2⟩,
    ⟨outcome, resultNamed⟩, owner, word⟩
  obtain ⟨named, -⟩ := sound.named entry member
  exact ⟨named, sound.writtenType_writable member, trivial, isName_inputField named⟩

/-- The source unit can be written. -/
theorem Written.sourceUnit_writable (sound : formula.Sound)
    (written : formula.Written result routine bindings)
    (known : ∀ moduleName ∈ imports, moduleName ∈ Symbol.modules) :
    (formula.sourceUnit imports result bindings).Writable where
  moduleName := (by decide : Script.IsDotted Symbol.unitModule)
  imports := by
    have dotted : ∀ moduleName ∈ Symbol.modules, Script.IsDotted moduleName := by decide
    intro entry member
    obtain ⟨moduleName, listed, rfl⟩ := List.mem_map.1 member
    exact dotted moduleName (known moduleName listed)
  name := (by decide : isName "Formula" = true)
  base := (by decide : isName Symbol.baseUnit = true)
  members := by
    have plain : ∀ type ∈ [Ty.expression, .executor, .context, .progress],
        (writtenType type).Writable := by
      intro type member
      simp only [List.mem_cons, List.not_mem_nil, or_false] at member
      rcases member with rfl | rfl | rfl | rfl
      all_goals exact ⟨by decide, fun argument given => by cases given⟩
    have empty : ∀ name param type, isName name = true → isName param = true →
        (writtenType type).Writable → Member.Writable (.routine (emptyDecl name param type)) := by
      intro name param type named also typed
      refine ⟨named, List.forall_mem_singleton.2 ⟨also, typed⟩, fun result given => ?_, trivial⟩
      cases given
    rw [Script.UnitDecl.members, List.forall_mem_append, List.forall_mem_append]
    simp only [sourceUnit, fields, List.map_append, List.map_map, List.forall_mem_append,
      List.forall_mem_map, List.map_cons, List.map_nil, List.forall_mem_cons]
    have outcome : isName outcomeField = true := by decide
    have advance : isName "advance" = true := by decide
    refine ⟨⟨⟨fun entry member => ?_, ⟨by decide, plain _ (by simp)⟩, ⟨outcome, ?_⟩,
      List.forall_mem_nil _⟩, ⟨⟨trivial, trivial, trivial⟩, trivial⟩, List.forall_mem_nil _⟩, ?_,
        ?_, ?_,
      List.forall_mem_nil _⟩
    · exact ⟨isName_inputField (sound.named entry member).1, sound.writtenType_writable member⟩
    · exact written.type_writable sound
    · exact empty _ _ _ (by decide) (by decide) (plain _ (by simp))
    · exact empty _ _ _ (by decide) (by decide) (plain _ (by simp))
    · refine ⟨advance, List.forall_mem_nil _, fun type given => ?_, ?_⟩
      · cases given
        exact plain _ (by simp)
      · exact Script.allWritable_iff.2 (written.writable sound)

end Names

/-! ## Imports -/

section Imports

variable {formula : Formula} {result : Local} {routine : RoutineDraft} {bindings : List Binding}

/-- The modules of the routine are imported. -/
theorem routine_mem_imports {moduleName : String} (member : moduleName ∈ routine.imports) :
    moduleName ∈ formula.imports result routine :=
  (mem_insertModules _ _ _).2 (.inl member)

/-- The module of the base is imported. -/
theorem exec_mem_imports : "sql.exec" ∈ formula.imports result routine := by
  simp [imports, mem_insertModules]

/-- The module of expressions is imported. -/
theorem expression_mem_imports : "sql.expression" ∈ formula.imports result routine := by
  have needed : "sql.expression" ∈ Symbol.modulesOfType Ty.expression.text := by decide
  rw [imports, mem_insertModules, mem_insertModules]
  refine .inr (.inl (List.mem_flatMap.2 ⟨⟨expressionField, .expression⟩, ?_, needed⟩))
  exact List.mem_append_right _ List.mem_cons_self

/-- Only known modules are imported. -/
theorem Written.imports_known (written : formula.Written result routine bindings) :
    ∀ moduleName ∈ formula.imports result routine, moduleName ∈ Symbol.modules := by
  intro moduleName member
  rw [imports, mem_insertModules, mem_insertModules] at member
  rcases member with needed | field | base
  · exact written.continues.known (start_known _ _) _ needed
  · obtain ⟨entry, -, needed⟩ := List.mem_flatMap.1 field
    exact Continues.mem_modules_of_modulesOfType needed
  · rw [List.mem_singleton.1 base]
    decide

/-- No module is imported twice. -/
theorem imports_nodup : (formula.imports result routine).Nodup :=
  nodup_of_sorted (insertModules_sorted _ (insertModules_sorted _ (List.pairwise_singleton _ _)))

end Imports

/-! ## Acceptance -/

section Accepting

variable {formula : Formula} {result : Local} {routine : RoutineDraft} {bindings : List Binding}

/-- The unit under construction stands for the source unit. -/
theorem Written.draws (sound : formula.Sound) (written : formula.Written result routine bindings) :
    (formula.draft result routine).Draws False
      (formula.sourceUnit (formula.imports result routine) result bindings) where
  moduleName := rfl
  imports := by
    simp only [draft, sourceUnit, List.map_map]
    exact (List.map_id _).symm
  name := rfl
  base := rfl
  fields := by
    simp only [draft, sourceUnit, List.map_map]
    exact List.map_congr_left fun field _ => by simp [writtenType_text]
  routines := by
    have members := (written.sourceUnit_writable sound written.imports_known).members
    rw [Script.UnitDecl.members, List.forall_mem_append, List.forall_mem_append] at members
    obtain ⟨⟨-, -⟩, routines⟩ := members
    simp only [sourceUnit, List.map_cons, List.map_nil, List.forall_mem_cons] at routines
    have construct : Yields (lineOf "super(1, [1]);")
        (stmtTokens [.construct .first [.int .first 1, .ints .first [1]]]) := by
      have text : "super(1, [1]);" = "super(" ++ String.intercalate ", " (Term.sources
          [.int .first 1, .ints .first [1]]) ++ ");" := by decide
      have writable : Term.AllWritable [.int .first 1, .ints .first [1]] :=
        ⟨trivial, trivial, trivial⟩
      rw [text]
      exact (Yields.construct writable).single
    refine .of_yields (.members (.cons ?_ (.cons ?_ (.cons ?_ (.cons ?_ .nil)))))
    · exact (Shows.constructor rfl rfl (.of_yields construct)).certain
    · exact (Shows.routine routines.1 rfl rfl (.of_yields .nil)).certain
    · exact (Shows.routine routines.2.1 rfl rfl (.of_yields .nil)).certain
    · exact (Shows.routine routines.2.2.1 written.continues.kind written.continues.params
        (.of_yields (written.lines (written.writable sound)))).certain

/-- What is in scope in the unit. -/
def scope (formula : Formula) (result : Local) (imports : List String) : UnitScope :=
  ⟨imports.reverse, formula.fields result⟩

/-- The fields of locals have other names than the others. -/
theorem inputField_ne (entry : Local) :
    inputField entry ≠ outcomeField ∧ inputField entry ≠ expressionField := by
  have begins : (inputField entry).toList.take 1 = ['i'] := by simp [inputField]
  constructor
  · intro same
    rw [same] at begins
    exact absurd begins (by decide)
  · intro same
    rw [same] at begins
    exact absurd begins (by decide)

/-- The fields have different names. -/
theorem Sound.fields_apart (sound : formula.Sound) (result : Local) :
    ((formula.fields result).map FieldInfo.name).Nodup := by
  have inputs : (formula.locals.map inputField).Nodup := by
    have injective : Function.Injective fun name : String => "in_" ++ name := by
      intro first second same
      exact String.append_right_inj _ |>.1 same
    have := sound.apart.map injective
    rwa [List.map_map] at this
  rw [fields, List.map_append, List.map_map, List.nodup_append]
  refine ⟨inputs, by simp [expressionField, outcomeField], fun first member second other same => ?_⟩
  obtain ⟨entry, -, rfl⟩ := List.mem_map.1 member
  simp only [List.map_cons, List.map_nil, List.mem_cons, List.not_mem_nil, or_false] at other
  rcases other with rfl | rfl
  · exact (inputField_ne entry).2 same
  · exact (inputField_ne entry).1 same

/-- What is no row is resolved without an import. -/
theorem resolve_local (scope : UnitScope) {type : LocalType} (plain : type ≠ .row) :
    scope.resolve (writtenType type.ty) = .ok type.ty := by
  cases type with
  | scalar source => exact resolve_scalar scope source
  | value => rfl
  | object className => rfl
  | row => exact absurd rfl plain

/-- The result is no row. -/
theorem Written.type_ne_row (sound : formula.Sound)
    (written : formula.Written result routine bindings) : result.type ≠ .row := by
  rw [written.emits.type_eq]
  refine exprType_ne_row (fun type member => ?_) formula.expr
  obtain ⟨input, inside, rfl⟩ := List.mem_map.1 member
  exact sound.typed input (sound.inputs input inside)

/-- The unit has a right frame. -/
theorem Written.frame (sound : formula.Sound) (written : formula.Written result routine bindings) :
    UnitFrame (formula.sourceUnit (formula.imports result routine) result bindings)
      (Symbol.unitModule ++ "." ++ "Formula")
      (formula.scope result (formula.imports result routine)) 1 [1] where
  name := rfl
  imports := by
    have listed : (formula.sourceUnit (formula.imports result routine) result bindings).imports.map
        Import.moduleName = formula.imports result routine := by
      simp [sourceUnit, Function.comp_def]
    rw [Script.checkImports_eq ?_ ?_ fun _ _ => List.not_mem_nil, listed, List.append_nil]
    · rfl
    · intro entry member
      exact written.imports_known _ (listed ▸ List.mem_map_of_mem member)
    · rw [listed]
      exact imports_nodup
  base := rfl
  provided := by
    have home : Symbol.moduleOf? Symbol.baseUnit = some "sql.exec" := by decide
    exact imports_of_module home (List.mem_reverse.2 exec_mem_imports)
  fields := by
    refine @Script.lowerFields_eq _ _ [] (formula.fields result) ?_ ?_
    · rw [sourceUnit, List.forall₂_map_left_iff, List.forall₂_same]
      intro field member
      refine ⟨rfl, ?_⟩
      rcases List.mem_append.1 member with input | other
      · obtain ⟨entry, inside, rfl⟩ := List.mem_map.1 input
        exact resolve_local _ (sound.typed entry inside)
      · simp only [List.mem_cons, List.not_mem_nil, or_false] at other
        rcases other with rfl | rfl
        · have home : Symbol.moduleOf? Ty.expression.text = some "sql.expression" := by decide
          exact resolve_plain rfl
            (imports_of_module home (List.mem_reverse.2 expression_mem_imports))
        · exact resolve_local _ (written.type_ne_row sound)
    · exact sound.fields_apart result
  constructed := Script.checkConstructor_eq rfl (List.nodup_singleton _) (List.mem_singleton_self _)

/-- Locals that are read from fields are accepted behind others. -/
theorem admits_inputBindings {scope : Script.RoutineScope} {entries : List Local}
    {done : List Binding} (once : Unrepeated (done ++ entries.map inputBinding))
    (plain : ∀ entry ∈ entries, entry.type ≠ .row)
    (present : ∀ entry ∈ entries, ∃ index,
      scope.unit.field? (inputField entry) = some (index, entry.type.ty)) :
    AdmitsBehind scope done (entries.map inputBinding) := by
  induction entries generalizing done with
  | nil =>
    unfold AdmitsBehind
    rw [List.map_nil, List.append_nil]
    exact .nil
  | cons entry rest step =>
    rw [List.forall_mem_cons] at plain present
    have split : done ++ (entry :: rest).map inputBinding =
        done ++ [inputBinding entry] ++ rest.map inputBinding := by simp
    rw [split] at once
    obtain ⟨index, found⟩ := present.1
    have stored : entry.type.ty.isAssignableTo entry.type.ty = true := by
      rw [Ty.isAssignableTo_iff]
      exact ⟨ty_ne_void _, .inl rfl⟩
    have first : AdmitsBehind scope done [inputBinding entry] :=
      .single once.left (resolve_local _ plain.1) (.field found) stored
    exact first.append (step once plain.2 present.2)

/-- The names of the locals and of the expression do not repeat. -/
theorem Sound.unrepeated (sound : formula.Sound) :
    Unrepeated (formula.locals.map inputBinding) := by
  have names : (formula.locals.map inputBinding).map (fun binding => binding.entry.name) =
      formula.locals.map Local.name := by simp [inputBinding]
  rw [Unrepeated, names]
  exact sound.apart

/-- The locals that are visible behind the declarations of those in scope. -/
def visible (formula : Formula) : Locals :=
  withAll (formula.locals.map inputBinding) ⟨[], []⟩

/-- Names that no local in scope has are free. -/
theorem visible_free {name : String} (free : ∀ entry ∈ formula.locals, entry.name ≠ name) :
    formula.visible.find? name = none := by
  refine find?_withAll_of_none Ordinary.empty.valid rfl fun binding member => ?_
  obtain ⟨entry, inside, rfl⟩ := List.mem_map.1 member
  exact free entry inside

/-- Names of the engine are free. -/
theorem Sound.symbol_free (sound : formula.Sound) {symbol moduleName : String}
    (provided : Symbol.moduleOf? symbol = some moduleName) :
    formula.visible.find? symbol = none := by
  refine visible_free fun entry member same => ?_
  have free := (sound.named entry member).2
  rw [same, provided] at free
  cases free

/-- The routine is accepted. -/
theorem Written.admits (sound : formula.Sound) (written : formula.Written result routine bindings)
    {scope : UnitScope} (fields : scope.fields = formula.fields result)
    (modules : scope.imports = (formula.imports result routine).reverse) :
    Admits ⟨scope, .progress, none⟩ ⟨[], []⟩ (formula.statements result bindings)
      (withAll bindings formula.visible) := by
  have apart : (scope.fields.map FieldInfo.name).Nodup := by
    rw [fields]
    exact sound.fields_apart result
  have input : ∀ entry ∈ formula.locals, ∃ index,
      scope.field? (inputField entry) = some (index, entry.type.ty) := by
    intro entry member
    refine @field?_of_mem scope ⟨inputField entry, entry.type.ty⟩ apart ?_
    rw [fields]
    exact List.mem_append_left _ (List.mem_map_of_mem member)
  have expression : keeper.Visible scope formula.visible := by
    refine @field?_of_mem scope ⟨expressionField, .expression⟩ apart ?_
    rw [fields]
    exact List.mem_append_right _ List.mem_cons_self
  obtain ⟨index, outcome⟩ : ∃ index,
      scope.field? outcomeField = some (index, result.type.ty) := by
    refine @field?_of_mem scope ⟨outcomeField, result.type.ty⟩ apart ?_
    rw [fields]
    exact List.mem_append_right _ (List.mem_cons_of_mem _ List.mem_cons_self)
  have inputs : Admits ⟨scope, .progress, none⟩ ⟨[], []⟩
      ((formula.locals.map inputBinding).map Binding.statement) formula.visible :=
    @admits_inputBindings ⟨scope, .progress, none⟩ _ [] sound.unrepeated sound.typed input
  have given : Given formula.visible formula.inputs := by
    intro entry member
    have inside := sound.inputs entry member
    have declared : Declared (formula.locals.map inputBinding) entry :=
      ⟨inputBinding entry, List.mem_map_of_mem inside, rfl⟩
    exact ⟨declared.knows sound.unrepeated, sound.typed entry inside⟩
  have emits : formula.inlining.Emits keeper formula.expr scope.imports result bindings := by
    refine written.emits.mono fun moduleName member => ?_
    rw [modules]
    exact List.mem_reverse.2 (routine_mem_imports member)
  have admitted : Inlining.Admitted ⟨scope, .progress, none⟩ formula.visible bindings result :=
    emits.admitted (withAll_valid _ Ordinary.empty.valid)
      (sound.symbol_free (by decide : Symbol.moduleOf? "HeapRow" = some "sql.row")) given
      (fun name member => visible_free (sound.free name member)) expression
  have stored : result.type.ty.isAssignableTo result.type.ty = true := by
    rw [Ty.isAssignableTo_iff]
    exact ⟨ty_ne_void _, .inl rfl⟩
  have free : (withAll bindings formula.visible).find? "IterationResult" = none := by
    refine find?_withAll_of_none (withAll_valid _ Ordinary.empty.valid)
      (sound.symbol_free (by decide : Symbol.moduleOf? "IterationResult" = some "sql.exec")) ?_
    intro binding member same
    have underscored := ((written.proper sound).2 binding member).1
    rw [same] at underscored
    exact not_underscored (by decide) underscored
  have execs : "sql.exec" ∈ scope.imports := by
    rw [modules]
    exact List.mem_reverse.2 exec_mem_imports
  have answered : Script.Types scope (withAll bindings formula.visible) done .progress :=
    .static free (imports_of_module (by decide) execs) rfl
  have returns : Ty.progress ≠ .void := by decide
  rw [statements, List.map_append, List.append_assoc]
  exact inputs.append (admitted.admits.append ((Admits.setField outcome admitted.known.types
    stored).append (.answer returns answered rfl)))

/-- The source of the unit is compiled, to a unit with the routine and the fields that were
written. -/
theorem Written.compiles (sound : formula.Sound)
    (written : formula.Written result routine bindings) :
    ∃ unit, Script.compile (formula.draft result routine).source
        (formula.draft result routine).qualifiedName = .ok unit ∧
      Script.lowerUnit (formula.sourceUnit (formula.imports result routine) result bindings)
        (Symbol.unitModule ++ "." ++ "Formula") = .ok unit ∧
      unit.fields = formula.fields result := by
  let imports := formula.imports result routine
  have frame := written.frame sound
  have execs : "sql.exec" ∈ (formula.scope result imports).imports :=
    List.mem_reverse.2 exec_mem_imports
  have resolved : (formula.scope result imports).resolve (writtenType .progress) = .ok .progress :=
    resolve_plain rfl (imports_of_module (by decide) execs)
  have prepares : AcceptsRoutine (formula.scope result imports)
    (emptyDecl "prepare" "exec" .executor) ⟨"prepare", [("exec", .executor)], .void⟩ :=
    .of_admits rfl (lowerParams_single rfl (by decide) execs) rfl .nil (.inl rfl)
  have setsUp : AcceptsRoutine (formula.scope result imports) (emptyDecl "setup" "ctx" .context)
      ⟨"setup", [("ctx", .context)], .void⟩ :=
    .of_admits rfl (lowerParams_single rfl (by decide) execs) rfl .nil (.inl rfl)
  have ends : Script.blockEnds (formula.statements result bindings) = true := by
    rw [statements, List.append_cons]
    exact Script.blockEnds_append _ rfl
  have advances : AcceptsRoutine (formula.scope result imports)
    (formula.advanceDecl result bindings) ⟨"advance", [], .progress⟩ :=
    .of_admits resolved rfl rfl (written.admits sound rfl rfl) (.inr ends)
  obtain ⟨unit, lowered, -, -, fields⟩ :=
    Script.lowerUnit_of_routines frame rfl rfl rfl rfl prepares setsUp advances
  have writable := written.sourceUnit_writable sound written.imports_known
  obtain ⟨tokens, spells, ⟨-, same⟩ | ⟨never, -⟩⟩ := (written.draws sound).spells writable
  · rw [same] at spells
    obtain ⟨read, alike, parsed⟩ := Script.parse_eq writable spells
    exact ⟨unit, (Script.compile_eq_ok_iff parsed).2 (alike.lowerUnit_eq_ok lowered),
      lowered, fields⟩
  · exact never.elim

end Accepting

/-! ## Execution -/

/-- What the fields of an instance hold, by name. -/
def contents (formula : Formula) (content : Local → Value) (outcome : Slot) : Contents :=
  fun name =>
    if name = outcomeField then outcome
    else if name = expressionField then .handle (.expression formula.expr)
    else
      match formula.locals.find? fun entry => inputField entry == name with
      | some entry => .value (content entry)
      | none => .unset

section Executing

variable {formula : Formula} {result : Local} {routine : RoutineDraft} {bindings : List Binding}
  {unit : CompiledUnit} {content : Local → Value} {outcome : Slot} {batch : RowBatch}

/-- The field of a local holds its value. -/
theorem Sound.contents_input (sound : formula.Sound) {entry : Local}
    (member : entry ∈ formula.locals) :
    formula.contents content outcome (inputField entry) = .value (content entry) := by
  obtain ⟨notOutcome, notExpression⟩ := inputField_ne entry
  rw [contents, if_neg notOutcome, if_neg notExpression]
  cases found : formula.locals.find? fun other => inputField other == inputField entry with
  | none =>
    have missing := List.find?_eq_none.1 found entry member
    simp at missing
  | some other =>
    have matching := List.find?_some found
    have same : inputField other = inputField entry := eq_of_beq matching
    have names : other.name = entry.name := (String.append_right_inj _).1 same
    have equal : other = entry :=
      List.inj_on_of_nodup_map sound.apart (List.mem_of_find?_eq_some found) member names
    rw [equal]

/-- The memory holds the contents. -/
theorem Sound.memory_eq (sound : formula.Sound) (fields : unit.fields = formula.fields result) :
    formula.memory content outcome batch =
      .of unit (formula.contents content outcome) batch [] := by
  have inputs : formula.locals.map (fun entry => Slot.value (content entry)) =
      formula.locals.map fun entry => formula.contents content outcome (inputField entry) :=
    List.map_congr_left fun entry member => (sound.contents_input member).symm
  have others : expressionField ≠ outcomeField := by decide
  rw [memory, Memory.of, fields, Formula.fields, List.map_append, List.map_map, inputs]
  simp [contents, others, Function.comp_def]

/-- The memory with another outcome. -/
theorem contents_assign (outcome slot : Slot) :
    (formula.contents content outcome).assign outcomeField slot = formula.contents
    content slot := by
  funext name
  unfold Contents.assign contents
  split
  · rfl
  · rfl

/-- The fields of locals are read one after another. -/
theorem Sound.binds_inputs (sound : formula.Sound) (fields : unit.fields = formula.fields result)
    {entries : List Local} (listed : ∀ entry ∈ entries, entry ∈ formula.locals) (env : Env) :
    Binds unit (formula.memory content outcome batch) env (entries.map inputBinding)
      (entries.map fun entry => (entry.name, .value (content entry))).reverse := by
  induction entries generalizing env with
  | nil => exact ⟨fun _ => rfl, rfl⟩
  | cons entry rest step =>
    rw [List.forall_mem_cons] at listed
    have member : inputField entry ∈ unit.fields.map FieldInfo.name := by
      rw [fields, Formula.fields, List.map_append, List.map_map]
      exact List.mem_append_left _ (List.mem_map_of_mem listed.1)
    have set : formula.contents content outcome (inputField entry) ≠ .unset := by
      rw [sound.contents_input listed.1]
      exact fun same => by cases same
    have read : Script.Denotes unit (formula.memory content outcome batch) env
        (inputBinding entry).value (.ok (.value (content entry))) := by
      rw [sound.memory_eq fields, ← sound.contents_input listed.1]
      exact .field (Script.readField_of member set)
    have first : Binds unit (formula.memory content outcome batch) env [inputBinding entry]
        [(entry.name, .value (content entry))] := .declare read
    have others := step listed.2 ((entry.name, .value (content entry)) :: env)
    rw [List.map_cons, List.map_cons, List.reverse_cons]
    exact first.append others

/-- The locals in scope with their values, the latest first. -/
def env (formula : Formula) (content : Local → Value) : Env :=
  (formula.locals.map fun entry => (entry.name, Slot.value (content entry))).reverse

/-- A local in scope is found by its name. -/
theorem Sound.content?_env (sound : formula.Sound) {entry : Local}
    (member : entry ∈ formula.locals) :
    (formula.env content).content? entry.name = some (.value (content entry)) := by
  cases found : (formula.env content).find? fun known => known.1 == entry.name with
  | none =>
    have listed : (entry.name, Slot.value (content entry)) ∈ formula.env content := by
      rw [env, List.mem_reverse]
      exact List.mem_map.2 ⟨entry, member, rfl⟩
    have missing := List.find?_eq_none.1 found _ listed
    simp at missing
  | some known =>
    have matching := List.find?_some found
    have listed := List.mem_of_find?_eq_some found
    rw [env, List.mem_reverse] at listed
    obtain ⟨other, inside, rfl⟩ := List.mem_map.1 listed
    have equal : other = entry :=
      List.inj_on_of_nodup_map sound.apart inside member (eq_of_beq matching)
    rw [Env.content?, found, equal]
    rfl

/-- No local in scope has the name of a symbol of the engine. -/
theorem Sound.symbol_unbound (sound : formula.Sound) {symbol moduleName : String}
    (provided : Symbol.moduleOf? symbol = some moduleName) :
    (formula.env content).content? symbol = none := by
  rw [Env.content?, Option.map_eq_none_iff, List.find?_eq_none]
  intro known listed
  rw [env, List.mem_reverse] at listed
  obtain ⟨entry, inside, rfl⟩ := List.mem_map.1 listed
  intro same
  have named : entry.name = symbol := eq_of_beq same
  have free := (sound.named entry inside).2
  rw [named, provided] at free
  cases free

/-- The inputs carry the values of their row. -/
theorem Sound.feeds (sound : formula.Sound)
    (held : ∀ entry ∈ formula.locals, entry.type.Holds (content entry)) :
    formula.inlining.Feeds (formula.env content) (formula.inputs.map content) := by
  show List.Forall₂ (Carries (formula.env content)) formula.inputs (formula.inputs.map content)
  rw [List.forall₂_map_right_iff, List.forall₂_same]
  intro input member
  have inside := sound.inputs input member
  exact ⟨sound.content?_env inside, (LocalType.holds_iff _ _).1 (held input inside)⟩

/-- The declarations of the routine lead to a local that carries the value of the expression. -/
theorem Written.leaves (sound : formula.Sound) (written : formula.Written result routine bindings)
    (fields : unit.fields = formula.fields result)
    (held : ∀ entry ∈ formula.locals, entry.type.Holds (content entry)) :
    Leaves unit (formula.memory content .unset batch) (formula.env content) bindings result
      (formula.expr.eval (formula.inputs.map content)) := by
  have apart : ∀ input ∈ formula.inlining.inputs,
      formula.inlining.Settled input 0 formula.expr.span := by
    intro input member number _ below same
    exact sound.free _ (formula.inlining.nameOf_mem_names below) input
      (sound.inputs input member) same.symm
  have unowned : (formula.env content).content? "HeapRow" = none :=
    sound.symbol_unbound (by decide : Symbol.moduleOf? "HeapRow" = some "sql.row")
  have keeps : keeper.Keeps unit (formula.memory content .unset batch) (formula.env content)
      formula.expr := by
    have member : expressionField ∈ unit.fields.map FieldInfo.name := by
      rw [fields, Formula.fields, List.map_append]
      exact List.mem_append_right _ List.mem_cons_self
    have value : formula.contents content .unset expressionField =
        .handle (.expression formula.expr) := rfl
    have set : formula.contents content .unset expressionField ≠ .unset := by
      rw [value]
      exact fun same => by cases same
    rw [sound.memory_eq fields]
    show Script.Denotes _ _ _ keeper.term _
    rw [← value]
    exact .field (Script.readField_of member set)
  exact written.emits.leaves (sound.feeds held) apart unowned keeps fun same => by cases same

/-- The routine comes to its answer on the tree. -/
theorem Written.exec (sound : formula.Sound) (written : formula.Written result routine bindings)
    (fields : unit.fields = formula.fields result)
    (held : ∀ entry ∈ formula.locals, entry.type.Holds (content entry)) (fuel : Nat) :
    Script.execRoutine unit fuel (formula.advanceDecl result bindings) []
      (formula.memory content .unset batch) = some (formula.answer content batch) := by
  have inputs := @Sound.binds_inputs formula result unit content .unset batch sound fields
    formula.locals (fun _ member => member) []
  have leaves := @Written.leaves _ _ _ _ unit content batch sound written fields held
  have begins : ∀ rest, Script.execStmts unit fuel
      ((formula.locals.map inputBinding).map Binding.statement ++ rest) []
        (formula.memory content .unset batch) =
      Script.execStmts unit fuel rest (formula.env content)
        (formula.memory content .unset batch) := by
    intro rest
    rw [Script.execStmts_append, inputs.runs fuel, List.append_nil]
    rfl
  unfold Script.execRoutine
  show Step.andThen (Script.execStmts unit fuel (formula.statements result bindings) []
    (formula.memory content .unset batch)) _ = _
  rw [statements, List.map_append, List.append_assoc, begins, Script.execStmts_append]
  unfold answer
  cases evaluated : formula.expr.eval (formula.inputs.map content) with
  | error error =>
    rw [evaluated] at leaves
    rw [leaves fuel]
    rfl
  | ok value =>
    rw [evaluated] at leaves
    obtain ⟨added, binds, carries⟩ := leaves
    have stored : Script.writeField unit outcomeField (.value value)
        (formula.memory content .unset batch) =
          (.ok (), formula.memory content (.value value) batch) := by
      have changed := @contents_assign formula content .unset (.value value)
      rw [sound.memory_eq fields, sound.memory_eq fields, ← changed]
      refine Script.writeField_of ?_ ?_ _
      · rw [fields]
        exact sound.fields_apart result
      · rw [fields, Formula.fields, List.map_append]
        exact List.mem_append_right _ (List.mem_cons_of_mem _ List.mem_cons_self)
    have unowned : Env.content? (added ++ formula.env content) "IterationResult" = none := by
      rw [content?_past binds.names]
      · exact sound.symbol_unbound
          (by decide : Symbol.moduleOf? "IterationResult" = some "sql.exec")
      · intro binding member same
        have underscored := ((written.proper sound).2 binding member).1
        rw [same] at underscored
        exact not_underscored (by decide) underscored
    have assigned : Script.execStmt unit fuel (.setField .first outcomeField (termOf result))
        (added ++ formula.env content) (formula.memory content .unset batch) =
          some (.ok (.through, added ++ formula.env content),
            formula.memory content (.value value) batch) :=
      Script.execStmt_setField carries.denotes stored
    have answered : Script.Denotes unit (formula.memory content (.value value) batch)
        (added ++ formula.env content) done (.ok (.progress .finished)) := .static unowned rfl
    rw [binds.runs fuel]
    show Step.andThen (Script.execStmts unit fuel
      [.setField .first outcomeField (termOf result), .answer .first done]
        (added ++ formula.env content) (formula.memory content .unset batch)) _ = _
    rw [Script.execStmts_cons assigned, Script.execStmts_answer answered]
    rfl

/-- The memory fits the fields. -/
theorem memory_fits (held : ∀ entry ∈ formula.locals, entry.type.Holds (content entry))
    (result : Local) (batch : RowBatch) :
    (formula.memory content .unset batch).Fits (formula.fields result) where
  fields := by
    have inputs : List.Forall₂ (fun slot (field : FieldInfo) => slot = .unset ∨
      slot.Fits 0 field.type) (formula.locals.map fun entry => Slot.value (content entry))
        (formula.locals.map fun entry => ⟨inputField entry, entry.type.ty⟩) := by
      rw [List.forall₂_map_left_iff, List.forall₂_map_right_iff, List.forall₂_same]
      intro entry member
      exact .inr ((LocalType.holds_iff _ _).1 (held entry member))
    have expression : Slot.Fits 0 (.handle (.expression formula.expr)) .expression :=
      ⟨rfl, fun number same => by cases same⟩
    exact List.rel_append inputs (.cons (.inr expression) (.cons (.inl rfl) .nil))
  cursors := List.forall_mem_nil _

/-- The machine comes to the answer as well. -/
theorem Written.run (sound : formula.Sound) (written : formula.Written result routine bindings)
    (lowered : Script.lowerUnit
      (formula.sourceUnit (formula.imports result routine) result bindings)
        (Symbol.unitModule ++ "." ++ "Formula") = .ok unit)
    (fields : unit.fields = formula.fields result)
    (held : ∀ entry ∈ formula.locals, entry.type.Holds (content entry)) :
    ∃ enough, ∀ fuel ≥ enough, Script.run unit unit.advance fuel []
      (formula.memory content .unset batch) = some (formula.answer content batch) := by
  have declared : formula.advanceDecl result bindings ∈
      (formula.sourceUnit (formula.imports result routine) result bindings).unit.routines :=
    List.mem_cons_of_mem _ (List.mem_cons_of_mem _ List.mem_cons_self)
  have fits : (formula.memory content .unset batch).Fits unit.fields := by
    rw [fields]
    exact memory_fits held result batch
  have executed := @Written.exec _ _ _ _ unit content batch sound written fields held 0
  obtain ⟨signature, code, scope, before, after, member, named, same, within, rule⟩ :=
    Script.lowerUnit_rule_of_decl lowered declared
  have advances : code = unit.advance ∧ signature.params.map (·.2) = [] := by
    rcases Realizes.routine_of_mem member with ⟨other, -⟩ | ⟨other, -⟩ | ⟨-, found, params⟩
    · exact absurd (other.symm.trans named) (by decide : "prepare" ≠ "advance")
    · exact absurd (other.symm.trans named) (by decide : "setup" ≠ "advance")
    · exact ⟨found, params⟩
  obtain ⟨rfl, params⟩ := advances
  obtain ⟨enough, ended⟩ := (rule.run_iff same within (params ▸ .nil) fits _).2 ⟨0, executed⟩
  refine ⟨enough, fun fuel more => ?_⟩
  have grown := Script.run_add ended (fuel - enough)
  rwa [Nat.add_sub_cancel' more] at grown

end Executing

/-- The code of an expression preserves its meaning: its unit is compiled, and a run of it on inputs
of their types stores what the expression gives on the row of them, which is null or of the type of
the result, or stops with the error of the expression. -/
theorem compile_evaluates {formula : Formula} (sound : formula.Sound) :
    ∃ result unit, formula.compile = .ok (result, unit) ∧
      ∀ content batch, (∀ entry ∈ formula.locals, entry.type.Holds (content entry)) →
        (∃ enough, ∀ fuel ≥ enough, Script.run unit unit.advance fuel []
          (formula.memory content .unset batch) = some (formula.answer content batch)) ∧
        ∀ value, formula.expr.eval (formula.inputs.map content) = .ok value →
          result.type.Holds value := by
  obtain ⟨result, routine, emitted, bindings, written⟩ | ⟨-, -, -, never⟩ :=
    (emit_written sound).cases
  swap
  · exact never.elim
  obtain ⟨unit, compiled, lowered, fields⟩ := written.compiles sound
  refine ⟨result, unit, ?_, fun content batch held => ⟨?_, fun value evaluated => ?_⟩⟩
  · rw [compile, emitted]
    show Script.compile _ _ >>= _ = _
    rw [compiled]
    rfl
  · exact written.run sound lowered fields held
  · have leaves := @Written.leaves _ _ _ _ unit content batch sound written fields held
    rw [evaluated] at leaves
    obtain ⟨added, -, carries⟩ := leaves
    exact (LocalType.holds_iff _ _).2 carries.typed

/-- A sum that is compared, for owners that are known. -/
def cheap : Formula :=
  let price : Local := ⟨"price", .scalar .int⟩
  let fee : Local := ⟨"fee", .scalar .bigInt⟩
  let owner : Local := ⟨"owner", .object "shop.Person"⟩
  let sum : Expr := .arithmetic .plus (.column 0 .int) (.column 1 .bigInt) .bigInt
  ⟨[owner, price, fee], [price, fee, owner], 3, "filter",
    .and (.comparison .less sum (.constant (.int 10) .int)) (.not (.isNull (.column 2 .object)))⟩

/-- Values of its inputs. -/
def cheapInputs (fee owner : Value) : Local → Value := fun entry =>
  if entry.name = "price" then .int 7 else if entry.name = "fee" then fee else owner

/-- One unit gives the truth of the condition, null for a missing fee, and an error for a fee that
is too large. -/
theorem compile_evaluates_cheap : ∃ result unit, cheap.compile = .ok (result, unit) ∧
    ∀ fee owner outcome, (fee, owner, outcome) ∈
        [(.bigInt 2, .object 0 "shop.Person" [], .ok (.boolean true)),
          (.null, .object 0 "shop.Person" [], .ok .null),
          (.bigInt 9223372036854775807, .null,
            .error (.arithmeticOverflow "7 + 9223372036854775807 overflows BIGINT"))] →
      cheap.expr.eval [.int 7, fee, owner] = outcome ∧
        ∃ enough, ∀ fuel ≥ enough, Script.run unit unit.advance fuel []
          (cheap.memory (cheapInputs fee owner) .unset (.empty 4)) =
            some (cheap.answer (cheapInputs fee owner) (.empty 4)) := by
  have sound : cheap.Sound := by
    refine ⟨by decide, ?_, ?_, by decide, ?_, by decide, by decide, by decide⟩
    · simp [cheap]
    · simp [cheap]
      decide
    · simp [cheap]
  obtain ⟨result, unit, compiled, runs⟩ := compile_evaluates sound
  refine ⟨result, unit, compiled, fun fee owner outcome member => ?_⟩
  simp only [List.mem_cons, Prod.mk.injEq, List.not_mem_nil, or_false] at member
  rcases member with ⟨rfl, rfl, rfl⟩ | ⟨rfl, rfl, rfl⟩ | ⟨rfl, rfl, rfl⟩
  all_goals
    refine ⟨rfl, (runs _ _ ?_).1⟩
    simp [cheap, cheapInputs, LocalType.Holds, Value.dataType]

end Formula

end Generate

end QueryFusion
