import QueryFusion.Proofs.Generate.AcceptedRows
import QueryFusion.Proofs.Script.Units

/-!
# The routine that produces a batch is accepted

All names in the routine can be written, and the modules that it needs are imported. It is accepted
unless a condition of the run is an object without a class.
-/

namespace QueryFusion

open Emit

/-- A run starts with its scan. -/
theorem Plan.exists_leaf {plan : Plan} (compilable : plan.isCompilable = true) :
    ∃ spec, Generate.Generator.scan plan.leafId spec ∈ plan.runGenerators := by
  induction plan with
  | scan id spec =>
    rw [runGenerators_scan compilable]
    exact ⟨spec, List.mem_singleton_self _⟩
  | filter id condition input step =>
    have below : input.isCompilable = true := compilable
    obtain ⟨spec, member⟩ := step below
    rw [runGenerators_filter below]
    exact ⟨spec, List.mem_append_left _ member⟩
  | project id expressions input step =>
    have below : input.isCompilable = true := compilable
    obtain ⟨spec, member⟩ := step below
    rw [runGenerators_project below]
    exact ⟨spec, List.mem_append_left _ member⟩
  | root id input step | sort id columns ascending input step => cases compilable
  | join id condition left right leftStep rightStep => cases compilable

/-- The leaf of a run belongs to it. -/
theorem Plan.leafId_mem_runIds {plan : Plan} (compilable : plan.isCompilable = true) :
    plan.leafId ∈ plan.runIds := by
  induction plan with
  | scan id spec => exact List.mem_singleton_self id
  | filter id condition input step | project id expressions input step =>
    exact List.mem_append_left _ (step compilable)
  | root id input step | sort id columns ascending input step => cases compilable
  | join id condition left right leftStep rightStep => cases compilable

/-- The end of a run belongs to it. -/
theorem Plan.id_mem_runIds {plan : Plan} (compilable : plan.isCompilable = true) :
    plan.id ∈ plan.runIds :=
  (Plan.chain_runIds compilable).mem_id

namespace Generate

open Script (Term Ty Stmt Types TypesAll Admits AdmitsIff Locals UnitScope RoutineScope RoutineDecl
  Signature AcceptsRoutine)

/-- The declaration of the routine that produces a batch. -/
def advanceDecl (plan : Plan) (row : List Local) (steps : List RowStep) : RoutineDecl :=
  ⟨"advance", [], some (writtenType .progress), advanceStatements plan row steps, .first⟩

/-! ## Names -/

section Names

variable {plan : Plan} {routine : RoutineDraft} {row : List Local} {steps : List RowStep}
  {imports : List String}

/-- The modules of the routine are imported. -/
theorem Advances.proper {wide : Prop} (advances : Advances wide plan routine row steps)
    (compilable : plan.isCompilable = true) (positive : ∀ id ∈ plan.runIds, 0 ≤ id)
    (more : ∀ moduleName ∈ routine.imports, moduleName ∈ imports) :
    ∀ step ∈ steps, step.Proper imports :=
  advances.code.proper compilable positive (more _ (advances.provided _ (by decide)))
    fun binding member moduleName needed => more _ (advances.typed binding member moduleName needed)

/-- All names of the routine can be used. -/
theorem Advances.fits {wide : Prop} (advances : Advances wide plan routine row steps)
    (compilable : plan.isCompilable = true) (positive : ∀ id ∈ plan.runIds, 0 ≤ id)
    (more : ∀ moduleName ∈ routine.imports, moduleName ∈ imports) :
    Stmt.AllFit (Usable imports) (advanceStatements plan row steps) := by
  have proper := advances.proper compilable positive more
  have rows : "sql.row" ∈ imports := more _ (advances.provided _ (by decide))
  have execs : "sql.exec" ∈ imports := more _ (advances.provided _ (by decide))
  have free : ∀ {word : String}, Script.isName word = true → Symbol.moduleOf? word = none →
      Usable imports word := Usable.of_free
  have result : Usable imports "IterationResult" := .of_module (by decide) (by decide) execs
  have leaf : Usable imports (VariableKind.scanCursor.fieldOf plan.leafId) :=
    (underscored_fieldOf (positive _ (Plan.leafId_mem_runIds compilable)) _).usable
  have output : Usable imports (stemOf plan.id "output_row") :=
    (underscored_stemOf (positive _ (Plan.id_mem_runIds compilable)) (by decide)).usable
  have named : ∀ entry ∈ row, Usable imports entry.name := by
    intro entry member
    obtain ⟨binding, declared, rfl⟩ := advances.code.types_eq.2 entry member
    exact (RowStep.underscored proper binding declared).usable
  have typed : (writtenType .row).Fits (Usable imports) :=
    ⟨.of_module (by decide) (by decide) rows, fun _ never => nomatch never⟩
  have value : (outputBinding plan.id row).value.Fits (Usable imports) :=
    ⟨.of_module (by decide) (by decide) rows, free (by decide) (by decide),
      Inlining.allFit_termOf named⟩
  have declared : (outputBinding plan.id row).statement.Fits (Usable imports) :=
    ⟨output, typed, value⟩
  have body : Stmt.AllFit (Usable imports)
      (steps.map RowStep.statement ++ outputStatements plan.id row) := by
    refine Stmt.allFit_iff.2 (List.forall_mem_append.2 ⟨fun statement member => ?_, ?_⟩)
    · obtain ⟨step, inside, rfl⟩ := List.mem_map.1 member
      exact (proper step inside).2
    · refine List.forall_mem_cons.2 ⟨declared, List.forall_mem_singleton.2 ⟨?_, ?_, trivial⟩⟩
      · exact ⟨trivial, free (by decide) (by decide), output, trivial⟩
      · exact ⟨result, free (by decide) (by decide)⟩
  refine ⟨⟨trivial, free (by decide) (by decide), trivial⟩, ⟨?_, body⟩, ?_, trivial⟩
  · exact ⟨⟨trivial, leaf⟩, free (by decide) (by decide), trivial⟩
  · exact ⟨result, free (by decide) (by decide)⟩

end Names

section Accepting

variable {plan : Plan} {row : List Local} {steps : List RowStep} {scope : RoutineScope}
  {visible : Locals} {unit : UnitScope}

/-- A run has the cursor of its scan. -/
theorem HasFields.cursor (fields : HasFields unit plan) (compilable : plan.isCompilable = true) :
    HasCursor unit plan.leafId := by
  obtain ⟨spec, member⟩ := Plan.exists_leaf compilable
  exact @HasFields.of_mem _ plan.leafId _ fields _ member .scanCursor .opened
    (List.mem_append_right _ (List.mem_singleton_self _))

/-- How far the routine has come is known to the engine. -/
theorem types_result (ordinary : Ordinary visible) (execs : "sql.exec" ∈ unit.imports)
    {word : String} {slot : Script.Slot}
    (known : Script.staticMember? "IterationResult" word = some slot) :
    Types unit visible (.member .first (.name .first "IterationResult") word) .progress :=
  .static (ordinary.free _ (not_underscored (by decide)))
    (imports_of_module (by decide) execs) known

/-- A row of visible values is handed on. -/
theorem admits_output {id : NodeId} (ordinary : Ordinary visible) (given : Given visible row)
    (free : visible.find? (outputBinding id row).entry.name = none) (positive : 0 ≤ id)
    (answers : scope.returnType = .progress) (rows : "sql.row" ∈ scope.unit.imports)
    (execs : "sql.exec" ∈ scope.unit.imports) :
    Admits scope visible (outputStatements id row) (withAll [outputBinding id row] visible) := by
  have value : Types scope.unit visible (outputBinding id row).value .row := by
    refine .row ordinary.unowned
      (imports_of_module (by decide) rows) given.types fun type member => ?_
    obtain ⟨input, inside, rfl⟩ := List.mem_map.1 member
    exact isValueType_of_ne_row (given input inside).2
  have resolved : scope.unit.resolve (writtenType .row) = .ok .row :=
    resolve_plain rfl (imports_of_module (by decide) rows)
  have named : Underscored (outputBinding id row).entry.name :=
    underscored_stemOf positive (by decide)
  have later : Ordinary (withAll [outputBinding id row] visible) :=
    ordinary.withAll (List.forall_mem_singleton.2 named)
  have output : Types scope.unit (withAll [outputBinding id row] visible)
      (termOf (outputBinding id row).entry) .row := .name (Script.Locals.find?_with_self _ _ _)
  have wanted : scope.returnType ≠ .void := by
    rw [answers]
    decide
  have assignable : Ty.progress.isAssignableTo scope.returnType = true := by
    rw [answers]
    decide
  exact .declare resolved value rfl free (.branch (.not (.add output))
    (.answer wanted (types_result later execs rfl) assignable))

/-- The locals behind the body of the loop over the rows. -/
def rowLocals (plan : Plan) (row : List Local) (steps : List RowStep) : Locals :=
  withAll [outputBinding plan.id row] (withAll (steps.flatMap RowStep.bindings) ⟨[], []⟩)

/-- The routine that produces a batch is accepted unless a condition is an object of no known
class. -/
theorem Advances.admitsIff {wide : Prop} {routine : RoutineDraft}
    (advances : Advances wide plan routine row steps) (compilable : plan.isCompilable = true)
    (positive : 0 ≤ plan.id) (fields : HasFields unit plan) (rows : "sql.row" ∈ unit.imports)
    (execs : "sql.exec" ∈ unit.imports)
    (named : ∀ binding ∈ steps.flatMap RowStep.bindings, Underscored binding.entry.name) :
    AdmitsIff ⟨unit, .progress, none⟩ ⟨[], []⟩ (advanceStatements plan row steps)
      ⟨[], (rowLocals plan row steps).types⟩
      (∀ type ∈ plan.conditionTypes, type ≠ .scalar .object) := by
  obtain ⟨index, cursor⟩ := fields.cursor compilable
  have field : Types unit ⟨[], []⟩ (cursorTerm plan.leafId) .cursor := .field cursor
  have test : Types unit ⟨[], []⟩ (.call .first (cursorTerm plan.leafId) "tryAdvance" [])
      .boolean :=
    .method rfl rfl field rfl .nil .nil
  have free : (withAll (steps.flatMap RowStep.bindings) ⟨[], []⟩).find?
      (outputBinding plan.id row).entry.name = none :=
    clear_withAll advances.apart _ (under_output plan.id)
  have inner : ∀ head, AdmitsIff ⟨unit, .progress, some head⟩ ⟨[], []⟩
      (steps.map RowStep.statement ++ outputStatements plan.id row) (rowLocals plan row steps)
      (∀ type ∈ plan.conditionTypes, type ≠ .scalar .object) := by
    intro head
    have body := @RowCode.admitsIff ⟨unit, .progress, some head⟩ head
      _ _ _ _ advances.code compilable fields rows rfl named
    have output := @admits_output row ⟨unit, .progress, some head⟩ _ plan.id
      (Ordinary.empty.withAll named) body.2 free positive rfl rows execs
    exact (body.1.append (.of_admits output)).congr (and_iff_left trivial)
  have clearing : Admits ⟨unit, .progress, none⟩ ⟨[], []⟩
      [.perform .first (.call .first (.this .first) "clearBatch" [])] ⟨[], []⟩ :=
        .perform rfl .clear
  have looping : AdmitsIff ⟨unit, .progress, none⟩ ⟨[], []⟩
      [.loop .first (.call .first (cursorTerm plan.leafId) "tryAdvance" [])
        (steps.map RowStep.statement ++ outputStatements plan.id row)]
      ⟨[], (rowLocals plan row steps).types⟩ _ := .loop test inner
  have hidden : Ordinary ⟨[], (rowLocals plan row steps).types⟩ :=
    ⟨⟨List.nodup_nil, fun _ member => nomatch member⟩, fun _ _ => rfl⟩
  have answering : Admits ⟨unit, .progress, none⟩ ⟨[], (rowLocals plan row steps).types⟩
      [.answer .first (.member .first (.name .first "IterationResult") "FETCHED_DONE")]
      ⟨[], (rowLocals plan row steps).types⟩ :=
    .answer (fun same => nomatch same) (types_result hidden execs rfl) rfl
  exact (((AdmitsIff.of_admits clearing).append looping).append (.of_admits answering)).congr
    (by rw [true_and, and_true])

end Accepting

end Generate

end QueryFusion
