import QueryFusion.Proofs.Generate.GeneratedUnits

/-!
# Generated units are accepted

The unit of a fragment has the frame that the compiler asks for: its imports, its fields and its
constructor are right. So only a routine can be rejected, and only the one that produces batches
ever is, when a condition of the fragment is an object of no known class.
-/

namespace QueryFusion.Generate

open Emit
open Script (Term TypeName Ty Stmt FieldDecl Member Import SourceUnit UnitDecl UnitScope FieldInfo
  UnitFrame AcceptsRoutine isName)

/-! ## Types of fields -/

instance (imports : List String) (word : String) : Decidable (Usable imports word) :=
  decidable_of_iff
    (isName word = true ∧ ∀ moduleName ∈ (Symbol.moduleOf? word).toList, moduleName ∈ imports)
    (and_congr_right fun _ => by simp only [Option.mem_toList])

/-- The names in the type of a field can be used with the modules of the type. -/
theorem fits_variable (kind : VariableKind) :
    (writtenType kind.ty).Fits (Usable (Symbol.modulesOfType kind.ty.text)) := by
  cases kind
  case scanPaths | scanTypes | scanProjects | projectExpressions =>
    refine ⟨by decide, fun argument named => ?_⟩
    cases named
    decide
  all_goals exact ⟨by decide, fun _ never => nomatch never⟩

/-- A list is resolved when the name of its elements may be used. -/
theorem resolve_list {scope : UnitScope} {element : Script.ListElement}
    (imported : scope.Imports element.name) :
    scope.resolve (writtenType (.list element)) = .ok (.list element) := by
  have known : Ty.resolve? "List" (some element.name) = some (.list element) := by
    cases element <;> rfl
  have builtIn : scope.Imports "List" := by
    intro moduleName found
    have free : Symbol.moduleOf? "List" = none := by decide
    rw [free] at found
    cases found
  rw [writtenType, UnitScope.resolve, known]
  simp only [builtIn.requireImport_eq, imported.requireImport_eq, ok_bind]

/-- The type of a field is resolved with the modules of the type. -/
theorem resolve_variable (kind : VariableKind) {scope : UnitScope}
    (kept : ∀ moduleName ∈ Symbol.modulesOfType kind.ty.text, moduleName ∈ scope.imports) :
    scope.resolve (writtenType kind.ty) = .ok kind.ty := by
  cases kind
  case scanPaths | scanTypes | projectExpressions =>
    exact resolve_list (imports_of_module rfl (kept _ (by decide)))
  case scanProjects =>
    exact resolve_list fun _ found => nomatch found
  all_goals exact resolve_plain rfl (imports_of_module rfl (kept _ (by decide)))

/-! ## Imports -/

section Imports

variable {plan : Plan} {routine : RoutineDraft}

/-- A routine starts with known modules. -/
theorem start_known (kind : RoutineKind) (params : List (String × String)) :
    ∀ moduleName ∈ (RoutineDraft.start kind params).imports, moduleName ∈ Symbol.modules := by
  intro moduleName member
  rcases (mem_insertModules _ _ _).1 member with needed | never
  · obtain ⟨typeName, -, found⟩ := List.mem_flatMap.1 needed
    exact Continues.mem_modules_of_modulesOfType found
  · cases never

/-- The modules of the routine that produces a batch are imported. -/
theorem routine_imports (plan : Plan) (routine : RoutineDraft) :
    ∀ moduleName ∈ routine.imports, moduleName ∈ unitImports plan routine :=
  fun _ member => (mem_insertModules _ _ _).2 (.inl member)

/-- The modules of the fields are imported. -/
theorem field_imports (routine : RoutineDraft) {entry : StateVariable}
    (member : entry ∈ (registryOf plan).declared) :
    ∀ moduleName ∈ Symbol.modulesOfType entry.kind.ty.text,
      moduleName ∈ unitImports plan routine := by
  intro moduleName needed
  simp only [unitImports, mem_insertModules]
  exact .inr (.inr (.inr (.inr (.inl (List.mem_flatMap.2 ⟨entry, member, needed⟩)))))

/-- Only known modules are imported. -/
theorem unitImports_known (continues : Continues advanceStart routine) :
    ∀ moduleName ∈ unitImports plan routine, moduleName ∈ Symbol.modules := by
  intro moduleName member
  have construct := (constructorOf_puts (Fragment.ofPlan plan)).continues
  have prepare := (prepareOf_puts (registryOf plan)).continues
  have setup := (setupOf_puts (registryOf plan)).continues
  simp only [unitImports, mem_insertModules] at member
  rcases member with advance | settled | prepared | constructed | field | first
  · exact continues.known (start_known _ _) _ advance
  · exact setup.known (start_known _ _) _ settled
  · exact prepare.known (start_known _ _) _ prepared
  · exact construct.known (start_known _ _) _ constructed
  · obtain ⟨entry, -, needed⟩ := List.mem_flatMap.1 field
    exact Continues.mem_modules_of_modulesOfType needed
  · rw [List.mem_singleton.1 first]
    decide

/-- No module is imported twice. -/
theorem unitImports_nodup (plan : Plan) (routine : RoutineDraft) :
    (unitImports plan routine).Nodup :=
  nodup_of_sorted (insertModules_sorted _ (insertModules_sorted _ (insertModules_sorted _
    (insertModules_sorted _ (insertModules_sorted _ (List.pairwise_singleton _ _))))))

end Imports

/-! ## Names -/

section Names

variable {plan : Plan} {routine : RoutineDraft} {row : List Local} {steps : List RowStep}
  {name : String} {imports : List String}

/-- The types of the parameters and results of routines can be used. -/
theorem fits_exec {type : TypeName} (execs : "sql.exec" ∈ imports)
    (listed : type ∈ [writtenType .executor, writtenType .context, writtenType .progress]) :
    type.Fits (Usable imports) := by
  have plain : ∀ type ∈ [writtenType .executor, writtenType .context, writtenType .progress],
      isName type.name = true ∧ Symbol.moduleOf? type.name = some "sql.exec" ∧
        type.argument = none := by
    decide
  obtain ⟨named, provided, single⟩ := plain type listed
  refine ⟨.of_module named provided execs, fun argument given => ?_⟩
  rw [single] at given
  cases given

/-- The fields of a run start with underscores. -/
theorem StateVariable.underscored (compilable : plan.isCompilable = true)
    (positive : ∀ id ∈ plan.runIds, 0 ≤ id) {entry : StateVariable}
    (member : entry ∈ (registryOf plan).declared) : Underscored entry.name := by
  obtain ⟨generator, inside, mine⟩ := List.mem_flatMap.1 member
  refine underscored_fieldOf ?_ entry.kind
  rw [Generator.nodeId_of_mem mine]
  exact positive _ (id_mem_runIds compilable inside)

/-- The names in the routine that binds the unit can be used. -/
theorem prepareDecl_fits (compilable : plan.isCompilable = true) (apart : plan.runIds.Nodup)
    (positive : ∀ id ∈ plan.runIds, 0 ≤ id) (execs : "sql.exec" ∈ imports) :
    Member.Fits (Usable imports) (.routine (prepareDecl plan)) := by
  have named : Usable imports "prepare" := .of_free (by decide) (by decide)
  have parameter : Usable imports "exec" := .of_free (by decide) (by decide)
  refine ⟨named, List.forall_mem_singleton.2 ⟨parameter, fits_exec execs (by decide)⟩, ?_, ?_⟩
  · intro type never
    cases never
  · rw [Stmt.allFit_iff, prepareDecl, List.forall_mem_map]
    exact fun node member => prepareStatement_fits compilable apart positive execs member

/-- The names in the setup routine can be used. -/
theorem setupDecl_fits (compilable : plan.isCompilable = true)
    (positive : ∀ id ∈ plan.runIds, 0 ≤ id) (execs : "sql.exec" ∈ imports) :
    Member.Fits (Usable imports) (.routine (setupDecl plan)) := by
  have named : Usable imports "setup" := .of_free (by decide) (by decide)
  have parameter : Usable imports "ctx" := .of_free (by decide) (by decide)
  refine ⟨named, List.forall_mem_singleton.2 ⟨parameter, fits_exec execs (by decide)⟩, ?_, ?_⟩
  · intro type never
    cases never
  · rw [Stmt.allFit_iff, setupDecl, List.forall_mem_flatMap]
    exact fun entry member => openStatements_fits compilable positive execs member

/-- The names in the routine that produces a batch can be used. -/
theorem advanceDecl_fits {wide : Prop} (compilable : plan.isCompilable = true)
    (positive : ∀ id ∈ plan.runIds, 0 ≤ id) (advances : Advances wide plan routine row steps)
    (more : ∀ moduleName ∈ routine.imports, moduleName ∈ imports) :
    Member.Fits (Usable imports) (.routine (advanceDecl plan row steps)) := by
  have named : Usable imports "advance" := .of_free (by decide) (by decide)
  refine ⟨named, List.forall_mem_nil _, ?_, advances.fits compilable positive more⟩
  intro type answered
  cases answered
  exact fits_exec (more _ (advances.provided _ (by decide))) (by decide)

/-- The parts of the names of modules can be used anywhere. -/
theorem fits_module {moduleName : String}
    (known : moduleName ∈ Symbol.unitModule :: Symbol.modules) :
    Script.DottedFits (Usable imports) moduleName := by
  have parts : ∀ moduleName ∈ Symbol.unitModule :: Symbol.modules,
      ∀ part ∈ dottedParts moduleName, isName part = true ∧ Symbol.moduleOf? part = none := by
    decide
  intro part inside
  obtain ⟨named, free⟩ := parts moduleName known part inside
  exact .of_free named free

/-- All names in the unit of a run can be used. -/
theorem sourceUnitOf_fits {wide : Prop} (compilable : plan.isCompilable = true)
    (apart : plan.runIds.Nodup) (positive : ∀ id ∈ plan.runIds, 0 ≤ id)
    (advances : Advances wide plan routine row steps)
    (named : Usable (unitImports plan routine) name) :
    (sourceUnitOf plan name (unitImports plan routine) row steps).Fits
      (Usable (unitImports plan routine)) := by
  have more := routine_imports plan routine
  have execs : "sql.exec" ∈ unitImports plan routine := more _ (advances.provided _ (by decide))
  have fields : ∀ entry ∈ (registryOf plan).declared,
      Member.Fits (Usable (unitImports plan routine)) (.field entry.decl) := by
    intro entry member
    refine ⟨(StateVariable.underscored compilable positive member).usable, ?_⟩
    exact (fits_variable entry.kind).imp fun _ usable =>
      usable.mono (field_imports routine member)
  have base : Usable (unitImports plan routine) Symbol.baseUnit :=
    .of_module (by decide) (by decide) execs
  refine ⟨fits_module List.mem_cons_self, fun entry member => ?_, named, base, ?_⟩
  · obtain ⟨moduleName, listed, rfl⟩ := List.mem_map.1 member
    exact fits_module (List.mem_cons_of_mem _ (unitImports_known advances.continues _ listed))
  · simp only [UnitDecl.members, sourceUnitOf, List.forall_mem_append, List.forall_mem_map,
      List.forall_mem_cons]
    refine ⟨⟨fields, ⟨⟨trivial, trivial, trivial⟩, trivial⟩, List.forall_mem_nil _⟩, ?_, ?_, ?_,
      List.forall_mem_nil _⟩
    · exact prepareDecl_fits compilable apart positive execs
    · exact setupDecl_fits compilable positive execs
    · exact advanceDecl_fits compilable positive advances more

end Names

/-! ## Frames -/

section Frames

variable {plan : Plan} {routine : RoutineDraft} {row : List Local} {steps : List RowStep}
  {name : String}

/-- What is in scope in the unit of a run. -/
def scopeOf (plan : Plan) (imports : List String) : UnitScope :=
  ⟨imports.reverse, (registryOf plan).declared.map fun entry => ⟨entry.name, entry.kind.ty⟩⟩

/-- The fields of a run have different names. -/
theorem declared_apart (compilable : plan.isCompilable = true) (apart : plan.runIds.Nodup) :
    ((registryOf plan).declared.map StateVariable.name).Nodup := by
  refine stateVariables_apart ?_
  rw [(runGenerators_spec compilable).2]
  exact apart

/-- A field is found by its name when no other field has that name. -/
theorem field?_of_mem {scope : UnitScope} {field : FieldInfo}
    (apart : (scope.fields.map FieldInfo.name).Nodup) (member : field ∈ scope.fields) :
    ∃ index, scope.field? field.name = some (index, field.type) := by
  rw [UnitScope.field?]
  cases found : scope.fields.findIdx? fun other => other.name == field.name with
  | none =>
    have differs := List.findIdx?_eq_none_iff.1 found field member
    simp at differs
  | some index =>
    obtain ⟨inside, named, -⟩ := List.findIdx?_eq_some_iff_getElem.1 found
    have same : scope.fields[index] = field :=
      List.inj_on_of_nodup_map apart (List.getElem_mem inside) member (eq_of_beq named)
    exact ⟨index, by simp [List.getElem?_eq_getElem inside, same]⟩

/-- The fields of a run are in scope. -/
theorem hasFields_scopeOf (compilable : plan.isCompilable = true) (apart : plan.runIds.Nodup)
    (imports : List String) : HasFields (scopeOf plan imports) plan := by
  intro entry member
  refine @field?_of_mem (scopeOf plan imports) ⟨entry.name, entry.kind.ty⟩ ?_
    (List.mem_map.2 ⟨entry, member, rfl⟩)
  rw [scopeOf, List.map_map]
  exact declared_apart compilable apart

/-- The unit of a run has a right frame. -/
theorem sourceUnitOf_frame {wide : Prop} (compilable : plan.isCompilable = true)
    (apart : plan.runIds.Nodup) (advances : Advances wide plan routine row steps) :
    UnitFrame (sourceUnitOf plan name (unitImports plan routine) row steps)
      (Symbol.unitModule ++ "." ++ name) (scopeOf plan (unitImports plan routine)) plan.id
      plan.runIds where
  name := rfl
  imports := by
    have listed : (sourceUnitOf plan name (unitImports plan routine) row steps).imports.map
        Import.moduleName = unitImports plan routine := by
      simp [sourceUnitOf, Function.comp_def]
    rw [Script.checkImports_eq ?_ ?_ fun _ _ => List.not_mem_nil, listed, List.append_nil]
    · rfl
    · intro entry member
      exact unitImports_known advances.continues _ (listed ▸ List.mem_map_of_mem member)
    · rw [listed]
      exact unitImports_nodup plan routine
  base := rfl
  provided := by
    have home : Symbol.moduleOf? Symbol.baseUnit = some "sql.exec" := by decide
    refine imports_of_module home (List.mem_reverse.2 ?_)
    exact routine_imports plan routine _ (advances.provided "sql.exec" (by decide))
  fields := by
    refine @Script.lowerFields_eq _ _ [] _ ?_ ?_
    · rw [sourceUnitOf, scopeOf, List.forall₂_map_left_iff, List.forall₂_map_right_iff,
        List.forall₂_same]
      refine fun entry member => ⟨rfl, resolve_variable entry.kind fun moduleName needed => ?_⟩
      exact List.mem_reverse.2 (field_imports routine member moduleName needed)
    · rw [List.nil_append, List.map_map]
      exact declared_apart compilable apart
  constructed := by
    refine @Script.checkConstructor_eq _ .first .first .first .first _ _ ?_ apart
      (Plan.id_mem_runIds compilable)
    rw [← Fragment.subsumedIds_ofPlan compilable apart]
    rfl

end Frames

/-! ## Acceptance -/

section Accepting

variable {plan : Plan} {routine : RoutineDraft} {row : List Local} {steps : List RowStep}
  {name : String}

/-- The unit of a run is accepted unless a condition of the run is an object of no known class. -/
theorem sourceUnitOf_accepted {wide : Prop} (compilable : plan.isCompilable = true)
    (apart : plan.runIds.Nodup) (positive : ∀ id ∈ plan.runIds, 0 ≤ id)
    (advances : Advances wide plan routine row steps) :
    (∃ unit, Script.lowerUnit (sourceUnitOf plan name (unitImports plan routine) row steps)
        (Symbol.unitModule ++ "." ++ name) = .ok unit) ↔
      .scalar .object ∉ plan.conditionTypes := by
  let imports := unitImports plan routine
  have frame := @sourceUnitOf_frame _ _ _ _ name _ compilable apart advances
  have fields := hasFields_scopeOf compilable apart imports
  have more := routine_imports plan routine
  have execs : "sql.exec" ∈ (scopeOf plan imports).imports :=
    List.mem_reverse.2 (more _ (advances.provided _ (by decide)))
  have rows : "sql.row" ∈ (scopeOf plan imports).imports :=
    List.mem_reverse.2 (more _ (advances.provided _ (by decide)))
  have proper := advances.proper compilable positive more
  have body := advances.admitsIff compilable (positive _ (Plan.id_mem_runIds compilable)) fields
    rows execs (RowStep.underscored proper)
  have resolved : (scopeOf plan imports).resolve (writtenType .progress) = .ok .progress :=
    resolve_plain rfl (imports_of_module (by decide) execs)
  have plain : .scalar .object ∉ plan.conditionTypes ↔
      ∀ type ∈ plan.conditionTypes, type ≠ .scalar .object :=
    ⟨fun absent type member same => absent (same ▸ member), fun all member => all _ member rfl⟩
  rw [plain]
  constructor
  · rintro ⟨unit, accepted⟩
    obtain ⟨signature, listed, same, pools, ⟨lowered, next⟩, accepted⟩ :=
      Script.lowerRoutine_of_lowerUnit frame accepted
        (List.mem_cons_of_mem _ (List.mem_cons_of_mem _ (List.mem_singleton_self _)))
    obtain rfl : signature = ⟨"advance", [], .progress⟩ := by
      simp only [Script.signatures, List.mem_cons, List.not_mem_nil, or_false] at listed
      rcases listed with rfl | rfl | rfl
      · exact absurd same (by decide : "prepare" ≠ "advance")
      · exact absurd same (by decide : "setup" ≠ "advance")
      · rfl
    obtain ⟨-, -, locals, block, last, params, rules, -⟩ := Script.lowerRoutine_eq_ok_iff.1 accepted
    cases params
    exact body.holds rules
  · intro known
    obtain ⟨unit, accepted, -⟩ := Script.lowerUnit_of_routines frame rfl rfl rfl rfl
      (accepts_prepare compilable apart fields execs) (accepts_setup fields execs)
      (.of_admits resolved rfl rfl (body.admits known) (.inr rfl))
    exact ⟨unit, accepted⟩

end Accepting

/-! ## Fragments -/

/-- The source of a fragment is that of a unit with the parts that it should have. -/
structure WellFormed (fragment : Fragment) (generated : GeneratedUnit) (read : SourceUnit) :
    Prop where
  parses : Script.parse generated.source = .ok read
  name : read.unit.name = generated.name
  qualified : read.moduleName ++ "." ++ read.unit.name = generated.qualifiedName
  base : read.unit.base = Symbol.baseUnit
  /-- The fields are the state that the generators of the fragment declare. -/
  fields : ∃ registry,
    Registry.runOn (declareAll (fragment.generators.map GeneratorTree.generator)) .empty =
        (.ok (), registry) ∧
      read.unit.fields.map (fun field => (field.name, field.type.text)) =
        registry.declared.map fun entry => (entry.name, entry.kind.ty.text)
  constructed :
    Script.checkConstructor read.unit = .ok (fragment.primaryId, fragment.subsumedIds)
  once : (read.imports.map Import.moduleName).Nodup
  /-- What the source mentions of the engine is imported. -/
  provided : ∃ tokens, Script.tokenize generated.source = .ok tokens ∧
    ∀ token ∈ tokens, token.kind = .identifier →
      ∀ moduleName, Symbol.moduleOf? token.literal = some moduleName →
        moduleName ∈ read.imports.map Import.moduleName

section Compiling

variable {plan : Plan} {generated : GeneratedUnit}

/-- The source of a run, when it is read at all, is read as a unit like that of the run, and
mentions nothing of the engine that is not imported. -/
theorem generate_reads (run : IsRun plan)
    (readable : plan.Narrow ∨ ∃ read, Script.parse generated.source = .ok read)
    (written : (Fragment.ofPlan plan).generate = .ok generated) :
    ∃ routine row steps read, Advances False plan routine row steps ∧
      (sourceUnitOf plan generated.name (unitImports plan routine) row steps).Alike read ∧
      generated.qualifiedName = Symbol.unitModule ++ "." ++ generated.name ∧
      Script.parse generated.source = .ok read ∧
      ∃ tokens, Script.tokenize generated.source = .ok tokens ∧
        ∀ token ∈ tokens, token.kind = .identifier →
          Usable (unitImports plan routine) token.literal := by
  obtain ⟨compilable, apart, positive⟩ := run
  obtain ⟨routine, word, advance, named, qualified, source⟩ := generate_eq compilable apart written
  obtain ⟨wide, row, steps, advances⟩ := advanceOf_code compilable apart advance
  have fits := sourceUnitOf_fits compilable apart positive advances
    (named ▸ usable_unitName word : Usable (unitImports plan routine) generated.name)
  have writable := fits.writable fun _ usable => usable.1
  obtain ⟨spelled, spells, shape⟩ := (unitDraftOf_draws advances writable rfl).spells writable
  rw [← source] at spells
  have whole : ¬ wide ∧ spelled =
      (sourceUnitOf plan generated.name (unitImports plan routine) row steps).tokens := by
    refine shape.resolve_right ?_
    rintro ⟨many, overflows⟩
    rcases readable with narrow | ⟨read, parsed⟩
    · exact advances.many many narrow
    · exact overflows.rejected spells read parsed
  obtain ⟨few, whole⟩ := whole
  obtain rfl : wide = False := eq_false few
  rw [whole] at spells
  obtain ⟨read, alike, parsed⟩ := Script.parse_eq writable spells
  exact ⟨routine, row, steps, read, advances, alike, qualified, parsed, fits.tokens.tokenize spells⟩

/-- Fields that are alike have the same names and types. -/
theorem fields_alike {first second : List FieldDecl}
    (alike : List.Forall₂ FieldDecl.Alike first second) :
    first.map (fun field => (field.name, field.type.text)) =
      second.map fun field => (field.name, field.type.text) := by
  induction alike with
  | nil => rfl
  | cons same _ step =>
    rw [List.map_cons, List.map_cons, step, same.name, TypeName.text, TypeName.text, same.type.name,
      same.type.argument]

/-- The source of a run is well formed. -/
theorem wellFormed_ofPlan (run : IsRun plan) (narrow : plan.Narrow)
    (written : (Fragment.ofPlan plan).generate = .ok generated) :
    ∃ read, WellFormed (Fragment.ofPlan plan) generated read := by
  obtain ⟨routine, row, steps, read, advances, alike, qualified, parsed, tokens, scanned, usable⟩ :=
    generate_reads run (.inl narrow) written
  have frame :=
    (@sourceUnitOf_frame _ _ _ _ generated.name _ run.compilable run.apart advances).alike alike
  have modules : read.imports.map Import.moduleName = unitImports plan routine := by
    rw [← alike.imports]
    simp [sourceUnitOf, Function.comp_def]
  refine ⟨read, parsed, alike.unit.name.symm, frame.name.trans qualified.symm,
    frame.base, ?_, ?_, ?_, tokens, scanned, ?_⟩
  · refine ⟨_, declareAll_ofPlan run.compilable run.apart, ?_⟩
    rw [← fields_alike alike.unit.fields]
    simp [sourceUnitOf, StateVariable.decl, writtenType_text]
  · rw [Fragment.subsumedIds_ofPlan run.compilable run.apart]
    exact frame.constructed
  · exact modules ▸ unitImports_nodup plan routine
  · intro token member named moduleName mentioned
    exact modules ▸ (usable token member named).2 moduleName mentioned

/-- The unit of a run is compiled unless a condition of the run is an object of no known class. -/
theorem compile_ok_iff (run : IsRun plan) (narrow : plan.Narrow)
    (written : (Fragment.ofPlan plan).generate = .ok generated) :
    (∃ unit, generated.compile = .ok unit) ↔ .scalar .object ∉ plan.conditionTypes := by
  obtain ⟨routine, row, steps, read, advances, alike, qualified, parsed, -⟩ :=
    generate_reads run (.inl narrow) written
  rw [← @sourceUnitOf_accepted _ _ _ _ generated.name _ run.compilable run.apart
    run.positive advances]
  have lowered : ∀ unit, generated.compile = .ok unit ↔
      Script.lowerUnit read generated.qualifiedName = .ok unit := fun _ =>
    Script.compile_eq_ok_iff parsed
  simp only [lowered, qualified]
  exact ⟨fun ⟨unit, accepted⟩ => ⟨unit, alike.symm.lowerUnit_eq_ok accepted⟩,
    fun ⟨unit, accepted⟩ => ⟨unit, alike.lowerUnit_eq_ok accepted⟩⟩

/-- What cannot be compiled is rejected as such. -/
theorem compile_error {error : Error} (failed : generated.compile = .error error) :
    ∃ message line column,
      error = .compilation generated.qualifiedName message line column generated.source := by
  unfold GeneratedUnit.compile Script.compile at failed
  split at failed
  · cases failed
    exact ⟨_, _, _, rfl⟩
  · split at failed
    · cases failed
      exact ⟨_, _, _, rfl⟩
    · cases failed

/-- The source of a fragment is well formed, and it is compiled unless a condition of the fragment
is an object of no known class. -/
theorem generate_compiles_iff {tree : PlanTree} (built : tree.Built) {fragments : List Fragment}
    (split : partition tree.root = .ok fragments) {fragment : Fragment}
    (member : fragment ∈ fragments) (narrow : fragment.plan.Narrow)
    (written : fragment.generate = .ok generated) :
    (∃ read, WellFormed fragment generated read) ∧
      ((∃ error, generated.compile = .error error) ↔
        .scalar .object ∈ fragment.plan.conditionTypes) ∧
      ∀ error, generated.compile = .error error → ∃ message line column,
        error = .compilation generated.qualifiedName message line column generated.source := by
  obtain ⟨same, run⟩ := isRun_of_partition built split member
  rw [same] at written
  refine ⟨?_, ?_, fun _ failed => compile_error failed⟩
  · rw [same]
    exact wellFormed_ofPlan run narrow written
  · rw [← not_iff_not, ← compile_ok_iff run narrow written]
    cases generated.compile <;> simp

end Compiling

/-- A scan of objects of no known class, with one of them as its condition. -/
def objectScan : ScanSpec :=
  ⟨"people", .scalar .int, .scalar .object, [⟨false, none⟩], [.object], [0],
    some (.column 0 .object)⟩

/-- The source of the scan is well formed, but it is not compiled. -/
theorem generate_compiles_iff_objectScan :
    ∃ tree fragments fragment generated,
      PlanTree.ofNodes [(1, .scan objectScan, []), (2, .root, [1])] 2 = .ok tree ∧
      partition tree.root = .ok fragments ∧ fragment ∈ fragments ∧
      fragment.generate = .ok generated ∧ (∃ read, WellFormed fragment generated read) ∧
      ∃ error, generated.compile = .error error := by
  have built : PlanTree.ofNodes [(1, .scan objectScan, []), (2, .root, [1])] 2 =
      .ok ⟨[.scan 1 objectScan, .root 2 (.scan 1 objectScan)], .root 2 (.scan 1 objectScan)⟩ := rfl
  have compilable : (Plan.scan 1 objectScan).isCompilable = true := by decide +kernel
  have member : Fragment.ofPlan (.scan 1 objectScan) ∈
      ((Plan.root 2 (.scan 1 objectScan)).runEnds).map Fragment.ofPlan := by
    refine List.mem_map_of_mem ?_
    have checked : (checkScan objectScan).isOk = true := compilable
    simp [Plan.runEnds, Plan.postOrder, Plan.endedRuns, Plan.inputs, checked, Plan.isCompilable]
  have calm : ¬ (Plan.scan 1 objectScan).FieldsClash := by
    intro clash
    obtain ⟨earlier, later, path, other, type, otherType, field, before, second, -, first, -⟩ :=
      clash.called
    rcases later with _ | later
    · omega
    · cases second
  obtain ⟨generated, written⟩ :=
    (generate_ofPlan_ok_iff compilable (List.nodup_singleton _)).2 calm
  obtain ⟨fine, fails, -⟩ :=
    generate_compiles_iff (PlanTree.built_of_ofNodes built) (partition_eq _) member trivial written
  exact ⟨_, _, _, generated, built, partition_eq _, member, written, fine,
    fails.2 (List.mem_singleton_self _)⟩

end QueryFusion.Generate
