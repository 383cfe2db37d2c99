import QueryFusion.Proofs.Generate.AcceptedBinding

/-!
# Generated units

The source of a fragment is the text of a unit whose parts are known: its heading, the fields of its
nodes, and the code for binding, setup and batches. Whatever it mentions of the engine is imported.
-/

namespace QueryFusion.Generate

open Emit
open Script (Term TypeName Ty Stmt FieldDecl ConstructorDecl RoutineDecl Member Import SourceUnit
  UnitScope FieldInfo Spells isName)

/-! ## Names of units -/

/-- Digits of base sixteen belong to words. -/
theorem wordy_toDigits (number : Nat) :
    ∀ c ∈ Nat.toDigits 16 number, Script.isWordChar c = true := by
  have digit : ∀ number < 16, Script.isWordChar (Nat.digitChar number) = true := by decide
  induction number using Nat.strongRecOn with
  | ind number step =>
    rcases Nat.lt_or_ge number 16 with small | large
    · rw [Nat.toDigits_of_lt_base small]
      exact List.forall_mem_singleton.2 (digit number small)
    · rw [Nat.toDigits_of_base_le (by decide) large]
      exact List.forall_mem_append.2 ⟨step _ (by omega),
        List.forall_mem_singleton.2 (digit _ (Nat.mod_lt _ (by decide)))⟩

/-- The digits of a hash belong to a word. -/
theorem wordy_hexDigits (word : UInt64) : Wordy (hexDigits word) := by
  unfold Wordy hexDigits
  rw [String.toList_ofList]
  refine List.forall_mem_append.2 ⟨fun c member => ?_, wordy_toDigits _⟩
  rw [List.eq_of_mem_replicate member]
  decide

/-- A name with an underscore is no name of the engine. -/
theorem moduleOf?_of_underscore {name : String} (inside : '_' ∈ name.toList) :
    Symbol.moduleOf? name = none := by
  have without : ∀ entry ∈ Symbol.provided, ∀ symbol ∈ entry.2, '_' ∉ symbol.toList := by decide
  rw [Symbol.moduleOf?, Option.map_eq_none_iff, List.find?_eq_none]
  intro entry member listed
  exact without entry member name (List.contains_iff_mem.1 listed) inside

/-- The name of a unit can be used anywhere. -/
theorem usable_unitName {imports : List String} (word : UInt64) :
    Usable imports (Symbol.unitNameStart ++ hexDigits word) := by
  have point : '_' ∈ Symbol.unitNameStart.toList := by decide
  have begins : Symbol.unitNameStart.toList.head? = some 'C' := by decide
  have wordy : Wordy (Symbol.unitNameStart ++ hexDigits word) :=
    Wordy.append (by decide) (wordy_hexDigits word)
  obtain ⟨rest, start⟩ := List.head?_eq_some_iff.1 begins
  have free : Script.isKeyword (Symbol.unitNameStart ++ hexDigits word) = false := by
    refine isKeyword_eq_false 1 ?_
    have other : ∀ keyword ∈ Script.keywords, keyword.toList.take 1 ≠ ['C'] := by decide
    rw [String.toList_append, start]
    exact other
  refine .of_free ?_ (moduleOf?_of_underscore ?_)
  · have whole : Script.isWord (Symbol.unitNameStart ++ hexDigits word).toList = true := by
      rw [Script.isWord, Bool.and_eq_true, List.all_eq_true]
      refine ⟨?_, wordy⟩
      have capital : Script.isWordStart 'C' = true := by decide
      rw [String.toList_append, start]
      exact capital
    rw [isName, whole, free]
    rfl
  · rw [String.toList_append]
    exact List.mem_append_left _ point

/-! ## The source unit -/

/-- The declaration of the field of a variable. -/
def StateVariable.decl (entry : StateVariable) : FieldDecl :=
  ⟨entry.name, writtenType entry.kind.ty, .first⟩

/-- The source unit of a run. -/
def sourceUnitOf (plan : Plan) (name : String) (imports : List String) (row : List Local)
    (steps : List RowStep) : SourceUnit :=
  ⟨Symbol.unitModule, imports.map fun moduleName => ⟨moduleName, .first⟩,
    ⟨name, Symbol.baseUnit, (registryOf plan).declared.map StateVariable.decl,
      [⟨constructStatements (Fragment.ofPlan plan), .first⟩],
      [prepareDecl plan, setupDecl plan, advanceDecl plan row steps], .first⟩⟩

/-- The modules that the fields of a run need. -/
def fieldModules (plan : Plan) : List String :=
  (registryOf plan).declared.flatMap fun entry => Symbol.modulesOfType entry.kind.ty.text

/-- The modules that the unit of a run imports. -/
def unitImports (plan : Plan) (routine : RoutineDraft) : List String :=
  insertModules routine.imports (insertModules (setupOf (registryOf plan)).imports
    (insertModules (prepareOf (registryOf plan)).imports
      (insertModules (constructorOf (Fragment.ofPlan plan)).imports
        (insertModules (fieldModules plan) ["sql.exec"]))))

/-- The unit of a run under construction. -/
def unitDraftOf (plan : Plan) (name : String) (routine : RoutineDraft) : UnitDraft :=
  ⟨Symbol.unitModule, name, Symbol.baseUnit, unitImports plan routine,
    (registryOf plan).declared.map fun entry => (entry.name, entry.kind.ty.text),
    [constructorOf (Fragment.ofPlan plan), prepareOf (registryOf plan), setupOf (registryOf plan),
      routine]⟩

section Writing

variable {plan : Plan} {routine : RoutineDraft} {row : List Local} {steps : List RowStep}
  {imports : List String} {name : String}

/-- Fields are added with the modules of their types. -/
theorem addFields_eq {entries : List StateVariable} {unit next : UnitDraft}
    (added : addFields unit entries = .ok next) : next =
      { unit with
        imports := insertModules
          (entries.flatMap fun entry => Symbol.modulesOfType entry.kind.ty.text) unit.imports
        fields := unit.fields ++ entries.map fun entry => (entry.name, entry.kind.ty.text) } := by
  induction entries generalizing unit with
  | nil =>
    cases added
    simp [insertModules]
  | cons entry rest step =>
    obtain ⟨middle, first, others⟩ := bind_eq_ok_iff.1 added
    unfold UnitDraft.addField at first
    split at first
    · cases first
    · cases first
      rw [step others, List.flatMap_cons, insertModules_append]
      simp

/-- The draft of a run. -/
theorem draftOf_eq (compilable : plan.isCompilable = true) (apart : plan.runIds.Nodup)
    {draft : UnitDraft} (drafted : draftOf (Fragment.ofPlan plan) = .ok draft) :
    ∃ routine, advanceOf (Fragment.ofPlan plan).tree = .ok routine ∧
      draft = unitDraftOf plan placeholderName routine := by
  unfold draftOf at drafted
  rw [declareAll_ofPlan compilable apart] at drafted
  simp only [ok_bind] at drafted
  obtain ⟨unit, added, drafted⟩ := bind_eq_ok_iff.1 drafted
  obtain ⟨routine, advance, drafted⟩ := bind_eq_ok_iff.1 drafted
  cases drafted
  have start : (UnitDraft.start Symbol.unitModule placeholderName Symbol.baseUnit).imports =
      ["sql.exec"] := by decide
  refine ⟨routine, advance, ?_⟩
  rw [addFields_eq added]
  simp only [UnitDraft.addRoutine, start]
  rfl

/-- What is generated for a run is the text of its unit. -/
theorem generate_eq (compilable : plan.isCompilable = true) (apart : plan.runIds.Nodup)
    {generated : GeneratedUnit} (written : (Fragment.ofPlan plan).generate = .ok generated) :
    ∃ routine word, advanceOf (Fragment.ofPlan plan).tree = .ok routine ∧
      generated.name = Symbol.unitNameStart ++ hexDigits word ∧
      generated.qualifiedName = Symbol.unitModule ++ "." ++ generated.name ∧
      generated.source = (unitDraftOf plan generated.name routine).source := by
  obtain ⟨draft, drafted, same⟩ := bind_eq_ok_iff.1 written
  obtain ⟨routine, advance, rfl⟩ := draftOf_eq compilable apart drafted
  cases same
  exact ⟨routine, _, advance, rfl, rfl, rfl⟩

/-- The routines of a source unit that can be written can be written. -/
theorem routines_writable (writable : (sourceUnitOf plan name imports row steps).Writable) :
    Stmt.AllWritable (constructStatements (Fragment.ofPlan plan)) ∧
      Member.Writable (.routine (prepareDecl plan)) ∧ Member.Writable (.routine (setupDecl plan)) ∧
        Member.Writable (.routine (advanceDecl plan row steps)) := by
  have members := writable.members
  rw [Script.UnitDecl.members, List.forall_mem_append, List.forall_mem_append] at members
  obtain ⟨⟨-, constructors⟩, routines⟩ := members
  simp only [sourceUnitOf, List.map_cons, List.map_nil, List.forall_mem_cons]
    at constructors routines
  exact ⟨constructors.1, routines.1, routines.2.1, routines.2.2.1⟩

/-- The unit of a run stands for its source unit. -/
theorem unitDraftOf_draws {wide : Prop} (advances : Advances wide plan routine row steps)
    (writable : (sourceUnitOf plan name imports row steps).Writable)
    (same : imports = unitImports plan routine) :
    (unitDraftOf plan name routine).Draws wide
      (sourceUnitOf plan name imports row steps) where
  moduleName := rfl
  imports := by
    rw [same]
    simp only [unitDraftOf, sourceUnitOf, List.map_map]
    exact (List.map_id _).symm
  name := rfl
  base := rfl
  fields := by
    simp only [unitDraftOf, sourceUnitOf, List.map_map]
    exact List.map_congr_left fun entry _ => by
      simp [StateVariable.decl, writtenType_text]
  routines := by
    obtain ⟨constructs, prepares, setsUp, produces⟩ := routines_writable writable
    have construct := constructorOf_puts (Fragment.ofPlan plan)
    have prepare := prepareOf_puts (registryOf plan)
    have setup := setupOf_puts (registryOf plan)
    have front : Yields ([constructorOf (Fragment.ofPlan plan), prepareOf (registryOf plan),
          setupOf (registryOf plan)].flatMap fun draft => .newLine :: draft.emit)
        ([Member.constructor ⟨constructStatements (Fragment.ofPlan plan), .first⟩,
          .routine (prepareDecl plan), .routine (setupDecl plan)].flatMap Member.tokens) := by
      refine .members (.cons ?_ (.cons ?_ (.cons ?_ .nil)))
      · exact (Shows.constructor construct.continues.kind construct.continues.params
          (.of_yields (construct.yields rfl constructs))).certain
      · exact (Shows.routine prepares prepare.continues.kind prepare.continues.params
          (.of_yields (prepare.yields rfl prepares.2.2.2))).certain
      · exact (Shows.routine setsUp setup.continues.kind setup.continues.params
          (.of_yields (setup.yields rfl setsUp.2.2.2))).certain
    have producing := Shows.routine produces advances.continues.kind advances.continues.params
      (advances.lines (Script.allWritable_iff.1 produces.2.2.2))
    have whole := (producing.behind Yields.newLine).behind front
    simpa [unitDraftOf, sourceUnitOf] using whole

end Writing

end QueryFusion.Generate
