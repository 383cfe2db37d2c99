import QueryFusion.Proofs.Generate.AcceptedBatches
import QueryFusion.Proofs.Generate.BindingCode

/-!
# Binding and setup are accepted

Each node takes its state from an executor of its own kind, by methods that give what the fields of
the node hold, and each cursor is opened over the map and the partitions of its node.
-/

namespace QueryFusion.Generate

open Emit
open Script (Term TypeName Ty Stmt Types TypesAll Admits Locals UnitScope RoutineScope RoutineDecl
  Param ExecutorKind Signature AcceptsRoutine)

/-! ## State of nodes -/

namespace Generator

/-- The kind of the executor that a node is bound to. -/
def executorKind? : Generator → Option ExecutorKind
  | scan .. => some .scan
  | filter .. => some .filter
  | project .. => some .project
  | output _ | interpreted _ => none

/-- A node is registered with the kind of its executor. -/
theorem nodes_eq (generator : Generator) :
    generator.nodes = (generator.executorKind?.map fun kind =>
      (generator.id, kind.name)).toList := by
  cases generator <;> rfl

/-- The variables of a generator belong to its node. -/
theorem nodeId_of_mem {generator : Generator} {entry : StateVariable}
    (member : entry ∈ generator.stateVariables) : entry.nodeId = generator.id := by
  obtain ⟨executorType, listed⟩ := generator.stateVariables_spec.1 entry member
  rw [nodes_eq] at listed
  cases kind : generator.executorKind? with
  | none =>
    rw [kind] at listed
    cases listed
  | some kind' =>
    rw [kind] at listed
    exact (Prod.mk.inj (List.mem_singleton.1 listed)).1

/-- What a variable is bound from gives what the variable holds. -/
theorem methodOf?_of_mem {generator : Generator} {entry : StateVariable}
    (member : entry ∈ generator.stateVariables) {kind : ExecutorKind}
    (known : generator.executorKind? = some kind) {method : String}
    (bound : entry.origin = .bound method) : ∃ instruction,
      Script.methodOf? (.specificExecutor kind) method = some (instruction, [], entry.kind.ty) := by
  cases generator with
  | scan id spec =>
    cases known
    rcases List.mem_append.1 member with listed | last
    · obtain ⟨pair, inside, rfl⟩ := List.mem_map.1 listed
      cases bound
      have all : ∀ pair ∈ scanBindings, Script.methodOf? (.specificExecutor .scan) pair.2.name =
          some (pair.2, [], pair.1.ty) := by decide
      exact ⟨_, all pair inside⟩
    · rw [List.mem_singleton.1 last] at bound
      cases bound
  | filter id condition | project id expressions =>
    cases known
    rw [List.mem_singleton.1 member] at bound ⊢
    cases bound
    exact ⟨_, rfl⟩
  | output id | interpreted id => cases member

end Generator

/-- The variables of a node are those of its generator. -/
theorem variablesOf_eq {generators : List Generator} (apart : (generators.map Generator.id).Nodup)
    {generator : Generator} (member : generator ∈ generators) :
    (generators.flatMap Generator.stateVariables).filter
    (fun entry => entry.nodeId == generator.id) =
      generator.stateVariables := by
  have mine : ∀ {other : Generator}, other.id = generator.id →
      other.stateVariables.filter (fun entry => entry.nodeId == generator.id) =
        other.stateVariables := by
    intro other same
    rw [List.filter_eq_self]
    intro entry inside
    rw [Generator.nodeId_of_mem inside, same, beq_self_eq_true]
  have theirs : ∀ {others : List Generator}, (∀ other ∈ others, other.id ≠ generator.id) →
      (others.flatMap Generator.stateVariables).filter (fun entry => entry.nodeId == generator.id) =
        [] := by
    intro others differs
    rw [List.filter_eq_nil_iff]
    intro entry inside
    obtain ⟨other, listed, here⟩ := List.mem_flatMap.1 inside
    rw [Generator.nodeId_of_mem here]
    simpa using differs other listed
  obtain ⟨before, after, rfl⟩ := List.append_of_mem member
  rw [List.map_append, List.map_cons, List.nodup_append, List.nodup_cons] at apart
  rw [List.flatMap_append, List.flatMap_cons, List.filter_append, List.filter_append, mine rfl,
    theirs, theirs, List.nil_append, List.append_nil]
  · exact fun other listed same => apart.2.1.1 (same ▸ List.mem_map_of_mem listed)
  · exact fun other listed same =>
      apart.2.2 _ (List.mem_map_of_mem listed) _ List.mem_cons_self same

/-! ## Declarations -/

/-- The declaration of the routine that binds the unit. -/
def prepareDecl (plan : Plan) : RoutineDecl :=
  ⟨"prepare", [⟨"exec", writtenType .executor, .first⟩], none,
    (registryOf plan).nodes.map (prepareStatement (registryOf plan)), .first⟩

/-- The declaration of the setup routine. -/
def setupDecl (plan : Plan) : RoutineDecl :=
  ⟨"setup", [⟨"ctx", writtenType .context, .first⟩], none,
    (registryOf plan).declared.flatMap StateVariable.openStatements, .first⟩

section Declarations

variable {plan : Plan} {imports : List String} {generator : Generator} {id : NodeId}

/-- The nodes of the generators of a run belong to the run. -/
theorem id_mem_runIds (compilable : plan.isCompilable = true)
    (member : generator ∈ plan.runGenerators) : generator.id ∈ plan.runIds := by
  rw [← Plan.runTree_ids compilable]
  obtain ⟨tree, inside, rfl⟩ := List.mem_map.1 member
  exact List.mem_map.2 ⟨tree, inside, rfl⟩

/-- The name of an executor can be used anywhere. -/
theorem usable_executorName (positive : 0 ≤ id) : Usable imports (executorName id) := by
  have text : (executorName id).toList = 'e' :: 'x' :: 'e' :: 'c' :: '_' :: id.text.toList := by
    simp [executorName]
  refine .of_begins text (by decide) (by decide) ?_ (isKeyword_eq_false 3 ?_)
  · simp only [List.forall_mem_cons]
    exact ⟨by decide, by decide, by decide, by decide, wordy_text positive⟩
  · have other : ∀ keyword ∈ Script.keywords, keyword.toList.take 3 ≠ ['e', 'x', 'e'] := by decide
    rw [text]
    exact other

/-- The methods of executors can be used anywhere. -/
theorem usable_method {type result : Ty} {method : String} {instruction : Script.Method}
    {params : List Ty} (has : Script.methodOf? type method = some (instruction, params, result)) :
    Usable imports method := by
  have all : ∀ method : Script.Method, Script.isName method.name = true ∧
      Symbol.moduleOf? method.name = none := by
    intro method
    cases method <;> decide
  obtain ⟨named, free⟩ := all instruction
  rw [(Script.methodOf?_name has).1] at named free
  exact .of_free named free

/-- A generator of the run is behind every registered node. -/
theorem exists_generator {node : NodeId × String} (member : node ∈ (registryOf plan).nodes) :
    ∃ generator ∈ plan.runGenerators, ∃ kind, generator.executorKind? = some kind ∧
      node = (generator.id, kind.name) := by
  obtain ⟨generator, inside, listed⟩ := List.mem_flatMap.1 member
  rw [generator.nodes_eq, Option.mem_toList, Option.map_eq_some_iff] at listed
  obtain ⟨kind, known, rfl⟩ := listed
  exact ⟨generator, inside, kind, known, rfl⟩

/-- The generators of a run have different nodes. -/
theorem runGenerators_apart (compilable : plan.isCompilable = true) (apart : plan.runIds.Nodup) :
    (plan.runGenerators.map Generator.id).Nodup := by
  rw [Plan.runGenerators, List.map_map]
  rw [← Plan.runTree_ids compilable] at apart
  exact apart

/-- The block of a node binds the variables of its generator. -/
theorem prepareStatement_eq (compilable : plan.isCompilable = true) (apart : plan.runIds.Nodup)
    (member : generator ∈ plan.runGenerators) (executorType : String) :
    prepareStatement (registryOf plan) (generator.id, executorType) =
      .branch .first (nodeTest generator.id) (executorStatement (generator.id, executorType) ::
        generator.stateVariables.flatMap StateVariable.bindStatements) := by
  have state : (registryOf plan).variablesOf generator.id = generator.stateVariables :=
    variablesOf_eq (runGenerators_apart compilable apart) member
  rw [prepareStatement, state]

/-- The names of executors are those of the engine. -/
theorem fits_executorKind (execs : "sql.exec" ∈ imports) (kind : ExecutorKind) :
    (⟨kind.name, none, .first⟩ : TypeName).Fits (Usable imports) := by
  refine ⟨?_, fun _ never => nomatch never⟩
  cases kind <;> exact .of_module (by decide) (by decide) execs

/-- The names in the block of a node can be used. -/
theorem prepareStatement_fits (compilable : plan.isCompilable = true) (apart : plan.runIds.Nodup)
    (positive : ∀ id ∈ plan.runIds, 0 ≤ id) (execs : "sql.exec" ∈ imports) {node : NodeId × String}
    (member : node ∈ (registryOf plan).nodes) :
    (prepareStatement (registryOf plan) node).Fits (Usable imports) := by
  obtain ⟨generator, inside, kind, known, rfl⟩ := exists_generator member
  have natural := positive _ (id_mem_runIds compilable inside)
  have parameter : Usable imports "exec" := .of_free (by decide) (by decide)
  have method : Usable imports "id" := .of_free (by decide) (by decide)
  have executor : Usable imports (executorName generator.id) := usable_executorName natural
  have typed := fits_executorKind execs kind
  rw [prepareStatement_eq compilable apart inside]
  refine ⟨⟨⟨parameter, method, trivial⟩, trivial⟩, ⟨executor, typed, parameter, typed⟩, ?_⟩
  rw [Stmt.allFit_iff, List.forall_mem_flatMap]
  intro entry listed statement written
  have mine := Generator.nodeId_of_mem listed
  unfold StateVariable.bindStatements at written
  split at written
  · rename_i method bound
    obtain ⟨instruction, has⟩ := Generator.methodOf?_of_mem listed known bound
    rw [List.mem_singleton.1 written]
    refine ⟨(underscored_fieldOf ?_ _).usable, ?_, usable_method has, trivial⟩
    · exact mine ▸ natural
    · exact mine ▸ executor
  · cases written

/-- The names in the setup code can be used. -/
theorem openStatements_fits (compilable : plan.isCompilable = true)
    (positive : ∀ id ∈ plan.runIds, 0 ≤ id) (execs : "sql.exec" ∈ imports) {entry : StateVariable}
    (member : entry ∈ (registryOf plan).declared) :
    ∀ statement ∈ entry.openStatements, statement.Fits (Usable imports) := by
  obtain ⟨generator, inside, listed⟩ := List.mem_flatMap.1 member
  have natural : 0 ≤ entry.nodeId := by
    rw [Generator.nodeId_of_mem listed]
    exact positive _ (id_mem_runIds compilable inside)
  have field : ∀ kind : VariableKind, Usable imports (kind.fieldOf entry.nodeId) := fun kind =>
    (underscored_fieldOf natural kind).usable
  have maker : Usable imports "MapScanUtils" := .of_module (by decide) (by decide) execs
  unfold StateVariable.openStatements
  split
  · refine List.forall_mem_singleton.2 ⟨field _, maker, .of_free (by decide) (by decide), ?_⟩
    exact ⟨⟨trivial, field _⟩, ⟨trivial, field _⟩, trivial⟩
  · exact fun _ never => nomatch never

end Declarations

/-! ## Acceptance -/

section Accepting

variable {plan : Plan} {unit : UnitScope} {scope : RoutineScope} {generator : Generator}

/-- A field takes what it is declared for. -/
theorem isAssignableTo_variable (kind : VariableKind) : kind.ty.isAssignableTo kind.ty = true := by
  cases kind <;> rfl

/-- The locals of the routine that binds the unit, some of them hidden. -/
def boundLocals (hidden : List Ty) : Locals :=
  ⟨[("exec", 0)], .executor :: hidden⟩

/-- The variables of a node are taken from its executor. -/
theorem admits_bindStatements {visible : Locals} {number : Nat} {kind : ExecutorKind}
    (fields : HasFields scope.unit plan) (member : generator ∈ plan.runGenerators)
    (known : generator.executorKind? = some kind)
    (found : visible.find? (executorName generator.id) = some (number, .specificExecutor kind))
    {entries : List StateVariable} (listed : ∀ entry ∈ entries, entry ∈ generator.stateVariables) :
    Admits scope visible (entries.flatMap StateVariable.bindStatements) visible := by
  induction entries with
  | nil => exact .nil
  | cons entry rest step =>
    rw [List.flatMap_cons]
    rw [List.forall_mem_cons] at listed
    refine Admits.append ?_ (step listed.2)
    unfold StateVariable.bindStatements
    split
    · rename_i method bound
      obtain ⟨instruction, has⟩ := Generator.methodOf?_of_mem listed.1 known bound
      obtain ⟨index, field⟩ := fields.of_mem member listed.1
      have executor : Types scope.unit visible (.name .first (executorName entry.nodeId))
          (.specificExecutor kind) := by
        rw [Generator.nodeId_of_mem listed.1]
        exact .name found
      have free : Script.staticOwner? visible
          (.name .first (executorName entry.nodeId)) = none := by
        rw [Generator.nodeId_of_mem listed.1]
        simp [Script.staticOwner?, found]
      exact .setField field (.method rfl free executor has .nil .nil) (isAssignableTo_variable _)
    · exact .nil

/-- The block of a node is accepted. -/
theorem admits_prepareStatement (compilable : plan.isCompilable = true) (apart : plan.runIds.Nodup)
    (fields : HasFields scope.unit plan) (execs : "sql.exec" ∈ scope.unit.imports)
    {node : NodeId × String} (member : node ∈ (registryOf plan).nodes) (hidden : List Ty) :
    ∃ more, Admits scope (boundLocals hidden) [prepareStatement (registryOf plan) node]
      (boundLocals more) := by
  obtain ⟨generator, inside, kind, known, rfl⟩ := exists_generator member
  rw [prepareStatement_eq compilable apart inside]
  have executor : Types scope.unit (boundLocals hidden) (.name .first "exec") .executor := .name rfl
  have test : Types scope.unit (boundLocals hidden) (nodeTest generator.id) .boolean :=
    .binary (.method rfl rfl executor rfl .nil .nil) (.literal rfl) rfl
  have resolved : scope.unit.resolve ⟨kind.name, none, .first⟩ = .ok (.specificExecutor kind) := by
    cases kind <;> exact resolve_plain rfl (imports_of_module (by decide) execs)
  have free : (boundLocals hidden).find? (executorName generator.id) = none := by
    have differs : "exec" ≠ executorName generator.id := by
      intro same
      rw [executorName, ← String.toList_inj] at same
      simp at same
    simp [boundLocals, Locals.find?, differs]
  have same : Ty.isAssignableTo (.specificExecutor kind) (.specificExecutor kind) = true := by
    cases kind <;> rfl
  have block := admits_bindStatements fields inside known
    (Script.Locals.find?_with_self (boundLocals hidden) (executorName generator.id)
      (.specificExecutor kind)) (fun _ listed => listed)
  exact ⟨_, .branch test (.declare resolved (.cast resolved executor rfl) same free block)⟩

/-- The blocks of several nodes are accepted one after another. -/
theorem admits_prepareStatements (compilable : plan.isCompilable = true) (apart : plan.runIds.Nodup)
    (fields : HasFields scope.unit plan) (execs : "sql.exec" ∈ scope.unit.imports)
    {nodes : List (NodeId × String)} (listed : ∀ node ∈ nodes, node ∈ (registryOf plan).nodes)
    (hidden : List Ty) : ∃ more, Admits scope (boundLocals hidden)
      (nodes.map (prepareStatement (registryOf plan))) (boundLocals more) := by
  induction nodes generalizing hidden with
  | nil => exact ⟨hidden, .nil⟩
  | cons node rest step =>
    rw [List.forall_mem_cons] at listed
    obtain ⟨middle, first⟩ :=
      admits_prepareStatement compilable apart fields execs listed.1 hidden
    obtain ⟨more, others⟩ := step listed.2 middle
    exact ⟨more, first.append others⟩

/-- The only parameter of a routine. -/
theorem lowerParams_single {name moduleName : String} {type : Ty}
    (known : Ty.resolve? type.text none = some type)
    (provided : Symbol.moduleOf? type.text = some moduleName)
    (imported : moduleName ∈ unit.imports) :
    Script.lowerParams unit ⟨[], []⟩ [⟨name, ⟨type.text, none, .first⟩, .first⟩] [(name, type)] =
      .ok ⟨[(name, 0)], [type]⟩ := by
  have resolved := resolve_plain known (imports_of_module provided imported)
  simp [Script.lowerParams, resolved, Locals.declare, Locals.find?]

/-- The routine that binds the unit is accepted. -/
theorem accepts_prepare (compilable : plan.isCompilable = true) (apart : plan.runIds.Nodup)
    (fields : HasFields unit plan) (execs : "sql.exec" ∈ unit.imports) :
    AcceptsRoutine unit (prepareDecl plan) ⟨"prepare", [("exec", .executor)], .void⟩ := by
  obtain ⟨more, body⟩ := @admits_prepareStatements plan ⟨unit, .void, none⟩ compilable apart fields
    execs _ (fun _ member => member) []
  exact .of_admits rfl (lowerParams_single rfl (by decide) execs) rfl body (.inl rfl)

/-- Only the cursor of a scan is opened. -/
theorem scan_of_opened {entry : StateVariable} (member : entry ∈ generator.stateVariables)
    (opened : entry.origin = .opened) :
    entry.kind = .scanCursor ∧ ∃ spec, generator = .scan entry.nodeId spec := by
  cases generator with
  | scan id spec =>
    rcases List.mem_append.1 member with listed | last
    · obtain ⟨pair, -, rfl⟩ := List.mem_map.1 listed
      cases opened
    · rw [List.mem_singleton.1 last]
      exact ⟨rfl, spec, rfl⟩
  | filter id condition | project id expressions =>
    rw [List.mem_singleton.1 member] at opened
    cases opened
  | output id | interpreted id => cases member

/-- The variable of a scan is bound from its method. -/
theorem mem_scanBindings {id : NodeId} {spec : ScanSpec} {kind : VariableKind}
    {method : Script.Method} (listed : (kind, method) ∈ scanBindings) :
    ⟨id, kind, .bound method.name⟩ ∈ (Generator.scan id spec).stateVariables :=
  List.mem_append_left _ (List.mem_map.2 ⟨(kind, method), listed, rfl⟩)

/-- A cursor is opened over the map and the partitions of its node. -/
theorem admits_openStatements {visible : Locals} (free : visible.find? "MapScanUtils" = none)
    (fields : HasFields scope.unit plan) (execs : "sql.exec" ∈ scope.unit.imports)
    {entry : StateVariable} (member : entry ∈ (registryOf plan).declared) :
    Admits scope visible entry.openStatements visible := by
  obtain ⟨generator, inside, listed⟩ := List.mem_flatMap.1 member
  unfold StateVariable.openStatements
  split
  · rename_i opened
    obtain ⟨kind, spec, rfl⟩ := scan_of_opened listed opened
    obtain ⟨index, cursor⟩ := fields entry member
    obtain ⟨mapIndex, map⟩ := @HasFields.of_mem _ entry.nodeId _ fields _ inside .scanMap _
      (@mem_scanBindings _ spec _ .scanMap (by decide))
    obtain ⟨partsIndex, parts⟩ := @HasFields.of_mem _ entry.nodeId _ fields _ inside
      .scanPartitions _ (@mem_scanBindings _ spec _ .scanPartitions (by decide))
    have created : Types scope.unit visible (.call .first (.name .first "MapScanUtils")
        "createIterator" [fieldOfThis (VariableKind.scanMap.fieldOf entry.nodeId),
          fieldOfThis (VariableKind.scanPartitions.fieldOf entry.nodeId)]) .cursor :=
      .cursor free (imports_of_module (by decide) execs) (.field map) (.field parts)
    rw [kind] at cursor
    exact .setField cursor created rfl
  · exact .nil

/-- The setup routine is accepted. -/
theorem accepts_setup (fields : HasFields unit plan) (execs : "sql.exec" ∈ unit.imports) :
    AcceptsRoutine unit (setupDecl plan) ⟨"setup", [("ctx", .context)], .void⟩ := by
  have free : (⟨[("ctx", 0)], [.context]⟩ : Locals).find? "MapScanUtils" = none := by decide
  have each : ∀ entries : List StateVariable,
    (∀ entry ∈ entries, entry ∈ (registryOf plan).declared) →
      Admits ⟨unit, .void, none⟩ ⟨[("ctx", 0)], [.context]⟩
        (entries.flatMap StateVariable.openStatements) ⟨[("ctx", 0)], [.context]⟩ := by
    intro entries listed
    induction entries with
    | nil => exact .nil
    | cons entry rest step =>
      rw [List.forall_mem_cons] at listed
      exact (@admits_openStatements plan ⟨unit, .void, none⟩ _ free fields execs _ listed.1).append
        (step listed.2)
  exact .of_admits rfl (lowerParams_single rfl (by decide) execs) rfl
    (each _ fun _ member => member) (.inl rfl)

end Accepting

end QueryFusion.Generate
