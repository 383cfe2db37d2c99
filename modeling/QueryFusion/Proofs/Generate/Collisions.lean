import QueryFusion.Proofs.Generate.FieldNames

/-!
# Fragments whose names do not collide

The state of different nodes has different names, and so have their locals. What is left are the
fields of the scan of a fragment: its source is written exactly when their names do not clash.
-/

namespace QueryFusion.Generate

open Emit

/-! ## State variables -/

/-- The names of the kinds of variables differ. -/
theorem suffix_inj {first second : VariableKind} (same : first.suffix = second.suffix) :
    first = second := by
  have apart : (VariableKind.all.map VariableKind.suffix).Nodup := by decide
  have listed : ∀ kind : VariableKind, kind ∈ VariableKind.all := by
    intro kind
    cases kind <;> decide
  exact List.inj_on_of_nodup_map apart (listed first) (listed second) same

/-- A variable is known by its name. -/
theorem StateVariable.name_inj {first second : StateVariable} (same : first.name = second.name) :
    first.nodeId = second.nodeId ∧ first.kind = second.kind := by
  have stems : ∀ entry : StateVariable, Under (nodeStem entry.nodeId) entry.name :=
    fun entry => .inr ⟨entry.kind.suffix, rfl⟩
  have owner := (stems first).node_unique (same ▸ stems second)
  refine ⟨owner, suffix_inj ?_⟩
  have texts : nodeStem first.nodeId ++ "_" ++ first.kind.suffix =
      nodeStem second.nodeId ++ "_" ++ second.kind.suffix := same
  rw [owner] at texts
  exact (String.append_right_inj _).1 texts

/-- What follows a declaration that succeeds. -/
theorem Registry.runOn_bind_ok {α β : Type} {action : Registering α} {result : α}
    {registry changed : Registry} (done : Registry.runOn action registry = (.ok result, changed))
    (next : α → Registering β) :
    Registry.runOn (action >>= next) registry = Registry.runOn (next result) changed := by
  have done : StateT.run (ExceptT.run action) registry = (.ok result, changed) := done
  simp only [Registry.runOn, ExceptT.run_bind, StateT.run_bind, done]
  rfl

/-- A node is registered when its id is new. -/
theorem Registry.runOn_addNode {registry : Registry} {id : NodeId}
    (new : ∀ node ∈ registry.nodes, node.1 ≠ id) (executorType : String) :
    Registry.runOn (Registry.addNode id executorType) registry =
      (.ok (), { registry with nodes := registry.nodes ++ [(id, executorType)] }) := by
  have free : (registry.nodes.any fun node => node.1 == id) = false := by
    rw [List.any_eq_false]
    intro node member
    simpa using new node member
  have unfolded : Registry.runOn (Registry.addNode id executorType) registry =
      Registry.runOn (if registry.nodes.any fun node => node.1 == id then
        throw (.internal ("node " ++ id.text ++ " registered twice"))
      else set { registry with nodes := registry.nodes ++ [(id, executorType)] } :
        Registering Unit) registry := rfl
  rw [unfolded, free]
  rfl

/-- Variables are declared when their names differ from all others. -/
theorem Registry.runOn_declareAll {registry : Registry} {entries : List StateVariable}
    (apart : ((registry.declared ++ entries).map StateVariable.name).Nodup) :
    Registry.runOn (Registry.declareAll entries) registry =
      (.ok (), { registry with declared := registry.declared ++ entries }) := by
  induction entries generalizing registry with
  | nil =>
    rw [List.append_nil]
    rfl
  | cons entry rest step =>
    have free : (registry.declared.any fun other => other.name == entry.name) = false := by
      rw [List.any_eq_false]
      intro other member
      rw [List.map_append, List.nodup_append] at apart
      have differs := apart.2.2 other.name (List.mem_map_of_mem member) entry.name
        (List.mem_map_of_mem List.mem_cons_self)
      simpa using differs
    have declared : Registry.runOn (Registry.declare entry) registry =
        (.ok entry.name, { registry with declared := registry.declared ++ [entry] }) := by
      have unfolded : Registry.runOn (Registry.declare entry) registry =
          Registry.runOn (if registry.declared.any fun other => other.name == entry.name then
            throw (.internal ("state variable " ++ entry.name ++ " declared twice"))
          else do
            set { registry with declared := registry.declared ++ [entry] }
            pure entry.name : Registering String) registry := rfl
      rw [unfolded, free]
      rfl
    rw [Registry.declareAll, Registry.runOn_bind_ok declared]
    rw [step (by rwa [List.append_assoc])]
    simp

namespace Generator

/-- The nodes that a generator registers. -/
def nodes : Generator → List (NodeId × String)
  | scan id _ => [(id, Script.ExecutorKind.scan.name)]
  | filter id _ => [(id, Script.ExecutorKind.filter.name)]
  | project id _ => [(id, Script.ExecutorKind.project.name)]
  | output _ | interpreted _ => []

/-- The variables that a generator declares. -/
def stateVariables : Generator → List StateVariable
  | scan id _ => scanBindings.map (fun entry => ⟨id, entry.1, .bound entry.2.name⟩) ++
      [⟨id, .scanCursor, .opened⟩]
  | filter id _ => [⟨id, .filterCondition, .bound Script.Method.filterCondition.name⟩]
  | project id _ => [⟨id, .projectExpressions, .bound Script.Method.projectExpressions.name⟩]
  | output _ | interpreted _ => []

/-- The variables of a generator are those of its node, each of another kind. -/
theorem stateVariables_spec (generator : Generator) :
    (∀ entry ∈ generator.stateVariables, ∃ executorType,
      (entry.nodeId, executorType) ∈ generator.nodes) ∧
      (generator.stateVariables.map StateVariable.kind).Nodup := by
  cases generator with
  | scan id spec =>
    have kinds : (scan id spec).stateVariables.map StateVariable.kind =
        scanBindings.map Prod.fst ++ [VariableKind.scanCursor] := rfl
    rw [kinds]
    refine ⟨?_, by decide⟩
    intro entry member
    refine ⟨_, List.mem_singleton.2 (Prod.ext ?_ rfl)⟩
    rcases List.mem_append.1 member with bound | opened
    · obtain ⟨pair, -, rfl⟩ := List.mem_map.1 bound
      rfl
    · rw [List.mem_singleton.1 opened]
  | filter id condition | project id expressions =>
    refine ⟨?_, List.nodup_singleton _⟩
    intro entry member
    exact ⟨_, List.mem_singleton.2 (by rw [List.mem_singleton.1 member])⟩
  | output id | interpreted id =>
    exact ⟨fun entry member => (nomatch member), List.nodup_nil⟩

/-- Different variables of a generator have different names. -/
theorem stateVariables_nodup (generator : Generator) :
    (generator.stateVariables.map StateVariable.name).Nodup := by
  have kinds := generator.stateVariables_spec.2
  rw [List.Nodup, List.pairwise_map] at kinds ⊢
  exact kinds.imp fun differs same => differs (StateVariable.name_inj same).2

/-- A generator declares its node and its variables when both are new. -/
theorem runOn_declare {generator : Generator} (hasCode : generator.isCompilable = true)
    {registry : Registry}
    (nodes : ((registry.nodes ++ generator.nodes).map Prod.fst).Nodup)
    (names : ((registry.declared ++ generator.stateVariables).map StateVariable.name).Nodup) :
    Registry.runOn generator.declare registry = (.ok (),
      ⟨registry.nodes ++ generator.nodes, registry.declared ++ generator.stateVariables⟩) := by
  have register : ∀ id executorType, generator.nodes = [(id, executorType)] →
      Registry.runOn (do
        Registry.addNode id executorType
        Registry.declareAll generator.stateVariables) registry = (.ok (),
          ⟨registry.nodes ++ generator.nodes, registry.declared ++ generator.stateVariables⟩) := by
    intro id executorType same
    rw [same] at nodes ⊢
    have new : ∀ node ∈ registry.nodes, node.1 ≠ id := by
      intro node member
      rw [List.map_append, List.nodup_append] at nodes
      exact nodes.2.2 node.1 (List.mem_map_of_mem member) id (by simp)
    rw [Registry.runOn_bind_ok (Registry.runOn_addNode new executorType)]
    exact Registry.runOn_declareAll names
  cases generator with
  | scan id spec => exact register id _ rfl
  | filter id condition => exact register id _ rfl
  | project id expressions => exact register id _ rfl
  | output id =>
    simp only [Generator.nodes, Generator.stateVariables, List.append_nil]
    rfl
  | interpreted id => cases hasCode

end Generator

/-- Generators of different nodes declare their state. -/
theorem runOn_declareAll {generators : List Generator} {registry : Registry}
    (haveCode : ∀ generator ∈ generators, generator.isCompilable = true)
    (nodes : ((registry.nodes ++ generators.flatMap Generator.nodes).map Prod.fst).Nodup)
    (names : ((registry.declared ++ generators.flatMap Generator.stateVariables).map
      StateVariable.name).Nodup) :
    Registry.runOn (declareAll generators) registry = (.ok (),
      ⟨registry.nodes ++ generators.flatMap Generator.nodes,
        registry.declared ++ generators.flatMap Generator.stateVariables⟩) := by
  induction generators generalizing registry with
  | nil =>
    rw [List.flatMap_nil, List.flatMap_nil, List.append_nil, List.append_nil]
    rfl
  | cons generator rest step =>
    rw [List.flatMap_cons, ← List.append_assoc] at nodes names
    have firstNodes : ((registry.nodes ++ generator.nodes).map Prod.fst).Nodup := by
      rw [List.map_append] at nodes
      exact (List.nodup_append.1 nodes).1
    have firstNames : ((registry.declared ++ generator.stateVariables).map
        StateVariable.name).Nodup := by
      rw [List.map_append] at names
      exact (List.nodup_append.1 names).1
    rw [declareAll, Registry.runOn_bind_ok
      (Generator.runOn_declare (haveCode generator List.mem_cons_self) firstNodes firstNames)]
    rw [step (fun other member => haveCode other (List.mem_cons_of_mem _ member)) nodes names]
    simp

/-- The variables of generators of different nodes have different names. -/
theorem stateVariables_apart {generators : List Generator}
    (nodes : ((generators.flatMap Generator.nodes).map Prod.fst).Nodup) :
    ((generators.flatMap Generator.stateVariables).map StateVariable.name).Nodup := by
  induction generators with
  | nil => exact List.nodup_nil
  | cons generator rest step =>
    rw [List.flatMap_cons, List.map_append, List.nodup_append] at nodes ⊢
    refine ⟨generator.stateVariables_nodup, step nodes.2.1, ?_⟩
    rintro _ mine _ theirs rfl
    obtain ⟨entry, member, same⟩ := List.mem_map.1 mine
    obtain ⟨other, behind, also⟩ := List.mem_map.1 theirs
    obtain ⟨owner, listed, inside⟩ := List.mem_flatMap.1 behind
    obtain ⟨executorType, node⟩ := generator.stateVariables_spec.1 entry member
    obtain ⟨otherType, otherNode⟩ := owner.stateVariables_spec.1 other inside
    refine nodes.2.2 entry.nodeId (List.mem_map.2 ⟨_, node, rfl⟩) other.nodeId ?_
      (StateVariable.name_inj (same.trans also.symm)).1
    exact List.mem_map.2 ⟨_, List.mem_flatMap.2 ⟨owner, listed, otherNode⟩, rfl⟩

/-- Fields of different names are added. -/
theorem addFields_ok {entries : List StateVariable} {unit : UnitDraft}
    (apart : (unit.fields.map Prod.fst ++ entries.map StateVariable.name).Nodup) :
    ∃ next, addFields unit entries = .ok next := by
  induction entries generalizing unit with
  | nil => exact ⟨unit, rfl⟩
  | cons entry rest step =>
    have free : (unit.fields.any fun field => field.1 == entry.name) = false := by
      rw [List.any_eq_false]
      intro field member
      have differs := (List.nodup_append.1 apart).2.2 field.1 (List.mem_map_of_mem member)
        entry.name List.mem_cons_self
      simpa using differs
    rw [addFields, UnitDraft.addField, free]
    refine step ?_
    simpa using apart

end QueryFusion.Generate

/-! ## Runs -/

namespace QueryFusion.Plan

open Generate Emit

/-- The fields of the scan at the leaf of a run. -/
def scanFields : Plan → List (FieldPath × DataType)
  | scan _ spec => spec.paths.zip spec.types
  | filter _ _ input | project _ _ input => input.scanFields
  | root .. | sort .. | join .. => []

/-- The names of fields of the scan clash: the name of a field is taken when it is read, and so is
its name with its index. -/
def FieldsClash (plan : Plan) : Prop :=
  ∃ index, ClashAt plan.scanFields index

/-- Names clash only when a field is called like a later one with its index. -/
theorem FieldsClash.called {plan : Plan} (clash : plan.FieldsClash) :
    ∃ (earlier later : Nat) (path other : FieldPath) (type otherType : DataType) (field : String),
      earlier < later ∧
      plan.scanFields[later]? = some (path, type) ∧ path.below = some field ∧
      plan.scanFields[earlier]? = some (other, otherType) ∧ other.ofKey = path.ofKey ∧
      other.below = some (field ++ "_" ++ toString later) := by
  obtain ⟨index, path, type, field, read, below, -, numbered⟩ := clash
  generalize side : path.ofKey = ofKey at numbered
  generalize called : field ++ "_" ++ toString index = name at numbered
  cases numbered with
  | @named _ earlier other otherType _ before found named =>
    exact ⟨earlier, index, path, other, type, otherType, field, before, read.1, below, found,
      side.symm, by rw [named, called]⟩
  | @numbered _ earlier other otherType otherField before found named taken =>
    -- the index behind the last underscore would be that of two fields
    have equal := toString_inj (last_part_unique called (plain_toString _) (plain_toString _))
    omega

/-- The generators of a run, from the leaf up. -/
def runGenerators (plan : Plan) : List Generator :=
  plan.runTree.postOrder.map GeneratorTree.generator

variable {id : NodeId} {input : Plan}

/-- A scan is a run of its own. -/
theorem runGenerators_scan {spec : ScanSpec} (compilable : (scan id spec).isCompilable = true) :
    (scan id spec).runGenerators = [.scan id spec] := by
  have accepted : (checkScan spec).isOk = true := compilable
  simp [runGenerators, runTree, accepted, GeneratorTree.postOrder, GeneratorTree.postOrderAll,
    GeneratorTree.generator]

/-- A filter stands behind its input. -/
theorem runGenerators_filter {condition : Expr} (below : input.isCompilable = true) :
    (filter id condition input).runGenerators = input.runGenerators ++
    [Generator.filter id condition] := by
  simp [runGenerators, runTree, below, GeneratorTree.postOrder, GeneratorTree.postOrderAll,
    GeneratorTree.generator]

/-- A projection stands behind its input. -/
theorem runGenerators_project {expressions : List Expr} (below : input.isCompilable = true) :
    (project id expressions input).runGenerators =
      input.runGenerators ++ [Generator.project id expressions] := by
  simp [runGenerators, runTree, below, GeneratorTree.postOrder, GeneratorTree.postOrderAll,
    GeneratorTree.generator]

/-- The code of a run is written unless the names of fields clash. What follows is written when no
name that it takes is in use. -/
theorem emitRowStarts_run {plan : Plan} (compilable : plan.isCompilable = true)
    (apart : plan.runIds.Nodup) {draft : RoutineDraft} (empty : draft.locals = [])
    {rest : List Generator} {good : Unit → RoutineDraft → Prop}
    (after : ∀ row next, Owned plan.runIds plan.id next → ¬ plan.FieldsClash →
      Drafts (emitRowStarts rest (some row)) next good fun _ _ => plan.FieldsClash) :
    Drafts (emitRowStarts (plan.runGenerators ++ rest) none) draft good
      fun _ _ => plan.FieldsClash := by
  induction plan generalizing rest with
  | scan id spec =>
    have accepted : checkScan spec = .ok () := by
      have checked : (checkScan spec).isOk = true := compilable
      cases found : checkScan spec with
      | ok nothing => rfl
      | error error =>
        rw [found] at checked
        cases checked
    rw [runGenerators_scan compilable, List.singleton_append, emitRowStarts]
    refine (line_succeeds _).bind fun _ written same => ?_
    refine Drafts.bind ((emitScan_drafts accepted (same.trans empty)).bind ?_)
      fun row next (done : ∃ selected, row = some selected ∧ Owned [id] id next ∧
        ¬ (scan id spec).FieldsClash) => ?_
    · intro row next done
      exact .pure ⟨row, rfl, done⟩
    · obtain ⟨selected, rfl, owned, calm⟩ := done
      exact after selected next owned calm
  | filter id condition input step =>
    have below : input.isCompilable = true := compilable
    obtain ⟨ids, new⟩ := runIds_goesOn apart
    rw [runGenerators_filter below, List.append_assoc]
    refine step below ids fun row next owned calm => ?_
    rw [List.singleton_append, emitRowStarts]
    refine (line_succeeds _).bind fun _ written same => ?_
    have owned : Owned input.runIds input.id written := by
      unfold Owned
      rw [same]
      exact owned
    refine Drafts.bind ((emitCondition_succeeds condition row _ (owned.lacks new)).bind
      fun passed tested adds => (emitSkipUnless_succeeds passed).bind
        fun _ last kept => .pure ?_) fun row last (done : ∃ selected, row = some selected ∧
          Owned (input.runIds ++ [id]) id last) => ?_
    · refine ⟨row, rfl, owned.behind plain_roles.2.2.2.1 (by decide) ?_ new⟩
      obtain ⟨more, grown, named⟩ := adds
      exact ⟨more, kept.trans grown, named⟩
    · obtain ⟨selected, rfl, owned⟩ := done
      exact after selected last owned calm
  | project id expressions input step =>
    have below : input.isCompilable = true := compilable
    obtain ⟨ids, new⟩ := runIds_goesOn apart
    rw [runGenerators_project below, List.append_assoc]
    refine step below ids fun row next owned calm => ?_
    rw [List.singleton_append, emitRowStarts]
    refine (line_succeeds _).bind fun _ written same => ?_
    have owned : Owned input.runIds input.id written := by
      unfold Owned
      rw [same]
      exact owned
    refine Drafts.bind ((emitProjects_succeeds row expressions fun number _ =>
      owned.lacks new).bind fun projected last adds => .pure ?_)
        fun row last (done : ∃ selected, row = some selected ∧
          Owned (input.runIds ++ [id]) id last) => ?_
    · exact ⟨projected, rfl, owned.behind plain_roles.2.2.2.2.1 (by decide) adds new⟩
    · obtain ⟨selected, rfl, owned⟩ := done
      exact after selected last owned calm
  | root id input step | sort id columns ascending input step => cases compilable
  | join id condition left right leftStep rightStep => cases compilable

end QueryFusion.Plan

/-! ## Fragments -/

namespace QueryFusion.Generate

open Emit

variable {plan : Plan}

/-- The generators of a fragment: those of its run, and the one that hands rows on. -/
theorem generators_ofPlan (plan : Plan) :
    (Fragment.ofPlan plan).generators.map GeneratorTree.generator =
      plan.runGenerators ++ [Generator.output plan.id] := by
  simp [Fragment.ofPlan, Fragment.ofRun, Fragment.generators, Plan.runGenerators,
    GeneratorTree.postOrder, GeneratorTree.postOrderAll, GeneratorTree.generator]

/-- Fragments do not branch. -/
theorem children_ofPlan (compilable : plan.isCompilable = true) :
    ∀ tree ∈ (Fragment.ofPlan plan).tree.postOrder, tree.children.length ≤ 1 := by
  have run : ∀ tree ∈ plan.runTree.postOrder, tree.children.length ≤ 1 := by
    induction plan with
    | scan id spec =>
      have accepted : (checkScan spec).isOk = true := compilable
      simp [Plan.runTree, accepted, GeneratorTree.postOrder, GeneratorTree.postOrderAll,
        GeneratorTree.children]
    | filter id condition input step | project id expressions input step =>
      have below : input.isCompilable = true := compilable
      intro tree member
      simp only [Plan.runTree, below, if_true, GeneratorTree.postOrder, GeneratorTree.postOrderAll,
        List.append_nil, List.mem_append, List.mem_singleton] at member
      rcases member with inner | rfl
      · exact step below tree inner
      · exact Nat.le_refl 1
    | root id input step | sort id columns ascending input step => cases compilable
    | join id condition left right leftStep rightStep => cases compilable
  intro tree member
  simp only [Fragment.ofPlan, Fragment.ofRun, GeneratorTree.postOrder, GeneratorTree.postOrderAll,
    List.append_nil, List.mem_append, List.mem_singleton] at member
  rcases member with inner | rfl
  · exact run tree inner
  · exact Nat.le_refl 1

/-- No part of a fragment stops the writing of its loop. -/
theorem straight_ofPlan (compilable : plan.isCompilable = true) :
    (Fragment.ofPlan plan).tree.postOrder.find?
      (fun subtree => decide (subtree.children.length > 1)) = none := by
  rw [List.find?_eq_none]
  intro tree member
  have single := children_ofPlan compilable tree member
  simpa using single

/-- The ends of nodes are written. -/
theorem emitRowEnds_succeeds (generators : List Generator) (draft : RoutineDraft) :
    Succeeds (emitRowEnds generators) draft fun _ _ => True := by
  induction generators generalizing draft with
  | nil => exact .pure trivial
  | cons generator rest step =>
    rw [emitRowEnds]
    have closed : Succeeds generator.rowEnd draft fun _ _ => True := by
      cases generator <;> exact .of_ok rfl trivial
    refine closed.bind fun _ next _ => ?_
    exact (line_succeeds _).bind fun _ last _ => step last

/-- The routine that produces a batch is written exactly when no names of fields clash. -/
theorem advanceOf_ok_iff (compilable : plan.isCompilable = true) (apart : plan.runIds.Nodup) :
    (∃ routine, advanceOf (Fragment.ofPlan plan).tree = .ok routine) ↔ ¬ plan.FieldsClash := by
  have straight := straight_ofPlan compilable
  have generators := generators_ofPlan plan
  unfold Fragment.generators at generators
  have written : Drafts (emitAdvance (Fragment.ofPlan plan).tree)
      (.start (.method "advance" (some Script.Ty.progress.text)) [])
      (fun _ _ => ¬ plan.FieldsClash) fun _ _ => plan.FieldsClash := by
    unfold emitAdvance
    refine (line_succeeds _).bind fun _ started same => ?_
    refine Drafts.bind ?_ fun _ next (calm : ¬ plan.FieldsClash) =>
      (staticMember_succeeds ..).bind fun _ _ _ => (line_succeeds _).imp (fun _ _ _ => calm)
        fun _ _ never => never.elim
    unfold emitLoop
    simp only [straight, generators]
    refine Drafts.bind ?_ fun _ next (calm : ¬ plan.FieldsClash) =>
      (emitRowEnds_succeeds _ next).imp (fun _ _ _ => calm) fun _ _ never => never.elim
    refine Plan.emitRowStarts_run compilable apart (same.trans rfl) fun row next owned calm => ?_
    rw [emitRowStarts]
    refine (line_succeeds _).bind fun _ announced kept => ?_
    have free : Lacks announced (Under (stemOf plan.id "output")) := by
      intro entry member
      rw [kept] at member
      exact (owned entry member).2
    refine Drafts.bind ((emitOutput_succeeds row free).bind fun _ last _ => .pure ?_)
      fun row last (done : row = none) => ?_
    · rfl
    · rw [done]
      exact .pure calm
  unfold advanceOf
  rcases written.cases with ⟨result, next, done, calm⟩ | ⟨error, next, failed, clash⟩
  · rw [done]
    exact ⟨fun _ => calm, fun _ => ⟨next, rfl⟩⟩
  · rw [failed]
    exact ⟨fun ⟨routine, never⟩ => (by cases never), fun calm => absurd clash calm⟩

/-- The generators of a run have code, and each registers its own node. -/
theorem runGenerators_spec (compilable : plan.isCompilable = true) :
    (∀ generator ∈ plan.runGenerators, generator.isCompilable = true) ∧
      (plan.runGenerators.flatMap Generator.nodes).map Prod.fst = plan.runIds := by
  induction plan with
  | scan id spec =>
    rw [Plan.runGenerators_scan compilable]
    exact ⟨fun generator member => by rw [List.mem_singleton.1 member]; rfl, rfl⟩
  | filter id condition input step =>
    have below : input.isCompilable = true := compilable
    rw [Plan.runGenerators_filter below, List.flatMap_append, List.map_append, (step below).2]
    refine ⟨fun generator member => ?_, rfl⟩
    rcases List.mem_append.1 member with inner | last
    · exact (step below).1 generator inner
    · rw [List.mem_singleton.1 last]
      rfl
  | project id expressions input step =>
    have below : input.isCompilable = true := compilable
    rw [Plan.runGenerators_project below, List.flatMap_append, List.map_append, (step below).2]
    refine ⟨fun generator member => ?_, rfl⟩
    rcases List.mem_append.1 member with inner | last
    · exact (step below).1 generator inner
    · rw [List.mem_singleton.1 last]
      rfl
  | root id input step | sort id columns ascending input step => cases compilable
  | join id condition left right leftStep rightStep => cases compilable

/-- The state that the generators of a run declare. -/
def registryOf (plan : Plan) : Registry :=
  ⟨plan.runGenerators.flatMap Generator.nodes, plan.runGenerators.flatMap Generator.stateVariables⟩

/-- The nodes of a run are registered once. -/
theorem registryOf_apart (compilable : plan.isCompilable = true) (apart : plan.runIds.Nodup) :
    ((registryOf plan).nodes.map Prod.fst).Nodup := by
  have ids : (registryOf plan).nodes.map Prod.fst = plan.runIds := (runGenerators_spec compilable).2
  rw [ids]
  exact apart

/-- The state of a run is declared. -/
theorem declareAll_ofPlan (compilable : plan.isCompilable = true) (apart : plan.runIds.Nodup) :
    Registry.runOn
        (declareAll ((Fragment.ofPlan plan).generators.map GeneratorTree.generator)) .empty =
      (.ok (), registryOf plan) := by
  have haveCode := (runGenerators_spec compilable).1
  have last : registryOf plan = ⟨(plan.runGenerators ++ [Generator.output plan.id]).flatMap
      Generator.nodes, (plan.runGenerators ++ [Generator.output plan.id]).flatMap
      Generator.stateVariables⟩ := by
    simp [registryOf, Generator.nodes, Generator.stateVariables]
  have nodes := registryOf_apart compilable apart
  rw [generators_ofPlan, last]
  rw [last] at nodes
  refine runOn_declareAll ?_ nodes (stateVariables_apart nodes)
  intro generator member
  rcases List.mem_append.1 member with inner | output
  · exact haveCode generator inner
  · rw [List.mem_singleton.1 output]
    rfl

/-- The source of a run is written exactly when no names of fields clash. -/
theorem generate_ofPlan_ok_iff (compilable : plan.isCompilable = true)
    (apart : plan.runIds.Nodup) :
    (∃ unit, (Fragment.ofPlan plan).generate = .ok unit) ↔ ¬ plan.FieldsClash := by
  have nodes := registryOf_apart compilable apart
  obtain ⟨unit, fields⟩ :
    ∃ unit, addFields (.start Symbol.unitModule placeholderName Symbol.baseUnit)
      (registryOf plan).declared = .ok unit :=
    addFields_ok (stateVariables_apart nodes)
  have drafted : draftOf (Fragment.ofPlan plan) = (do
      let advance ← advanceOf (Fragment.ofPlan plan).tree
      .ok ((((unit.addRoutine (constructorOf (Fragment.ofPlan plan))).addRoutine
        (prepareOf (registryOf plan))).addRoutine (setupOf (registryOf plan))).addRoutine
          advance)) := by
    unfold draftOf
    rw [declareAll_ofPlan compilable apart]
    simp only [ok_bind, fields]
  rw [← advanceOf_ok_iff compilable apart]
  unfold Fragment.generate
  rw [drafted]
  cases advanceOf (Fragment.ofPlan plan).tree with
  | error error =>
    exact ⟨fun ⟨unit, never⟩ => (by cases never), fun ⟨unit, never⟩ => (by cases never)⟩
  | ok routine => exact ⟨fun _ => ⟨routine, rfl⟩, fun _ => ⟨_, rfl⟩⟩

/-- The fragments of a plan are written exactly when no names of fields clash. -/
theorem generate_ok_iff {tree : PlanTree} (built : tree.Built) {fragments : List Fragment}
    (split : partition tree.root = .ok fragments) {fragment : Fragment}
    (member : fragment ∈ fragments) :
    (∃ unit, fragment.generate = .ok unit) ↔ ¬ fragment.plan.FieldsClash := by
  obtain ⟨same, run⟩ := isRun_of_partition built split member
  rw [same]
  exact generate_ofPlan_ok_iff run.compilable run.apart

/-- A scan that reads a field as two types, and one that is called like the second of them. -/
def doubleScan : ScanSpec :=
  ⟨"people", .scalar .int, .ofClass "Person",
    [⟨false, some "a"⟩, ⟨false, some "a_2"⟩, ⟨false, some "a"⟩], [.int, .int, .bigInt], [0, 1, 2],
    none⟩

/-- The source of the scan is not written, because the name with the index is taken as well. -/
theorem generate_ok_iff_doubleScan :
    ∃ tree fragments fragment,
      PlanTree.ofNodes [(1, .scan doubleScan, []), (2, .root, [1])] 2 = .ok tree ∧
      partition tree.root = .ok fragments ∧ fragment ∈ fragments ∧
      ¬ ∃ unit, fragment.generate = .ok unit := by
  have built : PlanTree.ofNodes [(1, .scan doubleScan, []), (2, .root, [1])] 2 =
      .ok ⟨[.scan 1 doubleScan, .root 2 (.scan 1 doubleScan)], .root 2 (.scan 1 doubleScan)⟩ := rfl
  have clash : (Plan.scan 1 doubleScan).FieldsClash := by
    refine ⟨2, ⟨false, some "a"⟩, .bigInt, "a", ⟨rfl, ?_⟩, rfl, ?_, ?_⟩
    · intro earlier less
      rcases earlier with _ | _ | earlier
      · decide
      · decide
      · omega
    · exact .named (by decide : 0 < 2) rfl rfl
    · have called : Taken (Plan.scan 1 doubleScan).scanFields 2 false "a_2" :=
        @Taken.named _ 2 1 ⟨false, some "a_2"⟩ .int "a_2" (by decide) rfl rfl
      exact called
  have member : Fragment.ofPlan (.scan 1 doubleScan) ∈
      ((Plan.root 2 (.scan 1 doubleScan)).runEnds).map Fragment.ofPlan := by
    refine List.mem_map_of_mem ?_
    have compilable : (checkScan doubleScan).isOk = true := by decide +kernel
    simp [Plan.runEnds, Plan.postOrder, Plan.endedRuns, Plan.inputs, compilable, Plan.isCompilable]
  refine ⟨_, _, _, built, partition_eq _, member, ?_⟩
  rw [generate_ok_iff (PlanTree.built_of_ofNodes built) (partition_eq _) member]
  exact fun calm => calm clash

end QueryFusion.Generate
