import Mathlib.Data.List.Perm.Basic
import QueryFusion.Proofs.Executor.Restart
import QueryFusion.Proofs.Script.BoundFields
import QueryFusion.Proofs.Script.Lifecycle

/-!
# Binding a unit in any order

The executors of a run are offered to its unit one by one. Each of them sets the fields of its own
node to what it exposes, and no others, so the order does not matter. When all have been offered
every field is set but that of the cursor, which each setup sets. No routine that runs later unsets
one: from then on nothing that is done with the unit fails for want of binding.
-/

namespace QueryFusion

open Emit (Local)
open Script (CompiledUnit UnitInstance Contents Memory Slot Call CallLog Reply FieldInfo AreBound
  Avoids)
open Generate (Generator Realizes Registry StateVariable VariableKind Fragment GeneratorTree
  registryOf cursorField partition)

/-! ## Fields of an instance -/

namespace Script

/-- What a field of an instance holds. -/
def UnitInstance.field? (subject : UnitInstance) (name : String) : Option Slot :=
  (fieldIndex? subject.unit name).bind fun index => subject.memory.fields[index]?

/-- A field of an instance whose fields hold these contents. -/
theorem UnitInstance.field?_of {unit : CompiledUnit} {content : Contents} {batch : RowBatch}
    {cursors : List Cursor} {bound : List NodeId} {armed : Bool} {name : String}
    (member : name ∈ unit.fields.map FieldInfo.name) :
    UnitInstance.field? ⟨unit, .of unit content batch cursors, bound, armed⟩ name =
      some (content name) := by
  obtain ⟨index, inside, found, same⟩ := fieldIndex?_of_mem member
  simp [UnitInstance.field?, found, Memory.of, List.getElem?_eq_getElem inside, same]

/-- The error of a field that is read before it was bound. -/
def CompiledUnit.unboundField (unit : CompiledUnit) (field : String) : Error :=
  .binding ("field '" ++ field ++ "' of " ++ unit.name ++ " read before it was bound")

/-- A call that is refused is not refused for a field. -/
theorem Call.refusal?_ne_unboundField {call : Call} {subject : UnitInstance} {error : Error}
    (refused : call.refusal? subject = some error) (field : String) :
    error ≠ subject.unit.unboundField field := by
  -- The texts differ in their first letter, or, behind the name of a unit, in their last one.
  have first : ∀ text : String, Error.binding
      ("node " ++ text) ≠ subject.unit.unboundField field := by
    intro text same
    have letters := congrArg (fun text : String => text.toList.head?) (Error.binding.inj same)
    simp [String.toList_append] at letters
  have last : Error.binding (subject.unit.name ++ " advanced before setup") ≠
      subject.unit.unboundField field := by
    intro same
    have letters := congrArg (fun text : String => text.toList.getLast?) (Error.binding.inj same)
    rw [String.toList_append, String.toList_append, List.getLast?_append, List.getLast?_append]
      at letters
    exact absurd letters (by simp)
  cases call with
  | prepare id state =>
    rw [refusal?] at refused
    split at refused
    · cases refused
      rw [String.append_assoc, String.append_assoc]
      exact first _
    · split at refused
      · cases refused
        rw [String.append_assoc, String.append_assoc]
        exact first _
      · cases refused
  | setup context =>
    rw [refusal?, Context.check] at refused
    cases missing : subject.unbound? with
    | some id =>
      rw [missing] at refused
      cases refused
      rw [String.append_assoc, String.append_assoc, String.append_assoc]
      exact first _
    | none =>
      rw [missing] at refused
      split at refused
      · rename_i none
        cases none
      · rename_i failed
        cases refused
        split at failed <;> cases failed
        exact fun same => by cases same
      · cases refused
  | advance =>
    rw [refusal?] at refused
    split at refused
    · cases refused
    · cases refused
      exact last

/-- Nothing that is done with the instance fails for want of binding: no call finds a field that was
never set, and a binding error is the answer to a call out of order. -/
def UnitInstance.Unhindered (bound : UnitInstance) : Prop :=
  ∀ calls log subject, Call.performAll calls [] bound = some (log, subject) →
    ∀ fuel call reply next, Call.perform fuel subject call = some (reply, next) →
      (∀ field, reply ≠ .error (bound.unit.unboundField field)) ∧
        ∀ detail, reply = .error (.binding detail) → call.refusal? subject = some (.binding detail)

end Script

/-! ## Instances that are bound -/

namespace Generate

/-- What fits the type of a variable is no executor. -/
theorem VariableKind.detached_of_fits {count : Nat} {slot : Slot} {kind : VariableKind}
    (fits : slot.Fits count kind.ty) : slot.IsDetached := by
  rintro id state rfl
  cases kind <;> cases state <;> cases fits.1

namespace Worn

variable {fresh worn next : UnitInstance} {fuel : Nat} {call : Call} {reply : Reply}

/-- An instance stays one of its unit. -/
theorem unit_eq (wears : Worn fresh worn) : worn.unit = fresh.unit := by
  cases wears
  rfl

/-- No node is left to be bound. -/
theorem refusal?_prepare (wears : Worn fresh worn) (id : NodeId) (state : ExecutorState) :
    (Call.prepare id state).refusal? worn ≠ none := by
  rw [ne_eq, Script.Call.refusal?_prepare_eq_none]
  cases wears with
  | of realizes supplied complete => exact fun free => free.2 (complete id free.1)

/-- The fields of an instance that has been set up are all set. -/
theorem areBound (wears : Worn fresh worn) (armed : worn.armed = true) :
    AreBound worn.memory.fields := by
  cases wears with
  | @of plan row steps unit content map partitions bound slot batch used cursors _ realizes supplied
      complete kept reached capacity ready =>
    obtain ⟨number, rfl⟩ := ready armed
    have fits := @Supplied.fits_assign plan content map partitions
      (.handle (.cursor number)) cursors supplied kept
    intro held member
    obtain ⟨field, listed, rfl⟩ := List.mem_map.1 member
    rw [realizes.parts.2.2] at listed
    obtain ⟨entry, declared, rfl⟩ := List.mem_map.1 listed
    have set : content.assign (cursorField plan) (.handle (.cursor number)) entry.name ≠
        .unset := by
      unfold Contents.assign
      split
      · exact nofun
      · rename_i other
        exact supplied.bound entry declared
          ((declared_cases realizes.run.compilable entry declared).resolve_right other)
    exact ⟨set, VariableKind.detached_of_fits ((fits entry declared).resolve_left set)⟩

/-- A call leaves an instance worn. -/
theorem perform (wears : Worn fresh worn)
    (done : Call.perform fuel worn call = some (reply, next)) :
    Worn fresh next := by
  cases call with
  | prepare id state =>
    obtain ⟨error, refused⟩ := Option.ne_none_iff_exists'.1 (wears.refusal?_prepare id state)
    rw [Script.Call.perform_refused refused] at done
    cases done
    exact wears
  | setup context =>
    obtain ⟨outcome, ended, same⟩ := Option.map_eq_some_iff.1 done
    cases same
    exact wears.setup ended
  | advance =>
    obtain ⟨outcome, ended, same⟩ := Option.map_eq_some_iff.1 done
    cases same
    exact wears.advance ended

/-- Calls leave an instance worn. -/
theorem performAll {calls : List (Nat × Call)} {log last : CallLog} (wears : Worn fresh worn)
    (done : Call.performAll calls log worn = some (last, next)) : Worn fresh next := by
  induction calls generalizing log worn with
  | nil =>
    cases done
    exact wears
  | cons first rest step =>
    obtain ⟨fuel, call⟩ := first
    rw [Script.Call.performAll] at done
    split at done
    · cases done
    · rename_i reply between ended
      exact step (wears.perform ended) done

/-- A call that is not refused does not fail for want of binding. -/
theorem avoids (wears : Worn fresh worn) (admitted : call.refusal? worn = none)
    (done : Call.perform fuel worn call = some (reply, next)) : Avoids (fun _ => True) reply := by
  rw [Script.Call.perform_eq, admitted] at done
  obtain ⟨⟨result, changed⟩, ran, ended⟩ := Option.map_eq_some_iff.1 done
  cases call with
  | prepare id state => exact absurd admitted (wears.refusal?_prepare id state)
  | setup context =>
    cases wears with
    | of realizes supplied complete kept reached capacity ready =>
      obtain ⟨enough, runs⟩ := realizes.run_setup supplied kept reached context
      have agreed := Script.run_agrees _ _ (Nat.le_max_left fuel enough) _ _ _ ran
      rw [Script.Call.routine, Script.Call.arguments, runs _ (Nat.le_max_right fuel enough)]
        at agreed
      cases agreed
      cases ended
      trivial
  | advance =>
    have bound := wears.areBound (Script.Call.refusal?_advance_eq_none.1 admitted)
    have avoids : Avoids (fun _ => True) result := by
      cases wears with
      | of realizes =>
        exact Script.run_avoids realizes.advance_isStill
          (fun constant member => (realizes.data constant member).detached)
            (List.forall_mem_nil _) bound
          ran
    cases result with
    | error error =>
      cases ended
      exact avoids
    | ok slot => cases slot <;> cases ended <;> trivial

/-- An instance that has been bound is unhindered. -/
theorem unhindered (wears : Worn fresh worn) : worn.Unhindered := by
  intro calls log subject performed fuel call reply next done
  have later := wears.performAll performed
  have units : subject.unit = worn.unit := later.unit_eq.trans wears.unit_eq.symm
  cases refused : call.refusal? subject with
  | some error =>
    rw [Script.Call.perform_refused refused] at done
    cases done
    refine ⟨fun field same => ?_, fun detail same => ?_⟩
    · rw [← units] at same
      exact Script.Call.refusal?_ne_unboundField refused field (Except.error.inj same)
    · cases same
      rfl
  | none =>
    have avoids := later.avoids refused done
    refine ⟨?_, ?_⟩
    · rintro field rfl
      cases avoids
    · rintro detail rfl
      cases avoids

end Worn

end Generate

/-! ## Executors of a run -/

/-- The executors of a graph, from the leaves up. -/
def Executor.postOrder : Executor → List Executor
  | replay source => [replay source]
  | scan source => [scan source]
  | filter ⟨id, condition, ⟨producer, pending, finished⟩, batch⟩ =>
    producer.postOrder ++ [filter ⟨id, condition, ⟨producer, pending, finished⟩, batch⟩]
  | project ⟨id, expressions, ⟨producer, pending, finished⟩, batch⟩ =>
    producer.postOrder ++ [project ⟨id, expressions, ⟨producer, pending, finished⟩, batch⟩]
  | sorter ⟨id, columns, ascending, ⟨producer, pending, finished⟩, sorted, batch⟩ =>
    producer.postOrder ++
      [sorter ⟨id, columns, ascending, ⟨producer, pending, finished⟩, sorted, batch⟩]
  | join ⟨id, condition, ⟨left, leftPending, leftFinished⟩, ⟨right, rightPending, rightFinished⟩,
      rightRows, current, batch⟩ =>
    left.postOrder ++ right.postOrder ++ [join ⟨id, condition, ⟨left, leftPending, leftFinished⟩,
      ⟨right, rightPending, rightFinished⟩, rightRows, current, batch⟩]
  | root id input => input.postOrder ++ [root id input]
  | compiled subject => [compiled subject]

/-- What binding an executor to an instance does to it. With enough fuel it succeeds; the fields
that its node takes when the unit is bound hold what the executor exposes then, the other fields
hold what they held, and apart from the fields only the mark of the node is new. -/
structure Binds (registry : Registry) (executor : Executor) (subject next : UnitInstance) :
    Prop where
  succeeds : ∃ enough, ∀ fuel, enough ≤ fuel →
    subject.prepare fuel executor.id executor.state = some (.ok (), next)
  own : ∀ entry ∈ registry.declared, entry.nodeId = executor.id → entry.hasPrepare = true →
    entry.kind.exposed executor.state ≠ .unset ∧
      next.field? entry.name = some (entry.kind.exposed executor.state)
  others : ∀ entry ∈ registry.declared, ¬ (entry.nodeId = executor.id ∧ entry.hasPrepare = true) →
    next.field? entry.name = subject.field? entry.name
  rest : next = { subject with
    memory := { subject.memory with fields := next.memory.fields }
    bound := executor.id :: subject.bound }

/-- Executors are bound to an instance one after another. -/
inductive BindsAll (registry : Registry) : List Executor → UnitInstance → UnitInstance → Prop
  | nil {subject : UnitInstance} : BindsAll registry [] subject subject
  | cons {executor : Executor} {others : List Executor} {subject next last : UnitInstance}
      (first : Binds registry executor subject next) (rest : BindsAll registry others next last) :
      BindsAll registry (executor :: others) subject last

namespace Site

/-- The executor is that of the node. -/
def Exposes (site : Site) (executor : Executor) (generator : Generator) : Prop :=
  executor.id = generator.id ∧ executor.state = generator.stateAt site

section Runs

variable {site : Site} {batchSize : Nat} {plan : Plan} {row : List Local}
  {steps : List Generate.RowStep} {unit : CompiledUnit} {executor : Executor}
  {generators before after : List Generator} {generator : Generator}

/-- The executors of a run are those of its nodes. -/
theorem postOrder_exposes (compilable : plan.isCompilable = true)
    (built : site.interpreted plan = .ok executor) :
    List.Forall₂ site.Exposes executor.postOrder plan.runGenerators := by
  induction plan generalizing executor with
  | scan id spec =>
    obtain ⟨state, found, same⟩ := bind_eq_ok_iff.1 built
    cases same
    rw [Plan.runGenerators_scan compilable]
    refine .cons ⟨rfl, ?_⟩ .nil
    simp only [Generator.stateAt, found]
    rfl
  | filter id condition input step =>
    obtain ⟨producer, below, same⟩ := bind_eq_ok_iff.1 built
    cases same
    have under : input.isCompilable = true := compilable
    rw [Plan.runGenerators_filter under, Feed.start, Executor.postOrder]
    exact List.rel_append (step under below) (.cons ⟨rfl, rfl⟩ .nil)
  | project id expressions input step =>
    obtain ⟨producer, below, same⟩ := bind_eq_ok_iff.1 built
    cases same
    have under : input.isCompilable = true := compilable
    rw [Plan.runGenerators_project under, Feed.start, Executor.postOrder]
    exact List.rel_append (step under below) (.cons ⟨rfl, rfl⟩ .nil)
  | root id input step | sort id columns ascending input step => cases compilable
  | join id condition left right leftStep rightStep => cases compilable

/-- The order in which the nodes of a run are bound does not matter to what the fields hold. -/
theorem contents_perm (realizes : Realizes plan row steps unit)
    (perm : generators.Perm plan.runGenerators) :
    site.contents generators = site.contents plan.runGenerators := by
  have apart := Generate.declared_apart realizes.run.compilable realizes.run.apart
  refine Contents.assignAll_perm (exposures_apart ?_) (perm.flatMap_right _)
  exact ((perm.flatMap_right _).map _).nodup_iff.2 apart

/-- Binding one node more. -/
theorem binds_next (realizes : Realizes plan row steps unit)
    (suits : ∀ generator ∈ plan.runGenerators, ∃ kind,
      generator.Suits (generator.stateAt site) kind)
    (perm : (before ++ generator :: after).Perm plan.runGenerators)
    (exposes : site.Exposes executor generator) :
    Binds (registryOf plan) executor (site.bound batchSize unit before)
      (site.bound batchSize unit (before ++ [generator])) := by
  obtain ⟨named, state⟩ := exposes
  have compilable := realizes.run.compilable
  have apart := Generate.declared_apart compilable realizes.run.apart
  have ids := Generate.runGenerators_apart compilable realizes.run.apart
  rw [List.append_cons] at perm
  have part : ∀ other ∈ before ++ [generator], other ∈ plan.runGenerators := fun other member =>
    perm.mem_iff.1 (List.mem_append_left _ member)
  have mine : generator ∈ plan.runGenerators :=
    part _ (List.mem_append_right _ (List.mem_singleton_self _))
  have field : ∀ entry ∈ (registryOf plan).declared,
      entry.name ∈ unit.fields.map FieldInfo.name := by
    intro entry listed
    obtain ⟨other, inside, own⟩ := List.mem_flatMap.1 listed
    exact realizes.fields_of_mem inside entry own
  constructor
  case succeeds =>
    rw [named, state]
    refine bound_prepare realizes part (fun other member => suits other (part other member)) ?_
    refine ((perm.map Generator.id).nodup_iff.2 ids).sublist ?_
    exact (List.sublist_append_left _ _).map _
  case own =>
    intro entry listed node bound
    obtain ⟨other, inside, own⟩ := List.mem_flatMap.1 listed
    have same : other.id = generator.id := (Generator.nodeId_of_mem own).symm.trans
      (node.trans named)
    obtain rfl := List.inj_on_of_nodup_map ids inside mine same
    obtain ⟨kind, here⟩ := suits other mine
    have names : (((before ++ [other]).flatMap Generator.stateVariables).map
        StateVariable.name).Nodup := by
      have all := ((perm.flatMap_right Generator.stateVariables).map
        StateVariable.name).nodup_iff.2 apart
      rw [List.flatMap_append, List.map_append] at all
      exact (List.nodup_append.1 all).1
    have held := @contents_of_mem site _ _ _ names
      (List.mem_append_right _ (List.mem_singleton_self _)) own bound
    rw [state]
    exact ⟨VariableKind.ne_unset_of_fits (here.exposed_fits own bound 0),
      (UnitInstance.field?_of (field entry listed)).trans (congrArg some held)⟩
  case others =>
    intro entry listed other
    rw [bound_snoc, bound, UnitInstance.field?_of (field entry listed),
      UnitInstance.field?_of (field entry listed)]
    refine congrArg some (Contents.assignAll_of_not_mem fun member => other ?_)
    obtain ⟨_, exposed, same⟩ := List.mem_map.1 member
    obtain ⟨own, bound, rfl⟩ := List.mem_map.1 exposed
    obtain ⟨inside, prepared⟩ := List.mem_filter.1 bound
    have declared : own ∈ (registryOf plan).declared := List.mem_flatMap.2 ⟨generator, mine, inside⟩
    obtain rfl := List.inj_on_of_nodup_map apart declared listed same
    exact ⟨(Generator.nodeId_of_mem inside).trans named.symm, prepared⟩
  case rest =>
    rw [bound_snoc, named]
    rfl

/-- Binding the nodes that are left. -/
theorem bindsAll_rest (realizes : Realizes plan row steps unit)
    (suits : ∀ generator ∈ plan.runGenerators, ∃ kind,
      generator.Suits (generator.stateAt site) kind)
    {order : List Executor} (exposes : List.Forall₂ site.Exposes order after)
    (perm : (before ++ after).Perm plan.runGenerators) :
    BindsAll (registryOf plan) order (site.bound batchSize unit before)
      (site.bound batchSize unit (before ++ after)) := by
  induction exposes generalizing before with
  | nil =>
    rw [List.append_nil]
    exact .nil
  | @cons executor generator others rest here _ step =>
    have first := @binds_next site batchSize _ _ _ _ _ _ _ _ realizes suits perm here
    rw [List.append_cons] at perm ⊢
    exact .cons first (step perm)

/-- In any order, the executors of a run bind all nodes of its unit. -/
theorem bindsAll_perm (batchSize : Nat) (realizes : Realizes plan row steps unit)
    (below : site.interpreted plan = .ok executor) {order : List Executor}
    (perm : order.Perm executor.postOrder) : ∃ ids,
      BindsAll (registryOf plan) order (.start unit batchSize)
        ⟨unit, .of unit (site.contents plan.runGenerators) (.empty batchSize) [], ids, false⟩ ∧
      ∀ id ∈ unit.subsumedIds, id ∈ ids := by
  have compilable := realizes.run.compilable
  have exposes := postOrder_exposes compilable below
  obtain ⟨generators, here, reordered⟩ := List.perm_comp_forall₂ perm exposes
  have suits := suits_of_interpreted compilable below
  have binds := @bindsAll_rest site batchSize _ _ _ _ [] generators realizes suits _ here reordered
  rw [bound_nil, List.nil_append, bound, contents_perm realizes reordered] at binds
  refine ⟨_, binds, fun id subsumed => ?_⟩
  rw [realizes.parts.2.1, ← map_id_runGenerators compilable] at subsumed
  rw [List.mem_reverse]
  exact (reordered.map Generator.id).mem_iff.2 subsumed

end Runs

end Site

/-- For the unit of a fragment and the executors that are built without units for its nodes: offered
to a new instance in any order they are all bound; each sets the fields that its node takes from it,
and nothing else; the fields hold the same in the end, whatever the order; and then no field is
found unbound any more, whatever is done with the instance. -/
theorem binding_ignores_order {tree : PlanTree} (finished : tree.Built) {fragments : List Fragment}
    (split : partition tree.root = .ok fragments) {fragment : Fragment}
    (member : fragment ∈ fragments) {generated : Generate.GeneratedUnit}
    (written : fragment.generate = .ok generated) {unit : CompiledUnit}
    (compiled : generated.compile = .ok unit) {site : Site} {fuel : Nat}
    {executor : Executor} (built : site.buildNode fuel fragment.plan none = pure (executor, none)) :
    ∃ registry, Registry.runOn
        (Generate.declareAll (fragment.generators.map GeneratorTree.generator)) .empty =
          (.ok (), registry) ∧
      unit.fields.map FieldInfo.name = registry.declared.map StateVariable.name ∧
      executor.postOrder.map Executor.id = unit.subsumedIds ∧
      ∃ fields, ∀ batchSize order, order.Perm executor.postOrder →
        ∃ bound, BindsAll registry order (.start unit batchSize) bound ∧
          bound.memory.fields = fields ∧ bound.isBound = true ∧ bound.Unhindered := by
  obtain ⟨same, run⟩ := Generate.isRun_of_partition finished split member
  rw [same] at written
  obtain ⟨row, steps, realizes⟩ := Generate.realizes_of_compile run written compiled
  have below := (Site.buildNode_none_eq_pure_iff.1 built).1
  have exposes := Site.postOrder_exposes run.compilable below
  refine ⟨registryOf fragment.plan, ?_, ?_, ?_, ?_⟩
  · rw [same]
    exact Generate.declareAll_ofPlan run.compilable run.apart
  · rw [realizes.parts.2.2, List.map_map]
    rfl
  · have ids : List.Forall₂ Eq (executor.postOrder.map Executor.id)
        (fragment.plan.runGenerators.map Generator.id) :=
      List.forall₂_map_left_iff.2
        (List.forall₂_map_right_iff.2 (exposes.imp fun _ _ pair => pair.1))
    rw [List.forall₂_eq_eq_eq] at ids
    rw [ids, Site.map_id_runGenerators run.compilable, realizes.parts.2.1]
  refine ⟨unit.fields.map fun field => site.contents fragment.plan.runGenerators field.name,
    fun batchSize order perm => ?_⟩
  obtain ⟨ids, binds, complete⟩ := Site.bindsAll_perm batchSize realizes below perm
  obtain ⟨state, supplied⟩ := site.supplied realizes below
  refine ⟨_, binds, rfl, ?_, (Generate.Worn.refl realizes supplied complete).unhindered⟩
  rw [UnitInstance.isBound, (UnitInstance.unbound?_eq_none_iff _).2 complete]
  rfl

/-- The run of a half compiled plan is bound from its last node to its scan. -/
theorem binding_ignores_order_reversed : ∃ tree fragments fragment generated unit executor,
    PlanTree.ofNodes
        [(1, .scan (Generate.keyScan "Person"), []), (3, .scan (Generate.keyScan "1st"), []),
         (2, .filter (.isNull (.column 0 .int)), [1]), (4, .join none, [2, 3]), (9, .root, [4])]
        9 = .ok tree ∧
      partition tree.root = .ok fragments ∧ fragment ∈ fragments ∧
      fragment.generate = .ok generated ∧ generated.compile = .ok unit ∧
      peopleSite.buildNode 0 fragment.plan none = pure (executor, none) ∧
      ∃ registry bound, BindsAll registry executor.postOrder.reverse (.start unit 2) bound ∧
        bound.Unhindered := by
  have split := partition_halfCompiled
  have member : Fragment.ofPlan peopleRun ∈ [Fragment.ofPlan peopleRun] := List.mem_singleton_self _
  obtain ⟨generated, unit, written, compiled⟩ := compile_peopleRun
  obtain ⟨executor, built⟩ : ∃ executor,
      peopleSite.buildNode 0 (Fragment.ofPlan peopleRun).plan none = pure (executor, none) :=
        ⟨_, rfl⟩
  obtain ⟨registry, -, -, -, fields, binds⟩ :=
    binding_ignores_order Generate.built_halfCompiled split member written compiled built
  obtain ⟨bound, all, -, -, unhindered⟩ := binds 2 _ executor.postOrder.reverse_perm
  exact ⟨_, _, _, generated, unit, executor, Generate.ofNodes_halfCompiled, split, member, written,
    compiled, built, registry, bound, all, unhindered⟩

end QueryFusion
