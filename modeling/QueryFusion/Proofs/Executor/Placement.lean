import QueryFusion.Proofs.Generate.Binding
import QueryFusion.Proofs.Session.Caching

/-!
# Units in the executor graph

The executors of a plan are built from the leaves up, and each is offered to the unit that stands
for its node. Below the primary node of a unit the executors are those of interpretation; there the
unit has been bound to the last of its nodes, and takes the place of what was built. What comes of
the plan is its interpreted graph with the executors of every run replaced by one unit.
-/

namespace QueryFusion

open Script (CompiledUnit UnitInstance)

/-! ## Graphs -/

namespace Executor

/-- The graph with the occupants of nodes in the place of what stands there. -/
def substitute (occupant : NodeId → Option UnitInstance) : Executor → Executor
  | replay source => (occupant source.id).elim (replay source) compiled
  | scan source => (occupant source.id).elim (scan source) compiled
  | filter ⟨id, condition, ⟨producer, pending, finished⟩, batch⟩ =>
    (occupant id).elim
      (filter ⟨id, condition, ⟨producer.substitute occupant, pending, finished⟩, batch⟩) compiled
  | project ⟨id, expressions, ⟨producer, pending, finished⟩, batch⟩ =>
    (occupant id).elim
      (project ⟨id, expressions, ⟨producer.substitute occupant, pending, finished⟩, batch⟩) compiled
  | sorter ⟨id, columns, ascending, ⟨producer, pending, finished⟩, sorted, batch⟩ =>
    (occupant id).elim
      (sorter ⟨id, columns, ascending, ⟨producer.substitute occupant, pending, finished⟩, sorted,
        batch⟩) compiled
  | join ⟨id, condition, ⟨left, leftPending, leftFinished⟩, ⟨right, rightPending, rightFinished⟩,
      rightRows, current, batch⟩ =>
    (occupant id).elim
      (join ⟨id, condition, ⟨left.substitute occupant, leftPending, leftFinished⟩,
        ⟨right.substitute occupant, rightPending, rightFinished⟩, rightRows, current, batch⟩)
          compiled
  | root id input => (occupant id).elim (root id (input.substitute occupant)) compiled
  | compiled subject => compiled subject

/-- The units of a graph, from the leaves up. -/
def units : Executor → List CompiledUnit
  | replay _ | scan _ => []
  | filter ⟨_, _, ⟨producer, _, _⟩, _⟩ | project ⟨_, _, ⟨producer, _, _⟩, _⟩
  | sorter ⟨_, _, _, ⟨producer, _, _⟩, _, _⟩ => producer.units
  | join ⟨_, _, ⟨left, _, _⟩, ⟨right, _, _⟩, _, _, _⟩ => left.units ++ right.units
  | root _ input => input.units
  | compiled subject => [subject.unit]

/-- The nodes of the interpreted executors of a graph, from the leaves up. -/
def interpretedIds : Executor → List NodeId
  | replay source => [source.id]
  | scan source => [source.id]
  | filter ⟨id, _, ⟨producer, _, _⟩, _⟩ | project ⟨id, _, ⟨producer, _, _⟩, _⟩
  | sorter ⟨id, _, _, ⟨producer, _, _⟩, _, _⟩ => producer.interpretedIds ++ [id]
  | join ⟨id, _, ⟨left, _, _⟩, ⟨right, _, _⟩, _, _, _⟩ =>
    left.interpretedIds ++ right.interpretedIds ++ [id]
  | root id input => input.interpretedIds ++ [id]
  | compiled _ => []

/-- An occupied node is replaced. -/
theorem substitute_of_some {occupant : NodeId → Option UnitInstance} {executor : Executor}
    {subject : UnitInstance} (interpreted : executor.isCompiled = false)
    (occupied : occupant executor.id = some subject) :
    executor.substitute occupant = .compiled subject := by
  cases executor with
  | compiled other => cases interpreted
  | _ =>
    rw [substitute]
    exact congrArg (Option.elim · _ _) occupied

end Executor

/-- A run that succeeds does so in each of its parts. -/
theorem Run.of_bind {α β : Type} {action : Run α} {next : α → Run β} {result : β}
    (done : action >>= next = pure result) :
    ∃ middle, action = pure middle ∧ next middle = pure result := by
  rcases action with _ | error | middle
  · cases done
  · cases done
  · exact ⟨middle, rfl, done⟩

namespace Site

/-- The executors of a plan below its root, without units. -/
def interpreted (site : Site) : Plan → Except Error Executor
  | .scan id spec => do
    let state ← site.scanState spec
    .ok (.scan (.start id state site.batchSize))
  | .filter id condition input => do
    let producer ← site.interpreted input
    .ok (.filter ⟨id, condition, .start producer, .empty site.batchSize⟩)
  | .project id expressions input => do
    let producer ← site.interpreted input
    .ok (.project ⟨id, expressions, .start producer, .empty site.batchSize⟩)
  | .sort id columns ascending input => do
    let producer ← site.interpreted input
    .ok (.sorter ⟨id, columns, ascending, .start producer, none, .empty site.batchSize⟩)
  | .join id condition left right => do
    let leftProducer ← site.interpreted left
    let rightProducer ← site.interpreted right
    .ok (.join ⟨id, condition, .start leftProducer, .start rightProducer, none, none,
      .empty site.batchSize⟩)
  | .root id input => do
    let _ ← site.interpreted input
    .error (.planInvariant ("Root node " ++ id.text ++ " below the plan root"))

/-- Without an assembly the interpreted executors are built. -/
theorem buildNode_none (site : Site) (fuel : Nat) (plan : Plan) :
    site.buildNode fuel plan none =
      Run.ofExcept ((site.interpreted plan).map fun executor => (executor, none)) := by
  induction plan with
  | scan id spec =>
    rw [buildNode, interpreted]
    cases site.scanState spec <;> rfl
  | filter id condition input step | project id expressions input step
  | sort id columns ascending input step | root id input step =>
    rw [buildNode, step, interpreted]
    cases site.interpreted input <;> rfl
  | join id condition left right leftStep rightStep =>
    rw [buildNode, leftStep, interpreted]
    cases site.interpreted left with
    | error error => rfl
    | ok producer =>
      show (site.buildNode fuel right none >>= _) = _
      rw [rightStep]
      cases site.interpreted right <;> rfl

/-- Executors that are built without an assembly are the interpreted ones. -/
theorem buildNode_none_eq_pure_iff {site : Site} {fuel : Nat} {plan : Plan} {executor : Executor}
    {rest : Option Assembly} : site.buildNode fuel plan none = pure (executor, rest) ↔
      site.interpreted plan = .ok executor ∧ rest = none := by
  rw [buildNode_none]
  constructor
  · intro built
    cases found : site.interpreted plan with
    | error error =>
      rw [found] at built
      cases built
    | ok producer =>
      rw [found] at built
      cases built
      exact ⟨rfl, rfl⟩
  · rintro ⟨found, rfl⟩
    rw [found]
    rfl

/-- A graph is built for a root only, above the executors of its input. -/
theorem root_of_build {site : Site} {fuel : Nat} {plan : Plan} {assembly : Option Assembly}
    {graph : Executor} (built : site.build fuel plan assembly = pure graph) :
    ∃ id input producer rest, plan = .root id input ∧ graph = .root id producer ∧
      site.buildNode fuel input assembly = pure (producer, rest) := by
  cases plan with
  | root id input =>
    obtain ⟨⟨producer, rest⟩, below, placed⟩ := Run.of_bind built
    dsimp only at placed
    split at placed
    · cases placed
    · cases placed
      exact ⟨id, input, producer, rest, rfl, rfl, below⟩
  | scan id spec | filter id condition input | project id expressions input
  | sort id columns ascending input | join id condition left right => cases built

end Site

/-! ## Offering executors -/

/-- None of the units stands for the node. -/
def Uninvolved (id : NodeId) (places : List Place) : Prop :=
  ∀ place ∈ places, id ∉ place.unit.subsumedIds ∧ place.unit.primaryId ≠ id

namespace Assembly

variable {id : NodeId} {state : ExecutorState} {before after : List Place} {fuel : Nat}

/-- An executor is offered to the unit that stands for its node. -/
theorem prepareAt_of_mem (free : Uninvolved id before) {unit : CompiledUnit}
    (owns : id ∈ unit.subsumedIds) {subject next : UnitInstance}
    (binds : subject.prepare fuel id state = some (.ok (), next)) :
    prepareAt fuel id state (before ++ ⟨unit, some subject⟩ :: after) =
      some (.ok true, before ++ ⟨unit, some next⟩ :: after) := by
  induction before with
  | nil =>
    have here : unit.subsumedIds.contains id = true := List.contains_iff_mem.2 owns
    simp only [List.nil_append, prepareAt, here, if_true, binds]
  | cons place rest step =>
    have other : place.unit.subsumedIds.contains id = false := by
      simpa using (free place List.mem_cons_self).1
    rw [List.cons_append, prepareAt, other]
    simp only [Bool.false_eq_true, if_false]
    rw [step fun other member => free other (List.mem_cons_of_mem _ member)]
    rfl

/-- An executor that no unit stands for is not taken. -/
theorem prepareAt_of_uninvolved (free : Uninvolved id before) :
    prepareAt fuel id state before = some (.ok false, before) := by
  induction before with
  | nil => rfl
  | cons place rest step =>
    have other : place.unit.subsumedIds.contains id = false := by
      simpa using (free place List.mem_cons_self).1
    rw [prepareAt, other]
    simp only [Bool.false_eq_true, if_false]
    rw [step fun other member => free other (List.mem_cons_of_mem _ member)]
    rfl

/-- A unit that is bound is taken at its primary node. -/
theorem takeAt_of_mem (free : Uninvolved id before) {unit : CompiledUnit}
    (primary : unit.primaryId = id) {subject : UnitInstance} (bound : subject.isBound = true) :
    takeAt id (before ++ ⟨unit, some subject⟩ :: after) =
      (.ok (some subject), before ++ ⟨unit, none⟩ :: after) := by
  induction before with
  | nil => simp [takeAt, primary, bound]
  | cons place rest step =>
    have other : (place.unit.primaryId == id) = false := by
      simpa using (free place List.mem_cons_self).2
    rw [List.cons_append, takeAt, other]
    simp only [Bool.false_eq_true, if_false]
    rw [step fun other member => free other (List.mem_cons_of_mem _ member)]
    rfl

/-- Nothing is taken at a node that is primary for no unit. -/
theorem takeAt_of_ne {places : List Place} (other : ∀ place ∈ places, place.unit.primaryId ≠ id) :
    takeAt id places = (.ok none, places) := by
  induction places with
  | nil => rfl
  | cons place rest step =>
    have differs : (place.unit.primaryId == id) = false := by
      simpa using other place List.mem_cons_self
    rw [takeAt, differs]
    simp only [Bool.false_eq_true, if_false]
    rw [step fun next member => other next (List.mem_cons_of_mem _ member)]

end Assembly

namespace Site

variable {executor : Executor} {before after places : List Place} {unit : CompiledUnit}
  {subject next : UnitInstance} {fuel : Nat}

/-- An executor that is offered is replaced by what is taken at its node. -/
theorem place_offered {assembly prepared rest : Assembly} {taken : Option UnitInstance}
    (offered : assembly.prepare fuel executor = some (.ok true, prepared))
    (took : prepared.take executor.id = (.ok taken, rest)) :
    place fuel executor (some assembly) = pure (taken.elim executor .compiled, some rest) := by
  show (ExceptT.lift (assembly.prepare fuel executor) >>= _ : Run (Executor × Option Assembly)) = _
  rw [offered]
  have remaining : Assembly.mk (Assembly.takeAt executor.id prepared.places).2 = rest :=
    congrArg Prod.snd took
  show (Run.ofExcept (prepared.take executor.id).1 >>= _ : Run (Executor × Option Assembly)) = _
  rw [took, remaining]
  cases taken <;> rfl

/-- An executor that no unit stands for stays. -/
theorem place_uninvolved (free : Uninvolved executor.id places) :
    place fuel executor (some ⟨places⟩) = pure (executor, some ⟨places⟩) := by
  have refused : Assembly.prepare fuel executor ⟨places⟩ = some (.ok false, ⟨places⟩) := by
    rw [Assembly.prepare, Assembly.prepareAt_of_uninvolved free]
    rfl
  show (ExceptT.lift (Assembly.prepare fuel executor ⟨places⟩) >>= _ :
    Run (Executor × Option Assembly)) = _
  rw [refused]
  rfl

/-- An executor inside a run binds the unit and stays. -/
theorem place_inside (free : Uninvolved executor.id (before ++ after))
    (owns : executor.id ∈ unit.subsumedIds) (inner : unit.primaryId ≠ executor.id)
    (binds : subject.prepare fuel executor.id executor.state = some (.ok (), next)) :
    place fuel executor (some ⟨before ++ ⟨unit, some subject⟩ :: after⟩) =
      pure (executor, some ⟨before ++ ⟨unit, some next⟩ :: after⟩) := by
  have offered := @Assembly.prepareAt_of_mem _ executor.state before after fuel
    (fun place member => free place (List.mem_append_left _ member)) _ owns _ _ binds
  have kept : Assembly.takeAt executor.id (before ++ ⟨unit, some next⟩ :: after) =
      (.ok none, before ++ ⟨unit, some next⟩ :: after) := by
    refine Assembly.takeAt_of_ne fun place member => ?_
    rcases List.mem_append.1 member with first | rest
    · exact (free place (List.mem_append_left _ first)).2
    · rcases List.mem_cons.1 rest with rfl | last
      · exact inner
      · exact (free place (List.mem_append_right _ last)).2
  refine @place_offered _ _ _ ⟨before ++ ⟨unit, some next⟩ :: after⟩ _ none ?_ ?_
  · rw [Assembly.prepare, offered]
    rfl
  · rw [Assembly.take, kept]

/-- The executor at the end of a run binds the unit, which takes its place. -/
theorem place_primary (free : Uninvolved executor.id (before ++ after))
    (owns : executor.id ∈ unit.subsumedIds) (primary : unit.primaryId = executor.id)
    (binds : subject.prepare fuel executor.id executor.state = some (.ok (), next))
    (bound : next.isBound = true) :
    place fuel executor (some ⟨before ++ ⟨unit, some subject⟩ :: after⟩) =
      pure (.compiled next, some ⟨before ++ ⟨unit, none⟩ :: after⟩) := by
  have first : Uninvolved executor.id before :=
    fun place member => free place (List.mem_append_left _ member)
  have offered := @Assembly.prepareAt_of_mem _ executor.state before after fuel first
    _ owns _ _ binds
  refine @place_offered _ _ _ ⟨before ++ ⟨unit, some next⟩ :: after⟩ _ (some next) ?_ ?_
  · rw [Assembly.prepare, offered]
    rfl
  · rw [Assembly.take, Assembly.takeAt_of_mem first primary bound]

end Site

/-! ## Binding a run -/

open Generate (Generator Realizes FieldsFit registryOf)
open Script (Memory Contents)
open Emit (Local)

/-- What the executor of a node exposes. -/
def Generate.Generator.stateAt (site : Site) : Generator → ExecutorState
  | .scan _ spec =>
    match site.scanState spec with
    | .ok state => .scan state
    | .error _ => .hidden
  | .filter _ condition => .filter condition
  | .project _ expressions => .project expressions
  | .output _ | .interpreted _ => .hidden

/-- What the fields of a unit hold when these nodes have been bound. -/
def Site.contents (site : Site) (generators : List Generator) : Contents :=
  Contents.assignAll (fun _ => .unset)
    (generators.flatMap fun generator => generator.exposures (generator.stateAt site))

/-- An instance that has been bound to the executors of these nodes. -/
def Site.bound (site : Site) (batchSize : Nat) (unit : CompiledUnit) (generators : List Generator) :
    UnitInstance :=
  ⟨unit, .of unit (site.contents generators) (.empty batchSize) [],
    (generators.map Generator.id).reverse, false⟩

namespace Site

section Binding

variable {site : Site} {batchSize : Nat} {plan top : Plan} {row : List Local}
  {steps : List Generate.RowStep} {unit : CompiledUnit} {generators : List Generator}
  {generator : Generator} {executor : Executor} {before after : List Place}

/-- A new instance has been bound to no node. -/
theorem bound_nil (site : Site) (batchSize : Nat) (unit : CompiledUnit) :
    site.bound batchSize unit [] = .start unit batchSize := by
  rw [UnitInstance.start, Memory.start_eq]
  rfl

/-- The executors of a run expose what its nodes need. -/
theorem suits_of_interpreted (compilable : plan.isCompilable = true)
    (built : site.interpreted plan = .ok executor) :
    ∀ generator ∈ plan.runGenerators, ∃ kind, generator.Suits (generator.stateAt site) kind := by
  induction plan generalizing executor with
  | scan id spec =>
    rw [interpreted] at built
    obtain ⟨state, found, -⟩ := bind_eq_ok_iff.1 built
    rw [Plan.runGenerators_scan compilable, List.forall_mem_singleton]
    refine ⟨.scan, ?_⟩
    simp only [Generator.stateAt, found]
    exact .scan
  | filter id condition input step =>
    rw [interpreted] at built
    obtain ⟨producer, below, -⟩ := bind_eq_ok_iff.1 built
    have under : input.isCompilable = true := compilable
    rw [Plan.runGenerators_filter under, List.forall_mem_append, List.forall_mem_singleton]
    exact ⟨step compilable below, .filter, .filter⟩
  | project id expressions input step =>
    rw [interpreted] at built
    obtain ⟨producer, below, -⟩ := bind_eq_ok_iff.1 built
    have under : input.isCompilable = true := compilable
    rw [Plan.runGenerators_project under, List.forall_mem_append, List.forall_mem_singleton]
    exact ⟨step compilable below, .project, .project⟩
  | root id input step | sort id columns ascending input step => cases compilable
  | join id condition left right leftStep rightStep => cases compilable

/-- What nodes of a run expose fits the fields of the unit. -/
theorem contents_fit (suits : ∀ generator ∈ generators,
    ∃ kind, generator.Suits (generator.stateAt site) kind) :
    FieldsFit top 0 (site.contents generators) := by
  have start : FieldsFit top 0 fun _ => .unset := .unset top 0
  rw [contents]
  generalize (fun _ => Script.Slot.unset) = content at start
  induction generators generalizing content with
  | nil => exact start
  | cons generator rest step =>
    rw [List.forall_mem_cons] at suits
    obtain ⟨kind, here⟩ := suits.1
    rw [List.flatMap_cons, Contents.assignAll, List.foldl_append]
    exact step suits.2 _ (start.exposures here)

/-- The last node of several sets its own fields. -/
theorem contents_snoc (site : Site) (generators : List Generator) (generator : Generator) :
    site.contents (generators ++ [generator]) =
      (site.contents generators).assignAll (generator.exposures (generator.stateAt site)) := by
  rw [contents, contents, List.flatMap_append, List.flatMap_singleton, Contents.assignAll,
    List.foldl_append]
  rfl

/-- An instance that has been bound to one node more. -/
theorem bound_snoc (site : Site) (batchSize : Nat) (unit : CompiledUnit)
    (generators : List Generator) (generator : Generator) :
    site.bound batchSize unit (generators ++ [generator]) =
      ⟨unit, .of unit ((site.contents generators).assignAll
        (generator.exposures (generator.stateAt site))) (.empty batchSize) [],
        generator.id :: (generators.map Generator.id).reverse, false⟩ := by
  rw [bound, contents_snoc, List.map_append, List.map_singleton, List.reverse_append]
  rfl

/-- An instance bound to some nodes of a run is bound to another one. -/
theorem bound_prepare (realizes : Realizes top row steps unit)
    (part : ∀ other ∈ generators ++ [generator], other ∈ top.runGenerators)
    (suits : ∀ other ∈ generators ++ [generator],
      ∃ kind, other.Suits (other.stateAt site) kind)
    (apart : ((generators ++ [generator]).map Generator.id).Nodup) : ∃ enough, ∀ fuel,
      enough ≤ fuel →
      (site.bound batchSize unit generators).prepare fuel generator.id (generator.stateAt site) =
        some (.ok (), site.bound batchSize unit (generators ++ [generator])) := by
  rw [List.forall_mem_append, List.forall_mem_singleton] at part suits
  obtain ⟨kind, here⟩ := suits.2
  rw [List.map_append, List.nodup_append] at apart
  have new : generator.id ∉ (generators.map Generator.id).reverse := by
    rw [List.mem_reverse]
    exact fun member => apart.2.2 _ member _ (List.mem_singleton_self _) rfl
  obtain ⟨enough, binds⟩ := @Realizes.prepare top unit (site.contents generators) (.empty batchSize)
    [] generator _ kind row steps realizes part.2 here (contents_fit suits.1)
      (List.forall_mem_nil _) _
    new false
  refine ⟨enough, fun fuel more => ?_⟩
  rw [bound_snoc]
  exact binds fuel more

/-- The generators of a run have its nodes. -/
theorem map_id_runGenerators (compilable : plan.isCompilable = true) :
    plan.runGenerators.map Generator.id = plan.runIds := by
  rw [← Plan.runTree_ids compilable, Plan.runGenerators, List.map_map]
  rfl

/-- The executor of a node has its id, and is no unit. -/
theorem interpreted_top (built : site.interpreted plan = .ok executor) :
    executor.id = plan.id ∧ executor.isCompiled = false := by
  cases plan with
  | scan id spec =>
    obtain ⟨state, -, same⟩ := bind_eq_ok_iff.1 built
    cases same
    exact ⟨rfl, rfl⟩
  | filter id condition input | project id expressions input | sort id columns ascending input =>
    obtain ⟨producer, -, same⟩ := bind_eq_ok_iff.1 built
    cases same
    exact ⟨rfl, rfl⟩
  | root id input =>
    obtain ⟨producer, -, same⟩ := bind_eq_ok_iff.1 built
    cases same
  | join id condition left right =>
    obtain ⟨leftProducer, -, rest⟩ := bind_eq_ok_iff.1 built
    obtain ⟨rightProducer, -, same⟩ := bind_eq_ok_iff.1 rest
    cases same
    exact ⟨rfl, rfl⟩

/-- With enough fuel the last executor of a plan is offered to a unit that it binds to these
nodes. -/
def Offers (site : Site) (batchSize : Nat) (unit : CompiledUnit) (before after : List Place)
    (plan : Plan) (executor : Executor) : Prop :=
  ∃ enough, ∀ fuel, enough ≤ fuel → ∃ subject,
    site.buildNode fuel plan (some ⟨before ++ ⟨unit, some (.start unit batchSize)⟩ :: after⟩) =
      place fuel executor (some ⟨before ++ ⟨unit, some subject⟩ :: after⟩) ∧
    subject.prepare fuel executor.id executor.state =
      some (.ok (), site.bound batchSize unit plan.runGenerators)

/-- An executor that is offered inside a run stays, and the unit is bound to the nodes so far. -/
theorem Offers.stays (offers : site.Offers batchSize unit before after plan executor)
    (free : Uninvolved executor.id (before ++ after)) (owns : executor.id ∈ unit.subsumedIds)
    (inner : unit.primaryId ≠ executor.id) : ∃ enough, ∀ fuel, enough ≤ fuel →
      site.buildNode fuel plan (some ⟨before ++ ⟨unit, some (.start unit batchSize)⟩ :: after⟩) =
        pure (executor,
          some ⟨before ++ ⟨unit, some (site.bound batchSize unit plan.runGenerators)⟩ ::
            after⟩) := by
  obtain ⟨enough, offered⟩ := offers
  refine ⟨enough, fun fuel more => ?_⟩
  obtain ⟨subject, reached, binds⟩ := offered fuel more
  rw [reached, place_inside free owns inner binds]

/-- The plan is a run from the scan of another run up to one of its nodes, and no other unit stands
for its nodes. -/
structure PartOf (top : Plan) (others : List Place) (plan : Plan) : Prop where
  compilable : plan.isCompilable = true
  generators : ∀ generator ∈ plan.runGenerators, generator ∈ top.runGenerators
  apart : plan.runIds.Nodup
  inner : top.id ∈ plan.runIds → top.id = plan.id
  free : ∀ id ∈ plan.runIds, Uninvolved id others

/-- What goes on with a run is behind a part of it that ends before the primary node. -/
theorem PartOf.input {input : Plan} {others : List Place} (whole : PartOf top others plan)
    (under : input.isCompilable = true)
    (split : plan.runGenerators = input.runGenerators ++ [generator])
    (last : generator.id = plan.id) : PartOf top others input ∧ top.id ∉ input.runIds := by
  have ids : plan.runIds = input.runIds ++ [plan.id] := by
    rw [← map_id_runGenerators whole.compilable, split, List.map_append, map_id_runGenerators under,
      List.map_singleton, last]
  have apart := whole.apart
  have inner := whole.inner
  have free := whole.free
  have generators := whole.generators
  rw [ids] at apart inner free
  rw [split] at generators
  obtain ⟨distinct, new⟩ := Plan.runIds_goesOn apart
  have below : top.id ∉ input.runIds := fun member =>
    new _ member (inner (List.mem_append_left _ member))
  exact ⟨⟨under, fun other member => generators other (List.mem_append_left _ member), distinct,
    fun member => absurd member below, fun id member => free id (List.mem_append_left _ member)⟩,
    below⟩

/-- The unit stands for the nodes of a part of its run. -/
theorem PartOf.owned {others : List Place} (part : PartOf top others plan)
    (realizes : Realizes top row steps unit) : ∀ id ∈ plan.runIds, id ∈ unit.subsumedIds := by
  intro id member
  rw [← map_id_runGenerators part.compilable, List.mem_map] at member
  obtain ⟨generator, listed, rfl⟩ := member
  rw [realizes.parts.2.1]
  exact Generate.id_mem_runIds realizes.run.compilable (part.generators generator listed)

/-- A node behind an input is offered after the executor of the input, which stays. -/
theorem Offers.goesOn {input : Plan} {producer : Executor}
    (offers : site.Offers batchSize unit before after input producer)
    (realizes : Realizes top row steps unit) (whole : PartOf top (before ++ after) plan)
    (below : site.interpreted input = .ok producer) (built : site.interpreted plan = .ok executor)
    (under : input.isCompilable = true)
    (split : plan.runGenerators = input.runGenerators ++ [generator])
    (last : generator.id = plan.id) (exposed : executor.state = generator.stateAt site)
    (build : ∀ fuel assembly rest, site.buildNode fuel input assembly = pure (producer, rest) →
      site.buildNode fuel plan assembly = place fuel executor rest) :
    site.Offers batchSize unit before after plan executor := by
  obtain ⟨part, inner⟩ := whole.input under split last
  have listed : producer.id ∈ input.runIds := (interpreted_top below).1 ▸ Plan.id_mem_runIds under
  have other : unit.primaryId ≠ producer.id := by
    rw [realizes.parts.1]
    exact fun primary => inner (primary ▸ listed)
  obtain ⟨first, stays⟩ := offers.stays (part.free _ listed) (part.owned realizes _ listed) other
  have generators := whole.generators
  have suits := suits_of_interpreted whole.compilable built
  have apart := whole.apart
  rw [← map_id_runGenerators whole.compilable] at apart
  rw [split] at generators suits apart
  obtain ⟨second, binds⟩ := @bound_prepare site batchSize top row steps unit input.runGenerators
    generator realizes generators suits apart
  refine ⟨max first second, fun fuel more => ⟨_, build fuel _ _ (stays fuel (by omega)), ?_⟩⟩
  rw [(interpreted_top built).1, ← last, exposed, split]
  exact binds fuel (by omega)

/-- Where a part of a run has been built, its last executor is offered to the unit. -/
theorem offers_part (realizes : Realizes top row steps unit)
    (part : PartOf top (before ++ after) plan) (built : site.interpreted plan = .ok executor) :
    site.Offers batchSize unit before after plan executor := by
  induction plan generalizing executor with
  | scan id spec =>
    obtain ⟨state, found, same⟩ := bind_eq_ok_iff.1 built
    cases same
    have single := Plan.runGenerators_scan part.compilable
    have generators := part.generators
    have suits := suits_of_interpreted part.compilable built
    rw [single] at generators suits
    obtain ⟨enough, binds⟩ := @bound_prepare site batchSize top row steps unit [] (.scan id spec)
      realizes generators suits (List.nodup_singleton _)
    have exposed : Generator.stateAt site (.scan id spec) = .scan state := by
      simp only [Generator.stateAt, found]
    rw [exposed, bound_nil, List.nil_append, ← single] at binds
    refine ⟨enough, fun fuel more => ⟨_, ?_, binds fuel more⟩⟩
    rw [buildNode, found]
    rfl
  | filter id condition input step =>
    obtain ⟨producer, below, same⟩ := bind_eq_ok_iff.1 built
    cases same
    have under : input.isCompilable = true := part.compilable
    have split := @Plan.runGenerators_filter id input condition under
    refine (step (part.input under split rfl).1 below).goesOn realizes part below built
      under split rfl rfl fun fuel assembly rest ready => ?_
    rw [buildNode, ready]
    rfl
  | project id expressions input step =>
    obtain ⟨producer, below, same⟩ := bind_eq_ok_iff.1 built
    cases same
    have under : input.isCompilable = true := part.compilable
    have split := @Plan.runGenerators_project id input expressions under
    refine (step (part.input under split rfl).1 below).goesOn realizes part below built
      under split rfl rfl fun fuel assembly rest ready => ?_
    rw [buildNode, ready]
    rfl
  | root id input step | sort id columns ascending input step => cases part.compilable
  | join id condition left right leftStep rightStep => cases part.compilable

/-- A unit that has been bound to the nodes of its run is bound. -/
theorem isBound_bound (realizes : Realizes plan row steps unit) :
    (site.bound batchSize unit plan.runGenerators).isBound = true := by
  have none : (site.bound batchSize unit plan.runGenerators).unbound? = none := by
    rw [UnitInstance.unbound?, List.find?_eq_none]
    intro id member
    have there : id ∈ plan.runIds := realizes.parts.2.1 ▸ member
    rw [← map_id_runGenerators realizes.run.compilable] at there
    simpa [bound] using there
  rw [UnitInstance.isBound, none]
  rfl

/-- At the end of a run its unit takes the place of what has been built. -/
theorem buildNode_run (realizes : Realizes plan row steps unit)
    (built : site.interpreted plan = .ok executor)
    (free : ∀ id ∈ plan.runIds, Uninvolved id (before ++ after)) : ∃ enough, ∀ fuel, enough ≤ fuel →
      site.buildNode fuel plan (some ⟨before ++ ⟨unit, some (.start unit batchSize)⟩ :: after⟩) =
        pure (.compiled (site.bound batchSize unit plan.runGenerators),
          some ⟨before ++ ⟨unit, none⟩ :: after⟩) := by
  have compilable := realizes.run.compilable
  have part : PartOf plan (before ++ after) plan :=
    ⟨compilable, fun _ member => member, realizes.run.apart, fun _ => rfl, free⟩
  have named := (interpreted_top built).1
  have listed : executor.id ∈ plan.runIds := named ▸ Plan.id_mem_runIds compilable
  obtain ⟨enough, offered⟩ := @offers_part site batchSize _ _ _ _ _ _ before after
    realizes part built
  refine ⟨enough, fun fuel more => ?_⟩
  obtain ⟨subject, reached, binds⟩ := offered fuel more
  rw [reached]
  exact place_primary (free _ listed) (part.owned realizes _ listed)
    (realizes.parts.1.trans named.symm) binds (isBound_bound realizes)

end Binding

end Site

/-! ## Runs of a plan -/

/-- A run ends at its last node only. -/
theorem Plan.runEnds_of_isCompilable {plan : Plan} (compilable : plan.isCompilable = true) :
    plan.runEnds = [plan] := by
  have behind : ∀ plan input : Plan, plan.inputs = [input] → plan.isCompilable = true →
      input.isCompilable = true → input.runEnds = [input] → plan.runEnds = [plan] := by
    intro plan input below compilable under step
    have none : input.postOrder.flatMap Plan.endedRuns = [] := by
      simpa [Plan.runEnds, under] using step
    rw [Plan.runEnds, plan.postOrder_eq, below]
    simp [none, Plan.endedRuns, compilable]
  induction plan with
  | scan id spec => simp [Plan.runEnds, Plan.postOrder, Plan.endedRuns, compilable]
  | filter id condition input step =>
    exact behind (.filter id condition input) input rfl compilable compilable (step compilable)
  | project id expressions input step =>
    exact behind (.project id expressions input) input rfl compilable compilable (step compilable)
  | root id input step | sort id columns ascending input step => cases compilable
  | join id condition left right leftStep rightStep => cases compilable

/-! ## Places -/

/-- The places after the units of these primary nodes have been taken. -/
def vacate (ids : List NodeId) (places : List Place) : List Place :=
  places.map fun place => if place.unit.primaryId ∈ ids then ⟨place.unit, none⟩ else place

section Places

variable {ids more : List NodeId} {places : List Place} {id : NodeId}

/-- Taking units changes no unit. -/
theorem uninvolved_vacate : Uninvolved id (vacate ids places) ↔ Uninvolved id places := by
  have same : ∀ place : Place,
      (if place.unit.primaryId ∈ ids then (⟨place.unit, none⟩ : Place) else place).unit =
        place.unit := by
    intro place
    split <;> rfl
  simp only [Uninvolved, vacate, List.forall_mem_map, same]

/-- Places whose primary nodes are others stay. -/
theorem vacate_of_ne (other : ∀ place ∈ places, place.unit.primaryId ∉ ids) :
    vacate ids places = places := by
  rw [vacate, List.map_congr_left fun place member => if_neg (other place member)]
  exact List.map_id' places

/-- Units are taken one after another. -/
theorem vacate_vacate : vacate more (vacate ids places) = vacate (ids ++ more) places := by
  rw [vacate, vacate, vacate, List.map_map]
  refine List.map_congr_left fun place _ => ?_
  by_cases first : place.unit.primaryId ∈ ids <;> by_cases second : place.unit.primaryId ∈ more <;>
    simp [first, second]

/-- The order in which units are taken does not matter. -/
theorem vacate_perm (perm : ids.Perm more) : vacate ids places = vacate more places :=
  List.map_congr_left fun place _ => by simp only [perm.mem_iff]

/-- One unit is taken. -/
theorem vacate_single {before after : List Place} {unit : CompiledUnit}
    {subject : Option UnitInstance} (free : Uninvolved id (before ++ after))
    (primary : unit.primaryId = id) :
    vacate [id] (before ++ ⟨unit, subject⟩ :: after) = before ++ ⟨unit, none⟩ :: after := by
  have first : vacate [id] before = before := vacate_of_ne fun place member same =>
    (free place (List.mem_append_left _ member)).2 (List.mem_singleton.1 same)
  have last : vacate [id] after = after := vacate_of_ne fun place member same =>
    (free place (List.mem_append_right _ member)).2 (List.mem_singleton.1 same)
  rw [vacate] at first last
  rw [vacate, List.map_append, List.map_cons, first, last]
  simp [primary]

end Places

/-- The units of the runs of a plan wait in their places, and are the occupants of their nodes. -/
structure Awaits (site : Site) (batchSize : Nat) (occupant : NodeId → Option UnitInstance)
    (plan : Plan) (places : List Place) : Prop where
  runs : ∀ run ∈ plan.runEnds, ∃ unit row steps before after,
    places = before ++ ⟨unit, some (.start unit batchSize)⟩ :: after ∧ Realizes run row steps unit ∧
      (∀ id ∈ run.runIds, Uninvolved id (before ++ after)) ∧
      occupant run.id = some (site.bound batchSize unit run.runGenerators)
  others : ∀ node ∈ plan.postOrder, node.isCompilable = false →
    occupant node.id = none ∧ Uninvolved node.id places
  apart : (plan.runEnds.map Plan.id).Nodup

namespace Awaits

variable {site : Site} {batchSize : Nat} {occupant : NodeId → Option UnitInstance}
  {plan input left right : Plan} {places : List Place} {id : NodeId} {condition : Option Expr}

/-- The runs of an input wait as well. -/
theorem ofInput (awaits : Awaits site batchSize occupant plan places)
    (below : plan.inputs = [input]) (stays : plan.isCompilable = false) :
    Awaits site batchSize occupant input places := by
  have ends := Plan.runEnds_of_inputs below stays
  refine ⟨ends ▸ awaits.runs, fun node member => awaits.others node ?_, ends ▸ awaits.apart⟩
  rw [plan.postOrder_eq, below]
  exact List.mem_append_left _ (by simpa using member)

/-- The runs on the left of a join wait. -/
theorem ofLeft (awaits : Awaits site batchSize occupant (.join id condition left right) places) :
    Awaits site batchSize occupant left places := by
  have ends := Plan.runEnds_join id condition left right
  have apart := (ends.map Plan.id).nodup_iff.1 awaits.apart
  rw [List.map_append, List.nodup_append] at apart
  refine ⟨fun run member => awaits.runs run (ends.mem_iff.2 (List.mem_append_left _ member)),
    fun node member => awaits.others node ?_, apart.1⟩
  exact List.mem_append_left _ (List.mem_append_left _ member)

/-- The runs on the right of a join still wait when those on the left have been taken. -/
theorem ofRight (awaits : Awaits site batchSize occupant (.join id condition left right) places) :
    Awaits site batchSize occupant right (vacate (left.runEnds.map Plan.id) places) := by
  have ends := Plan.runEnds_join id condition left right
  have apart := (ends.map Plan.id).nodup_iff.1 awaits.apart
  rw [List.map_append, List.nodup_append] at apart
  refine ⟨fun run member => ?_, fun node member stays => ?_, apart.2.1⟩
  · obtain ⟨unit, row, steps, before, after, split, realizes, free, occupied⟩ :=
      awaits.runs run (ends.mem_iff.2 (List.mem_append_right _ member))
    have kept : unit.primaryId ∉ left.runEnds.map Plan.id := by
      rw [realizes.parts.1]
      exact fun taken => apart.2.2 _ taken _ (List.mem_map_of_mem member) rfl
    refine ⟨unit, row, steps, vacate (left.runEnds.map Plan.id) before,
      vacate (left.runEnds.map Plan.id) after, ?_, realizes, fun id listed => ?_, occupied⟩
    · rw [split, vacate, List.map_append, List.map_cons, if_neg kept]
      rfl
    · have apart : vacate (left.runEnds.map Plan.id) before ++ vacate
        (left.runEnds.map Plan.id) after =
          vacate (left.runEnds.map Plan.id) (before ++ after) := List.map_append.symm
      rw [apart, uninvolved_vacate]
      exact free id listed
  · rw [uninvolved_vacate]
    refine awaits.others node ?_ stays
    exact List.mem_append_left _ (List.mem_append_right _ member)

/-- An interpreted node is not occupied. -/
theorem vacant (awaits : Awaits site batchSize occupant plan places)
    (stays : plan.isCompilable = false) : occupant plan.id = none ∧ Uninvolved plan.id places :=
  awaits.others plan plan.mem_postOrder stays

variable {executor : Executor}

/-- A run is built as its unit. -/
theorem builds_run (awaits : Awaits site batchSize occupant plan places)
    (compilable : plan.isCompilable = true) (built : site.interpreted plan = .ok executor) :
    ∃ enough, ∀ fuel, enough ≤ fuel → site.buildNode fuel plan (some ⟨places⟩) =
      pure (executor.substitute occupant, some ⟨vacate (plan.runEnds.map Plan.id) places⟩) := by
  have ends := Plan.runEnds_of_isCompilable compilable
  obtain ⟨unit, row, steps, before, after, rfl, realizes, free, occupied⟩ :=
    awaits.runs plan (ends ▸ List.mem_singleton_self _)
  obtain ⟨enough, run⟩ := @Site.buildNode_run site batchSize _ _ _ _ _ before after
    realizes built free
  have left := @vacate_single plan.id before after unit (some (.start unit batchSize))
    (free _ (Plan.id_mem_runIds compilable)) realizes.parts.1
  have taken : executor.substitute occupant = .compiled
      (site.bound batchSize unit plan.runGenerators) :=
    Executor.substitute_of_some (Site.interpreted_top built).2
      ((Site.interpreted_top built).1 ▸ occupied)
  refine ⟨enough, fun fuel more => ?_⟩
  rw [run fuel more, taken, ends, List.map_singleton, left]

/-- An interpreted node is built on what its input is built as. -/
theorem builds_unary (awaits : Awaits site batchSize occupant plan places)
    (stays : plan.isCompilable = false) (below : plan.inputs = [input]) (wrap : Executor → Executor)
    {producer : Executor} (named : (wrap (producer.substitute occupant)).id = plan.id)
    (inside : (wrap producer).substitute occupant =
      (occupant plan.id).elim (wrap (producer.substitute occupant)) .compiled)
    (build : ∀ fuel assembly rest producer, site.buildNode fuel input assembly =
      pure (producer, rest) →
      site.buildNode fuel plan assembly = Site.place fuel (wrap producer) rest)
    (step : ∃ enough, ∀ fuel, enough ≤ fuel → site.buildNode fuel input (some ⟨places⟩) =
      pure (producer.substitute occupant, some ⟨vacate (input.runEnds.map Plan.id) places⟩)) :
    ∃ enough, ∀ fuel, enough ≤ fuel → site.buildNode fuel plan (some ⟨places⟩) =
      pure ((wrap producer).substitute occupant,
        some ⟨vacate (plan.runEnds.map Plan.id) places⟩) := by
  obtain ⟨free, uninvolved⟩ := awaits.vacant stays
  obtain ⟨enough, ready⟩ := step
  refine ⟨enough, fun fuel more => ?_⟩
  rw [build fuel _ _ _ (ready fuel more), inside, free, Plan.runEnds_of_inputs below stays]
  refine Site.place_uninvolved ?_
  rw [named, uninvolved_vacate]
  exact uninvolved

/-- An interpreted join is built on what its inputs are built as, the left one first. -/
theorem builds_join (awaits : Awaits site batchSize occupant (.join id condition left right) places)
    {leftProducer rightProducer : Executor}
    (leftStep : ∃ enough, ∀ fuel, enough ≤ fuel → site.buildNode fuel left (some ⟨places⟩) =
      pure (leftProducer.substitute occupant, some ⟨vacate (left.runEnds.map Plan.id) places⟩))
    (rightStep : ∃ enough, ∀ fuel, enough ≤ fuel →
      site.buildNode fuel right (some ⟨vacate (left.runEnds.map Plan.id) places⟩) =
        pure (rightProducer.substitute occupant, some ⟨vacate (right.runEnds.map Plan.id)
          (vacate (left.runEnds.map Plan.id) places)⟩)) :
    ∃ enough, ∀ fuel, enough ≤ fuel →
      site.buildNode fuel (.join id condition left right) (some ⟨places⟩) =
        pure ((Executor.join ⟨id, condition, .start leftProducer, .start rightProducer, none, none,
          .empty site.batchSize⟩).substitute occupant,
          some ⟨vacate ((Plan.join id condition left right).runEnds.map Plan.id) places⟩) := by
  obtain ⟨free, uninvolved⟩ := awaits.vacant rfl
  obtain ⟨first, leftReady⟩ := leftStep
  obtain ⟨second, rightReady⟩ := rightStep
  have taken := @vacate_perm _ _ places
    ((Plan.runEnds_join id condition left right).map Plan.id)
  refine ⟨max first second, fun fuel more => ?_⟩
  rw [Site.buildNode, leftReady fuel (by omega)]
  show (site.buildNode fuel right (some ⟨vacate (left.runEnds.map Plan.id) places⟩) >>= _) = _
  rw [rightReady fuel (by omega), vacate_vacate, ← List.map_append, ← taken]
  have named : occupant id = none := free
  simp only [Feed.start, Executor.substitute, named, Option.elim_none]
  refine Site.place_uninvolved ?_
  rw [uninvolved_vacate]
  exact uninvolved

/-- With the units of its runs a plan is built as its interpreted graph with the units in place. -/
theorem builds (awaits : Awaits site batchSize occupant plan places)
    (built : site.interpreted plan = .ok executor) : ∃ enough, ∀ fuel, enough ≤ fuel →
      site.buildNode fuel plan (some ⟨places⟩) =
        pure (executor.substitute occupant, some ⟨vacate (plan.runEnds.map Plan.id) places⟩) := by
  induction plan generalizing executor places with
  | scan id spec =>
    cases compilable : (Plan.scan id spec).isCompilable with
    | true => exact awaits.builds_run compilable built
    | false =>
      obtain ⟨state, found, same⟩ := bind_eq_ok_iff.1 built
      cases same
      obtain ⟨free, uninvolved⟩ := awaits.vacant compilable
      have ends : (Plan.scan id spec).runEnds = [] := by
        simp [Plan.runEnds, Plan.postOrder, Plan.endedRuns, compilable, Plan.inputs]
      have kept : vacate [] places = places := vacate_of_ne fun _ _ => List.not_mem_nil
      have stays : (Executor.scan (.start id state site.batchSize)).substitute occupant =
          .scan (.start id state site.batchSize) := by
        rw [Executor.substitute, show occupant (Scan.start id state site.batchSize).id =
          none from free]
        rfl
      refine ⟨0, fun fuel _ => ?_⟩
      rw [Site.buildNode, found, ends, List.map_nil, kept, stays]
      exact Site.place_uninvolved uninvolved
  | filter id condition input step =>
    cases compilable : (Plan.filter id condition input).isCompilable with
    | true => exact awaits.builds_run compilable built
    | false =>
      obtain ⟨producer, below, same⟩ := bind_eq_ok_iff.1 built
      cases same
      refine awaits.builds_unary compilable rfl
        (fun producer => .filter ⟨id, condition, .start producer, .empty site.batchSize⟩) rfl ?_ ?_
        (step (awaits.ofInput rfl compilable) below)
      · simp only [Feed.start, Executor.substitute]
        rfl
      · intro fuel assembly rest producer ready
        rw [Site.buildNode, ready]
        rfl
  | project id expressions input step =>
    cases compilable : (Plan.project id expressions input).isCompilable with
    | true => exact awaits.builds_run compilable built
    | false =>
      obtain ⟨producer, below, same⟩ := bind_eq_ok_iff.1 built
      cases same
      refine awaits.builds_unary compilable rfl
        (fun producer => .project ⟨id, expressions, .start producer, .empty site.batchSize⟩) rfl ?_
          ?_
        (step (awaits.ofInput rfl compilable) below)
      · simp only [Feed.start, Executor.substitute]
        rfl
      · intro fuel assembly rest producer ready
        rw [Site.buildNode, ready]
        rfl
  | sort id columns ascending input step =>
    obtain ⟨producer, below, same⟩ := bind_eq_ok_iff.1 built
    cases same
    refine awaits.builds_unary rfl rfl
      (fun producer => .sorter ⟨id, columns, ascending, .start producer, none,
        .empty site.batchSize⟩) rfl ?_ ?_ (step (awaits.ofInput rfl rfl) below)
    · simp only [Feed.start, Executor.substitute]
      rfl
    · intro fuel assembly rest producer ready
      rw [Site.buildNode, ready]
      rfl
  | join id condition left right leftStep rightStep =>
    obtain ⟨leftProducer, leftBelow, rest⟩ := bind_eq_ok_iff.1 built
    obtain ⟨rightProducer, rightBelow, same⟩ := bind_eq_ok_iff.1 rest
    cases same
    exact awaits.builds_join (leftStep awaits.ofLeft leftBelow)
      (rightStep awaits.ofRight rightBelow)
  | root id input step =>
    obtain ⟨producer, -, same⟩ := bind_eq_ok_iff.1 built
    cases same

end Awaits

/-! ## What a graph holds -/

/-- The nodes of a run can be compiled. -/
theorem Plan.isCompilable_of_mem {plan node : Plan} (compilable : plan.isCompilable = true)
    (member : node ∈ plan.postOrder) : node.isCompilable = true := by
  induction plan with
  | scan id spec =>
    rw [List.mem_singleton.1 member]
    exact compilable
  | filter id condition input step | project id expressions input step =>
    rcases List.mem_append.1 member with inside | last
    · exact step compilable inside
    · rw [List.mem_singleton.1 last]
      exact compilable
  | root id input step | sort id columns ascending input step => cases compilable
  | join id condition left right leftStep rightStep => cases compilable

section Holding

variable {site : Site} {occupant : NodeId → Option UnitInstance} {plan : Plan} {executor : Executor}

/-- Every node of a plan has its interpreted executor. -/
theorem interpretedIds_interpreted (built : site.interpreted plan = .ok executor) :
    executor.interpretedIds = plan.postOrder.map Plan.id := by
  induction plan generalizing executor with
  | scan id spec =>
    obtain ⟨state, -, same⟩ := bind_eq_ok_iff.1 built
    cases same
    rfl
  | filter id condition input step | project id expressions input step
  | sort id columns ascending input step =>
    obtain ⟨producer, below, same⟩ := bind_eq_ok_iff.1 built
    cases same
    simp only [Feed.start, Executor.interpretedIds, step below, Plan.postOrder, List.map_append]
    rfl
  | root id input step =>
    obtain ⟨producer, -, same⟩ := bind_eq_ok_iff.1 built
    cases same
  | join id condition left right leftStep rightStep =>
    obtain ⟨leftProducer, leftBelow, rest⟩ := bind_eq_ok_iff.1 built
    obtain ⟨rightProducer, rightBelow, same⟩ := bind_eq_ok_iff.1 rest
    cases same
    simp only [Feed.start, Executor.interpretedIds, leftStep leftBelow, rightStep rightBelow,
      Plan.postOrder, List.map_append]
    rfl

/-- Exactly the ends of the runs of a plan are occupied. -/
structure Occupies (occupant : NodeId → Option UnitInstance) (plan : Plan) : Prop where
  ends : ∀ run ∈ plan.runEnds, occupant run.id ≠ none
  others : ∀ node ∈ plan.postOrder, node.isCompilable = false → occupant node.id = none

/-- The units in the places of the runs of a plan. -/
def occupants (occupant : NodeId → Option UnitInstance) (plan : Plan) : List CompiledUnit :=
  plan.runEnds.filterMap fun run => (occupant run.id).map UnitInstance.unit

/-- The interpreted nodes of a plan. -/
def interpretedNodes (plan : Plan) : List NodeId :=
  (plan.postOrder.filter fun node => !node.isCompilable).map Plan.id

/-- The ends of the runs whose units wait are occupied. -/
theorem Awaits.occupies {batchSize : Nat} {places : List Place}
    (awaits : Awaits site batchSize occupant plan places) : Occupies occupant plan := by
  refine ⟨fun run member none => ?_, fun node member stays => (awaits.others node member stays).1⟩
  obtain ⟨unit, row, steps, before, after, -, -, -, occupied⟩ := awaits.runs run member
  rw [none] at occupied
  cases occupied

/-- Above an interpreted node with one input the same ends of runs are occupied. -/
theorem Occupies.ofInput {input : Plan} (occupies : Occupies occupant plan)
    (below : plan.inputs = [input]) (stays : plan.isCompilable = false) :
    Occupies occupant input := by
  refine ⟨Plan.runEnds_of_inputs below stays ▸ occupies.ends, fun node member =>
    occupies.others node ?_⟩
  rw [plan.postOrder_eq, below]
  exact List.mem_append_left _ (by simpa using member)

/-- Each graph below a join has the units of its runs. -/
theorem Occupies.ofJoin {id : NodeId} {condition : Option Expr} {left right : Plan}
    (occupies : Occupies occupant (.join id condition left right)) :
    Occupies occupant left ∧ Occupies occupant right := by
  have ends := Plan.runEnds_join id condition left right
  refine ⟨⟨fun run member => occupies.ends run (ends.mem_iff.2 (List.mem_append_left _ member)),
    fun node member => occupies.others node ?_⟩,
    ⟨fun run member => occupies.ends run (ends.mem_iff.2 (List.mem_append_right _ member)),
    fun node member => occupies.others node ?_⟩⟩
  · exact List.mem_append_left _ (List.mem_append_left _ member)
  · exact List.mem_append_left _ (List.mem_append_right _ member)

/-- A graph with units in place has the unit of each run, and the executors of the other nodes. -/
def Holds (occupant : NodeId → Option UnitInstance) (plan : Plan) (executor : Executor) : Prop :=
  (executor.substitute occupant).units.Perm (occupants occupant plan) ∧
    (executor.substitute occupant).interpretedIds = interpretedNodes plan

/-- A run is one unit. -/
theorem Occupies.holds_run (occupies : Occupies occupant plan)
    (built : site.interpreted plan = .ok executor) (compilable : plan.isCompilable = true) :
    Holds occupant plan executor := by
  have ends := Plan.runEnds_of_isCompilable compilable
  obtain ⟨named, plain⟩ := Site.interpreted_top built
  obtain ⟨subject, occupied⟩ :=
    Option.ne_none_iff_exists'.1 (occupies.ends plan (ends ▸ List.mem_singleton_self _))
  have none : (plan.postOrder.filter fun node => !node.isCompilable) = [] := by
    rw [List.filter_eq_nil_iff]
    intro node member
    simp [Plan.isCompilable_of_mem compilable member]
  rw [Holds, Executor.substitute_of_some plain (named ▸ occupied), occupants, ends,
    interpretedNodes, none]
  simp only [Executor.units, Executor.interpretedIds, List.filterMap_cons, List.filterMap_nil,
    occupied, Option.map_some]
  exact ⟨.refl _, rfl⟩

/-- An interpreted node with one input is one more executor. -/
theorem Occupies.holds_unary {input : Plan} {producer : Executor}
    (occupies : Occupies occupant plan) (stays : plan.isCompilable = false)
    (below : plan.inputs = [input]) (step : Holds occupant input producer)
    (wrapped : occupant plan.id = none → (executor.substitute occupant).units =
        (producer.substitute occupant).units ∧ (executor.substitute occupant).interpretedIds =
          (producer.substitute occupant).interpretedIds ++ [plan.id]) :
    Holds occupant plan executor := by
  obtain ⟨units, ids⟩ := wrapped (occupies.others plan plan.mem_postOrder stays)
  have nodes : interpretedNodes plan = interpretedNodes input ++ [plan.id] := by
    rw [interpretedNodes, plan.postOrder_eq, below]
    simp [interpretedNodes, stays]
  have same : occupants occupant plan = occupants occupant input := by
    rw [occupants, Plan.runEnds_of_inputs below stays]
    rfl
  rw [Holds, units, ids, nodes, same, step.2]
  exact ⟨step.1, rfl⟩

/-- The graph of a plan with its units in place has each of them, and every other node. -/
theorem Occupies.holds (occupies : Occupies occupant plan)
    (built : site.interpreted plan = .ok executor) : Holds occupant plan executor := by
  induction plan generalizing executor with
  | scan id spec =>
    cases compilable : (Plan.scan id spec).isCompilable with
    | true => exact occupies.holds_run built compilable
    | false =>
      obtain ⟨state, -, same⟩ := bind_eq_ok_iff.1 built
      cases same
      have ends : (Plan.scan id spec).runEnds = [] := by
        simp [Plan.runEnds, Plan.postOrder, Plan.endedRuns, compilable, Plan.inputs]
      have free : occupant id = none := occupies.others _ (Plan.mem_postOrder _) compilable
      rw [Holds, occupants, ends, interpretedNodes]
      simp [Executor.substitute, Scan.start, free, Executor.units, Executor.interpretedIds,
        Plan.postOrder, compilable, Plan.id]
  | filter id condition input step =>
    cases compilable : (Plan.filter id condition input).isCompilable with
    | true => exact occupies.holds_run built compilable
    | false =>
      obtain ⟨producer, below, same⟩ := bind_eq_ok_iff.1 built
      cases same
      refine occupies.holds_unary compilable rfl (step (occupies.ofInput rfl compilable) below) ?_
      intro free
      have free : occupant id = none := free
      simp only [Feed.start, Executor.substitute, free]
      exact ⟨rfl, rfl⟩
  | project id expressions input step =>
    cases compilable : (Plan.project id expressions input).isCompilable with
    | true => exact occupies.holds_run built compilable
    | false =>
      obtain ⟨producer, below, same⟩ := bind_eq_ok_iff.1 built
      cases same
      refine occupies.holds_unary compilable rfl (step (occupies.ofInput rfl compilable) below) ?_
      intro free
      have free : occupant id = none := free
      simp only [Feed.start, Executor.substitute, free]
      exact ⟨rfl, rfl⟩
  | sort id columns ascending input step =>
    obtain ⟨producer, below, same⟩ := bind_eq_ok_iff.1 built
    cases same
    refine occupies.holds_unary rfl rfl (step (occupies.ofInput rfl rfl) below) ?_
    intro free
    have free : occupant id = none := free
    simp only [Feed.start, Executor.substitute, free]
    exact ⟨rfl, rfl⟩
  | join id condition left right leftStep rightStep =>
    obtain ⟨leftProducer, leftBelow, rest⟩ := bind_eq_ok_iff.1 built
    obtain ⟨rightProducer, rightBelow, same⟩ := bind_eq_ok_iff.1 rest
    cases same
    have free : occupant id = none := occupies.others _ (Plan.mem_postOrder _) rfl
    obtain ⟨leftUnits, leftIds⟩ := leftStep occupies.ofJoin.1 leftBelow
    obtain ⟨rightUnits, rightIds⟩ := rightStep occupies.ofJoin.2 rightBelow
    have units : (occupants occupant (.join id condition left right)).Perm
        (occupants occupant left ++ occupants occupant right) := by
      rw [occupants, occupants, occupants, ← List.filterMap_append]
      exact (Plan.runEnds_join id condition left right).filterMap _
    have nodes : interpretedNodes (.join id condition left right) =
        interpretedNodes left ++ interpretedNodes right ++ [id] := by
      simp [interpretedNodes, Plan.postOrder, Plan.isCompilable, Plan.id]
    simp only [Holds, Feed.start, Executor.substitute, free, Option.elim_none, Executor.units,
      Executor.interpretedIds, leftIds, rightIds, nodes, and_true]
    exact (leftUnits.append rightUnits).trans units.symm
  | root id input step =>
    obtain ⟨producer, -, same⟩ := bind_eq_ok_iff.1 built
    cases same

end Holding

/-! ## Templates -/

/-- The units of the runs of a plan. -/
structure Compiles (plan : Plan) (pairs : List (Plan × CompiledUnit)) : Prop where
  runs : pairs.map Prod.fst = plan.runEnds
  realizes : ∀ pair ∈ pairs, ∃ row steps, Realizes pair.1 row steps pair.2

/-- The instance at a node: the unit of the run that ends there, bound to the executors of the
run. -/
def Site.occupantOf (site : Site) (batchSize : Nat) (pairs : List (Plan × CompiledUnit))
    (id : NodeId) :
    Option UnitInstance :=
  (pairs.find? fun pair => pair.1.id == id).map fun pair =>
    site.bound batchSize pair.2 pair.1.runGenerators

/-- The places of new instances. -/
def placesOf (batchSize : Nat) (pairs : List (Plan × CompiledUnit)) : List Place :=
  pairs.map fun pair => ⟨pair.2, some (.start pair.2 batchSize)⟩

section Compiling

variable {site : Site} {batchSize : Nat} {plan : Plan} {pairs : List (Plan × CompiledUnit)}

/-- A node lies in a run exactly when it can be compiled. -/
theorem Plan.mem_runIds_iff (distinct : (plan.postOrder.map Plan.id).Nodup) {node : Plan}
    (member : node ∈ plan.postOrder) :
    (∃ run ∈ plan.runEnds, node.id ∈ run.runIds) ↔ node.isCompilable = true := by
  rw [← List.mem_flatMap, plan.runIds_perm.mem_iff, List.mem_map]
  constructor
  · rintro ⟨other, inside, same⟩
    obtain ⟨present, compilable⟩ := List.mem_filter.1 inside
    exact List.inj_on_of_nodup_map distinct present member same ▸ compilable
  · exact fun compilable => ⟨node, List.mem_filter.2 ⟨member, compilable⟩, rfl⟩

/-- The ends of the runs of a plan have different ids. -/
theorem Plan.runEnds_apart (distinct : (plan.postOrder.map Plan.id).Nodup) :
    (plan.runEnds.map Plan.id).Nodup := by
  have disjoint := (List.nodup_flatMap.1 (Plan.runIds_nodup distinct)).2
  rw [List.Nodup, List.pairwise_map]
  refine disjoint.imp_of_mem fun {first second} here there apart same => ?_
  have mine := Plan.id_mem_runIds (Plan.mem_runEnds here).1
  exact apart mine (same ▸ Plan.id_mem_runIds (Plan.mem_runEnds there).1)

/-- The instance at the end of a run is that of its unit. -/
theorem Compiles.occupant_eq (compiles : Compiles plan pairs)
    (distinct : (plan.postOrder.map Plan.id).Nodup) {pair : Plan × CompiledUnit}
    (member : pair ∈ pairs) : site.occupantOf batchSize pairs pair.1.id =
      some (site.bound batchSize pair.2 pair.1.runGenerators) := by
  have apart : (pairs.map fun pair => pair.1.id).Nodup := by
    have runs := Plan.runEnds_apart distinct
    rw [← compiles.runs, List.map_map] at runs
    exact runs
  cases found : pairs.find? fun other => other.1.id == pair.1.id with
  | none =>
    have differs := List.find?_eq_none.1 found pair member
    simp at differs
  | some other =>
    have same : other.1.id = pair.1.id := by simpa using List.find?_some found
    rw [Site.occupantOf, found,
      List.inj_on_of_nodup_map apart (List.mem_of_find?_eq_some found) member same]
    rfl

/-- Only ends of runs are occupied. -/
theorem Compiles.of_occupant {id : NodeId} {subject : UnitInstance} (compiles : Compiles plan pairs)
    (occupied : site.occupantOf batchSize pairs id = some subject) :
    ∃ run ∈ plan.runEnds, run.id = id := by
  obtain ⟨pair, found, -⟩ := Option.map_eq_some_iff.1 occupied
  refine ⟨pair.1, ?_, by simpa using List.find?_some found⟩
  rw [← compiles.runs]
  exact List.mem_map_of_mem (List.mem_of_find?_eq_some found)

/-- No unit of another run stands for a node of a run. -/
theorem Compiles.uninvolved (compiles : Compiles plan pairs) {others : List (Plan × CompiledUnit)}
    (part : ∀ pair ∈ others, pair ∈ pairs) {id : NodeId}
    (apart : ∀ pair ∈ others, id ∉ pair.1.runIds) : Uninvolved id (placesOf batchSize others) := by
  intro place member
  obtain ⟨pair, listed, rfl⟩ := List.mem_map.1 member
  obtain ⟨row, steps, realizes⟩ := compiles.realizes pair (part pair listed)
  have other := apart pair listed
  refine ⟨realizes.parts.2.1 ▸ other, ?_⟩
  rw [realizes.parts.1]
  rintro rfl
  exact other (Plan.id_mem_runIds realizes.run.compilable)

/-- New instances of the units of the runs of a plan wait for their executors. -/
theorem Compiles.awaits (compiles : Compiles plan pairs)
    (distinct : (plan.postOrder.map Plan.id).Nodup) :
    Awaits site batchSize (site.occupantOf batchSize pairs) plan (placesOf batchSize pairs) := by
  have ids : (pairs.flatMap fun pair => pair.1.runIds).Nodup := by
    have once := Plan.runIds_nodup distinct
    rw [← compiles.runs, List.flatMap_map] at once
    exact once
  refine ⟨fun run member => ?_, fun node member stays => ?_, Plan.runEnds_apart distinct⟩
  · rw [← compiles.runs] at member
    obtain ⟨⟨run, unit⟩, listed, rfl⟩ := List.mem_map.1 member
    obtain ⟨row, steps, realizes⟩ := compiles.realizes _ listed
    have occupied := @Compiles.occupant_eq site batchSize _ _ compiles distinct _ listed
    obtain ⟨before, after, split⟩ := List.append_of_mem listed
    refine ⟨unit, row, steps, placesOf batchSize before, placesOf batchSize after, ?_, realizes, ?_,
      occupied⟩
    · rw [split, placesOf, List.map_append]
      rfl
    · intro id inside
      rw [placesOf, placesOf, ← List.map_append]
      have front : pairs.Perm ((run, unit) :: (before ++ after)) := split ▸ List.perm_middle
      have once := (front.flatMap_right fun pair => pair.1.runIds).nodup_iff.1 ids
      rw [List.flatMap_cons, List.nodup_append] at once
      refine compiles.uninvolved (fun pair other => ?_) fun pair other there => ?_
      · exact front.mem_iff.2 (List.mem_cons_of_mem _ other)
      · exact once.2.2 _ inside _ (List.mem_flatMap.2 ⟨pair, other, there⟩) rfl
  · have free : ∀ run ∈ plan.runEnds, node.id ∉ run.runIds := by
      intro run listed inside
      have compilable := (Plan.mem_runIds_iff distinct member).1 ⟨run, listed, inside⟩
      rw [stays] at compilable
      cases compilable
    refine ⟨?_, compiles.uninvolved (fun _ listed => listed) fun pair listed => free pair.1 ?_⟩
    · rw [Option.eq_none_iff_forall_ne_some]
      intro subject occupied
      obtain ⟨run, listed, same⟩ := compiles.of_occupant occupied
      exact free run listed (same ▸ Plan.id_mem_runIds (Plan.mem_runEnds listed).1)
    · rw [← compiles.runs]
      exact List.mem_map_of_mem listed

/-- When all units have been taken, none remains. -/
theorem Compiles.remaining_eq (compiles : Compiles plan pairs) :
    Assembly.remaining ⟨vacate (plan.runEnds.map Plan.id) (placesOf batchSize pairs)⟩ = 0 := by
  rw [Assembly.remaining, List.length_eq_zero_iff, List.filter_eq_nil_iff]
  intro place member
  obtain ⟨waiting, there, rfl⟩ := List.mem_map.1 member
  obtain ⟨pair, listed, rfl⟩ := List.mem_map.1 there
  obtain ⟨row, steps, realizes⟩ := compiles.realizes pair listed
  have ends : pair.2.primaryId ∈ plan.runEnds.map Plan.id := by
    rw [realizes.parts.1, ← compiles.runs]
    exact List.mem_map_of_mem (List.mem_map_of_mem listed)
  simp [ends]

/-- With new instances of its units a plan is built as its interpreted graph with the units in
place. -/
theorem Compiles.build_eq {id : NodeId} {input : Plan} {producer : Executor}
    (compiles : Compiles (.root id input) pairs)
    (distinct : ((Plan.root id input).postOrder.map Plan.id).Nodup)
    (below : site.interpreted input = .ok producer) : ∃ enough, ∀ fuel, enough ≤ fuel →
      site.build fuel (.root id input) (some ⟨placesOf batchSize pairs⟩) =
        pure (.root id (producer.substitute (site.occupantOf batchSize pairs))) := by
  have awaits := @Compiles.awaits site batchSize _ _ compiles distinct
  obtain ⟨enough, ready⟩ := (awaits.ofInput rfl rfl).builds below
  have rest := @Compiles.remaining_eq batchSize _ _ compiles
  rw [Plan.runEnds_of_inputs rfl rfl] at rest
  refine ⟨enough, fun fuel more => ?_⟩
  rw [Site.build, ready fuel more]
  show (if Assembly.remaining _ > 0 then _ else _) = _
  rw [rest]
  rfl

/-- The units in the places of the runs of a plan are all of its units. -/
theorem Compiles.occupants_eq (compiles : Compiles plan pairs)
    (distinct : (plan.postOrder.map Plan.id).Nodup) :
    occupants (site.occupantOf batchSize pairs) plan = pairs.map Prod.snd := by
  rw [occupants, ← compiles.runs, List.filterMap_map]
  rw [← List.filterMap_eq_map]
  refine List.filterMap_congr fun pair member => ?_
  rw [Function.comp_apply, compiles.occupant_eq distinct member]
  rfl

end Compiling

open Generate (Fragment partition)

/-- The units that are compiled from the runs of a plan are theirs. -/
theorem compiles_of_units {runs : List Plan} (each : ∀ run ∈ runs, Generate.IsRun run)
    {units : List CompiledUnit}
    (compiled : Compiler.unitsFromScratch (runs.map Fragment.ofPlan) = .ok units) :
    ∃ pairs : List (Plan × CompiledUnit), pairs.map Prod.fst = runs ∧ pairs.map Prod.snd = units ∧
      ∀ pair ∈ pairs, ∃ row steps, Realizes pair.1 row steps pair.2 := by
  induction runs generalizing units with
  | nil =>
    cases compiled
    exact ⟨[], rfl, rfl, List.forall_mem_nil _⟩
  | cons run rest step =>
    rw [List.forall_mem_cons] at each
    obtain ⟨generated, written, compiled⟩ := bind_eq_ok_iff.1 compiled
    obtain ⟨unit, made, compiled⟩ := bind_eq_ok_iff.1 compiled
    obtain ⟨others, behind, same⟩ := bind_eq_ok_iff.1 compiled
    cases same
    obtain ⟨pairs, runs, units, realizes⟩ := step each.2 behind
    refine ⟨(run, unit) :: pairs, by rw [List.map_cons, runs], by rw [List.map_cons, units], ?_⟩
    exact List.forall_mem_cons.2 ⟨Generate.realizes_of_compile each.1 written made, realizes⟩

/-- The units of a template are those of the runs of its plan. -/
theorem compiles_of_tryTemplate {config : Config} {log : List CacheEvent} {compiler : Compiler}
    {tree : PlanTree}
    {template : Template} (history : Compiler.History config log compiler)
    (built : tree.Built)
    (found : (compiler.tryTemplate tree.root).1 = .ok (some template)) :
    ∃ pairs, Compiles tree.root pairs ∧ template.units = pairs.map Prod.snd := by
  rw [(history.tryTemplate tree.root).1, Compiler.templateFromScratch] at found
  split at found
  · obtain ⟨fragments, split, found⟩ := bind_eq_ok_iff.1 found
    have runs : ∀ fragment ∈ fragments, Generate.IsRun fragment.plan := fun fragment member =>
      (Generate.isRun_of_partition built split member).2
    rw [Generate.partition_eq] at split
    cases split
    split at found
    · cases found
    · obtain ⟨units, compiled, found⟩ := bind_eq_ok_iff.1 found
      obtain ⟨made, owned, same⟩ := bind_eq_ok_iff.1 found
      cases same
      obtain ⟨_, -, same⟩ := bind_eq_ok_iff.1 owned
      cases same
      rw [List.forall_mem_map] at runs
      obtain ⟨pairs, ends, units, realizes⟩ := compiles_of_units runs compiled
      exact ⟨pairs, ⟨ends, realizes⟩, units.symm⟩
  · cases found

/-- New instances of the units of a plan wait in the places of its runs. -/
theorem Template.instantiate_eq {template : Template} {pairs : List (Plan × CompiledUnit)}
    (units : template.units = pairs.map Prod.snd) :
    template.instantiate = ⟨placesOf template.batchSize pairs⟩ := by
  rw [Template.instantiate, units, List.map_map]
  rfl

/-- Units in the place of fragments of a graph. -/
structure Placed (graph : Executor) (fragments : List Fragment) (units : List CompiledUnit)
    (occupant : NodeId → Option UnitInstance) : Prop where
  /-- At the primary node of a fragment stands its unit, which has been bound to all of its
  nodes. -/
  bound : List.Forall₂ (fun fragment unit => ∃ subject, occupant fragment.primaryId = some subject ∧
    subject.unit = unit ∧ unit.primaryId = fragment.primaryId ∧
      unit.subsumedIds = fragment.subsumedIds ∧ subject.isBound = true) fragments units
  /-- No other node is replaced. -/
  only : ∀ id, occupant id ≠ none → ∃ fragment ∈ fragments, fragment.primaryId = id
  /-- Each unit stands at one place. -/
  once : (graph.substitute occupant).units.Perm units
  /-- Exactly the executors of the nodes outside of the fragments are left. -/
  others : (graph.substitute occupant).interpretedIds = graph.interpretedIds.filter fun id =>
    fragments.all fun fragment => !fragment.subsumedIds.contains id

/-- The units of the runs of a plan stand in the place of its fragments. -/
theorem Compiles.placed {site : Site} {id : NodeId} {input : Plan}
    {pairs : List (Plan × CompiledUnit)} {producer : Executor}
    (compiles : Compiles (.root id input) pairs)
    (distinct : ((Plan.root id input).postOrder.map Plan.id).Nodup) (batchSize : Nat)
    (below : site.interpreted input = .ok producer) :
    Placed (.root id producer) ((Plan.root id input).runEnds.map Fragment.ofPlan)
      (pairs.map Prod.snd) (site.occupantOf batchSize pairs) := by
  have awaits := @Compiles.awaits site batchSize _ _ compiles distinct
  have free : site.occupantOf batchSize pairs id = none := (awaits.vacant rfl).1
  obtain ⟨unitsHeld, idsHeld⟩ := (awaits.ofInput rfl rfl).occupies.holds below
  have subsumed : ∀ run ∈ (Plan.root id input).runEnds,
      (Fragment.ofPlan run).subsumedIds = run.runIds := fun run member =>
    Fragment.subsumedIds_ofPlan (Plan.mem_runEnds member).1
      ((List.nodup_flatMap.1 (Plan.runIds_nodup distinct)).1 run member)
  refine ⟨?_, fun other occupied => ?_, ?_, ?_⟩
  · have subsumed : ∀ pair ∈ pairs, (Fragment.ofPlan pair.1).subsumedIds = pair.1.runIds :=
      fun pair member => subsumed _ (compiles.runs ▸ List.mem_map_of_mem member)
    rw [← compiles.runs, List.map_map, List.forall₂_map_left_iff, List.forall₂_map_right_iff,
      List.forall₂_same]
    intro pair member
    obtain ⟨row, steps, realizes⟩ := compiles.realizes pair member
    refine ⟨_, compiles.occupant_eq distinct member, rfl, realizes.parts.1, ?_,
      Site.isBound_bound realizes⟩
    rw [realizes.parts.2.1]
    exact (subsumed pair member).symm
  · obtain ⟨subject, occupied⟩ := Option.ne_none_iff_exists'.1 occupied
    obtain ⟨run, member, same⟩ := compiles.of_occupant occupied
    exact ⟨_, List.mem_map_of_mem member, same⟩
  · rw [Executor.substitute, free, ← @Compiles.occupants_eq site batchSize _ _ compiles distinct,
      occupants, Plan.runEnds_of_inputs rfl rfl]
    exact unitsHeld
  · have outside : ∀ node ∈ (Plan.root id input).postOrder,
        (((Plan.root id input).runEnds.map Fragment.ofPlan).all fun fragment =>
          !fragment.subsumedIds.contains node.id) = !node.isCompilable := by
      intro node member
      rw [Bool.eq_iff_iff, List.all_eq_true, List.forall_mem_map, Bool.not_eq_true',
        Bool.eq_false_iff, ne_eq, ← Plan.mem_runIds_iff distinct member]
      simp only [not_exists, not_and, Bool.not_eq_true', List.contains_eq_mem,
        decide_eq_false_iff_not]
      exact forall₂_congr fun run listed => by rw [subsumed run listed]
    have nodes : (Executor.root id producer).interpretedIds = (Plan.root id input).postOrder.map
        Plan.id := by
      simp [Executor.interpretedIds, interpretedIds_interpreted below, Plan.postOrder, Plan.id]
    rw [nodes, List.filter_map, Executor.substitute, free]
    simp only [Option.elim_none, Executor.interpretedIds, idsHeld, interpretedNodes]
    have congruent := List.filter_congr outside
    rw [Function.comp_def, congruent]
    simp [Plan.postOrder, Plan.isCompilable, Plan.id]

/-- With new instances of the units of a template the graph of a plan is the interpreted one with
each unit in the place of the executors of its fragment, and no unit is left over. -/
theorem units_replace_fragments {config : Config} {log : List CacheEvent} {compiler : Compiler}
    {tree : PlanTree}
    {template : Template} {site : Site} {fuel : Nat} {graph : Executor}
    (history : Compiler.History config log compiler) (built : tree.Built)
    (found : (compiler.tryTemplate tree.root).1 = .ok (some template))
    (interpreted : site.build fuel tree.root none = pure graph) :
    ∃ fragments occupant, partition tree.root = .ok fragments ∧
      Placed graph fragments template.units occupant ∧ ∃ enough, ∀ fuel, enough ≤ fuel →
        site.build fuel tree.root (some template.instantiate) = pure (graph.substitute occupant) ∧
        ∃ id input producer rest, tree.root = .root id input ∧
          site.buildNode fuel input (some template.instantiate) = pure (producer, some rest) ∧
          rest.remaining = 0 := by
  obtain ⟨pairs, compiles, units⟩ := compiles_of_tryTemplate history built found
  have distinct := built.sound.distinct
  obtain ⟨id, input, producer, _, whole, rfl, top⟩ := Site.root_of_build interpreted
  have below := (Site.buildNode_none_eq_pure_iff.1 top).1
  have awaits := @Compiles.awaits site template.batchSize _ _ compiles distinct
  have stays : tree.root.isCompilable = false := whole ▸ rfl
  have inputs : tree.root.inputs = [input] := whole ▸ rfl
  have ends : input.runEnds = tree.root.runEnds := (Plan.runEnds_of_inputs inputs stays).symm
  have free : site.occupantOf template.batchSize pairs id = none := by
    have vacant := (awaits.vacant stays).1
    rwa [whole] at vacant
  have replaced : (Executor.root id producer).substitute
    (site.occupantOf template.batchSize pairs) =
      .root id (producer.substitute (site.occupantOf template.batchSize pairs)) := by
    rw [Executor.substitute, free]
    rfl
  refine ⟨_, site.occupantOf template.batchSize pairs, Generate.partition_eq tree.root,
    ?_, ?_⟩
  · rw [whole] at compiles distinct ⊢
    rw [units]
    exact compiles.placed distinct template.batchSize below
  · obtain ⟨enough, ready⟩ := (awaits.ofInput inputs stays).builds below
    have start := Template.instantiate_eq units
    have rest := @Compiles.remaining_eq template.batchSize _ _ compiles
    rw [← ends] at rest
    refine ⟨enough, fun fuel more => ⟨?_, id, input, _, _, whole, start ▸ ready fuel more, rest⟩⟩
    rw [whole, Site.build, start, ready fuel more, replaced]
    show (if Assembly.remaining _ > 0 then _ else _) = _
    rw [rest]
    rfl

/-- A site with a map of the name that a half compiled plan scans. -/
def peopleSite : Site :=
  ⟨Catalog.empty.register (.empty "people" 1), 4⟩

/-- The run of a half compiled plan. -/
def peopleRun : Plan :=
  .filter 2 (.isNull (.column 0 .int)) (.scan 1 (Generate.keyScan "Person"))

/-- A run over one field is compiled unless one of its conditions is an object of no known class. -/
theorem compile_single {run : Plan} (isRun : Generate.IsRun run) (narrow : run.Narrow)
    (single : run.scanFields.length ≤ 1) (plain : .scalar .object ∉ run.conditionTypes) :
    ∃ generated unit, (Fragment.ofPlan run).generate = .ok generated ∧
      generated.compile = .ok unit := by
  have calm : ¬ run.FieldsClash := by
    intro clash
    obtain ⟨earlier, later, path, other, type, otherType, field, before, second, -, -⟩ :=
      clash.called
    obtain ⟨inside, -⟩ := List.getElem?_eq_some_iff.1 second
    omega
  obtain ⟨generated, written⟩ :=
    (Generate.generate_ofPlan_ok_iff isRun.compilable isRun.apart).2 calm
  obtain ⟨unit, made⟩ := (Generate.compile_ok_iff isRun narrow written).2 plain
  exact ⟨generated, unit, written, made⟩

/-- The run can be compiled. -/
theorem compile_peopleRun : ∃ generated unit, (Fragment.ofPlan peopleRun).generate = .ok generated ∧
    generated.compile = .ok unit := by
  have ids : peopleRun.runIds = [1, 2] := rfl
  exact compile_single ⟨by decide +kernel, by decide, by simp [ids]⟩ trivial (by decide) (by decide)

/-- It is the only run of the half compiled plan. -/
theorem runEnds_halfCompiled : Generate.halfCompiled.runEnds = [peopleRun] := by
  have first : (Generate.checkScan (Generate.keyScan "Person")).isOk = true := by decide +kernel
  have second : (Generate.checkScan (Generate.keyScan "1st")).isOk = false := by decide +kernel
  simp [Generate.halfCompiled, Plan.runEnds, Plan.postOrder, Plan.endedRuns, Plan.inputs,
    Plan.isCompilable, first, second, peopleRun]

/-- The half compiled plan has one fragment. -/
theorem partition_halfCompiled :
    partition Generate.halfCompiled = .ok [Fragment.ofPlan peopleRun] := by
  rw [Generate.partition_eq, runEnds_halfCompiled]
  rfl

/-- A plan with one run, whose unit is compiled, has a template. -/
theorem exists_template {plan run : Plan} (ends : plan.runEnds = [run])
    {generated : Generate.GeneratedUnit} (written : (Fragment.ofPlan run).generate = .ok generated)
    {unit : CompiledUnit} (made : generated.compile = .ok unit) : ∃ template,
      ((Compiler.start .standard).tryTemplate plan).1 = .ok (some template) := by
  have units : Compiler.unitsFromScratch [Fragment.ofPlan run] = .ok [unit] := by
    rw [Compiler.unitsFromScratch, written, ok_bind, made]
    rfl
  have owned : Template.conflict? [] unit.subsumedIds = none := by
    induction unit.subsumedIds with
    | nil => rfl
    | cons id rest step => exact step
  refine ⟨⟨[unit], max Config.standard.effectiveBatchSize 1⟩, ?_⟩
  rw [(Compiler.History.start.tryTemplate plan).1, Compiler.templateFromScratch,
    Generate.partition_eq, ends, ok_bind]
  show (Compiler.unitsFromScratch [Fragment.ofPlan run] >>= _) = _
  rw [units, ok_bind, Template.ofUnits, Template.checkOwners, owned]
  rfl

/-- A plan whose only run is that of a half compiled plan has a template. -/
theorem tryTemplate_peopleRun {plan : Plan} (ends : plan.runEnds = [peopleRun]) : ∃ template,
    ((Compiler.start .standard).tryTemplate plan).1 = .ok (some template) := by
  obtain ⟨generated, unit, written, made⟩ := compile_peopleRun
  exact exists_template ends written made

/-- The scan with a filter in a half compiled plan is replaced by a unit. -/
theorem units_replace_fragments_halfCompiled : ∃ tree template graph fragments occupant,
    PlanTree.ofNodes
        [(1, .scan (Generate.keyScan "Person"), []), (3, .scan (Generate.keyScan "1st"), []),
         (2, .filter (.isNull (.column 0 .int)), [1]), (4, .join none, [2, 3]), (9, .root, [4])]
        9 = .ok tree ∧
      ((Compiler.start .standard).tryTemplate tree.root).1 = .ok (some template) ∧
      peopleSite.build 0 tree.root none = pure graph ∧
      partition tree.root = .ok fragments ∧ Placed graph fragments template.units occupant ∧
      ∃ enough, ∀ fuel, enough ≤ fuel →
        peopleSite.build fuel tree.root (some template.instantiate) =
          pure (graph.substitute occupant) := by
  obtain ⟨graph, interpreted⟩ : ∃ graph,
      peopleSite.build 0 Generate.halfCompiled none = pure graph := ⟨_, rfl⟩
  obtain ⟨template, found⟩ := tryTemplate_peopleRun runEnds_halfCompiled
  obtain ⟨fragments, occupant, split, placed, enough, builds⟩ :=
    units_replace_fragments .start Generate.built_halfCompiled found interpreted
  exact ⟨_, template, graph, fragments, occupant, Generate.ofNodes_halfCompiled, found, interpreted,
    split, placed, enough, fun fuel more => (builds fuel more).1⟩

end QueryFusion
