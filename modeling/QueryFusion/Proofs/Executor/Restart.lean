import QueryFusion.Proofs.Executor.Placement
import QueryFusion.Proofs.Executor.Sameness
import QueryFusion.Proofs.Generate.Restarting

/-!
# Restarting executors

Setting up an executor puts every part that a step may have moved back to its start: cursors are
opened anew, feeds forget their rows, a sort and a join forget what they have read. The parts that
are not put back are those that no step moves, and the rows left in a batch, which the next step
clears. So after a setup that succeeds a graph takes the steps of a new one, whatever has been done
with it before.
-/

namespace QueryFusion

open Script (CompiledUnit UnitInstance Contents)
open Generate (Generator Realizes StateVariable VariableKind registryOf Supplied)
open Emit (Local)

/-! ## What a bound unit holds -/

/-- No executor exposes a cursor. -/
theorem Generate.VariableKind.exposed_plain (state : ExecutorState) (kind : VariableKind) :
    (kind.exposed state).IsPlain := by
  unfold VariableKind.exposed
  split <;> try exact fun _ => rfl
  split <;> exact fun _ => rfl

/-- What fits the type of a variable is set. -/
theorem Generate.VariableKind.ne_unset_of_fits {count : Nat} {slot : Script.Slot}
    {kind : VariableKind} (fits : slot.Fits count kind.ty) : slot ≠ .unset := by
  rintro rfl
  cases kind <;> cases fits.1

namespace Site

section Contents

variable {site : Site} {plan : Plan} {row : List Local} {steps : List Generate.RowStep}
  {unit : CompiledUnit} {executor : Executor}

/-- The fields that are bound have different names. -/
theorem exposures_apart {generators : List Generator}
    (apart : ((generators.flatMap Generator.stateVariables).map StateVariable.name).Nodup) :
    ((generators.flatMap fun generator =>
      generator.exposures (generator.stateAt site)).map Prod.fst).Nodup := by
  refine apart.sublist ?_
  rw [List.map_flatMap, List.map_flatMap]
  refine List.Sublist.flatMap_right _ fun generator _ => ?_
  rw [Generator.exposures, List.map_map]
  exact List.filter_sublist.map StateVariable.name

/-- A variable that is bound holds what the executor of its node exposes. -/
theorem contents_of_mem {generators : List Generator} {generator : Generator}
    {entry : StateVariable}
    (apart : ((generators.flatMap Generator.stateVariables).map StateVariable.name).Nodup)
    (node : generator ∈ generators) (own : entry ∈ generator.stateVariables)
    (bound : entry.hasPrepare = true) :
    site.contents generators entry.name = entry.kind.exposed (generator.stateAt site) := by
  refine Contents.assignAll_of_mem (exposures_apart apart)
    (List.mem_flatMap.2 ⟨generator, node, ?_⟩)
  exact List.mem_map.2 ⟨entry, List.mem_filter.2 ⟨own, bound⟩, rfl⟩

/-- A field that is bound to a part of the scan of a run holds that part. -/
theorem contents_scan (realizes : Realizes plan row steps unit) {spec : ScanSpec}
    {state : ScanState} (member : Generator.scan plan.leafId spec ∈ plan.runGenerators)
    (exposed : (Generator.scan plan.leafId spec).stateAt site = .scan state) :
    ∀ pair ∈ Generate.scanBindings,
      site.contents plan.runGenerators (pair.1.fieldOf plan.leafId) =
        pair.1.exposed (.scan state) := by
  intro pair listed
  have own : (⟨plan.leafId, pair.1, .bound pair.2.name⟩ : StateVariable) ∈
      (Generator.scan plan.leafId spec).stateVariables :=
    List.mem_append_left _ (List.mem_map.2 ⟨pair, listed, rfl⟩)
  have apart := Generate.declared_apart realizes.run.compilable realizes.run.apart
  have content := @contents_of_mem site _ _ _ apart member own rfl
  rwa [exposed] at content

/-- No field of a bound unit names a cursor. -/
theorem contents_plain (generators : List Generator) (name : String) :
    (site.contents generators name).IsPlain := by
  rcases Contents.assignAll_cases (fun _ => .unset)
    (generators.flatMap fun generator => generator.exposures (generator.stateAt site)) name with
    unset | set
  · rw [contents, unset]
    exact fun _ => rfl
  · obtain ⟨generator, -, exposed⟩ := List.mem_flatMap.1 set
    obtain ⟨entry, -, same⟩ := List.mem_map.1 exposed
    rw [contents, ← (Prod.mk.inj same).2]
    exact VariableKind.exposed_plain _ _

/-- A unit that has been bound to the executors of a run is supplied with the map of its scan. -/
theorem supplied (realizes : Realizes plan row steps unit)
    (built : site.interpreted plan = .ok executor) : ∃ state : ScanState,
      Supplied plan (site.contents plan.runGenerators) state.map state.partitions := by
  have compilable := realizes.run.compilable
  have suits := suits_of_interpreted compilable built
  obtain ⟨spec, member⟩ := Plan.exists_leaf compilable
  obtain ⟨state, exposed⟩ : ∃ state, (Generator.scan plan.leafId spec).stateAt site =
      .scan state := by
    obtain ⟨kind, here⟩ := suits _ member
    cases shape : (Generator.scan plan.leafId spec).stateAt site with
    | scan state => exact ⟨state, rfl⟩
    | _ =>
      rw [shape] at here
      cases here
  have held := contents_scan realizes member exposed
  have set : ∀ entry ∈ (registryOf plan).declared, entry.hasPrepare = true →
      site.contents plan.runGenerators entry.name ≠ .unset := by
    intro entry listed bound
    obtain ⟨generator, inside, own⟩ := List.mem_flatMap.1 listed
    obtain ⟨kind, here⟩ := suits generator inside
    rw [contents_of_mem (Generate.declared_apart compilable realizes.run.apart) inside own bound]
    exact Generate.VariableKind.ne_unset_of_fits (here.exposed_fits own bound 0)
  refine ⟨state, held (.scanMap, .scanMap) ?_, held (.scanPartitions, .scanPartitions) ?_,
    contents_fit suits, contents_plain _, set⟩
  · decide
  · decide

/-- A unit that has been bound to the executors of a run is new. -/
theorem bound_worn (realizes : Realizes plan row steps unit)
    (built : site.interpreted plan = .ok executor) (batchSize : Nat) :
    Generate.Worn (site.bound batchSize unit plan.runGenerators)
      (site.bound batchSize unit plan.runGenerators) := by
  obtain ⟨state, supplied⟩ := site.supplied realizes built
  refine .refl realizes supplied fun id member => ?_
  rw [List.mem_reverse, map_id_runGenerators realizes.run.compilable]
  exact realizes.parts.2.1 ▸ member

end Contents

end Site

/-! ## Executors that go on alike -/

namespace Executor

/-- Executors that have been set up and stand at the same place: they differ in the rows left in
their batches at most, and compiled units also in the numbers of their cursors. -/
inductive Alike : Executor → Executor → Prop
  | replay (source : Replay) : Alike (.replay source) (.replay source)
  | scan {first second : Scan} (same : first.Same second) : Alike (.scan first) (.scan second)
  | filter {id : NodeId} {condition : Expr} {first second : Executor} {pending : List Row}
      {finished : Bool} {batch other : RowBatch} (inputs : Alike first second)
      (capacity : batch.capacity = other.capacity) :
      Alike (.filter ⟨id, condition, ⟨first, pending, finished⟩, batch⟩)
        (.filter ⟨id, condition, ⟨second, pending, finished⟩, other⟩)
  | project {id : NodeId} {expressions : List Expr} {first second : Executor} {pending : List Row}
      {finished : Bool} {batch other : RowBatch} (inputs : Alike first second)
      (capacity : batch.capacity = other.capacity) :
      Alike (.project ⟨id, expressions, ⟨first, pending, finished⟩, batch⟩)
        (.project ⟨id, expressions, ⟨second, pending, finished⟩, other⟩)
  | sorter {id : NodeId} {columns : List Nat} {ascending : List Bool} {first second : Executor}
      {pending : List Row} {finished : Bool} {sorted : Option (List Row)} {batch other : RowBatch}
      (inputs : Alike first second) (capacity : batch.capacity = other.capacity) :
      Alike (.sorter ⟨id, columns, ascending, ⟨first, pending, finished⟩, sorted, batch⟩)
        (.sorter ⟨id, columns, ascending, ⟨second, pending, finished⟩, sorted, other⟩)
  | join {id : NodeId} {condition : Option Expr}
      {firstLeft firstRight secondLeft secondRight : Executor}
      {leftPending rightPending : List Row} {leftFinished rightFinished : Bool}
      {rightRows : Option (List Row)} {current : Option (Row × List Row)} {batch other : RowBatch}
      (lefts : Alike firstLeft secondLeft) (rights : Alike firstRight secondRight)
      (capacity : batch.capacity = other.capacity) :
      Alike (.join ⟨id, condition, ⟨firstLeft, leftPending, leftFinished⟩,
          ⟨firstRight, rightPending, rightFinished⟩, rightRows, current, batch⟩)
        (.join ⟨id, condition, ⟨secondLeft, leftPending, leftFinished⟩,
          ⟨secondRight, rightPending, rightFinished⟩, rightRows, current, other⟩)
  | root (id : NodeId) {first second : Executor} (inputs : Alike first second) :
      Alike (.root id first) (.root id second)
  | compiled {first second : UnitInstance} (same : first.Alike second) :
      Alike (.compiled first) (.compiled second)

namespace Alike

/-- Filters that do the same. -/
theorem ofFilter {first second : Filter Executor} (same : Filter.Same Alike first second) :
    Alike (.filter first) (.filter second) := by
  obtain ⟨id, condition, ⟨producer, pending, finished⟩, batch⟩ := first
  obtain ⟨rfl, rfl, ⟨inputs, rfl, rfl⟩, capacity⟩ := same
  exact .filter inputs capacity

/-- Projections that do the same. -/
theorem ofProject {first second : Project Executor} (same : Project.Same Alike first second) :
    Alike (.project first) (.project second) := by
  obtain ⟨id, expressions, ⟨producer, pending, finished⟩, batch⟩ := first
  obtain ⟨rfl, rfl, ⟨inputs, rfl, rfl⟩, capacity⟩ := same
  exact .project inputs capacity

/-- Sorts that do the same. -/
theorem ofSorter {first second : Sorter Executor} (same : Sorter.Same Alike first second) :
    Alike (.sorter first) (.sorter second) := by
  obtain ⟨id, columns, ascending, ⟨producer, pending, finished⟩, sorted, batch⟩ := first
  obtain ⟨rfl, rfl, rfl, ⟨inputs, rfl, rfl⟩, rfl, capacity⟩ := same
  exact .sorter inputs capacity

/-- Joins that do the same. -/
theorem ofJoin {first second : Join Executor} (same : Join.Same Alike Alike first second) :
    Alike (.join first) (.join second) := by
  obtain ⟨id, condition, ⟨left, leftPending, leftFinished⟩, ⟨right, rightPending, rightFinished⟩,
    rightRows, current, batch⟩ := first
  obtain ⟨rfl, rfl, ⟨lefts, rfl, rfl⟩, ⟨rights, rfl, rfl⟩, rfl, rfl, capacity⟩ := same
  exact .join lefts rights capacity

end Alike

/-- Such executors take the same steps, and show the same rows then. -/
theorem Alike.advance {first second : Executor} (alike : Alike first second) (fuel : Nat) :
    Step.Same (fun next other => Alike next other ∧ next.rows = other.rows)
      (Executor.advance fuel first) (Executor.advance fuel second) := by
  induction fuel generalizing first second with
  | zero => exact .none
  | succ fuel step =>
    have supplies : Supply.Same Alike ⟨Executor.advance fuel, rows⟩ ⟨Executor.advance fuel, rows⟩ :=
      fun left right inputs => step inputs
    rw [Executor.advance.eq_def, Executor.advance.eq_def]
    cases alike with
    | replay source => exact .some ⟨.replay _, rfl⟩
    | scan same =>
      exact (Scan.advance_same same fuel).embed fun next other states =>
        ⟨.scan states.1, congrArg RowBatch.rows states.2⟩
    | filter inputs capacity =>
      refine (Filter.advance_same supplies ?_ fuel).embed fun next other states =>
        ⟨.ofFilter states.1, congrArg RowBatch.rows states.2⟩
      exact ⟨rfl, rfl, ⟨inputs, rfl, rfl⟩, capacity⟩
    | project inputs capacity =>
      refine (Project.advance_same supplies ?_ fuel).embed fun next other states =>
        ⟨.ofProject states.1, congrArg RowBatch.rows states.2⟩
      exact ⟨rfl, rfl, ⟨inputs, rfl, rfl⟩, capacity⟩
    | sorter inputs capacity =>
      refine (Sorter.advance_same supplies ?_ fuel).embed fun next other states =>
        ⟨.ofSorter states.1, congrArg RowBatch.rows states.2⟩
      exact ⟨rfl, rfl, rfl, ⟨inputs, rfl, rfl⟩, rfl, capacity⟩
    | join lefts rights capacity =>
      refine (Join.advance_same supplies supplies ?_ fuel).embed fun next other states =>
        ⟨.ofJoin states.1, congrArg RowBatch.rows states.2⟩
      exact ⟨rfl, rfl, ⟨lefts, rfl, rfl⟩, ⟨rights, rfl, rfl⟩, rfl, rfl, capacity⟩
    | root id inputs =>
      exact (step inputs).embed fun next other states => ⟨.root id states.1, states.2⟩
    | compiled same =>
      exact (same.advance fuel).embed fun next other states => ⟨.compiled states.1, states.2⟩

/-- The outcomes of the next steps, each with the rows that are shown then; none when the fuel for a
step runs out. -/
def outcomes (fuel : Nat) : Nat → Executor → Option (List (Except Error Progress × List Row))
  | 0, _ => some []
  | count + 1, executor =>
    match executor.advance fuel with
    | none => none
    | some (outcome, next) => (outcomes fuel count next).map ((outcome, next.rows) :: ·)

/-- Such executors have the same outcomes for ever. -/
theorem Alike.outcomes_eq {first second : Executor} (alike : Alike first second)
    (fuel count : Nat) :
    outcomes fuel count second = outcomes fuel count first := by
  induction count generalizing first second with
  | zero => rfl
  | succ count step =>
    rw [outcomes, outcomes]
    rcases (alike.advance fuel).cases with ⟨dry, also⟩ | ⟨outcome, next, other, done, also,
      states, rows⟩
    · rw [dry, also]
    · rw [done, also]
      dsimp only
      rw [step states, rows]

/-! ## Executors that have been used -/

/-- What becomes of an executor that is set up and advanced: the parts that no step moves are
kept. -/
inductive Worn : Executor → Executor → Prop
  | replay {id : NodeId} {batches : List (List Row)} {failAt : Option Nat} {position other : Nat}
      {current last : List Row} :
      Worn (.replay ⟨id, batches, failAt, position, current⟩)
        (.replay ⟨id, batches, failAt, other, last⟩)
  | scan {id : NodeId} {state : ScanState} {cursor other : Option Cursor} {batch used : RowBatch}
      (capacity : used.capacity = batch.capacity) :
      Worn (.scan ⟨id, state, cursor, batch⟩) (.scan ⟨id, state, other, used⟩)
  | filter {id : NodeId} {condition : Expr} {input other : Feed Executor} {batch used : RowBatch}
      (inputs : Worn input.producer other.producer) (capacity : used.capacity = batch.capacity) :
      Worn (.filter ⟨id, condition, input, batch⟩) (.filter ⟨id, condition, other, used⟩)
  | project {id : NodeId} {expressions : List Expr} {input other : Feed Executor}
      {batch used : RowBatch} (inputs : Worn input.producer other.producer)
      (capacity : used.capacity = batch.capacity) :
      Worn (.project ⟨id, expressions, input, batch⟩) (.project ⟨id, expressions, other, used⟩)
  | sorter {id : NodeId} {columns : List Nat} {ascending : List Bool} {input other : Feed Executor}
      {sorted left : Option (List Row)} {batch used : RowBatch}
      (inputs : Worn input.producer other.producer) (capacity : used.capacity = batch.capacity) :
      Worn (.sorter ⟨id, columns, ascending, input, sorted, batch⟩)
        (.sorter ⟨id, columns, ascending, other, left, used⟩)
  | join {id : NodeId} {condition : Option Expr} {left right otherLeft otherRight : Feed Executor}
      {rightRows otherRows : Option (List Row)} {current last : Option (Row × List Row)}
      {batch used : RowBatch} (lefts : Worn left.producer otherLeft.producer)
      (rights : Worn right.producer otherRight.producer)
      (capacity : used.capacity = batch.capacity) :
      Worn (.join ⟨id, condition, left, right, rightRows, current, batch⟩)
        (.join ⟨id, condition, otherLeft, otherRight, otherRows, last, used⟩)
  | root (id : NodeId) {input other : Executor} (inputs : Worn input other) :
      Worn (.root id input) (.root id other)
  | compiled {fresh worn : UnitInstance} (bound : Generate.Worn fresh worn) :
      Worn (.compiled fresh) (.compiled worn)

section Wearing

variable {fresh worn next : Executor} {fuel : Nat} {context : Context}

/-- Advancing an executor leaves it worn. -/
theorem Worn.advance (wears : Worn fresh worn) {outcome : Except Error Progress}
    (done : Executor.advance fuel worn = some (outcome, next)) : Worn fresh next := by
  induction fuel generalizing fresh worn next outcome with
  | zero => cases done
  | succ fuel step =>
    -- A feed that pulls from a worn producer keeps one, as its steps are the same as themselves.
    have keeps : ∀ fresh : Executor, Supply.Same (fun left right => left = right ∧ Worn fresh left)
        ⟨Executor.advance fuel, rows⟩ ⟨Executor.advance fuel, rows⟩ := by
      rintro fresh left _ ⟨rfl, inputs⟩
      exact .refl fun outcome state advanced => ⟨⟨rfl, step inputs advanced⟩, rfl⟩
    rw [Executor.advance.eq_def] at done
    cases wears with
    | replay =>
      cases done
      unfold Replay.advance
      split <;> exact .replay
    | scan capacity =>
      obtain ⟨state, advanced, rfl⟩ := Step.embed_eq_iff.1 done
      obtain ⟨rfl, rfl, size⟩ := Scan.advance_keeps advanced
      exact .scan (size.trans capacity)
    | filter inputs capacity =>
      obtain ⟨state, advanced, rfl⟩ := Step.embed_eq_iff.1 done
      obtain ⟨rfl, rfl, size⟩ := Filter.advance_keeps advanced
      have states := (Filter.advance_same (keeps _)
        ⟨rfl, rfl, ⟨⟨rfl, inputs⟩, rfl, rfl⟩, rfl⟩ fuel).leaves advanced
      exact .filter states.1.input.producers.2 (size.trans capacity)
    | project inputs capacity =>
      obtain ⟨state, advanced, rfl⟩ := Step.embed_eq_iff.1 done
      obtain ⟨rfl, rfl, size⟩ := Project.advance_keeps advanced
      have states := (Project.advance_same (keeps _)
        ⟨rfl, rfl, ⟨⟨rfl, inputs⟩, rfl, rfl⟩, rfl⟩ fuel).leaves advanced
      exact .project states.1.input.producers.2 (size.trans capacity)
    | sorter inputs capacity =>
      obtain ⟨state, advanced, rfl⟩ := Step.embed_eq_iff.1 done
      obtain ⟨rfl, rfl, rfl, size⟩ := Sorter.advance_keeps advanced
      have states := (Sorter.advance_same (keeps _)
        ⟨rfl, rfl, rfl, ⟨⟨rfl, inputs⟩, rfl, rfl⟩, rfl, rfl⟩ fuel).leaves advanced
      exact .sorter states.1.input.producers.2 (size.trans capacity)
    | join lefts rights capacity =>
      obtain ⟨state, advanced, rfl⟩ := Step.embed_eq_iff.1 done
      obtain ⟨rfl, rfl, size⟩ := Join.advance_keeps advanced
      have states := (Join.advance_same (keeps _) (keeps _) ⟨rfl, rfl, ⟨⟨rfl, lefts⟩, rfl, rfl⟩,
        ⟨⟨rfl, rights⟩, rfl, rfl⟩, rfl, rfl, rfl⟩ fuel).leaves advanced
      exact .join states.1.left.producers.2 states.1.right.producers.2 (size.trans capacity)
    | root id inputs =>
      obtain ⟨state, advanced, rfl⟩ := Step.embed_eq_iff.1 done
      exact .root id (step inputs advanced)
    | compiled bound =>
      obtain ⟨state, advanced, rfl⟩ := Step.embed_eq_iff.1 done
      exact .compiled (bound.advance advanced)

/-- A filter is set up after the executor below it. -/
theorem setup_filter (subject : Filter Executor) : setup context (fuel + 1) (.filter subject) =
    Step.embed (fun producer => .filter { subject with input := .start producer })
      (setup context fuel subject.input.producer) := by
  rw [setup, setupFeed, Step.embed_embed]

/-- A projection is set up after the executor below it. -/
theorem setup_project (subject : Project Executor) : setup context (fuel + 1) (.project subject) =
    Step.embed (fun producer => .project { subject with input := .start producer })
      (setup context fuel subject.input.producer) := by
  rw [setup, setupFeed, Step.embed_embed]

/-- A sort is set up after the executor below it, and forgets the rows that it has sorted. -/
theorem setup_sorter (subject : Sorter Executor) : setup context (fuel + 1) (.sorter subject) =
    Step.embed (fun producer => .sorter { subject with sorted := none, input := .start producer })
      (setup context fuel subject.input.producer) := by
  rw [setup, setupFeed, Step.embed_embed]

/-- A join is set up where the executors on both sides of it are. -/
theorem setup_join {subject : Join Executor} {left right : Executor}
    (lefts : setup context fuel subject.left.producer = some (.ok (), left))
    (rights : setup context fuel subject.right.producer = some (.ok (), right)) :
    setup context (fuel + 1) (.join subject) = some (.ok (), .join { subject with
      left := .start left, right := .start right, rightRows := none, current := none }) := by
  simp only [setup, setupFeed, lefts, rights]
  rfl

/-- A join is set up after the executors on both sides of it, the left one first. -/
theorem setup_join_cases {subject : Join Executor} {outcome : Except Error Unit}
    (done : setup context (fuel + 1) (.join subject) = some (outcome, next)) :
    (∃ error left, outcome = .error error ∧
      setup context fuel subject.left.producer = some (.error error, left) ∧
      next = .join { subject with left := .start left, right := .start subject.right.producer,
                                  rightRows := none, current := none }) ∨
    ∃ left right, setup context fuel subject.left.producer = some (.ok (), left) ∧
      setup context fuel subject.right.producer = some (outcome, right) ∧
      next = .join { subject with left := .start left, right := .start right,
                                  rightRows := none, current := none } := by
  simp only [setup] at done
  split at done
  · cases done
  · rename_i started
    obtain ⟨left, armed, rfl⟩ := Step.embed_eq_iff.1 started
    cases done
    exact .inl ⟨_, left, rfl, armed, rfl⟩
  · rename_i started
    obtain ⟨left, armed, rfl⟩ := Step.embed_eq_iff.1 started
    rw [setupFeed, Step.embed_embed] at done
    obtain ⟨right, also, rfl⟩ := Step.embed_eq_iff.1 done
    exact .inr ⟨left, right, armed, also, rfl⟩

/-- Setting up an executor leaves it worn. -/
theorem Worn.setup (wears : Worn fresh worn) {outcome : Except Error Unit}
    (done : Executor.setup context fuel worn = some (outcome, next)) : Worn fresh next := by
  induction fuel generalizing fresh worn next outcome with
  | zero => cases done
  | succ fuel step =>
    cases wears with
    | replay =>
      cases done
      exact .replay
    | scan capacity =>
      cases done
      exact .scan capacity
    | filter inputs capacity =>
      rw [setup_filter] at done
      obtain ⟨producer, armed, rfl⟩ := Step.embed_eq_iff.1 done
      exact .filter (step inputs armed) capacity
    | project inputs capacity =>
      rw [setup_project] at done
      obtain ⟨producer, armed, rfl⟩ := Step.embed_eq_iff.1 done
      exact .project (step inputs armed) capacity
    | sorter inputs capacity =>
      rw [setup_sorter] at done
      obtain ⟨producer, armed, rfl⟩ := Step.embed_eq_iff.1 done
      exact .sorter (step inputs armed) capacity
    | join lefts rights capacity =>
      rcases setup_join_cases done with ⟨error, left, -, armed, rfl⟩
        | ⟨left, right, armed, also, rfl⟩
      · exact .join (step lefts armed) rights capacity
      · exact .join (step lefts armed) (step rights also) capacity
    | root id inputs =>
      rw [Executor.setup] at done
      obtain ⟨producer, armed, rfl⟩ := Step.embed_eq_iff.1 done
      exact .root id (step inputs armed)
    | compiled bound =>
      rw [Executor.setup] at done
      obtain ⟨subject, armed, rfl⟩ := Step.embed_eq_iff.1 done
      exact .compiled (bound.setup armed)

/-- With enough fuel setting up an executor succeeds. -/
def Starts (context : Context) (executor : Executor) : Prop :=
  ∃ enough first, ∀ more, enough ≤ more → executor.setup context more = some (.ok (), first)

/-- An executor can be set up once it has been with some fuel. -/
theorem starts_of_setup (done : setup context fuel worn = some (.ok (), next)) :
    worn.Starts context :=
  ⟨fuel, next, fun _ later => setup_agrees context later worn _ done⟩

/-- An executor can be set up if that embeds setting up the one below it. -/
theorem starts_of_embed {input executor : Executor} {wrap : Executor → Executor}
    (same : ∀ fuel, setup context (fuel + 1) executor = Step.embed wrap
      (setup context fuel input)) :
    executor.Starts context ↔ input.Starts context := by
  constructor
  · rintro ⟨enough, first, ready⟩
    have set := ready (enough + 1) (Nat.le_succ enough)
    rw [same] at set
    obtain ⟨inner, started, -⟩ := Step.embed_eq_iff.1 set
    exact starts_of_setup started
  · rintro ⟨enough, first, ready⟩
    refine @starts_of_setup executor (wrap first) (enough + 1) context ?_
    rw [same, ready enough (Nat.le_refl enough)]
    rfl

/-- A join can be set up exactly when the executors on both sides of it can. -/
theorem starts_join {subject : Join Executor} : Starts context (.join subject) ↔
    subject.left.producer.Starts context ∧ subject.right.producer.Starts context := by
  constructor
  · rintro ⟨enough, first, ready⟩
    rcases setup_join_cases (ready (enough + 1) (Nat.le_succ enough)) with
      ⟨error, left, failed, -⟩ | ⟨left, right, started, also, -⟩
    · cases failed
    · exact ⟨starts_of_setup started, starts_of_setup also⟩
  · rintro ⟨⟨least, left, leftReady⟩, ⟨enough, right, rightReady⟩⟩
    exact starts_of_setup (setup_join (leftReady _ (Nat.le_max_left least enough))
      (rightReady _ (Nat.le_max_right least enough)))

/-- A unit can be set up in a graph exactly when it can be on its own. -/
theorem starts_compiled {subject : UnitInstance} : Starts context (.compiled subject) ↔
    ∃ fuel first, subject.setup fuel context = some (.ok (), first) := by
  constructor
  · rintro ⟨enough, first, ready⟩
    have set := ready (enough + 1) (Nat.le_succ enough)
    rw [setup] at set
    obtain ⟨inner, started, -⟩ := Step.embed_eq_iff.1 set
    exact ⟨enough, inner, started⟩
  · rintro ⟨fuel, first, started⟩
    refine @starts_of_setup (.compiled subject) (.compiled first) (fuel + 1) context ?_
    rw [setup, started]
    rfl

/-- Where a worn executor can be set up, a new one can. -/
theorem Worn.starts (wears : Worn fresh worn) (can : worn.Starts context) :
    fresh.Starts context := by
  induction wears with
  | replay | scan => exact ⟨1, _, fun more later => by cases later <;> rfl⟩
  | filter inputs capacity step =>
    exact (starts_of_embed fun _ => setup_filter _).2
      (step ((starts_of_embed fun _ => setup_filter _).1 can))
  | project inputs capacity step =>
    exact (starts_of_embed fun _ => setup_project _).2
      (step ((starts_of_embed fun _ => setup_project _).1 can))
  | sorter inputs capacity step =>
    exact (starts_of_embed fun _ => setup_sorter _).2
      (step ((starts_of_embed fun _ => setup_sorter _).1 can))
  | join lefts rights capacity leftStep rightStep =>
    obtain ⟨left, right⟩ := starts_join.1 can
    exact starts_join.2 ⟨leftStep left, rightStep right⟩
  | root id inputs step =>
    exact (starts_of_embed fun _ => rfl).2 (step ((starts_of_embed fun _ => rfl).1 can))
  | compiled bound =>
    obtain ⟨fuel, next, armed⟩ := starts_compiled.1 can
    exact starts_compiled.2 (bound.starts armed)

/-- An executor can be set up by every execution that has not been cancelled. -/
theorem Worn.ready (wears : Worn fresh worn) (live : context.check = .ok ()) :
    worn.Starts context := by
  induction wears with
  | replay | scan => exact ⟨1, _, fun more later => by cases later <;> rfl⟩
  | filter inputs capacity step => exact (starts_of_embed fun _ => setup_filter _).2 step
  | project inputs capacity step => exact (starts_of_embed fun _ => setup_project _).2 step
  | sorter inputs capacity step => exact (starts_of_embed fun _ => setup_sorter _).2 step
  | join lefts rights capacity leftStep rightStep => exact starts_join.2 ⟨leftStep, rightStep⟩
  | root id inputs step => exact (starts_of_embed fun _ => rfl).2 step
  | compiled bound => exact starts_compiled.2 (bound.ready live)

/-- A worn executor that is set up stands where a new one does, whatever the two executions are. -/
theorem Worn.alike (wears : Worn fresh worn) {first : Executor} {more : Nat} {other : Context}
    (started : Executor.setup other more fresh = some (.ok (), first))
    (done : Executor.setup context fuel worn = some (.ok (), next)) : Alike first next := by
  induction fuel generalizing fresh worn first next more with
  | zero => cases done
  | succ fuel step =>
    obtain ⟨more, rfl⟩ : ∃ less, more = less + 1 := by
      cases more with
      | zero => cases started
      | succ less => exact ⟨less, rfl⟩
    cases wears with
    | replay =>
      cases started
      cases done
      exact .replay _
    | scan capacity =>
      cases started
      cases done
      exact .scan ⟨rfl, rfl, rfl, capacity.symm⟩
    | filter inputs capacity =>
      rw [setup_filter] at started done
      obtain ⟨new, set, rfl⟩ := Step.embed_eq_iff.1 started
      obtain ⟨producer, armed, rfl⟩ := Step.embed_eq_iff.1 done
      exact .filter (step inputs set armed) capacity.symm
    | project inputs capacity =>
      rw [setup_project] at started done
      obtain ⟨new, set, rfl⟩ := Step.embed_eq_iff.1 started
      obtain ⟨producer, armed, rfl⟩ := Step.embed_eq_iff.1 done
      exact .project (step inputs set armed) capacity.symm
    | sorter inputs capacity =>
      rw [setup_sorter] at started done
      obtain ⟨new, set, rfl⟩ := Step.embed_eq_iff.1 started
      obtain ⟨producer, armed, rfl⟩ := Step.embed_eq_iff.1 done
      exact .sorter (step inputs set armed) capacity.symm
    | join lefts rights capacity =>
      rcases setup_join_cases started with ⟨error, left, failed, -⟩
        | ⟨newLeft, newRight, set, on, rfl⟩
      · cases failed
      rcases setup_join_cases done with ⟨error, left, failed, -⟩ | ⟨left, right, armed, also, rfl⟩
      · cases failed
      exact .join (step lefts set armed) (step rights on also) capacity.symm
    | root id inputs =>
      rw [Executor.setup] at started done
      obtain ⟨new, set, rfl⟩ := Step.embed_eq_iff.1 started
      obtain ⟨producer, armed, rfl⟩ := Step.embed_eq_iff.1 done
      exact .root id (step inputs set armed)
    | compiled bound =>
      rw [Executor.setup] at started done
      obtain ⟨new, set, rfl⟩ := Step.embed_eq_iff.1 started
      obtain ⟨subject, armed, rfl⟩ := Step.embed_eq_iff.1 done
      exact .compiled (bound.alike set armed)

end Wearing

end Executor

/-! ## Graphs that are built -/

namespace Run

variable {α β : Type}

/-- The second run has the outcome of the first, if that has one. -/
def Agree (first second : Run α) : Prop :=
  Agrees first.run second.run

/-- A run agrees with itself. -/
theorem Agree.refl (action : Run α) : Agree action action :=
  Agrees.refl _

/-- What follows runs that agree agrees, if it does so behind every result. -/
theorem Agree.bind {first second : Run α} (agree : Agree first second) {next other : α → Run β}
    (each : ∀ result, Agree (next result) (other result)) :
    Agree (first >>= next) (second >>= other) := by
  refine Agrees.bind agree fun outcome => ?_
  cases outcome with
  | error error => exact .refl _
  | ok result => exact each result

end Run

/-- An executor that is offered is so with more fuel. -/
theorem Assembly.prepareAt_agrees {fuel more : Nat} (bound : fuel ≤ more) (id : NodeId)
    (state : ExecutorState) (places : List Place) :
    Agrees (prepareAt fuel id state places) (prepareAt more id state places) := by
  induction places with
  | nil => exact .refl _
  | cons place rest step =>
    rw [prepareAt, prepareAt]
    split
    · cases place.occupant with
      | none => exact .refl _
      | some occupant =>
        dsimp only
        cases bounded : occupant.prepare fuel id state with
        | none => exact .none _
        | some outcome =>
          rw [UnitInstance.prepare_agrees bound id state occupant outcome bounded]
          exact .refl _
    · exact step.embed _

namespace Site

variable {site : Site}

/-- An executor that finds its place does so with more fuel. -/
theorem place_agrees {fuel more : Nat} (bound : fuel ≤ more) (executor : Executor)
    (assembly : Option Assembly) :
    (place fuel executor assembly).Agree (place more executor assembly) := by
  cases assembly with
  | none => exact .refl _
  | some assembly =>
    have prepared :=
      (Assembly.prepareAt_agrees bound executor.id executor.state assembly.places).embed Assembly.mk
    refine Run.Agree.bind (fun outcome offered => ?_) fun outcome => .refl _
    obtain ⟨result, ended, rfl⟩ := Option.map_eq_some_iff.1 offered
    exact Option.map_eq_some_iff.2 ⟨result, prepared result ended, rfl⟩

/-- Executors that are built are so with more fuel. -/
theorem buildNode_agrees {fuel more : Nat} (bound : fuel ≤ more) (plan : Plan)
    (assembly : Option Assembly) :
    (site.buildNode fuel plan assembly).Agree (site.buildNode more plan assembly) := by
  induction plan generalizing assembly with
  | scan id spec =>
    rw [buildNode, buildNode]
    exact (Run.Agree.refl _).bind fun state => place_agrees bound _ _
  | filter id condition input step | project id expressions input step
  | sort id columns ascending input step =>
    rw [buildNode, buildNode]
    exact (step assembly).bind fun result => place_agrees bound _ _
  | join id condition left right leftStep rightStep =>
    rw [buildNode, buildNode]
    exact (leftStep assembly).bind fun result => (rightStep _).bind fun other =>
      place_agrees bound _ _
  | root id input step =>
    rw [buildNode, buildNode]
    exact (step assembly).bind fun result => .refl _

/-- Where executors are built from a plan, they are so without units. -/
theorem interpreted_of_buildNode {fuel : Nat} {plan : Plan} {assembly rest : Option Assembly}
    {executor : Executor} (built : site.buildNode fuel plan assembly = pure (executor, rest)) :
    ∃ interpreted, site.interpreted plan = .ok interpreted := by
  induction plan generalizing assembly rest executor with
  | scan id spec =>
    obtain ⟨state, found, -⟩ := Run.of_bind built
    rw [interpreted]
    cases scanned : site.scanState spec with
    | error error =>
      rw [scanned] at found
      cases found
    | ok state => exact ⟨_, rfl⟩
  | filter id condition input step | project id expressions input step
  | sort id columns ascending input step =>
    obtain ⟨⟨producer, left⟩, below, -⟩ := Run.of_bind built
    obtain ⟨interpreted, same⟩ := step below
    exact ⟨_, by rw [Site.interpreted, same]; rfl⟩
  | join id condition left right leftStep rightStep =>
    obtain ⟨⟨producer, left⟩, below, behind⟩ := Run.of_bind built
    obtain ⟨⟨other, right⟩, also, -⟩ := Run.of_bind behind
    obtain ⟨first, leftSame⟩ := leftStep below
    obtain ⟨second, rightSame⟩ := rightStep also
    exact ⟨_, by rw [Site.interpreted, leftSame, ok_bind, rightSame]; rfl⟩
  | root id input step =>
    obtain ⟨result, -, failed⟩ := Run.of_bind built
    cases failed

/-- A part of a plan whose executors are built is so. -/
theorem interpreted_of_mem {plan node : Plan} {executor : Executor}
    (built : site.interpreted plan = .ok executor) (member : node ∈ plan.postOrder) :
    ∃ other, site.interpreted node = .ok other := by
  induction plan generalizing executor with
  | scan id spec =>
    rw [List.mem_singleton.1 member]
    exact ⟨executor, built⟩
  | filter id condition input step | project id expressions input step
  | sort id columns ascending input step | root id input step =>
    rcases List.mem_append.1 member with inside | last
    · obtain ⟨producer, below, -⟩ := bind_eq_ok_iff.1 built
      exact step below inside
    · rw [List.mem_singleton.1 last]
      exact ⟨executor, built⟩
  | join id condition left right leftStep rightStep =>
    rcases List.mem_append.1 member with inside | last
    · obtain ⟨producer, below, behind⟩ := bind_eq_ok_iff.1 built
      obtain ⟨other, also, -⟩ := bind_eq_ok_iff.1 behind
      rcases List.mem_append.1 inside with left | right
      · exact leftStep below left
      · exact rightStep also right
    · rw [List.mem_singleton.1 last]
      exact ⟨executor, built⟩

/-- Interpreted executors that have been built are new, also with new units in the place of some. -/
theorem worn_interpreted {plan : Plan} {executor : Executor}
    {occupant : NodeId → Option UnitInstance} (units : ∀ id subject, occupant id = some subject →
      Generate.Worn subject subject)
    (built : site.interpreted plan = .ok executor) :
    executor.Worn executor ∧ (executor.substitute occupant).Worn
      (executor.substitute occupant) := by
  have chosen : ∀ (id : NodeId) (executor : Executor), executor.Worn executor →
      Executor.Worn ((occupant id).elim executor .compiled)
        ((occupant id).elim executor .compiled) := by
    intro id executor worn
    cases found : occupant id with
    | none => exact worn
    | some subject => exact .compiled (units id subject found)
  induction plan generalizing executor with
  | scan id spec =>
    obtain ⟨state, -, same⟩ := bind_eq_ok_iff.1 built
    cases same
    rw [Executor.substitute]
    exact ⟨.scan rfl, chosen _ _ (.scan rfl)⟩
  | filter id condition input step =>
    obtain ⟨producer, below, same⟩ := bind_eq_ok_iff.1 built
    cases same
    simp only [Feed.start, Executor.substitute]
    exact ⟨.filter (step below).1 rfl, chosen _ _ (.filter (step below).2 rfl)⟩
  | project id expressions input step =>
    obtain ⟨producer, below, same⟩ := bind_eq_ok_iff.1 built
    cases same
    simp only [Feed.start, Executor.substitute]
    exact ⟨.project (step below).1 rfl, chosen _ _ (.project (step below).2 rfl)⟩
  | sort id columns ascending input step =>
    obtain ⟨producer, below, same⟩ := bind_eq_ok_iff.1 built
    cases same
    simp only [Feed.start, Executor.substitute]
    exact ⟨.sorter (step below).1 rfl, chosen _ _ (.sorter (step below).2 rfl)⟩
  | join id condition left right leftStep rightStep =>
    obtain ⟨leftProducer, leftBelow, rest⟩ := bind_eq_ok_iff.1 built
    obtain ⟨rightProducer, rightBelow, same⟩ := bind_eq_ok_iff.1 rest
    cases same
    simp only [Feed.start, Executor.substitute]
    exact ⟨.join (leftStep leftBelow).1 (rightStep rightBelow).1 rfl,
      chosen _ _ (.join (leftStep leftBelow).2 (rightStep rightBelow).2 rfl)⟩
  | root id input step =>
    obtain ⟨producer, -, same⟩ := bind_eq_ok_iff.1 built
    cases same

/-- The units of the runs of a plan are new where they stand. -/
theorem worn_occupantOf {top : NodeId} {input : Plan} {pairs : List (Plan × CompiledUnit)}
    {executor : Executor} (compiles : Compiles (.root top input) pairs)
    (built : site.interpreted input = .ok executor) (batchSize : Nat) (id : NodeId)
    (subject : UnitInstance) (occupied : site.occupantOf batchSize pairs id = some subject) :
    Generate.Worn subject subject := by
  obtain ⟨pair, found, rfl⟩ := Option.map_eq_some_iff.1 occupied
  have listed := List.mem_of_find?_eq_some found
  obtain ⟨row, steps, realizes⟩ := compiles.realizes pair listed
  have ends : pair.1 ∈ input.runEnds := by
    have runs := compiles.runs
    rw [Plan.runEnds_of_inputs rfl rfl] at runs
    exact runs ▸ List.mem_map_of_mem listed
  obtain ⟨other, run⟩ := interpreted_of_mem built (Plan.runEnds_subset ends)
  exact site.bound_worn realizes run batchSize

/-- The graph of a plan is new, also when units that were generated from the plan stand in it. -/
theorem worn_of_build {config : Config} {log : List CacheEvent} {compiler : Compiler}
    {tree : PlanTree}
    {assembly : Option Assembly} {fuel : Nat} {graph : Executor}
    (history : Compiler.History config log compiler) (finished : tree.Built)
    (own : ∀ given, assembly = some given → ∃ template,
      (compiler.tryTemplate tree.root).1 = .ok (some template) ∧ given = template.instantiate)
    (built : site.build fuel tree.root assembly = pure graph) : graph.Worn graph := by
  obtain ⟨id, input, executor, rest, whole, rfl, below⟩ := root_of_build built
  obtain ⟨producer, interpreted⟩ := interpreted_of_buildNode below
  refine .root id ?_
  cases assembly with
  | none =>
    have also := (buildNode_none_eq_pure_iff.1 below).1
    exact (@worn_interpreted site _ _ (fun _ => none) nofun also).1
  | some given =>
    obtain ⟨template, found, rfl⟩ := own given rfl
    obtain ⟨pairs, compiles, units⟩ := compiles_of_tryTemplate history finished found
    have distinct := finished.sound.distinct
    have awaits := @Compiles.awaits site template.batchSize _ _ compiles distinct
    have start := Template.instantiate_eq units
    rw [whole] at awaits compiles
    obtain ⟨enough, ready⟩ := (awaits.ofInput rfl rfl).builds interpreted
    have agreed := buildNode_agrees (Nat.le_max_left fuel enough) input _ _ below
    rw [start] at agreed
    have same := (ready _ (Nat.le_max_right fuel enough)).symm.trans agreed
    cases same
    exact (worn_interpreted (worn_occupantOf compiles interpreted template.batchSize) interpreted).2

end Site

/-! ## Starting again -/

/-- What a graph becomes by setting it up and advancing it, in any order and with any outcome. -/
inductive Executor.Reached (graph : Executor) : Executor → Prop
  | built : Reached graph graph
  | setup {executor next : Executor} {context : Context} {fuel : Nat} {outcome : Except Error Unit}
      (before : Reached graph executor)
      (done : executor.setup context fuel = some (outcome, next)) :
      Reached graph next
  | advance {executor next : Executor} {fuel : Nat} {outcome : Except Error Progress}
      (before : Reached graph executor) (done : executor.advance fuel = some (outcome, next)) :
      Reached graph next

/-- What has been done with a new graph leaves it worn. -/
theorem Executor.Reached.worn {graph executor : Executor} (reached : Reached graph executor)
    (new : graph.Worn graph) : graph.Worn executor := by
  induction reached with
  | built => exact new
  | setup before done worn => exact worn.setup done
  | advance before done worn => exact worn.advance done

/-- Setting up the graph of a plan starts it again completely: where a setup succeeds, whatever has
been done with the graph before, the first setup of a new graph does so as well, and the steps that
follow have the same outcomes and show the same rows as after any first setup of a new graph. -/
theorem setup_restarts {config : Config} {log : List CacheEvent} {compiler : Compiler}
    {tree : PlanTree}
    {assembly : Option Assembly} {site : Site} {fuel spent : Nat} {context : Context}
    {graph executor restarted : Executor} (history : Compiler.History config log compiler)
    (finished : tree.Built)
    (own : ∀ given, assembly = some given → ∃ template,
      (compiler.tryTemplate tree.root).1 = .ok (some template) ∧ given = template.instantiate)
    (built : site.build fuel tree.root assembly = pure graph) (reached : graph.Reached executor)
    (done : executor.setup context spent = some (.ok (), restarted)) :
    graph.Starts context ∧
      ∀ other more first, graph.setup other more = some (.ok (), first) →
        ∀ fuel count, restarted.outcomes fuel count = first.outcomes fuel count := by
  have worn := reached.worn (Site.worn_of_build history finished own built)
  exact ⟨worn.starts (Executor.starts_of_setup done), fun other more first started =>
    (worn.alike started done).outcomes_eq⟩

/-- The graph of a half compiled plan is set up twice. -/
theorem setup_restarts_halfCompiled : ∃ tree template fuel graph executor restarted spent,
    PlanTree.ofNodes
        [(1, .scan (Generate.keyScan "Person"), []), (3, .scan (Generate.keyScan "1st"), []),
         (2, .filter (.isNull (.column 0 .int)), [1]), (4, .join none, [2, 3]), (9, .root, [4])]
        9 = .ok tree ∧
      ((Compiler.start .standard).tryTemplate tree.root).1 = .ok (some template) ∧
      peopleSite.build fuel tree.root (some template.instantiate) = pure graph ∧
      graph.Reached executor ∧ executor.setup (.start 2) spent = some (.ok (), restarted) ∧
      graph.Starts (.start 2) ∧ ∀ other more first, graph.setup other more = some (.ok (), first) →
        ∀ fuel count, restarted.outcomes fuel count = first.outcomes fuel count := by
  obtain ⟨template, found⟩ := tryTemplate_peopleRun runEnds_halfCompiled
  obtain ⟨pairs, compiles, units⟩ :=
    compiles_of_tryTemplate .start Generate.built_halfCompiled found
  obtain ⟨producer, below⟩ : ∃ producer, peopleSite.interpreted
      (.join 4 none peopleRun (.scan 3 (Generate.keyScan "1st"))) = .ok producer := ⟨_, rfl⟩
  obtain ⟨fuel, ready⟩ := @Compiles.build_eq peopleSite template.batchSize pairs _ _ _ compiles
    (by decide) below
  have start := Template.instantiate_eq units
  have built := ready fuel (Nat.le_refl fuel)
  rw [← start] at built
  have own : ∀ given, some template.instantiate = some given → ∃ template,
      ((Compiler.start .standard).tryTemplate Generate.halfCompiled).1 = .ok (some template) ∧
        given = template.instantiate := fun given same =>
          ⟨template, found, (Option.some.inj same).symm⟩
  have new := Site.worn_of_build .start Generate.built_halfCompiled own built
  obtain ⟨least, first, begun⟩ := new.ready (show (Context.start 1).check = .ok () from rfl)
  have reached := Executor.Reached.setup .built (begun least (Nat.le_refl least))
  obtain ⟨spent, restarted, again⟩ :=
    (reached.worn new).ready (show (Context.start 2).check = .ok () from rfl)
  have done := again spent (Nat.le_refl spent)
  exact ⟨_, template, fuel, _, first, restarted, spent, Generate.ofNodes_halfCompiled, found, built,
    reached, done, setup_restarts .start Generate.built_halfCompiled own built reached done⟩

end QueryFusion
