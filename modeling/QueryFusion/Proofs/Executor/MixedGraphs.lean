import QueryFusion.Proofs.Executor.UnitBatches

/-!
# Graphs with units

A unit gives the rows of its run where these can be computed, and fails where they cannot. What
operators give depends on the rows of their inputs only, so a graph in which units stand in the
place of runs gives the answer of its plan, as the interpreted graph does. It may fail with another
error, because a unit meets the failures of its run entry by entry, and not operator by operator.
Where there are no executors to be built, none are built with units either.
-/

namespace QueryFusion

open Script (CompiledUnit UnitInstance)
open Generate (Realizes partition)
open Emit (Local)

/-! ## Units deliver -/

/-- An executor that fills its batches from items delivers their batches. -/
theorem Executor.delivers_of_stands {α : Type} {transform : α → Except Error (Option Row)}
    {capacity : Nat} {executor : Executor} {items : List α} {batches : List (List Row)}
    {result : Option Error} {Stands : Executor → List α → Prop}
    (step : FillsFrom transform capacity Stands)
    (filled : Batches transform none capacity items batches result)
    (stands : Stands executor items) :
    ∃ fuel, Delivers (supply fuel) executor batches result := by
  induction filled generalizing executor with
  | last done =>
    obtain ⟨enough, next, advanced, shown, -⟩ := step executor _ stands
    rw [done] at advanced shown
    rw [← shown]
    exact ⟨enough, .last (advanced enough (Nat.le_refl _))⟩
  | more done later rest =>
    obtain ⟨enough, next, advanced, shown, goesOn⟩ := step executor _ stands
    rw [done] at advanced shown goesOn
    obtain ⟨fuel, delivers⟩ := rest (goesOn .fetched rfl)
    rw [← shown]
    exact ⟨max enough fuel, .more (advanced _ (Nat.le_max_left _ _))
      (delivers.agree (supply_agree (Nat.le_max_right _ _)))⟩
  | fails done =>
    obtain ⟨enough, next, advanced, -, -⟩ := step executor _ stands
    rw [done] at advanced
    exact ⟨enough, .fails (advanced enough (Nat.le_refl _))⟩

/-- What units deliver in the place of runs: batches filled with what the run makes of the entries
of its map. -/
inductive Site.Fuses (site : Site) : Plan → List Row → Option Error → Prop
  | run {plan : Plan} {map : EntryMap} {out : List (List Row)} {result : Option Error}
      (scans : plan.Scans site.catalog map)
      (filled : Batches (plan.image map) none (max site.batchSize 1) map.scanned out result) :
      Fuses site plan out.flatten result

/-- What units deliver settles the answers of their runs. -/
theorem Site.Fuses.settles {site : Site} {plan : Plan} {rows : List Row} {ending : Option Error}
    (fuses : site.Fuses plan rows ending) : Settles (plan.answer site.catalog) rows ending := by
  have positive : 0 < max site.batchSize 1 := by omega
  cases fuses with
  | @run map out _ scans filled =>
    cases ending with
    | none =>
      obtain ⟨-, rows, known, split⟩ := filled.batching positive
      rw [Settles, split.whole]
      exact (Plan.answer_eq_ok_iff scans).2 known
    | some error =>
      obtain ⟨reason, failed⟩ := (filled.failing positive).resolve_left fun never => never rfl
      cases answer : plan.answer site.catalog with
      | error other => exact ⟨other, rfl⟩
      | ok rows =>
        rw [Plan.answer_eq_ok_iff scans, failed] at answer
        cases answer

/-- A unit that goes on with all entries delivers what its run makes of them. -/
theorem Script.UnitInstance.Stands.gives {site : Site} {plan : Plan} {map : EntryMap}
    {subject : UnitInstance} (stands : subject.Stands plan map (max site.batchSize 1) map.scanned)
    (scans : plan.Scans site.catalog map) :
    (Executor.compiled subject).Gives (site.Fuses plan) := by
  have positive : 0 < max site.batchSize 1 := by omega
  obtain ⟨out, result, filled⟩ := Batches.total (plan.image map) none positive map.scanned
  obtain ⟨fuel, delivers⟩ := Executor.delivers_of_stands Stands.step filled ⟨subject, rfl, stands⟩
  exact ⟨fuel, out, result, delivers, .run scans filled⟩

namespace Site

variable {site : Site} {plan : Plan} {row : List Local} {steps : List Generate.RowStep}
  {unit : CompiledUnit} {executor : Executor} {context : Context}

/-- A unit that has been bound to the executors of its run is ready in an execution that goes on. -/
theorem ready_bound (realizes : Realizes plan row steps unit)
    (built : site.interpreted plan = .ok executor) {batchSize : Nat}
    (size : max batchSize 1 = max site.batchSize 1) (live : context.check = .ok ()) :
    (Executor.compiled (site.bound batchSize unit plan.runGenerators)).Ready context
      (site.Fuses plan) := by
  obtain ⟨map, scans⟩ := exists_scans realizes.run.compilable built
  have complete : ∀ id ∈ unit.subsumedIds,
      id ∈ (plan.runGenerators.map Generate.Generator.id).reverse := by
    intro id subsumed
    rw [List.mem_reverse, map_id_runGenerators realizes.run.compilable]
    exact realizes.parts.2.1 ▸ subsumed
  obtain ⟨enough, started, sets, stands⟩ :=
    stands_setup realizes built scans batchSize complete live
  rw [size] at stands
  refine ⟨enough + 1, .compiled started, fun fuel more => ?_, stands.gives scans⟩
  obtain ⟨fuel, rfl⟩ : ∃ less, fuel = less + 1 := ⟨fuel - 1, by omega⟩
  rw [Executor.setup, bound, sets fuel (by omega)]
  rfl

/-- With units that are ready in the place of nodes a graph is ready. -/
theorem ready_substitute {occupant : NodeId → Option UnitInstance}
    {units : Plan → List Row → Option Error → Prop}
    (occupied : ∀ node ∈ plan.postOrder, ∀ subject, occupant node.id = some subject →
      (Executor.compiled subject).Ready context (site.Yields units node))
    (built : site.interpreted plan = .ok executor) :
    (executor.substitute occupant).Ready context (site.Yields units plan) := by
  have chosen : ∀ plan : Plan, (∀ subject, occupant plan.id = some subject →
      (Executor.compiled subject).Ready context (site.Yields units plan)) →
      ∀ executor : Executor, executor.Ready context (site.Yields units plan) →
        ((occupant plan.id).elim executor .compiled).Ready context (site.Yields units plan) := by
    intro plan occupied executor ready
    cases found : occupant plan.id with
    | none => exact ready
    | some subject => exact occupied subject found
  induction plan generalizing executor with
  | scan id spec =>
    obtain ⟨state, found, same⟩ := bind_eq_ok_iff.1 built
    cases same
    exact chosen (.scan id spec) (occupied _ (Plan.mem_postOrder _)) _
      (Executor.ready_scan context id found)
  | filter id condition input step =>
    obtain ⟨producer, below, same⟩ := bind_eq_ok_iff.1 built
    cases same
    have ready := step (fun node member => occupied node (List.mem_append_left _ member)) below
    exact chosen (.filter id condition input) (occupied _ (Plan.mem_postOrder _)) _
      (Executor.ready_filter id condition ready)
  | project id expressions input step =>
    obtain ⟨producer, below, same⟩ := bind_eq_ok_iff.1 built
    cases same
    have ready := step (fun node member => occupied node (List.mem_append_left _ member)) below
    exact chosen (.project id expressions input) (occupied _ (Plan.mem_postOrder _)) _
      (Executor.ready_project id expressions ready)
  | sort id columns ascending input step =>
    obtain ⟨producer, below, same⟩ := bind_eq_ok_iff.1 built
    cases same
    have ready := step (fun node member => occupied node (List.mem_append_left _ member)) below
    exact chosen (.sort id columns ascending input) (occupied _ (Plan.mem_postOrder _)) _
      (Executor.ready_sorter id columns ascending ready)
  | join id condition left right leftStep rightStep =>
    obtain ⟨leftProducer, leftBelow, rest⟩ := bind_eq_ok_iff.1 built
    obtain ⟨rightProducer, rightBelow, same⟩ := bind_eq_ok_iff.1 rest
    cases same
    have lefts := leftStep (fun node member =>
      occupied node (List.mem_append_left _ (List.mem_append_left _ member))) leftBelow
    have rights := rightStep (fun node member =>
      occupied node (List.mem_append_left _ (List.mem_append_right _ member))) rightBelow
    exact chosen (.join id condition left right) (occupied _ (Plan.mem_postOrder _)) _
      (Executor.ready_join id condition lefts rights)
  | root id input step =>
    obtain ⟨producer, -, same⟩ := bind_eq_ok_iff.1 built
    cases same

/-- A run whose map is missing is not built, whatever waits for its executors. -/
theorem buildNode_run_fails (compilable : plan.isCompilable = true) {error : Error}
    (failed : site.interpreted plan = .error error) (fuel : Nat) (assembly : Option Assembly) :
    site.buildNode fuel plan assembly = throw error := by
  induction plan with
  | scan id spec =>
    rcases bind_eq_error_iff.1 failed with missing | ⟨state, -, same⟩
    · rw [buildNode, missing]
      rfl
    · cases same
  | filter id condition input step | project id expressions input step =>
    rcases bind_eq_error_iff.1 failed with below | ⟨producer, -, same⟩
    · rw [buildNode, step compilable below]
      rfl
    · cases same
  | root id input step | sort id columns ascending input step => cases compilable
  | join id condition left right leftStep rightStep => cases compilable

end Site

/-- Where there are no executors without units, there are none with units, for the same reason. -/
theorem Awaits.fails {site : Site} {batchSize : Nat} {occupant : NodeId → Option UnitInstance}
    {plan : Plan} {places : List Place} (awaits : Awaits site batchSize occupant plan places)
    {error : Error} (failed : site.interpreted plan = .error error) :
    ∃ enough, ∀ fuel, enough ≤ fuel →
      site.buildNode fuel plan (some ⟨places⟩) = throw error := by
  induction plan generalizing places error with
  | scan id spec =>
    rcases bind_eq_error_iff.1 failed with missing | ⟨state, -, same⟩
    · refine ⟨0, fun fuel _ => ?_⟩
      rw [Site.buildNode, missing]
      rfl
    · cases same
  | filter id condition input step | project id expressions input step
  | sort id columns ascending input step =>
    rcases bind_eq_error_iff.1 failed with below | ⟨producer, -, same⟩
    · have stops : ∃ enough, ∀ fuel, enough ≤ fuel →
          site.buildNode fuel input (some ⟨places⟩) = throw error := by
        cases compilable : input.isCompilable with
        | true => exact ⟨0, fun fuel _ => Site.buildNode_run_fails compilable below fuel _⟩
        | false =>
          have stays : ∀ plan : Plan, plan.inputs = [input] → plan.isCompilable = false := by
            intro plan inputs
            cases plan <;> cases inputs <;> first | rfl | exact compilable
          exact step (awaits.ofInput rfl (stays _ rfl)) below
      obtain ⟨enough, stopped⟩ := stops
      refine ⟨enough, fun fuel more => ?_⟩
      rw [Site.buildNode, stopped fuel more]
      rfl
    · cases same
  | root id input step =>
    have given := awaits.ofInput rfl rfl
    rcases bind_eq_error_iff.1 failed with below | ⟨producer, below, same⟩
    · obtain ⟨enough, stopped⟩ := step given below
      refine ⟨enough, fun fuel more => ?_⟩
      rw [Site.buildNode, stopped fuel more]
      rfl
    · obtain ⟨enough, built⟩ := given.builds below
      cases same
      refine ⟨enough, fun fuel more => ?_⟩
      rw [Site.buildNode, built fuel more]
      rfl
  | join id condition left right leftStep rightStep =>
    rcases bind_eq_error_iff.1 failed with leftBelow | ⟨leftProducer, leftBelow, rest⟩
    · obtain ⟨enough, stopped⟩ := leftStep awaits.ofLeft leftBelow
      refine ⟨enough, fun fuel more => ?_⟩
      rw [Site.buildNode, stopped fuel more]
      rfl
    · obtain ⟨first, built⟩ := awaits.ofLeft.builds leftBelow
      rcases bind_eq_error_iff.1 rest with rightBelow | ⟨rightProducer, -, same⟩
      · obtain ⟨second, stopped⟩ := rightStep awaits.ofRight rightBelow
        refine ⟨max first second, fun fuel more => ?_⟩
        rw [Site.buildNode, built fuel (by omega)]
        show (site.buildNode fuel right
          (some ⟨vacate (left.runEnds.map Plan.id) places⟩) >>= _) = _
        rw [stopped fuel (by omega)]
        rfl
      · cases same

section Compiling

variable {site : Site} {plan : Plan} {pairs : List (Plan × CompiledUnit)} {executor : Executor}
  {context : Context}

/-- With its units in place the graph of a part of a plan is ready. -/
theorem Compiles.ready (compiles : Compiles plan pairs)
    (distinct : (plan.postOrder.map Plan.id).Nodup) {batchSize : Nat}
    (size : max batchSize 1 = max site.batchSize 1) (live : context.check = .ok ())
    {part : Plan} (inside : ∀ node ∈ part.postOrder, node ∈ plan.postOrder)
    (built : site.interpreted part = .ok executor) :
    (executor.substitute (site.occupantOf batchSize pairs)).Ready context
      (site.Yields site.Fuses part) := by
  refine Site.ready_substitute (fun node member subject occupied => ?_) built
  obtain ⟨pair, found, rfl⟩ := Option.map_eq_some_iff.1 occupied
  have listed := List.mem_of_find?_eq_some found
  have same : pair.1.id = node.id := by simpa using List.find?_some found
  obtain ⟨row, steps, realizes⟩ := compiles.realizes pair listed
  have ends : pair.1 ∈ plan.runEnds := compiles.runs ▸ List.mem_map_of_mem listed
  have here : pair.1 = node := List.inj_on_of_nodup_map distinct (Plan.runEnds_subset ends)
    (inside node member) same
  obtain ⟨other, interpreted⟩ := Site.interpreted_of_mem built member
  rw [← here] at interpreted ⊢
  exact (Site.ready_bound realizes interpreted size live).mono fun _ _ => .unit

/-- An execution without units and one with units of the same plan: neither builds its executors,
for the same reason, or each comes to what its executors deliver. -/
inductive Runner.Paired (catalog : Catalog) (batchSize : Nat) :
    Plan → Except Error (List Row) → Except Error (List Row) → Prop
  | unbuilt (plan : Plan) (error : Error) : Paired catalog batchSize plan (.error error)
      (.error error)
  | ran (id : NodeId) {input : Plan} {rows others : List Row} {ending last : Option Error}
      (interpreted : Site.Yields ⟨catalog, max batchSize 1⟩ Site.noUnits input rows ending)
      (compiled : Site.Yields ⟨catalog, max batchSize 1⟩
        (Site.Fuses ⟨catalog, max batchSize 1⟩) input
        others last) :
      Paired catalog batchSize (.root id input) (Feed.ended rows ending) (Feed.ended others last)

/-- A plan is executed without units as with new instances of its units. -/
theorem Runner.execute_paired {catalog : Catalog} {batchSize : Nat} (compiles : Compiles plan pairs)
    (distinct : (plan.postOrder.map Plan.id).Nodup) (live : context.cancelled = false) :
    ∃ enough interpreted compiled, Paired catalog batchSize plan interpreted compiled ∧
      ∀ fuel, enough ≤ fuel →
        (execute catalog batchSize fuel context plan none).run = some interpreted ∧
        (execute catalog batchSize fuel context plan (some ⟨placesOf batchSize pairs⟩)).run =
          some compiled := by
  cases plan with
  | root id input =>
    let site : Site := ⟨catalog, max batchSize 1⟩
    cases below : site.interpreted input with
    | ok producer =>
      have plain : ∀ fuel, 0 ≤ fuel → site.build fuel (.root id input) none =
          pure (.root id producer) := by
        intro fuel _
        rw [Site.build, Site.buildNode_none, below]
        rfl
      have size : max batchSize 1 = max site.batchSize 1 := by simp [site]
      have ready := compiles.ready distinct size (context.check_eq_ok_iff.2 live)
        (fun node member => List.mem_append_left _ member) below
      obtain ⟨least, built⟩ := compiles.build_eq distinct below
      obtain ⟨first, rows, ending, yields, interprets⟩ :=
        execute_ready plain (Executor.ready_root id (Site.ready_of_interpreted context below))
      obtain ⟨second, others, last, fuses, runs⟩ :=
        execute_ready built (Executor.ready_root id ready)
      rw [live] at interprets runs
      exact ⟨max first second, _, _, .ran id yields fuses, fun fuel more =>
        ⟨interprets fuel (by omega), runs fuel (by omega)⟩⟩
    | error error =>
      have awaits := @Compiles.awaits site batchSize _ _ compiles distinct
      obtain ⟨enough, failed⟩ := (awaits.ofInput rfl rfl).fails below
      refine ⟨enough, _, _, .unbuilt _ error, fun fuel more => ⟨?_, ?_⟩⟩
      · rw [execute, Site.build, Site.buildNode_none, below]
        rfl
      · rw [execute, Site.build, failed fuel more]
        rfl
  | scan id spec => exact ⟨0, _, _, .unbuilt _ _, fun _ _ => ⟨rfl, rfl⟩⟩
  | filter id condition input => exact ⟨0, _, _, .unbuilt _ _, fun _ _ => ⟨rfl, rfl⟩⟩
  | project id expressions input => exact ⟨0, _, _, .unbuilt _ _, fun _ _ => ⟨rfl, rfl⟩⟩
  | sort id columns ascending input => exact ⟨0, _, _, .unbuilt _ _, fun _ _ => ⟨rfl, rfl⟩⟩
  | join id condition left right => exact ⟨0, _, _, .unbuilt _ _, fun _ _ => ⟨rfl, rfl⟩⟩

/-- Two such executions have the same rows. -/
theorem Runner.Paired.rows_eq {catalog : Catalog} {batchSize : Nat}
    {interpreted compiled : Except Error (List Row)}
    (paired : Paired catalog batchSize plan interpreted compiled) (rows : List Row) :
    compiled = .ok rows ↔ interpreted = .ok rows := by
  cases paired with
  | unbuilt => exact Iff.rfl
  | ran id yields fuses =>
    have settled := yields.settles fun never => never.elim
    have also := fuses.settles Site.Fuses.settles
    rw [also.ended_eq_ok_iff, settled.ended_eq_ok_iff]

end Compiling

/-! ## Running queries -/

section Running

variable {config : Config} {log : List CacheEvent} {compiler : Compiler}
  {tree : PlanTree}
  {template : Template} {context : Context}

/-- With the template of a plan it is executed as without one. -/
theorem Runner.runTemplate_paired (history : Compiler.History config log compiler)
    (finished : tree.Built)
    (found : (compiler.tryTemplate tree.root).1 = .ok (some template)) (runner : Runner)
    (live : context.cancelled = false) :
    ∃ enough interpreted compiled,
      Paired runner.catalog template.batchSize tree.root interpreted compiled ∧
      ∀ fuel, enough ≤ fuel →
        (execute runner.catalog template.batchSize fuel context tree.root none).run =
        some interpreted ∧
        (runner.runTemplate fuel context tree.root template).run = some compiled := by
  obtain ⟨pairs, compiles, units⟩ := compiles_of_tryTemplate history finished found
  unfold runTemplate
  rw [Template.instantiate_eq units]
  exact execute_paired compiles finished.sound.distinct live

/-- With the template of a plan, execution comes to the rows of the plan, or to an error when there
are none. -/
theorem Runner.runTemplate_outcome (history : Compiler.History config log compiler)
    (finished : tree.Built)
    (found : (compiler.tryTemplate tree.root).1 = .ok (some template)) (runner : Runner)
    (live : context.cancelled = false) :
    ∃ enough, ∀ fuel, enough ≤ fuel → ∃ outcome,
      (runner.runTemplate fuel context tree.root template).run = some outcome ∧
      ∀ rows, outcome = .ok rows ↔ tree.root.outcome runner.catalog = .ok rows := by
  obtain ⟨first, interpreted, compiled, paired, runs⟩ :=
    runTemplate_paired history finished found runner live
  obtain ⟨second, interprets⟩ := execute_outcome runner.catalog template.batchSize context tree.root
  refine ⟨max first second, fun fuel more => ⟨compiled, (runs fuel (by omega)).2, fun rows => ?_⟩⟩
  obtain ⟨outcome, known, answers⟩ := interprets fuel (by omega)
  have equal : some outcome = some interpreted := known.symm.trans (runs fuel (by omega)).1
  cases equal
  rw [paired.rows_eq, answers]
  exact and_iff_right live

/-- Whether a plan is run with units or interpreted, it comes to its rows, or to an error when there
are none. -/
theorem Runner.runOrInterpret_outcome {runner : Runner} {plan : Plan}
    (live : context.cancelled = false) (choice : Option Template)
    (compiled : ∀ template ∈ choice, ∃ enough, ∀ fuel, enough ≤ fuel → ∃ outcome,
      (runner.runTemplate fuel context plan template).run = some outcome ∧
      ∀ rows, outcome = .ok rows ↔ plan.outcome runner.catalog = .ok rows) :
    ∃ enough, ∀ fuel, enough ≤ fuel → ∃ outcome,
      (runner.runOrInterpret fuel context plan choice).run = some outcome ∧
      ∀ rows, outcome.map Output.rows = .ok rows ↔ plan.outcome runner.catalog = .ok rows := by
  obtain ⟨least, interprets⟩ := execute_outcome runner.catalog
    runner.compiler.config.effectiveBatchSize context plan
  have falls : ∀ fuel, least ≤ fuel → ∃ outcome : Except Error Output,
      (do let rows ← runner.interpret fuel context plan; pure (⟨rows, .interpreted⟩ : Output) :
        Run Output).run = some outcome ∧
      ∀ rows, outcome.map Output.rows = .ok rows ↔ plan.outcome runner.catalog = .ok rows := by
    intro fuel more
    obtain ⟨outcome, ran, rows⟩ := interprets fuel more
    have ran : runner.interpret fuel context plan = Run.ofExcept outcome := ran
    refine ⟨outcome.map (⟨·, .interpreted⟩), ?_, fun result => ?_⟩
    · rw [ran]
      cases outcome <;> rfl
    · have same : (outcome.map fun rows => (⟨rows, .interpreted⟩ : Output)).map Output.rows =
        outcome := by
        cases outcome <;> rfl
      rw [same, rows]
      exact and_iff_right live
  cases choice with
  | none => exact ⟨least, falls⟩
  | some template =>
    obtain ⟨enough, runs⟩ := compiled template rfl
    refine ⟨max least enough, fun fuel more => ?_⟩
    obtain ⟨outcome, ran, rows⟩ := runs fuel (by omega)
    have ran : runner.runTemplate fuel context plan template = Run.ofExcept outcome := ran
    rw [runOrInterpret, ran]
    cases outcome with
    | ok rows' => exact ⟨.ok ⟨rows', .compiled⟩, rfl, rows⟩
    | error error =>
      cases fallback : error.isFallback with
      | true =>
        obtain ⟨outcome, fell, also⟩ := falls fuel (by omega)
        refine ⟨outcome, ?_, also⟩
        rw [← fell]
        show ExceptT.run (if error.isFallback then _ else _) = _
        rw [if_pos fallback]
      | false =>
        refine ⟨.error error, ?_, fun result => ?_⟩
        · show ExceptT.run (if error.isFallback then _ else _) = _
          rw [if_neg (by simp [fallback])]
          rfl
        · rw [← rows]
          exact ⟨nofun, nofun⟩

/-- Compiling keeps the rows of a query. In an execution that is not cancelled, a runner whose
compiler has any past comes to an end, and so does interpretation of the plan on the same maps. They
give the same rows in the same order, or both fail. -/
theorem compiling_keeps_rows (history : Compiler.History config log compiler)
    (finished : tree.Built) (catalog : Catalog) (nextId : UInt64)
    (live : context.cancelled = false) :
    ∃ enough, ∀ fuel, enough ≤ fuel → ∃ outcome next interpreted,
      Runner.runIn fuel context tree.root ⟨catalog, compiler, nextId⟩ = some (outcome, next) ∧
      (Runner.interpret ⟨catalog, compiler, nextId⟩ fuel context tree.root).run = some interpreted ∧
      (∀ rows, outcome.map Output.rows = .ok rows ↔ interpreted = .ok rows) ∧
      ((∃ error, outcome = .error error) ↔ ∃ error, interpreted = .error error) := by
  let runner : Runner := ⟨catalog, (compiler.template tree.root).2, nextId⟩
  have chosen : ∀ template ∈ (compiler.template tree.root).1,
      (compiler.tryTemplate tree.root).1 = .ok (some template) := by
    intro template member
    rw [Compiler.template] at member
    split at member
    · rename_i made
      rw [made]
      exact congrArg _ member
    · cases member
  obtain ⟨first, runs⟩ := @Runner.runOrInterpret_outcome context runner tree.root live
    (compiler.template tree.root).1 fun template member =>
      Runner.runTemplate_outcome history finished (chosen template member) runner live
  obtain ⟨second, interprets⟩ :=
    Runner.execute_outcome catalog compiler.config.effectiveBatchSize context tree.root
  refine ⟨max first second, fun fuel more => ?_⟩
  obtain ⟨outcome, ran, rows⟩ := runs fuel (by omega)
  obtain ⟨interpreted, also, same⟩ := interprets fuel (by omega)
  have agree : ∀ rows, outcome.map Output.rows = .ok rows ↔ interpreted = .ok rows := by
    intro result
    rw [rows, same]
    exact (and_iff_right live).symm
  refine ⟨outcome, runner, interpreted, ?_, also, agree, ?_⟩
  · rw [Runner.runIn]
    dsimp only
    rw [ran]
  · cases outcome with
    | ok output =>
      have given : interpreted = .ok output.rows := (agree _).1 rfl
      rw [given]
      exact ⟨nofun, nofun⟩
    | error error =>
      cases interpreted with
      | error reason => exact ⟨fun _ => ⟨reason, rfl⟩, fun _ => ⟨error, rfl⟩⟩
      | ok rows => cases (agree rows).2 rfl

end Running

/-- The plan of a run. -/
def peopleQuery : Plan :=
  .root 9 peopleRun

/-- The run is all of the plan. -/
theorem runEnds_peopleQuery : peopleQuery.runEnds = [peopleRun] := by
  have compilable : peopleRun.isCompilable = true :=
    (Plan.mem_runEnds (runEnds_halfCompiled ▸ List.mem_singleton_self _)).1
  rw [peopleQuery, Plan.runEnds_of_inputs rfl rfl, Plan.runEnds_of_isCompilable compilable]

/-- The rows of a plan that has a template. -/
theorem compiling_keeps_rows_people : ∃ tree template,
    PlanTree.ofNodes [(1, .scan (Generate.keyScan "Person"), []),
        (2, .filter (.isNull (.column 0 .int)), [1]), (9, .root, [2])] 9 = .ok tree ∧
      ((Compiler.start .standard).tryTemplate tree.root).1 = .ok (some template) ∧
      ∃ enough, ∀ fuel, enough ≤ fuel → ∃ outcome next,
        Runner.runIn fuel (.start 1) tree.root ⟨keyedSite.catalog, .start .standard, 2⟩ =
          some (outcome, next) ∧ outcome.map Output.rows = .ok [[.null]] := by
  have ordered : PlanTree.ofNodes [(1, .scan (Generate.keyScan "Person"), []),
      (2, .filter (.isNull (.column 0 .int)), [1]), (9, .root, [2])] 9 =
      .ok ⟨[.scan 1 (Generate.keyScan "Person"), peopleRun, peopleQuery], peopleQuery⟩ := rfl
  have rows : peopleQuery.outcome keyedSite.catalog = .ok [[.null]] := rfl
  obtain ⟨template, found⟩ := tryTemplate_peopleRun runEnds_peopleQuery
  obtain ⟨first, agrees⟩ := compiling_keeps_rows .start (PlanTree.built_of_ofNodes ordered)
    keyedSite.catalog 2 (rfl :
    (Context.start 1).cancelled = false)
  obtain ⟨second, interprets⟩ := Runner.execute_outcome keyedSite.catalog
    Config.standard.effectiveBatchSize (.start 1) peopleQuery
  refine ⟨_, template, ordered, found, max first second, fun fuel more => ?_⟩
  obtain ⟨outcome, next, interpreted, ran, also, same, -⟩ := agrees fuel (by omega)
  obtain ⟨given, known, answers⟩ := interprets fuel (by omega)
  have equal : some given = some interpreted := known.symm.trans also
  cases equal
  exact ⟨outcome, next, ran, (same _).2 ((answers _).2 ⟨rfl, rows⟩)⟩

end QueryFusion
