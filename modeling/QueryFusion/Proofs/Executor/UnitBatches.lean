import QueryFusion.Proofs.Executor.Binding
import QueryFusion.Proofs.Executor.Pages
import QueryFusion.Proofs.Generate.BatchCode

/-!
# Units answer as the executors they replace

A unit that has been bound to the executors of a run holds what they expose, so that its code makes
of each entry what the operators of the run make of it one after another. Its routine fills one
batch from the entries that follow, where interpretation fills a batch for each operator; but what
is handed on at the end is told by the rows of the run alone. So a unit and the interpreted
executors of its run answer with the same pages, step by step, also behind the last of them.
-/

namespace QueryFusion

open Script (CompiledUnit UnitInstance Contents Memory Slot FieldInfo Denotes)
open Generate (Generator Realizes FieldsFit StateVariable VariableKind Fragment Operates Equips
  Supplied cursorField registryOf partition)
open Emit (Local)

/-! ## The rows of a run -/

/-- The scan of a run reads this map. -/
def Plan.Scans (catalog : Catalog) (map : EntryMap) : Plan → Prop
  | scan _ spec => catalog.require spec.mapName = .ok map
  | filter _ _ input | project _ _ input => input.Scans catalog map
  | root .. | sort .. | join .. => False

/-- The entries of a map in the order in which a scan reads them. -/
def EntryMap.scanned (map : EntryMap) : List Entry :=
  (Cursor.start map map.allPartitions).rest

section Rows

variable {catalog : Catalog} {map : EntryMap} {plan : Plan} {rows : List Row}

/-- The parts of the scan of a map that is found. -/
theorem Site.scanState_of_require {site : Site} {spec : ScanSpec}
    (found : site.catalog.require spec.mapName = .ok map) :
    site.scanState spec = .ok (spec.over map) := by
  rw [scanState, found]
  rfl

/-- The images of images are those of two operators, one after the other. -/
theorem imagesOf_passOn {α : Type} {first : α → Except Error (Option Row)}
    {next : Row → Except Error (Option Row)} {items : List α} :
    imagesOf (fun item => passOn (first item) next) items = .ok rows ↔
      ∃ between, imagesOf first items = .ok between ∧ imagesOf next between = .ok rows := by
  induction items generalizing rows with
  | nil => simp [imagesOf]
  | cons item rest step =>
    rw [imagesOf, imagesOf]
    rcases first item with error | _ | row
    · simp
    · simp only [passOn_none, ok_bind, Option.toList_none, List.nil_append, bind_eq_ok_iff,
        Except.ok.injEq, exists_eq_right]
      exact step
    · simp only [passOn_some, ok_bind, Option.toList_some, List.singleton_append, bind_eq_ok_iff,
        Except.ok.injEq]
      constructor
      · rintro ⟨image, made, images, later, rfl⟩
        obtain ⟨between, passed, rest⟩ := step.1 later
        refine ⟨row :: between, ⟨between, passed, rfl⟩, ?_⟩
        rw [imagesOf, made, ok_bind, rest, ok_bind]
      · rintro ⟨_, ⟨between, passed, rfl⟩, later⟩
        obtain ⟨image, made, rest⟩ := bind_eq_ok_iff.1 later
        obtain ⟨images, others, same⟩ := bind_eq_ok_iff.1 rest
        cases same
        exact ⟨image, made, images, step.2 ⟨between, passed, others⟩, rfl⟩

/-- The rows of a run are what the run makes of the entries of its map. -/
theorem Plan.answer_eq_ok_iff (scans : plan.Scans catalog map) :
    plan.answer catalog = .ok rows ↔ imagesOf (plan.image map) map.scanned = .ok rows := by
  induction plan generalizing rows with
  | scan id spec =>
    have found := @Site.scanState_of_require map ⟨catalog, 1⟩ spec scans
    rw [answer, found]
    rfl
  | filter id condition input step =>
    rw [answer, bind_eq_ok_iff]
    refine Iff.trans (exists_congr fun between => and_congr_left fun _ => step scans) ?_
    exact imagesOf_passOn.symm
  | project id expressions input step =>
    rw [answer, bind_eq_ok_iff]
    refine Iff.trans (exists_congr fun between => and_congr_left fun _ => step scans) ?_
    exact imagesOf_passOn.symm
  | root id input step | sort id columns ascending input step => cases scans
  | join id condition left right leftStep rightStep => cases scans

end Rows

/-! ## Units that have been bound -/

namespace Site

variable {site : Site} {plan top : Plan} {row : List Local} {steps : List Generate.RowStep}
  {unit : CompiledUnit} {executor : Executor} {map : EntryMap} {number : Nat}

/-- A run that is built scans a map. -/
theorem exists_scans (compilable : plan.isCompilable = true)
    (built : site.interpreted plan = .ok executor) : ∃ map, plan.Scans site.catalog map := by
  induction plan generalizing executor with
  | scan id spec =>
    obtain ⟨state, found, -⟩ := bind_eq_ok_iff.1 built
    obtain ⟨map, required, -⟩ := bind_eq_ok_iff.1 found
    exact ⟨map, required⟩
  | filter id condition input step | project id expressions input step =>
    obtain ⟨producer, below, -⟩ := bind_eq_ok_iff.1 built
    exact step compilable below
  | root id input step | sort id columns ascending input step => cases compilable
  | join id condition left right leftStep rightStep => cases compilable

/-- The scan of a run exposes the map that it reads. -/
theorem exists_leaf_over (compilable : plan.isCompilable = true)
    (scans : plan.Scans site.catalog map) : ∃ spec : ScanSpec,
      Generator.scan plan.leafId spec ∈ plan.runGenerators ∧
        (Generator.scan plan.leafId spec).stateAt site = .scan (spec.over map) := by
  induction plan with
  | scan id spec =>
    refine ⟨spec, ?_, ?_⟩
    · rw [Plan.runGenerators_scan compilable]
      exact List.mem_singleton_self _
    · rw [Generator.stateAt, scanState_of_require scans]
  | filter id condition input step =>
    obtain ⟨spec, member, exposed⟩ := step compilable scans
    have below : input.isCompilable = true := compilable
    refine ⟨spec, ?_, exposed⟩
    rw [Plan.runGenerators_filter below]
    exact List.mem_append_left _ member
  | project id expressions input step =>
    obtain ⟨spec, member, exposed⟩ := step compilable scans
    have below : input.isCompilable = true := compilable
    refine ⟨spec, ?_, exposed⟩
    rw [Plan.runGenerators_project below]
    exact List.mem_append_left _ member
  | root id input step | sort id columns ascending input step => cases scans
  | join id condition left right leftStep rightStep => cases scans

/-- What the fields of a unit hold that has been bound and set up. -/
def running (site : Site) (plan : Plan) (number : Nat) : Contents :=
  (site.contents plan.runGenerators).assign (cursorField plan) (.handle (.cursor number))

/-- A field that a node binds is read in a unit that has been set up. -/
theorem readField_running (realizes : Realizes top row steps unit)
    (built : site.interpreted top = .ok executor) {generator : Generator} {entry : StateVariable}
    (member : generator ∈ top.runGenerators) (own : entry ∈ generator.stateVariables)
    (bound : entry.hasPrepare = true) (other : entry.kind ≠ .scanCursor) (batch : RowBatch)
    (cursors : List Cursor) :
    Script.readField unit entry.name (.of unit (site.running top number) batch cursors) =
      (.ok (entry.kind.exposed (generator.stateAt site)),
        .of unit (site.running top number) batch cursors) := by
  obtain ⟨kind, suits⟩ := suits_of_interpreted realizes.run.compilable built generator member
  have held : site.running top number entry.name = entry.kind.exposed (generator.stateAt site) := by
    refine (@Generate.assign_cursor_of_ne top _ _ other entry.nodeId _).trans ?_
    exact contents_of_mem (Generate.declared_apart realizes.run.compilable realizes.run.apart)
      member own bound
  have set : site.running top number entry.name ≠ .unset := by
    rw [held]
    exact VariableKind.ne_unset_of_fits (suits.exposed_fits own bound 0)
  rw [Script.readField_of (realizes.fields_of_mem member entry own) set, held]

/-- The current key and value are read by a unit that has been set up. -/
theorem reads_running (realizes : Realizes top row steps unit) {cursors : List Cursor}
    {cursor : Cursor} {entry : Entry} (here : cursors[number]? = some cursor)
    (stands : cursor.current = .ok entry) (batch : RowBatch) :
    Generate.Reads unit (.of unit (site.running top number) batch cursors) top.leafId entry := by
  intro ofKey env
  have held : site.running top number (cursorField top) = .handle (.cursor number) := if_pos rfl
  have set : site.running top number (cursorField top) ≠ .unset := by
    rw [held]
    exact nofun
  have field : cursorField top ∈ unit.fields.map FieldInfo.name :=
    realizes.leaf_field (List.mem_append_right _ (List.mem_singleton_self _))
  have read := @Script.readField_of unit _ batch cursors _ field set
  rw [held] at read
  have receiver : Denotes unit (.of unit (site.running top number) batch cursors) env
      (Generate.cursorTerm top.leafId) (.ok (.handle (.cursor number))) := .field read
  refine .method rfl rfl (by cases ofKey <;> decide) receiver rfl ?_
  have called : Script.callMethod (Generate.sideName ofKey) (.handle (.cursor number)) []
      (.of unit (site.running top number) batch cursors) = Script.called
        (Script.invoke cursors (if ofKey then .cursorKey else .cursorValue)
          (.handle (.cursor number)) []) (.of unit (site.running top number) batch cursors) := by
    cases ofKey <;> rfl
  have invoked : Script.invoke cursors (if ofKey then .cursorKey else .cursorValue)
      (.handle (.cursor number)) [] = .ok (.value (sideOf ofKey entry), cursors) := by
    cases ofKey <;>
      simp only [Bool.false_eq_true, if_true, if_false, Script.invoke, Slot.isNull,
        here, Cursor.key, Cursor.value, stands] <;> rfl
  rw [called, invoked]
  rfl

/-- A unit that has been set up has what the code of a part of its run reads. -/
theorem equips_running (realizes : Realizes top row steps unit)
    (built : site.interpreted top = .ok executor) (compilable : plan.isCompilable = true)
    (part : ∀ generator ∈ plan.runGenerators, generator ∈ top.runGenerators)
    (leaf : plan.leafId = top.leafId) (scans : plan.Scans site.catalog map) {cursors : List Cursor}
    {cursor : Cursor} {entry : Entry} (here : cursors[number]? = some cursor)
    (stands : cursor.current = .ok entry) (batch : RowBatch) :
    Equips unit (.of unit (site.running top number) batch cursors) entry plan := by
  induction plan with
  | scan id spec =>
    have reads := @reads_running site top row steps unit number realizes _ _ _ here stands batch
    rw [← leaf] at reads
    refine ⟨reads, fun condition filtered => ?_⟩
    rw [Plan.runGenerators_scan compilable, List.forall_mem_singleton] at part
    have apart : Generate.VariableKind.scanFilter ≠ .scanCursor := by decide
    have read := @readField_running site top row steps unit executor number realizes built _
      ⟨id, .scanFilter, .bound Script.Method.scanFilter.name⟩ part
      (List.mem_append_left _ (List.mem_map.2 ⟨(.scanFilter, .scanFilter), by decide, rfl⟩)) rfl
        apart
      batch cursors
    have filter : (spec.over map).filter = some condition := filtered
    simp only [Generator.stateAt, scanState_of_require scans, VariableKind.exposed, filter] at read
    exact read
  | filter id condition input step =>
    have below : input.isCompilable = true := compilable
    rw [Plan.runGenerators_filter below, List.forall_mem_append, List.forall_mem_singleton] at part
    have apart : Generate.VariableKind.filterCondition ≠ .scanCursor := by decide
    refine ⟨?_, step below part.1 leaf scans⟩
    exact readField_running realizes built part.2 (List.mem_singleton_self _) rfl apart
      batch cursors
  | project id expressions input step =>
    have below : input.isCompilable = true := compilable
    rw [Plan.runGenerators_project below, List.forall_mem_append, List.forall_mem_singleton] at part
    have apart : Generate.VariableKind.projectExpressions ≠ .scanCursor := by decide
    refine ⟨?_, step below part.1 leaf scans⟩
    exact readField_running realizes built part.2 (List.mem_singleton_self _) rfl apart
      batch cursors
  | root id input step | sort id columns ascending input step => cases compilable
  | join id condition left right leftStep rightStep => cases compilable

/-- A unit that has been bound and set up operates. -/
theorem operates (realizes : Realizes plan row steps unit)
    (built : site.interpreted plan = .ok executor) (scans : plan.Scans site.catalog map)
    (number : Nat) : Operates plan row steps unit (site.running plan number) number := by
  have compilable := realizes.run.compilable
  obtain ⟨name, routine, advances, -⟩ := realizes.code
  have proper := advances.proper compilable realizes.run.positive fun _ member => member
  refine ⟨advances.code, compilable, realizes.run.positive _ (Plan.id_mem_runIds compilable),
    Generate.RowStep.underscored proper,
    realizes.leaf_field (List.mem_append_right _ (List.mem_singleton_self _)), if_pos rfl, ?_⟩
  intro batch cursors cursor entry here stands
  exact equips_running realizes built compilable (fun _ member => member) rfl scans here
    stands batch

end Site

/-! ## Steps of units -/

/-- The instance has been set up, and goes on with these entries of the map of its run. -/
inductive Script.UnitInstance.Stands (plan : Plan) (map : EntryMap) (capacity : Nat) :
    UnitInstance → List Entry → Prop
  | of {row : List Local} {steps : List Generate.RowStep} {unit : CompiledUnit} {content : Contents}
      {number : Nat} {batch : RowBatch} {cursors : List Cursor} {cursor : Cursor}
      {bound : List NodeId}
      (realizes : Generate.Realizes plan row steps unit)
      (operates : Operates plan row steps unit content number)
      (fits : FieldsFit plan cursors.length content)
      (reached : ∀ cursor ∈ cursors, cursor.Reachable)
      (here : cursors[number]? = some cursor) (size : batch.capacity = capacity) :
      Stands plan map capacity ⟨unit, .of unit content batch cursors, bound, true⟩ cursor.rest

/-- A step of a unit fills its batch from the entries that follow. -/
theorem Script.UnitInstance.Stands.advance {plan : Plan} {map : EntryMap} {capacity : Nat}
    {subject : UnitInstance} {entries : List Entry}
    (stands : subject.Stands plan map capacity entries) : ∃ enough next,
      (∀ fuel, enough ≤ fuel → subject.advance fuel =
        some ((fillItems (plan.image map) none entries ⟨[], capacity⟩).1, next)) ∧
      next.memory.batch.rows = (fillItems (plan.image map) none entries ⟨[], capacity⟩).2.1.rows ∧
      ∀ progress, (fillItems (plan.image map) none entries ⟨[], capacity⟩).1 = .ok progress →
        next.Stands plan map capacity
          (fillItems (plan.image map) none entries ⟨[], capacity⟩).2.2 := by
  cases stands with
  | @of row steps unit content number batch cursors cursor bound realizes operates fits reached
      here size =>
    have empty : batch.clear = ⟨[], capacity⟩ := by rw [RowBatch.clear, size]
    obtain ⟨next, executed, reaches, left⟩ :=
      @Operates.exec_advance _ _ _ _ _ _ batch _ _ operates map here
      _ (Nat.lt_succ_self cursor.rest.length)
    rw [empty] at executed left
    have held := @Generate.Realizes.memory_fits _ _ _ batch cursors _ _ realizes fits reached
    obtain ⟨enough, ran⟩ := (realizes.advance_iff held _).2 ⟨_, executed⟩
    have kept := @fillItems_capacity _ (plan.image map) none cursor.rest ⟨[], capacity⟩
    generalize fillItems (plan.image map) none cursor.rest
      ⟨[], capacity⟩ = filled at ran left kept ⊢
    obtain ⟨outcome, full, rest⟩ := filled
    let moved : UnitInstance := ⟨unit, .of unit content full (cursors.set number next), bound, true⟩
    refine ⟨enough, moved, fun fuel more => ?_, rfl, fun progress done => ?_⟩
    · refine advance_agrees more _ _ ?_
      unfold UnitInstance.advance
      simp only [Bool.not_true, Bool.false_eq_true, if_false, ran]
      cases outcome <;> rfl
    · have inside : number < cursors.length := (List.getElem?_eq_some_iff.1 here).1
      rw [← left progress done]
      refine .of realizes operates (by rwa [List.length_set]) (fun other member => ?_)
        (List.getElem?_set_self inside) kept
      rcases List.mem_or_eq_of_mem_set member with old | rfl
      · exact reached other old
      · exact reaches (reached cursor (List.mem_of_getElem? here))

/-- The same step of the executor that is the unit. -/
theorem Script.UnitInstance.Stands.step {plan : Plan} {map : EntryMap} {capacity : Nat} :
    Executor.FillsFrom (plan.image map) capacity fun executor entries =>
      ∃ subject, executor = .compiled subject ∧
        UnitInstance.Stands plan map capacity subject entries := by
  rintro _ entries ⟨subject, rfl, stands⟩
  obtain ⟨enough, next, advanced, shown, goesOn⟩ := stands.advance
  refine ⟨enough + 1, .compiled next, fun fuel more => ?_, shown, fun progress done =>
    ⟨next, rfl, goesOn progress done⟩⟩
  obtain ⟨fuel, rfl⟩ : ∃ less, fuel = less + 1 := ⟨fuel - 1, by omega⟩
  rw [Executor.advance, advanced fuel (by omega)]
  rfl

/-- A unit answers with what its run makes of the entries that follow. -/
theorem Script.UnitInstance.Stands.answers {plan : Plan} {map : EntryMap} {capacity : Nat}
    {subject : UnitInstance} {entries : List Entry} {rows : List Row}
    (stands : subject.Stands plan map capacity entries) (positive : 0 < capacity)
    (known : imagesOf (plan.image map) entries = .ok rows) :
    (Executor.compiled subject).Answers capacity rows :=
  Executor.answers_of_stands positive Stands.step ⟨subject, rfl, stands⟩ known

/-- Offers executors to an instance, one after another. -/
def Script.UnitInstance.prepareAll (fuel : Nat) :
    List Executor → UnitInstance → Step UnitInstance Unit
  | [], subject => some (.ok (), subject)
  | executor :: rest, subject =>
    match subject.prepare fuel executor.id executor.state with
    | some (.ok (), next) => prepareAll fuel rest next
    | other => other

/-- Executors that are bound are accepted one after another. -/
theorem BindsAll.prepareAll {registry : Generate.Registry} {order : List Executor}
    {subject last : UnitInstance} (binds : BindsAll registry order subject last) :
    ∃ enough, ∀ fuel, enough ≤ fuel → subject.prepareAll fuel order = some (.ok (), last) := by
  induction binds with
  | nil => exact ⟨0, fun _ _ => rfl⟩
  | cons first rest step =>
    obtain ⟨least, prepared⟩ := first.succeeds
    obtain ⟨enough, others⟩ := step
    refine ⟨max least enough, fun fuel more => ?_⟩
    rw [UnitInstance.prepareAll, prepared fuel (by omega)]
    exact others fuel (by omega)

namespace Site

variable {site : Site} {plan : Plan} {row : List Local} {steps : List Generate.RowStep}
  {unit : CompiledUnit} {executor : Executor} {map : EntryMap}

/-- A unit that has been bound is supplied with the map of its run, and with all of its
partitions. -/
theorem supplied_over (realizes : Realizes plan row steps unit)
    (built : site.interpreted plan = .ok executor) (scans : plan.Scans site.catalog map) :
    Supplied plan (site.contents plan.runGenerators) map map.allPartitions := by
  have compilable := realizes.run.compilable
  obtain ⟨state, supplied⟩ := site.supplied realizes built
  obtain ⟨spec, member, exposed⟩ := exists_leaf_over compilable scans
  have held := contents_scan realizes member exposed
  exact { supplied with
    map := held (.scanMap, .scanMap) (by decide)
    partitions := held (.scanPartitions, .scanPartitions) (by decide) }

/-- A unit that has been bound to all executors of its run is set up, and goes on with all
entries. -/
theorem stands_setup (realizes : Realizes plan row steps unit)
    (built : site.interpreted plan = .ok executor) (scans : plan.Scans site.catalog map)
    (batchSize : Nat) {bound : List NodeId} (complete : ∀ id ∈ unit.subsumedIds, id ∈ bound)
    {context : Context} (live : context.check = .ok ()) : ∃ enough started,
      (∀ fuel, enough ≤ fuel → UnitInstance.setup fuel context ⟨unit, .of unit
        (site.contents plan.runGenerators) (.empty batchSize) [], bound, false⟩ =
          some (.ok (), started)) ∧
      started.Stands plan map (max batchSize 1) map.scanned := by
  have supplied := site.supplied_over realizes built scans
  have kept := supplied.kept realizes
  obtain ⟨enough, started, done⟩ := @Supplied.ready plan row steps unit _ map map.allPartitions _
    (.empty batchSize) [] context supplied realizes bound complete kept
      (List.forall_mem_nil _) live false
  rcases supplied.setup_cases realizes kept (List.forall_mem_nil _) done with ⟨failed, -⟩ | ⟨-, rfl⟩
  · exact absurd rfl failed
  rw [Generate.assign_self] at done
  have reached : ∀ cursor ∈ [Cursor.start map map.allPartitions], cursor.Reachable :=
    List.forall_mem_singleton.2 (.start _ _)
  exact ⟨enough, _, fun fuel more => UnitInstance.setup_agrees more context _ _ done,
    .of realizes (site.operates realizes built scans 0)
      (supplied.fits_assign (Generate.cursor_kept [] (.start map map.allPartitions)))
        reached rfl rfl⟩

end Site

/-- For the unit of a fragment and the executors that interpret it, over any maps and with any batch
size: offered to a new instance in any order, these bind it, and it is set up where they are. When
they come to their end without an error, every step of the unit ends, and it has the outcome and
shows the rows that the same step of the executors has and shows, also behind the end: each batch
that is fetched is full, and together they are all rows of the fragment. -/
theorem units_answer_as_interpreted {tree : PlanTree} (finished : tree.Built)
    {fragments : List Fragment} (split : partition tree.root = .ok fragments) {fragment : Fragment}
    (member : fragment ∈ fragments) {generated : Generate.GeneratedUnit}
    (written : fragment.generate = .ok generated) {unit : CompiledUnit}
    (compiled : generated.compile = .ok unit) {site : Site} (positive : 1 ≤ site.batchSize)
    {fuel : Nat} {executor : Executor}
    (built : site.buildNode fuel fragment.plan none = pure (executor, none)) {context : Context}
    {spent : Nat} {rows : List Row} {last : Executor}
    (collected : executor.collect context spent = some (.ok rows, last)) {order : List Executor}
    (perm : order.Perm executor.postOrder) :
    ∃ bound started armed,
      (∃ enough, ∀ fuel, enough ≤ fuel →
        UnitInstance.prepareAll fuel order (.start unit site.batchSize) = some (.ok (), bound) ∧
        bound.setup fuel context = some (.ok (), started) ∧
        executor.setup context fuel = some (.ok (), armed)) ∧
      (Executor.compiled started).Answers site.batchSize rows ∧
      armed.Answers site.batchSize rows ∧
      (∀ step, (pageAt site.batchSize rows step).1 = .fetched →
        (pageAt site.batchSize rows step).2.length = site.batchSize) ∧
      ∃ final, (∀ step, (pageAt site.batchSize rows step).1 = .finished ↔ final ≤ step) ∧
        ((List.range (final + 1)).flatMap fun step => (pageAt site.batchSize rows step).2) = rows ∧
        ∀ step, final < step → (pageAt site.batchSize rows step).2 = [] := by
  obtain ⟨same, run⟩ := Generate.isRun_of_partition finished split member
  rw [same] at written
  obtain ⟨row, steps, realizes⟩ := Generate.realizes_of_compile run written compiled
  have below := (Site.buildNode_none_eq_pure_iff.1 built).1
  obtain ⟨map, scans⟩ := Site.exists_scans run.compilable below
  have size : max site.batchSize 1 = site.batchSize := Nat.max_eq_left positive
  obtain ⟨live, answer⟩ : context.cancelled = false ∧
      fragment.plan.answer site.catalog = .ok rows := by
    obtain ⟨enough, delivered, ending, yields, collects⟩ :=
      (Site.ready_of_interpreted context below).collect
    obtain ⟨next, ended⟩ := collects (max enough spent) (Nat.le_max_left _ _)
    have agreed := Executor.collect_agrees context (Nat.le_max_right enough spent) _ _ collected
    rw [ended] at agreed
    have settled := yields.settles fun never => never.elim
    cases live : context.cancelled with
    | true =>
      rw [live] at agreed
      cases agreed
    | false =>
      rw [live] at agreed
      exact ⟨rfl, settled.ended_eq_ok_iff.1 (congrArg Prod.fst (Option.some.inj agreed))⟩
  obtain ⟨first, armed, arms, interprets⟩ :=
    Site.answers_interpreted context run.compilable below answer
  rw [size] at interprets
  obtain ⟨ids, binds, complete⟩ := Site.bindsAll_perm site.batchSize realizes below perm
  obtain ⟨second, prepared⟩ := binds.prepareAll
  obtain ⟨third, started, sets, stands⟩ :=
    Site.stands_setup realizes below scans site.batchSize complete (context.check_eq_ok_iff.2 live)
  rw [size] at stands
  refine ⟨_, started, armed, ⟨max first (max second third), fun fuel more =>
    ⟨prepared fuel (by omega), sets fuel (by omega), arms fuel (by omega)⟩⟩,
    stands.answers positive ((Plan.answer_eq_ok_iff scans).1 answer), interprets,
    fun step => length_pageAt, lastPage site.batchSize rows, fun step => ?_,
    flatMap_pageAt positive rows, fun step behind => ?_⟩
  · rw [progress_pageAt positive]
    split <;> simp <;> omega
  · rw [pageAt_of_lastPage_lt positive behind]

/-- A site with a map whose second entry does not pass the filter of the run of a half compiled
plan. -/
def keyedSite : Site :=
  ⟨Catalog.empty.register ((EntryMap.empty "people" 1).putAll
    [(.null, .object 0 "Person" []), (.int 7, .object 1 "Person" [])]), 1⟩

/-- The entry that passes comes in a full batch, and an empty one ends the run. -/
theorem units_answer_as_interpreted_keyed : ∃ tree fragments generated unit executor last,
    PlanTree.ofNodes
        [(1, .scan (Generate.keyScan "Person"), []), (3, .scan (Generate.keyScan "1st"), []),
         (2, .filter (.isNull (.column 0 .int)), [1]), (4, .join none, [2, 3]), (9, .root, [4])]
        9 = .ok tree ∧
      partition tree.root = .ok fragments ∧ Fragment.ofPlan peopleRun ∈ fragments ∧
      (Fragment.ofPlan peopleRun).generate = .ok generated ∧ generated.compile = .ok unit ∧
      keyedSite.buildNode 0 (Fragment.ofPlan peopleRun).plan none = pure (executor, none) ∧
      executor.collect (.start 1) 8 = some (.ok [[.null]], last) ∧
      (pageAt 1 [[.null]] 0 = (.fetched, [[.null]]) ∧ pageAt 1 [[.null]] 1 = (.finished, [])) ∧
      ∃ started armed : Executor, started.isCompiled = true ∧
        started.Answers 1 [[.null]] ∧ armed.Answers 1 [[.null]] := by
  have split := partition_halfCompiled
  have member : Fragment.ofPlan peopleRun ∈ [Fragment.ofPlan peopleRun] := List.mem_singleton_self _
  obtain ⟨generated, unit, written, compiled⟩ := compile_peopleRun
  obtain ⟨executor, built, last, collected⟩ : ∃ executor,
      keyedSite.buildNode 0 (Fragment.ofPlan peopleRun).plan none = pure (executor, none) ∧
        ∃ last, executor.collect (.start 1) 8 = some (.ok [[.null]], last) := ⟨_, rfl, _, rfl⟩
  obtain ⟨bound, started, armed, -, answers, interprets, -⟩ := units_answer_as_interpreted
    Generate.built_halfCompiled split member written compiled (by decide) built collected
      (List.Perm.refl _)
  exact ⟨_, _, generated, unit, executor, last, Generate.ofNodes_halfCompiled, split, member,
    written, compiled, built,
    collected, ⟨rfl, rfl⟩, .compiled started, armed, rfl, answers, interprets⟩

end QueryFusion
