import QueryFusion.Proofs.Executor.Operators
import QueryFusion.Session.Runner

/-!
# Interpreted plans

The rows of an interpreted plan are a function of the plan and the maps it reads. Each executor of
the plan delivers the rows of its node, or fails when the node has none, whatever the batch size.
-/

namespace QueryFusion

/-! ## Deliveries of executors -/

namespace Executor

variable [RowSort]

/-- With enough fuel an executor that has been set up delivers rows, and comes to an ending, of
which this holds. -/
def Gives (executor : Executor) (holds : List Row → Option Error → Prop) : Prop :=
  ∃ fuel batches ending, Delivers (supply fuel) executor batches ending ∧
    holds batches.flatten ending

variable {upstream left right : Executor} {input leftInput rightInput holds : List Row →
  Option Error → Prop}

/-- The fuel of a delivery may be any larger one. -/
theorem Gives.enough (gives : upstream.Gives holds) :
    ∃ fuel batches ending, (∀ more, fuel ≤ more → Delivers (supply more) upstream batches ending) ∧
      holds batches.flatten ending := by
  obtain ⟨fuel, batches, ending, delivers, held⟩ := gives
  exact ⟨fuel, batches, ending, fun more bound => delivers.agree (supply_agree bound), held⟩

/-- A filter gives what is filled from the rows of its input. -/
theorem gives_filter {subject : Filter Executor} (given : upstream.Gives input)
    (fresh : subject.input = .start upstream) (positive : 0 < subject.batch.capacity)
    (passes : ∀ rows ending out result, input rows ending →
      Batches (Filter.transform subject.condition) ending subject.batch.capacity rows out result →
      holds out.flatten result) : (filter subject).Gives holds := by
  obtain ⟨fuel, batches, ending, delivers, held⟩ := given.enough
  obtain ⟨out, result, filled⟩ :=
    Batches.total (Filter.transform subject.condition) ending positive batches.flatten
  obtain ⟨more, bound⟩ : ∃ more, fuel + batches.length + batches.flatten.length + 2 < more :=
    ⟨_, Nat.lt_succ_self _⟩
  have inner := Filter.delivers (delivers more (by omega)) fresh (by omega : _ < more) filled
  exact ⟨more + 1, out, result, inner.embed (supply _) filter (fun _ => rfl) fun _ => rfl,
    passes _ _ _ _ held filled⟩

/-- A projection gives what is filled from the rows of its input. -/
theorem gives_project {subject : Project Executor} (given : upstream.Gives input)
    (fresh : subject.input = .start upstream) (positive : 0 < subject.batch.capacity)
    (passes : ∀ rows ending out result, input rows ending →
      Batches (Project.transform subject.expressions) ending subject.batch.capacity rows
        out result →
      holds out.flatten result) : (project subject).Gives holds := by
  obtain ⟨fuel, batches, ending, delivers, held⟩ := given.enough
  obtain ⟨out, result, filled⟩ :=
    Batches.total (Project.transform subject.expressions) ending positive batches.flatten
  obtain ⟨more, bound⟩ : ∃ more, fuel + batches.length + batches.flatten.length + 2 < more :=
    ⟨_, Nat.lt_succ_self _⟩
  have inner := Project.delivers (delivers more (by omega)) fresh (by omega : _ < more) filled
  exact ⟨more + 1, out, result, inner.embed (supply _) project (fun _ => rfl) fun _ => rfl,
    passes _ _ _ _ held filled⟩

/-- A sort gives the sorted rows of its input, or none when the input fails. -/
theorem gives_sorter {subject : Sorter Executor} (given : upstream.Gives input)
    (fresh : subject.input = .start upstream) (unread : subject.sorted = none)
    (positive : 0 < subject.batch.capacity)
    (sorts : ∀ rows, input rows none →
      holds (RowSort.sort (compareRows subject.columns subject.ascending) rows) none)
    (fails : ∀ rows error, input rows (some error) → holds [] (some error)) :
    (sorter subject).Gives holds := by
  obtain ⟨fuel, batches, ending, delivers, held⟩ := given.enough
  obtain ⟨more, bound⟩ : ∃ more, fuel + batches.length + batches.flatten.length + 2 < more :=
    ⟨_, Nat.lt_succ_self _⟩
  have delivers := delivers more (by omega)
  cases ending with
  | none =>
    obtain ⟨out, inner, split⟩ :=
      Sorter.delivers delivers fresh unread (by omega : _ < more) positive
    exact ⟨more + 1, out, none, inner.embed (supply _) sorter (fun _ => rfl) fun _ => rfl,
      split.whole ▸ sorts _ held⟩
  | some error =>
    have inner := Sorter.delivers_failure delivers fresh unread (by omega : _ < more)
    exact ⟨more + 1, [], some error, inner.embed (supply _) sorter (fun _ => rfl) fun _ => rfl,
      fails _ _ held⟩

/-- A join reads its right input, and gives what is filled from the pairs with each left row. -/
theorem gives_join {subject : Join Executor} (lefts : left.Gives leftInput)
    (rights : right.Gives rightInput) (fresh : subject.Fresh left right)
    (positive : 0 < subject.batch.capacity)
    (joins : ∀ leftRows ending rightRows out result, leftInput leftRows ending →
      rightInput rightRows none →
      Batches (Join.combine subject.condition) ending subject.batch.capacity
        (Join.pairs leftRows rightRows) out result → holds out.flatten result)
    (fails : ∀ rightRows error, rightInput rightRows (some error) → holds [] (some error)) :
    (join subject).Gives holds := by
  obtain ⟨leftFuel, leftBatches, ending, leftDelivers, leftHeld⟩ := lefts.enough
  obtain ⟨rightFuel, rightBatches, rightEnding, rightDelivers, rightHeld⟩ := rights.enough
  obtain ⟨fuel, bound⟩ : ∃ fuel, leftFuel + rightFuel + leftBatches.length +
      2 * leftBatches.flatten.length + rightBatches.length + rightBatches.flatten.length +
        3 < fuel :=
    ⟨_, Nat.lt_succ_self _⟩
  have leftDelivers := leftDelivers fuel (by omega)
  have rightDelivers := rightDelivers fuel (by omega)
  cases rightEnding with
  | none =>
    obtain ⟨out, result, filled⟩ := Batches.total (Join.combine subject.condition) ending positive
      (Join.pairs leftBatches.flatten rightBatches.flatten)
    have inner := Join.delivers leftDelivers rightDelivers fresh
      (by omega : _ < fuel) (by omega) filled
    exact ⟨fuel + 1, out, result, inner.embed (supply _) join (fun _ => rfl) fun _ => rfl,
      joins _ _ _ _ _ leftHeld rightHeld filled⟩
  | some error =>
    have inner := Join.delivers_failure rightDelivers fresh (by omega : _ < fuel)
    exact ⟨fuel + 1, [], some error, inner.embed (supply _) join (fun _ => rfl) fun _ => rfl,
      fails _ _ rightHeld⟩

end Executor

/-! ## Scans -/

namespace Scan

/-- How rows are pulled from a scan. -/
def supply (fuel : Nat) : Supply Scan :=
  ⟨advance fuel, fun scan => scan.batch.rows⟩

/-- A scan fills its batch from the entries that follow. -/
theorem fill_eq (state : ScanState) {cursor : Cursor} {entries : List Entry} {fuel : Nat}
    (follow : cursor.rest = entries) (enough : entries.length < fuel) (batch : RowBatch) :
    ∃ next, fill state fuel cursor batch = some ((fillItems state.outputRow none entries batch).1,
        next, (fillItems state.outputRow none entries batch).2.1) ∧
      ∀ progress, (fillItems state.outputRow none entries batch).1 = .ok progress →
        next.rest = (fillItems state.outputRow none entries batch).2.2 := by
  induction entries generalizing cursor fuel batch with
  | nil =>
    obtain ⟨fuel, rfl⟩ : ∃ less, fuel = less + 1 := ⟨fuel - 1, by omega⟩
    obtain ⟨missing, left⟩ := Cursor.advance_of_rest_nil follow
    rcases moved : cursor.advance with ⟨_, next⟩
    rw [moved] at missing left
    obtain rfl : _ = false := missing
    rw [fill, moved]
    exact ⟨next, rfl, fun _ _ => left⟩
  | cons entry entries step =>
    obtain ⟨fuel, rfl⟩ : ∃ less, fuel = less + 1 := ⟨fuel - 1, by omega⟩
    obtain ⟨found, stands, behind⟩ := Cursor.advance_of_rest_cons follow
    rcases moved : cursor.advance with ⟨_, next⟩
    rw [moved] at found stands behind
    obtain rfl : _ = true := found
    rw [List.length_cons] at enough
    have later := fun batch => step behind (by omega : entries.length < fuel) batch
    rw [fill, moved, fillItems]
    simp only [stands, Except.bind]
    rcases state.outputRow entry with _ | _ | row
    · exact ⟨next, rfl, fun progress never => by cases never⟩
    · exact later batch
    · dsimp only
      split
      · exact later (batch.add row)
      · exact ⟨next, rfl, fun _ _ => behind⟩

/-- The scan goes on with these entries. -/
structure Stands (fuel : Nat) (state : ScanState) (capacity : Nat) (scan : Scan)
    (entries : List Entry) : Prop where
  state : scan.state = state
  capacity : scan.batch.capacity = capacity
  lasts : entries.length < fuel
  placed : ∃ cursor, scan.cursor = some cursor ∧ cursor.rest = entries

/-- A step of a scan fills its batch from the entries that follow. -/
theorem Stands.advance {fuel : Nat} {state : ScanState} {capacity : Nat} {scan : Scan}
    {entries : List Entry} (stands : scan.Stands fuel state capacity entries) : ∃ next,
      scan.advance fuel = some ((fillItems state.outputRow none entries ⟨[], capacity⟩).1, next) ∧
      next.batch.rows = (fillItems state.outputRow none entries ⟨[], capacity⟩).2.1.rows ∧
      ∀ progress, (fillItems state.outputRow none entries ⟨[], capacity⟩).1 = .ok progress →
        next.Stands fuel state capacity
          (fillItems state.outputRow none entries ⟨[], capacity⟩).2.2 := by
  obtain ⟨cursor, placed, follow⟩ := stands.placed
  have lasts := stands.lasts
  obtain ⟨next, done, goesOn⟩ := fill_eq state follow lasts ⟨[], capacity⟩
  have shorter := @fillItems_rest_length _ state.outputRow none entries ⟨[], capacity⟩
  refine ⟨{ scan with cursor := some next, batch := _ }, ?_, rfl, fun progress ended =>
    ⟨stands.state, fillItems_capacity _ _, by omega, next, rfl, goesOn progress ended⟩⟩
  simp only [Scan.advance, placed, RowBatch.clear, stands.capacity, stands.state, done]

/-- A scan delivers the batches that are filled from the entries that follow. -/
theorem delivers {scan : Scan} {cursor : Cursor} {fuel : Nat} {out : List (List Row)}
    {result : Option Error} (placed : scan.cursor = some cursor)
    (enough : cursor.rest.length < fuel)
    (filled : Batches scan.state.outputRow none scan.batch.capacity cursor.rest out result) :
    Delivers (supply fuel) scan out result :=
  filled.delivers (Stands fuel scan.state scan.batch.capacity) (fun _ _ stands => stands.advance)
    ⟨rfl, rfl, enough, cursor, placed, rfl⟩

end Scan

section AnySort

variable [RowSort]

/-- A scan gives what is filled from the entries that follow. -/
theorem Executor.gives_scan {source : Scan} {cursor : Cursor}
    {holds : List Row → Option Error → Prop} (placed : source.cursor = some cursor)
    (positive : 0 < source.batch.capacity)
    (fills : ∀ out result, Batches source.state.outputRow none source.batch.capacity cursor.rest out
      result → holds out.flatten result) : (scan source).Gives holds := by
  obtain ⟨out, result, filled⟩ :=
    Batches.total source.state.outputRow none positive cursor.rest
  have inner := Scan.delivers placed (Nat.lt_succ_self cursor.rest.length) filled
  exact ⟨cursor.rest.length + 1 + 1, out, result,
    inner.embed (supply _) scan (fun _ => rfl) fun _ => rfl, fills _ _ filled⟩

/-! ## Executors of a plan -/

namespace Executor

/-- Setting up the executor for an execution succeeds, and then it delivers rows with an ending of
which this holds. -/
def Ready (context : Context) (executor : Executor) (holds : List Row → Option Error → Prop) :
    Prop :=
  ∃ enough armed, (∀ fuel, enough ≤ fuel → setup context fuel executor = some (.ok (), armed)) ∧
    armed.Gives holds

/-- What is delivered may be told with less detail. -/
theorem Ready.mono {context : Context} {executor : Executor}
    {holds other : List Row → Option Error → Prop} (ready : executor.Ready context holds)
    (follows : ∀ rows ending, holds rows ending → other rows ending) :
    executor.Ready context other := by
  obtain ⟨enough, armed, arms, fuel, batches, ending, delivers, held⟩ := ready
  exact ⟨enough, armed, arms, fuel, batches, ending, delivers, follows _ _ held⟩

omit [RowSort] in
/-- The feed of an executor that is ready is set up. -/
theorem setupFeed_eq {context : Context} {producer armed : Executor} {enough : Nat}
    (arms : ∀ fuel, enough ≤ fuel → setup context fuel producer = some (.ok (), armed))
    {fuel : Nat} (bound : enough ≤ fuel) :
    setupFeed (setup context fuel) (.start producer) = some (.ok (), .start armed) := by
  simp only [setupFeed, Feed.start]
  rw [arms fuel bound]
  rfl

end Executor

/-- What the executors of a plan deliver: rows, and a failure when they do not come to their end.
What is delivered in the place of nodes is given. -/
inductive Site.Yields (site : Site) (units : Plan → List Row → Option Error → Prop) :
    Plan → List Row → Option Error → Prop
  | unit {plan : Plan} {rows : List Row} {ending : Option Error} (given : units plan rows ending) :
      Yields site units plan rows ending
  | scan {id : NodeId} {spec : ScanSpec} {state : ScanState} {out : List (List Row)}
      {result : Option Error} (found : site.scanState spec = .ok state)
      (filled : Batches state.outputRow none (max site.batchSize 1)
        (Cursor.start state.map state.partitions).rest out result) :
      Yields site units (.scan id spec) out.flatten result
  | filter {id : NodeId} {condition : Expr} {plan : Plan} {rows : List Row} {ending : Option Error}
      {out : List (List Row)} {result : Option Error} (input : Yields site units plan rows ending)
      (filled : Batches (Filter.transform condition) ending (max site.batchSize 1) rows
        out result) :
      Yields site units (.filter id condition plan) out.flatten result
  | project {id : NodeId} {expressions : List Expr} {plan : Plan} {rows : List Row}
      {ending : Option Error} {out : List (List Row)} {result : Option Error}
      (input : Yields site units plan rows ending)
      (filled : Batches (Project.transform expressions) ending (max site.batchSize 1) rows
        out result) :
      Yields site units (.project id expressions plan) out.flatten result
  | sort {id : NodeId} {columns : List Nat} {ascending : List Bool} {plan : Plan} {rows : List Row}
      (input : Yields site units plan rows none) :
      Yields site units (.sort id columns ascending plan)
        (RowSort.sort (compareRows columns ascending) rows) none
  | sortFails {id : NodeId} {columns : List Nat} {ascending : List Bool} {plan : Plan}
      {rows : List Row} {error : Error} (input : Yields site units plan rows (some error)) :
      Yields site units (.sort id columns ascending plan) [] (some error)
  | join {id : NodeId} {condition : Option Expr} {left right : Plan} {leftRows rightRows : List Row}
      {ending : Option Error} {out : List (List Row)} {result : Option Error}
      (lefts : Yields site units left leftRows ending)
      (rights : Yields site units right rightRows none)
      (filled : Batches (Join.combine condition) ending (max site.batchSize 1)
        (Join.pairs leftRows rightRows) out result) :
      Yields site units (.join id condition left right) out.flatten result
  | joinFails {id : NodeId} {condition : Option Expr} {left right : Plan} {rightRows : List Row}
      {error : Error} (rights : Yields site units right rightRows (some error)) :
      Yields site units (.join id condition left right) [] (some error)

section Readiness

variable {site : Site} {units : Plan → List Row → Option Error → Prop} {context : Context}
  {plan left right : Plan} {producer leftProducer rightProducer : Executor}

/-- A scan is ready. -/
theorem Executor.ready_scan (context : Context) (id : NodeId) {spec : ScanSpec} {state : ScanState}
    (found : site.scanState spec = .ok state) :
    (scan (.start id state site.batchSize)).Ready context (site.Yields units (.scan id spec)) := by
  refine ⟨1, scan (Scan.start id state site.batchSize).setup, fun fuel bound => ?_,
    gives_scan rfl (RowBatch.capacity_empty_pos site.batchSize) fun _ _ filled =>
      .scan found filled⟩
  obtain ⟨fuel, rfl⟩ : ∃ less, fuel = less + 1 := ⟨fuel - 1, by omega⟩
  rfl

/-- A filter is ready when its input is. -/
theorem Executor.ready_filter (id : NodeId) (condition : Expr)
    (input : producer.Ready context (site.Yields units plan)) :
    (filter ⟨id, condition, .start producer, .empty site.batchSize⟩).Ready context
      (site.Yields units (.filter id condition plan)) := by
  obtain ⟨enough, armed, arms, gives⟩ := input
  refine ⟨enough + 1, filter ⟨id, condition, .start armed, .empty site.batchSize⟩,
    fun fuel bound => ?_, gives_filter gives rfl (RowBatch.capacity_empty_pos site.batchSize)
      fun _ _ _ _ => .filter⟩
  obtain ⟨fuel, rfl⟩ : ∃ less, fuel = less + 1 := ⟨fuel - 1, by omega⟩
  rw [setup, setupFeed_eq arms (by omega)]
  rfl

/-- A projection is ready when its input is. -/
theorem Executor.ready_project (id : NodeId) (expressions : List Expr)
    (input : producer.Ready context (site.Yields units plan)) :
    (project ⟨id, expressions, .start producer, .empty site.batchSize⟩).Ready context
      (site.Yields units (.project id expressions plan)) := by
  obtain ⟨enough, armed, arms, gives⟩ := input
  refine ⟨enough + 1, project ⟨id, expressions, .start armed, .empty site.batchSize⟩,
    fun fuel bound => ?_, gives_project gives rfl (RowBatch.capacity_empty_pos site.batchSize)
      fun _ _ _ _ => .project⟩
  obtain ⟨fuel, rfl⟩ : ∃ less, fuel = less + 1 := ⟨fuel - 1, by omega⟩
  rw [setup, setupFeed_eq arms (by omega)]
  rfl

/-- A sort is ready when its input is. -/
theorem Executor.ready_sorter (id : NodeId) (columns : List Nat) (ascending : List Bool)
    (input : producer.Ready context (site.Yields units plan)) :
    (sorter ⟨id, columns, ascending, .start producer, none, .empty site.batchSize⟩).Ready context
      (site.Yields units (.sort id columns ascending plan)) := by
  obtain ⟨enough, armed, arms, gives⟩ := input
  refine ⟨enough + 1, sorter ⟨id, columns, ascending, .start armed, none, .empty site.batchSize⟩,
    fun fuel bound => ?_, gives_sorter gives rfl rfl (RowBatch.capacity_empty_pos site.batchSize)
      (fun _ => .sort) fun _ _ => .sortFails⟩
  obtain ⟨fuel, rfl⟩ : ∃ less, fuel = less + 1 := ⟨fuel - 1, by omega⟩
  rw [setup, setupFeed_eq arms (by omega)]
  rfl

/-- A join is ready when its inputs are. -/
theorem Executor.ready_join (id : NodeId) (condition : Option Expr)
    (lefts : leftProducer.Ready context (site.Yields units left))
    (rights : rightProducer.Ready context (site.Yields units right)) :
    (join ⟨id, condition, .start leftProducer, .start rightProducer, none, none,
      .empty site.batchSize⟩).Ready context
        (site.Yields units (.join id condition left right)) := by
  obtain ⟨leftEnough, leftArmed, leftArms, leftGives⟩ := lefts
  obtain ⟨rightEnough, rightArmed, rightArms, rightGives⟩ := rights
  refine ⟨leftEnough + rightEnough + 1,
    join ⟨id, condition, .start leftArmed, .start rightArmed, none, none, .empty site.batchSize⟩,
    fun fuel bound => ?_, gives_join leftGives rightGives ⟨rfl, rfl, rfl, rfl⟩
      (RowBatch.capacity_empty_pos site.batchSize) (fun _ _ _ _ _ => .join) fun _ _ => .joinFails⟩
  obtain ⟨fuel, rfl⟩ : ∃ less, fuel = less + 1 := ⟨fuel - 1, by omega⟩
  simp only [setup]
  rw [setupFeed_eq leftArms (by omega), setupFeed_eq rightArms (by omega)]
  rfl

end Readiness

/-! ## Answers of plans -/

/-- The rows of a plan below its root, or why it has none. -/
def Plan.answer (catalog : Catalog) : Plan → Except Error (List Row)
  | .scan _ spec => do
    let state ← Site.scanState ⟨catalog, 1⟩ spec
    imagesOf state.outputRow (Cursor.start state.map state.partitions).rest
  | .filter _ condition input => do
    let rows ← input.answer catalog
    imagesOf (Filter.transform condition) rows
  | .project _ expressions input => do
    let rows ← input.answer catalog
    imagesOf (Project.transform expressions) rows
  | .sort _ columns ascending input => do
    let rows ← input.answer catalog
    .ok (RowSort.sort (compareRows columns ascending) rows)
  | .join _ condition left right => do
    let lefts ← left.answer catalog
    let rights ← right.answer catalog
    imagesOf (Join.combine condition) (Join.pairs lefts rights)
  | .root id _ => .error (.planInvariant ("Root node " ++ id.text ++ " below the plan root"))

/-- What is delivered is the answer: its rows, or a failure when it has none. -/
def Settles (answer : Except Error (List Row)) (rows : List Row) : Option Error → Prop
  | none => answer = .ok rows
  | some _ => ∃ error, answer = .error error

omit [RowSort] in
/-- Batches filled from the rows of an answer settle what their images are. -/
theorem Batches.settles {α : Type} {transform : α → Except Error (Option Row)}
    {ending result : Option Error} {capacity : Nat} {rows : List Row} {out : List (List Row)}
    {answer : Except Error (List Row)} (items : List Row → List α) (positive : 0 < capacity)
    (input : Settles answer rows ending)
    (filled : Batches transform ending capacity (items rows) out result) :
    Settles (do let rows ← answer; imagesOf transform (items rows)) out.flatten result := by
  cases result with
  | none =>
    obtain ⟨rfl, images, known, split⟩ := filled.batching positive
    simp only [Settles] at input ⊢
    rw [input, ok_bind, known, split.whole]
  | some failure =>
    cases ending with
    | some error =>
      obtain ⟨error, failed⟩ := input
      exact ⟨error, by rw [failed, error_bind]⟩
    | none =>
      simp only [Settles] at input ⊢
      rw [input, ok_bind]
      exact (filled.failing positive).resolve_left fun never => never rfl

omit [RowSort] in
/-- What an answer settles is the outcome. -/
theorem Settles.ended_eq_ok_iff {answer : Except Error (List Row)} {rows given : List Row}
    {ending : Option Error} (settles : Settles answer rows ending) :
    Feed.ended rows ending = .ok given ↔ answer = .ok given := by
  cases ending with
  | none =>
    simp only [Settles] at settles
    rw [settles]
    rfl
  | some error =>
    obtain ⟨reason, missing⟩ := settles
    rw [missing]
    exact ⟨nofun, nofun⟩

/-- What the executors of a plan deliver settles its answer. -/
theorem Site.Yields.settles {site : Site} {units : Plan → List Row → Option Error → Prop}
    {plan : Plan} {rows : List Row} {ending : Option Error}
    (yields : site.Yields units plan rows ending)
    (given : ∀ {plan rows ending}, units plan rows ending →
      Settles (plan.answer site.catalog) rows ending) :
    Settles (plan.answer site.catalog) rows ending := by
  have positive : 0 < max site.batchSize 1 := by omega
  induction yields with
  | unit delivered => exact given delivered
  | @scan id spec state out result found filled =>
    have alike : Site.scanState ⟨site.catalog, 1⟩ spec = site.scanState spec := rfl
    have whole : Settles (.ok []) [] none := rfl
    have settled := filled.settles (fun _ => (Cursor.start state.map state.partitions).rest)
      positive whole
    rw [Plan.answer, alike, found, ok_bind]
    exact settled
  | filter input filled step => exact filled.settles (fun rows => rows) positive step
  | project input filled step => exact filled.settles (fun rows => rows) positive step
  | sort input step =>
    simp only [Settles] at step ⊢
    rw [Plan.answer, step, ok_bind]
  | sortFails input step =>
    obtain ⟨error, failed⟩ := step
    exact ⟨error, by rw [Plan.answer, failed, error_bind]⟩
  | @join id condition left right leftRows rightRows ending out result lefts rights filled leftStep
      rightStep =>
    simp only [Settles] at rightStep
    rw [Plan.answer, rightStep]
    exact filled.settles (fun lefts => Join.pairs lefts rightRows) positive leftStep
  | @joinFails id condition left right rightRows error rights step =>
    obtain ⟨error, failed⟩ := step
    rw [Plan.answer, failed]
    cases left.answer site.catalog with
    | error other => exact ⟨other, rfl⟩
    | ok rows => exact ⟨error, rfl⟩

/-! ## Building executors -/

namespace Site

/-- Nothing is delivered in the place of nodes. -/
def noUnits (_ : Plan) (_ : List Row) (_ : Option Error) : Prop :=
  False

/-- What becomes of a plan below its root: executors that deliver its rows, or no executors for a
plan without an answer. -/
inductive Builds (site : Site) (context : Context) (plan : Plan) : Prop
  | ready (executor : Executor)
      (built : ∀ fuel, site.buildNode fuel plan none = pure (executor, none))
      (ready : executor.Ready context (site.Yields noUnits plan))
  | fails (error : Error) (failed : ∀ fuel, site.buildNode fuel plan none = throw error)
      (missing : ∃ reason, plan.answer site.catalog = .error reason)

/-- A node with one input is built on the executor of that input. -/
theorem Builds.unary {site : Site} {context : Context} {plan input : Plan}
    {wrap : Executor → Executor} {next : List Row → Except Error (List Row)}
    (step : site.Builds context input) (build : ∀ fuel, site.buildNode fuel plan none = do
      let (producer, rest) ← site.buildNode fuel input none
      place fuel (wrap producer) rest)
    (answer : plan.answer site.catalog = (do
      let rows ← input.answer site.catalog
      next rows))
    (ready : ∀ producer : Executor, producer.Ready context (site.Yields noUnits input) →
      (wrap producer).Ready context (site.Yields noUnits plan)) : site.Builds context plan := by
  cases step with
  | ready producer built given =>
    refine .ready (wrap producer) (fun fuel => ?_) (ready producer given)
    rw [build, built]
    rfl
  | fails error failed missing =>
    obtain ⟨reason, missing⟩ := missing
    refine .fails error (fun fuel => ?_) ⟨reason, by rw [answer, missing, error_bind]⟩
    rw [build, failed]
    rfl

/-- A join is built on the executors of its inputs. -/
theorem builds_join {site : Site} {context : Context} {left right : Plan} (id : NodeId)
    (condition : Option Expr) (leftStep : site.Builds context left)
    (rightStep : site.Builds context right) :
    site.Builds context (.join id condition left right) := by
  cases leftStep with
  | fails error failed missing =>
    obtain ⟨reason, missing⟩ := missing
    refine .fails error (fun fuel => ?_) ⟨reason, by rw [Plan.answer, missing, error_bind]⟩
    rw [buildNode, failed]
    rfl
  | ready leftProducer leftBuilt leftReady =>
    have afterLeft : ∀ fuel, site.buildNode fuel (.join id condition left right) none = (do
        let (rightProducer, rest) ← site.buildNode fuel right none
        place fuel (.join ⟨id, condition, .start leftProducer, .start rightProducer, none, none,
          .empty site.batchSize⟩) rest) := by
      intro fuel
      rw [buildNode, leftBuilt]
      rfl
    cases rightStep with
    | ready rightProducer rightBuilt rightReady =>
      refine .ready _ (fun fuel => ?_) (Executor.ready_join id condition leftReady rightReady)
      rw [afterLeft, rightBuilt]
      rfl
    | fails error failed missing =>
      obtain ⟨reason, missing⟩ := missing
      refine .fails error (fun fuel => ?_) ?_
      · rw [afterLeft, failed]
        rfl
      · rw [Plan.answer, missing]
        cases left.answer site.catalog with
        | error other => exact ⟨other, rfl⟩
        | ok rows => exact ⟨reason, rfl⟩

/-- Every plan below a root gets its executors, or it has no answer. -/
theorem builds (site : Site) (context : Context) (plan : Plan) : site.Builds context plan := by
  induction plan with
  | scan id spec =>
    have same : Site.scanState ⟨site.catalog, 1⟩ spec = site.scanState spec := rfl
    cases found : site.scanState spec with
    | error error =>
      refine .fails error (fun fuel => ?_)
        ⟨error, by rw [Plan.answer, same, found, error_bind]⟩
      rw [buildNode, found]
      rfl
    | ok state =>
      refine .ready (.scan (.start id state site.batchSize)) (fun fuel => ?_)
        (Executor.ready_scan context id found)
      rw [buildNode, found]
      rfl
  | filter id condition input step =>
    exact step.unary (fun fuel => by rw [buildNode]) rfl
      fun _ => Executor.ready_filter id condition
  | project id expressions input step =>
    exact step.unary (fun fuel => by rw [buildNode]) rfl
      fun _ => Executor.ready_project id expressions
  | sort id columns ascending input step =>
    exact step.unary (fun fuel => by rw [buildNode]) rfl
      fun _ => Executor.ready_sorter id columns ascending
  | join id condition left right leftStep rightStep =>
    exact builds_join id condition leftStep rightStep
  | root id input step =>
    cases step with
    | ready producer built ready =>
      refine .fails (.planInvariant ("Root node " ++ id.text ++ " below the plan root"))
        (fun fuel => ?_) ⟨_, rfl⟩
      rw [buildNode, built]
      rfl
    | fails error failed missing =>
      refine .fails error (fun fuel => ?_) ⟨_, rfl⟩
      rw [buildNode, failed]
      rfl

end Site

/-! ## Plans as a whole -/

namespace Executor

/-- An executor that delivers is drained, unless it fails. -/
theorem drain_delivers {executor : Executor} {fuel : Nat} {batches : List (List Row)}
    {ending : Option Error} (delivers : Delivers (supply fuel) executor batches ending)
    {context : Context} (running : context.check = .ok ()) (taken : List (List Row)) {more : Nat}
    (enough : fuel + batches.length < more) :
    ∃ next, drain context more executor taken =
      some (Feed.ended (taken.reverse.flatten ++ batches.flatten) ending, next) := by
  induction delivers generalizing taken more with
  | @last state next done =>
    obtain ⟨more, rfl⟩ : ∃ less, more = less + 1 := ⟨more - 1, by omega⟩
    have advanced := advance_agrees (by omega : fuel ≤ more) state _ done
    refine ⟨next, ?_⟩
    rw [drain, running]
    simp only [advanced]
    simp [Feed.ended, supply]
  | @more state next batches ending done later step =>
    obtain ⟨more, rfl⟩ : ∃ less, more = less + 1 := ⟨more - 1, by omega⟩
    rw [List.length_cons] at enough
    have advanced := advance_agrees (by omega : fuel ≤ more) state _ done
    obtain ⟨last, drained⟩ := step (next.rows :: taken) (by omega : fuel + batches.length < more)
    refine ⟨last, ?_⟩
    rw [drain, running]
    simp only [advanced]
    rw [drained]
    simp [supply]
  | @fails state next error failed =>
    obtain ⟨more, rfl⟩ : ∃ less, more = less + 1 := ⟨more - 1, by omega⟩
    have advanced := advance_agrees (by omega : fuel ≤ more) state _ failed
    refine ⟨next, ?_⟩
    rw [drain, running]
    simp only [advanced]
    rfl

variable {context : Context}

/-- The root of a plan is ready when its input is. -/
theorem ready_root (id : NodeId) {input : Executor} {holds : List Row → Option Error → Prop}
    (ready : input.Ready context holds) : (root id input).Ready context holds := by
  obtain ⟨enough, armed, arms, fuel, batches, ending, delivers, held⟩ := ready
  refine ⟨enough + 1, root id armed, fun fuel bound => ?_, fuel + 1, batches, ending,
    delivers.embed (supply _) (root id) (fun _ => rfl) (fun _ => rfl), held⟩
  obtain ⟨fuel, rfl⟩ : ∃ less, fuel = less + 1 := ⟨fuel - 1, by omega⟩
  rw [setup, arms fuel (by omega)]
  rfl

/-- An executor that is ready collects what it delivers, unless the execution is cancelled. -/
theorem Ready.collect {executor : Executor} {holds : List Row → Option Error → Prop}
    (ready : executor.Ready context holds) :
    ∃ enough rows ending, holds rows ending ∧ ∀ fuel, enough ≤ fuel → ∃ next,
      collect context fuel executor =
        some (if context.cancelled then .error .cancelled else Feed.ended rows ending, next) := by
  obtain ⟨enough, armed, arms, least, batches, ending, delivers, held⟩ := ready
  refine ⟨enough + least + batches.length + 1, _, ending, held, fun fuel bound => ?_⟩
  simp only [Executor.collect, arms fuel (by omega)]
  cases running : context.cancelled with
  | true =>
    obtain ⟨fuel, rfl⟩ : ∃ less, fuel = less + 1 := ⟨fuel - 1, by omega⟩
    have stopped : context.check = .error .cancelled := by simp [Context.check, running]
    rw [drain, stopped]
    exact ⟨_, rfl⟩
  | false =>
    exact drain_delivers delivers (context.check_eq_ok_iff.2 running) [] (by omega : _ < fuel)

end Executor

/-- An execution whose executors are built and ready comes to what they deliver, unless it is
cancelled. -/
theorem Runner.execute_ready {catalog : Catalog} {batchSize least : Nat} {context : Context}
    {plan : Plan} {assembly : Option Assembly} {executor : Executor}
    {holds : List Row → Option Error → Prop} (built : ∀ fuel, least ≤ fuel →
      Site.build ⟨catalog, max batchSize 1⟩ fuel plan assembly = pure executor)
    (ready : executor.Ready context holds) :
    ∃ enough rows ending, holds rows ending ∧ ∀ fuel, enough ≤ fuel →
      (execute catalog batchSize fuel context plan assembly).run =
        some (if context.cancelled then .error .cancelled else Feed.ended rows ending) := by
  obtain ⟨enough, rows, ending, held, collects⟩ := ready.collect
  refine ⟨max least enough, rows, ending, held, fun fuel bound => ?_⟩
  obtain ⟨next, collected⟩ := collects fuel (by omega)
  rw [execute, built fuel (by omega)]
  show (ExceptT.lift (executor.collect context fuel) >>= fun ended =>
    Run.ofExcept ended.1 : Run (List Row)).run = _
  rw [collected]
  rfl

/-- The rows of a plan: those of the node below its root. -/
def Plan.outcome (catalog : Catalog) : Plan → Except Error (List Row)
  | .root _ input => input.answer catalog
  | other => .error (.planInvariant ("plan root " ++ other.text ++ " is not a Root node"))

/-- Interpretation comes to the rows of the plan for every batch size, and to an error when the plan
has no rows or the execution is cancelled. -/
theorem Runner.execute_outcome (catalog : Catalog) (batchSize : Nat) (context : Context)
    (plan : Plan) :
    ∃ enough, ∀ fuel, enough ≤ fuel → ∃ outcome,
      (execute catalog batchSize fuel context plan none).run = some outcome ∧
      ∀ rows, outcome = .ok rows ↔ context.cancelled = false ∧ plan.outcome catalog = .ok rows := by
  cases plan with
  | root id input =>
    cases Site.builds ⟨catalog, max batchSize 1⟩ context input with
    | ready producer built ready =>
      have graph : ∀ fuel, 0 ≤ fuel →
          Site.build ⟨catalog, max batchSize 1⟩ fuel (.root id input) none =
            pure (.root id producer) := by
        intro fuel _
        rw [Site.build, built]
        rfl
      obtain ⟨enough, rows, ending, yields, ran⟩ :=
        execute_ready graph (Executor.ready_root id ready)
      refine ⟨enough, fun fuel bound => ⟨_, ran fuel bound, fun given => ?_⟩⟩
      have settled := yields.settles fun never => never.elim
      cases context.cancelled with
      | true => exact ⟨nofun, nofun⟩
      | false => exact settled.ended_eq_ok_iff.trans (and_iff_right rfl).symm
    | fails error failed missing =>
      obtain ⟨reason, missing⟩ := missing
      refine ⟨0, fun fuel _ => ⟨.error error, ?_, by simp [Plan.outcome, missing]⟩⟩
      rw [execute, Site.build, failed]
      rfl
  | scan id spec => exact ⟨0, fun _ _ => ⟨_, rfl, by simp [Plan.outcome]⟩⟩
  | filter id condition input => exact ⟨0, fun _ _ => ⟨_, rfl, by simp [Plan.outcome]⟩⟩
  | project id expressions input => exact ⟨0, fun _ _ => ⟨_, rfl, by simp [Plan.outcome]⟩⟩
  | sort id columns ascending input => exact ⟨0, fun _ _ => ⟨_, rfl, by simp [Plan.outcome]⟩⟩
  | join id condition left right => exact ⟨0, fun _ _ => ⟨_, rfl, by simp [Plan.outcome]⟩⟩

end AnySort

/-! ## Rows that do not depend on batches -/

/-- With enough fuel, the producer delivers these rows in batches that are full but for the last. -/
def Produces {τ : Type} (supply : Nat → Supply τ) (state : τ) (capacity : Nat) (rows : List Row) :
    Prop :=
  ∃ enough, ∀ fuel, enough ≤ fuel →
    ∃ out, Delivers (supply fuel) state out none ∧ Batching capacity rows out

/-- Items none of whose images fails are filled into batches to the end. -/
theorem Batches.complete {α : Type} {transform : α → Except Error (Option Row)} {capacity : Nat}
    {items : List α} {image : α → Option Row} (positive : 0 < capacity)
    (known : ∀ item ∈ items, transform item = .ok (image item)) :
    ∃ out, Batches transform none capacity items out none ∧
      Batching capacity (items.filterMap image) out := by
  have images : imagesOf transform items = .ok (items.filterMap image) := by
    clear positive
    induction items with
    | nil => rfl
    | cons item rest step =>
      rw [imagesOf, known item (List.mem_cons_self ..), ok_bind,
        step fun other member => known other (List.mem_cons_of_mem _ member), ok_bind]
      cases shown : image item <;> simp [shown]
  obtain ⟨out, result, filled⟩ := total transform none positive items
  cases result with
  | none =>
    obtain ⟨-, rows, same, split⟩ := filled.batching positive
    rw [images] at same
    cases same
    exact ⟨out, filled, split⟩
  | some error =>
    rcases filled.failing positive with never | ⟨error, failed⟩
    · exact absurd rfl never
    · rw [images] at failed
      cases failed

/-- The condition is true of the row. -/
def Expr.holds (condition : Expr) (row : Row) : Bool :=
  match condition.eval row with
  | .ok (.boolean truth) => truth
  | _ => false

/-- The condition has a truth value on the row, or it is null there. -/
def Expr.Judges (condition : Expr) (row : Row) : Prop :=
  ∃ value passed, condition.eval row = .ok value ∧ value.passes = .ok passed

/-- A row that can be judged passes exactly when the condition is true of it. -/
theorem Expr.Judges.passes {condition : Expr} {row : Row} (judges : condition.Judges row) :
    ∃ value, condition.eval row = .ok value ∧ value.passes = .ok (condition.holds row) := by
  obtain ⟨value, passed, known, judged⟩ := judges
  refine ⟨value, known, ?_⟩
  rw [Expr.holds, known]
  cases value <;> first | rfl | cases judged

variable {σ : Type} {source : Supply σ} {upstream other : σ} {batches others : List (List Row)}

/-- A filter passes on the rows of which its condition is true. -/
theorem Filter.produces (input : Delivers source upstream batches none) {filter : Filter σ}
    (fresh : filter.input = .start upstream) (positive : 0 < filter.batch.capacity)
    (judged : ∀ row ∈ batches.flatten, filter.condition.Judges row) :
    Produces (Filter.supply source) filter filter.batch.capacity
      (batches.flatten.filter filter.condition.holds) := by
  refine ⟨batches.length + batches.flatten.length + 3, fun fuel enough => ?_⟩
  have known : ∀ row ∈ batches.flatten, transform filter.condition row =
      .ok (Option.guard filter.condition.holds row) := by
    intro row member
    obtain ⟨value, evaluated, passes⟩ := (judged row member).passes
    rw [transform, evaluated, ok_bind, passes, ok_bind]
    rfl
  obtain ⟨out, filled, split⟩ := Batches.complete positive known
  rw [List.filterMap_eq_filter] at split
  exact ⟨out, Filter.delivers input fresh (by omega) filled, split⟩

/-- A projection passes on the image of each row. -/
theorem Project.produces (input : Delivers source upstream batches none) {project : Project σ}
    (fresh : project.input = .start upstream) (positive : 0 < project.batch.capacity)
    {image : Row → Row}
    (known : ∀ row ∈ batches.flatten, evalAll row project.expressions = .ok (image row)) :
    Produces (Project.supply source) project project.batch.capacity
      (batches.flatten.map image) := by
  refine ⟨batches.length + batches.flatten.length + 3, fun fuel enough => ?_⟩
  have shown : ∀ row ∈ batches.flatten, transform project.expressions row =
      .ok (some (image row)) := by
    intro row member
    rw [transform, known row member, ok_bind]
  obtain ⟨out, filled, split⟩ := Batches.complete positive shown
  rw [List.filterMap_eq_map'] at split
  exact ⟨out, Project.delivers input fresh (by omega) filled, split⟩

/-- A join passes on, for each left row, the joined rows of which its condition is true. -/
theorem Join.produces (leftInput : Delivers source upstream batches none)
    (rightInput : Delivers source other others none) {join : Join σ}
    (fresh : join.Fresh upstream other) (positive : 0 < join.batch.capacity)
    (judged : ∀ left ∈ batches.flatten, ∀ right ∈ others.flatten, ∀ condition ∈ join.condition,
      condition.Judges (left ++ right)) :
    Produces (Join.supply source) join join.batch.capacity
      (batches.flatten.flatMap fun left => (others.flatten.map (left ++ ·)).filter fun row =>
        join.condition.all (Expr.holds · row)) := by
  refine ⟨batches.length + 2 * batches.flatten.length + others.length + others.flatten.length + 4,
    fun fuel enough => ?_⟩
  have shown : ∀ pair ∈ pairs batches.flatten others.flatten, combine join.condition pair =
      .ok (Option.guard (fun row => join.condition.all (Expr.holds · row)) (pair.1 ++ pair.2)) := by
    intro pair member
    obtain ⟨left, leftMember, paired⟩ := List.mem_flatMap.1 member
    obtain ⟨right, rightMember, rfl⟩ := List.mem_map.1 paired
    have judges := judged left leftMember right rightMember
    cases given : join.condition with
    | none => rfl
    | some condition =>
      obtain ⟨value, evaluated, passes⟩ := (judges condition given).passes
      simp only [combine, accepts, evaluated, ok_bind, passes]
      rfl
  obtain ⟨out, filled, split⟩ := Batches.complete positive shown
  have rows : (pairs batches.flatten others.flatten).filterMap (fun pair =>
      Option.guard (fun row => join.condition.all (Expr.holds · row)) (pair.1 ++ pair.2)) =
      batches.flatten.flatMap fun left => (others.flatten.map (left ++ ·)).filter fun row =>
        join.condition.all (Expr.holds · row) := by
    rw [pairs, List.filterMap_flatMap]
    congr 1
    funext left
    rw [← List.filterMap_eq_filter, List.filterMap_map, List.filterMap_map]
    rfl
  rw [rows] at split
  exact ⟨out, Join.delivers leftInput rightInput fresh (by omega) (by omega) filled, split⟩

/-- Interpretation does not depend on batches. Operators over producers that deliver their rows in
any batches pass on rows that depend on these rows only, in full batches but for the last one; and
two runners on the same maps, whatever their batch sizes, come to the same rows of a plan, or both
to an error. What a sort makes of all rows is up to the library. -/
theorem interpretation_ignores_batching [RowSort] (input : Delivers source upstream batches none)
    (second : Delivers source other others none) (id : NodeId) {batch : RowBatch}
    (positive : 0 < batch.capacity) :
    (∀ condition : Expr, (∀ row ∈ batches.flatten, condition.Judges row) →
      Produces (Filter.supply source) ⟨id, condition, .start upstream, batch⟩ batch.capacity
        (batches.flatten.filter condition.holds)) ∧
    (∀ (expressions : List Expr) (image : Row → Row),
      (∀ row ∈ batches.flatten, evalAll row expressions = .ok (image row)) →
      Produces (Project.supply source) ⟨id, expressions, .start upstream, batch⟩ batch.capacity
        (batches.flatten.map image)) ∧
    (∀ condition : Option Expr,
      (∀ left ∈ batches.flatten, ∀ right ∈ others.flatten, ∀ expression ∈ condition,
        expression.Judges (left ++ right)) →
      Produces (Join.supply source)
        ⟨id, condition, .start upstream, .start other, none, none, batch⟩ batch.capacity
        (batches.flatten.flatMap fun left => (others.flatten.map (left ++ ·)).filter fun row =>
          condition.all (Expr.holds · row))) ∧
    (∀ (columns : List Nat) (ascending : List Bool),
      Produces (Sorter.supply source) ⟨id, columns, ascending, .start upstream, none, batch⟩
        batch.capacity (RowSort.sort (compareRows columns ascending) batches.flatten)) ∧
    (∀ (one two : Runner) (context : Context) (plan : Plan), one.catalog = two.catalog →
      ∃ enough, ∀ fuel, enough ≤ fuel → ∃ outcome outcome',
        (one.interpret fuel context plan).run = some outcome ∧
        (two.interpret fuel context plan).run = some outcome' ∧
        ∀ rows, outcome = .ok rows ↔ outcome' = .ok rows) := by
  refine ⟨fun condition judged => Filter.produces input rfl positive judged,
    fun expressions image known => Project.produces input rfl positive known,
    fun condition judged => Join.produces input second ⟨rfl, rfl, rfl, rfl⟩ positive judged,
    fun columns ascending => ⟨batches.length + batches.flatten.length + 3, fun fuel enough =>
      Sorter.delivers input rfl rfl (by omega) positive⟩, ?_⟩
  intro one two context plan same
  obtain ⟨least, first⟩ := Runner.execute_outcome one.catalog
    one.compiler.config.effectiveBatchSize context plan
  obtain ⟨most, last⟩ := Runner.execute_outcome two.catalog
    two.compiler.config.effectiveBatchSize context plan
  refine ⟨least + most, fun fuel bound => ?_⟩
  obtain ⟨outcome, ran, rows⟩ := first fuel (by omega)
  obtain ⟨outcome', ran', rows'⟩ := last fuel (by omega)
  refine ⟨outcome, outcome', ran, ran', fun result => ?_⟩
  rw [rows, rows', same]

/-- Any batches can be delivered: a replay hands on those it is given. -/
theorem Executor.delivers_replay [RowSort] (fuel : Nat) (source : Replay)
    (whole : source.failAt = none) (inside : source.position < source.batches.length) :
    Delivers (supply (fuel + 1)) (replay source) (source.batches.drop source.position) none := by
  induction size : source.batches.length - source.position generalizing source with
  | zero => omega
  | succ left step =>
    have advanced : (supply (fuel + 1)).advance (replay source) = some
        (.ok (if source.position + 1 < source.batches.length then .fetched else .finished),
          replay { source with current := source.batches[source.position],
                               position := source.position + 1 }) := by
      simp [supply, advance, Replay.advance, whole, inside]
    rw [List.drop_eq_getElem_cons inside]
    split at advanced
    · rename_i more
      exact Delivers.more advanced (step { source with
        current := source.batches[source.position], position := source.position + 1 } whole more
        (by dsimp only; omega))
    · rename_i done
      rw [List.drop_eq_nil_of_le (by omega)]
      exact Delivers.last advanced

/-- Two rows that come with an empty batch between them, filtered and sorted in batches of one. -/
theorem interpretation_ignores_batching_replay :
    Produces (Filter.supply (Executor.supply 1))
      ⟨0, .constant (.boolean true) .boolean,
        .start (.replay ⟨0, [[[.int 2]], [], [[.int 1]]], none, 0, []⟩),
        ⟨[], 1⟩⟩ 1 [[.int 2], [.int 1]] ∧
    Produces (Sorter.supply (Executor.supply 1))
      ⟨0, [0], [true], .start (.replay ⟨0, [[[.int 2]], [], [[.int 1]]], none, 0, []⟩), none,
        ⟨[], 1⟩⟩ 1 [[.int 1], [.int 2]] := by
  have input : Delivers (Executor.supply 1)
      (.replay ⟨0, [[[.int 2]], [], [[.int 1]]], none, 0, []⟩)
      [[[.int 2]], [], [[.int 1]]] none :=
    Executor.delivers_replay 0 _ rfl (by decide)
  obtain ⟨filter, -, -, sort, -⟩ :=
    interpretation_ignores_batching input input 0 (by decide : 0 < (⟨[], 1⟩ : RowBatch).capacity)
  exact ⟨filter (.constant (.boolean true) .boolean) fun row _ => ⟨_, _, rfl, rfl⟩, sort [0] [true]⟩

end QueryFusion
