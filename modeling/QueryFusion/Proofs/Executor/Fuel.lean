import QueryFusion.Executor.Graph
import QueryFusion.Proofs.Script.Runs

/-!
# More fuel keeps an outcome

Feeds, executors and compiled units take fuel and have no outcome when it ends. With more fuel an
outcome stays what it is, so two steps with enough fuel can be put one after the other.
-/

namespace QueryFusion

variable {σ τ α β : Type}

/-! ## Outcomes that may be missing -/

/-- The second has the outcome of the first, if that has one. -/
def Agrees (first second : Option α) : Prop :=
  ∀ outcome, first = some outcome → second = some outcome

namespace Agrees

/-- A missing outcome says nothing. -/
theorem none (second : Option α) : Agrees .none second := by
  intro outcome found
  cases found

/-- An outcome agrees with itself. -/
theorem refl (first : Option α) : Agrees first first :=
  fun _ found => found

/-- What is done with two outcomes that agree agrees, if it does so on every outcome. -/
theorem bind {first second : Option α} (agrees : Agrees first second) {next other : α → Option β}
    (each : ∀ outcome, Agrees (next outcome) (other outcome)) :
    Agrees (first.bind next) (second.bind other) := by
  cases found : first with
  | none => exact none _
  | some outcome =>
    rw [agrees outcome found]
    exact each outcome

/-- Two steps that agree do so as steps of a larger state. -/
theorem embed {first second : Step σ α} (agrees : Agrees first second) (wrap : σ → τ) :
    Agrees (Step.embed wrap first) (Step.embed wrap second) := by
  intro outcome found
  cases step : first with
  | none =>
    rw [step] at found
    cases found
  | some inner =>
    rw [step] at found
    rw [agrees inner step]
    exact found

end Agrees

/-- Two supplies show the same rows, and the second has every outcome of the first. -/
structure Supply.Agree (first second : Supply σ) : Prop where
  advance : ∀ state, Agrees (first.advance state) (second.advance state)
  rows : first.rows = second.rows

namespace Feed

variable {first second : Supply σ} {transform : Row → Except Error (Option Row)}

/-- A row that is found is found with more fuel. -/
theorem next_agrees (agree : first.Agree second) {fuel more : Nat} (bound : fuel ≤ more)
    (feed : Feed σ) : Agrees (next first fuel feed) (next second more feed) := by
  induction fuel generalizing more feed with
  | zero => exact .none _
  | succ fuel step =>
    obtain ⟨more, rfl⟩ : ∃ less, more = less + 1 := ⟨more - 1, by omega⟩
    rw [next, next]
    cases feed.pending with
    | cons row rest => exact .refl _
    | nil =>
      cases feed.finished with
      | true => exact .refl _
      | false =>
        cases pulled : first.advance feed.producer with
        | none => exact .none _
        | some outcome =>
          rw [agree.advance feed.producer outcome pulled]
          rcases outcome with ⟨_ | progress, producer⟩
          · exact .refl _
          · rw [agree.rows]
            exact step (by omega) _

/-- Rows that are drained are drained with more fuel. -/
theorem drain_agrees (agree : first.Agree second) {fuel more : Nat} (bound : fuel ≤ more)
    (feed : Feed σ) (taken : List Row) :
    Agrees (drain first fuel feed taken) (drain second more feed taken) := by
  induction fuel generalizing more feed taken with
  | zero => exact .none _
  | succ fuel step =>
    obtain ⟨more, rfl⟩ : ∃ less, more = less + 1 := ⟨more - 1, by omega⟩
    rw [drain, drain]
    cases pulled : next first fuel feed with
    | none => exact .none _
    | some outcome =>
      rw [next_agrees agree (by omega) feed outcome pulled]
      rcases outcome with ⟨_ | _ | row, rest⟩
      · exact .refl _
      · exact .refl _
      · exact step (by omega) rest (row :: taken)

/-- A batch that is filled is filled with more fuel. -/
theorem fill_agrees (agree : first.Agree second) {fuel more : Nat} (bound : fuel ≤ more)
    (feed : Feed σ) (batch : RowBatch) :
    Agrees (fill first transform fuel feed batch) (fill second transform more feed batch) := by
  induction fuel generalizing more feed batch with
  | zero => exact .none _
  | succ fuel step =>
    obtain ⟨more, rfl⟩ : ∃ less, more = less + 1 := ⟨more - 1, by omega⟩
    rw [fill, fill]
    cases pulled : next first fuel feed with
    | none => exact .none _
    | some outcome =>
      rw [next_agrees agree (by omega) feed outcome pulled]
      rcases outcome with ⟨_ | _ | row, rest⟩
      · exact .refl _
      · exact .refl _
      · dsimp only
        rcases transform row with _ | _ | image
        · exact .refl _
        · exact step (by omega) rest batch
        · dsimp only
          split
          · exact step (by omega) rest (batch.add image)
          · exact .refl _

end Feed

/-! ## Operators -/

section Operators

variable {first second : Supply σ}

/-- A filter that comes to an outcome does so with more fuel. -/
theorem Filter.advance_agrees (agree : first.Agree second) {fuel more : Nat} (bound : fuel ≤ more)
    (filter : Filter σ) : Agrees (filter.advance first fuel) (filter.advance second more) := by
  unfold Filter.advance
  cases filled : filter.input.fill first (Filter.transform filter.condition) fuel
      filter.batch.clear with
  | none => exact .none _
  | some outcome =>
    rw [Feed.fill_agrees agree bound _ _ outcome filled]
    exact .refl _

/-- A projection that comes to an outcome does so with more fuel. -/
theorem Project.advance_agrees (agree : first.Agree second) {fuel more : Nat}
    (bound : fuel ≤ more) (project : Project σ) :
    Agrees (project.advance first fuel) (project.advance second more) := by
  unfold Project.advance
  cases filled : project.input.fill first (Project.transform project.expressions) fuel
      project.batch.clear with
  | none => exact .none _
  | some outcome =>
    rw [Feed.fill_agrees agree bound _ _ outcome filled]
    exact .refl _

/-- A sort that comes to an outcome does so with more fuel. -/
theorem Sorter.advance_agrees [RowSort] (agree : first.Agree second) {fuel more : Nat}
    (bound : fuel ≤ more) (sorter : Sorter σ) :
    Agrees (sorter.advance first fuel) (sorter.advance second more) := by
  unfold Sorter.advance
  cases sorter.sorted with
  | some rows => exact .refl _
  | none =>
    cases collected : sorter.input.collect first fuel with
    | none => exact .none _
    | some outcome =>
      rw [show sorter.input.collect second more = some outcome from
        Feed.drain_agrees agree bound _ _ outcome collected]
      exact .refl _

/-- A batch of joined rows that is filled is filled with more fuel. -/
theorem Join.fill_agrees (agree : first.Agree second) {fuel more : Nat} (bound : fuel ≤ more)
    (rightRows : List Row) (join : Join σ) :
    Agrees (Join.fill first rightRows fuel join) (Join.fill second rightRows more join) := by
  induction fuel generalizing more join with
  | zero => exact .none _
  | succ fuel step =>
    obtain ⟨more, rfl⟩ : ∃ less, more = less + 1 := ⟨more - 1, by omega⟩
    rw [Join.fill, Join.fill]
    cases join.current with
    | some current =>
      dsimp only
      split
      · exact .refl _
      · exact .refl _
      · exact step (by omega) _
    | none =>
      cases pulled : join.left.next first fuel with
      | none => exact .none _
      | some outcome =>
        rw [Feed.next_agrees agree (by omega) join.left outcome pulled]
        rcases outcome with ⟨_ | _ | row, rest⟩
        · exact .refl _
        · exact .refl _
        · exact step (by omega) _

/-- A join that comes to an outcome does so with more fuel. -/
theorem Join.advance_agrees (agree : first.Agree second) {fuel more : Nat} (bound : fuel ≤ more)
    (join : Join σ) : Agrees (join.advance first fuel) (join.advance second more) := by
  simp only [Join.advance]
  cases join.rightRows with
  | some rows => exact Join.fill_agrees agree bound rows _
  | none =>
    cases collected : join.right.collect first fuel with
    | none => exact .none _
    | some outcome =>
      rw [show join.right.collect second more = some outcome from
        Feed.drain_agrees agree bound _ _ outcome collected]
      rcases outcome with ⟨_ | rows, feed⟩
      · exact .refl _
      · exact Join.fill_agrees agree bound rows _

end Operators

/-- A batch of a scan that is filled is filled with more fuel. -/
theorem Scan.fill_agrees (state : ScanState) {fuel more : Nat} (bound : fuel ≤ more)
    (cursor : Cursor) (batch : RowBatch) :
    Agrees (Scan.fill state fuel cursor batch) (Scan.fill state more cursor batch) := by
  induction fuel generalizing more cursor batch with
  | zero => exact .none _
  | succ fuel step =>
    obtain ⟨more, rfl⟩ : ∃ less, more = less + 1 := ⟨more - 1, by omega⟩
    rw [Scan.fill, Scan.fill]
    rcases cursor.advance with ⟨_ | _, next⟩
    · exact .refl _
    · dsimp only
      rcases next.current.bind state.outputRow with _ | _ | row
      · exact .refl _
      · exact step (by omega) next batch
      · dsimp only
        split
        · exact step (by omega) next (batch.add row)
        · exact .refl _

/-- A scan that comes to an outcome does so with more fuel. -/
theorem Scan.advance_agrees {fuel more : Nat} (bound : fuel ≤ more) (scan : Scan) :
    Agrees (scan.advance fuel) (scan.advance more) := by
  unfold Scan.advance
  cases scan.cursor with
  | none => exact .refl _
  | some cursor =>
    dsimp only
    cases filled : Scan.fill scan.state fuel cursor scan.batch.clear with
    | none => exact .none _
    | some outcome =>
      rw [Scan.fill_agrees scan.state bound cursor _ outcome filled]
      exact .refl _

/-! ## Compiled units -/

namespace Script

/-- A run that ends does so with more fuel. -/
theorem run_agrees (unit : CompiledUnit) (routine : Routine) {fuel more : Nat}
    (bound : fuel ≤ more) (arguments : List Slot) (memory : Memory) :
    Agrees (run unit routine fuel arguments memory) (run unit routine more arguments memory) := by
  intro outcome ended
  obtain ⟨rest, rfl⟩ := Nat.exists_eq_add_of_le bound
  exact run_add ended rest

namespace UnitInstance

/-- An executor that is bound is bound with more fuel. -/
theorem prepare_agrees {fuel more : Nat} (bound : fuel ≤ more) (id : NodeId)
    (state : ExecutorState) (subject : UnitInstance) :
    Agrees (subject.prepare fuel id state) (subject.prepare more id state) := by
  unfold prepare
  split
  · exact .refl _
  split
  · exact .refl _
  cases ended : run subject.unit subject.unit.prepare fuel [.handle (.executor id state)]
      subject.memory with
  | none => exact .none _
  | some outcome =>
    rw [run_agrees _ _ bound _ _ outcome ended]
    exact .refl _

/-- An instance that is set up is so with more fuel. -/
theorem setup_agrees {fuel more : Nat} (bound : fuel ≤ more) (context : Context)
    (subject : UnitInstance) :
    Agrees (subject.setup fuel context) (subject.setup more context) := by
  unfold setup
  cases subject.unbound? with
  | some id => exact .refl _
  | none =>
    cases context.check with
    | error error => exact .refl _
    | ok nothing =>
      cases ended : run subject.unit subject.unit.setup fuel [.handle (.context context)]
          subject.memory with
      | none => exact .none _
      | some outcome =>
        rw [run_agrees _ _ bound _ _ outcome ended]
        exact .refl _

/-- An instance that produces a batch does so with more fuel. -/
theorem advance_agrees {fuel more : Nat} (bound : fuel ≤ more) (subject : UnitInstance) :
    Agrees (subject.advance fuel) (subject.advance more) := by
  unfold advance
  split
  · exact .refl _
  cases ended : run subject.unit subject.unit.advance fuel [] subject.memory with
  | none => exact .none _
  | some outcome =>
    rw [run_agrees _ _ bound _ _ outcome ended]
    exact .refl _

end UnitInstance

end Script

/-! ## Executors -/

namespace Executor

variable [RowSort]

/-- An executor that comes to an outcome does so with more fuel. -/
theorem advance_agrees {fuel more : Nat} (bound : fuel ≤ more) (executor : Executor) :
    Agrees (advance fuel executor) (advance more executor) := by
  induction fuel generalizing more executor with
  | zero => exact .none _
  | succ fuel step =>
    obtain ⟨more, rfl⟩ : ∃ less, more = less + 1 := ⟨more - 1, by omega⟩
    have less : fuel ≤ more := by omega
    have agree : Supply.Agree (⟨advance fuel, rows⟩ : Supply Executor) ⟨advance more, rows⟩ :=
      ⟨fun state => step less state, rfl⟩
    cases executor with
    | replay source => exact .refl _
    | scan source =>
      rw [advance, advance]
      exact (Scan.advance_agrees less source).embed _
    | filter subject =>
      rw [advance, advance]
      exact (Filter.advance_agrees agree less subject).embed _
    | project subject =>
      rw [advance, advance]
      exact (Project.advance_agrees agree less subject).embed _
    | sorter subject =>
      rw [advance, advance]
      exact (Sorter.advance_agrees agree less subject).embed _
    | join subject =>
      rw [advance, advance]
      exact (Join.advance_agrees agree less subject).embed _
    | root id input =>
      rw [advance, advance]
      exact (step less input).embed _
    | compiled subject =>
      rw [advance, advance]
      exact (Script.UnitInstance.advance_agrees less subject).embed _

/-- The supplies of executors agree. -/
theorem supply_agree {fuel more : Nat} (bound : fuel ≤ more) : (supply fuel).Agree (supply more) :=
  ⟨advance_agrees bound, rfl⟩

omit [RowSort] in
/-- An executor that is set up is so with more fuel. -/
theorem setup_agrees (context : Context) {fuel more : Nat} (bound : fuel ≤ more)
    (executor : Executor) : Agrees (setup context fuel executor) (setup context more executor) := by
  induction fuel generalizing more executor with
  | zero => exact .none _
  | succ fuel step =>
    obtain ⟨more, rfl⟩ : ∃ less, more = less + 1 := ⟨more - 1, by omega⟩
    have less : fuel ≤ more := by omega
    have feeds : ∀ feed : Feed Executor,
        Agrees (setupFeed (setup context fuel) feed) (setupFeed (setup context more) feed) :=
      fun feed => (step less feed.producer).embed _
    cases executor with
    | replay source | scan source => exact .refl _
    | filter subject | project subject | sorter subject =>
      rw [setup, setup]
      exact (feeds subject.input).embed _
    | join subject =>
      simp only [setup]
      cases left : setupFeed (setup context fuel) subject.left with
      | none => exact .none _
      | some outcome =>
        rw [feeds subject.left outcome left]
        rcases outcome with ⟨_ | _, feed⟩
        · exact .refl _
        · exact (feeds subject.right).embed _
    | root id input =>
      rw [setup, setup]
      exact (step less input).embed _
    | compiled subject =>
      rw [setup, setup]
      exact (Script.UnitInstance.setup_agrees less context subject).embed _

/-- Rows that are drained are drained with more fuel. -/
theorem drain_agrees (context : Context) {fuel more : Nat} (bound : fuel ≤ more)
    (executor : Executor) (taken : List (List Row)) :
    Agrees (drain context fuel executor taken) (drain context more executor taken) := by
  induction fuel generalizing more executor taken with
  | zero => exact .none _
  | succ fuel step =>
    obtain ⟨more, rfl⟩ : ∃ less, more = less + 1 := ⟨more - 1, by omega⟩
    rw [drain, drain]
    cases context.check with
    | error error => exact .refl _
    | ok nothing =>
      cases advanced : advance fuel executor with
      | none => exact .none _
      | some outcome =>
        rw [advance_agrees (by omega) executor outcome advanced]
        rcases outcome with ⟨_ | _ | _, next⟩
        · exact .refl _
        · exact step (by omega) next _
        · exact .refl _

/-- Rows that are collected are collected with more fuel. -/
theorem collect_agrees (context : Context) {fuel more : Nat} (bound : fuel ≤ more)
    (executor : Executor) :
    Agrees (collect context fuel executor) (collect context more executor) := by
  unfold collect
  cases armed : setup context fuel executor with
  | none => exact .none _
  | some outcome =>
    rw [setup_agrees context bound executor outcome armed]
    rcases outcome with ⟨_ | _, next⟩
    · exact .refl _
    · exact drain_agrees context bound next []

end Executor

end QueryFusion
