import QueryFusion.Executor

/-!
# Operators that do the same

Two operators that stand at the same place, with inputs that do the same, take the same steps: these
have the same outcomes, show the same rows and leave operators behind that stand at the same place
again. What is left in their batches before a step does not matter, since every step starts with an
empty one.
-/

namespace QueryFusion

variable {σ τ υ ν α β : Type} {related : σ → τ → Prop}

/-! ## Steps -/

/-- Two steps have the same outcome, or none, and leave related states. -/
inductive Step.Same (related : σ → τ → Prop) : Step σ α → Step τ α → Prop
  | none : Same related none none
  | some {outcome : Except Error α} {left : σ} {right : τ} (states : related left right) :
      Same related (some (outcome, left)) (some (outcome, right))

/-- A step of a larger state is one of the state inside. -/
theorem Step.embed_eq_iff {wrap : σ → υ} {step : Step σ α} {outcome : Except Error α} {state : υ} :
    Step.embed wrap step = some (outcome, state) ↔
      ∃ inner, step = some (outcome, inner) ∧ wrap inner = state := by
  constructor
  · intro done
    obtain ⟨⟨result, inner⟩, found, same⟩ := Option.map_eq_some_iff.1 done
    cases same
    exact ⟨inner, found, rfl⟩
  · rintro ⟨inner, rfl, rfl⟩
    rfl

/-- A step of a still larger state. -/
theorem Step.embed_embed (wrap : τ → υ) (inner : σ → τ) (step : Step σ α) :
    Step.embed wrap (Step.embed inner step) = Step.embed
      (fun state => wrap (inner state)) step := by
  cases step <;> rfl

namespace Step.Same

variable {first : Step σ α} {second : Step τ α}

/-- Steps that are the same have no outcome, or the same one. -/
theorem cases (same : Step.Same related first second) :
    (first = .none ∧ second = .none) ∨ ∃ outcome left right, first = .some (outcome, left) ∧
      second = .some (outcome, right) ∧ related left right := by
  cases same with
  | none => exact .inl ⟨rfl, rfl⟩
  | some states => exact .inr ⟨_, _, _, rfl, rfl, states⟩

/-- The steps as those of larger states. -/
theorem embed {other : υ → ν → Prop} (same : Step.Same related first second) {wrap : σ → υ}
    {envelop : τ → ν} (wrapped : ∀ left right, related left right →
      other (wrap left) (envelop right)) :
    Step.Same other (Step.embed wrap first) (Step.embed envelop second) := by
  cases same with
  | none => exact .none
  | some states => exact .some (wrapped _ _ states)

/-- A step is the same as itself. -/
theorem refl {states : σ → σ → Prop} {step : Step σ α}
    (each : ∀ outcome state, step = .some (outcome, state) → states state state) :
    Step.Same states step step := by
  cases step with
  | none => exact .none
  | some result => exact .some (each _ _ rfl)

/-- What is known of the state that a step leaves. -/
theorem leaves {states : σ → σ → Prop} {step : Step σ α} (same : Step.Same states step step)
    {outcome : Except Error α} {state : σ} (done : step = .some (outcome, state)) :
    states state state := by
  subst done
  cases same with
  | some states => exact states

end Step.Same

/-- Related producers take the same steps, and show the same rows then. -/
def Supply.Same (related : σ → τ → Prop) (first : Supply σ) (second : Supply τ) : Prop :=
  ∀ left right, related left right →
    Step.Same (fun next other => related next other ∧ first.rows next = second.rows other)
      (first.advance left) (second.advance right)

/-! ## Feeds -/

/-- Feeds of related producers with the same rows to hand on. -/
structure Feed.Same (related : σ → τ → Prop) (left : Feed σ) (right : Feed τ) : Prop where
  producers : related left.producer right.producer
  pending : left.pending = right.pending
  finished : left.finished = right.finished

namespace Feed

variable {first : Supply σ} {second : Supply τ} {left : Feed σ} {right : Feed τ}

/-- Such feeds find the same next row. -/
theorem next_same (supplies : first.Same related second) (feeds : Feed.Same related left right)
    (fuel : Nat) :
    Step.Same (Feed.Same related) (next first fuel left) (next second fuel right) := by
  induction fuel generalizing left right with
  | zero => exact .none
  | succ fuel step =>
    rw [next, next, ← feeds.pending, ← feeds.finished]
    cases left.pending with
    | cons row rest => exact .some ⟨feeds.producers, rfl, rfl⟩
    | nil =>
      dsimp only
      split
      · exact .some feeds
      · rcases (supplies _ _ feeds.producers).cases with ⟨dry, also⟩ | ⟨outcome, producer, other,
          pulled, also, states, rows⟩
        · rw [dry, also]
          exact .none
        · rw [pulled, also]
          cases outcome with
          | error error => exact .some ⟨states, rfl, rfl⟩
          | ok progress => exact step ⟨states, rows, rfl⟩

/-- Such feeds are drained to the same rows. -/
theorem drain_same (supplies : first.Same related second) (feeds : Feed.Same related left right)
    (fuel : Nat) (taken : List Row) :
    Step.Same (Feed.Same related) (drain first fuel left taken)
      (drain second fuel right taken) := by
  induction fuel generalizing left right taken with
  | zero => exact .none
  | succ fuel step =>
    rw [drain, drain]
    rcases (next_same supplies feeds fuel).cases with
      ⟨dry, also⟩ | ⟨outcome, rest, other, pulled, also, states⟩
    · rw [dry, also]
      exact .none
    · rw [pulled, also]
      rcases outcome with _ | _ | row
      · exact .some states
      · exact .some states
      · exact step states (row :: taken)

/-- Such feeds fill the same batch. -/
theorem fill_same (supplies : first.Same related second) (feeds : Feed.Same related left right)
    (transform : Row → Except Error (Option Row)) (fuel : Nat) (batch : RowBatch) :
    Step.Same (fun next other => Feed.Same related next.1 other.1 ∧ next.2 = other.2)
      (fill first transform fuel left batch) (fill second transform fuel right batch) := by
  induction fuel generalizing left right batch with
  | zero => exact .none
  | succ fuel step =>
    rw [fill, fill]
    rcases (next_same supplies feeds fuel).cases with
      ⟨dry, also⟩ | ⟨outcome, rest, other, pulled, also, states⟩
    · rw [dry, also]
      exact .none
    · rw [pulled, also]
      rcases outcome with _ | _ | row
      · exact .some ⟨states, rfl⟩
      · exact .some ⟨states, rfl⟩
      · dsimp only
        rcases transform row with _ | _ | image
        · exact .some ⟨states, rfl⟩
        · exact step states batch
        · dsimp only
          split
          · exact step states (batch.add image)
          · exact .some ⟨states, rfl⟩

/-- A batch keeps its size. -/
theorem fill_capacity {transform : Row → Except Error (Option Row)} {fuel : Nat} {batch : RowBatch}
    {outcome : Except Error Progress} {result : Feed σ × RowBatch}
    (filled : fill first transform fuel left batch = some (outcome, result)) :
    result.2.capacity = batch.capacity := by
  induction fuel generalizing left batch with
  | zero => cases filled
  | succ fuel step =>
    rw [fill] at filled
    rcases pulled : next first fuel left with _ | ⟨_ | _ | row, rest⟩ <;> rw [pulled] at filled
    · cases filled
    · cases filled
      rfl
    · cases filled
      rfl
    · dsimp only at filled
      rcases made : transform row with _ | _ | image <;> rw [made] at filled
      · cases filled
        rfl
      · exact step filled
      · dsimp only at filled
        split at filled
        · exact (step filled).trans (RowBatch.capacity_add batch image)
        · cases filled
          rfl

end Feed

/-! ## Batches -/

/-- Batches of one size are the same when they have been cleared. -/
theorem RowBatch.clear_eq {left right : RowBatch} (size : left.capacity = right.capacity) :
    left.clear = right.clear := by
  rw [clear, clear, size]

/-! ## Filters and projections -/

section Operators

variable {first : Supply σ} {second : Supply τ}

/-- Filters with the same condition over feeds that do the same. -/
structure Filter.Same (related : σ → τ → Prop) (left : Filter σ) (right : Filter τ) : Prop where
  id : left.id = right.id
  condition : left.condition = right.condition
  input : Feed.Same related left.input right.input
  capacity : left.batch.capacity = right.batch.capacity

/-- Such filters take the same steps. -/
theorem Filter.advance_same {left : Filter σ} {right : Filter τ}
    (supplies : first.Same related second) (filters : Filter.Same related left right) (fuel : Nat) :
    Step.Same (fun next other => Filter.Same related next other ∧ next.batch = other.batch)
      (left.advance first fuel) (right.advance second fuel) := by
  unfold Filter.advance
  rw [← filters.condition, ← RowBatch.clear_eq filters.capacity]
  rcases (Feed.fill_same supplies filters.input (transform left.condition) fuel
    left.batch.clear).cases with ⟨dry, also⟩ | ⟨outcome, result, other, filled, also,
      states, batches⟩
  · rw [dry, also]
    exact .none
  · rw [filled, also]
    exact .some ⟨⟨filters.id, rfl, states, congrArg RowBatch.capacity batches⟩, batches⟩

/-- A filter stays the filter it is. -/
theorem Filter.advance_keeps {filter next : Filter σ} {fuel : Nat} {outcome : Except Error Progress}
    (done : filter.advance first fuel = some (outcome, next)) :
    next.id = filter.id ∧ next.condition = filter.condition ∧
      next.batch.capacity = filter.batch.capacity := by
  unfold Filter.advance at done
  split at done
  · cases done
  · rename_i filled
    cases done
    exact ⟨rfl, rfl, Feed.fill_capacity filled⟩

/-- Projections with the same expressions over feeds that do the same. -/
structure Project.Same (related : σ → τ → Prop) (left : Project σ) (right : Project τ) : Prop where
  id : left.id = right.id
  expressions : left.expressions = right.expressions
  input : Feed.Same related left.input right.input
  capacity : left.batch.capacity = right.batch.capacity

/-- Such projections take the same steps. -/
theorem Project.advance_same {left : Project σ} {right : Project τ}
    (supplies : first.Same related second) (projections : Project.Same related left right)
    (fuel : Nat) :
    Step.Same (fun next other => Project.Same related next other ∧ next.batch = other.batch)
      (left.advance first fuel) (right.advance second fuel) := by
  unfold Project.advance
  rw [← projections.expressions, ← RowBatch.clear_eq projections.capacity]
  rcases (Feed.fill_same supplies projections.input (transform left.expressions) fuel
    left.batch.clear).cases with ⟨dry, also⟩ | ⟨outcome, result, other, filled, also,
      states, batches⟩
  · rw [dry, also]
    exact .none
  · rw [filled, also]
    exact .some ⟨⟨projections.id, rfl, states,
      congrArg RowBatch.capacity batches⟩, batches⟩

/-- A projection stays the projection it is. -/
theorem Project.advance_keeps {project next : Project σ} {fuel : Nat}
    {outcome : Except Error Progress} (done : project.advance first fuel = some (outcome, next)) :
    next.id = project.id ∧ next.expressions = project.expressions ∧
      next.batch.capacity = project.batch.capacity := by
  unfold Project.advance at done
  split at done
  · cases done
  · rename_i filled
    cases done
    exact ⟨rfl, rfl, Feed.fill_capacity filled⟩

/-! ## Sorting -/

/-- Sorts by the same columns over feeds that do the same, with the same sorted rows left. -/
structure Sorter.Same (related : σ → τ → Prop) (left : Sorter σ) (right : Sorter τ) : Prop where
  id : left.id = right.id
  columns : left.columns = right.columns
  ascending : left.ascending = right.ascending
  input : Feed.Same related left.input right.input
  sorted : left.sorted = right.sorted
  capacity : left.batch.capacity = right.batch.capacity

/-- A batch of sorted rows keeps its size. -/
theorem Sorter.emit_capacity (rows : List Row) (batch : RowBatch) :
    (emit rows batch).2.2.capacity = batch.capacity := by
  induction rows generalizing batch with
  | nil => rfl
  | cons row rest step =>
    rw [emit]
    split
    · exact (step _).trans (RowBatch.capacity_add batch row)
    · rfl

/-- Such sorts hand on the same rows. -/
theorem Sorter.emitFrom_same {left : Sorter σ} {right : Sorter τ}
    (sorts : Sorter.Same related left right) (rows : List Row) :
    (left.emitFrom rows).2 = (right.emitFrom rows).2 ∧
      Sorter.Same related (left.emitFrom rows).1 (right.emitFrom rows).1 ∧
      (left.emitFrom rows).1.batch = (right.emitFrom rows).1.batch := by
  unfold emitFrom
  rw [← RowBatch.clear_eq sorts.capacity]
  exact ⟨rfl, ⟨sorts.id, sorts.columns, sorts.ascending, sorts.input, rfl, rfl⟩, rfl⟩

/-- Such sorts take the same steps. -/
theorem Sorter.advance_same {left : Sorter σ} {right : Sorter τ}
    (supplies : first.Same related second) (sorts : Sorter.Same related left right) (fuel : Nat) :
    Step.Same (fun next other => Sorter.Same related next other ∧ next.batch = other.batch)
      (left.advance first fuel) (right.advance second fuel) := by
  have emitted : ∀ {next : Sorter σ} {other : Sorter τ} (rows : List Row),
      Sorter.Same related next other →
        Step.Same (fun next other => Sorter.Same related next other ∧ next.batch = other.batch)
          (some (Except.ok (next.emitFrom rows).2, (next.emitFrom rows).1))
          (some (.ok (other.emitFrom rows).2, (other.emitFrom rows).1)) := by
    intro next other rows alike
    obtain ⟨progress, states⟩ := emitFrom_same alike rows
    rw [progress]
    exact .some states
  unfold Sorter.advance
  rw [← sorts.sorted, ← RowBatch.clear_eq sorts.capacity, ← sorts.columns, ← sorts.ascending]
  cases left.sorted with
  | some rows => exact emitted rows sorts
  | none =>
    rcases (Feed.drain_same supplies sorts.input fuel []).cases with ⟨dry, also⟩ | ⟨outcome, input,
      other, drained, also, states⟩
    · simp only [Feed.collect, dry, also]
      exact .none
    · simp only [Feed.collect, drained, also]
      cases outcome with
      | error error =>
        exact .some ⟨⟨sorts.id, rfl, rfl, states, rfl, rfl⟩, rfl⟩
      | ok rows =>
        exact emitted _ ⟨sorts.id, rfl, rfl, states, rfl, sorts.capacity⟩

/-- A sort stays the sort it is. -/
theorem Sorter.advance_keeps {sorter next : Sorter σ} {fuel : Nat} {outcome : Except Error Progress}
    (done : sorter.advance first fuel = some (outcome, next)) :
    next.id = sorter.id ∧ next.columns = sorter.columns ∧ next.ascending = sorter.ascending ∧
      next.batch.capacity = sorter.batch.capacity := by
  unfold Sorter.advance at done
  split at done
  · cases done
    exact ⟨rfl, rfl, rfl, emit_capacity _ _⟩
  · split at done
    · cases done
    · cases done
      exact ⟨rfl, rfl, rfl, rfl⟩
    · cases done
      exact ⟨rfl, rfl, rfl, emit_capacity _ _⟩

/-! ## Joins -/

/-- Joins under the same condition over feeds that do the same, at the same pair of rows. The
producers on the left and those on the right may be related in two ways. -/
structure Join.Same (related again : σ → τ → Prop) (join : Join σ) (other : Join τ) : Prop where
  id : join.id = other.id
  condition : join.condition = other.condition
  left : Feed.Same related join.left other.left
  right : Feed.Same again join.right other.right
  rightRows : join.rightRows = other.rightRows
  current : join.current = other.current
  capacity : join.batch.capacity = other.batch.capacity

namespace Join

variable {join : Join σ} {other : Join τ} {again : σ → τ → Prop}

/-- Such joins with the same batch fill it with the same rows. -/
theorem fill_same (supplies : first.Same related second) (rights : List Row)
    (joins : Join.Same related again join other) (batches : join.batch = other.batch) (fuel : Nat) :
    Step.Same (fun next also => Join.Same related again next also ∧ next.batch = also.batch)
      (fill first rights fuel join) (fill second rights fuel other) := by
  induction fuel generalizing join other with
  | zero => exact .none
  | succ fuel step =>
    rw [fill, fill, ← joins.current, ← joins.condition, ← batches]
    cases join.current with
    | some current =>
      dsimp only
      rcases pair join.condition current.1 current.2 join.batch with ⟨_ | _ | rest, batch⟩
      · exact .some ⟨⟨joins.id, rfl, joins.left, joins.right, joins.rightRows, rfl, rfl⟩, rfl⟩
      · exact step ⟨joins.id, rfl, joins.left, joins.right, joins.rightRows, rfl, rfl⟩ rfl
      · exact .some ⟨⟨joins.id, rfl, joins.left, joins.right, joins.rightRows, rfl, rfl⟩, rfl⟩
    | none =>
      rcases (Feed.next_same supplies joins.left fuel).cases with
        ⟨dry, also⟩ | ⟨outcome, feed, others, pulled, also, states⟩
      · rw [dry, also]
        exact .none
      · rw [pulled, also]
        rcases outcome with _ | _ | row
        · exact .some ⟨⟨joins.id, rfl, states, joins.right, joins.rightRows, rfl, rfl⟩, rfl⟩
        · exact .some ⟨⟨joins.id, rfl, states, joins.right, joins.rightRows, rfl, rfl⟩, rfl⟩
        · exact step ⟨joins.id, rfl, states, joins.right, joins.rightRows, rfl, rfl⟩ rfl

/-- Such joins take the same steps. -/
theorem advance_same (supplies : first.Same related second) (others : first.Same again second)
    (joins : Join.Same related again join other) (fuel : Nat) :
    Step.Same (fun next also => Join.Same related again next also ∧ next.batch = also.batch)
      (join.advance first fuel) (other.advance second fuel) := by
  simp only [Join.advance, ← joins.rightRows, ← RowBatch.clear_eq joins.capacity]
  cases join.rightRows with
  | some rows =>
    refine fill_same supplies rows ?_ rfl fuel
    exact ⟨joins.id, joins.condition, joins.left, joins.right, rfl, joins.current, rfl⟩
  | none =>
    rcases (Feed.drain_same others joins.right fuel []).cases with ⟨dry, also⟩ | ⟨outcome, feed,
      other, drained, also, states⟩
    · simp only [Feed.collect, dry, also]
      exact .none
    · simp only [Feed.collect, drained, also]
      cases outcome with
      | error error =>
        exact .some ⟨⟨joins.id, joins.condition, joins.left, states, rfl, joins.current, rfl⟩, rfl⟩
      | ok rows =>
        refine fill_same supplies rows ?_ rfl fuel
        exact ⟨joins.id, joins.condition, joins.left, states, rfl, joins.current, rfl⟩

/-- Pairing rows keeps the size of a batch. -/
theorem pair_capacity (condition : Option Expr) (left : Row) (rights : List Row)
    (batch : RowBatch) :
    (pair condition left rights batch).2.capacity = batch.capacity := by
  induction rights generalizing batch with
  | nil => rfl
  | cons right rest step =>
    rw [pair]
    split
    · rfl
    · exact step batch
    · split
      · exact (step _).trans (RowBatch.capacity_add batch _)
      · rfl

/-- What a join keeps: its place, its condition, and the size of its batches. -/
def Keeps (join next : Join σ) : Prop :=
  next.id = join.id ∧ next.condition = join.condition ∧ next.batch.capacity = join.batch.capacity

/-- Filling a batch, a join stays the join it is. -/
theorem fill_keeps {rights : List Row} {fuel : Nat} {join next : Join σ}
    {outcome : Except Error Progress}
    (filled : fill first rights fuel join = some (outcome, next)) :
    Keeps join next := by
  induction fuel generalizing join with
  | zero => cases filled
  | succ fuel step =>
    rw [fill] at filled
    split at filled
    · rename_i left rest current
      have size := pair_capacity join.condition left rest join.batch
      split at filled
      · rename_i paired
        cases filled
        exact ⟨rfl, rfl, by rw [paired] at size; exact size⟩
      · rename_i paired
        cases filled
        exact ⟨rfl, rfl, by rw [paired] at size; exact size⟩
      · rename_i paired
        rw [paired] at size
        have behind := step filled
        exact ⟨behind.1, behind.2.1, behind.2.2.trans size⟩
    · split at filled
      · cases filled
      · cases filled
        exact ⟨rfl, rfl, rfl⟩
      · cases filled
        exact ⟨rfl, rfl, rfl⟩
      · have behind := step filled
        exact behind

/-- A join stays the join it is. -/
theorem advance_keeps {fuel : Nat} {join next : Join σ} {outcome : Except Error Progress}
    (done : join.advance first fuel = some (outcome, next)) : Keeps join next := by
  simp only [Join.advance] at done
  split at done
  · have filled := fill_keeps done
    exact filled
  · split at done
    · cases done
    · cases done
      exact ⟨rfl, rfl, rfl⟩
    · have filled := fill_keeps done
      exact filled

end Join

end Operators

/-! ## Scans -/

namespace Scan

/-- Scans of the same entries at the same place. -/
structure Same (scan other : Scan) : Prop where
  id : scan.id = other.id
  state : scan.state = other.state
  cursor : scan.cursor = other.cursor
  capacity : scan.batch.capacity = other.batch.capacity

/-- Such scans take the same steps. -/
theorem advance_same {scan other : Scan} (scans : scan.Same other) (fuel : Nat) :
    Step.Same (fun next also => Same next also ∧ next.batch = also.batch)
      (scan.advance fuel) (other.advance fuel) := by
  unfold Scan.advance
  rw [← scans.cursor, ← scans.id, ← scans.state, ← RowBatch.clear_eq scans.capacity]
  cases scan.cursor with
  | none => exact .some ⟨⟨rfl, rfl, rfl, rfl⟩, rfl⟩
  | some cursor =>
    dsimp only
    cases fill scan.state fuel cursor scan.batch.clear with
    | none => exact .none
    | some result => exact .some ⟨⟨rfl, rfl, rfl, rfl⟩, rfl⟩

/-- A batch of a scan keeps its size. -/
theorem fill_capacity {state : ScanState} {fuel : Nat} {cursor : Cursor} {batch : RowBatch}
    {outcome : Except Error Progress} {result : Cursor × RowBatch}
    (filled : fill state fuel cursor batch = some (outcome, result)) :
    result.2.capacity = batch.capacity := by
  induction fuel generalizing cursor batch with
  | zero => cases filled
  | succ fuel step =>
    rw [fill] at filled
    split at filled
    · cases filled
      rfl
    · split at filled
      · cases filled
        rfl
      · exact step filled
      · split at filled
        · exact (step filled).trans (RowBatch.capacity_add batch _)
        · cases filled
          rfl

/-- A scan stays the scan it is. -/
theorem advance_keeps {scan next : Scan} {fuel : Nat} {outcome : Except Error Progress}
    (done : scan.advance fuel = some (outcome, next)) :
    next.id = scan.id ∧ next.state = scan.state ∧ next.batch.capacity = scan.batch.capacity := by
  unfold Scan.advance at done
  split at done
  · cases done
    exact ⟨rfl, rfl, rfl⟩
  · split at done
    · cases done
    · rename_i filled
      cases done
      exact ⟨rfl, rfl, fill_capacity filled⟩

end Scan

end QueryFusion
