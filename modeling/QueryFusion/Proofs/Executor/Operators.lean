import QueryFusion.Proofs.Executor.Batching

/-!
# What operators deliver

A filter, a projection and a join fill their batches from items: the rows of their input, or the
pairs of a left and a right row. A sort hands on its sorted input. What they deliver therefore
depends on the rows of their inputs only, not on the batches these come in.
-/

namespace QueryFusion

variable {σ : Type} {source : Supply σ} {upstream : σ} {batches : List (List Row)}
  {ending : Option Error} {fuel : Nat} {out : List (List Row)} {result : Option Error}

/-! ## Feeds that last -/

/-- The feed holds these rows, and the fuel lasts for all of them. -/
def Feed.Covers (source : Supply σ) (ending : Option Error) (fuel : Nat) (feed : Feed σ)
    (rows : List Row) : Prop :=
  ∃ pulls, feed.Holds source rows ending pulls ∧ pulls + rows.length + 1 < fuel

/-- A new feed covers the rows of what its producer delivers. -/
theorem Feed.covers_start (input : Delivers source upstream batches ending)
    (enough : batches.length + batches.flatten.length + 2 < fuel) :
    (Feed.start upstream).Covers source ending fuel batches.flatten :=
  ⟨batches.length + 1, .waiting input [], by omega⟩

/-- A feed that fills a batch covers the rows that are left. -/
theorem Feed.Covers.fill {feed : Feed σ} {rows : List Row}
    (covers : feed.Covers source ending fuel rows) (transform : Row → Except Error (Option Row))
    (batch : RowBatch) :
    ∃ rest, Feed.fill source transform fuel feed batch =
        some ((fillItems transform ending rows batch).1, rest,
          (fillItems transform ending rows batch).2.1) ∧
      ∀ progress, (fillItems transform ending rows batch).1 = .ok progress →
        rest.Covers source ending fuel (fillItems transform ending rows batch).2.2 := by
  obtain ⟨pulls, holds, enough⟩ := covers
  obtain ⟨rest, filled, goesOn⟩ := holds.fill transform enough batch
  refine ⟨rest, filled, fun progress done => ?_⟩
  obtain ⟨left, kept, fewer⟩ := goesOn progress done
  have := @fillItems_rest_length _ transform ending rows batch
  exact ⟨left, kept, by omega⟩

/-! ## Filter and projection -/

/-- How rows are pulled from a filter. -/
def Filter.supply (source : Supply σ) (fuel : Nat) : Supply (Filter σ) :=
  ⟨Filter.advance source fuel, fun filter => filter.batch.rows⟩

/-- How rows are pulled from a projection. -/
def Project.supply (source : Supply σ) (fuel : Nat) : Supply (Project σ) :=
  ⟨Project.advance source fuel, fun project => project.batch.rows⟩

/-- The filter goes on with these rows of its input. -/
structure Filter.Stands (source : Supply σ) (ending : Option Error) (fuel : Nat) (condition : Expr)
    (capacity : Nat) (filter : Filter σ) (rows : List Row) : Prop where
  condition : filter.condition = condition
  capacity : filter.batch.capacity = capacity
  covers : filter.input.Covers source ending fuel rows

/-- A step of a filter fills its batch from the rows of its input. -/
theorem Filter.Stands.advance {condition : Expr} {capacity : Nat} {filter : Filter σ}
    {rows : List Row} (stands : filter.Stands source ending fuel condition capacity rows) : ∃ next,
      filter.advance source fuel =
        some ((fillItems (transform condition) ending rows ⟨[], capacity⟩).1, next) ∧
      next.batch.rows = (fillItems (transform condition) ending rows ⟨[], capacity⟩).2.1.rows ∧
      ∀ progress, (fillItems (transform condition) ending rows ⟨[], capacity⟩).1 = .ok progress →
        next.Stands source ending fuel condition capacity
          (fillItems (transform condition) ending rows ⟨[], capacity⟩).2.2 := by
  obtain ⟨rest, done, goesOn⟩ := stands.covers.fill (transform condition) ⟨[], capacity⟩
  refine ⟨{ filter with input := rest, batch := _ }, ?_, rfl, fun progress ended =>
    ⟨stands.condition, fillItems_capacity _ _, goesOn progress ended⟩⟩
  simp only [Filter.advance, RowBatch.clear, stands.condition, stands.capacity, done]

/-- A filter delivers the batches that are filled from the rows of its input. -/
theorem Filter.delivers (input : Delivers source upstream batches ending) {filter : Filter σ}
    (fresh : filter.input = .start upstream)
    (enough : batches.length + batches.flatten.length + 2 < fuel)
    (filled : Batches (transform filter.condition) ending filter.batch.capacity batches.flatten
      out result) :
    Delivers (Filter.supply source fuel) filter out result := by
  refine filled.delivers (Stands source ending fuel filter.condition filter.batch.capacity)
    (fun _ _ stands => stands.advance) ⟨rfl, rfl, ?_⟩
  rw [fresh]
  exact Feed.covers_start input enough

/-- The projection goes on with these rows of its input. -/
structure Project.Stands (source : Supply σ) (ending : Option Error) (fuel : Nat)
    (expressions : List Expr) (capacity : Nat) (project : Project σ) (rows : List Row) : Prop where
  expressions : project.expressions = expressions
  capacity : project.batch.capacity = capacity
  covers : project.input.Covers source ending fuel rows

/-- A step of a projection fills its batch from the rows of its input. -/
theorem Project.Stands.advance {expressions : List Expr} {capacity : Nat} {project : Project σ}
    {rows : List Row} (stands : project.Stands source ending fuel expressions capacity rows) :
    ∃ next,
      project.advance source fuel =
        some ((fillItems (transform expressions) ending rows ⟨[], capacity⟩).1, next) ∧
      next.batch.rows = (fillItems (transform expressions) ending rows ⟨[], capacity⟩).2.1.rows ∧
      ∀ progress, (fillItems (transform expressions) ending rows ⟨[], capacity⟩).1 = .ok progress →
        next.Stands source ending fuel expressions capacity
          (fillItems (transform expressions) ending rows ⟨[], capacity⟩).2.2 := by
  obtain ⟨rest, done, goesOn⟩ := stands.covers.fill (transform expressions) ⟨[], capacity⟩
  refine ⟨{ project with input := rest, batch := _ }, ?_, rfl, fun progress ended =>
    ⟨stands.expressions, fillItems_capacity _ _, goesOn progress ended⟩⟩
  simp only [Project.advance, RowBatch.clear, stands.expressions, stands.capacity, done]

/-- A projection delivers the batches that are filled from the rows of its input. -/
theorem Project.delivers (input : Delivers source upstream batches ending) {project : Project σ}
    (fresh : project.input = .start upstream)
    (enough : batches.length + batches.flatten.length + 2 < fuel)
    (filled : Batches (transform project.expressions) ending project.batch.capacity
      batches.flatten out result) :
    Delivers (Project.supply source fuel) project out result := by
  refine filled.delivers (Stands source ending fuel project.expressions project.batch.capacity)
    (fun _ _ stands => stands.advance) ⟨rfl, rfl, ?_⟩
  rw [fresh]
  exact Feed.covers_start input enough

/-! ## Join -/

namespace Join

/-- The joined row, if it belongs to the result. -/
def combine (condition : Option Expr) (pair : Row × Row) : Except Error (Option Row) := do
  let accepted ← accepts condition (pair.1 ++ pair.2)
  .ok (if accepted then some (pair.1 ++ pair.2) else none)

/-- The pairs of each left row with each right row. -/
def pairs (lefts rights : List Row) : List (Row × Row) :=
  lefts.flatMap fun left => rights.map fun right => (left, right)

/-- The pairs of the left row being joined that are still to try. -/
def begun : Option (Row × List Row) → List (Row × Row)
  | none => []
  | some (left, rights) => rights.map fun right => (left, right)

/-- Joining one left row is filling a batch from its pairs. -/
theorem fillItems_pair (condition : Option Expr) (ending : Option Error) (left : Row)
    (rights : List Row) (others : List (Row × Row)) (batch : RowBatch) :
    fillItems (combine condition) ending ((rights.map fun right => (left, right)) ++ others) batch =
      match pair condition left rights batch with
      | (.error error, filled) =>
        (.error error, filled, (fillItems (combine condition) ending
          ((rights.map fun right => (left, right)) ++ others) batch).2.2)
      | (.ok (some rest), filled) =>
        (.ok .fetched, filled, (rest.map fun right => (left, right)) ++ others)
      | (.ok none, filled) => fillItems (combine condition) ending others filled := by
  induction rights generalizing batch with
  | nil => rfl
  | cons right rest step =>
    rw [pair, List.map_cons, List.cons_append, fillItems]
    simp only [combine]
    cases accepts condition (left ++ right) with
    | error error => rfl
    | ok accepted =>
      cases accepted with
      | false => exact step batch
      | true =>
        simp only [ok_bind, if_true]
        cases (batch.add (left ++ right)).hasRoom with
        | true => exact step (batch.add (left ++ right))
        | false => rfl

/-- The join fills its batch from the pairs that are left of these left rows and goes on behind
them. -/
def Proceeds (source : Supply σ) (ending : Option Error) (rights : List Row) (fuel pulls : Nat)
    (lefts : List Row) (join : Join σ) : Prop :=
  let filled := fillItems (combine join.condition) ending
    (begun join.current ++ pairs lefts rights) join.batch
  ∃ next, fill source rights fuel join = some (filled.1, next) ∧ next.batch = filled.2.1 ∧
    ∀ progress, filled.1 = .ok progress →
      next.condition = join.condition ∧ next.rightRows = join.rightRows ∧
      ∃ rest left, next.left.Holds source rest ending left ∧ left ≤ pulls ∧
        rest.length ≤ lefts.length ∧ filled.2.2 = begun next.current ++ pairs rest rights

variable {rights lefts : List Row} {pulls : Nat} {join : Join σ}

/-- A join in the middle of a left row proceeds if it does so behind that row. -/
theorem Proceeds.begun {left : Row} {untried : List Row}
    (current : join.current = some (left, untried))
    (holds : join.left.Holds source lefts ending pulls)
    (behind : ∀ batch, Proceeds source ending rights fuel pulls lefts
      { join with current := none, batch := batch }) :
    Proceeds source ending rights (fuel + 1) pulls lefts join := by
  simp only [Proceeds, current, Join.begun]
  rw [fillItems_pair, fill, current]
  dsimp only
  rcases pair join.condition left untried join.batch with ⟨_ | _ | rest, batch⟩
  · exact ⟨_, rfl, rfl, fun progress never => by cases never⟩
  · exact behind batch
  · exact ⟨_, rfl, rfl, fun progress _ =>
      ⟨rfl, rfl, lefts, pulls, holds, Nat.le_refl _, Nat.le_refl _, rfl⟩⟩

/-- A join between two left rows proceeds, because each row is joined to its end. -/
theorem proceeds_between (holds : join.left.Holds source lefts ending pulls)
    (enough : pulls + 2 * lefts.length + 1 < fuel) (current : join.current = none) :
    Proceeds source ending rights fuel pulls lefts join := by
  induction lefts generalizing join pulls fuel with
  | nil =>
    obtain ⟨fuel, rfl⟩ : ∃ less, fuel = less + 1 := ⟨fuel - 1, by omega⟩
    simp only [List.length_nil] at enough
    obtain ⟨rest, found, held⟩ := holds.next_nil rfl (by omega : pulls < fuel)
    simp only [Proceeds, current, Join.begun, pairs, List.flatMap_nil, List.append_nil]
    rw [fill, current]
    simp only [found]
    cases ending with
    | none =>
      exact ⟨_, rfl, rfl, fun _ _ => ⟨rfl, rfl, [], 0, held rfl, Nat.zero_le _, Nat.le_refl _, rfl⟩⟩
    | some error => exact ⟨_, rfl, rfl, fun progress never => by cases never⟩
  | cons row lefts step =>
    obtain ⟨fuel, rfl⟩ : ∃ less, fuel = less + 1 + 1 := ⟨fuel - 2, by omega⟩
    simp only [List.length_cons] at enough
    obtain ⟨rest, left, found, held, fewer⟩ := holds.next (by omega : pulls < fuel + 1)
    have inside : Proceeds source ending rights (fuel + 1) left lefts
        { join with left := rest, current := some (row, rights) } :=
      Proceeds.begun rfl held fun batch => step held (by omega) rfl
    obtain ⟨next, filled, batch, goesOn⟩ := inside
    have items : Join.begun (some (row, rights)) ++ pairs lefts rights =
        Join.begun join.current ++ pairs (row :: lefts) rights := by
      rw [current]
      rfl
    rw [items] at filled batch goesOn
    have pulled : fill source rights (fuel + 1 + 1) join = fill source rights (fuel + 1)
        { join with left := rest, current := some (row, rights) } := by
      rw [fill, current]
      simp only [found]
    refine ⟨next, pulled.trans filled, batch, fun progress done => ?_⟩
    obtain ⟨condition, rightRows, others, remaining, kept, less, shorter, items⟩ :=
      goesOn progress done
    exact ⟨condition, rightRows, others, remaining, kept, by omega,
      by rw [List.length_cons]; omega, items⟩

/-- A join proceeds wherever it stands. -/
theorem proceeds (holds : join.left.Holds source lefts ending pulls)
    (enough : pulls + 2 * lefts.length + 2 < fuel) :
    Proceeds source ending rights fuel pulls lefts join := by
  cases current : join.current with
  | none => exact proceeds_between holds (by omega) current
  | some pending =>
    obtain ⟨fuel, rfl⟩ : ∃ less, fuel = less + 1 := ⟨fuel - 1, by omega⟩
    exact .begun current holds fun batch => proceeds_between holds (by omega) rfl

/-- The join will try these pairs: the right rows are known, or they are still to be read. -/
structure Stands (source : Supply σ) (ending : Option Error) (condition : Option Expr)
    (capacity fuel : Nat) (rights : List Row) (join : Join σ) (items : List (Row × Row)) :
    Prop where
  condition : join.condition = condition
  capacity : join.batch.capacity = capacity
  right : join.rightRows = some rights ∨
    join.rightRows = none ∧ join.right.Covers source none fuel rights
  left : ∃ pulls lefts, join.left.Holds source lefts ending pulls ∧
    pulls + 2 * lefts.length + 2 < fuel ∧ items = begun join.current ++ pairs lefts rights

/-- How rows are pulled from a join. -/
def supply (source : Supply σ) (fuel : Nat) : Supply (Join σ) :=
  ⟨advance source fuel, fun join => join.batch.rows⟩

/-- A step of a join reads the right rows, if it has not read them before, and fills the batch. -/
theorem advance_eq_fill {condition : Option Expr} {capacity : Nat} {items : List (Row × Row)}
    (stands : Stands source ending condition capacity fuel rights join items) :
    ∃ feed, advance source fuel join = fill source rights fuel
      { join with batch := ⟨[], capacity⟩, right := feed, rightRows := some rights } := by
  rcases stands.right with known | ⟨unknown, pulls, holds, enough⟩
  · refine ⟨join.right, ?_⟩
    simp only [advance, RowBatch.clear, known, stands.capacity]
  · obtain ⟨feed, collected⟩ := holds.drain enough []
    refine ⟨feed, ?_⟩
    simp only [advance, RowBatch.clear, unknown, stands.capacity, Feed.collect, collected]
    rfl

/-- The inputs of a join that has not been advanced. -/
structure Fresh (join : Join σ) (left right : σ) : Prop where
  left : join.left = .start left
  right : join.right = .start right
  rightRows : join.rightRows = none
  current : join.current = none

variable {left right : σ} {leftBatches rightBatches : List (List Row)}

/-- A join delivers the batches that are filled from the pairs of its inputs' rows. -/
theorem delivers (leftInput : Delivers source left leftBatches ending)
    (rightInput : Delivers source right rightBatches none) (fresh : join.Fresh left right)
    (leftEnough : leftBatches.length + 2 * leftBatches.flatten.length + 3 < fuel)
    (rightEnough : rightBatches.length + rightBatches.flatten.length + 2 < fuel)
    (filled : Batches (combine join.condition) ending join.batch.capacity
      (pairs leftBatches.flatten rightBatches.flatten) out result) :
    Delivers (Join.supply source fuel) join out result := by
  refine filled.delivers (Stands source ending join.condition join.batch.capacity fuel
    rightBatches.flatten) ?_ ⟨rfl, rfl, .inr ⟨fresh.rightRows, ?_⟩, ?_⟩
  · intro state items stands
    obtain ⟨feed, filling⟩ := advance_eq_fill stands
    obtain ⟨pulls, lefts, holds, enough, rfl⟩ := stands.left
    obtain ⟨next, done, batch, goesOn⟩ := @proceeds σ source ending fuel rightBatches.flatten lefts
      pulls { state with batch := ⟨[], join.batch.capacity⟩, right := feed,
                         rightRows := some rightBatches.flatten } holds enough
    simp only [stands.condition] at filling done batch goesOn
    refine ⟨next, filling.trans done, ?_, fun progress ended => ?_⟩
    · exact congrArg RowBatch.rows batch
    · obtain ⟨condition, rightRows, rest, remaining, kept, fewer, shorter, items⟩ :=
        goesOn progress ended
      refine ⟨condition, ?_, .inl rightRows, remaining, rest, kept, by omega, items⟩
      rw [batch]
      exact fillItems_capacity _ _
  · rw [fresh.right]
    exact Feed.covers_start rightInput rightEnough
  · rw [fresh.left, fresh.current]
    exact ⟨_, _, .waiting leftInput [], by rw [List.nil_append]; omega, rfl⟩

/-- A join fails when its right input does. -/
theorem delivers_failure {error : Error}
    (rightInput : Delivers source right rightBatches (some error)) (fresh : join.Fresh left right)
    (enough : rightBatches.length + rightBatches.flatten.length + 2 < fuel) :
    Delivers (Join.supply source fuel) join [] (some error) := by
  obtain ⟨pulls, holds, lasting⟩ := Feed.covers_start rightInput enough
  obtain ⟨feed, collected⟩ := holds.drain lasting []
  have failed : advance source fuel join = some (.error error,
      { join with batch := join.batch.clear, right := feed }) := by
    simp only [advance, fresh.rightRows, fresh.right, Feed.collect, collected]
    rfl
  exact .fails failed

end Join

/-! ## Sort -/

namespace Sorter

/-- How rows are pulled from a sort. -/
def supply [RowSort] (source : Supply σ) (fuel : Nat) : Supply (Sorter σ) :=
  ⟨advance source fuel, fun sorter => sorter.batch.rows⟩

/-- Rows are moved into a batch until it is full. -/
theorem emit_eq (rows : List Row) (batch : RowBatch) (room : batch.rows.length < batch.capacity) :
    emit rows batch =
      if batch.rows.length + rows.length ≤ batch.capacity then
        (.finished, [], ⟨batch.rows ++ rows, batch.capacity⟩)
      else
        (.fetched, rows.drop (batch.capacity - batch.rows.length),
          ⟨batch.rows ++ rows.take (batch.capacity - batch.rows.length), batch.capacity⟩) := by
  induction rows generalizing batch with
  | nil => simp [emit, Nat.le_of_lt room]
  | cons row rest step =>
    obtain ⟨more, size⟩ : ∃ more, batch.capacity - batch.rows.length = more + 1 :=
      ⟨batch.capacity - batch.rows.length - 1, by omega⟩
    rw [emit, size, List.drop_succ_cons, List.take_succ_cons]
    split
    · rename_i wide
      rw [RowBatch.hasRoom_iff] at wide
      rw [step (batch.add row) wide]
      simp only [RowBatch.rows_add, RowBatch.capacity_add, List.length_append,
        List.length_cons, List.length_nil, List.append_assoc, List.cons_append, List.nil_append]
      have left : batch.capacity - (batch.rows.length + (0 + 1)) = more := by omega
      rw [left]
      simp only [Nat.add_assoc, Nat.add_comm 1, Nat.zero_add]
    · rename_i narrow
      rw [RowBatch.hasRoom_iff] at narrow
      simp only [RowBatch.rows_add, RowBatch.capacity_add, List.length_append,
        List.length_cons, List.length_nil] at narrow
      obtain rfl : more = 0 := by omega
      cases rest with
      | nil => simp [RowBatch.add]; omega
      | cons next others => simp [RowBatch.add]; omega

variable [RowSort] {sorter : Sorter σ}

/-- The next step of the sort hands on the first of these rows. -/
def Stands (source : Supply σ) (fuel : Nat) (capacity : Nat) (sorter : Sorter σ)
    (rows : List Row) : Prop :=
  ∃ base : Sorter σ, base.batch.capacity = capacity ∧
    sorter.advance source fuel = some (.ok (base.emitFrom rows).2, (base.emitFrom rows).1)

/-- A sort with sorted rows hands them on. -/
theorem stands_sorted {capacity : Nat} {rows : List Row} (sorted : sorter.sorted = some rows)
    (full : sorter.batch.capacity = capacity) : Stands source fuel capacity sorter rows := by
  refine ⟨sorter, full, ?_⟩
  simp only [advance, sorted]

/-- A sort hands on sorted rows in batches, and is finished with the last row. -/
theorem Stands.delivers {capacity : Nat} {rows : List Row}
    (stands : Stands source fuel capacity sorter rows) (positive : 0 < capacity) :
    ∃ out, Delivers (Sorter.supply source fuel) sorter out none ∧ Batching capacity rows out ∧
      ([] ∈ out → rows = []) := by
  induction size : rows.length using Nat.strongRecOn generalizing sorter rows with
  | ind length step =>
    obtain ⟨base, rfl, advanced⟩ := stands
    have emitted := emit_eq rows ⟨[], base.batch.capacity⟩ positive
    simp only [List.length_nil, Nat.zero_add, Nat.sub_zero, List.nil_append] at emitted
    simp only [emitFrom, RowBatch.clear, emitted] at advanced
    split at advanced
    · rename_i fits
      exact ⟨[rows], @Delivers.last _ (Sorter.supply source fuel) sorter _ advanced, .single fits,
        fun blank => (List.mem_singleton.1 blank).symm⟩
    · rename_i wide
      have shorter : (rows.drop base.batch.capacity).length < length := by
        rw [List.length_drop]
        omega
      have rest : Stands source fuel base.batch.capacity
          { base with sorted := some (rows.drop base.batch.capacity),
                      batch := ⟨rows.take base.batch.capacity, base.batch.capacity⟩ }
          (rows.drop base.batch.capacity) := stands_sorted rfl rfl
      obtain ⟨out, later, split, closing⟩ := step _ shorter rest rfl
      have full : (rows.take base.batch.capacity).length = base.batch.capacity := by
        rw [List.length_take]
        omega
      have parts := split.cons full later.ne_nil
      rw [List.take_append_drop] at parts
      refine ⟨rows.take base.batch.capacity :: out,
        @Delivers.more _ (Sorter.supply source fuel) sorter _ _ _ advanced later, parts, ?_⟩
      intro blank
      rcases List.mem_cons.1 blank with first | inner
      · rw [← first, List.length_nil] at full
        omega
      · have done := congrArg List.length (closing inner)
        rw [List.length_drop, List.length_nil] at done
        omega

/-- A sort delivers its sorted input, and is finished with the last row of it. -/
theorem delivers_closing (input : Delivers source upstream batches none)
    (fresh : sorter.input = .start upstream) (unread : sorter.sorted = none)
    (enough : batches.length + batches.flatten.length + 2 < fuel)
    (positive : 0 < sorter.batch.capacity) :
    ∃ out, Delivers (Sorter.supply source fuel) sorter out none ∧
      Batching sorter.batch.capacity
        (RowSort.sort (compareRows sorter.columns sorter.ascending) batches.flatten) out ∧
      ([] ∈ out → RowSort.sort (compareRows sorter.columns sorter.ascending)
        batches.flatten = []) := by
  obtain ⟨pulls, holds, lasting⟩ := Feed.covers_start input enough
  obtain ⟨feed, collected⟩ := holds.drain lasting []
  refine Stands.delivers ⟨{ sorter with input := feed }, rfl, ?_⟩ positive
  simp only [advance, unread, fresh, Feed.collect, collected]
  rfl

/-- A sort delivers its sorted input. -/
theorem delivers (input : Delivers source upstream batches none)
    (fresh : sorter.input = .start upstream) (unread : sorter.sorted = none)
    (enough : batches.length + batches.flatten.length + 2 < fuel)
    (positive : 0 < sorter.batch.capacity) :
    ∃ out, Delivers (Sorter.supply source fuel) sorter out none ∧
      Batching sorter.batch.capacity
        (RowSort.sort (compareRows sorter.columns sorter.ascending) batches.flatten) out := by
  obtain ⟨out, delivers, split, -⟩ := delivers_closing input fresh unread enough positive
  exact ⟨out, delivers, split⟩

/-- A sort fails when its input does. -/
theorem delivers_failure {error : Error} (input : Delivers source upstream batches (some error))
    (fresh : sorter.input = .start upstream) (unread : sorter.sorted = none)
    (enough : batches.length + batches.flatten.length + 2 < fuel) :
    Delivers (Sorter.supply source fuel) sorter [] (some error) := by
  obtain ⟨pulls, holds, lasting⟩ := Feed.covers_start input enough
  obtain ⟨feed, collected⟩ := holds.drain lasting []
  have failed : advance source fuel sorter = some (.error error,
      { sorter with input := feed, batch := sorter.batch.clear }) := by
    simp only [advance, unread, fresh, Feed.collect, collected]
    rfl
  exact .fails failed

end Sorter

end QueryFusion
