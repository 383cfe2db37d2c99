import QueryFusion.Proofs.Executor.Restart

/-!
# Rows in pages

Rows that are handed on in batches of one size come in full batches while they last, then comes what
is left of them, and nothing after that. An executor that fills its batches from items hands on
their images in this way, step by step and for ever, so all that can be seen of it is told by the
images.
-/

namespace QueryFusion

/-! ## Pages -/

/-- What a step shows of rows that are handed on in batches of one size. -/
def pageAt (capacity : Nat) (rows : List Row) (step : Nat) : Progress × List Row :=
  if (step + 1) * capacity ≤ rows.length then
    (.fetched, (rows.drop (step * capacity)).take capacity)
  else (.finished, rows.drop (step * capacity))

section Pages

variable {capacity : Nat} {rows : List Row}

/-- The first batch is full when there are enough rows. -/
theorem pageAt_zero_of_le (enough : capacity ≤ rows.length) :
    pageAt capacity rows 0 = (.fetched, rows.take capacity) := by
  simp [pageAt, enough]

/-- Too few rows come in the first step. -/
theorem pageAt_zero_of_lt (short : rows.length < capacity) :
    pageAt capacity rows 0 = (.finished, rows) := by
  have few : ¬ capacity ≤ rows.length := by omega
  simp [pageAt, few]

/-- Behind the first batch come the rows behind it. -/
theorem pageAt_succ (capacity : Nat) (rows : List Row) (step : Nat) :
    pageAt capacity rows (step + 1) = pageAt capacity (rows.drop capacity) step := by
  have same : (step + 1 + 1) * capacity ≤ rows.length ↔
      (step + 1) * capacity ≤ (rows.drop capacity).length := by
    have more : (step + 1 + 1) * capacity = (step + 1) * capacity + capacity := Nat.succ_mul _ _
    have least : capacity ≤ (step + 1) * capacity := Nat.le_mul_of_pos_left _ (by omega)
    rw [List.length_drop]
    omega
  have behind : rows.drop ((step + 1) * capacity) = (rows.drop capacity).drop
      (step * capacity) := by
    rw [List.drop_drop, Nat.succ_mul, Nat.add_comm]
  simp only [pageAt, same, behind]

/-- A batch that is not the last one is full. -/
theorem length_pageAt {step : Nat} (fetched : (pageAt capacity rows step).1 = .fetched) :
    (pageAt capacity rows step).2.length = capacity := by
  unfold pageAt at fetched ⊢
  split
  · rename_i enough
    rw [Nat.succ_mul] at enough
    rw [List.length_take, List.length_drop]
    omega
  · rename_i short
    rw [if_neg short] at fetched
    cases fetched

/-- The step in which the rows end. -/
def lastPage (capacity : Nat) (rows : List Row) : Nat :=
  rows.length / capacity

/-- There is one page less behind the first one. -/
theorem lastPage_drop (positive : 0 < capacity) (enough : capacity ≤ rows.length) :
    lastPage capacity rows = lastPage capacity (rows.drop capacity) + 1 := by
  rw [lastPage, lastPage, List.length_drop, Nat.div_eq_sub_div positive enough]

/-- There is one page when the rows do not fill it. -/
theorem lastPage_of_lt (short : rows.length < capacity) : lastPage capacity rows = 0 :=
  Nat.div_eq_of_lt short

/-- The rows come in the steps up to the last one. -/
theorem progress_pageAt (positive : 0 < capacity) (rows : List Row) (step : Nat) :
    (pageAt capacity rows step).1 = if step < lastPage capacity rows then .fetched
    else .finished := by
  have same : (step + 1) * capacity ≤ rows.length ↔ step < lastPage capacity rows :=
    (Nat.le_div_iff_mul_le positive).symm
  unfold pageAt
  simp only [same]
  split <;> rfl

/-- Nothing comes behind the last step. -/
theorem pageAt_of_lastPage_lt (positive : 0 < capacity) {step : Nat}
    (behind : lastPage capacity rows < step) : pageAt capacity rows step = (.finished, []) := by
  have past : rows.length < step * capacity := (Nat.div_lt_iff_lt_mul positive).1 behind
  have more : ¬ (step + 1) * capacity ≤ rows.length := by
    rw [Nat.succ_mul]
    omega
  rw [pageAt, if_neg more, List.drop_eq_nil_of_le (Nat.le_of_lt past)]

/-- The pages together are the rows. -/
theorem flatMap_pageAt (positive : 0 < capacity) (rows : List Row) :
    ((List.range (lastPage capacity rows + 1)).flatMap fun step => (pageAt capacity rows step).2) =
      rows := by
  induction size : rows.length using Nat.strongRecOn generalizing rows with
  | ind length step =>
    by_cases enough : capacity ≤ rows.length
    · have shorter : (rows.drop capacity).length < length := by
        rw [List.length_drop]
        omega
      rw [lastPage_drop positive enough, List.range_succ_eq_map, List.flatMap_cons,
        List.flatMap_map]
      simp only [Nat.succ_eq_add_one, pageAt_succ, pageAt_zero_of_le enough]
      rw [step _ shorter _ rfl, List.take_append_drop]
    · have short : rows.length < capacity := by omega
      rw [lastPage_of_lt short]
      simp [pageAt_zero_of_lt short]

end Pages

/-! ## Executors that hand on pages -/

namespace Executor

/-- With enough fuel the next steps of an executor hand on the rows in batches of this size, and
nothing behind them. -/
def Answers (executor : Executor) (capacity : Nat) (rows : List Row) : Prop :=
  ∀ count, ∃ enough, ∀ fuel, enough ≤ fuel → executor.outcomes fuel count =
    some ((List.range count).map fun step =>
      (.ok (pageAt capacity rows step).1, (pageAt capacity rows step).2))

section Answering

variable {α τ : Type} {transform : α → Except Error (Option Row)} {capacity : Nat}
  {executor next : Executor} {items : List α} {rows : List Row}

/-- The first of several steps. -/
theorem outcomes_succ {outcome : Except Error Progress} {fuel count : Nat}
    {others : List (Except Error Progress × List Row)}
    (first : executor.advance fuel = some (outcome, next))
    (rest : next.outcomes fuel count = some others) :
    executor.outcomes fuel (count + 1) = some ((outcome, next.rows) :: others) := by
  rw [outcomes, first]
  dsimp only
  rw [rest]
  rfl

/-- Wherever the executor stands before items, its next step fills a batch from them, and it stands
before those that are left. -/
def FillsFrom (transform : α → Except Error (Option Row)) (capacity : Nat)
    (Stands : Executor → List α → Prop) : Prop :=
  ∀ executor items, Stands executor items → ∃ enough next,
    (∀ fuel, enough ≤ fuel → advance fuel executor =
      some ((fillItems transform none items ⟨[], capacity⟩).1, next)) ∧
    next.rows = (fillItems transform none items ⟨[], capacity⟩).2.1.rows ∧
    ∀ progress, (fillItems transform none items ⟨[], capacity⟩).1 = .ok progress →
      Stands next (fillItems transform none items ⟨[], capacity⟩).2.2

/-- An executor answers with the images of the items that it fills its batches from. -/
theorem answers_of_stands (positive : 0 < capacity) {Stands : Executor → List α → Prop}
    (step : FillsFrom transform capacity Stands)
    (stands : Stands executor items) (known : imagesOf transform items = .ok rows) :
    executor.Answers capacity rows := by
  intro count
  induction count generalizing executor items rows with
  | zero => exact ⟨0, fun _ _ => rfl⟩
  | succ count later =>
    obtain ⟨least, next, advanced, shown, goesOn⟩ := step executor items stands
    have fills := @fillItems_fills α transform none ⟨[], capacity⟩ items positive
    generalize fillItems transform none items ⟨[], capacity⟩ = filled at advanced shown goesOn fills
    have pages : ∀ page, pageAt capacity rows 0 = page →
        ((List.range (count + 1)).map fun step =>
          ((.ok (pageAt capacity rows step).1, (pageAt capacity rows step).2) :
            Except Error Progress × List Row)) =
          (.ok page.1, page.2) :: (List.range count).map fun step =>
            (.ok (pageAt capacity (rows.drop capacity) step).1,
              (pageAt capacity (rows.drop capacity) step).2) := by
      rintro page rfl
      rw [List.range_succ_eq_map, List.map_cons, List.map_map]
      refine congrArg _ (List.map_congr_left fun step _ => ?_)
      simp only [Function.comp_apply, Nat.succ_eq_add_one, pageAt_succ]
    cases fills with
    | @finished images ended given room =>
      rw [known] at given
      cases given
      simp only [List.length_nil, Nat.zero_add] at room
      obtain ⟨enough, rest⟩ := later (goesOn .finished rfl)
        (rfl : imagesOf transform ([] : List α) = .ok [])
      refine ⟨max least enough, fun fuel more => ?_⟩
      have first := advanced fuel (by omega)
      rw [outcomes_succ first (rest fuel (by omega)), pages _ (pageAt_zero_of_lt room), shown,
        List.drop_eq_nil_of_le (Nat.le_of_lt room)]
      rfl
    | @fetched taken left images split some given full =>
      rw [split, Batches.imagesOf_append, given, ok_bind] at known
      obtain ⟨others, behind, same⟩ := bind_eq_ok_iff.1 known
      cases same
      simp only [List.length_nil, Nat.zero_add] at full
      obtain ⟨enough, rest⟩ := later (goesOn .fetched rfl) behind
      have page : pageAt capacity (images ++ others) 0 = (.fetched, images) := by
        rw [pageAt_zero_of_le (by rw [List.length_append]; omega), ← full, List.take_left]
      refine ⟨max least enough, fun fuel more => ?_⟩
      have first := advanced fuel (by omega)
      rw [outcomes_succ first (rest fuel (by omega)), pages _ page, shown, ← full, List.drop_left]
      rfl
    | fails reason =>
      rcases reason with never | ⟨error, failed⟩
      · exact absurd rfl never
      · rw [known] at failed
        cases failed

/-- An executor answers as the operator does that it consists of. -/
theorem answers_embed (out : Supply τ) (fuel : Nat) {wrap : τ → Executor} (positive : 0 < capacity)
    (advances : ∀ state, advance fuel (wrap state) = Step.embed wrap (out.advance state))
    (shows : ∀ state, (wrap state).rows = out.rows state) (Stands : τ → List α → Prop)
    (step : ∀ state items, Stands state items → ∃ next,
      out.advance state = some ((fillItems transform none items ⟨[], capacity⟩).1, next) ∧
      out.rows next = (fillItems transform none items ⟨[], capacity⟩).2.1.rows ∧
      ∀ progress, (fillItems transform none items ⟨[], capacity⟩).1 = .ok progress →
        Stands next (fillItems transform none items ⟨[], capacity⟩).2.2)
    {state : τ} (stands : Stands state items) (known : imagesOf transform items = .ok rows) :
    (wrap state).Answers capacity rows := by
  suffices step : FillsFrom transform capacity
      fun executor items => ∃ state, wrap state = executor ∧ Stands state items from
    answers_of_stands positive step ⟨state, rfl, stands⟩ known
  rintro _ items ⟨state, rfl, stands⟩
  obtain ⟨next, advanced, shown, goesOn⟩ := step state items stands
  have done : advance fuel (wrap state) =
      some ((fillItems transform none items ⟨[], capacity⟩).1, wrap next) := by
    rw [advances, advanced]
    rfl
  exact ⟨fuel, wrap next, fun more bound => advance_agrees bound _ _ done, (shows next).trans shown,
    fun progress ended => ⟨next, rfl, goesOn progress ended⟩⟩

end Answering

end Executor

/-! ## Interpreted runs -/

namespace Site

variable {site : Site} {plan : Plan} {executor : Executor} {rows : List Row}

/-- Interpreted executors are ready. -/
theorem ready_of_interpreted (context : Context) (built : site.interpreted plan = .ok executor) :
    executor.Ready context (site.Yields noUnits plan) := by
  cases site.builds context plan with
  | ready other found ready =>
    have same := found 0
    rw [buildNode_none, built] at same
    cases same
    exact ready
  | fails error failed =>
    have never := failed 0
    rw [buildNode_none, built] at never
    cases never

/-- Interpreted executors deliver the answer of their plan. -/
theorem delivers_interpreted (context : Context) (built : site.interpreted plan = .ok executor)
    (answer : plan.answer site.catalog = .ok rows) :
    ∃ enough armed, (∀ fuel, enough ≤ fuel → executor.setup context fuel = some (.ok (), armed)) ∧
      ∃ spent batches, Delivers (Executor.supply spent) armed batches none ∧
        batches.flatten = rows := by
  obtain ⟨enough, armed, arms, spent, batches, ending, delivers, yields⟩ :=
    ready_of_interpreted context built
  have settles := yields.settles fun never => never.elim
  rw [answer] at settles
  cases ending with
  | none =>
    cases settles
    exact ⟨enough, armed, arms, spent, batches, delivers, rfl⟩
  | some error =>
    obtain ⟨reason, never⟩ := settles
    cases never

/-- A feed from interpreted executors is set up, and covers the answer of their plan. -/
theorem feeds_interpreted (context : Context) (built : site.interpreted plan = .ok executor)
    (answer : plan.answer site.catalog = .ok rows) :
    ∃ enough armed, (∀ fuel, enough ≤ fuel → Executor.setupFeed (Executor.setup context fuel)
        (.start executor) = some (.ok (), .start armed)) ∧
      ∃ fuel, (Feed.start armed).Covers (Executor.supply fuel) none fuel rows := by
  obtain ⟨enough, armed, arms, spent, batches, delivers, rfl⟩ :=
    delivers_interpreted context built answer
  refine ⟨enough, armed, fun fuel bound => Executor.setupFeed_eq arms bound,
    spent + batches.length + batches.flatten.length + 3, ?_⟩
  exact Feed.covers_start (delivers.agree (Executor.supply_agree (by omega))) (by omega)

/-- The executors of a run are set up, and answer with the rows of the run. -/
theorem answers_interpreted (context : Context) (compilable : plan.isCompilable = true)
    (built : site.interpreted plan = .ok executor) (answer : plan.answer site.catalog = .ok rows) :
    ∃ enough armed, (∀ fuel, enough ≤ fuel → executor.setup context fuel = some (.ok (), armed)) ∧
      armed.Answers (max site.batchSize 1) rows := by
  have positive : 0 < max site.batchSize 1 := by omega
  cases plan with
  | scan id spec =>
    obtain ⟨state, found, same⟩ := bind_eq_ok_iff.1 built
    cases same
    have alike : Site.scanState ⟨site.catalog, 1⟩ spec = site.scanState spec := rfl
    rw [Plan.answer, alike, found, ok_bind] at answer
    refine ⟨1, .scan (Scan.start id state site.batchSize).setup, fun fuel bound => ?_, ?_⟩
    · obtain ⟨fuel, rfl⟩ : ∃ less, fuel = less + 1 := ⟨fuel - 1, by omega⟩
      rfl
    · let spent := (Cursor.start state.map state.partitions).rest.length + 1
      exact Executor.answers_embed (Scan.supply spent) (spent + 1) positive (fun _ => rfl)
        (fun _ => rfl)
        (Scan.Stands spent state (max site.batchSize 1)) (fun _ _ stands => stands.advance)
        ⟨rfl, rfl, Nat.lt_succ_self _, _, rfl, rfl⟩ answer
  | filter id condition input =>
    obtain ⟨producer, below, same⟩ := bind_eq_ok_iff.1 built
    cases same
    obtain ⟨given, answered, images⟩ := bind_eq_ok_iff.1 answer
    obtain ⟨enough, armed, arms, fuel, covers⟩ := feeds_interpreted context below answered
    refine ⟨enough + 1, .filter ⟨id, condition, .start armed, .empty site.batchSize⟩,
      fun fuel bound => ?_, ?_⟩
    · obtain ⟨fuel, rfl⟩ : ∃ less, fuel = less + 1 := ⟨fuel - 1, by omega⟩
      rw [Executor.setup, arms fuel (by omega)]
      rfl
    · exact Executor.answers_embed (Filter.supply _ fuel) (fuel + 1) positive (fun _ => rfl)
        (fun _ => rfl)
        (Filter.Stands (Executor.supply fuel) none fuel condition (max site.batchSize 1))
        (fun _ _ stands => stands.advance)
        ⟨rfl, rfl, covers⟩ images
  | project id expressions input =>
    obtain ⟨producer, below, same⟩ := bind_eq_ok_iff.1 built
    cases same
    obtain ⟨given, answered, images⟩ := bind_eq_ok_iff.1 answer
    obtain ⟨enough, armed, arms, fuel, covers⟩ := feeds_interpreted context below answered
    refine ⟨enough + 1, .project ⟨id, expressions, .start armed, .empty site.batchSize⟩,
      fun fuel bound => ?_, ?_⟩
    · obtain ⟨fuel, rfl⟩ : ∃ less, fuel = less + 1 := ⟨fuel - 1, by omega⟩
      rw [Executor.setup, arms fuel (by omega)]
      rfl
    · exact Executor.answers_embed (Project.supply _ fuel) (fuel + 1) positive (fun _ => rfl)
        (fun _ => rfl)
        (Project.Stands (Executor.supply fuel) none fuel expressions (max site.batchSize 1))
        (fun _ _ stands => stands.advance)
        ⟨rfl, rfl, covers⟩ images
  | root id input | sort id columns ascending input | join id condition left right =>
    cases compilable

end Site

end QueryFusion
