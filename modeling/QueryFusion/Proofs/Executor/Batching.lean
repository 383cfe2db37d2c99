import QueryFusion.Proofs.Executor.Fuel
import QueryFusion.Proofs.Outcome

/-!
# Rows in batches

A producer delivers batches, one for each step, until it is finished or fails. What a feed hands on
is the rows of these batches, wherever their borders lie. An operator that fills batches from a list
of items stops in the middle of the list when a batch is full and goes on there in the next step, so
that its batches together hold the images of all items.
-/

namespace QueryFusion

variable {σ τ α : Type}

/-! ## Deliveries -/

/-- The producer hands on these batches, one for each step, and then it is finished or fails. -/
inductive Delivers (supply : Supply σ) : σ → List (List Row) → Option Error → Prop
  | last {state next : σ} (done : supply.advance state = some (.ok .finished, next)) :
      Delivers supply state [supply.rows next] none
  | more {state next : σ} {batches : List (List Row)} {ending : Option Error}
      (done : supply.advance state = some (.ok .fetched, next))
      (later : Delivers supply next batches ending) :
      Delivers supply state (supply.rows next :: batches) ending
  | fails {state next : σ} {error : Error}
      (failed : supply.advance state = some (.error error, next)) :
      Delivers supply state [] (some error)

/-- Rows split into batches: all but the last one are full, and none holds too much. -/
structure Batching (capacity : Nat) (rows : List Row) (batches : List (List Row)) : Prop where
  whole : batches.flatten = rows
  full : ∀ batch ∈ batches.dropLast, batch.length = capacity
  bounded : ∀ batch ∈ batches, batch.length ≤ capacity

namespace Batching

variable {capacity : Nat} {rows batch : List Row} {batches : List (List Row)}

/-- Rows that fit into one batch. -/
theorem single (fits : rows.length ≤ capacity) : Batching capacity rows [rows] := by
  refine ⟨List.flatten_singleton, by simp, fun batch member => ?_⟩
  rw [List.mem_singleton.1 member]
  exact fits

/-- A full batch stands before the others. -/
theorem cons (full : batch.length = capacity) (present : batches ≠ [])
    (split : Batching capacity rows batches) :
    Batching capacity (batch ++ rows) (batch :: batches) := by
  refine ⟨by rw [List.flatten_cons, split.whole], fun other member => ?_, fun other member => ?_⟩
  · rw [List.dropLast_cons_of_ne_nil present] at member
    rcases List.mem_cons.1 member with rfl | inner
    · exact full
    · exact split.full other inner
  · rcases List.mem_cons.1 member with rfl | inner
    · exact Nat.le_of_eq full
    · exact split.bounded other inner

end Batching

/-- A delivery that ends has a last batch. -/
theorem Delivers.ne_nil {supply : Supply σ} {state : σ} {batches : List (List Row)}
    (delivers : Delivers supply state batches none) : batches ≠ [] := by
  cases delivers <;> exact List.cons_ne_nil _ _

/-- A delivery does not change with more fuel. -/
theorem Delivers.agree {first second : Supply σ} {state : σ} {batches : List (List Row)}
    {ending : Option Error} (agree : first.Agree second)
    (delivers : Delivers first state batches ending) : Delivers second state batches ending := by
  induction delivers with
  | last done =>
    rw [agree.rows]
    exact .last (agree.advance _ _ done)
  | more done later step =>
    rw [agree.rows]
    exact .more (agree.advance _ _ done) step
  | fails failed => exact .fails (agree.advance _ _ failed)

/-- The delivery of a state is that of a larger state around it. -/
theorem Delivers.embed {inner : Supply σ} (outer : Supply τ) (wrap : σ → τ)
    (advance : ∀ state, outer.advance (wrap state) = Step.embed wrap (inner.advance state))
    (rows : ∀ state, outer.rows (wrap state) = inner.rows state) {state : σ}
    {batches : List (List Row)} {ending : Option Error}
    (delivers : Delivers inner state batches ending) :
    Delivers outer (wrap state) batches ending := by
  induction delivers with
  | last done =>
    rw [← rows]
    exact .last (by rw [advance, done]; rfl)
  | more done later step =>
    rw [← rows]
    exact .more (by rw [advance, done]; rfl) step
  | fails failed => exact .fails (by rw [advance, failed]; rfl)

/-! ## Feeds -/

/-- The feed will hand on these rows, and then it ends or fails. It pulls at most so many times. -/
inductive Feed.Holds (supply : Supply σ) : Feed σ → List Row → Option Error → Nat → Prop
  | finished (producer : σ) (pending : List Row) :
      Feed.Holds supply ⟨producer, pending, true⟩ pending none 0
  | waiting {producer : σ} {batches : List (List Row)} {ending : Option Error}
      (delivers : Delivers supply producer batches ending) (pending : List Row) :
      Feed.Holds supply ⟨producer, pending, false⟩ (pending ++ batches.flatten) ending
        (batches.length + 1)

namespace Feed

variable {supply : Supply σ} {feed : Feed σ} {rows : List Row} {ending : Option Error}
  {pulls fuel : Nat}

/-- What an exhausted feed answers. -/
def ended {β : Type} (result : β) : Option Error → Except Error β
  | none => .ok result
  | some error => .error error

/-- The next row of a feed, if there is one. -/
theorem Holds.next {row : Row} (holds : Holds supply feed (row :: rows) ending pulls)
    (enough : pulls < fuel) :
    ∃ rest left, Feed.next supply fuel feed = some (.ok (some row), rest) ∧
      Holds supply rest rows ending left ∧ left ≤ pulls := by
  induction fuel generalizing feed pulls with
  | zero => omega
  | succ fuel step =>
    rw [Feed.next]
    generalize given : row :: rows = all at holds
    cases holds with
    | finished producer pending =>
      subst given
      exact ⟨_, _, rfl, .finished producer rows, Nat.le_refl 0⟩
    | @waiting producer batches ending delivers pending =>
      cases pending with
      | cons first others =>
        obtain ⟨rfl, rfl⟩ := List.cons.inj given
        exact ⟨_, _, rfl, .waiting delivers others, Nat.le_refl _⟩
      | nil =>
        rw [List.nil_append] at given
        cases delivers with
        | @last _ last done =>
          simp only [Bool.false_eq_true, if_false, done]
          rw [List.flatten_singleton] at given
          have holds : Holds supply ⟨last, supply.rows last, true⟩ (row :: rows) none 0 := by
            rw [given]
            exact .finished _ _
          obtain ⟨rest, left, found, held, _⟩ := step holds (by simp at enough; omega)
          exact ⟨rest, left, found, held, by omega⟩
        | @more _ last others _ done later =>
          simp only [Bool.false_eq_true, if_false, done]
          rw [List.flatten_cons] at given
          have holds : Holds supply ⟨last, supply.rows last, false⟩ (row :: rows) ending
              (others.length + 1) := by
            rw [given]
            exact .waiting later _
          simp only [List.length_cons] at enough ⊢
          obtain ⟨rest, left, found, held, _⟩ := step holds (by omega)
          exact ⟨rest, left, found, held, by omega⟩
        | fails failed => cases given

/-- The end of a feed. -/
theorem Holds.next_nil (holds : Holds supply feed rows ending pulls) (given : rows = [])
    (enough : pulls < fuel) :
    ∃ rest, Feed.next supply fuel feed = some (ended none ending, rest) ∧
      (ending = none → Holds supply rest [] none 0) := by
  induction fuel generalizing feed rows pulls with
  | zero => omega
  | succ fuel step =>
    rw [Feed.next]
    cases holds with
    | finished producer pending =>
      subst given
      exact ⟨_, rfl, fun _ => .finished producer []⟩
    | @waiting producer batches ending delivers pending =>
      obtain ⟨rfl, empty⟩ := List.append_eq_nil_iff.1 given
      cases delivers with
      | @last _ last done =>
        simp only [Bool.false_eq_true, if_false, done]
        rw [List.flatten_singleton] at empty
        obtain ⟨rest, found, held⟩ := step (.finished last _) empty (by omega)
        exact ⟨rest, found, fun _ => held rfl⟩
      | @more _ last others _ done later =>
        simp only [Bool.false_eq_true, if_false, done]
        rw [List.flatten_cons] at empty
        rw [List.length_cons] at enough
        exact step (.waiting later _) empty (by omega)
      | @fails _ last error failed =>
        simp only [Bool.false_eq_true, if_false, failed]
        exact ⟨_, rfl, fun never => by cases never⟩

/-- All rows of a feed are collected, unless it fails. -/
theorem Holds.drain (holds : Holds supply feed rows ending pulls)
    (enough : pulls + rows.length + 1 < fuel) (taken : List Row) :
    ∃ rest, Feed.drain supply fuel feed taken =
      some (ended (taken.reverse ++ rows) ending, rest) := by
  induction rows generalizing feed pulls fuel taken with
  | nil =>
    obtain ⟨fuel, rfl⟩ : ∃ less, fuel = less + 1 := ⟨fuel - 1, by omega⟩
    simp only [List.length_nil] at enough
    obtain ⟨rest, found, -⟩ := holds.next_nil rfl (by omega : pulls < fuel)
    rw [Feed.drain, found]
    cases ending with
    | none => exact ⟨rest, by simp [ended]⟩
    | some error => exact ⟨rest, rfl⟩
  | cons row rows step =>
    obtain ⟨fuel, rfl⟩ : ∃ less, fuel = less + 1 := ⟨fuel - 1, by omega⟩
    simp only [List.length_cons] at enough
    obtain ⟨rest, left, found, held, fewer⟩ := holds.next (by omega : pulls < fuel)
    rw [Feed.drain, found]
    obtain ⟨last, drained⟩ := step held (by omega : left + rows.length + 1 < fuel) (row :: taken)
    exact ⟨last, by simpa using drained⟩

end Feed

/-! ## Filling batches from items -/

/-- Fills a batch with the images of items until it is full: the outcome, the batch and the items
that are left. When the items run out, they end or fail. -/
def fillItems (transform : α → Except Error (Option Row)) (ending : Option Error) :
    List α → RowBatch → Except Error Progress × RowBatch × List α
  | [], batch => (Feed.ended .finished ending, batch, [])
  | item :: rest, batch =>
    match transform item with
    | .error error => (.error error, batch, rest)
    | .ok none => fillItems transform ending rest batch
    | .ok (some row) =>
      if (batch.add row).hasRoom then fillItems transform ending rest (batch.add row)
      else (.ok .fetched, batch.add row, rest)

/-- The images of items, unless one of them fails. -/
def imagesOf (transform : α → Except Error (Option Row)) : List α → Except Error (List Row)
  | [] => .ok []
  | item :: rest => do
    let image ← transform item
    let images ← imagesOf transform rest
    .ok (image.toList ++ images)

section Items

variable {transform : α → Except Error (Option Row)} {ending : Option Error} {items : List α}
  {batch : RowBatch}

/-- What a batch filled from items holds. -/
inductive Fills (transform : α → Except Error (Option Row)) (ending : Option Error)
    (items : List α) (batch : RowBatch) : Except Error Progress × RowBatch × List α → Prop
  | finished {images : List Row} (ends : ending = none)
      (known : imagesOf transform items = .ok images)
      (room : batch.rows.length + images.length < batch.capacity) :
      Fills transform ending items batch (.ok .finished, ⟨batch.rows ++ images, batch.capacity⟩, [])
  | fetched {taken rest : List α} {images : List Row} (split : items = taken ++ rest)
      (some : taken ≠ []) (known : imagesOf transform taken = .ok images)
      (full : batch.rows.length + images.length = batch.capacity) :
      Fills transform ending items batch
        (.ok .fetched, ⟨batch.rows ++ images, batch.capacity⟩, rest)
  | fails {error : Error} {filled : RowBatch} {rest : List α}
      (reason : ending ≠ none ∨ ∃ error, imagesOf transform items = .error error) :
      Fills transform ending items batch (.error error, filled, rest)

/-- An item whose image is known comes before what is filled later. -/
theorem Fills.cons {item : α} {rest : List α} {image : Option Row}
    {result : Except Error Progress × RowBatch × List α} (known : transform item = .ok image)
    (fills : Fills transform ending rest ⟨batch.rows ++ image.toList, batch.capacity⟩ result) :
    Fills transform ending (item :: rest) batch result := by
  cases fills with
  | @finished images ends later room =>
    simp only [List.append_assoc, List.length_append] at room ⊢
    refine .finished ends ?_ (by rw [List.length_append]; omega)
    rw [imagesOf, known, ok_bind, later, ok_bind]
  | @fetched taken left images split some later full =>
    simp only [List.append_assoc, List.length_append] at full ⊢
    have parts : item :: rest = (item :: taken) ++ left := by rw [split]; rfl
    refine .fetched parts (List.cons_ne_nil _ _) ?_ (by rw [List.length_append]; omega)
    rw [imagesOf, known, ok_bind, later, ok_bind]
  | fails reason =>
    refine .fails (reason.imp_right ?_)
    rintro ⟨error, failed⟩
    refine ⟨error, ?_⟩
    rw [imagesOf, known, ok_bind, failed, error_bind]

/-- Filling a batch that has room stops when it is full, at the end of the items or at a failure. -/
theorem fillItems_fills (items : List α) (room : batch.rows.length < batch.capacity) :
    Fills transform ending items batch (fillItems transform ending items batch) := by
  induction items generalizing batch with
  | nil =>
    rw [fillItems]
    cases ending with
    | none =>
      have fills : Fills transform none [] batch
          (.ok .finished, ⟨batch.rows ++ [], batch.capacity⟩, []) := .finished rfl rfl (by simpa)
      rwa [List.append_nil] at fills
    | some error => exact .fails (.inl (by simp))
  | cons item rest step =>
    rw [fillItems]
    cases image : transform item with
    | error error =>
      refine .fails (.inr ⟨error, ?_⟩)
      rw [imagesOf, image, error_bind]
    | ok result =>
      cases result with
      | none => exact .cons image (by simpa using step room)
      | some row =>
        dsimp only
        split
        · rename_i more
          exact .cons image (step ((batch.add row).hasRoom_iff.1 more))
        · rename_i full
          rw [RowBatch.hasRoom_iff] at full
          simp only [RowBatch.rows_add, RowBatch.capacity_add, List.length_append,
            List.length_singleton] at full
          have parts : item :: rest = [item] ++ rest := rfl
          refine .fetched parts (List.cons_ne_nil _ _) ?_ ?_
          · rw [imagesOf, image, ok_bind]
            rfl
          · simp only [List.length_singleton]
            omega

/-- Filling does not change when a batch is full. -/
theorem fillItems_capacity (items : List α) (batch : RowBatch) :
    (fillItems transform ending items batch).2.1.capacity = batch.capacity := by
  induction items generalizing batch with
  | nil => rfl
  | cons item rest step =>
    rw [fillItems]
    rcases transform item with _ | _ | row
    · rfl
    · exact step batch
    · dsimp only
      split
      · exact step (batch.add row)
      · rfl

/-- Filling takes items and adds none. -/
theorem fillItems_rest_length (items : List α) (batch : RowBatch) :
    (fillItems transform ending items batch).2.2.length ≤ items.length := by
  induction items generalizing batch with
  | nil => exact Nat.le_refl 0
  | cons item rest step =>
    rw [fillItems, List.length_cons]
    rcases transform item with _ | _ | row
    · exact Nat.le_succ _
    · exact Nat.le_succ_of_le (step batch)
    · dsimp only
      split
      · exact Nat.le_succ_of_le (step (batch.add row))
      · exact Nat.le_succ _

/-! ## Batch after batch -/

/-- The batches that are filled from items one after another, and how they end. -/
inductive Batches (transform : α → Except Error (Option Row)) (ending : Option Error)
    (capacity : Nat) : List α → List (List Row) → Option Error → Prop
  | last {items rest : List α} {batch : RowBatch}
      (filled : fillItems transform ending items ⟨[], capacity⟩ = (.ok .finished, batch, rest)) :
      Batches transform ending capacity items [batch.rows] none
  | more {items rest : List α} {batch : RowBatch} {batches : List (List Row)}
      {result : Option Error}
      (filled : fillItems transform ending items ⟨[], capacity⟩ = (.ok .fetched, batch, rest))
      (later : Batches transform ending capacity rest batches result) :
      Batches transform ending capacity items (batch.rows :: batches) result
  | fails {items rest : List α} {batch : RowBatch} {error : Error}
      (filled : fillItems transform ending items ⟨[], capacity⟩ = (.error error, batch, rest)) :
      Batches transform ending capacity items [] (some error)

namespace Batches

variable {capacity : Nat} {batches : List (List Row)} {result : Option Error}

/-- Items are filled into batches to their end, because every full batch takes an item. -/
theorem total (transform : α → Except Error (Option Row)) (ending : Option Error)
    (positive : 0 < capacity) (items : List α) :
    ∃ batches result, Batches transform ending capacity items batches result := by
  induction size : items.length using Nat.strongRecOn generalizing items with
  | ind length step =>
    rcases filled : fillItems transform ending items ⟨[], capacity⟩ with ⟨outcome, batch, rest⟩
    have fills := @fillItems_fills α transform ending ⟨[], capacity⟩ items positive
    rw [filled] at fills
    cases fills with
    | finished ends known room => exact ⟨_, _, .last filled⟩
    | @fetched taken _ images split some known full =>
      have shorter : rest.length < length := by
        rw [← size, split, List.length_append]
        have := List.length_pos_iff.2 some
        omega
      obtain ⟨batches, result, later⟩ := step rest.length shorter rest rfl
      exact ⟨_, _, .more filled later⟩
    | fails reason => exact ⟨_, _, .fails filled⟩

/-- Items in two parts have the images of both. -/
theorem imagesOf_append (first second : List α) :
    imagesOf transform (first ++ second) = (do
      let images ← imagesOf transform first
      let others ← imagesOf transform second
      .ok (images ++ others)) := by
  induction first with
  | nil =>
    rw [List.nil_append, imagesOf, ok_bind]
    cases imagesOf transform second <;> rfl
  | cons item rest step =>
    rw [List.cons_append, imagesOf, imagesOf, step]
    cases transform item with
    | error error => rfl
    | ok image =>
      cases imagesOf transform rest with
      | error error => rfl
      | ok images =>
        cases imagesOf transform second with
        | error error => rfl
        | ok others => simp

/-- Batches that end hold the images of all items, and all but the last one are full. -/
theorem batching (positive : 0 < capacity)
    (filled : Batches transform ending capacity items batches none) :
    ending = none ∧ ∃ rows, imagesOf transform items = .ok rows ∧
      Batching capacity rows batches := by
  generalize ends : (none : Option Error) = result at filled
  induction filled with
  | @last items rest batch done =>
    have fills := @fillItems_fills α transform ending ⟨[], capacity⟩ items positive
    rw [done] at fills
    cases fills with
    | @finished images ended known room =>
      simp only [List.nil_append, List.length_nil, Nat.zero_add] at room ⊢
      exact ⟨ended, images, known, .single (Nat.le_of_lt room)⟩
  | @more items rest batch batches result done later step =>
    have fills := @fillItems_fills α transform ending ⟨[], capacity⟩ items positive
    rw [done] at fills
    obtain ⟨ended, rows, known, split⟩ := step ends
    cases fills with
    | @fetched taken _ images parts some before full =>
      simp only [List.nil_append, List.length_nil, Nat.zero_add] at full ⊢
      have present : batches ≠ [] := by
        subst ends
        cases later <;> exact List.cons_ne_nil _ _
      refine ⟨ended, images ++ rows, ?_, split.cons full present⟩
      rw [parts, imagesOf_append, before, ok_bind, known, ok_bind]
  | fails done => cases ends

/-- Batches fail only when the items do, or one of their images. -/
theorem failing {error : Error} (positive : 0 < capacity)
    (filled : Batches transform ending capacity items batches (some error)) :
    ending ≠ none ∨ ∃ error, imagesOf transform items = .error error := by
  generalize ends : some error = result at filled
  induction filled with
  | last done => cases ends
  | @more items rest batch batches result done later step =>
    have fills := @fillItems_fills α transform ending ⟨[], capacity⟩ items positive
    rw [done] at fills
    cases fills with
    | @fetched taken _ images parts some before full =>
      refine (step ends).imp_right ?_
      rintro ⟨error, failed⟩
      refine ⟨error, ?_⟩
      rw [parts, imagesOf_append, before, ok_bind, failed, error_bind]
  | @fails items rest batch error done =>
    have fills := @fillItems_fills α transform ending ⟨[], capacity⟩ items positive
    rw [done] at fills
    cases fills with
    | fails reason => exact reason

/-- A producer each of whose steps fills a batch from its items delivers their batches. -/
theorem delivers {out : Supply τ} (Stands : τ → List α → Prop)
    (step : ∀ state items, Stands state items → ∃ next,
      out.advance state = some ((fillItems transform ending items ⟨[], capacity⟩).1, next) ∧
      out.rows next = (fillItems transform ending items ⟨[], capacity⟩).2.1.rows ∧
      ∀ progress, (fillItems transform ending items ⟨[], capacity⟩).1 = .ok progress →
        Stands next (fillItems transform ending items ⟨[], capacity⟩).2.2)
    (filled : Batches transform ending capacity items batches result) {state : τ}
    (stands : Stands state items) : Delivers out state batches result := by
  induction filled generalizing state with
  | last done =>
    obtain ⟨next, advanced, rows, -⟩ := step state _ stands
    rw [done] at advanced rows
    rw [← rows]
    exact .last advanced
  | more done later ih =>
    obtain ⟨next, advanced, rows, goesOn⟩ := step state _ stands
    rw [done] at advanced rows goesOn
    rw [← rows]
    exact .more advanced (ih (goesOn .fetched rfl))
  | fails done =>
    obtain ⟨next, advanced, -, -⟩ := step state _ stands
    rw [done] at advanced
    exact .fails advanced

end Batches

end Items

/-- A feed that fills a batch fills it from its rows. -/
theorem Feed.Holds.fill {supply : Supply σ} {feed : Feed σ} {rows : List Row}
    {ending : Option Error} {pulls fuel : Nat} (holds : feed.Holds supply rows ending pulls)
    (transform : Row → Except Error (Option Row)) (enough : pulls + rows.length + 1 < fuel)
    (batch : RowBatch) :
    ∃ rest, Feed.fill supply transform fuel feed batch =
        some ((fillItems transform ending rows batch).1, rest,
          (fillItems transform ending rows batch).2.1) ∧
      ∀ progress, (fillItems transform ending rows batch).1 = .ok progress →
        ∃ left, rest.Holds supply (fillItems transform ending rows batch).2.2 ending left ∧
          left ≤ pulls := by
  induction rows generalizing feed pulls fuel batch with
  | nil =>
    obtain ⟨fuel, rfl⟩ : ∃ less, fuel = less + 1 := ⟨fuel - 1, by omega⟩
    simp only [List.length_nil] at enough
    obtain ⟨rest, found, held⟩ := holds.next_nil rfl (by omega : pulls < fuel)
    rw [Feed.fill, found]
    cases ending with
    | none => exact ⟨rest, rfl, fun _ _ => ⟨0, held rfl, Nat.zero_le _⟩⟩
    | some error => exact ⟨rest, rfl, fun progress never => by cases never⟩
  | cons row rows step =>
    obtain ⟨fuel, rfl⟩ : ∃ less, fuel = less + 1 := ⟨fuel - 1, by omega⟩
    simp only [List.length_cons] at enough
    obtain ⟨rest, left, found, held, fewer⟩ := holds.next (by omega : pulls < fuel)
    rw [Feed.fill, found, fillItems]
    dsimp only
    have later : ∀ batch, ∃ last, Feed.fill supply transform fuel rest batch =
        some ((fillItems transform ending rows batch).1, last,
          (fillItems transform ending rows batch).2.1) ∧
        ∀ progress, (fillItems transform ending rows batch).1 = .ok progress →
          ∃ left, last.Holds supply (fillItems transform ending rows batch).2.2 ending left ∧
            left ≤ pulls := by
      intro batch
      obtain ⟨last, filled, goesOn⟩ := step held (by omega : left + rows.length + 1 < fuel) batch
      refine ⟨last, filled, fun progress done => ?_⟩
      obtain ⟨remaining, kept, less⟩ := goesOn progress done
      exact ⟨remaining, kept, by omega⟩
    cases transform row with
    | error error => exact ⟨rest, rfl, fun progress never => by cases never⟩
    | ok image =>
      cases image with
      | none => exact later batch
      | some image =>
        dsimp only
        split
        · exact later (batch.add image)
        · exact ⟨rest, rfl, fun _ _ => ⟨left, held, fewer⟩⟩

end QueryFusion
