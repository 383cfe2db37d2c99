import QueryFusion.Executor.Feed
import QueryFusion.Plan.Node

/-!
# Sorting

Rows are ordered by columns of falling weight; rows that tie on all of them keep their order.
-/

namespace QueryFusion

/-- Order of two column values: null and missing values come first, and values that cannot be
compared count as equal. -/
def compareColumns : Option Value → Option Value → Ordering
  | none, none | none, some .null | some .null, none | some .null, some .null => .eq
  | none, _ | some .null, _ => .lt
  | _, none | _, some .null => .gt
  | some left, some right =>
    match left.order? right with
    | some (some order) => order
    | _ => .eq

/-- Order of two rows by columns of falling weight, each with its direction. -/
def compareRows : List Nat → List Bool → Row → Row → Ordering
  | [], _, _, _ => .eq
  | column :: columns, ascending, left, right =>
    let order := compareColumns left[column]? right[column]?
    let directed := if ascending.headD true then order else order.swap
    if directed = .eq then compareRows columns ascending.tail left right else directed

/-- Puts a row behind the rows that are not greater, counted from the end. The rows stand in
descending order here. -/
def insertRow (order : Row → Row → Ordering) (row : Row) : List Row → List Row
  | [] => [row]
  | last :: rest =>
    if order row last = .lt then last :: insertRow order row rest else row :: last :: rest

/-- Stable sort by insertion. -/
def insertionSort (order : Row → Row → Ordering) (rows : List Row) : List Row :=
  (rows.foldl (fun sorted row => insertRow order row sorted) []).reverse

/-- The most rows that are sorted by insertion. -/
def insertionLimit : Nat := 20

/-- Stable sort: a few rows by insertion, more of them by merging. The two differ only where the
order is not transitive. -/
def sortRows (order : Row → Row → Ordering) (rows : List Row) : List Row :=
  if rows.length ≤ insertionLimit then insertionSort order rows
  else rows.mergeSort fun left right => order left right != .gt

/-- Inserting a row loses no row. -/
theorem insertRow_perm (order : Row → Row → Ordering) (row : Row) (rows : List Row) :
    (insertRow order row rows).Perm (row :: rows) := by
  induction rows with
  | nil => exact .refl _
  | cons last rest step =>
    rw [insertRow]
    split
    · exact (step.cons last).trans (.swap row last rest)
    · exact .refl _

/-- Inserting row after row loses none of them. -/
theorem foldl_insertRow_perm (order : Row → Row → Ordering) (rows sorted : List Row) :
    (rows.foldl (fun sorted row => insertRow order row sorted) sorted).Perm (rows ++ sorted) := by
  induction rows generalizing sorted with
  | nil => exact .refl _
  | cons row rest step =>
    exact ((step _).trans ((insertRow_perm order row sorted).append_left rest)).trans
      List.perm_middle

/-- Sorting by insertion loses no row. -/
theorem insertionSort_perm (order : Row → Row → Ordering) (rows : List Row) :
    (insertionSort order rows).Perm rows :=
  (List.reverse_perm _).trans (by simpa using foldl_insertRow_perm order rows [])

/-- Sorting only changes the order of rows. -/
theorem sortRows_perm (order : Row → Row → Ordering) (rows : List Row) :
    (sortRows order rows).Perm rows := by
  rw [sortRows]
  split
  · exact insertionSort_perm order rows
  · exact List.mergeSort_perm rows _

/-- The sort that a library provides for rows. Whatever the rows are compared by, it only changes
their order. -/
class RowSort where
  sort : (Row → Row → Ordering) → List Row → List Row
  perm : ∀ order rows, (sort order rows).Perm rows

/-- The sort that programs run with. -/
instance : RowSort :=
  ⟨sortRows, sortRows_perm⟩

/-- Sorts the whole input, then hands it on in batches. -/
structure Sorter (σ : Type) where
  id : NodeId
  columns : List Nat
  ascending : List Bool
  input : Feed σ
  /-- The sorted rows not yet handed on, once the input has been read. -/
  sorted : Option (List Row)
  batch : RowBatch

namespace Sorter

variable [RowSort] {σ : Type}

/-- Moves rows into the batch until it is full or the rows end. -/
def emit : List Row → RowBatch → Progress × List Row × RowBatch
  | [], batch => (.finished, [], batch)
  | row :: rest, batch =>
    if (batch.add row).hasRoom then emit rest (batch.add row)
    else (if rest.isEmpty then .finished else .fetched, rest, batch.add row)

/-- Hands on the next batch of sorted rows. -/
def emitFrom (sorter : Sorter σ) (rows : List Row) : Sorter σ × Progress :=
  match emit rows sorter.batch.clear with
  | (progress, rest, batch) => ({ sorter with sorted := some rest, batch := batch }, progress)

/-- Produces the next batch; the first step reads and sorts the whole input. -/
def advance (supply : Supply σ) (fuel : Nat) (sorter : Sorter σ) : Step (Sorter σ) Progress :=
  match sorter.sorted with
  | some rows =>
    match sorter.emitFrom rows with
    | (next, progress) => some (.ok progress, next)
  | none =>
    match sorter.input.collect supply fuel with
    | none => none
    | some (.error error, input) =>
      some (.error error, { sorter with input := input, batch := sorter.batch.clear })
    | some (.ok rows, input) =>
      match { sorter with input := input }.emitFrom
          (RowSort.sort (compareRows sorter.columns sorter.ascending) rows) with
      | (next, progress) => some (.ok progress, next)

end Sorter

end QueryFusion
