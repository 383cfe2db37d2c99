import QueryFusion.Row

/-!
# Batches of rows

Executors hand on their rows in batches of bounded size. Adding a row tells whether there is room
for another, so that a producer stops exactly when the batch is full.
-/

namespace QueryFusion

/-- How far an executor has come. -/
inductive Progress
  /-- The batch is full, and more rows may follow. -/
  | fetched
  /-- The input is exhausted; the batch holds the last rows. -/
  | finished
  deriving DecidableEq, Inhabited

namespace Progress

/-- No rows follow. -/
def isFinished : Progress → Bool
  | finished => true
  | fetched => false

/-- The text of a progress. -/
def text : Progress → String
  | fetched => "FETCHED"
  | finished => "FETCHED_DONE"

end Progress

/-- Rows in order, with the number at which the batch is full. -/
structure RowBatch where
  rows : List Row
  capacity : Nat
  deriving Inhabited

namespace RowBatch

/-- The batch size unless another one is asked for. -/
def defaultCapacity : Nat := 1024

/-- The batch without rows; it holds at least one row when full. -/
def empty (capacity : Nat) : RowBatch :=
  ⟨[], max capacity 1⟩

/-- A batch has room for a row at first. -/
theorem capacity_empty_pos (capacity : Nat) : 0 < (empty capacity).capacity := by
  simp only [empty]
  omega

/-- The batch with its rows removed. -/
def clear (batch : RowBatch) : RowBatch :=
  { batch with rows := [] }

/-- There is room for another row. -/
def hasRoom (batch : RowBatch) : Bool :=
  batch.rows.length < batch.capacity

/-- The batch with one more row. -/
def add (batch : RowBatch) (row : Row) : RowBatch :=
  { batch with rows := batch.rows ++ [row] }

/-- A row is added behind the others. -/
theorem rows_add (batch : RowBatch) (row : Row) : (batch.add row).rows = batch.rows ++ [row] :=
  rfl

/-- Adding a row does not change when a batch is full. -/
theorem capacity_add (batch : RowBatch) (row : Row) :
    (batch.add row).capacity = batch.capacity :=
  rfl

/-- There is room exactly while fewer rows are held than make the batch full. -/
theorem hasRoom_iff (batch : RowBatch) :
    batch.hasRoom = true ↔ batch.rows.length < batch.capacity := by
  simp [hasRoom]

end RowBatch

end QueryFusion
