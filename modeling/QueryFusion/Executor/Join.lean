import QueryFusion.Executor.Feed
import QueryFusion.Plan.Node

/-!
# Nested loop join

For each left row in order, the joined rows with each right row in order.
-/

namespace QueryFusion

/-- Joins every left row with every right row that fulfils the condition. The right side is read as
a whole first. -/
structure Join (σ : Type) where
  id : NodeId
  condition : Option Expr
  left : Feed σ
  right : Feed σ
  /-- The right rows, once they have been read. -/
  rightRows : Option (List Row)
  /-- The left row being joined, with the right rows still to try. -/
  current : Option (Row × List Row)
  batch : RowBatch

namespace Join

variable {σ : Type}

/-- The joined row belongs to the result. -/
def accepts (condition : Option Expr) (row : Row) : Except Error Bool :=
  match condition with
  | none => .ok true
  | some condition => do
    let outcome ← condition.eval row
    outcome.passes

/-- Joins a left row with right rows until the batch is full; then the untried right rows are handed
back. -/
def pair (condition : Option Expr) (left : Row) :
    List Row → RowBatch → Except Error (Option (List Row)) × RowBatch
  | [], batch => (.ok none, batch)
  | right :: rest, batch =>
    match accepts condition (left ++ right) with
    | .error error => (.error error, batch)
    | .ok false => pair condition left rest batch
    | .ok true =>
      if (batch.add (left ++ right)).hasRoom then
        pair condition left rest (batch.add (left ++ right))
      else (.ok (some rest), batch.add (left ++ right))

/-- Joins left rows until the batch is full or the left side ends. A left row whose join fails is
not tried again. -/
def fill (supply : Supply σ) (rightRows : List Row) : Nat → Join σ → Step (Join σ) Progress
  | 0, _ => none
  | fuel + 1, join =>
    match join.current with
    | some (left, rights) =>
      match pair join.condition left rights join.batch with
      | (.error error, batch) =>
        some (.error error, { join with current := none, batch := batch })
      | (.ok (some rest), batch) =>
        some (.ok .fetched, { join with current := some (left, rest), batch := batch })
      | (.ok none, batch) =>
          fill supply rightRows fuel { join with current := none, batch := batch }
    | none =>
      match join.left.next supply fuel with
      | none => none
      | some (.error error, feed) => some (.error error, { join with left := feed })
      | some (.ok none, feed) => some (.ok .finished, { join with left := feed })
      | some (.ok (some row), feed) =>
        fill supply rightRows fuel { join with left := feed, current := some (row, rightRows) }

/-- Produces the next batch; the first step reads the whole right side. -/
def advance (supply : Supply σ) (fuel : Nat) (join : Join σ) : Step (Join σ) Progress :=
  let cleared := { join with batch := join.batch.clear }
  match cleared.rightRows with
  | some rows => fill supply rows fuel cleared
  | none =>
    match cleared.right.collect supply fuel with
    | none => none
    | some (.error error, feed) => some (.error error, { cleared with right := feed })
    | some (.ok rows, feed) =>
      fill supply rows fuel { cleared with right := feed, rightRows := some rows }

end Join

end QueryFusion
