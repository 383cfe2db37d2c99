import QueryFusion.Executor.Batch
import QueryFusion.Plan.Node

/-!
# Replayed rows

A source that hands on fixed batches, whatever their sizes, and can be told to fail at one of them.
-/

namespace QueryFusion

/-- Replays fixed batches of rows; with `failAt` it fails in place of the batch at that index. -/
structure Replay where
  id : NodeId
  batches : List (List Row)
  failAt : Option Nat
  position : Nat
  current : List Row
  deriving Inhabited

namespace Replay

/-- Starts again. -/
def setup (replay : Replay) : Replay :=
  { replay with position := 0, current := [] }

/-- Hands on the next batch. -/
def advance (replay : Replay) : Except Error Progress × Replay :=
  if replay.failAt = some replay.position then (.error (.internal "source failed"), replay)
  else
    let next := replay.position + 1
    (.ok (if next < replay.batches.length then .fetched else .finished),
      { replay with current := replay.batches.getD replay.position [], position := next })

end Replay

end QueryFusion
