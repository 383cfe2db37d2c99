import QueryFusion.Executor.Feed
import QueryFusion.Executor.State
import QueryFusion.Plan.Node

/-!
# Scanning a map

Every entry of the selected partitions is read, filtered and projected.
-/

namespace QueryFusion

/-- Scans the entries of a map. -/
structure Scan where
  id : NodeId
  state : ScanState
  cursor : Option Cursor
  batch : RowBatch
  deriving Inhabited

namespace Scan

/-- A scan that has not been set up. -/
def start (id : NodeId) (state : ScanState) (batchSize : Nat) : Scan :=
  ⟨id, state, none, .empty batchSize⟩

/-- Places a new cursor before the first entry. -/
def setup (scan : Scan) : Scan :=
  { scan with cursor := some (.start scan.state.map scan.state.partitions) }

/-- Fills the batch with the output rows of the entries that follow. -/
def fill (state : ScanState) : Nat → Cursor → RowBatch → Step (Cursor × RowBatch) Progress
  | 0, _, _ => none
  | fuel + 1, cursor, batch =>
    match cursor.advance with
    | (false, next) => some (.ok .finished, (next, batch))
    | (true, next) =>
      match next.current.bind state.outputRow with
      | .error error => some (.error error, (next, batch))
      | .ok none => fill state fuel next batch
      | .ok (some row) =>
        if (batch.add row).hasRoom then fill state fuel next (batch.add row)
        else some (.ok .fetched, (next, batch.add row))

/-- Produces the next batch. -/
def advance (fuel : Nat) (scan : Scan) : Step Scan Progress :=
  match scan.cursor with
  | none =>
    some (.error (.internal ("map scan " ++ scan.id.text ++ " advanced before setup")),
      { scan with batch := scan.batch.clear })
  | some cursor =>
    match fill scan.state fuel cursor scan.batch.clear with
    | none => none
    | some (outcome, (next, batch)) =>
      some (outcome, { scan with cursor := some next, batch := batch })

end Scan

end QueryFusion
