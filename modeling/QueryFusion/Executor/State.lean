import QueryFusion.Expr
import QueryFusion.Path
import QueryFusion.Store.Cursor

/-!
# What executors expose

Compiled units copy the parts of an interpreted executor that they need: those of scans, filters and
projections. Other executors expose nothing.
-/

namespace QueryFusion

/-- The parts of a scan. -/
structure ScanState where
  map : EntryMap
  partitions : PartitionSet
  keyShape : Shape
  valueShape : Shape
  paths : List FieldPath
  types : List DataType
  projects : List Nat
  filter : Option Expr
  deriving Inhabited

namespace ScanState

/-- Reads the fields of an entry one by one, each converted to its type. -/
def readFields (scan : ScanState) (entry : Entry) :
    List (FieldPath × DataType) → Except Error Row
  | [] => .ok []
  | (path, type) :: rest => do
    let raw ← path.extract entry.1 entry.2 scan.keyShape scan.valueShape
    let value ← type.convert raw
    let values ← scan.readFields entry rest
    .ok (value :: values)

/-- Selects columns of a row. -/
def select (row : Row) : List Nat → Except Error Row
  | [] => .ok []
  | index :: rest => do
    let value ← row.column index
    let values ← select row rest
    .ok (value :: values)

/-- The output row of an entry, if the filter lets it pass. -/
def outputRow (scan : ScanState) (entry : Entry) : Except Error (Option Row) := do
  let fields ← scan.readFields entry (scan.paths.zip scan.types)
  let passed ←
    match scan.filter with
    | none => .ok true
    | some condition => do
      let outcome ← condition.eval fields
      outcome.passes
  if passed then do
    let row ← select fields scan.projects
    .ok (some row)
  else .ok none

end ScanState

/-- What an executor exposes to compiled units. -/
inductive ExecutorState
  | hidden
  | scan (state : ScanState)
  | filter (condition : Expr)
  | project (expressions : List Expr)
  deriving Inhabited

/-- The name of the kind of executor. -/
def ExecutorState.kindName : ExecutorState → String
  | hidden => "Exec"
  | scan _ => "MapScanExec"
  | filter _ => "FilterExec"
  | project _ => "ProjectExec"

end QueryFusion
