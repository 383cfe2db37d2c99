import QueryFusion.Executor.Feed
import QueryFusion.Plan.Node

/-!
# Filter and projection

Both turn each row of their input into at most one row: a filter passes the row itself or nothing, a
projection always passes the values of its expressions.
-/

namespace QueryFusion

/-- Passes the rows on which a condition is true. -/
structure Filter (σ : Type) where
  id : NodeId
  condition : Expr
  input : Feed σ
  batch : RowBatch

/-- The row itself, if it passes the condition. -/
def Filter.transform (condition : Expr) (row : Row) : Except Error (Option Row) := do
  let outcome ← condition.eval row
  let passed ← outcome.passes
  .ok (if passed then some row else none)

/-- Produces the next batch. -/
def Filter.advance {σ : Type} (supply : Supply σ) (fuel : Nat) (filter : Filter σ) :
    Step (Filter σ) Progress :=
  match filter.input.fill supply (Filter.transform filter.condition) fuel filter.batch.clear with
  | none => none
  | some (outcome, (input, batch)) => some (outcome, { filter with input := input, batch := batch })

/-- Evaluates one expression for each output column. -/
structure Project (σ : Type) where
  id : NodeId
  expressions : List Expr
  input : Feed σ
  batch : RowBatch

/-- The projected row. -/
def Project.transform (expressions : List Expr) (row : Row) : Except Error (Option Row) := do
  let image ← evalAll row expressions
  .ok (some image)

/-- Produces the next batch. -/
def Project.advance {σ : Type} (supply : Supply σ) (fuel : Nat) (project : Project σ) :
    Step (Project σ) Progress :=
  match project.input.fill supply (Project.transform project.expressions) fuel
      project.batch.clear with
  | none => none
  | some (outcome, (input, batch)) =>
      some (outcome, { project with input := input, batch := batch })

end QueryFusion
