import QueryFusion.DataType
import QueryFusion.Decimal.Digits
import QueryFusion.Decimal.Layout
import QueryFusion.Decimal.Shortest
import QueryFusion.Double
import QueryFusion.Double.Nearest
import QueryFusion.Emit.Command
import QueryFusion.Emit.Local
import QueryFusion.Emit.Routine
import QueryFusion.Emit.Snippet
import QueryFusion.Emit.Unit
import QueryFusion.Error
import QueryFusion.Executor
import QueryFusion.Executor.Batch
import QueryFusion.Executor.Context
import QueryFusion.Executor.Feed
import QueryFusion.Executor.Filter
import QueryFusion.Executor.Graph
import QueryFusion.Executor.Join
import QueryFusion.Executor.Replay
import QueryFusion.Executor.Scan
import QueryFusion.Executor.Sorter
import QueryFusion.Executor.State
import QueryFusion.Executor.Template
import QueryFusion.Expr
import QueryFusion.Generate.Fragment
import QueryFusion.Generate.Generator
import QueryFusion.Generate.Inline
import QueryFusion.Generate.Scan
import QueryFusion.Generate.Unit
import QueryFusion.Generate.Variable
import QueryFusion.Hash
import QueryFusion.Path
import QueryFusion.Plan.Builder
import QueryFusion.Plan.Node
import QueryFusion.Plan.Walk
import QueryFusion.Proofs.Decimal.ReadBack
import QueryFusion.Proofs.Double.Rounding
import QueryFusion.Proofs.Emit.Drafting
import QueryFusion.Proofs.Emit.GoingBack
import QueryFusion.Proofs.Emit.Lines
import QueryFusion.Proofs.Emit.Statements
import QueryFusion.Proofs.Emit.Units
import QueryFusion.Proofs.Executor.Batching
import QueryFusion.Proofs.Executor.Binding
import QueryFusion.Proofs.Executor.Failures
import QueryFusion.Proofs.Executor.Fuel
import QueryFusion.Proofs.Executor.Interpretation
import QueryFusion.Proofs.Executor.MixedGraphs
import QueryFusion.Proofs.Executor.Operators
import QueryFusion.Proofs.Executor.Pages
import QueryFusion.Proofs.Executor.Placement
import QueryFusion.Proofs.Executor.Restart
import QueryFusion.Proofs.Executor.RowOrder
import QueryFusion.Proofs.Executor.RunRows
import QueryFusion.Proofs.Executor.Sameness
import QueryFusion.Proofs.Executor.Sorting
import QueryFusion.Proofs.Executor.UnitBatches
import QueryFusion.Proofs.Expr.Failure
import QueryFusion.Proofs.Expr.Integers
import QueryFusion.Proofs.Generate.AcceptedBatches
import QueryFusion.Proofs.Generate.AcceptedBinding
import QueryFusion.Proofs.Generate.AcceptedRows
import QueryFusion.Proofs.Generate.BatchCode
import QueryFusion.Proofs.Generate.Binding
import QueryFusion.Proofs.Generate.BindingCode
import QueryFusion.Proofs.Generate.Collisions
import QueryFusion.Proofs.Generate.CompiledUnits
import QueryFusion.Proofs.Generate.EmittedExpressions
import QueryFusion.Proofs.Generate.EmittedRows
import QueryFusion.Proofs.Generate.EmittedValues
import QueryFusion.Proofs.Generate.ExpressionUnits
import QueryFusion.Proofs.Generate.FieldNames
import QueryFusion.Proofs.Generate.FieldValues
import QueryFusion.Proofs.Generate.FittingNames
import QueryFusion.Proofs.Generate.FittingRows
import QueryFusion.Proofs.Generate.GeneratedUnits
import QueryFusion.Proofs.Generate.GivingUp
import QueryFusion.Proofs.Generate.InlinedTypes
import QueryFusion.Proofs.Generate.InlinedValues
import QueryFusion.Proofs.Generate.Inlining
import QueryFusion.Proofs.Generate.Literals
import QueryFusion.Proofs.Generate.Naming
import QueryFusion.Proofs.Generate.Partition
import QueryFusion.Proofs.Generate.Realization
import QueryFusion.Proofs.Generate.Restarting
import QueryFusion.Proofs.Generate.RowCode
import QueryFusion.Proofs.Generate.RowTypes
import QueryFusion.Proofs.Generate.RowValues
import QueryFusion.Proofs.Generate.RunCode
import QueryFusion.Proofs.Generate.StaticTypes
import QueryFusion.Proofs.Outcome
import QueryFusion.Proofs.Plan.Building
import QueryFusion.Proofs.Plan.PathTexts
import QueryFusion.Proofs.Plan.Records
import QueryFusion.Proofs.Plan.Refusals
import QueryFusion.Proofs.Plan.Walking
import QueryFusion.Proofs.Script.Acceptance
import QueryFusion.Proofs.Script.Arming
import QueryFusion.Proofs.Script.BlockRules
import QueryFusion.Proofs.Script.BoundFields
import QueryFusion.Proofs.Script.Bracketed
import QueryFusion.Proofs.Script.Computation
import QueryFusion.Proofs.Script.Confinement
import QueryFusion.Proofs.Script.Consumption
import QueryFusion.Proofs.Script.Coverage
import QueryFusion.Proofs.Script.Diagnostics
import QueryFusion.Proofs.Script.Expressions
import QueryFusion.Proofs.Script.Fitting
import QueryFusion.Proofs.Script.Footprint
import QueryFusion.Proofs.Script.Lexemes
import QueryFusion.Proofs.Script.Lifecycle
import QueryFusion.Proofs.Script.Locals
import QueryFusion.Proofs.Script.Meaning
import QueryFusion.Proofs.Script.Numerals
import QueryFusion.Proofs.Script.Operations
import QueryFusion.Proofs.Script.Pieces
import QueryFusion.Proofs.Script.Places
import QueryFusion.Proofs.Script.Precedence
import QueryFusion.Proofs.Script.Printing
import QueryFusion.Proofs.Script.Progress
import QueryFusion.Proofs.Script.Reading
import QueryFusion.Proofs.Script.ReadingBlocks
import QueryFusion.Proofs.Script.ReadingUnits
import QueryFusion.Proofs.Script.Refinement
import QueryFusion.Proofs.Script.Renumbering
import QueryFusion.Proofs.Script.Routines
import QueryFusion.Proofs.Script.Rules
import QueryFusion.Proofs.Script.Runs
import QueryFusion.Proofs.Script.Safety
import QueryFusion.Proofs.Script.Scanning
import QueryFusion.Proofs.Script.State
import QueryFusion.Proofs.Script.Statements
import QueryFusion.Proofs.Script.Typing
import QueryFusion.Proofs.Script.Units
import QueryFusion.Proofs.Session.Caching
import QueryFusion.Proofs.Store.Lookup
import QueryFusion.Proofs.Store.Visiting
import QueryFusion.Row
import QueryFusion.Script.Code
import QueryFusion.Script.Instance
import QueryFusion.Script.Lexer
import QueryFusion.Script.Listing
import QueryFusion.Script.Lower
import QueryFusion.Script.Machine
import QueryFusion.Script.Parser
import QueryFusion.Script.Slot
import QueryFusion.Script.Token
import QueryFusion.Script.Tree
import QueryFusion.Script.Ty
import QueryFusion.Session.Cache
import QueryFusion.Session.Compiler
import QueryFusion.Session.Config
import QueryFusion.Session.Runner
import QueryFusion.Store.Cursor
import QueryFusion.Store.EntryMap
import QueryFusion.Store.PartitionSet
import QueryFusion.Symbol
import QueryFusion.Text.Blank
import QueryFusion.Text.Formless
import QueryFusion.Text.Letter
import QueryFusion.Text.Mark
import QueryFusion.Text.Quoted
import QueryFusion.Text.Range
import QueryFusion.Text.Upper
import QueryFusion.Value
import QueryFusion.Value.Arithmetic
import QueryFusion.Value.Compare
import QueryFusion.Value.Convert
import QueryFusion.Value.Object
