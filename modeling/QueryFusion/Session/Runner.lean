import QueryFusion.Executor.Graph
import QueryFusion.Session.Compiler

/-!
# Running queries

A query is run with compiled units when its plan has a template. When compiling or binding fails,
the plan is interpreted; other errors are those that interpretation would give, and stand.
-/

namespace QueryFusion

/-- How a query was run. -/
inductive Mode
  | compiled
  | interpreted
  deriving DecidableEq, Inhabited

/-- The name of a mode. -/
def Mode.text : Mode → String
  | compiled => "compiled"
  | interpreted => "interpreted"

/-- The rows of a query, and how it was run. -/
structure Output where
  rows : List Row
  mode : Mode
  deriving Inhabited

/-- Runs queries on the maps of a catalog. -/
structure Runner where
  catalog : Catalog
  compiler : Compiler
  /-- The id of the next execution. -/
  nextId : UInt64
  deriving Inhabited

namespace Runner

/-- A runner that has run nothing. -/
def start (catalog : Catalog) (config : Config) : Runner :=
  ⟨catalog, .start config, 1⟩

/-- The context of a new execution. -/
def context (runner : Runner) : Context × Runner :=
  (.start runner.nextId, { runner with nextId := runner.nextId + 1 })

variable [RowSort]

/-- Builds the executors of a plan and collects its rows. -/
def execute (catalog : Catalog) (batchSize fuel : Nat) (context : Context) (plan : Plan)
    (assembly : Option Assembly) : Run (List Row) := do
  let executor ← Site.build ⟨catalog, max batchSize 1⟩ fuel plan assembly
  let (outcome, _) ← ExceptT.lift (executor.collect context fuel)
  Run.ofExcept outcome

/-- Runs a plan without compiled units. -/
def interpret (runner : Runner) (fuel : Nat) (context : Context) (plan : Plan) : Run (List Row) :=
  execute runner.catalog runner.compiler.config.effectiveBatchSize fuel context plan none

/-- Runs a plan with the units of a template. -/
def runTemplate (runner : Runner) (fuel : Nat) (context : Context) (plan : Plan)
    (template : Template) : Run (List Row) :=
  execute runner.catalog template.batchSize fuel context plan (some template.instantiate)

/-- Runs a plan with a template; when compiling or binding fails, it is interpreted. -/
def runOrInterpret (runner : Runner) (fuel : Nat) (context : Context) (plan : Plan) :
    Option Template → Run Output
  | none => do
    let rows ← runner.interpret fuel context plan
    pure ⟨rows, .interpreted⟩
  | some template =>
    try
      let rows ← runner.runTemplate fuel context plan template
      pure ⟨rows, .compiled⟩
    catch error =>
      if error.isFallback then do
        let rows ← runner.interpret fuel context plan
        pure ⟨rows, .interpreted⟩
      else throw error

/-- Runs a plan in a context. -/
def runIn (fuel : Nat) (context : Context) (plan : Plan) (runner : Runner) : Step Runner Output :=
  let (template, compiler) := runner.compiler.template plan
  let next := { runner with compiler := compiler }
  match ExceptT.run (next.runOrInterpret fuel context plan template) with
  | none => none
  | some outcome => some (outcome, next)

/-- Runs a plan. -/
def run (fuel : Nat) (plan : Plan) (runner : Runner) : Step Runner Output :=
  let (context, next) := runner.context
  next.runIn fuel context plan

/-- The text of a runner. -/
def text (runner : Runner) : String :=
  "QueryRunner \x7b manager: " ++ runner.compiler.text ++ " \x7d"

end Runner

end QueryFusion
