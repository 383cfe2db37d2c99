import QueryFusion.Executor.Filter
import QueryFusion.Executor.Join
import QueryFusion.Executor.Replay
import QueryFusion.Executor.Scan
import QueryFusion.Executor.Sorter
import QueryFusion.Script.Instance

/-!
# Executors

An executor is set up for an execution and then advanced until it is finished; after each step its
rows can be read. Interpreted operators and compiled units are executors alike, so either can stand
below the other.
-/

namespace QueryFusion

/-- An executor with the executors below it. -/
inductive Executor
  | replay (source : Replay)
  | scan (source : Scan)
  | filter (subject : Filter Executor)
  | project (subject : Project Executor)
  | sorter (subject : Sorter Executor)
  | join (subject : Join Executor)
  /-- The consumer on top of a plan. -/
  | root (id : NodeId) (input : Executor)
  | compiled (subject : Script.UnitInstance)
  deriving Inhabited

namespace Executor

/-- The plan node of an executor; a compiled unit stands at its primary node. -/
def id : Executor → NodeId
  | replay source => source.id
  | scan source => source.id
  | filter subject => subject.id
  | project subject => subject.id
  | sorter subject => subject.id
  | join subject => subject.id
  | root id _ => id
  | compiled subject => subject.unit.primaryId

/-- The name of an executor. -/
def name : Executor → String
  | replay _ => "Source"
  | scan _ => "MapScanExec"
  | filter _ => "FilterExec"
  | project _ => "ProjectExec"
  | sorter _ => "SortExec"
  | join _ => "NestedLoopJoinExec"
  | root .. => "RootExec"
  | compiled subject => subject.unit.name

/-- The executor is a compiled unit. -/
def isCompiled : Executor → Bool
  | compiled _ => true
  | _ => false

/-- What an executor exposes to compiled units. -/
def state : Executor → ExecutorState
  | scan source => .scan source.state
  | filter subject => .filter subject.condition
  | project subject => .project subject.expressions
  | _ => .hidden

/-- The rows of the last step. -/
def rows : Executor → List Row
  | replay source => source.current
  | scan source => source.batch.rows
  | filter subject => subject.batch.rows
  | project subject => subject.batch.rows
  | sorter subject => subject.batch.rows
  | join subject => subject.batch.rows
  | root _ input => input.rows
  | compiled subject => subject.memory.batch.rows

/-- Sets up the producer of a feed and forgets the rows pulled before. -/
def setupFeed (setup : Executor → Step Executor Unit) (feed : Feed Executor) :
    Step (Feed Executor) Unit :=
  Step.embed Feed.start (setup feed.producer)

/-- Prepares an executor, and before it those below it, for an execution. -/
def setup (context : Context) : Nat → Executor → Step Executor Unit
  | 0, _ => none
  | fuel + 1, executor =>
    match executor with
    | replay source => some (.ok (), replay source.setup)
    | scan source => some (.ok (), scan source.setup)
    | filter subject =>
      Step.embed (fun input => filter { subject with input := input })
        (setupFeed (setup context fuel) subject.input)
    | project subject =>
      Step.embed (fun input => project { subject with input := input })
        (setupFeed (setup context fuel) subject.input)
    | sorter subject =>
      Step.embed (fun input => sorter { subject with sorted := none, input := input })
        (setupFeed (setup context fuel) subject.input)
    | join subject =>
      let cleared := { subject with rightRows := none, current := none }
      match setupFeed (setup context fuel) cleared.left with
      | none => none
      | some (.error error, left) =>
        some (.error error, join { cleared with left := left, right := cleared.right.reset })
      | some (.ok (), left) =>
        Step.embed (fun right => join { cleared with left := left, right := right })
          (setupFeed (setup context fuel) cleared.right)
    | root id input => Step.embed (root id) (setup context fuel input)
    | compiled subject => Step.embed compiled (subject.setup fuel context)

variable [RowSort]

/-- Produces the next batch. -/
def advance : Nat → Executor → Step Executor Progress
  | 0, _ => none
  | fuel + 1, executor =>
    let supply : Supply Executor := ⟨advance fuel, rows⟩
    match executor with
    | replay replayed =>
      let step := replayed.advance
      some (step.1, replay step.2)
    | scan scanned => Step.embed scan (scanned.advance fuel)
    | filter subject => Step.embed filter (subject.advance supply fuel)
    | project subject => Step.embed project (subject.advance supply fuel)
    | sorter subject => Step.embed sorter (subject.advance supply fuel)
    | join subject => Step.embed join (subject.advance supply fuel)
    | root id input => Step.embed (root id) (advance fuel input)
    | compiled subject => Step.embed compiled (subject.advance fuel)

/-- How rows are pulled from an executor. -/
def supply (fuel : Nat) : Supply Executor :=
  ⟨advance fuel, rows⟩

/-- Advances to the end; `taken` holds the batches so far, the last one first. Cancellation is seen
before each step. -/
def drain (context : Context) : Nat → Executor → List (List Row) → Step Executor (List Row)
  | 0, _, _ => none
  | fuel + 1, executor, taken =>
    match context.check with
    | .error error => some (.error error, executor)
    | .ok () =>
      match advance fuel executor with
      | none => none
      | some (.error error, next) => some (.error error, next)
      | some (.ok .finished, next) => some (.ok (next.rows :: taken).reverse.flatten, next)
      | some (.ok .fetched, next) => drain context fuel next (next.rows :: taken)

/-- Sets up an executor and collects all of its rows. -/
def collect (context : Context) (fuel : Nat) (executor : Executor) : Step Executor (List Row) :=
  match setup context fuel executor with
  | none => none
  | some (.error error, next) => some (.error error, next)
  | some (.ok (), next) => drain context fuel next []

end Executor

end QueryFusion
