import QueryFusion.Executor.Template
import QueryFusion.Plan.Builder

/-!
# Executor graphs

The executors of a plan are built from the leaves up. With an assembly, each of them is offered to
the units for binding, and a unit takes the place of its primary node once all its nodes are bound;
the executors below that node served for binding only.
-/

namespace QueryFusion

/-- An outcome that may be missing because the fuel ran out. -/
abbrev Run (α : Type) := ExceptT Error Option α

/-- An outcome that needs no fuel. -/
def Run.ofExcept {α : Type} (outcome : Except Error α) : Run α :=
  ExceptT.mk (some outcome)

/-- What the executors of a plan are built from. -/
structure Site where
  catalog : Catalog
  batchSize : Nat

namespace Site

/-- The parts of a scan over all partitions of its map. -/
def scanState (site : Site) (spec : ScanSpec) : Except Error ScanState := do
  let map ← site.catalog.require spec.mapName
  .ok { map := map, partitions := map.allPartitions, keyShape := spec.keyShape,
        valueShape := spec.valueShape, paths := spec.paths, types := spec.types,
        projects := spec.projects, filter := spec.filter }

/-- Offers an executor to the assembly; the unit that is complete with it takes its place. -/
def place (fuel : Nat) (executor : Executor) :
    Option Assembly → Run (Executor × Option Assembly)
  | none => pure (executor, none)
  | some assembly => do
    let (outcome, prepared) ← ExceptT.lift (assembly.prepare fuel executor)
    let offered ← Run.ofExcept outcome
    if offered then
      let (taken, rest) := prepared.take executor.id
      match ← Run.ofExcept taken with
      | some occupant => pure (.compiled occupant, some rest)
      | none => pure (executor, some rest)
    else pure (executor, some prepared)

/-- Builds the executors of a plan below its root. -/
def buildNode (site : Site) (fuel : Nat) :
    Plan → Option Assembly → Run (Executor × Option Assembly)
  | .scan id spec, assembly => do
    let state ← Run.ofExcept (site.scanState spec)
    place fuel (.scan (.start id state site.batchSize)) assembly
  | .filter id condition input, assembly => do
    let (producer, rest) ← site.buildNode fuel input assembly
    place fuel (.filter ⟨id, condition, .start producer, .empty site.batchSize⟩) rest
  | .project id expressions input, assembly => do
    let (producer, rest) ← site.buildNode fuel input assembly
    place fuel (.project ⟨id, expressions, .start producer, .empty site.batchSize⟩) rest
  | .sort id columns ascending input, assembly => do
    let (producer, rest) ← site.buildNode fuel input assembly
    place fuel
      (.sorter ⟨id, columns, ascending, .start producer, none, .empty site.batchSize⟩) rest
  | .join id condition left right, assembly => do
    let (leftProducer, afterLeft) ← site.buildNode fuel left assembly
    let (rightProducer, rest) ← site.buildNode fuel right afterLeft
    place fuel (.join ⟨id, condition, .start leftProducer, .start rightProducer, none, none,
      .empty site.batchSize⟩) rest
  | .root id input, assembly => do
    let _ ← site.buildNode fuel input assembly
    throw (.planInvariant ("Root node " ++ id.text ++ " below the plan root"))

/-- Builds the executors of a plan, whose top must be a root. All units of an assembly must find
their place. -/
def build (site : Site) (fuel : Nat) (plan : Plan) (assembly : Option Assembly) : Run Executor :=
  match plan with
  | .root id input => do
    let (producer, rest) ← site.buildNode fuel input assembly
    let left := (rest.map Assembly.remaining).getD 0
    if left > 0 then
      throw (.binding (toString left ++
        " compiled unit(s) were not placed in the executor graph"))
    else pure (.root id producer)
  | other => throw (.planInvariant ("plan root " ++ other.text ++ " is not a Root node"))

end Site

end QueryFusion
