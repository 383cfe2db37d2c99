import QueryFusion.Script.Machine

/-!
# Instances of compiled units

An instance is bound to the executor of every node that its unit stands for, each once, before it is
set up for an execution, and it is advanced only after that. What comes out of order is refused, so
a unit that is bound in part never handles a row.
-/

namespace QueryFusion.Script

/-- An instance of a compiled unit. -/
structure UnitInstance where
  unit : CompiledUnit
  memory : Memory
  /-- The nodes bound so far. -/
  bound : List NodeId
  /-- The last setup succeeded. -/
  armed : Bool
  deriving Inhabited

namespace UnitInstance

/-- A new instance. -/
def start (unit : CompiledUnit) (batchSize : Nat) : UnitInstance :=
  ⟨unit, .start unit batchSize, [], false⟩

/-- The unit stands for a node. -/
def subsumes (subject : UnitInstance) (id : NodeId) : Bool :=
  subject.unit.subsumedIds.contains id

/-- The first node of the unit that has not been bound. -/
def unbound? (subject : UnitInstance) : Option NodeId :=
  subject.unit.subsumedIds.find? fun id => !subject.bound.contains id

/-- Every node of the unit has been bound. -/
def isBound (subject : UnitInstance) : Bool :=
  subject.unbound?.isNone

/-- The instance with another memory. -/
def withMemory (subject : UnitInstance) (memory : Memory) : UnitInstance :=
  { subject with memory := memory }

/-- Binds the executor of one node. -/
def prepare (fuel : Nat) (id : NodeId) (state : ExecutorState) (subject : UnitInstance) :
    Step UnitInstance Unit :=
  if !subject.subsumes id then
    some (.error (.binding ("node " ++ id.text ++ " is not subsumed by " ++ subject.unit.name)),
      subject)
  else if subject.bound.contains id then
    some (.error (.binding
      ("node " ++ id.text ++ " already bound to " ++ subject.unit.name)), subject)
  else
    match run subject.unit subject.unit.prepare fuel [.handle (.executor id state)]
        subject.memory with
    | none => none
    | some (.error error, memory) => some (.error error, subject.withMemory memory)
    | some (.ok _, memory) =>
      some (.ok (), { subject.withMemory memory with bound := id :: subject.bound })

/-- Prepares the instance for an execution. While the setup routine runs, the instance is not
armed. -/
def setup (fuel : Nat) (context : Context) (subject : UnitInstance) : Step UnitInstance Unit :=
  match subject.unbound?, context.check with
  | some id, _ =>
    some (.error (.binding ("node " ++ id.text ++ " of " ++ subject.unit.name ++
      " was never prepared")), subject)
  | none, .error error => some (.error error, subject)
  | none, .ok () =>
    match run subject.unit subject.unit.setup fuel [.handle (.context context)] subject.memory with
    | none => none
    | some (.error error, memory) =>
      some (.error error, { subject.withMemory memory with armed := false })
    | some (.ok _, memory) => some (.ok (), { subject.withMemory memory with armed := true })

/-- Produces the next batch. -/
def advance (fuel : Nat) (subject : UnitInstance) : Step UnitInstance Progress :=
  if !subject.armed then
    some (.error (.binding (subject.unit.name ++ " advanced before setup")), subject)
  else
    match run subject.unit subject.unit.advance fuel [] subject.memory with
    | none => none
    | some (.error error, memory) => some (.error error, subject.withMemory memory)
    | some (.ok (.progress progress), memory) => some (.ok progress, subject.withMemory memory)
    | some (.ok other, memory) =>
      some (.error (.internal ("advance of " ++ subject.unit.name ++ " returned " ++
        other.kindName)), subject.withMemory memory)

end UnitInstance

end QueryFusion.Script
