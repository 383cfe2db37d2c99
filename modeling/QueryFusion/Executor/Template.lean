import QueryFusion.Executor

/-!
# Templates of compiled units

A template holds the compiled units of a plan; no two of them stand for the same node. Each
execution gets an assembly of fresh instances. Interpreted executors are offered to the assembly for
binding, and once all executors of a unit are bound its instance takes the place of the topmost one.
-/

namespace QueryFusion

open Script (CompiledUnit UnitInstance)

/-- The compiled units of a plan. -/
structure Template where
  units : List CompiledUnit
  batchSize : Nat
  deriving Inhabited

/-- A unit of an assembly, with its instance until that is taken. -/
structure Place where
  unit : CompiledUnit
  occupant : Option UnitInstance
  deriving Inhabited

/-- The instances of one execution. -/
structure Assembly where
  places : List Place
  deriving Inhabited

namespace Template

/-- The first node of a unit that an earlier unit stands for, with that unit. -/
def conflict? (earlier : List CompiledUnit) : List NodeId → Option (NodeId × CompiledUnit)
  | [] => none
  | id :: rest =>
    match earlier.find? fun unit => unit.subsumedIds.contains id with
    | some owner => some (id, owner)
    | none => conflict? earlier rest

/-- Checks that no two units stand for one node. -/
def checkOwners (earlier : List CompiledUnit) : List CompiledUnit → Except Error Unit
  | [] => .ok ()
  | unit :: rest =>
    match conflict? earlier unit.subsumedIds with
    | some (id, owner) =>
      .error (.binding ("node " ++ id.text ++ " is subsumed by both " ++ owner.name ++ " and " ++
        unit.name))
    | none => checkOwners (earlier ++ [unit]) rest

/-- The template of these units. -/
def ofUnits (units : List CompiledUnit) (batchSize : Nat) : Except Error Template := do
  checkOwners [] units
  .ok ⟨units, max batchSize 1⟩

/-- Some unit stands for the node. -/
def subsumes (template : Template) (id : NodeId) : Bool :=
  template.units.any fun unit => unit.subsumedIds.contains id

/-- Fresh instances of all units. -/
def instantiate (template : Template) : Assembly :=
  ⟨template.units.map fun unit => ⟨unit, some (.start unit template.batchSize)⟩⟩

end Template

namespace Assembly

/-- Some unit stands for the node. -/
def subsumes (assembly : Assembly) (id : NodeId) : Bool :=
  assembly.places.any fun place => place.unit.subsumedIds.contains id

/-- The node's executor is replaced by a unit. -/
def isPrimary (assembly : Assembly) (id : NodeId) : Bool :=
  assembly.places.any fun place => place.unit.primaryId == id

/-- Number of instances not yet taken. -/
def remaining (assembly : Assembly) : Nat :=
  (assembly.places.filter fun place => place.occupant.isSome).length

/-- Offers an executor to the unit that stands for its node; false when there is none. -/
def prepareAt (fuel : Nat) (id : NodeId) (state : ExecutorState) :
    List Place → Step (List Place) Bool
  | [] => some (.ok false, [])
  | place :: rest =>
    if place.unit.subsumedIds.contains id then
      match place.occupant with
      | none =>
        some (.error (.binding
          ("node " ++ id.text ++ " prepared after its compiled unit was taken")),
          place :: rest)
      | some occupant =>
        match occupant.prepare fuel id state with
        | none => none
        | some (.error error, next) =>
          some (.error error, { place with occupant := some next } :: rest)
        | some (.ok (), next) => some (.ok true, { place with occupant := some next } :: rest)
    else Step.embed (place :: ·) (prepareAt fuel id state rest)

/-- Offers an executor to the unit that stands for its node; false when there is none. -/
def prepare (fuel : Nat) (executor : Executor) (assembly : Assembly) : Step Assembly Bool :=
  Step.embed Assembly.mk (prepareAt fuel executor.id executor.state assembly.places)

/-- Takes the instance whose primary node this is. An instance that is not fully bound is refused,
and it is gone as well. -/
def takeAt (id : NodeId) : List Place → Except Error (Option UnitInstance) × List Place
  | [] => (.ok none, [])
  | place :: rest =>
    if place.unit.primaryId == id then
      match place.occupant with
      | none =>
        (.error (.binding ("compiled unit for node " ++ id.text ++ " taken twice")), place :: rest)
      | some occupant =>
        let vacated := { place with occupant := none } :: rest
        if occupant.isBound then (.ok (some occupant), vacated)
        else
          (.error (.binding ("compiled unit " ++ place.unit.name ++
            " taken before all of its nodes were prepared")), vacated)
    else
      let tail := takeAt id rest
      (tail.1, place :: tail.2)

/-- Takes the instance whose primary node this is, if there is one. -/
def take (id : NodeId) (assembly : Assembly) : Except Error (Option UnitInstance) × Assembly :=
  let outcome := takeAt id assembly.places
  (outcome.1, ⟨outcome.2⟩)

end Assembly

end QueryFusion
