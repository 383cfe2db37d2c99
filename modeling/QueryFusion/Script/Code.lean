import QueryFusion.Script.Slot
import QueryFusion.Script.Ty

/-!
# Code of compiled units

The instructions of the stack machine, routines, and units ready to be instantiated. Locals, fields,
constants and names are addressed by index, jumps by the index of an instruction.
-/

namespace QueryFusion.Script

/-- A method of the engine's objects. -/
inductive Method
  | executorId
  | scanMap
  | scanPartitions
  | scanKeyShape
  | scanValueShape
  | scanPaths
  | scanTypes
  | scanProjects
  | scanFilter
  | filterCondition
  | projectExpressions
  | listGet
  | listSize
  | cursorAdvance
  | cursorKey
  | cursorValue
  | eval
  | rowGet
  | rowSize
  deriving DecidableEq, Inhabited

/-- The method as it is written in source. -/
def Method.name : Method → String
  | executorId => "id"
  | scanMap => "map"
  | scanPartitions => "partitions"
  | scanKeyShape => "keyDescriptor"
  | scanValueShape => "valueDescriptor"
  | scanPaths => "fieldPaths"
  | scanTypes => "fieldTypes"
  | scanProjects | projectExpressions => "projects"
  | scanFilter => "filter"
  | filterCondition => "condition"
  | listGet | rowGet => "get"
  | listSize | rowSize => "size"
  | cursorAdvance => "tryAdvance"
  | cursorKey => "key"
  | cursorValue => "value"
  | eval => "eval"

/-- What a value or an executor is cast to. -/
inductive CastTarget
  /-- Converts a value. -/
  | scalar (type : DataType)
  /-- Checks for an object, of a class when it is known. -/
  | object (className : Option String)
  /-- Checks the kind of an executor. -/
  | executor (kind : ExecutorKind)
  deriving DecidableEq, Inhabited

/-- An instruction. -/
inductive Op
  /-- Pushes a constant of the unit. -/
  | const (index : Nat)
  | pushNull
  | pushTrue
  | pushFalse
  | loadLocal (index : Nat)
  | storeLocal (index : Nat)
  | loadField (index : Nat)
  | storeField (index : Nat)
  | pop
  | arithmetic (op : ArithmeticOp)
  | negate
  | not
  /-- Equality of two slots; null equals null. -/
  | equal
  | notEqual
  /-- Order of two values: one of the four comparisons that are no equality. -/
  | less
  | lessOrEqual
  | greater
  | greaterOrEqual
  | jump (target : Nat)
  | jumpIfFalse (target : Nat)
  | jumpIfTrue (target : Nat)
  /-- Ends the routine with the top of the stack. -/
  | answer
  /-- Ends the routine without a value. -/
  | finish
  /-- Stands behind a routine that must have ended with a value. -/
  | missingAnswer
  | cast (target : CastTarget)
  /-- Calls a method on the slot below its arguments. -/
  | call (method : Method) (arguments : Nat)
  /-- Reads a field of an object; the field is a name of the unit. -/
  | getter (name : Nat)
  /-- Makes a row of the topmost values. -/
  | newRow (size : Nat)
  | createCursor
  | clearBatch
  /-- Adds a row to the batch and pushes whether there is room for another. -/
  | addToBatch
  deriving DecidableEq, Inhabited

/-- The code of a routine. Parameters take the first locals. -/
structure Routine where
  name : String
  ops : List Op
  paramCount : Nat
  localCount : Nat
  deriving Inhabited

/-- A declared field of a unit. -/
structure FieldInfo where
  name : String
  type : Ty
  deriving DecidableEq, Inhabited

/-- A compiled unit. -/
structure CompiledUnit where
  name : String
  qualifiedName : String
  /-- The plan node whose executor the unit replaces. -/
  primaryId : Int32
  /-- All plan nodes that the unit stands for. -/
  subsumedIds : List Int32
  fields : List FieldInfo
  constants : List Slot
  names : List String
  prepare : Routine
  setup : Routine
  advance : Routine
  deriving Inhabited

/-- The text of a unit. -/
def CompiledUnit.text (unit : CompiledUnit) : String :=
  unit.qualifiedName ++ " (primary " ++ toString unit.primaryId.toInt ++ ", subsumes [" ++
    String.intercalate ", " (unit.subsumedIds.map fun id => toString id.toInt) ++ "])"

end QueryFusion.Script
