import QueryFusion.DataType

/-!
# Static types of the source language

Types of scalars and values, of rows and arrays, and of the engine's objects. Values of scalar types
may be null. Which types may be stored, compared, cast and joined is decided here.
-/

namespace QueryFusion.Script

/-- Element type of a list of the engine. -/
inductive ListElement
  | path
  | dataType
  | int
  | expression
  deriving DecidableEq, Inhabited

/-- Kinds of executors that a unit can be bound to. -/
inductive ExecutorKind
  | scan
  | filter
  | project
  deriving DecidableEq, Inhabited

/-- All kinds of executors. -/
def ExecutorKind.all : List ExecutorKind :=
  [scan, filter, project]

/-- The name of a kind of executor. -/
def ExecutorKind.name : ExecutorKind → String
  | scan => "MapScanExec"
  | filter => "FilterExec"
  | project => "ProjectExec"

/-- A static type. -/
inductive Ty
  | void
  /-- The type of the null literal. -/
  | null
  | boolean
  | int
  | bigInt
  | double
  | varchar
  /-- Any value. -/
  | value
  /-- Domain objects, of a class when it is known. -/
  | object (className : Option String)
  | row
  | intArray
  | executor
  | specificExecutor (kind : ExecutorKind)
  | map
  | partitions
  | shape
  | path
  | dataType
  | expression
  | cursor
  | context
  | progress
  | list (element : ListElement)
  deriving DecidableEq, Inhabited

/-- The name of an element type. -/
def ListElement.name : ListElement → String
  | path => "QueryPath"
  | dataType => "DataType"
  | int => "Int"
  | expression => "Expression"

/-- The element type of a name. -/
def ListElement.ofName? (name : String) : Option ListElement :=
  [ListElement.path, .dataType, .int, .expression].find? fun element => element.name == name

/-- The type of an element of a list. -/
def ListElement.itemType : ListElement → Ty
  | path => .path
  | dataType => .dataType
  | int => .int
  | expression => .expression

namespace Ty

/-- The text of a type. -/
def text : Ty → String
  | void => "Void"
  | null => "null"
  | boolean => "Boolean"
  | int => "Int"
  | bigInt => "BigInt"
  | double => "Double"
  | varchar => "Varchar"
  | value => "Value"
  | object none => "Object"
  | object (some className) => "Object<" ++ className ++ ">"
  | row => "Row"
  | intArray => "IntArray"
  | executor => "Exec"
  | specificExecutor kind => kind.name
  | map => "MapContainer"
  | partitions => "PartitionIdSet"
  | shape => "TopObjectDescriptor"
  | path => "QueryPath"
  | dataType => "DataType"
  | expression => "Expression"
  | cursor => "MapScanIterator"
  | context => "FragmentContext"
  | progress => "IterationResult"
  | list element => "List<" ++ element.name ++ ">"

/-- The types that are written as a single name, objects of any class apart. -/
def plain : List Ty :=
  [boolean, int, bigInt, double, varchar, value, row, intArray, executor, specificExecutor .scan,
   specificExecutor .filter, specificExecutor .project, map, partitions, shape, path, dataType,
   expression, cursor, context, progress]

/-- The type that a name, with an argument in angle brackets or none, stands for. -/
def resolve? (name : String) (argument : Option String) : Option Ty :=
  if name = "Object" then some (object argument)
  else
    match argument with
    | some element =>
      if name = "List" then (ListElement.ofName? element).map list else none
    | none => plain.find? fun type => type.text == name

/-- The data type of a scalar type. -/
def dataType? : Ty → Option DataType
  | boolean => some .boolean
  | int => some .int
  | bigInt => some .bigInt
  | double => some .double
  | varchar => some .varchar
  | _ => none

/-- Types whose members are values, null among them. -/
def isValueType : Ty → Bool
  | null | boolean | int | bigInt | double | varchar | value | object _ => true
  | _ => false

/-- Types that arithmetic accepts. -/
def isNumeric : Ty → Bool
  | int | bigInt | double => true
  | _ => false

/-- Types that have an order. -/
def isOrderable : Ty → Bool
  | int | bigInt | double | boolean | varchar => true
  | _ => false

/-- A member of the first type may stand where the second is expected. -/
def isAssignableTo (source target : Ty) : Bool :=
  if source = target then target != void
  else
    match source, target with
    | null, other => other != void
    | other, value => other.isValueType
    | object (some _), object none => true
    | specificExecutor _, executor => true
    | _, _ => false

/-- The two types may be tested for equality. -/
def isEquatableWith (left right : Ty) : Bool :=
  if left = null ∨ right = null then left != void && right != void
  else if !left.isValueType || !right.isValueType then left == progress && right == progress
  else
    left == right || left == value || right == value ||
      (match left, right with
       | object _, object _ => true
       | _, _ => false)

/-- A member of the second type may be cast to the first. -/
def isCastableFrom (target source : Ty) : Bool :=
  if source = target ∨ source = null then
    target.isValueType ||
      (match target with
       | specificExecutor _ => true
       | _ => false)
  else
    match source, target with
    | value, object _ => true
    | value, other => other.dataType?.isSome
    | object _, object _ => true
    | object _, value => true
    | executor, specificExecutor _ => true
    | other, goal => other.dataType?.isSome && (goal.dataType?.isSome || goal == value)

/-- The type of a conditional with branches of two types. -/
def unify? (left right : Ty) : Option Ty :=
  if left = right then some left
  else
    match left, right with
    | null, other => some other
    | other, null => some other
    | object _, object _ => some (object none)
    | first, second => if first.isValueType && second.isValueType then some value else none

end Ty

end QueryFusion.Script
