import QueryFusion.Executor.Batch
import QueryFusion.Executor.Context
import QueryFusion.Executor.State
import QueryFusion.Plan.Node

/-!
# Slots

What the stack, the locals and the fields of a compiled unit hold: values, rows, and references to
objects of the engine. Cursors are shared: a slot only names one, so that every copy of the slot
sees it move.
-/

namespace QueryFusion.Script

/-- An object of the engine. -/
inductive Handle
  | executor (id : NodeId) (state : ExecutorState)
  | map (entries : EntryMap)
  | partitions (set : PartitionSet)
  | shape (declared : Shape)
  | paths (items : List FieldPath)
  | types (items : List DataType)
  | indexes (items : List Nat)
  | expression (item : Expr)
  | expressions (items : List Expr)
  /-- A cursor of the instance, by its number. -/
  | cursor (number : Nat)
  | context (run : Context)
  | path (item : FieldPath)
  | dataType (item : DataType)
  deriving Inhabited

/-- The name of the kind of an object. -/
def Handle.kindName : Handle → String
  | executor _ state => state.kindName
  | map _ => "MapContainer"
  | partitions _ => "PartitionIdSet"
  | shape _ => "TopObjectDescriptor"
  | paths _ => "List<QueryPath>"
  | types _ => "List<DataType>"
  | indexes _ => "List<Int>"
  | expression _ => "Expression"
  | expressions _ => "List<Expression>"
  | cursor _ => "MapScanIterator"
  | context _ => "FragmentContext"
  | path _ => "QueryPath"
  | dataType _ => "DataType"

/-- An entry of the stack, a local or a field. -/
inductive Slot
  /-- Nothing has been stored yet. -/
  | unset
  | value (content : Value)
  | row (columns : Row)
  | ints (numbers : List Int32)
  | progress (state : Progress)
  | handle (object : Handle)
  deriving Inhabited

namespace Slot

/-- The name of the kind of a slot. -/
def kindName : Slot → String
  | unset => "unset"
  | value _ => "value"
  | row _ => "row"
  | ints _ => "int array"
  | progress _ => "iteration result"
  | handle object => object.kindName

/-- The text of a slot; only values, rows and progress show their content. -/
def text : Slot → String
  | value content => content.text
  | row columns => Row.text columns
  | progress state => state.text
  | other => "<" ++ other.kindName ++ ">"

/-- The slot holds null. -/
def isNull : Slot → Bool
  | value content => content.isNull
  | _ => false

end Slot

end QueryFusion.Script
