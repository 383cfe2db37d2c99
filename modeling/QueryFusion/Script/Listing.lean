import QueryFusion.Script.Code
import QueryFusion.Text.Quoted

/-!
# Listings of code

Every instruction has a text: its name, followed by its operands in brackets.
-/

namespace QueryFusion.Script

/-- The name of a data type in a listing. -/
def dataTypeLabel : DataType → String
  | .null => "Null"
  | .boolean => "Boolean"
  | .int => "Int"
  | .bigInt => "BigInt"
  | .double => "Double"
  | .varchar => "Varchar"
  | .object => "Object"

/-- The name of a kind of executor in a listing. -/
def ExecutorKind.label : ExecutorKind → String
  | scan => "MapScan"
  | filter => "Filter"
  | project => "Project"

/-- The text of the target of a cast. -/
def CastTarget.text : CastTarget → String
  | scalar type => "Scalar(" ++ dataTypeLabel type ++ ")"
  | object none => "Object(None)"
  | object (some className) => "Object(Some(" ++ Text.quotedName className ++ "))"
  | executor kind => "Exec(" ++ kind.label ++ ")"

/-- The name of a method in a listing, which tells methods of one name apart. -/
def Method.label : Method → String
  | executorId => "ExecId"
  | scanMap => "ScanMap"
  | scanPartitions => "ScanPartitions"
  | scanKeyShape => "ScanKeyDescriptor"
  | scanValueShape => "ScanValueDescriptor"
  | scanPaths => "ScanFieldPaths"
  | scanTypes => "ScanFieldTypes"
  | scanProjects => "ScanProjects"
  | scanFilter => "ScanFilter"
  | filterCondition => "FilterCondition"
  | projectExpressions => "ProjectExpressions"
  | listGet => "ListGet"
  | listSize => "ListSize"
  | cursorAdvance => "TryAdvance"
  | cursorKey => "IteratorKey"
  | cursorValue => "IteratorValue"
  | eval => "Eval"
  | rowGet => "RowGet"
  | rowSize => "RowSize"

/-- All methods. -/
def Method.all : List Method :=
  [executorId, scanMap, scanPartitions, scanKeyShape, scanValueShape, scanPaths, scanTypes,
   scanProjects, scanFilter, filterCondition, projectExpressions, listGet, listSize, cursorAdvance,
   cursorKey, cursorValue, eval, rowGet, rowSize]

namespace Op

/-- The name of an instruction. -/
def label : Op → String
  | const _ => "Const"
  | pushNull => "Null"
  | pushTrue => "True"
  | pushFalse => "False"
  | loadLocal _ => "LoadLocal"
  | storeLocal _ => "StoreLocal"
  | loadField _ => "LoadField"
  | storeField _ => "StoreField"
  | pop => "Pop"
  | arithmetic .plus => "Add"
  | arithmetic .minus => "Sub"
  | arithmetic .times => "Mul"
  | arithmetic .divide => "Div"
  | arithmetic .remainder => "Rem"
  | negate => "Neg"
  | not => "Not"
  | equal => "Eq"
  | notEqual => "Ne"
  | less => "Lt"
  | lessOrEqual => "Le"
  | greater => "Gt"
  | greaterOrEqual => "Ge"
  | jump _ => "Jump"
  | jumpIfFalse _ => "JumpIfFalse"
  | jumpIfTrue _ => "JumpIfTrue"
  | answer => "Return"
  | finish => "ReturnVoid"
  | missingAnswer => "MissingReturn"
  | cast _ => "Cast"
  | call .. => "Call"
  | getter _ => "Getter"
  | newRow _ => "NewRow"
  | createCursor => "CreateIterator"
  | clearBatch => "ClearBatch"
  | addToBatch => "AddToBatch"

/-- The texts of the operands of an instruction. -/
def operands : Op → List String
  | const index | loadLocal index | storeLocal index | loadField index | storeField index
  | jump index | jumpIfFalse index | jumpIfTrue index | getter index | newRow index =>
    [toString index]
  | cast target => [target.text]
  | call method arguments => [method.label, toString arguments]
  | _ => []

/-- The text of an instruction. -/
def text (op : Op) : String :=
  if op.operands.isEmpty then op.label
  else op.label ++ "(" ++ String.intercalate ", " op.operands ++ ")"

/-- The instructions that take no operand. -/
def plain : List Op :=
  [pushNull, pushTrue, pushFalse, pop, arithmetic .plus, arithmetic .minus, arithmetic .times,
   arithmetic .divide, arithmetic .remainder, negate, not, equal, notEqual, less, lessOrEqual,
   greater, greaterOrEqual, answer, finish, missingAnswer, createCursor, clearBatch, addToBatch]

/-- The instructions that take an index as their only operand, for one index. -/
def indexed (index : Nat) : List Op :=
  [const index, loadLocal index, storeLocal index, loadField index, storeField index, jump index,
   jumpIfFalse index, jumpIfTrue index, getter index, newRow index]

end Op

end QueryFusion.Script
