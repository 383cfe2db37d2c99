import QueryFusion.Executor.Feed
import QueryFusion.Script.Listing

/-!
# The stack machine

Runs the routines of a compiled unit. Arithmetic, comparison, conversion and field access are those
of interpreted expressions, so both raise the same errors. A run that fails keeps what it has done
to the memory of the unit so far; its locals and its stack are gone.
-/

namespace QueryFusion.Script

/-- What an instance of a unit keeps between two runs. -/
structure Memory where
  fields : List Slot
  batch : RowBatch
  /-- The cursors made so far; slots name them by number. -/
  cursors : List Cursor
  deriving Inhabited

/-- The memory of a new instance. -/
def Memory.start (unit : CompiledUnit) (batchSize : Nat) : Memory :=
  ⟨List.replicate unit.fields.length .unset, .empty batchSize, []⟩

/-- The state of one run. The top of the stack is its first entry. -/
structure Frame where
  /-- Index of the next instruction. -/
  counter : Nat
  locals : List Slot
  stack : List Slot
  deriving Inhabited

/-- The frame with another stack. -/
def Frame.withStack (frame : Frame) (stack : List Slot) : Frame :=
  { frame with stack := stack }

/-! ## Operands -/

/-- The error of a stack that holds too little. -/
def stackUnderflow : Error :=
  .internal "stack underflow"

/-- The top of a stack, and the rest. -/
def pop : List Slot → Except Error (Slot × List Slot)
  | [] => .error stackUnderflow
  | top :: rest => .ok (top, rest)

/-- The topmost slots in the order in which they were pushed, and the rest. -/
def popMany (count : Nat) (stack : List Slot) : Except Error (List Slot × List Slot) :=
  if stack.length < count then .error stackUnderflow
  else .ok ((stack.take count).reverse, stack.drop count)

/-- The value in a slot. -/
def Slot.toValue : Slot → Except Error Value
  | value content => .ok content
  | other => .error (.internal ("expected a value, found " ++ other.kindName))

/-- The value on top of a stack, and the rest. -/
def popValue (stack : List Slot) : Except Error (Value × List Slot) := do
  let (top, rest) ← pop stack
  let value ← top.toValue
  .ok (value, rest)

/-- The truth value on top of a stack, and the rest. -/
def popTruth (what : String) (stack : List Slot) : Except Error (Bool × List Slot) := do
  let (value, rest) ← popValue stack
  match value with
  | .boolean truth => .ok (truth, rest)
  | .null => .error (.nullOperand what)
  | other => .error (.typeMismatch "BOOLEAN" other.dataType.text)

/-- The slot of a truth value. -/
def Slot.truth (truth : Bool) : Slot :=
  .value (.boolean truth)

/-- The error of an operation on slots that it is not made for: null is refused as such. -/
def misapplied (slots : List Slot) (what : String) : Error :=
  if slots.any Slot.isNull then .nullOperand what
  else
    .internal (what ++ " applied to " ++ String.intercalate ", " (slots.map Slot.kindName))

/-! ## Equality and casts -/

/-- Equality of two slots: null equals null only, and values of two types are unequal. -/
def Slot.equal (left right : Slot) : Except Error Bool :=
  if left.isNull && right.isNull then .ok true
  else if left.isNull || right.isNull then .ok false
  else
    match left, right with
    | .value leftValue, .value rightValue =>
      if leftValue.dataType = rightValue.dataType then Comparison.equal.apply leftValue rightValue
      else .ok false
    | .progress leftState, .progress rightState => .ok (leftState == rightState)
    | _, _ =>
      .error (.internal ("cannot compare " ++ left.kindName ++ " with " ++ right.kindName))

/-- Casts a slot. Scalars are converted, objects and executors are only checked. -/
def CastTarget.apply (target : CastTarget) (slot : Slot) : Except Error Slot :=
  match target, slot with
  | .scalar type, .value value => do
    let converted ← type.convert value
    .ok (.value converted)
  | .object (some className), .value value => do
    value.expectClass className
    .ok slot
  | .object none, .value value =>
    if value.isNull || value.asObject?.isSome then .ok slot
    else .error (.typeMismatch DataType.object.text value.dataType.text)
  | .executor kind, .handle (.executor id state) =>
    if state.kindName = kind.name then .ok slot
    else
      .error (.binding ("executor " ++ id.text ++ " is a " ++ state.kindName ++ ", not a " ++
        kind.name))
  | .executor _, .value .null => .ok slot
  | _, _ => .error (.internal ("cannot cast " ++ slot.kindName ++ " to " ++ target.text))

/-! ## Methods -/

/-- The first argument of a method, which must be an integer. -/
def integerArgument (what : String) : List Slot → Except Error Int32
  | .value (.int number) :: _ => .ok number
  | .value .null :: _ => .error (.nullOperand what)
  | _ => .error (.internal (what ++ " expects an Int argument"))

/-- The item of a list at an index. An index below zero is reported as zero. -/
def itemAt {α : Type} (items : List α) (index : Int32) : Except Error α :=
  match (if index < 0 then none else items[index.toInt.toNat]?) with
  | some item => .ok item
  | none => .error (.columnOutOfBounds index.toInt.toNat items.length)

/-- The integer slot of a count or index. -/
def integerSlot (what : String) (number : Nat) : Except Error Slot :=
  match int32? number with
  | some integer => .ok (.value (.int integer))
  | none => .error (.arithmeticOverflow (what ++ " " ++ toString number ++ " exceeds INT"))

/-- What a method reads from a scan. -/
def scanPart? (scan : ScanState) : Method → Option Slot
  | .scanMap => some (.handle (.map scan.map))
  | .scanPartitions => some (.handle (.partitions scan.partitions))
  | .scanKeyShape => some (.handle (.shape scan.keyShape))
  | .scanValueShape => some (.handle (.shape scan.valueShape))
  | .scanPaths => some (.handle (.paths scan.paths))
  | .scanTypes => some (.handle (.types scan.types))
  | .scanProjects => some (.handle (.indexes scan.projects))
  | .scanFilter =>
    match scan.filter with
    | some filter => some (.handle (.expression filter))
    | none => some (.value .null)
  | _ => none

/-- An item of a list of the engine. -/
def listItem (list : Handle) (index : Int32) : Except Error Slot :=
  match list with
  | .paths items => do
    let item ← itemAt items index
    .ok (.handle (.path item))
  | .types items => do
    let item ← itemAt items index
    .ok (.handle (.dataType item))
  | .indexes items => do
    let item ← itemAt items index
    integerSlot "index" item
  | .expressions items => do
    let item ← itemAt items index
    .ok (.handle (.expression item))
  | other => .error (misapplied [.handle other] Method.listGet.name)

/-- The size of a list of the engine. -/
def listSize : Handle → Except Error Slot
  | .paths items => integerSlot "size" items.length
  | .types items => integerSlot "size" items.length
  | .indexes items => integerSlot "size" items.length
  | .expressions items => integerSlot "size" items.length
  | other => .error (misapplied [.handle other] Method.listSize.name)

/-- The value of an expression on the row that a method is given. -/
def evalArgument (expression : Expr) : List Slot → Except Error Slot
  | .row row :: _ => do
    let value ← expression.eval row
    .ok (.value value)
  | other :: _ => .error (misapplied [other] Method.eval.name)
  | [] => .error (.internal "eval expects a row")

/-- Calls a method; only a cursor changes by a call. -/
def invoke (cursors : List Cursor) (method : Method) (receiver : Slot) (arguments : List Slot) :
    Except Error (Slot × List Cursor) :=
  let unchanged (outcome : Except Error Slot) : Except Error (Slot × List Cursor) := do
    let slot ← outcome
    .ok (slot, cursors)
  let refused : Except Error (Slot × List Cursor) := .error (misapplied [receiver] method.name)
  if receiver.isNull then .error (.nullOperand ("receiver of " ++ method.name ++ "()"))
  else
    match method, receiver with
    | .executorId, .handle (.executor id _) => unchanged (.ok (.value (.int id)))
    | .filterCondition, .handle (.executor _ (.filter condition)) =>
      unchanged (.ok (.handle (.expression condition)))
    | .projectExpressions, .handle (.executor _ (.project expressions)) =>
      unchanged (.ok (.handle (.expressions expressions)))
    | _, .handle (.executor _ (.scan scan)) =>
      match scanPart? scan method with
      | some slot => unchanged (.ok slot)
      | none => refused
    | .listGet, .handle list => do
      let index ← integerArgument method.name arguments
      unchanged (listItem list index)
    | .listSize, .handle list => unchanged (listSize list)
    | .cursorAdvance, .handle (.cursor number) =>
      match cursors[number]? with
      | some cursor =>
        let moved := cursor.advance
        .ok (.truth moved.1, cursors.set number moved.2)
      | none => refused
    | .cursorKey, .handle (.cursor number) =>
      match cursors[number]? with
      | some cursor => unchanged (cursor.key.map .value)
      | none => refused
    | .cursorValue, .handle (.cursor number) =>
      match cursors[number]? with
      | some cursor => unchanged (cursor.value.map .value)
      | none => refused
    | .eval, .handle (.expression expression) => unchanged (evalArgument expression arguments)
    | .rowGet, .row row => do
      let index ← integerArgument method.name arguments
      unchanged ((itemAt row index).map .value)
    | .rowSize, .row row => unchanged (integerSlot "size" row.length)
    | _, _ => refused

/-! ## Instructions -/

/-- The entry of a table at an index. -/
def entryAt {α : Type} (what : String) (table : List α) (index : Nat) : Except Error α :=
  match table[index]? with
  | some entry => .ok entry
  | none => .error (.internal (what ++ " " ++ toString index ++ " out of range"))

/-- A table with another entry at an index. -/
def setEntry (what : String) (table : List Slot) (index : Nat) (slot : Slot) :
    Except Error (List Slot) := do
  let _ ← entryAt what table index
  .ok (table.set index slot)

/-- The content of a field, which must have been set. -/
def loadField (unit : CompiledUnit) (fields : List Slot) (index : Nat) : Except Error Slot := do
  let slot ← entryAt "field" fields index
  match slot with
  | .unset =>
    let name := (unit.fields[index]?.map fun field => field.name).getD "?"
    .error (.binding ("field '" ++ name ++ "' of " ++ unit.name ++ " read before it was bound"))
  | bound => .ok bound

/-- The field of an object. -/
def readGetter (field : String) : Value → Except Error Value
  | .object _ className fields => requireField className fields field
  | .null => .error (.nullOperand ("getter for '" ++ field ++ "'"))
  | other => .error (.typeMismatch "OBJECT" other.dataType.text)

/-- The values in slots. -/
def valuesOf : List Slot → Except Error Row
  | [] => .ok []
  | slot :: rest => do
    let value ← slot.toValue
    let values ← valuesOf rest
    .ok (value :: values)

/-- What follows an instruction. -/
inductive Signal
  /-- The run goes on. -/
  | proceed (frame : Frame)
  /-- The run ends with a slot; a routine without a result ends with an unset one. -/
  | stop (result : Slot)

/-- Compares two values on the stack by their order. -/
def orderOnStack (comparison : Comparison) (stack : List Slot) : Except Error (List Slot) := do
  let (right, afterRight) ← popValue stack
  let (left, rest) ← popValue afterRight
  let outcome ← comparison.apply left right
  .ok (.truth outcome :: rest)

/-- Tests two slots on the stack for equality, or for inequality. -/
def equalityOnStack (expected : Bool) (stack : List Slot) : Except Error (List Slot) := do
  let (right, afterRight) ← pop stack
  let (left, rest) ← pop afterRight
  let outcome ← left.equal right
  .ok (.truth (outcome == expected) :: rest)

/-- The stack after an instruction that changes nothing else. Other instructions leave it alone. -/
def onStack (unit : CompiledUnit) (locals fields : List Slot) (stack : List Slot) :
    Op → Except Error (List Slot)
  | .const index => do
    let constant ← entryAt "constant" unit.constants index
    .ok (constant :: stack)
  | .pushNull => .ok (.value .null :: stack)
  | .pushTrue => .ok (.truth true :: stack)
  | .pushFalse => .ok (.truth false :: stack)
  | .loadLocal index => do
    let slot ← entryAt "local" locals index
    .ok (slot :: stack)
  | .loadField index => do
    let slot ← loadField unit fields index
    .ok (slot :: stack)
  | .pop => do
    let (_, rest) ← pop stack
    .ok rest
  | .arithmetic op => do
    let (right, afterRight) ← popValue stack
    let (left, rest) ← popValue afterRight
    let result ← op.apply left right
    .ok (.value result :: rest)
  | .negate => do
    let (operand, rest) ← popValue stack
    let result ← operand.negate
    .ok (.value result :: rest)
  | .not => do
    let (truth, rest) ← popTruth "operator !" stack
    .ok (.truth (!truth) :: rest)
  | .equal => equalityOnStack true stack
  | .notEqual => equalityOnStack false stack
  | .less => orderOnStack .less stack
  | .lessOrEqual => orderOnStack .lessOrEqual stack
  | .greater => orderOnStack .greater stack
  | .greaterOrEqual => orderOnStack .greaterOrEqual stack
  | .cast target => do
    let (operand, rest) ← pop stack
    let result ← target.apply operand
    .ok (result :: rest)
  | .getter index => do
    let field ← entryAt "name" unit.names index
    let (target, rest) ← popValue stack
    let value ← readGetter field target
    .ok (.value value :: rest)
  | .newRow size => do
    let (slots, rest) ← popMany size stack
    let values ← valuesOf slots
    .ok (.row values :: rest)
  | _ => .ok stack

/-- Executes one instruction. The counter of the frame stands behind it already. -/
def execute (unit : CompiledUnit) (routineName : String) (frame : Frame) (memory : Memory)
    (op : Op) : Except Error (Signal × Memory) :=
  match op with
  | .storeLocal index => do
    let (slot, rest) ← pop frame.stack
    let locals ← setEntry "local" frame.locals index slot
    .ok (.proceed { frame with locals := locals, stack := rest }, memory)
  | .storeField index => do
    let (slot, rest) ← pop frame.stack
    let fields ← setEntry "field" memory.fields index slot
    .ok (.proceed (frame.withStack rest), { memory with fields := fields })
  | .jump target => .ok (.proceed { frame with counter := target }, memory)
  | .jumpIfFalse target => do
    let (truth, rest) ← popTruth "condition" frame.stack
    let next := if truth then frame.counter else target
    .ok (.proceed { frame with counter := next, stack := rest }, memory)
  | .jumpIfTrue target => do
    let (truth, rest) ← popTruth "condition" frame.stack
    let next := if truth then target else frame.counter
    .ok (.proceed { frame with counter := next, stack := rest }, memory)
  | .answer => do
    let (slot, _) ← pop frame.stack
    .ok (.stop slot, memory)
  | .finish => .ok (.stop .unset, memory)
  | .missingAnswer => .error (.internal (routineName ++ " ended without returning a value"))
  | .call method count => do
    let (arguments, afterArguments) ← popMany count frame.stack
    let (receiver, rest) ← pop afterArguments
    let (slot, cursors) ← invoke memory.cursors method receiver arguments
    .ok (.proceed (frame.withStack (slot :: rest)), { memory with cursors := cursors })
  | .createCursor => do
    let (partitions, afterPartitions) ← pop frame.stack
    let (map, rest) ← pop afterPartitions
    match map, partitions with
    | .handle (.map entries), .handle (.partitions set) =>
      .ok (.proceed (frame.withStack (.handle (.cursor memory.cursors.length) :: rest)),
        { memory with cursors := memory.cursors ++ [.start entries set] })
    | _, _ => .error (misapplied [map, partitions] "MapScanUtils.createIterator")
  | .clearBatch => .ok (.proceed frame, { memory with batch := memory.batch.clear })
  | .addToBatch => do
    let (slot, rest) ← pop frame.stack
    match slot with
    | .row row =>
      let batch := memory.batch.add row
      .ok (.proceed (frame.withStack (.truth batch.hasRoom :: rest)),
        { memory with batch := batch })
    | other => .error (misapplied [other] "addToBatch")
  | plain => do
    let stack ← onStack unit frame.locals memory.fields frame.stack plain
    .ok (.proceed (frame.withStack stack), memory)

/-- Runs instruction after instruction until the routine ends. -/
def runFrom (unit : CompiledUnit) (routine : Routine) : Nat → Frame → Memory → Step Memory Slot
  | 0, _, _ => none
  | fuel + 1, frame, memory =>
    match routine.ops[frame.counter]? with
    | none =>
      some (.error (.internal (routine.name ++ " ran past its last instruction")), memory)
    | some op =>
      match execute unit routine.name { frame with counter := frame.counter + 1 } memory op with
      | .error error => some (.error error, memory)
      | .ok (.stop slot, next) => some (.ok slot, next)
      | .ok (.proceed frame, next) => runFrom unit routine fuel frame next

/-- Runs a routine on its arguments. -/
def run (unit : CompiledUnit) (routine : Routine) (fuel : Nat) (arguments : List Slot)
    (memory : Memory) : Step Memory Slot :=
  if arguments.length ≠ routine.paramCount then
    some (.error (.internal (routine.name ++ " expects " ++ toString routine.paramCount ++
      " argument(s), got " ++ toString arguments.length)), memory)
  else
    let unset := max routine.localCount routine.paramCount - arguments.length
    runFrom unit routine fuel ⟨0, arguments ++ List.replicate unset Slot.unset, []⟩ memory

end QueryFusion.Script
