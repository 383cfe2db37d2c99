import QueryFusion.Script.Code
import QueryFusion.Script.Parser
import QueryFusion.Symbol

/-!
# From syntax trees to code

One pass checks the types of a unit and writes its code. A unit is accepted only if it has the
requested name and the right base, imports every name of the engine that it uses, has one
constructor that names its plan nodes, and has exactly the routines `prepare`, `setup` and
`advance`.

Code is composed from the code of the parts: each part is told the index of its first instruction,
so that jumps are known as soon as the parts are. Only the end of a loop is not known inside it;
there a mark stands for the jump.
-/

namespace QueryFusion.Script

/-- What all routines of a unit see. -/
structure UnitScope where
  imports : List String
  fields : List FieldInfo
  deriving Inhabited

/-- Constants and names that the routines of a unit share. -/
structure Pools where
  constants : List Slot
  names : List String
  deriving Inhabited

/-- The locals of a routine. -/
structure Locals where
  /-- Visible locals with their numbers, the latest first. -/
  visible : List (String × Nat)
  /-- The types of all locals declared so far, by number. -/
  types : List Ty
  deriving DecidableEq, Inhabited

/-- Number and type of a visible local. -/
def Locals.find? (locals : Locals) (name : String) : Option (Nat × Ty) :=
  match locals.visible.find? fun entry => entry.1 == name with
  | some (_, number) => (locals.types[number]?).map fun type => (number, type)
  | none => none

/-- Declares a local; no visible local may have the name already. -/
def Locals.declare (locals : Locals) (name : String) (type : Ty) (position : Position) :
    Except Diagnostic (Nat × Locals) :=
  if (locals.find? name).isSome then .error ⟨"duplicate local '" ++ name ++ "'", position⟩
  else
    .ok (locals.types.length,
      ⟨(name, locals.types.length) :: locals.visible, locals.types ++ [type]⟩)

namespace UnitScope

/-- Fails when a name of the engine is used without its module. -/
def requireImport (scope : UnitScope) (name : String) (position : Position) :
    Except Diagnostic Unit :=
  match Symbol.moduleOf? name with
  | some moduleName =>
    if scope.imports.contains moduleName then .ok ()
    else .error ⟨name ++ " requires 'import " ++ moduleName ++ ";'", position⟩
  | none => .ok ()

/-- The type that is written. -/
def resolve (scope : UnitScope) (written : TypeName) : Except Diagnostic Ty :=
  match Ty.resolve? written.name written.argument with
  | none => .error ⟨"unknown type " ++ written.text, written.position⟩
  | some type => do
    scope.requireImport written.name written.position
    match type, written.argument with
    | .list _, some argument => do
      scope.requireImport argument written.position
      .ok type
    | _, _ => .ok type

/-- Number and type of a field. -/
def field? (scope : UnitScope) (name : String) : Option (Nat × Ty) :=
  match scope.fields.findIdx? fun field => field.name == name with
  | some index => (scope.fields[index]?).map fun field => (index, field.type)
  | none => none

end UnitScope

namespace Pools

/-- Adds a constant and gives its number. -/
def addConstant (pools : Pools) (constant : Slot) : Nat × Pools :=
  (pools.constants.length, { pools with constants := pools.constants ++ [constant] })

/-- The number of a name, which is added unless it is there. -/
def addName (pools : Pools) (name : String) : Nat × Pools :=
  match pools.names.findIdx? fun other => other == name with
  | some index => (index, pools)
  | none => (pools.names.length, { pools with names := pools.names ++ [name] })

end Pools

/-! ## Expressions -/

/-- The code of an expression, with its type. -/
structure Lowered where
  type : Ty
  ops : List Op
  pools : Pools
  deriving Inhabited

/-- Fails unless a member of one type may stand where another is expected. -/
def expectAssignable (actual expected : Ty) (position : Position) : Except Diagnostic Unit :=
  if actual.isAssignableTo expected then .ok ()
  else .error ⟨"cannot assign " ++ actual.text ++ " to " ++ expected.text, position⟩

/-- Fails unless a type is the expected one. -/
def expectType (actual expected : Ty) (position : Position) : Except Diagnostic Unit :=
  if actual = expected then .ok ()
  else .error ⟨"expected " ++ expected.text ++ ", found " ++ actual.text, position⟩

/-- An expression that pushes a constant. -/
def lowerConstant (pools : Pools) (constant : Slot) (type : Ty) : Lowered :=
  let added := pools.addConstant constant
  ⟨type, [.const added.1], added.2⟩

/-- The owner of a static member: a name that is no local. -/
def staticOwner? (locals : Locals) : Term → Option String
  | .name _ name => if (locals.find? name).isNone then some name else none
  | _ => none

/-- The instruction of a binary operator on two types, and the type of its result; the logical
operators have code of their own. -/
def binaryOp? (op : BinaryOp) (left right : Ty) : Option (Op × Ty) :=
  let ordered (instruction : Op) : Option (Op × Ty) :=
    if left = right ∧ left.isOrderable then some (instruction, .boolean) else none
  let numeric (operator : ArithmeticOp) : Option (Op × Ty) :=
    if left = right ∧ left.isNumeric then some (.arithmetic operator, left) else none
  match op with
  | .or | .and => none
  | .equal => if left.isEquatableWith right then some (.equal, .boolean) else none
  | .notEqual => if left.isEquatableWith right then some (.notEqual, .boolean) else none
  | .less => ordered .less
  | .lessOrEqual => ordered .lessOrEqual
  | .greater => ordered .greater
  | .greaterOrEqual => ordered .greaterOrEqual
  | .add => numeric .plus
  | .subtract => numeric .minus
  | .multiply => numeric .times
  | .divide => numeric .divide
  | .remainder => numeric .remainder

/-- The instruction of a cast between two types; some casts need none. -/
def castOps (source target : Ty) : List Op :=
  if source = target ∨ source = .null then []
  else
    match target with
    | .specificExecutor kind => [.cast (.executor kind)]
    | .object className => [.cast (.object className)]
    | other =>
      match other.dataType? with
      | some type => [.cast (.scalar type)]
      | none => []

/-- The methods of a type: instruction, parameters and result. -/
def methodOf? (target : Ty) (name : String) : Option (Method × List Ty × Ty) :=
  match target, name with
  | .executor, "id" => some (.executorId, [], .int)
  | .specificExecutor _, "id" => some (.executorId, [], .int)
  | .specificExecutor .scan, "map" => some (.scanMap, [], .map)
  | .specificExecutor .scan, "partitions" => some (.scanPartitions, [], .partitions)
  | .specificExecutor .scan, "keyDescriptor" => some (.scanKeyShape, [], .shape)
  | .specificExecutor .scan, "valueDescriptor" => some (.scanValueShape, [], .shape)
  | .specificExecutor .scan, "fieldPaths" => some (.scanPaths, [], .list .path)
  | .specificExecutor .scan, "fieldTypes" => some (.scanTypes, [], .list .dataType)
  | .specificExecutor .scan, "projects" => some (.scanProjects, [], .list .int)
  | .specificExecutor .scan, "filter" => some (.scanFilter, [], .expression)
  | .specificExecutor .filter, "condition" => some (.filterCondition, [], .expression)
  | .specificExecutor .project, "projects" => some (.projectExpressions, [], .list .expression)
  | .list element, "get" => some (.listGet, [.int], element.itemType)
  | .list _, "size" => some (.listSize, [], .int)
  | .cursor, "tryAdvance" => some (.cursorAdvance, [], .boolean)
  | .cursor, "key" => some (.cursorKey, [], .value)
  | .cursor, "value" => some (.cursorValue, [], .value)
  | .expression, "eval" => some (.eval, [.row], .value)
  | .row, "get" => some (.rowGet, [.int], .value)
  | .row, "size" => some (.rowSize, [], .int)
  | _, _ => none

/-- The constant of a static member. -/
def lowerStaticMember (scope : UnitScope) (pools : Pools) (owner name : String)
    (ownerPosition position : Position) : Except Diagnostic Lowered :=
  if owner = "IterationResult" then do
    scope.requireImport owner ownerPosition
    if name = "FETCHED" then .ok (lowerConstant pools (.progress .fetched) .progress)
    else if name = "FETCHED_DONE" then .ok (lowerConstant pools (.progress .finished) .progress)
    else .error ⟨"unknown member " ++ owner ++ "." ++ name, position⟩
  else .error ⟨"unknown identifier '" ++ owner ++ "'", ownerPosition⟩

/-- Fails unless the number of arguments is right. -/
def expectArity (method : String) (expected given : Nat) (position : Position) :
    Except Diagnostic Unit :=
  if given = expected then .ok ()
  else
    .error ⟨method ++ " takes " ++ toString expected ++ " argument(s), " ++ toString given ++
      " given", position⟩

/-- The error of a method that a type does not have. -/
def unknownMethod (owner method : String) (position : Position) : Diagnostic :=
  ⟨"unknown method " ++ owner ++ "." ++ method ++ "()", position⟩

mutual

/-- The code of an expression whose first instruction has the index `start`. -/
def lowerTerm (scope : UnitScope) (locals : Locals) (start : Nat) (pools : Pools) :
    Term → Except Diagnostic Lowered
  | .int _ number => .ok (lowerConstant pools (.value (.int number)) .int)
  | .bigInt _ number => .ok (lowerConstant pools (.value (.bigInt number)) .bigInt)
  | .double _ number => .ok (lowerConstant pools (.value (.double number)) .double)
  | .text _ content => .ok (lowerConstant pools (.value (.varchar content)) .varchar)
  | .boolean _ truth => .ok ⟨.boolean, [if truth then .pushTrue else .pushFalse], pools⟩
  | .null _ => .ok ⟨.null, [.pushNull], pools⟩
  | .ints _ numbers => .ok (lowerConstant pools (.ints numbers) .intArray)
  | .name position name =>
    match locals.find? name with
    | some (number, type) => .ok ⟨type, [.loadLocal number], pools⟩
    | none => .error ⟨"unknown identifier '" ++ name ++ "'", position⟩
  | .this position => .error ⟨"'this' is not a value", position⟩
  | .not _ operand => do
    let inner ← lowerTerm scope locals start pools operand
    expectType inner.type .boolean operand.position
    .ok ⟨inner.type, inner.ops ++ [Op.not], inner.pools⟩
  | .negate position operand => do
    let inner ← lowerTerm scope locals start pools operand
    if inner.type.isNumeric then .ok ⟨inner.type, inner.ops ++ [Op.negate], inner.pools⟩
    else .error ⟨"cannot negate " ++ inner.type.text, position⟩
  | .binary position op left right =>
    match op with
    | .and | .or => do
      let first ← lowerTerm scope locals start pools left
      expectType first.type .boolean left.position
      let second ← lowerTerm scope locals (start + first.ops.length + 1) first.pools right
      expectType second.type .boolean right.position
      let shortcut := start + first.ops.length + 1 + second.ops.length + 1
      let test : Op := if op = .and then .jumpIfFalse shortcut else .jumpIfTrue shortcut
      let decided : Op := if op = .and then .pushFalse else .pushTrue
      .ok ⟨.boolean, first.ops ++ [test] ++ second.ops ++ [Op.jump (shortcut + 1), decided],
        second.pools⟩
    | _ => do
      let first ← lowerTerm scope locals start pools left
      let second ← lowerTerm scope locals (start + first.ops.length) first.pools right
      match binaryOp? op first.type second.type with
      | some (instruction, type) =>
        .ok ⟨type, first.ops ++ second.ops ++ [instruction], second.pools⟩
      | none =>
        .error ⟨"operator " ++ op.symbol ++ " cannot be applied to " ++ first.type.text ++
          " and " ++ second.type.text, position⟩
  | .conditional position condition thenValue elseValue => do
    let test ← lowerTerm scope locals start pools condition
    expectType test.type .boolean condition.position
    let thenStart := start + test.ops.length + 1
    let first ← lowerTerm scope locals thenStart test.pools thenValue
    let elseStart := thenStart + first.ops.length + 1
    let second ← lowerTerm scope locals elseStart first.pools elseValue
    match first.type.unify? second.type with
    | some type =>
      .ok ⟨type, test.ops ++ [Op.jumpIfFalse elseStart] ++ first.ops ++
        [Op.jump (elseStart + second.ops.length)] ++ second.ops, second.pools⟩
    | none =>
      .error ⟨"branches have incompatible types " ++ first.type.text ++ " and " ++ second.type.text,
        position⟩
  | .member position target name =>
    if target.isThis then
      match scope.field? name with
      | some (index, type) => .ok ⟨type, [.loadField index], pools⟩
      | none => .error ⟨"unknown field '" ++ name ++ "'", position⟩
    else
      match staticOwner? locals target with
      | some owner => lowerStaticMember scope pools owner name target.position position
      | none => .error ⟨"unknown member '" ++ name ++ "'", position⟩
  | .call position target method arguments =>
    if target.isThis then
      if method = "clearBatch" then do
        expectArity method 0 arguments.length position
        .ok ⟨.void, [.clearBatch], pools⟩
      else if method = "addToBatch" then do
        expectArity method 1 arguments.length position
        let inner ← lowerArguments scope locals start pools arguments [.row]
        .ok ⟨.boolean, inner.1 ++ [Op.addToBatch], inner.2⟩
      else .error (unknownMethod "this" method position)
    else
      match staticOwner? locals target with
      | some owner => do
        scope.requireImport owner target.position
        if owner = "HeapRow" ∧ method = "of" then do
          let inner ← lowerRowValues scope locals start pools arguments
          .ok ⟨.row, inner.1 ++ [Op.newRow arguments.length], inner.2⟩
        else if owner = "MapScanUtils" ∧ method = "createIterator" then do
          expectArity method 2 arguments.length position
          let inner ← lowerArguments scope locals start pools arguments [.map, .partitions]
          .ok ⟨.cursor, inner.1 ++ [Op.createCursor], inner.2⟩
        else .error ⟨"unknown static method " ++ owner ++ "." ++ method ++ "()", position⟩
      | none => do
        let receiver ← lowerTerm scope locals start pools target
        match receiver.type with
        | .object _ =>
          match fieldOfGetter? method with
          | some field =>
            if arguments.isEmpty then
              let added := receiver.pools.addName field
              .ok ⟨.value, receiver.ops ++ [Op.getter added.1], added.2⟩
            else .error (unknownMethod receiver.type.text method position)
          | none => .error (unknownMethod receiver.type.text method position)
        | _ =>
          match methodOf? receiver.type method with
          | none => .error (unknownMethod receiver.type.text method position)
          | some (instruction, params, result) => do
            expectArity method params.length arguments.length position
            let inner ← lowerArguments scope locals (start + receiver.ops.length) receiver.pools
              arguments params
            .ok ⟨result, receiver.ops ++ inner.1 ++ [Op.call instruction arguments.length], inner.2⟩
  | .cast position operand written => do
    let target ← scope.resolve written
    let inner ← lowerTerm scope locals start pools operand
    if target.isCastableFrom inner.type then
      .ok ⟨target, inner.ops ++ castOps inner.type target, inner.pools⟩
    else .error ⟨"cannot cast " ++ inner.type.text ++ " to " ++ target.text, position⟩

/-- The code of arguments of given parameter types. -/
def lowerArguments (scope : UnitScope) (locals : Locals) (start : Nat) (pools : Pools) :
    List Term → List Ty → Except Diagnostic (List Op × Pools)
  | argument :: rest, param :: params => do
    let first ← lowerTerm scope locals start pools argument
    expectAssignable first.type param argument.position
    let others ← lowerArguments scope locals (start + first.ops.length) first.pools rest params
    .ok (first.ops ++ others.1, others.2)
  | _, _ => .ok ([], pools)

/-- The code of the values of a row. -/
def lowerRowValues (scope : UnitScope) (locals : Locals) (start : Nat) (pools : Pools) :
    List Term → Except Diagnostic (List Op × Pools)
  | [] => .ok ([], pools)
  | argument :: rest => do
    let first ← lowerTerm scope locals start pools argument
    if first.type.isValueType then do
      let others ← lowerRowValues scope locals (start + first.ops.length) first.pools rest
      .ok (first.ops ++ others.1, others.2)
    else .error ⟨"row values must be values, found " ++ first.type.text, argument.position⟩

end

/-- The code of a condition. -/
def lowerCondition (scope : UnitScope) (locals : Locals) (start : Nat) (pools : Pools)
    (condition : Term) : Except Diagnostic Lowered := do
  let test ← lowerTerm scope locals start pools condition
  expectType test.type .boolean condition.position
  .ok test

/-! ## Statements -/

/-- An instruction, or a jump to the end of the innermost loop. -/
inductive Piece
  | op (op : Op)
  | leave
  deriving DecidableEq, Inhabited

/-- Puts the end of the loop in place of its marks. -/
def Piece.close (loopEnd : Nat) : Piece → Piece
  | leave => .op (.jump loopEnd)
  | op instruction => .op instruction

/-- The instruction itself; outside of loops there are no marks. -/
def Piece.instruction : Piece → Op
  | op instruction => instruction
  | leave => .jump 0

/-- The code of statements, with the locals behind them. -/
structure LoweredBlock where
  pieces : List Piece
  locals : Locals
  pools : Pools
  deriving Inhabited

/-- What a statement sees of its routine. -/
structure RoutineScope where
  unit : UnitScope
  returnType : Ty
  /-- The first instruction of the innermost loop. -/
  loopStart : Option Nat
  deriving Inhabited

/-- The code of an expression as pieces. -/
def Lowered.pieces (lowered : Lowered) : List Piece :=
  lowered.ops.map .op

mutual

/-- The code of a statement whose first instruction has the index `start`. -/
def lowerStmt (scope : RoutineScope) (start : Nat) (locals : Locals) (pools : Pools) :
    Stmt → Except Diagnostic LoweredBlock
  | .declare position name written value => do
    let declared ← scope.unit.resolve written
    let inner ← lowerTerm scope.unit locals start pools value
    expectAssignable inner.type declared value.position
    let added ← locals.declare name declared position
    .ok ⟨inner.pieces ++ [Piece.op (.storeLocal added.1)], added.2, inner.pools⟩
  | .setField position field value =>
    match scope.unit.field? field with
    | none => .error ⟨"unknown field '" ++ field ++ "'", position⟩
    | some (index, declared) => do
      let inner ← lowerTerm scope.unit locals start pools value
      expectAssignable inner.type declared value.position
      .ok ⟨inner.pieces ++ [Piece.op (.storeField index)], locals, inner.pools⟩
  | .setLocal position name value =>
    match locals.find? name with
    | none => .error ⟨"unknown local '" ++ name ++ "'", position⟩
    | some (number, declared) => do
      let inner ← lowerTerm scope.unit locals start pools value
      expectAssignable inner.type declared value.position
      .ok ⟨inner.pieces ++ [Piece.op (.storeLocal number)], locals, inner.pools⟩
  | .branch _ condition thenBlock => do
    let test ← lowerCondition scope.unit locals start pools condition
    let thenStart := start + test.ops.length + 1
    let first ← lowerStmts scope thenStart locals test.pools thenBlock
    .ok ⟨test.pieces ++ [Piece.op (.jumpIfFalse (thenStart + first.pieces.length))] ++ first.pieces,
      ⟨locals.visible, first.locals.types⟩, first.pools⟩
  | .choose _ condition thenBlock elseBlock => do
    let test ← lowerCondition scope.unit locals start pools condition
    let thenStart := start + test.ops.length + 1
    let first ← lowerStmts scope thenStart locals test.pools thenBlock
    let elseStart := thenStart + first.pieces.length + 1
    let second ← lowerStmts scope elseStart ⟨locals.visible, first.locals.types⟩ first.pools
      elseBlock
    .ok ⟨test.pieces ++ [Piece.op (.jumpIfFalse elseStart)] ++ first.pieces ++
      [Piece.op (.jump (elseStart + second.pieces.length))] ++ second.pieces,
      ⟨locals.visible, second.locals.types⟩, second.pools⟩
  | .loop _ condition body => do
    let test ← lowerCondition scope.unit locals start pools condition
    let bodyStart := start + test.ops.length + 1
    let inner ← lowerStmts { scope with loopStart := some start } bodyStart locals test.pools body
    let loopEnd := bodyStart + inner.pieces.length + 1
    .ok ⟨test.pieces ++ [Piece.op (.jumpIfFalse loopEnd)] ++ inner.pieces.map
      (Piece.close loopEnd) ++
      [Piece.op (.jump start)], ⟨locals.visible, inner.locals.types⟩, inner.pools⟩
  | .proceed position =>
    match scope.loopStart with
    | some loopStart => .ok ⟨[.op (.jump loopStart)], locals, pools⟩
    | none => .error ⟨"continue outside of a loop", position⟩
  | .leave position =>
    match scope.loopStart with
    | some _ => .ok ⟨[.leave], locals, pools⟩
    | none => .error ⟨"break outside of a loop", position⟩
  | .finish position =>
    if scope.returnType = .void then .ok ⟨[.op .finish], locals, pools⟩
    else .error ⟨"missing return value of type " ++ scope.returnType.text, position⟩
  | .answer _ value =>
    if scope.returnType = .void then
      .error ⟨"routine does not return a value", value.position⟩
    else do
      let inner ← lowerTerm scope.unit locals start pools value
      expectAssignable inner.type scope.returnType value.position
      .ok ⟨inner.pieces ++ [Piece.op .answer], locals, inner.pools⟩
  | .construct position _ => .error ⟨"super call outside of the constructor", position⟩
  | .perform _ value =>
    if value.isCall then do
      let inner ← lowerTerm scope.unit locals start pools value
      .ok ⟨inner.pieces ++ (if inner.type = .void then [] else [.op .pop]), locals, inner.pools⟩
    else .error ⟨"expression statement must be a call", value.position⟩

/-- The code of statements one after another. -/
def lowerStmts (scope : RoutineScope) (start : Nat) (locals : Locals) (pools : Pools) :
    List Stmt → Except Diagnostic LoweredBlock
  | [] => .ok ⟨[], locals, pools⟩
  | statement :: rest => do
    let first ← lowerStmt scope start locals pools statement
    let others ← lowerStmts scope (start + first.pieces.length) first.locals first.pools rest
    .ok ⟨first.pieces ++ others.pieces, others.locals, others.pools⟩

end

mutual

/-- Every path through a statement ends the routine. -/
def Stmt.ends : Stmt → Bool
  | .finish _ | .answer _ _ => true
  | .choose _ _ thenBlock elseBlock => blockEnds thenBlock && blockEnds elseBlock
  | _ => false

/-- Every path through a block ends the routine: its last statement does. -/
def blockEnds : List Stmt → Bool
  | [] => false
  | [last] => last.ends
  | _ :: rest => blockEnds rest

end

/-! ## Units -/

/-- A routine that a unit must have: its parameters and its result. -/
structure Signature where
  name : String
  params : List (String × Ty)
  result : Ty

/-- The routines of a unit. -/
def signatures : List Signature :=
  [⟨"prepare", [("exec", .executor)], .void⟩, ⟨"setup", [("ctx", .context)], .void⟩,
   ⟨"advance", [], .progress⟩]

/-- Declares the parameters of a routine, which must be the expected ones. -/
def lowerParams (scope : UnitScope) (locals : Locals) :
    List Param → List (String × Ty) → Except Diagnostic Locals
  | param :: params, (name, type) :: expected => do
    let declared ← scope.resolve param.type
    if declared = type ∧ param.name = name then do
      let added ← locals.declare name type param.position
      lowerParams scope added.2 params expected
    else
      .error ⟨"expected parameter '" ++ name ++ ": " ++ type.text ++ "', found '" ++ param.name ++
        ": " ++ declared.text ++ "'", param.position⟩
  | _, _ => .ok locals

/-- The code of a routine. -/
def lowerRoutine (scope : UnitScope) (pools : Pools) (decl : RoutineDecl) (signature : Signature) :
    Except Diagnostic (Routine × Pools) := do
  let declaredResult ←
    match decl.returnType with
    | some written => scope.resolve written
    | none => .ok .void
  if declaredResult ≠ signature.result then
    .error ⟨"routine '" ++ decl.name ++ "' must return " ++ signature.result.text ++
      ", declared " ++ declaredResult.text, decl.position⟩
  else if decl.params.length ≠ signature.params.length then
    .error ⟨"routine '" ++ decl.name ++ "' takes " ++ toString signature.params.length ++
      " parameter(s), declared " ++ toString decl.params.length, decl.position⟩
  else do
    let locals ← lowerParams scope ⟨[], []⟩ decl.params signature.params
    let body ← lowerStmts ⟨scope, signature.result, none⟩ 0 locals pools decl.body
    let ops := body.pieces.map Piece.instruction
    let routine (last : Op) : Routine :=
      ⟨decl.name, ops ++ [last], decl.params.length, body.locals.types.length⟩
    if signature.result = .void then .ok (routine .finish, body.pools)
    else if blockEnds decl.body then .ok (routine .missingAnswer, body.pools)
    else
      .error ⟨"routine '" ++ decl.name ++ "' may end without returning a value", decl.position⟩

/-- Checks imports: known modules, each once. -/
def checkImports (seen : List String) : List Import → Except Diagnostic (List String)
  | [] => .ok seen
  | entry :: rest =>
    if ¬Symbol.modules.contains entry.moduleName then
      .error ⟨"unknown module " ++ entry.moduleName, entry.position⟩
    else if seen.contains entry.moduleName then
      .error ⟨"duplicate import " ++ entry.moduleName, entry.position⟩
    else checkImports (entry.moduleName :: seen) rest

/-- Declares fields, no two of one name. -/
def lowerFields (scope : UnitScope) : List FieldDecl → Except Diagnostic UnitScope
  | [] => .ok scope
  | field :: rest => do
    let type ← scope.resolve field.type
    if (scope.field? field.name).isSome then
      .error ⟨"duplicate field '" ++ field.name ++ "'", field.position⟩
    else lowerFields { scope with fields := scope.fields ++ [⟨field.name, type⟩] } rest

/-- The first number that stands in a list twice, at its second place. -/
def firstRepeated? (seen : List Int32) : List Int32 → Option Int32
  | [] => none
  | number :: rest =>
    if seen.contains number then some number else firstRepeated? (number :: seen) rest

/-- The plan nodes named by the only constructor, which calls that of the base and does nothing
else. -/
def checkConstructor (decl : UnitDecl) : Except Diagnostic (Int32 × List Int32) :=
  match decl.constructors with
  | [] => .error ⟨"missing constructor", decl.position⟩
  | _ :: second :: _ => .error ⟨"duplicate constructor", second.position⟩
  | [only] =>
    match only.body with
    | [.construct position [.int _ primary, .ints _ subsumed]] =>
      match firstRepeated? [] subsumed with
      | some number => .error ⟨"node " ++ toString number.toInt ++ " subsumed twice", position⟩
      | none =>
        if subsumed.contains primary then .ok (primary, subsumed)
        else
          .error ⟨"primary node " ++ toString primary.toInt ++ " is not in the subsumed list",
            position⟩
    | [.construct position _] =>
      .error ⟨"super call takes an Int literal and an Int array literal", position⟩
    | [other] => .error ⟨"expected super call", other.position⟩
    | _ => .error ⟨"constructor must consist of a single super call", only.position⟩

/-- The code of the routines, by name. -/
def lowerRoutines (scope : UnitScope) (pools : Pools) (done : List Routine) :
    List RoutineDecl → Except Diagnostic (List Routine × Pools)
  | [] => .ok (done, pools)
  | decl :: rest =>
    match signatures.find? fun signature => signature.name == decl.name with
    | none => .error ⟨"unexpected routine '" ++ decl.name ++ "'", decl.position⟩
    | some signature =>
      if done.any fun routine => routine.name == decl.name then
        .error ⟨"duplicate routine '" ++ decl.name ++ "'", decl.position⟩
      else do
        let (routine, next) ← lowerRoutine scope pools decl signature
        lowerRoutines scope next (done ++ [routine]) rest

/-- The routine of a name that must be there. -/
def requireRoutine (routines : List Routine) (name : String) (position : Position) :
    Except Diagnostic Routine :=
  match routines.find? fun routine => routine.name == name with
  | some routine => .ok routine
  | none => .error ⟨"missing routine '" ++ name ++ "'", position⟩

/-- The code of a source unit that must have the requested name. -/
def lowerUnit (source : SourceUnit) (qualifiedName : String) : Except Diagnostic CompiledUnit := do
  let decl := source.unit
  let declared := source.moduleName ++ "." ++ decl.name
  if declared ≠ qualifiedName then
    .error ⟨"unit declares " ++ declared ++ " but " ++ qualifiedName ++ " was requested",
      decl.position⟩
  else do
    let imports ← checkImports [] source.imports
    let start : UnitScope := ⟨imports, []⟩
    if decl.base ≠ Symbol.baseUnit then
      .error ⟨"unit must extend " ++ Symbol.baseUnit ++ ", not " ++ decl.base, decl.position⟩
    else do
      start.requireImport decl.base decl.position
      let scope ← lowerFields start decl.fields
      let (primaryId, subsumedIds) ← checkConstructor decl
      let (routines, pools) ← lowerRoutines scope ⟨[], []⟩ [] decl.routines
      let prepare ← requireRoutine routines "prepare" decl.position
      let setup ← requireRoutine routines "setup" decl.position
      let advance ← requireRoutine routines "advance" decl.position
      .ok { name := decl.name, qualifiedName := qualifiedName, primaryId := primaryId,
            subsumedIds := subsumedIds, fields := scope.fields, constants := pools.constants,
            names := pools.names, prepare := prepare, setup := setup, advance := advance }

/-- Compiles a source text to the unit of the requested name. -/
def compile (source qualifiedName : String) : Except Error CompiledUnit :=
  match parse source with
  | .error diagnostic => .error (diagnostic.toError qualifiedName source)
  | .ok tree =>
    match lowerUnit tree qualifiedName with
    | .error diagnostic => .error (diagnostic.toError qualifiedName source)
    | .ok unit => .ok unit

end QueryFusion.Script
