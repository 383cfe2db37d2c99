import QueryFusion.Emit.Routine
import QueryFusion.Expr
import QueryFusion.Plan.Node
import QueryFusion.Script.Code

/-!
# Inlining expressions

An expression becomes a sequence of locals, one for each part, in the order in which the parts are
evaluated. Where some part has no such form, the whole expression is evaluated by the engine on the
row of its inputs instead.
-/

namespace QueryFusion.Generate

open Emit

/-- What an expression is inlined with. -/
structure Inlining where
  /-- How the names of the new locals start. -/
  stem : String
  /-- The locals of the input row, one for each column. -/
  inputs : List Local

/-- Declares the next local; locals are numbered from zero. -/
def Inlining.declare (inlining : Inlining) (type : LocalType) (value : String) (number : Nat) :
    Drafting (Local × Nat) := do
  let entry : Local := ⟨inlining.stem ++ "_" ++ toString number, type⟩
  Drafting.declare entry value
  pure (entry, number + 1)

/-- A local converted to a type; a local of that type is taken as it is. -/
def convertTo (entry : Local) (target : DataType) : Except Error String :=
  if entry.type = .scalar target then .ok entry.name
  else if entry.type.isOpaque then
    .error (.unsupported ("conversion of " ++ entry.type.name ++ " to " ++ target.text))
  else .ok (castTo entry.name (scalarTy target).text)

/-- The literal of a constant, and the type of the local that holds it. -/
def constantLiteral (value : Value) (type : DataType) : Except Error (LocalType × String) :=
  match value with
  | .null => .ok (if type = .object then .value else .scalar type, "null")
  | .boolean _ | .int _ => .ok (.scalar value.dataType, value.text)
  | .bigInt _ => .ok (.scalar .bigInt, value.text ++ "L")
  | .double number =>
    if number.isFinite then .ok (.scalar .double, Decimal.Layout.literal.render number)
    else .error (.unsupported ("double literal " ++ value.text))
  | .varchar text => .ok (.scalar .varchar, textLiteral text)
  | .object .. => .error (.unsupported "object literal")

/-- The common type of a comparison that can be inlined. -/
def inlineComparisonType? (left right : DataType) : Option DataType :=
  match DataType.comparisonType? left right with
  | some .null | some .object | none => none
  | some common => some common

/-- A binary operation that is null when an operand is. -/
def nullSafe (left right : Local) (operation : String) : String :=
  "(" ++ left.name ++ " == null || " ++ right.name ++ " == null) ? null : (" ++ operation ++ ")"

/-- Operands converted to a type, with an operator between them. -/
def joined (left right : Local) (type : DataType) (symbol : String) : Except Error String := do
  let leftText ← convertTo left type
  let rightText ← convertTo right type
  .ok (leftText ++ " " ++ symbol ++ " " ++ rightText)

/-- A logical operation: `decisive` is the value that settles it. -/
def logical (left right decisive neutral : String) : String :=
  "(" ++ left ++ " == " ++ decisive ++ " || " ++ right ++ " == " ++ decisive ++ ") ? " ++
    decisive ++ " : ((" ++ left ++ " == null || " ++ right ++ " == null) ? null : " ++
    neutral ++ ")"

namespace Inlining

/-- A local as operand of a logical operator, converted to a boolean if need be. -/
def toBoolean (inlining : Inlining) (entry : Local) (number : Nat) : Drafting (Local × Nat) :=
  if entry.type = .scalar .boolean then pure (entry, number)
  else if entry.type.isOpaque then
    throw (.unsupported ("logical operand of type " ++ entry.type.name))
  else
    inlining.declare (.scalar .boolean) (castTo entry.name Script.Ty.boolean.text) number

/-- Inlines an expression; `number` counts the locals declared for it. -/
def inline (inlining : Inlining) : Expr → Nat → Drafting (Local × Nat)
  | .column index _, number =>
    match inlining.inputs[index]? with
    | some entry => pure (entry, number)
    | none =>
      throw (.unsupported ("column " ++ toString index ++ " of a " ++
        toString inlining.inputs.length ++ "-column row"))
  | .constant value type, number => do
    let (localType, literal) ← liftExcept (constantLiteral value type)
    inlining.declare localType literal number
  | .arithmetic op left right type, number =>
    if op.divides then throw (.unsupported ("operator " ++ op.symbol))
    else if !type.isNumeric then throw (.unsupported ("arithmetic on " ++ type.text))
    else do
      let (leftLocal, afterLeft) ← inlining.inline left number
      let (rightLocal, afterRight) ← inlining.inline right afterLeft
      let operation ← liftExcept (joined leftLocal rightLocal type op.symbol)
      inlining.declare (.scalar type) (nullSafe leftLocal rightLocal operation) afterRight
  | .comparison mode left right, number =>
    match inlineComparisonType? left.dataType right.dataType with
    | none =>
      throw (.unsupported
        ("comparison of " ++ left.dataType.text ++ " and " ++ right.dataType.text))
    | some common => do
      let (leftLocal, afterLeft) ← inlining.inline left number
      let (rightLocal, afterRight) ← inlining.inline right afterLeft
      let operation ← liftExcept (joined leftLocal rightLocal common mode.symbol)
      inlining.declare (.scalar .boolean) (nullSafe leftLocal rightLocal operation) afterRight
  | .and left right, number => do
    let (plainLeft, afterLeft) ← inlining.inline left number
    let (leftLocal, beforeRight) ← inlining.toBoolean plainLeft afterLeft
    let (plainRight, afterRight) ← inlining.inline right beforeRight
    let (rightLocal, next) ← inlining.toBoolean plainRight afterRight
    inlining.declare (.scalar .boolean) (logical leftLocal.name rightLocal.name "false" "true") next
  | .or left right, number => do
    let (plainLeft, afterLeft) ← inlining.inline left number
    let (leftLocal, beforeRight) ← inlining.toBoolean plainLeft afterLeft
    let (plainRight, afterRight) ← inlining.inline right beforeRight
    let (rightLocal, next) ← inlining.toBoolean plainRight afterRight
    inlining.declare (.scalar .boolean) (logical leftLocal.name rightLocal.name "true" "false") next
  | .not operand, number => do
    let (plain, afterOperand) ← inlining.inline operand number
    let (entry, next) ← inlining.toBoolean plain afterOperand
    inlining.declare (.scalar .boolean)
      ("(" ++ entry.name ++ " == null) ? null : !" ++ entry.name) next
  | .isNull operand, number => do
    let (entry, next) ← inlining.inline operand number
    inlining.declare (.scalar .boolean) (entry.name ++ " == null") next
  | other, _ => throw (.unsupported (other.kindName ++ " expression"))

end Inlining

/-- How the locals of an expression of a node are named. -/
def stemOf (id : NodeId) (suffix : String) : String :=
  "_" ++ id.text ++ "_" ++ suffix

/-- Evaluates an expression by the engine: `source` denotes it, and it is given the row of the
inputs. -/
def emitEval (id : NodeId) (suffix : String) (inputs : List Local) (source : String) :
    Drafting Local := do
  let row : Local := ⟨stemOf id suffix ++ "_row", .row⟩
  let rowValue ← Drafting.invokeStatic "HeapRow" "of" (inputs.map Local.name)
  Drafting.declare row rowValue
  modify (RoutineDraft.useSymbol Script.Ty.expression.text)
  let result : Local := ⟨stemOf id suffix, .value⟩
  Drafting.declare result (invoke source Script.Method.eval.name [row.name])
  pure result

/-- Writes the code of an expression and hands out the local with its value. An expression that
cannot be inlined is evaluated by the engine, as if inlining had not been tried. -/
def emitExpression (id : NodeId) (suffix : String) (expression : Expr) (inputs : List Local)
    (source : String) : Drafting Local := do
  let mark := (← get).mark
  let inlining : Inlining := ⟨stemOf id suffix, inputs⟩
  try
    let (entry, _) ← inlining.inline expression 0
    pure entry
  catch error =>
    match error with
    | .unsupported _ => do
      modify (RoutineDraft.rollback mark)
      emitEval id suffix inputs source
    | other => throw other

/-- Writes the code of a condition and hands out a boolean local with its value. -/
def emitCondition (id : NodeId) (suffix : String) (condition : Expr) (inputs : List Local)
    (source : String) : Drafting Local := do
  let result ← emitExpression id suffix condition inputs source
  if result.type = .scalar .boolean then pure result
  else
    let operand :=
      match result.type with
      | .object _ => castTo result.name Script.Ty.value.text
      | _ => result.name
    let passed : Local := ⟨stemOf id suffix ++ "_passed", .scalar .boolean⟩
    Drafting.declare passed (castTo operand Script.Ty.boolean.text)
    pure passed

/-- Goes on with the next row unless a condition is true. -/
def emitSkipUnless (condition : Local) : Drafting Unit := do
  Drafting.opening ("if (" ++ condition.name ++ " == null || !" ++ condition.name ++ ") \x7b")
  Drafting.line "continue;"
  Drafting.closing

end QueryFusion.Generate
