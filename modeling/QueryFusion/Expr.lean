import QueryFusion.Row
import QueryFusion.Value.Compare
import QueryFusion.Value.Convert

/-!
# Expressions

Expressions are evaluated on a row. Arithmetic and comparison give null when an operand is null, the
logical operators follow three-valued logic, and a null test never gives null. Both operands are
always evaluated, the left one first.
-/

namespace QueryFusion

/-- An expression over the columns of a row. -/
inductive Expr
  | column (index : Nat) (type : DataType)
  | constant (value : Value) (type : DataType)
  /-- The operands are converted to the type first. -/
  | arithmetic (op : ArithmeticOp) (left right : Expr) (type : DataType)
  /-- The operands are converted to their common type first. -/
  | comparison (comparison : Comparison) (left right : Expr)
  | and (left right : Expr)
  | or (left right : Expr)
  | not (operand : Expr)
  | isNull (operand : Expr)
  | cast (operand : Expr) (type : DataType)
  | abs (operand : Expr)
  deriving Inhabited

/-- A truth value that may be unknown. -/
abbrev Truth := Option Bool

namespace Truth

/-- False as soon as one side is false, else unknown as soon as one side is. -/
def and : Truth → Truth → Truth
  | some false, _ | _, some false => some false
  | some true, some true => some true
  | _, _ => none

/-- True as soon as one side is true, else unknown as soon as one side is. -/
def or : Truth → Truth → Truth
  | some true, _ | _, some true => some true
  | some false, some false => some false
  | _, _ => none

/-- The unknown truth value stays unknown. -/
def not : Truth → Truth
  | some truth => some (!truth)
  | none => none

/-- The value of a truth value; unknown is null. -/
def toValue : Truth → Value
  | some truth => .boolean truth
  | none => .null

/-- The sides of a conjunction may change places. -/
theorem and_comm (left right : Truth) : and left right = and right left := by
  rcases left with _ | _ | _ <;> rcases right with _ | _ | _ <;> rfl

/-- The sides of a disjunction may change places. -/
theorem or_comm (left right : Truth) : or left right = or right left := by
  rcases left with _ | _ | _ <;> rcases right with _ | _ | _ <;> rfl

end Truth

/-- The truth value of an operand of a logical operator. -/
def Value.truth : Value → Except Error Truth
  | .null => .ok none
  | .boolean truth => .ok (some truth)
  | other => .error (.typeMismatch "BOOLEAN" other.dataType.text)

/-- A truth value is read back from its value. -/
theorem Truth.truth_toValue (truth : Truth) : truth.toValue.truth = .ok truth := by
  cases truth <;> rfl

namespace Expr

/-- A literal of the type of its value. -/
def literal (value : Value) : Expr :=
  constant value value.dataType

/-- The type an expression is declared to have. -/
def dataType : Expr → DataType
  | column _ type | constant _ type | arithmetic _ _ _ type | cast _ type => type
  | comparison .. | and .. | or .. | not _ | isNull _ => .boolean
  | abs operand => operand.dataType

/-- The name of the kind of an expression. -/
def kindName : Expr → String
  | column .. => "Column"
  | constant .. => "Constant"
  | arithmetic .. => "Arithmetic"
  | comparison .. => "Comparison"
  | and .. => "And"
  | or .. => "Or"
  | not _ => "Not"
  | isNull _ => "IsNull"
  | cast .. => "Cast"
  | abs _ => "Abs"

/-- The value of an expression on a row. -/
def eval (row : Row) : Expr → Except Error Value
  | column index _ => row.column index
  | constant value _ => .ok value
  | arithmetic op left right type =>
    if type.isNumeric then do
      let leftValue ← left.eval row
      let rightValue ← right.eval row
      if leftValue.isNull || rightValue.isNull then .ok .null
      else do
        let leftConverted ← type.convert leftValue
        let rightConverted ← type.convert rightValue
        op.apply leftConverted rightConverted
    else .error (.typeMismatch "numeric" type.text)
  | comparison mode left right =>
    match DataType.comparisonType? left.dataType right.dataType with
    | none => .error (.typeMismatch left.dataType.text right.dataType.text)
    | some common => do
      let leftValue ← left.eval row
      let rightValue ← right.eval row
      if leftValue.isNull || rightValue.isNull then .ok .null
      else do
        let leftConverted ← common.convert leftValue
        let rightConverted ← common.convert rightValue
        let outcome ← mode.apply leftConverted rightConverted
        .ok (.boolean outcome)
  | and left right => do
    let leftValue ← left.eval row
    let leftTruth ← leftValue.truth
    let rightValue ← right.eval row
    let rightTruth ← rightValue.truth
    .ok (Truth.and leftTruth rightTruth).toValue
  | or left right => do
    let leftValue ← left.eval row
    let leftTruth ← leftValue.truth
    let rightValue ← right.eval row
    let rightTruth ← rightValue.truth
    .ok (Truth.or leftTruth rightTruth).toValue
  | not operand => do
    let value ← operand.eval row
    let truth ← value.truth
    .ok (Truth.not truth).toValue
  | isNull operand => do
    let value ← operand.eval row
    .ok (.boolean value.isNull)
  | cast operand type => do
    let value ← operand.eval row
    type.convert value
  | abs operand => do
    let value ← operand.eval row
    value.absolute

/-- The text of an expression. -/
def text : Expr → String
  | column index _ => "$" ++ toString index
  | constant value _ => value.text
  | arithmetic op left right _ => "(" ++ left.text ++ " " ++ op.symbol ++ " " ++ right.text ++ ")"
  | comparison mode left right =>
    "(" ++ left.text ++ " " ++ mode.symbol ++ " " ++ right.text ++ ")"
  | and left right => "(" ++ left.text ++ " AND " ++ right.text ++ ")"
  | or left right => "(" ++ left.text ++ " OR " ++ right.text ++ ")"
  | not operand => "(NOT " ++ operand.text ++ ")"
  | isNull operand => "(" ++ operand.text ++ " IS NULL)"
  | cast operand type => "CAST(" ++ operand.text ++ " AS " ++ type.text ++ ")"
  | abs operand => "ABS(" ++ operand.text ++ ")"

end Expr

/-- Evaluates one expression after another on a row. -/
def evalAll (row : Row) : List Expr → Except Error Row
  | [] => .ok []
  | expression :: rest => do
    let value ← expression.eval row
    let values ← evalAll row rest
    .ok (value :: values)

/-- Evaluation gives one value for each expression. -/
theorem evalAll_length {row image : Row} {expressions : List Expr}
    (done : evalAll row expressions = .ok image) : image.length = expressions.length := by
  induction expressions generalizing image with
  | nil =>
    simp only [evalAll, Except.ok.injEq] at done
    simp [← done]
  | cons expression rest step =>
    simp only [evalAll, bind, Except.bind] at done
    split at done
    · contradiction
    · split at done
      · contradiction
      · rename_i values evaluated
        simp only [Except.ok.injEq] at done
        simp [← done, step evaluated]

end QueryFusion
