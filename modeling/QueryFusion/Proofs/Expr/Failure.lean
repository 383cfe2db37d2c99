import QueryFusion.Expr
import QueryFusion.Proofs.Outcome
import QueryFusion.Value.Object

/-!
# How evaluation fails

Operations on values and the evaluation of expressions fail for reasons that lie in the data, never
because a rule inside the engine is broken or a unit is not bound.
-/

namespace QueryFusion

/-- A rule inside the engine is broken. -/
def Error.isInternal : Error → Bool
  | .internal _ => true
  | _ => false

/-- The error is about the unit that a node is bound to. -/
def Error.isBinding : Error → Bool
  | .binding _ => true
  | _ => false

/-- The error lies in the values that are computed with. -/
def Error.isData : Error → Bool
  | .typeMismatch .. | .arithmeticOverflow _ | .divisionByZero | .unexpectedObjectType ..
  | .fieldNotFound .. | .nullOperand _ | .columnOutOfBounds .. => true
  | _ => false

/-- Where the data is to blame, no rule is broken. -/
theorem Error.isInternal_of_isData {error : Error} (data : error.isData = true) :
    error.isInternal = false := by
  cases error <;> first | rfl | cases data

/-- Where the data is to blame, binding is not. -/
theorem Error.isBinding_of_isData {error : Error} (data : error.isData = true) :
    error.isBinding = false := by
  cases error <;> first | rfl | cases data

/-- Operands that an operator refuses lie in the data. -/
theorem operandError_isData (symbol : String) (left right : Value) :
    (operandError symbol left right).isData = true := by
  unfold operandError
  split <;> rfl

/-- Arithmetic fails on its data. -/
theorem ArithmeticOp.apply_isData {op : ArithmeticOp} {left right : Value} {error : Error}
    (failed : op.apply left right = .error error) : error.isData = true := by
  unfold ArithmeticOp.apply at failed
  split at failed
  · split at failed
    · cases failed
      rfl
    · split at failed
      · cases failed
      · cases failed
        rfl
  · split at failed
    · cases failed
      rfl
    · split at failed
      · cases failed
      · cases failed
        rfl
  · cases failed
  · cases failed
    exact operandError_isData _ _ _

/-- Comparing fails on its data. -/
theorem Comparison.apply_isData {comparison : Comparison} {left right : Value} {error : Error}
    (failed : comparison.apply left right = .error error) : error.isData = true := by
  unfold Comparison.apply at failed
  split at failed
  · cases failed
  · split at failed
    · split at failed
      · cases failed
      · cases failed
        exact operandError_isData _ _ _
    · cases failed
      exact operandError_isData _ _ _

/-- Conversion fails on its data. -/
theorem DataType.convert_isData {type : DataType} {value : Value} {error : Error}
    (failed : type.convert value = .error error) : error.isData = true := by
  unfold DataType.convert at failed
  split at failed <;> try contradiction
  all_goals try (split at failed <;> try contradiction)
  all_goals
    cases failed
    rfl

/-- Changing a sign fails on its data. -/
theorem Value.negate_isData {value : Value} {error : Error}
    (failed : value.negate = .error error) : error.isData = true := by
  unfold Value.negate at failed
  split at failed <;> try contradiction
  all_goals try (split at failed <;> try contradiction)
  all_goals
    cases failed
    rfl

/-- Removing a sign fails on its data. -/
theorem Value.absolute_isData {value : Value} {error : Error}
    (failed : value.absolute = .error error) : error.isData = true := by
  unfold Value.absolute at failed
  split at failed <;> try contradiction
  all_goals try (split at failed <;> try contradiction)
  all_goals
    cases failed
    rfl

/-- A value that is no truth value lies in the data. -/
theorem Value.truth_isData {value : Value} {error : Error}
    (failed : value.truth = .error error) : error.isData = true := by
  unfold Value.truth at failed
  split at failed <;> try contradiction
  cases failed
  rfl

/-- An object of another class lies in the data. -/
theorem Value.expectClass_isData {value : Value} {className : String} {error : Error}
    (failed : value.expectClass className = .error error) : error.isData = true := by
  unfold Value.expectClass at failed
  split at failed
  · cases failed
  · split at failed
    · cases failed
    · cases failed
      rfl
  · cases failed
    rfl

/-- A missing field lies in the data. -/
theorem requireField_isData {className name : String} {fields : List (String × Value)}
    {error : Error} (failed : requireField className fields name = .error error) :
    error.isData = true := by
  unfold requireField at failed
  split at failed
  · cases failed
  · cases failed
    rfl

/-- A missing column lies in the data. -/
theorem Row.column_isData {row : Row} {index : Nat} {error : Error}
    (failed : row.column index = .error error) : error.isData = true := by
  unfold Row.column at failed
  split at failed
  · cases failed
  · cases failed
    rfl

/-- A sequence fails on its data when each of its parts does. -/
theorem bind_isData {α β : Type} {first : Except Error α} {next : α → Except Error β}
    {error : Error} (failed : (first >>= next) = .error error)
    (head : ∀ error, first = .error error → error.isData = true)
    (tail : ∀ value error, next value = .error error → error.isData = true) :
    error.isData = true := by
  rcases bind_eq_error_iff.1 failed with stopped | ⟨value, -, stopped⟩
  · exact head error stopped
  · exact tail value error stopped

/-- Evaluation fails on its data, whatever the expression and the row. -/
theorem Expr.eval_isData (row : Row) (expression : Expr) {error : Error}
    (failed : expression.eval row = .error error) : error.isData = true := by
  induction expression generalizing error with
  | column index type => exact Row.column_isData failed
  | constant value type => cases failed
  | arithmetic op left right type leftStep rightStep =>
    unfold Expr.eval at failed
    split at failed
    · refine bind_isData failed (fun _ => leftStep) fun leftValue _ failed => ?_
      refine bind_isData failed (fun _ => rightStep) fun rightValue _ failed => ?_
      split at failed
      · cases failed
      · refine bind_isData failed (fun _ => DataType.convert_isData) fun _ _ failed => ?_
        refine bind_isData failed (fun _ => DataType.convert_isData) fun _ _ failed => ?_
        exact ArithmeticOp.apply_isData failed
    · cases failed
      rfl
  | comparison mode left right leftStep rightStep =>
    unfold Expr.eval at failed
    split at failed
    · cases failed
      rfl
    · refine bind_isData failed (fun _ => leftStep) fun leftValue _ failed => ?_
      refine bind_isData failed (fun _ => rightStep) fun rightValue _ failed => ?_
      split at failed
      · cases failed
      · refine bind_isData failed (fun _ => DataType.convert_isData) fun _ _ failed => ?_
        refine bind_isData failed (fun _ => DataType.convert_isData) fun _ _ failed => ?_
        refine bind_isData failed (fun _ => Comparison.apply_isData) fun _ _ failed => ?_
        cases failed
  | and left right leftStep rightStep | or left right leftStep rightStep =>
    unfold Expr.eval at failed
    refine bind_isData failed (fun _ => leftStep) fun _ _ failed => ?_
    refine bind_isData failed (fun _ => Value.truth_isData) fun _ _ failed => ?_
    refine bind_isData failed (fun _ => rightStep) fun _ _ failed => ?_
    refine bind_isData failed (fun _ => Value.truth_isData) fun _ _ failed => ?_
    cases failed
  | not operand step =>
    unfold Expr.eval at failed
    refine bind_isData failed (fun _ => step) fun _ _ failed => ?_
    refine bind_isData failed (fun _ => Value.truth_isData) fun _ _ failed => ?_
    cases failed
  | isNull operand step =>
    unfold Expr.eval at failed
    refine bind_isData failed (fun _ => step) fun _ _ failed => ?_
    cases failed
  | cast operand type step =>
    unfold Expr.eval at failed
    exact bind_isData failed (fun _ => step) fun _ _ => DataType.convert_isData
  | abs operand step =>
    unfold Expr.eval at failed
    exact bind_isData failed (fun _ => step) fun _ _ => Value.absolute_isData

end QueryFusion
