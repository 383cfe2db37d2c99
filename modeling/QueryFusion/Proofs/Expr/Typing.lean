import Mathlib.Data.List.Forall2
import QueryFusion.Proofs.Expr.Failure

/-!
# Well-typed expressions

The types inside an expression are declared, not inferred. An expression is well typed when the
declarations agree with a column schema and with each other. On a row of the schema such an
expression gives null or a value of its type, or it fails for a reason that lies in the numbers: a
result out of range or a zero divisor.
-/

namespace QueryFusion

/-- The numbers themselves, and no type or shape, are at fault. -/
def Error.isArithmetic : Error → Bool
  | .arithmeticOverflow _ | .divisionByZero => true
  | _ => false

/-- Null may stand for a value of every type. -/
def Value.Fits (value : Value) (type : DataType) : Prop :=
  value = .null ∨ value.dataType = type

/-- A row has one fitting value for each column of the schema. -/
def Row.Fits (row : Row) (schema : List DataType) : Prop :=
  List.Forall₂ Value.Fits row schema

namespace DataType

/-- The operands of arithmetic: numbers, and the type that has null alone. -/
def IsOperand (type : DataType) : Prop :=
  type.isNumeric = true ∨ type = null

/-- Truth values, and the type that has null alone. -/
def IsTruth (type : DataType) : Prop :=
  type = boolean ∨ type = null

/-- Casts that can fail on a number out of range only. -/
inductive Casts : DataType → DataType → Prop
  | same (type : DataType) : Casts type type
  | numeric {source target : DataType} (first : source.isNumeric = true)
      (second : target.isNumeric = true) : Casts source target
  | text {source : DataType} (scalar : source ≠ object) : Casts source varchar
  | null (target : DataType) : Casts null target

end DataType

/-- The declared types agree with the schema and with each other. -/
inductive Expr.WellTyped (schema : List DataType) : Expr → Prop
  | column {index : Nat} {type : DataType} (found : schema[index]? = some type) :
      WellTyped schema (.column index type)
  | constant {value : Value} {type : DataType} (fits : value.Fits type) :
      WellTyped schema (.constant value type)
  | arithmetic {op : ArithmeticOp} {left right : Expr} {type : DataType}
      (numeric : type.isNumeric = true)
      (first : WellTyped schema left) (second : WellTyped schema right)
      (leftOperand : left.dataType.IsOperand) (rightOperand : right.dataType.IsOperand) :
      WellTyped schema (.arithmetic op left right type)
  /-- Objects have no order. -/
  | comparison {mode : Comparison} {left right : Expr} {common : DataType}
      (first : WellTyped schema left) (second : WellTyped schema right)
      (found : DataType.comparisonType? left.dataType right.dataType = some common)
      (ordered : common = .object → mode.isEquality = true) :
      WellTyped schema (.comparison mode left right)
  | and {left right : Expr} (first : WellTyped schema left) (second : WellTyped schema right)
      (leftTruth : left.dataType.IsTruth) (rightTruth : right.dataType.IsTruth) :
      WellTyped schema (.and left right)
  | or {left right : Expr} (first : WellTyped schema left) (second : WellTyped schema right)
      (leftTruth : left.dataType.IsTruth) (rightTruth : right.dataType.IsTruth) :
      WellTyped schema (.or left right)
  | not {operand : Expr} (inner : WellTyped schema operand) (truth : operand.dataType.IsTruth) :
      WellTyped schema (.not operand)
  | isNull {operand : Expr} (inner : WellTyped schema operand) : WellTyped schema (.isNull operand)
  | cast {operand : Expr} {type : DataType} (inner : WellTyped schema operand)
      (casts : DataType.Casts operand.dataType type) : WellTyped schema (.cast operand type)
  | abs {operand : Expr} (inner : WellTyped schema operand)
      (operandType : operand.dataType.IsOperand) : WellTyped schema (.abs operand)

/-- A fitting value, or an error that lies in the numbers. -/
def Value.Settles (type : DataType) : Except Error Value → Prop
  | .ok value => value.Fits type
  | .error error => error.isArithmetic = true

/-! ## Operations on fitting values -/

namespace Value

/-- A fitting value that is not null has the type. -/
theorem Fits.dataType_eq {value : Value} {type : DataType} (fits : value.Fits type)
    (present : value.isNull = false) : value.dataType = type := by
  rcases fits with rfl | typed
  · cases present
  · exact typed

/-- A value that is not null is not of the type that has null alone. -/
theorem Fits.ne_null {value : Value} {type : DataType} (fits : value.Fits type)
    (present : value.isNull = false) : type ≠ .null := by
  rintro rfl
  have isNull := (dataType_eq_null_iff value).1 (fits.dataType_eq present)
  rw [isNull] at present
  cases present

/-- An operand of a logical operator has a truth value. -/
theorem Fits.truth {value : Value} {type : DataType} (fits : value.Fits type)
    (truth : type.IsTruth) : ∃ known, value.truth = .ok known := by
  rcases fits with rfl | rfl
  · exact ⟨none, rfl⟩
  · cases value with
    | null => exact ⟨none, rfl⟩
    | boolean known => exact ⟨some known, rfl⟩
    | _ => rcases truth with unlike | unlike <;> cases unlike

/-- Every outcome of a logical operator is a truth value. -/
theorem fits_toValue (truth : Truth) : truth.toValue.Fits .boolean := by
  cases truth with
  | none => exact .inl rfl
  | some known => exact .inr rfl

/-- The absolute value of a number is a number of the same type. -/
theorem Fits.absolute {value : Value} {type : DataType} (fits : value.Fits type)
    (operand : type.IsOperand) : Settles type value.absolute := by
  rcases fits with rfl | rfl
  · exact .inl rfl
  · cases value with
    | null => exact .inl rfl
    | double number => exact .inr rfl
    | int number | bigInt number =>
      simp only [Value.absolute]
      split
      · exact .inr rfl
      · rfl
    | _ => rcases operand with unlike | unlike <;> cases unlike

end Value

/-- Converting between numeric types fails on a number out of range only. -/
theorem DataType.convert_numeric {value : Value} {target : DataType}
    (first : value.dataType.isNumeric = true) (second : target.isNumeric = true) :
    Value.Settles target (target.convert value) := by
  cases value with
  | int number | bigInt number | double number =>
    cases target with
    | int | bigInt | double =>
      simp only [DataType.convert]
      try split
      all_goals first | exact .inr rfl | rfl
    | _ => cases second
  | _ => cases first

/-- A cast fails on a number out of range only. -/
theorem DataType.Casts.convert {source target : DataType} (casts : Casts source target)
    {value : Value} (fits : value.Fits source) :
    Value.Settles target (target.convert value) := by
  cases present : value.isNull with
  | true =>
    rw [(Value.isNull_iff value).1 present, DataType.convert_null]
    exact .inl rfl
  | false =>
    have typed := fits.dataType_eq present
    cases casts with
    | same type =>
      rw [← typed, DataType.convert_dataType]
      exact .inr rfl
    | numeric first second =>
      rw [← typed] at first
      exact DataType.convert_numeric first second
    | text scalar =>
      rw [← typed] at scalar
      cases value with
      | object identity className fields => exact absurd rfl scalar
      | null => exact .inl rfl
      | _ => exact .inr rfl
    | null => exact absurd rfl (fits.ne_null present)

/-- The common type of a comparison is reached from both sides. -/
theorem DataType.casts_of_comparisonType? {left right common : DataType}
    (found : comparisonType? left right = some common) :
    Casts left common ∧ Casts right common := by
  unfold comparisonType? at found
  split at found
  · next same =>
    cases found
    exact ⟨.same _, same ▸ .same _⟩
  · split at found
    · next null =>
      cases found
      exact ⟨null ▸ .null _, .same _⟩
    · split at found
      · next null =>
        cases found
        exact ⟨.same _, null ▸ .null _⟩
      · split at found
        · next leftRank rightRank ranked ranked' =>
          have leftNumeric : left.isNumeric = true := by simp [isNumeric, ranked]
          have rightNumeric : right.isNumeric = true := by simp [isNumeric, ranked']
          cases found
          split
          · exact ⟨.same _, .numeric rightNumeric leftNumeric⟩
          · exact ⟨.numeric leftNumeric rightNumeric, .same _⟩
        · cases found

/-- An operand of arithmetic is converted to the numeric type of the result. -/
theorem DataType.IsOperand.casts {source target : DataType} (operand : source.IsOperand)
    (numeric : target.isNumeric = true) : Casts source target := by
  rcases operand with first | rfl
  · exact .numeric first numeric
  · exact .null _

/-- Arithmetic on two numbers of one type. -/
theorem ArithmeticOp.apply_settles (op : ArithmeticOp) {left right : Value} {type : DataType}
    (numeric : type.isNumeric = true) (first : left.dataType = type)
    (second : right.dataType = type) : Value.Settles type (op.apply left right) := by
  subst first
  cases left with
  | int number =>
    cases right with
    | int divisor =>
      simp only [ArithmeticOp.apply]
      split
      · rfl
      · split
        · exact .inr rfl
        · rfl
    | _ => cases second
  | bigInt number =>
    cases right with
    | bigInt divisor =>
      simp only [ArithmeticOp.apply]
      split
      · rfl
      · split
        · exact .inr rfl
        · rfl
    | _ => cases second
  | double number =>
    cases right with
    | double divisor => exact .inr rfl
    | _ => cases second
  | _ => cases numeric

/-- Two values of one type compare, unless an order of objects is asked for. -/
theorem Comparison.apply_ok (mode : Comparison) {left right : Value} {type : DataType}
    (first : left.dataType = type) (second : right.dataType = type)
    (present : left.isNull = false) (ordered : type = .object → mode.isEquality = true) :
    ∃ outcome, mode.apply left right = .ok outcome := by
  subst first
  cases left with
  | null => cases present
  | object identity className fields =>
    cases right with
    | object otherIdentity otherClass otherFields =>
      simp only [Comparison.apply, Value.order?, ordered rfl, if_true]
      exact ⟨_, rfl⟩
    | _ => cases second
  | _ => cases right <;> first | exact ⟨_, rfl⟩ | cases second

/-! ## Evaluation -/

namespace Value

/-- A sequence settles when its first part does and what follows settles on every fitting value. -/
theorem Settles.bind {source target : DataType} {first : Except Error Value}
    {next : Value → Except Error Value} (head : Settles source first)
    (tail : ∀ value, value.Fits source → Settles target (next value)) :
    Settles target (first >>= next) := by
  cases first with
  | error error => exact head
  | ok value => exact tail value head

/-- An operation on the converted operands settles when it does on values of the common type; a null
operand decides by itself. -/
theorem settles_operands {leftType rightType common type : DataType} {left right : Value}
    {operation : Value → Value → Except Error Value}
    (first : left.Fits leftType) (second : right.Fits rightType)
    (leftCasts : DataType.Casts leftType common) (rightCasts : DataType.Casts rightType common)
    (applied : ∀ leftValue rightValue : Value, leftValue.dataType = common →
      rightValue.dataType = common → leftValue.isNull = false →
      Settles type (operation leftValue rightValue)) :
    Settles type (if left.isNull || right.isNull then .ok .null
      else do
        let leftValue ← common.convert left
        let rightValue ← common.convert right
        operation leftValue rightValue) := by
  split
  · exact .inl rfl
  · next present =>
    obtain ⟨leftPresent, rightPresent⟩ : left.isNull = false ∧ right.isNull = false := by
      simpa using present
    have leftSettles := leftCasts.convert first
    have rightSettles := rightCasts.convert second
    cases leftDone : common.convert left with
    | error error =>
      rw [leftDone] at leftSettles
      exact leftSettles
    | ok leftValue =>
      rw [leftDone] at leftSettles
      have leftKept := (DataType.isNull_convert leftDone).trans leftPresent
      cases rightDone : common.convert right with
      | error error =>
        rw [rightDone] at rightSettles
        exact rightSettles
      | ok rightValue =>
        rw [rightDone] at rightSettles
        have rightKept := (DataType.isNull_convert rightDone).trans rightPresent
        exact applied leftValue rightValue (Fits.dataType_eq leftSettles leftKept)
          (Fits.dataType_eq rightSettles rightKept) leftKept

/-- A logical operator settles on operands that have a truth value. -/
theorem settles_truths {leftType rightType : DataType} {left right : Except Error Value}
    {combine : Truth → Truth → Truth} (first : Settles leftType left)
    (second : Settles rightType right) (leftTruth : leftType.IsTruth)
    (rightTruth : rightType.IsTruth) :
    Settles .boolean (do
      let leftValue ← left
      let leftKnown ← leftValue.truth
      let rightValue ← right
      let rightKnown ← rightValue.truth
      .ok (combine leftKnown rightKnown).toValue) := by
  refine first.bind fun leftValue leftFits => ?_
  obtain ⟨leftKnown, known⟩ := leftFits.truth leftTruth
  rw [known, ok_bind]
  refine second.bind fun rightValue rightFits => ?_
  obtain ⟨rightKnown, known⟩ := rightFits.truth rightTruth
  rw [known, ok_bind]
  exact fits_toValue _

end Value

/-- A row of the schema has a fitting value in each of its columns. -/
theorem Row.Fits.column {row : Row} {schema : List DataType} (fits : row.Fits schema)
    {index : Nat} {type : DataType} (found : schema[index]? = some type) :
    ∃ value, row.column index = .ok value ∧ value.Fits type := by
  induction fits generalizing index with
  | nil => cases found
  | @cons value columnType rest types valueFits _ step =>
    cases index with
    | zero =>
      cases found
      exact ⟨value, rfl, valueFits⟩
    | succ index =>
      obtain ⟨other, read, otherFits⟩ := step found
      refine ⟨other, ?_, otherFits⟩
      rw [Row.column_eq_ok_iff] at read ⊢
      exact read

/-- A well-typed expression on a row of its schema gives null or a value of its type, or it fails
with an overflow or a zero divisor; no other error can arise. -/
theorem Expr.WellTyped.eval_settles {schema : List DataType} {expression : Expr} {row : Row}
    (typed : expression.WellTyped schema) (fits : row.Fits schema) :
    (∃ value, expression.eval row = .ok value ∧
      (value = .null ∨ value.dataType = expression.dataType)) ∨
    (∃ detail, expression.eval row = .error (.arithmeticOverflow detail)) ∨
      expression.eval row = .error .divisionByZero := by
  suffices settled : Value.Settles expression.dataType (expression.eval row) by
    cases outcome : expression.eval row with
    | ok value =>
      rw [outcome] at settled
      exact .inl ⟨value, rfl, settled⟩
    | error error =>
      rw [outcome] at settled
      cases error with
      | arithmeticOverflow detail => exact .inr (.inl ⟨detail, rfl⟩)
      | divisionByZero => exact .inr (.inr rfl)
      | _ => cases settled
  induction typed with
  | column found =>
    obtain ⟨value, read, valueFits⟩ := fits.column found
    rw [Expr.eval, read]
    exact valueFits
  | constant valueFits => exact valueFits
  | arithmetic numeric _ _ leftOperand rightOperand leftStep rightStep =>
    rw [Expr.eval, if_pos numeric]
    refine leftStep.bind fun leftValue leftFits => ?_
    refine rightStep.bind fun rightValue rightFits => ?_
    refine Value.settles_operands leftFits rightFits (leftOperand.casts numeric)
      (rightOperand.casts numeric) fun _ _ first second _ => ?_
    exact ArithmeticOp.apply_settles _ numeric first second
  | @comparison mode left right common _ _ found ordered leftStep rightStep =>
    simp only [Expr.eval, found]
    obtain ⟨leftCasts, rightCasts⟩ := DataType.casts_of_comparisonType? found
    refine leftStep.bind fun leftValue leftFits => ?_
    refine rightStep.bind fun rightValue rightFits => ?_
    refine Value.settles_operands leftFits rightFits leftCasts rightCasts
      fun first second firstTyped secondTyped present => ?_
    obtain ⟨outcome, compared⟩ := mode.apply_ok firstTyped secondTyped present ordered
    rw [compared]
    exact .inr rfl
  | and _ _ leftTruth rightTruth leftStep rightStep
  | or _ _ leftTruth rightTruth leftStep rightStep =>
    exact Value.settles_truths leftStep rightStep leftTruth rightTruth
  | not _ truth step =>
    rw [Expr.eval]
    refine step.bind fun value valueFits => ?_
    obtain ⟨known, read⟩ := valueFits.truth truth
    rw [read]
    exact Value.fits_toValue _
  | isNull _ step => exact step.bind fun value _ => .inr rfl
  | cast _ casts step => exact step.bind fun value valueFits => casts.convert valueFits
  | abs _ operandType step => exact step.bind fun value valueFits => valueFits.absolute operandType

/-- A quotient in the wider type under a comparison, beside a null test. -/
def Expr.quotientTest : Expr :=
  .and
    (.comparison .less
      (.arithmetic .divide (.cast (.column 0 .int) .bigInt) (.abs (.column 0 .int)) .bigInt)
      (.constant (.int 2) .int))
    (.not (.isNull (.column 1 .varchar)))

/-- A well-typed expression on a row with a number and a null. -/
theorem Expr.WellTyped.eval_settles_quotient :
    Expr.quotientTest.WellTyped [.int, .varchar] ∧ Row.Fits [.int (-6), .null] [.int, .varchar] ∧
      ((∃ value, Expr.quotientTest.eval [.int (-6), .null] = .ok value ∧
        (value = .null ∨ value.dataType = .boolean)) ∨
      (∃ detail, Expr.quotientTest.eval [.int (-6), .null] = .error (.arithmeticOverflow detail)) ∨
        Expr.quotientTest.eval [.int (-6), .null] = .error .divisionByZero) := by
  have typed : Expr.quotientTest.WellTyped [.int, .varchar] :=
    .and
      (.comparison
        (.arithmetic rfl (.cast (.column rfl) (.numeric rfl rfl)) (.abs (.column rfl) (.inl rfl))
          (.inl rfl) (.inl rfl))
        (.constant (.inr rfl)) rfl (by decide))
      (.not (.isNull (.column rfl)) (.inl rfl)) (.inl rfl) (.inl rfl)
  have fits : Row.Fits [.int (-6), .null] [.int, .varchar] :=
    .cons (.inr rfl) (.cons (.inl rfl) .nil)
  exact ⟨typed, fits, typed.eval_settles fits⟩

end QueryFusion
