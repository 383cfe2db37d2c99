import QueryFusion.Proofs.Expr.Typing

/-!
# Integer expressions

An expression over integer columns and constants has a value over the unbounded integers.
Evaluation gives that value whenever no divisor is zero and the operands and the result of every
part lie in the range of the part's type; otherwise it fails. A remainder has one further
condition: it fails where its quotient leaves the range, although the remainder itself is zero.
-/

namespace QueryFusion

/-- The number of an integer value. -/
def Value.number? : Value → Option Int
  | .int number => some number.toInt
  | .bigInt number => some number.toInt
  | _ => none

namespace DataType

/-- The types of integers. -/
def isInteger : DataType → Bool
  | int | bigInt => true
  | _ => false

/-- The numbers of an integer type. -/
def Holds : DataType → Int → Prop
  | int, number => -2147483648 ≤ number ∧ number ≤ 2147483647
  | bigInt, number => -9223372036854775808 ≤ number ∧ number ≤ 9223372036854775807
  | _, _ => False

instance (type : DataType) (number : Int) : Decidable (type.Holds number) :=
  match type with
  | int => inferInstanceAs (Decidable (_ ∧ _))
  | bigInt => inferInstanceAs (Decidable (_ ∧ _))
  | null | boolean | double | varchar | object => inferInstanceAs (Decidable False)

end DataType

/-- A row has one value of its type for each column of the schema. -/
def Row.Carries (row : Row) (schema : List DataType) : Prop :=
  List.Forall₂ (fun value type => value.dataType = type) row schema

namespace Expr

/-- An expression over integer columns and constants. -/
inductive Integral (schema : List DataType) : Expr → Prop
  | column {index : Nat} {type : DataType} (found : schema[index]? = some type)
      (integer : type.isInteger = true) : Integral schema (.column index type)
  | constant {value : Value} (integer : value.dataType.isInteger = true) :
      Integral schema (.constant value value.dataType)
  | arithmetic {op : ArithmeticOp} {left right : Expr} {type : DataType}
      (integer : type.isInteger = true) (first : Integral schema left)
      (second : Integral schema right) : Integral schema (.arithmetic op left right type)
  | cast {operand : Expr} {type : DataType} (integer : type.isInteger = true)
      (inner : Integral schema operand) : Integral schema (.cast operand type)
  | abs {operand : Expr} (inner : Integral schema operand) : Integral schema (.abs operand)

/-- The value over the unbounded integers; division truncates toward zero. -/
def exact (row : Row) : Expr → Int
  | column index _ => (row[index]?.bind Value.number?).getD 0
  | constant value _ => value.number?.getD 0
  | arithmetic op left right _ => op.onIntegers (left.exact row) (right.exact row)
  | cast operand _ => operand.exact row
  | abs operand => (operand.exact row).natAbs
  | _ => 0

/-- No divisor is zero, and the converted operands and the result of every part lie in the range of
the part's type. -/
def InRange (row : Row) : Expr → Prop
  | arithmetic op left right type =>
    left.InRange row ∧ right.InRange row ∧ (op.divides = true → right.exact row ≠ 0) ∧
      type.Holds (left.exact row) ∧ type.Holds (right.exact row) ∧
      type.Holds (op.onIntegers (left.exact row) (right.exact row))
  | cast operand type => operand.InRange row ∧ type.Holds (operand.exact row)
  | abs operand => operand.InRange row ∧ operand.dataType.Holds (operand.exact row).natAbs
  | _ => True

/-- Ranges can be computed. -/
def decideInRange (row : Row) : (expression : Expr) → Decidable (expression.InRange row)
  | arithmetic _ left right _ =>
    have := left.decideInRange row
    have := right.decideInRange row
    inferInstanceAs (Decidable (_ ∧ _ ∧ _))
  | cast operand _ =>
    have := operand.decideInRange row
    inferInstanceAs (Decidable (_ ∧ _))
  | abs operand =>
    have := operand.decideInRange row
    inferInstanceAs (Decidable (_ ∧ _))
  | column .. | constant .. | comparison .. | and .. | or .. | not _ | isNull _ =>
    inferInstanceAs (Decidable True)

instance (row : Row) (expression : Expr) : Decidable (expression.InRange row) :=
  expression.decideInRange row

/-- The quotient that belongs to each remainder lies in the range, too. -/
def QuotientsInRange (row : Row) : Expr → Prop
  | arithmetic op left right type =>
    left.QuotientsInRange row ∧ right.QuotientsInRange row ∧
      (op = .remainder → type.Holds ((left.exact row).tdiv (right.exact row)))
  | cast operand _ => operand.QuotientsInRange row
  | abs operand => operand.QuotientsInRange row
  | _ => True

/-- Quotients can be computed. -/
def decideQuotientsInRange (row : Row) :
    (expression : Expr) → Decidable (expression.QuotientsInRange row)
  | arithmetic _ left right _ =>
    have := left.decideQuotientsInRange row
    have := right.decideQuotientsInRange row
    inferInstanceAs (Decidable (_ ∧ _ ∧ _))
  | cast operand _ | abs operand => operand.decideQuotientsInRange row
  | column .. | constant .. | comparison .. | and .. | or .. | not _ | isNull _ =>
    inferInstanceAs (Decidable True)

instance (row : Row) (expression : Expr) : Decidable (expression.QuotientsInRange row) :=
  expression.decideQuotientsInRange row

end Expr

/-! ## Numbers of a type -/

/-- A number either has a 32-bit integer or is no number of the type. -/
theorem int32?_cases (number : Int) :
    (∃ result, int32? number = some result ∧ result.toInt = number ∧
      DataType.int.Holds number) ∨ (int32? number = none ∧ ¬ DataType.int.Holds number) := by
  by_cases holds : DataType.int.Holds number
  · have fits : int32? number = some (Int32.ofInt number) := if_pos holds
    exact .inl ⟨_, fits, toInt_of_int32? fits, holds⟩
  · exact .inr ⟨if_neg holds, holds⟩

/-- A number either has a 64-bit integer or is no number of the type. -/
theorem int64?_cases (number : Int) :
    (∃ result, int64? number = some result ∧ result.toInt = number ∧
      DataType.bigInt.Holds number) ∨ (int64? number = none ∧ ¬ DataType.bigInt.Holds number) := by
  by_cases holds : DataType.bigInt.Holds number
  · have fits : int64? number = some (Int64.ofInt number) := if_pos holds
    exact .inl ⟨_, fits, toInt_of_int64? fits, holds⟩
  · exact .inr ⟨if_neg holds, holds⟩

namespace Value

/-- A value of an integer type is an integer. -/
theorem integer_cases {value : Value} (integer : value.dataType.isInteger = true) :
    (∃ number, value = .int number) ∨ ∃ number, value = .bigInt number := by
  cases value with
  | int number => exact .inl ⟨number, rfl⟩
  | bigInt number => exact .inr ⟨number, rfl⟩
  | _ => cases integer

/-- The number of an integer value is one of its type. -/
theorem holds_of_number? {value : Value} {number : Int} (found : value.number? = some number) :
    value.dataType.isInteger = true ∧ value.dataType.Holds number := by
  cases value with
  | int content =>
    cases found
    have lower := content.le_toInt
    have upper := content.toInt_lt
    exact ⟨rfl, by simpa using lower, by omega⟩
  | bigInt content =>
    cases found
    have lower := content.le_toInt
    have upper := content.toInt_lt
    exact ⟨rfl, by simpa using lower, by omega⟩
  | _ => cases found

/-- The outcome is the number at the type under a condition, and an arithmetic error without it. -/
def Decides (condition : Prop) (type : DataType) (number : Int) : Except Error Value → Prop
  | .ok value => condition ∧ value.dataType = type ∧ value.number? = some number
  | .error error => ¬ condition ∧ error.isArithmetic = true

/-- An equivalent condition decides as well. -/
theorem Decides.congr {first second : Prop} {type : DataType} {number : Int}
    {outcome : Except Error Value} (same : first ↔ second)
    (decides : Decides first type number outcome) : Decides second type number outcome := by
  rwa [propext same] at decides

/-- A sequence is decided by both parts: the first one gives a number, and the second one goes on
with any value that stands for it. -/
theorem Decides.bind {first second : Prop} {source target : DataType} {number result : Int}
    {outcome : Except Error Value} {next : Value → Except Error Value}
    (head : Decides first source number outcome)
    (tail : ∀ value, value.dataType = source → value.number? = some number →
      Decides second target result (next value)) :
    Decides (first ∧ second) target result (outcome >>= next) := by
  cases outcome with
  | error error => exact ⟨fun both => head.1 both.1, head.2⟩
  | ok value =>
    have rest := tail value head.2.1 head.2.2
    exact rest.congr ⟨fun holds => ⟨head.1, holds⟩, And.right⟩

/-- An integer is converted to an integer type exactly when the type holds it. -/
theorem decides_convert {value : Value} {number : Int} (found : value.number? = some number)
    {type : DataType} (integer : type.isInteger = true) :
    Decides (type.Holds number) type number (type.convert value) := by
  have inRange := holds_of_number? found
  cases value with
  | int content =>
    cases type with
    | int => exact ⟨inRange.2, rfl, found⟩
    | bigInt =>
      cases found
      have lower := content.le_toInt
      have upper := content.toInt_lt
      have kept : (Int64.ofInt content.toInt).toInt = content.toInt :=
        Int64.toInt_ofInt_of_le (by omega) (by omega)
      exact ⟨⟨by omega, by omega⟩, rfl, congrArg some kept⟩
    | _ => cases integer
  | bigInt content =>
    cases type with
    | int =>
      cases found
      simp only [DataType.convert]
      rcases int32?_cases content.toInt with ⟨result, fits, same, holds⟩ | ⟨fails, outside⟩
      · rw [fits]
        exact ⟨holds, rfl, congrArg some same⟩
      · rw [fails]
        exact ⟨outside, rfl⟩
    | bigInt => exact ⟨inRange.2, rfl, found⟩
    | _ => cases integer
  | _ => cases found

/-- The absolute value exists exactly when the type holds it. -/
theorem decides_absolute {value : Value} {number : Int} (found : value.number? = some number) :
    Decides (value.dataType.Holds number.natAbs) value.dataType number.natAbs value.absolute := by
  cases value with
  | int content =>
    cases found
    simp only [absolute]
    rcases int32?_cases content.toInt.natAbs with ⟨result, fits, same, holds⟩ | ⟨fails, outside⟩
    · rw [fits]
      exact ⟨holds, rfl, congrArg some same⟩
    · rw [fails]
      exact ⟨outside, rfl⟩
  | bigInt content =>
    cases found
    simp only [absolute]
    rcases int64?_cases content.toInt.natAbs with ⟨result, fits, same, holds⟩ | ⟨fails, outside⟩
    · rw [fits]
      exact ⟨holds, rfl, congrArg some same⟩
    · rw [fails]
      exact ⟨outside, rfl⟩
  | _ => cases found

end Value

/-! ## Arithmetic -/

namespace ArithmeticOp

/-- What an operator asks of two numbers of a type. -/
def Defined (op : ArithmeticOp) (type : DataType) (left right : Int) : Prop :=
  (op.divides = true → right ≠ 0) ∧ type.Holds (op.onIntegers left right) ∧
    (op = .remainder → type.Holds (left.tdiv right))

/-- A checked result is the result, and it exists exactly when the range has it and, for a
remainder, the quotient. -/
theorem checked?_cases {α : Type} {fit : Int → Option α} {number : α → Int} {type : DataType}
    (fits : ∀ whole, (∃ result, fit whole = some result ∧ number result = whole ∧
      type.Holds whole) ∨ (fit whole = none ∧ ¬ type.Holds whole))
    (op : ArithmeticOp) (left right : Int) :
    (∃ result, op.checked? fit left right = some result ∧
      number result = op.onIntegers left right ∧ type.Holds (op.onIntegers left right) ∧
      (op = .remainder → type.Holds (left.tdiv right))) ∨
    (op.checked? fit left right = none ∧ ¬ (type.Holds (op.onIntegers left right) ∧
      (op = .remainder → type.Holds (left.tdiv right)))) := by
  by_cases remaining : op = .remainder
  · subst remaining
    rcases fits (left.tdiv right) with ⟨quotient, found, -, quotientHolds⟩ | ⟨fails, outside⟩
    · have rest : ArithmeticOp.remainder.checked? fit left right = fit (left.tmod right) := by
        simp [checked?, found]
      rw [rest]
      rcases fits (left.tmod right) with ⟨result, found, same, holds⟩ | ⟨fails, outside⟩
      · exact .inl ⟨result, found, same, holds, fun _ => quotientHolds⟩
      · exact .inr ⟨fails, fun both => outside both.1⟩
    · refine .inr ⟨by simp [checked?, fails], fun both => outside (both.2 rfl)⟩
  · have plain : op.checked? fit left right = fit (op.onIntegers left right) := by
      cases op <;> first | rfl | exact absurd rfl remaining
    rw [plain]
    rcases fits (op.onIntegers left right) with ⟨result, found, same, holds⟩ | ⟨fails, outside⟩
    · exact .inl ⟨result, found, same, holds, fun unlike => absurd unlike remaining⟩
    · exact .inr ⟨fails, fun both => outside both.1⟩

/-- An operator refuses a zero on the right, or is checked; it is defined exactly when it is checked
and has a result. -/
theorem defined_cases {α : Type} {fit : Int → Option α} {number : α → Int} {type : DataType}
    (fits : ∀ whole, (∃ result, fit whole = some result ∧ number result = whole ∧
      type.Holds whole) ∨ (fit whole = none ∧ ¬ type.Holds whole))
    (op : ArithmeticOp) (left right : Int) :
    ((op.divides && right == 0) = true ∧ ¬ op.Defined type left right) ∨
    ((op.divides && right == 0) = false ∧
      ((∃ result, op.checked? fit left right = some result ∧
        number result = op.onIntegers left right ∧ op.Defined type left right) ∨
      (op.checked? fit left right = none ∧ ¬ op.Defined type left right))) := by
  cases refused : op.divides && right == 0 with
  | true =>
    simp only [Bool.and_eq_true, beq_iff_eq] at refused
    exact .inl ⟨rfl, fun defined => defined.1 refused.1 refused.2⟩
  | false =>
    have nonzero : op.divides = true → right ≠ 0 := by simpa using refused
    refine .inr ⟨rfl, ?_⟩
    rcases checked?_cases fits op left right with ⟨result, found, same, holds⟩ | ⟨fails, outside⟩
    · exact .inl ⟨result, found, same, nonzero, holds⟩
    · exact .inr ⟨fails, fun defined => outside defined.2⟩

/-- An operator on two integers of one type gives the exact result where it is defined. -/
theorem decides_apply (op : ArithmeticOp) {left right : Value} {type : DataType}
    {leftNumber rightNumber : Int} (first : left.dataType = type) (second : right.dataType = type)
    (leftFound : left.number? = some leftNumber) (rightFound : right.number? = some rightNumber) :
    Value.Decides (op.Defined type leftNumber rightNumber) type
      (op.onIntegers leftNumber rightNumber) (op.apply left right) := by
  subst first
  cases left with
  | int number =>
    cases right with
    | int divisor =>
      cases leftFound
      cases rightFound
      rw [apply]
      rcases defined_cases int32?_cases op number.toInt divisor.toInt with
        ⟨refused, never⟩ | ⟨checked, ⟨result, found, same, defined⟩ | ⟨fails, never⟩⟩
      · rw [refused]
        exact ⟨never, rfl⟩
      · rw [checked, found]
        exact ⟨defined, rfl, congrArg some same⟩
      · rw [checked, fails]
        exact ⟨never, rfl⟩
    | _ => cases second
  | bigInt number =>
    cases right with
    | bigInt divisor =>
      cases leftFound
      cases rightFound
      rw [apply]
      rcases defined_cases int64?_cases op number.toInt divisor.toInt with
        ⟨refused, never⟩ | ⟨checked, ⟨result, found, same, defined⟩ | ⟨fails, never⟩⟩
      · rw [refused]
        exact ⟨never, rfl⟩
      · rw [checked, found]
        exact ⟨defined, rfl, congrArg some same⟩
      · rw [checked, fails]
        exact ⟨never, rfl⟩
    | _ => cases second
  | _ => cases leftFound

/-- An operator on two integers of any types converts them to the type of the result first. -/
theorem decides_converted (op : ArithmeticOp) {left right : Value} {type : DataType}
    {leftNumber rightNumber : Int} (integer : type.isInteger = true)
    (leftFound : left.number? = some leftNumber) (rightFound : right.number? = some rightNumber) :
    Value.Decides (type.Holds leftNumber ∧ type.Holds rightNumber ∧
        op.Defined type leftNumber rightNumber) type (op.onIntegers leftNumber rightNumber)
      (if left.isNull || right.isNull then .ok .null
      else do
        let leftConverted ← type.convert left
        let rightConverted ← type.convert right
        op.apply leftConverted rightConverted) := by
  have leftPresent : left.isNull = false := by
    cases left <;> first | rfl | cases leftFound
  have rightPresent : right.isNull = false := by
    cases right <;> first | rfl | cases rightFound
  rw [leftPresent, rightPresent]
  refine (Value.decides_convert leftFound integer).bind fun leftValue first leftNumber => ?_
  refine (Value.decides_convert rightFound integer).bind fun rightValue second rightNumber => ?_
  exact op.decides_apply first second leftNumber rightNumber

end ArithmeticOp

/-! ## Evaluation -/

namespace Expr

/-- A row of the schema has a value of its type in each column. -/
theorem column_of_carries {row : Row} {schema : List DataType} (carries : row.Carries schema)
    {index : Nat} {type : DataType} (found : schema[index]? = some type) :
    ∃ value, row[index]? = some value ∧ value.dataType = type := by
  induction carries generalizing index with
  | nil => cases found
  | @cons value columnType rest types typed _ step =>
    cases index with
    | zero =>
      cases found
      exact ⟨value, rfl, typed⟩
    | succ index => exact step found

/-- Evaluation is decided by the ranges of all parts. -/
theorem Integral.decides {schema : List DataType} {expression : Expr} {row : Row}
    (integral : expression.Integral schema) (carries : row.Carries schema) :
    Value.Decides (expression.InRange row ∧ expression.QuotientsInRange row) expression.dataType
      (expression.exact row) (expression.eval row) := by
  induction integral with
  | @column index type found integer =>
    obtain ⟨value, read, typed⟩ := column_of_carries carries found
    have evaluated : eval row (.column index type) = .ok value := by
      rw [eval, Row.column_eq_ok_iff]
      exact read
    rw [evaluated]
    subst typed
    refine ⟨⟨trivial, trivial⟩, rfl, ?_⟩
    rcases Value.integer_cases integer with ⟨number, rfl⟩ | ⟨number, rfl⟩ <;>
      simp [exact, read, Value.number?]
  | @constant value integer =>
    refine ⟨⟨trivial, trivial⟩, rfl, ?_⟩
    rcases Value.integer_cases integer with ⟨number, rfl⟩ | ⟨number, rfl⟩ <;> rfl
  | @arithmetic op left right type integer _ _ leftStep rightStep =>
    have numeric : type.isNumeric = true := by
      cases type <;> first | rfl | cases integer
    rw [eval, if_pos numeric]
    have decided := leftStep.bind fun leftValue _ leftFound =>
      rightStep.bind fun rightValue _ rightFound =>
        op.decides_converted integer leftFound rightFound
    refine decided.congr ?_
    simp only [InRange, QuotientsInRange, ArithmeticOp.Defined]
    tauto
  | @cast operand type integer _ step =>
    have decided := step.bind fun value _ found => Value.decides_convert found integer
    refine decided.congr ?_
    simp only [InRange, QuotientsInRange]
    tauto
  | @abs operand _ step =>
    have decided := step.bind fun value typed found =>
      typed ▸ Value.decides_absolute found
    refine decided.congr ?_
    simp only [InRange, QuotientsInRange]
    tauto

/-- An integer expression has its exact value, at its type, when no divisor is zero and the operands
and the result of every part, and the quotient of every remainder, are in range; otherwise it fails
with an overflow or a zero divisor. -/
theorem Integral.eval_exact {schema : List DataType} {expression : Expr} {row : Row}
    (integral : expression.Integral schema) (carries : row.Carries schema) :
    (expression.InRange row ∧ expression.QuotientsInRange row →
      ∃ value, expression.eval row = .ok value ∧ value.dataType = expression.dataType ∧
        value.number? = some (expression.exact row)) ∧
    (¬ (expression.InRange row ∧ expression.QuotientsInRange row) →
      (∃ detail, expression.eval row = .error (.arithmeticOverflow detail)) ∨
        expression.eval row = .error .divisionByZero) := by
  have decided := integral.decides carries
  cases outcome : expression.eval row with
  | ok value =>
    rw [outcome] at decided
    exact ⟨fun _ => ⟨value, rfl, decided.2⟩, fun outside => absurd decided.1 outside⟩
  | error error =>
    rw [outcome] at decided
    refine ⟨fun inside => absurd inside decided.1, fun _ => ?_⟩
    cases error with
    | arithmeticOverflow detail => exact .inl ⟨detail, rfl⟩
    | divisionByZero => exact .inr rfl
    | _ => cases decided.2

/-- A product that needs the wider type, less a remainder in the narrower one. -/
def widenedProduct : Expr :=
  .arithmetic .minus
    (.abs (.arithmetic .times (.cast (.column 0 .int) .bigInt) (.constant (.int 3) .int) .bigInt))
    (.arithmetic .remainder (.column 1 .bigInt) (.constant (.int (-7)) .int) .int) .bigInt

/-- The least integer tripled fits the wider type. -/
theorem Integral.eval_exact_widened :
    widenedProduct.Integral [.int, .bigInt] ∧
      Row.Carries [.int (-2147483648), .bigInt (-40)] [.int, .bigInt] ∧
      ∃ value, widenedProduct.eval [.int (-2147483648), .bigInt (-40)] = .ok value ∧
        value.dataType = .bigInt ∧ value.number? = some 6442450949 := by
  have integral : widenedProduct.Integral [.int, .bigInt] :=
    .arithmetic rfl
      (.abs (.arithmetic rfl (.cast rfl (.column rfl rfl)) (.constant rfl)))
      (.arithmetic rfl (.column rfl rfl) (.constant rfl))
  have carries : Row.Carries [.int (-2147483648), .bigInt (-40)] [.int, .bigInt] :=
    .cons rfl (.cons rfl .nil)
  have inside : widenedProduct.InRange [.int (-2147483648), .bigInt (-40)] ∧
      widenedProduct.QuotientsInRange [.int (-2147483648), .bigInt (-40)] := by
    decide
  exact ⟨integral, carries, (integral.eval_exact carries).1 inside⟩

/-- The least integer modulo -1: every part is in range and no divisor is zero, but the quotient
leaves the range, and evaluation fails. -/
theorem remainder_of_least :
    Integral [.int, .int] (.arithmetic .remainder (.column 0 .int) (.column 1 .int) .int) ∧
      Row.Carries [.int (-2147483648), .int (-1)] [.int, .int] ∧
      InRange [.int (-2147483648), .int (-1)]
        (.arithmetic .remainder (.column 0 .int) (.column 1 .int) .int) ∧
      eval [.int (-2147483648), .int (-1)]
          (.arithmetic .remainder (.column 0 .int) (.column 1 .int) .int) =
        .error (.arithmeticOverflow "-2147483648 % -1 overflows INT") := by
  exact ⟨.arithmetic rfl (.column rfl rfl) (.column rfl rfl), .cons rfl (.cons rfl .nil),
    by decide, rfl⟩

end Expr

end QueryFusion
