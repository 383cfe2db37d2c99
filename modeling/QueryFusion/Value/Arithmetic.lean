import QueryFusion.Value
import QueryFusion.Double.Nearest

/-!
# Arithmetic on values

Both operands have one numeric type. Integer results are computed over the unbounded integers and
refused when they leave the type's range; doubles follow the machine. Interpreted expressions and
compiled units share these operations.
-/

namespace QueryFusion

/-- A binary arithmetic operator. -/
inductive ArithmeticOp
  | plus
  | minus
  | times
  | divide
  | remainder
  deriving DecidableEq, Inhabited

/-- The 32-bit integer of this value, if there is one. -/
def int32? (number : Int) : Option Int32 :=
  if -2147483648 ≤ number ∧ number ≤ 2147483647 then some (Int32.ofInt number) else none

/-- The 64-bit integer of this value, if there is one. -/
def int64? (number : Int) : Option Int64 :=
  if -9223372036854775808 ≤ number ∧ number ≤ 9223372036854775807 then
    some (Int64.ofInt number)
  else none

/-- A 32-bit integer stands for the number that it was made from. -/
theorem toInt_of_int32? {number : Int} {result : Int32} (fits : int32? number = some result) :
    result.toInt = number := by
  simp only [int32?] at fits
  split at fits
  · obtain rfl := Option.some.inj fits
    exact Int32.toInt_ofInt_of_le (by omega) (by omega)
  · contradiction

/-- Every 32-bit integer is in range. -/
theorem int32?_toInt (number : Int32) : int32? number.toInt = some number := by
  have lower := number.le_toInt
  have upper := number.toInt_lt
  rw [int32?, if_pos (by omega)]
  simp

/-- A 64-bit integer stands for the number that it was made from. -/
theorem toInt_of_int64? {number : Int} {result : Int64} (fits : int64? number = some result) :
    result.toInt = number := by
  simp only [int64?] at fits
  split at fits
  · obtain rfl := Option.some.inj fits
    exact Int64.toInt_ofInt_of_le (by omega) (by omega)
  · contradiction

/-- Every 64-bit integer is in range. -/
theorem int64?_toInt (number : Int64) : int64? number.toInt = some number := by
  have lower := number.le_toInt
  have upper := number.toInt_lt
  rw [int64?, if_pos (by omega)]
  simp

namespace ArithmeticOp

/-- All operators. -/
def all : List ArithmeticOp :=
  [plus, minus, times, divide, remainder]

/-- The sign of an operator. -/
def symbol : ArithmeticOp → String
  | plus => "+"
  | minus => "-"
  | times => "*"
  | divide => "/"
  | remainder => "%"

/-- The result over unbounded integers; division truncates toward zero. -/
def onIntegers : ArithmeticOp → Int → Int → Int
  | plus, left, right => left + right
  | minus, left, right => left - right
  | times, left, right => left * right
  | divide, left, right => left.tdiv right
  | remainder, left, right => left.tmod right

/-- Operators that refuse a zero on the right. -/
def divides : ArithmeticOp → Bool
  | divide | remainder => true
  | _ => false

/-- The result in a range given by `fit`. A remainder exists only where the quotient does. -/
def checked? {α : Type} (fit : Int → Option α) (op : ArithmeticOp) (left right : Int) : Option α :=
  match op with
  | remainder => (fit (left.tdiv right)).bind fun _ => fit (left.tmod right)
  | _ => fit (op.onIntegers left right)

/-- The result of the machine. -/
def onDoubles : ArithmeticOp → Double → Double → Double
  | plus => Double.add
  | minus => Double.sub
  | times => Double.mul
  | divide => Double.div
  | remainder => Double.rem

end ArithmeticOp

/-- Why an operator does not take these operands: one is null, or their types differ from the type
on the left. -/
def operandError (symbol : String) (left right : Value) : Error :=
  if left.isNull || right.isNull then .nullOperand ("operator " ++ symbol)
  else
    let type := left.dataType.text
    .typeMismatch (type ++ " " ++ symbol ++ " " ++ type)
      (type ++ " " ++ symbol ++ " " ++ right.dataType.text)

/-- The error of an integer result outside its type. -/
def overflowError (op : ArithmeticOp) (left right : Int) (type : DataType) : Error :=
  .arithmeticOverflow
    (toString left ++ " " ++ op.symbol ++ " " ++ toString right ++ " overflows " ++ type.text)

/-- Applies an operator to two values of one numeric type. -/
def ArithmeticOp.apply (op : ArithmeticOp) : Value → Value → Except Error Value
  | .int left, .int right =>
    if op.divides && right.toInt == 0 then .error .divisionByZero
    else
      match op.checked? int32? left.toInt right.toInt with
      | some result => .ok (.int result)
      | none => .error (overflowError op left.toInt right.toInt .int)
  | .bigInt left, .bigInt right =>
    if op.divides && right.toInt == 0 then .error .divisionByZero
    else
      match op.checked? int64? left.toInt right.toInt with
      | some result => .ok (.bigInt result)
      | none => .error (overflowError op left.toInt right.toInt .bigInt)
  | .double left, .double right => .ok (.double (op.onDoubles left right))
  | left, right => .error (operandError op.symbol left right)

namespace Value

/-- The value with the other sign. -/
def negate : Value → Except Error Value
  | int number =>
    match int32? (-number.toInt) with
    | some result => .ok (int result)
    | none => .error (.arithmeticOverflow ("-(" ++ toString number.toInt ++ ") overflows INT"))
  | bigInt number =>
    match int64? (-number.toInt) with
    | some result => .ok (bigInt result)
    | none => .error (.arithmeticOverflow ("-(" ++ toString number.toInt ++ ") overflows BIGINT"))
  | double number => .ok (double number.neg)
  | null => .error (.nullOperand "unary -")
  | other => .error (.typeMismatch "numeric" other.dataType.text)

/-- The value without its sign; null stays null. -/
def absolute : Value → Except Error Value
  | int number =>
    match int32? number.toInt.natAbs with
    | some result => .ok (int result)
    | none => .error (.arithmeticOverflow ("ABS(" ++ toString number.toInt ++ ") overflows INT"))
  | bigInt number =>
    match int64? number.toInt.natAbs with
    | some result => .ok (bigInt result)
    | none => .error (.arithmeticOverflow ("ABS(" ++ toString number.toInt ++ ") overflows BIGINT"))
  | double number => .ok (double number.abs)
  | null => .ok null
  | other => .error (.typeMismatch "numeric" other.dataType.text)

end Value

end QueryFusion
