import QueryFusion.DataType
import QueryFusion.Decimal.Layout
import QueryFusion.Hash

/-!
# Values

A value is null, a scalar, or a domain object with named fields. Equality of values compares
doubles as numbers, so it is neither reflexive (a double may stand for no number) nor the equality
of encodings (there are two zeros); the hash of a value follows the encoding.
-/

namespace QueryFusion

/-- A value with its type. -/
inductive Value
  | null
  | boolean (truth : Bool)
  | int (number : Int32)
  | bigInt (number : Int64)
  | double (number : Double)
  | varchar (text : String)
  /-- A domain object. Copies of one object share its identity; fields keep their order. -/
  | object (identity : Nat) (className : String) (fields : List (String × Value))
  deriving Inhabited

namespace Value

/-- The type of a value. -/
def dataType : Value → DataType
  | null => .null
  | boolean _ => .boolean
  | int _ => .int
  | bigInt _ => .bigInt
  | double _ => .double
  | varchar _ => .varchar
  | object .. => .object

/-- The value is null. -/
def isNull : Value → Bool
  | null => true
  | _ => false

/-- Only the null value is null. -/
theorem isNull_iff (value : Value) : value.isNull = true ↔ value = null := by
  cases value <;> simp [isNull]

/-- The type null has one value. -/
theorem dataType_eq_null_iff (value : Value) : value.dataType = .null ↔ value = null := by
  cases value <;> simp [dataType]

/-- The truth value of a boolean. -/
def asBoolean? : Value → Option Bool
  | boolean truth => some truth
  | _ => none

/-- The value itself, when it is an object. -/
def asObject? : Value → Option Value
  | object identity className fields => some (object identity className fields)
  | _ => none

/-! ## Equality -/

mutual

/-- Equality of values; objects are equal when class and fields are, in order. -/
def same : Value → Value → Bool
  | null, null => true
  | boolean left, boolean right => left == right
  | int left, int right => left == right
  | bigInt left, bigInt right => left == right
  | double left, double right => left.equal right
  | varchar left, varchar right => left == right
  | object _ leftClass leftFields, object _ rightClass rightFields =>
    leftClass == rightClass && sameFields leftFields rightFields
  | _, _ => false

/-- Equality of field lists. -/
def sameFields : List (String × Value) → List (String × Value) → Bool
  | [], [] => true
  | (leftName, left) :: leftRest, (rightName, right) :: rightRest =>
    leftName == rightName && same left right && sameFields leftRest rightRest
  | _, _ => false

end

/-! ## Text -/

mutual

/-- The text of a value. -/
def text : Value → String
  | null => "NULL"
  | boolean truth => if truth then "true" else "false"
  | int number => toString number.toInt
  | bigInt number => toString number.toInt
  | double number => Decimal.Layout.plain.render number
  | varchar text => text
  | object _ className fields =>
    className ++ "\x7b" ++ String.intercalate ", " (fieldTexts fields) ++ "\x7d"

/-- The text of each field. -/
def fieldTexts : List (String × Value) → List String
  | [] => []
  | (name, value) :: rest => (name ++ "=" ++ text value) :: fieldTexts rest

end

/-! ## Hash -/

section Hash

variable [Hasher]

open Hasher (add addText)

mutual

/-- Absorbs a value: the place of its type among the types, then its content. -/
def hashInto (state : Hasher.State) : Value → Hasher.State
  | null => add state 0
  | boolean truth => add (add state 1) (if truth then 1 else 0)
  | int number => add (add state 2) number.toUInt32.toUInt64
  | bigInt number => add (add state 3) number.toUInt64
  | double number => add (add state 4) number.bits
  | varchar text => addText (add state 5) text
  | object _ className fields => hashFields (addText (add state 6) className) fields

/-- Absorbs field after field, the name before the value. -/
def hashFields (state : Hasher.State) : List (String × Value) → Hasher.State
  | [] => state
  | (name, value) :: rest => hashFields (hashInto (addText state name) value) rest

end

/-- The hash of a value. -/
def hash (value : Value) : UInt64 :=
  Hasher.finish (hashInto Hasher.start value)

end Hash

end Value

end QueryFusion
