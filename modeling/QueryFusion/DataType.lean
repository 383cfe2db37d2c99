import QueryFusion.Error
import QueryFusion.Text.Upper

/-!
# Data types and comparisons

The types of values, the order in which numeric types widen, and the six comparisons.
-/

namespace QueryFusion

/-- The type of a value. -/
inductive DataType
  | null
  | boolean
  | int
  | bigInt
  | double
  | varchar
  | object
  deriving DecidableEq, Inhabited

namespace DataType

/-- All types. -/
def all : List DataType :=
  [null, boolean, int, bigInt, double, varchar, object]

/-- No type is missing from the list. -/
theorem mem_all (type : DataType) : type ∈ all := by
  cases type <;> decide

/-- The name of a type. -/
def text : DataType → String
  | null => "NULL"
  | boolean => "BOOLEAN"
  | int => "INT"
  | bigInt => "BIGINT"
  | double => "DOUBLE"
  | varchar => "VARCHAR"
  | object => "OBJECT"

/-- The type with a name, in any case; some types have two names. -/
def parse (name : String) : Except Error DataType :=
  let upper := Text.upper name
  if upper = "NULL" then .ok null
  else if upper = "BOOLEAN" ∨ upper = "BOOL" then .ok boolean
  else if upper = "INT" ∨ upper = "INTEGER" then .ok int
  else if upper = "BIGINT" then .ok bigInt
  else if upper = "DOUBLE" ∨ upper = "FLOAT" then .ok double
  else if upper = "VARCHAR" ∨ upper = "TEXT" then .ok varchar
  else if upper = "OBJECT" then .ok object
  else .error (.typeMismatch "data type name" upper)

/-- Place of a numeric type in the widening order. -/
def numericRank? : DataType → Option Nat
  | int => some 0
  | bigInt => some 1
  | double => some 2
  | _ => none

/-- Types that arithmetic accepts. -/
def isNumeric (type : DataType) : Bool :=
  type.numericRank?.isSome

/-- The type both operands of a comparison are converted to: equal types compare as themselves,
null takes the other type, and numeric types widen. -/
def comparisonType? (left right : DataType) : Option DataType :=
  if left = right then some left
  else if left = null then some right
  else if right = null then some left
  else
    match left.numericRank?, right.numericRank? with
    | some leftRank, some rightRank => some (if leftRank ≥ rightRank then left else right)
    | _, _ => none

/-- The side of an operand does not matter. -/
theorem comparisonType?_comm (left right : DataType) :
    comparisonType? left right = comparisonType? right left := by
  cases left <;> cases right <;> rfl

/-- Equal types compare as themselves. -/
theorem comparisonType?_self (type : DataType) : comparisonType? type type = some type := by
  simp [comparisonType?]

/-- The common type is the type of one operand, so at most the other operand is converted. -/
theorem comparisonType?_eq_or {left right common : DataType}
    (found : comparisonType? left right = some common) : common = left ∨ common = right := by
  revert found
  cases left <;> cases right <;> cases common <;> decide

end DataType

/-- A comparison of two values. -/
inductive Comparison
  | equal
  | notEqual
  | less
  | lessOrEqual
  | greater
  | greaterOrEqual
  deriving DecidableEq, Inhabited

namespace Comparison

/-- All comparisons. -/
def all : List Comparison :=
  [equal, notEqual, less, lessOrEqual, greater, greaterOrEqual]

/-- The operator of a comparison. -/
def symbol : Comparison → String
  | equal => "=="
  | notEqual => "!="
  | less => "<"
  | lessOrEqual => "<="
  | greater => ">"
  | greaterOrEqual => ">="

/-- Comparisons that need no order. -/
def isEquality : Comparison → Bool
  | equal | notEqual => true
  | _ => false

/-- Whether a comparison holds of two operands that stand in the given order; operands without an
order are only unequal. -/
def holds : Comparison → Option Ordering → Bool
  | equal, order => order == some .eq
  | notEqual, order => order != some .eq
  | less, order => order == some .lt
  | lessOrEqual, order => order == some .lt || order == some .eq
  | greater, order => order == some .gt
  | greaterOrEqual, order => order == some .gt || order == some .eq

/-- Unequal is the opposite of equal, also of operands without an order. -/
theorem holds_notEqual (order : Option Ordering) : notEqual.holds order = !equal.holds order :=
  rfl

/-- Operands without an order are unequal, and nothing else holds of them. -/
theorem holds_none_iff (comparison : Comparison) :
    comparison.holds none = true ↔ comparison = notEqual := by
  cases comparison <;> decide

end Comparison

end QueryFusion
