import QueryFusion.Value

/-!
# Rows

A row is the list of its column values.
-/

namespace QueryFusion

/-- Column values in order. -/
abbrev Row := List Value

namespace Row

/-- The value of a column that the row must have. -/
def column (row : Row) (index : Nat) : Except Error Value :=
  match row[index]? with
  | some value => .ok value
  | none => .error (.columnOutOfBounds index row.length)

/-- Reading a column succeeds exactly where the row has a value. -/
theorem column_eq_ok_iff (row : Row) (index : Nat) (value : Value) :
    row.column index = .ok value ↔ row[index]? = some value := by
  simp only [column]
  split <;> simp_all

/-- Equality of rows, value by value. -/
def same : Row → Row → Bool
  | [], [] => true
  | left :: leftRest, right :: rightRest => left.same right && same leftRest rightRest
  | _, _ => false

/-- The text of a row. -/
def text (row : Row) : String :=
  "[" ++ String.intercalate ", " (row.map Value.text) ++ "]"

end Row

end QueryFusion
