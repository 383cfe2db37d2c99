import QueryFusion.Value.Arithmetic

/-!
# Conversions between types

Null converts to null for every type. Narrowing between numeric types is checked, doubles lose their
fraction, and every scalar has a text.
-/

namespace QueryFusion

/-- The error of a number outside the range of a type. -/
def rangeError (value : Value) (type : DataType) : Error :=
  .arithmeticOverflow (value.text ++ " out of " ++ type.text ++ " range")

/-- Converts a value to a type. -/
def DataType.convert (type : DataType) (value : Value) : Except Error Value :=
  match type, value with
  | _, .null => .ok .null
  | .boolean, .boolean _ | .int, .int _ | .bigInt, .bigInt _ | .double, .double _
  | .varchar, .varchar _ | .object, .object .. => .ok value
  | .int, .bigInt number =>
    match int32? number.toInt with
    | some result => .ok (.int result)
    | none => .error (rangeError value .int)
  | .int, .double number =>
    match number.truncate?.bind int32? with
    | some result => .ok (.int result)
    | none => .error (rangeError value .int)
  | .bigInt, .int number => .ok (.bigInt (Int64.ofInt number.toInt))
  | .bigInt, .double number =>
    match number.truncate?.bind int64? with
    | some result => .ok (.bigInt result)
    | none => .error (rangeError value .bigInt)
  | .double, .int number => .ok (.double (Double.ofInt number.toInt))
  | .double, .bigInt number => .ok (.double (Double.ofInt number.toInt))
  | .varchar, .boolean _ | .varchar, .int _ | .varchar, .bigInt _ | .varchar, .double _ =>
    .ok (.varchar value.text)
  | _, _ => .error (.typeMismatch type.text value.dataType.text)

/-- Null has every type. -/
theorem DataType.convert_null (type : DataType) : type.convert .null = .ok .null := by
  cases type <;> rfl

/-- A value of the type already is left alone. -/
theorem DataType.convert_dataType (value : Value) : value.dataType.convert value = .ok value := by
  cases value <;> rfl

/-- Only null is converted to null. -/
theorem DataType.isNull_convert {type : DataType} {value result : Value}
    (done : type.convert value = .ok result) : result.isNull = value.isNull := by
  unfold DataType.convert at done
  split at done
  all_goals first | contradiction | skip
  all_goals try (split at done <;> try contradiction)
  all_goals
    cases done
    rfl

/-- Whether a row passes a filter with this outcome: only true passes, null and false do not. -/
def Value.passes : Value → Except Error Bool
  | .null => .ok false
  | .boolean truth => .ok truth
  | other => .error (.typeMismatch "BOOLEAN" other.dataType.text)

end QueryFusion
