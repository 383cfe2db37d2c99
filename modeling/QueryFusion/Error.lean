/-!
# Errors

One type covers plan validation, compilation of fragments, binding of compiled units and the
evaluation of rows. Interpreted and compiled execution raise the same errors for the same input, so
the wording stands here once.
-/

namespace QueryFusion

/-- Why an operation failed. -/
inductive Error
  /-- A plan, or the partition of one, breaks a structural rule. -/
  | planInvariant (detail : String)
  /-- A scan names a map that is not registered. -/
  | mapNotFound (name : String)
  /-- A construct that cannot be compiled inline. -/
  | unsupported (detail : String)
  /-- A source unit was rejected at a position. -/
  | compilation (unitName message : String) (line column : Nat) (sourceText : String)
  /-- A compiled unit could not be bound to the executor graph. -/
  | binding (detail : String)
  /-- A value has a type that the operation does not accept. -/
  | typeMismatch (expected actual : String)
  /-- An integer result, or a conversion, leaves the range of its type. -/
  | arithmeticOverflow (detail : String)
  /-- Integer division or remainder by zero. -/
  | divisionByZero
  /-- A top-level object does not match its description. -/
  | unexpectedObjectType (expected actual : String)
  /-- An object has no field of this name. -/
  | fieldNotFound (className field : String)
  /-- Null stands where a value is needed. -/
  | nullOperand (detail : String)
  /-- A row is read past its last column. -/
  | columnOutOfBounds (index size : Nat)
  /-- The query was cancelled. -/
  | cancelled
  /-- A rule inside the engine is broken. -/
  | internal (detail : String)
  deriving DecidableEq, Inhabited

namespace Error

/-- The name of the kind of an error. -/
def kindName : Error → String
  | planInvariant _ => "PlanInvariant"
  | mapNotFound _ => "MapNotFound"
  | unsupported _ => "Unsupported"
  | compilation .. => "Compilation"
  | binding _ => "Binding"
  | typeMismatch .. => "TypeMismatch"
  | arithmeticOverflow _ => "ArithmeticOverflow"
  | divisionByZero => "DivisionByZero"
  | unexpectedObjectType .. => "UnexpectedObjectType"
  | fieldNotFound .. => "FieldNotFound"
  | nullOperand _ => "NullOperand"
  | columnOutOfBounds .. => "ColumnOutOfBounds"
  | cancelled => "Cancelled"
  | internal _ => "Internal"

/-- The text shown for an error. -/
def message : Error → String
  | planInvariant detail => "plan invariant violated: " ++ detail
  | mapNotFound name => "map '" ++ name ++ "' not found"
  | unsupported detail => "unsupported: " ++ detail
  | compilation unitName message line column _ =>
    "failed to compile " ++ unitName ++ " at line " ++ toString line ++ ", column " ++
      toString column ++ ": " ++ message
  | binding detail => "binding failed: " ++ detail
  | typeMismatch expected actual => "type mismatch: expected " ++ expected ++ ", got " ++ actual
  | arithmeticOverflow detail => "arithmetic overflow: " ++ detail
  | divisionByZero => "division by zero"
  | unexpectedObjectType expected actual =>
    "unexpected object type: expected " ++ expected ++ ", got " ++ actual
  | fieldNotFound className field => "field '" ++ field ++ "' not found in " ++ className
  | nullOperand detail => "null operand: " ++ detail
  | columnOutOfBounds index size =>
    "column index " ++ toString index ++ " out of bounds for row of " ++ toString size ++ " columns"
  | cancelled => "query cancelled"
  | internal detail => "internal error: " ++ detail

/-- The query can still be answered by interpreting its plan. -/
def isFallback : Error → Bool
  | compilation .. | binding _ | unsupported _ => true
  | _ => false

/-- The source text that was rejected. -/
def rejectedSource? : Error → Option String
  | compilation _ _ _ _ sourceText => some sourceText
  | _ => none

end Error

end QueryFusion
