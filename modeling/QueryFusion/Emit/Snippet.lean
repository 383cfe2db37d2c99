import QueryFusion.Text.Quoted

/-!
# Pieces of source

The phrases of which generated source is made.
-/

namespace QueryFusion.Emit

/-- A field of the unit. -/
def thisField (name : String) : String :=
  "this." ++ name

/-- A call of a method. -/
def invoke (target method : String) (arguments : List String) : String :=
  target ++ "." ++ method ++ "(" ++ String.intercalate ", " arguments ++ ")"

/-- A cast to a type. -/
def castTo (operand typeName : String) : String :=
  "(" ++ operand ++ " as " ++ typeName ++ ")"

/-- A text literal. -/
def textLiteral (text : String) : String :=
  Text.quoted text

end QueryFusion.Emit
