import QueryFusion.Script.Ty

/-!
# Locals of generated routines

A local holds a scalar of a known type, a value of unknown type, a domain object of a known class,
or a whole row. Each of these has its type in the source language.
-/

namespace QueryFusion.Emit

/-- What a local holds. -/
inductive LocalType
  | scalar (type : DataType)
  | value
  | object (className : String)
  | row
  deriving DecidableEq, Inhabited

/-- The type of a scalar in the source language; null says nothing about a type. -/
def scalarTy : DataType → Script.Ty
  | .null => .value
  | .boolean => .boolean
  | .int => .int
  | .bigInt => .bigInt
  | .double => .double
  | .varchar => .varchar
  | .object => .object none

namespace LocalType

/-- The type of a local in the source language. -/
def ty : LocalType → Script.Ty
  | scalar type => scalarTy type
  | value => .value
  | object className => .object (some className)
  | row => .row

/-- The type as it is written. -/
def name (type : LocalType) : String :=
  type.ty.text

/-- The data type, as far as it is known. -/
def dataType? : LocalType → Option DataType
  | scalar type => some type
  | object _ => some .object
  | value | row => none

/-- Locals that arithmetic, comparison and logic do not accept. -/
def isOpaque : LocalType → Bool
  | object _ | scalar .object | row => true
  | _ => false

end LocalType

/-- A named value of the current row. -/
structure Local where
  name : String
  type : LocalType
  deriving DecidableEq, Inhabited

end QueryFusion.Emit
