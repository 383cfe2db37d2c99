import QueryFusion.Double
import QueryFusion.Script.Token

/-!
# Syntax trees of source units

A source unit belongs to a module, imports modules, and declares one unit with its fields,
constructors and routines. Every node of the tree carries the place that a diagnostic about it
points to.
-/

namespace QueryFusion.Script

/-- A type as it is written, such as `Int` or `List<QueryPath>`. -/
structure TypeName where
  name : String
  argument : Option String
  position : Position
  deriving DecidableEq, Inhabited

/-- The type as it is written. -/
def TypeName.text (type : TypeName) : String :=
  match type.argument with
  | some argument => type.name ++ "<" ++ argument ++ ">"
  | none => type.name

/-- A binary operator. -/
inductive BinaryOp
  | or
  | and
  | equal
  | notEqual
  | less
  | lessOrEqual
  | greater
  | greaterOrEqual
  | add
  | subtract
  | multiply
  | divide
  | remainder
  deriving DecidableEq, Inhabited

/-- The sign of an operator. -/
def BinaryOp.symbol : BinaryOp → String
  | or => "||"
  | and => "&&"
  | equal => "=="
  | notEqual => "!="
  | less => "<"
  | lessOrEqual => "<="
  | greater => ">"
  | greaterOrEqual => ">="
  | add => "+"
  | subtract => "-"
  | multiply => "*"
  | divide => "/"
  | remainder => "%"

/-- An expression of the source language. -/
inductive Term
  | int (position : Position) (number : Int32)
  | bigInt (position : Position) (number : Int64)
  | double (position : Position) (number : Double)
  | text (position : Position) (content : String)
  | boolean (position : Position) (truth : Bool)
  | null (position : Position)
  | ints (position : Position) (numbers : List Int32)
  | name (position : Position) (name : String)
  | this (position : Position)
  | not (position : Position) (operand : Term)
  | negate (position : Position) (operand : Term)
  | binary (position : Position) (op : BinaryOp) (left right : Term)
  | conditional (position : Position) (condition thenValue elseValue : Term)
  | member (position : Position) (target : Term) (name : String)
  | call (position : Position) (target : Term) (method : String) (arguments : List Term)
  | cast (position : Position) (operand : Term) (type : TypeName)
  deriving Inhabited

namespace Term

/-- The place of an expression: that of its operator, or of its only token. -/
def position : Term → Position
  | int position _ | bigInt position _ | double position _ | text position _
  | boolean position _ | null position | ints position _ | name position _ | this position
  | not position _ | negate position _ | binary position _ _ _ | conditional position _ _ _
  | member position _ _ | call position _ _ _ | cast position _ _ => position

/-- The expression is the unit itself. -/
def isThis : Term → Bool
  | this _ => true
  | _ => false

/-- The expression is a call. -/
def isCall : Term → Bool
  | call .. => true
  | _ => false

end Term

/-- A statement. -/
inductive Stmt
  /-- Declares a local with its first value. -/
  | declare (position : Position) (name : String) (type : TypeName) (value : Term)
  | setField (position : Position) (field : String) (value : Term)
  | setLocal (position : Position) (name : String) (value : Term)
  | branch (position : Position) (condition : Term) (thenBlock : List Stmt)
  | choose (position : Position) (condition : Term) (thenBlock elseBlock : List Stmt)
  | loop (position : Position) (condition : Term) (body : List Stmt)
  /-- Goes on with the next round of the innermost loop. -/
  | proceed (position : Position)
  /-- Ends the innermost loop. -/
  | leave (position : Position)
  /-- Ends the routine without a value. -/
  | finish (position : Position)
  /-- Ends the routine with a value. -/
  | answer (position : Position) (value : Term)
  /-- Calls the constructor of the base unit. -/
  | construct (position : Position) (arguments : List Term)
  /-- Evaluates an expression for its effect. -/
  | perform (position : Position) (value : Term)
  deriving Inhabited

/-- The place of a statement: that of its first token. -/
def Stmt.position : Stmt → Position
  | declare position _ _ _ | setField position _ _ | setLocal position _ _
  | branch position _ _ | choose position _ _ _ | loop position _ _ | proceed position
  | leave position | finish position | answer position _ | construct position _
  | perform position _ => position

/-- An imported module. -/
structure Import where
  moduleName : String
  position : Position
  deriving DecidableEq, Inhabited

/-- A declared field. -/
structure FieldDecl where
  name : String
  type : TypeName
  position : Position
  deriving DecidableEq, Inhabited

/-- A declared parameter. -/
structure Param where
  name : String
  type : TypeName
  position : Position
  deriving DecidableEq, Inhabited

/-- A declared constructor. -/
structure ConstructorDecl where
  body : List Stmt
  position : Position
  deriving Inhabited

/-- A declared routine. -/
structure RoutineDecl where
  name : String
  params : List Param
  returnType : Option TypeName
  body : List Stmt
  position : Position
  deriving Inhabited

/-- A declared unit, its members in order within each kind. -/
structure UnitDecl where
  name : String
  base : String
  fields : List FieldDecl
  constructors : List ConstructorDecl
  routines : List RoutineDecl
  position : Position
  deriving Inhabited

/-- A whole source unit. -/
structure SourceUnit where
  moduleName : String
  imports : List Import
  unit : UnitDecl
  deriving Inhabited

end QueryFusion.Script
