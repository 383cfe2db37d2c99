import QueryFusion.Expr
import QueryFusion.Path

/-!
# Plans

The operators of a physical plan, and plans as trees of them. A scan is a leaf, a join has two
inputs, and every other operator has one; the tree type carries these numbers.
-/

namespace QueryFusion

/-- The id of a plan node. -/
abbrev NodeId := Int32

/-- The text of an id. -/
def NodeId.text (id : NodeId) : String :=
  toString id.toInt

/-- A scan over the entries of a map. -/
structure ScanSpec where
  mapName : String
  keyShape : Shape
  valueShape : Shape
  /-- The fields read from each entry. -/
  paths : List FieldPath
  /-- The types the fields are converted to. -/
  types : List DataType
  /-- The fields of the output row, by index. -/
  projects : List Nat
  /-- A condition on the fields read. -/
  filter : Option Expr
  deriving Inhabited

/-- What a plan node does. -/
inductive Operator
  | root
  | scan (spec : ScanSpec)
  | filter (condition : Expr)
  | project (expressions : List Expr)
  /-- Columns in order of weight, each with its direction; a missing direction is ascending. -/
  | sort (columns : List Nat) (ascending : List Bool)
  /-- The condition sees the left columns, then the right ones. -/
  | join (condition : Option Expr)
  deriving Inhabited

namespace Operator

/-- Number of inputs of an operator. -/
def inputCount : Operator → Nat
  | scan _ => 0
  | root | filter _ | project _ | sort .. => 1
  | join _ => 2

/-- The name of an operator. -/
def name : Operator → String
  | root => "Root"
  | scan _ => "MapScan"
  | filter _ => "Filter"
  | project _ => "Project"
  | sort .. => "Sort"
  | join _ => "NestedLoopJoin"

end Operator

/-- A plan: a node with the plans of its inputs. -/
inductive Plan
  | root (id : NodeId) (input : Plan)
  | scan (id : NodeId) (spec : ScanSpec)
  | filter (id : NodeId) (condition : Expr) (input : Plan)
  | project (id : NodeId) (expressions : List Expr) (input : Plan)
  | sort (id : NodeId) (columns : List Nat) (ascending : List Bool) (input : Plan)
  | join (id : NodeId) (condition : Option Expr) (left right : Plan)
  deriving Inhabited

namespace Plan

/-- The id of the top node. -/
def id : Plan → NodeId
  | root id _ | scan id _ | filter id _ _ | project id _ _ | sort id _ _ _ | join id _ _ _ => id

/-- The operator of the top node. -/
def operator : Plan → Operator
  | root _ _ => .root
  | scan _ spec => .scan spec
  | filter _ condition _ => .filter condition
  | project _ expressions _ => .project expressions
  | sort _ columns ascending _ => .sort columns ascending
  | join _ condition _ _ => .join condition

/-- The inputs of the top node, from left to right. -/
def inputs : Plan → List Plan
  | scan _ _ => []
  | root _ input | filter _ _ input | project _ _ input | sort _ _ _ input => [input]
  | join _ _ left right => [left, right]

/-- The plan with this operator on top, when the number of inputs is right. -/
def ofOperator? (id : NodeId) : Operator → List Plan → Option Plan
  | .root, [input] => some (root id input)
  | .scan spec, [] => some (scan id spec)
  | .filter condition, [input] => some (filter id condition input)
  | .project expressions, [input] => some (project id expressions input)
  | .sort columns ascending, [input] => some (sort id columns ascending input)
  | .join condition, [left, right] => some (join id condition left right)
  | _, _ => none

/-- A plan has as many inputs as its operator takes. -/
theorem length_inputs (plan : Plan) : plan.inputs.length = plan.operator.inputCount := by
  cases plan <;> rfl

/-- A plan is made up again from its parts. -/
theorem ofOperator?_inputs (plan : Plan) :
    ofOperator? plan.id plan.operator plan.inputs = some plan := by
  cases plan <;> rfl

/-- The text of the top node. -/
def text (plan : Plan) : String :=
  plan.operator.name ++ "#" ++ plan.id.text

/-- The plan and all plans below it: first those of the inputs from left to right, then itself. -/
def postOrder : Plan → List Plan
  | scan id spec => [scan id spec]
  | root id input => input.postOrder ++ [root id input]
  | filter id condition input => input.postOrder ++ [filter id condition input]
  | project id expressions input => input.postOrder ++ [project id expressions input]
  | sort id columns ascending input => input.postOrder ++ [sort id columns ascending input]
  | join id condition left right =>
    left.postOrder ++ right.postOrder ++ [join id condition left right]

/-- A plan is among the plans of itself. -/
theorem mem_postOrder (plan : Plan) : plan ∈ plan.postOrder := by
  cases plan <;> simp [postOrder]

end Plan

end QueryFusion
