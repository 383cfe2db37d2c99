import QueryFusion.Plan.Builder

/-!
# Walking a plan

The nodes of a finished plan in post-order: the inputs of a node from left to right, then the node
itself. The walk keeps a stack of the nodes that it is inside of, each with the number of the input
that comes next, and looks up inputs by their ids.
-/

namespace QueryFusion

namespace PlanTree

/-- The plan rooted at a node. -/
def node? (tree : PlanTree) (id : NodeId) : Option Plan :=
  tree.nodes.find? fun plan => plan.id == id

/-- Goes on with a walk; `visited` holds the nodes that were left so far, the last one first. An
input that is no node is passed over. -/
def walk (tree : PlanTree) : Nat → List (Plan × Nat) → List Plan → Option (List Plan)
  | _, [], visited => some visited.reverse
  | 0, _ :: _, _ => none
  | fuel + 1, (plan, next) :: stack, visited =>
    match plan.inputs[next]? with
    | none => tree.walk fuel stack (plan :: visited)
    | some input =>
      match tree.node? input.id with
      | none => tree.walk fuel ((plan, next + 1) :: stack) visited
      | some found => tree.walk fuel ((found, 0) :: (plan, next + 1) :: stack) visited

/-- The nodes in post-order, if the fuel lasts. -/
def postOrder (tree : PlanTree) (fuel : Nat) : Option (List Plan) :=
  tree.walk fuel [(tree.root, 0)] []

end PlanTree

end QueryFusion
