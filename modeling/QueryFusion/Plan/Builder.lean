import QueryFusion.Plan.Node

/-!
# Building plans

Nodes are added bottom up: the inputs of a node are there already, and no other node has consumed
them. A plan is finished by naming its root, when every other node has been consumed.
-/

namespace QueryFusion

/-- A plan under construction. -/
structure PlanBuilder where
  /-- The plans rooted at the nodes added so far, in order of addition. -/
  nodes : List Plan
  /-- Consumed nodes with their consumers, the latest first. -/
  consumed : List (NodeId × NodeId)
  deriving Inhabited

/-- A finished plan: the plans rooted at its nodes, in order of addition, and the whole. -/
structure PlanTree where
  nodes : List Plan
  root : Plan
  deriving Inhabited

/-- A scan reads as many types as paths, and projects only fields that it reads. -/
def validateScan (id : NodeId) (spec : ScanSpec) : Except Error Unit :=
  if spec.paths.length ≠ spec.types.length then
    .error (.planInvariant ("scan " ++ id.text ++ " has " ++ toString spec.paths.length ++
      " field paths but " ++ toString spec.types.length ++ " field types"))
  else
    match spec.projects.find? fun project => project ≥ spec.paths.length with
    | some project => .error (.planInvariant ("scan " ++ id.text ++ " projects field " ++
        toString project ++ " of " ++ toString spec.paths.length))
    | none => .ok ()

namespace PlanBuilder

/-- The builder without nodes. -/
def empty : PlanBuilder :=
  ⟨[], []⟩

/-- The plan rooted at a node added before. -/
def node? (builder : PlanBuilder) (id : NodeId) : Option Plan :=
  builder.nodes.find? fun plan => plan.id == id

/-- The consumer of a node. -/
def consumer? (builder : PlanBuilder) (id : NodeId) : Option NodeId :=
  (builder.consumed.find? fun entry => entry.1 == id).map (·.2)

/-- Consumes the inputs of a node one by one and hands out their plans. What has been consumed
before a failure stays consumed. -/
def consume (builder : PlanBuilder) (id : NodeId) :
    List NodeId → Except Error (List Plan) × PlanBuilder
  | [] => (.ok [], builder)
  | input :: rest =>
    match builder.node? input with
    | none =>
      (.error (.planInvariant ("input " ++ input.text ++ " of node " ++ id.text ++ " not found")),
        builder)
    | some plan =>
      let next := { builder with consumed := (input, id) :: builder.consumed }
      match builder.consumer? input with
      | some owner =>
        (.error (.planInvariant ("node " ++ input.text ++ " is consumed by both " ++ owner.text ++
          " and " ++ id.text)), next)
      | none =>
        match next.consume id rest with
        | (.ok plans, final) => (.ok (plan :: plans), final)
        | (.error error, final) => (.error error, final)

/-- The conditions of a new node that do not concern its inputs' consumers. -/
def checkNode (builder : PlanBuilder) (id : NodeId) (operator : Operator) (inputs : List NodeId) :
    Except Error Unit :=
  if id < 0 then .error (.planInvariant ("negative node id " ++ id.text))
  else if (builder.node? id).isSome then
    .error (.planInvariant ("duplicate node id " ++ id.text))
  else if inputs.length ≠ operator.inputCount then
    .error (.planInvariant (operator.name ++ " node " ++ id.text ++ " expects " ++
      toString operator.inputCount ++ " inputs, got " ++ toString inputs.length))
  else .ok ()

/-- The conditions of an operator alone. -/
def checkOperator (id : NodeId) : Operator → Except Error Unit
  | .scan spec => validateScan id spec
  | _ => .ok ()

/-- Adds a node. -/
def add (builder : PlanBuilder) (id : NodeId) (operator : Operator) (inputs : List NodeId) :
    Except Error NodeId × PlanBuilder :=
  match builder.checkNode id operator inputs with
  | .error error => (.error error, builder)
  | .ok () =>
    match builder.consume id inputs with
    | (.error error, next) => (.error error, next)
    | (.ok plans, next) =>
      match checkOperator id operator, Plan.ofOperator? id operator plans with
      | .error error, _ => (.error error, next)
      | .ok (), some plan => (.ok id, { next with nodes := next.nodes ++ [plan] })
      | .ok (), none =>
          (.error (.planInvariant ("node " ++ id.text ++ " is missing an input")), next)

/-- Adds nodes until one is refused. -/
def addAll (builder : PlanBuilder) :
    List (NodeId × Operator × List NodeId) → Except Error PlanBuilder
  | [] => .ok builder
  | (id, operator, inputs) :: rest =>
    match builder.add id operator inputs with
    | (.ok _, next) => next.addAll rest
    | (.error error, _) => .error error

/-- Finishes the plan with the given root. -/
def build (builder : PlanBuilder) (root : NodeId) : Except Error PlanTree :=
  match builder.node? root with
  | none => .error (.planInvariant ("root " ++ root.text ++ " not found"))
  | some plan =>
    if (builder.consumer? root).isSome then
      .error (.planInvariant ("root " ++ root.text ++ " is consumed by another node"))
    else
      match builder.nodes.find? fun node =>
          node.id != root && (builder.consumer? node.id).isNone with
      | some orphan =>
        .error (.planInvariant
          ("node " ++ orphan.id.text ++ " is not connected to root " ++ root.text))
      | none => .ok ⟨builder.nodes, plan⟩

end PlanBuilder

namespace PlanTree

/-- Builds a plan from its nodes, bottom up. -/
def ofNodes (nodes : List (NodeId × Operator × List NodeId)) (root : NodeId) :
    Except Error PlanTree := do
  let builder ← PlanBuilder.empty.addAll nodes
  builder.build root

/-- The plan rooted at a node that must exist. -/
def require (tree : PlanTree) (id : NodeId) : Except Error Plan :=
  match tree.nodes.find? fun plan => plan.id == id with
  | some plan => .ok plan
  | none => .error (.planInvariant ("node " ++ id.text ++ " not found"))

/-- Number of nodes added. -/
def size (tree : PlanTree) : Nat :=
  tree.nodes.length

end PlanTree

end QueryFusion
