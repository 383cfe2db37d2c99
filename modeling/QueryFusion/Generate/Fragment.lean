import QueryFusion.Generate.Generator

/-!
# Fragments of plans

A plan is split into its maximal runs of nodes that can be compiled: a scan with the filters and
projections that follow it. The other nodes stay interpreted. The nodes are visited from the leaves
up; what they hand on waits on a stack until its consumer is visited.
-/

namespace QueryFusion.Generate

/-- A maximal run of compilable nodes. -/
structure Fragment where
  /-- The plan whose executor the compiled unit replaces. -/
  plan : Plan
  /-- The generators, with the one that hands rows on at the top. -/
  tree : GeneratorTree
  deriving Inhabited

/-- Numbers without repetition, each at its first place. -/
def distinct (seen : List NodeId) : List NodeId → List NodeId
  | [] => []
  | id :: rest => if seen.contains id then distinct seen rest else id :: distinct (id :: seen) rest

namespace Fragment

/-- The fragment of a finished run. -/
def ofRun (plan : Plan) (tree : GeneratorTree) : Fragment :=
  ⟨plan, .node (.output plan.id) [tree]⟩

/-- The generators, from the leaf up. -/
def generators (fragment : Fragment) : List GeneratorTree :=
  fragment.tree.postOrder

/-- The node that the compiled unit replaces. -/
def primaryId (fragment : Fragment) : NodeId :=
  fragment.plan.id

/-- The nodes that the fragment stands for, from the leaf up. -/
def subsumedIds (fragment : Fragment) : List NodeId :=
  distinct [] (fragment.generators.map fun tree => tree.generator.id)

end Fragment

/-- A node whose output no other node has taken yet, with its generators. -/
structure Pending where
  plan : Plan
  tree : GeneratorTree
  deriving Inhabited

namespace Pending

/-- The node can be compiled. -/
def isCompilable (pending : Pending) : Bool :=
  pending.tree.generator.isCompilable

/-- A node that stays interpreted; what is below it has been finished. -/
def interpreted (plan : Plan) : Pending :=
  ⟨plan, .node (.interpreted plan.id) []⟩

/-- The fragment of a run that ends here; an interpreted node has none. -/
def finish (pending : Pending) : List Fragment :=
  if !pending.isCompilable then []
  else if pending.tree.generator.isTerminal then [⟨pending.plan, pending.tree⟩]
  else [.ofRun pending.plan pending.tree]

end Pending

/-- A plan that is being split, node by node from the leaves up. -/
structure Splitter where
  /-- The nodes whose output is not taken yet, the latest first. -/
  stack : List Pending
  /-- The fragments finished so far. -/
  fragments : List Fragment
  deriving Inhabited

namespace Splitter

/-- The splitter before the first node. -/
def start : Splitter :=
  ⟨[], []⟩

/-- The node visited last can be compiled. -/
def topIsCompilable (splitter : Splitter) : Bool :=
  (splitter.stack.head?.map Pending.isCompilable).getD false

/-- The splitter with one more node whose output is not taken. -/
def push (splitter : Splitter) (pending : Pending) : Splitter :=
  { splitter with stack := pending :: splitter.stack }

/-- Takes the outputs that a node consumes, from left to right. They must be those of its
inputs. -/
def takeInputs (splitter : Splitter) (plan : Plan) : Except Error (List Pending × Splitter) :=
  let count := plan.operator.inputCount
  if splitter.stack.length < count then
    .error (.planInvariant ("node " ++ plan.text ++ " consumes " ++ toString count ++
      " inputs but " ++ toString splitter.stack.length ++ " are pending"))
  else
    let inputs := (splitter.stack.take count).reverse
    match (plan.inputs.zip inputs).find? fun (input, pending) => input.id != pending.plan.id with
    | some (input, pending) =>
      .error (.planInvariant ("node " ++ plan.text ++ " expects input " ++ input.id.text ++
        ", found " ++ pending.plan.id.text))
    | none => .ok (inputs, { splitter with stack := splitter.stack.drop count })

/-- Goes on with a run: the generators of the node stand over those of its input. -/
def extend (splitter : Splitter) (plan : Plan) (generator : Generator) :
    Except Error Splitter := do
  let (inputs, rest) ← splitter.takeInputs plan
  .ok (rest.push ⟨plan, .node generator (inputs.map Pending.tree)⟩)

/-- Ends the runs below a node that stays interpreted. -/
def interrupt (splitter : Splitter) (plan : Plan) : Except Error Splitter := do
  let (inputs, rest) ← splitter.takeInputs plan
  .ok { rest.push (.interpreted plan) with
    fragments := rest.fragments ++ inputs.flatMap Pending.finish }

/-- Visits a node, whose inputs have been visited before. A scan that has no form in source stays
interpreted; filters and projections go on with the run of their input if there is one. -/
def visit (splitter : Splitter) (plan : Plan) : Except Error Splitter :=
  match plan with
  | .scan id spec =>
    match checkScan spec with
    | .ok () => .ok (splitter.push ⟨plan, .node (.scan id spec) []⟩)
    | .error (.unsupported _) => .ok (splitter.push (.interpreted plan))
    | .error error => .error error
  | .filter id condition _ =>
    if splitter.topIsCompilable then splitter.extend plan (.filter id condition)
    else splitter.interrupt plan
  | .project id expressions _ =>
    if splitter.topIsCompilable then splitter.extend plan (.project id expressions)
    else splitter.interrupt plan
  | _ => splitter.interrupt plan

/-- Visits nodes one after another. -/
def visitAll (splitter : Splitter) : List Plan → Except Error Splitter
  | [] => .ok splitter
  | plan :: rest => do
    let next ← splitter.visit plan
    next.visitAll rest

/-- The fragments of a plan whose nodes have all been visited: one output is left, that of the
whole plan. -/
def close (splitter : Splitter) : Except Error (List Fragment) :=
  match splitter.stack with
  | [last] => .ok (splitter.fragments ++ last.finish)
  | stack =>
    .error (.planInvariant (toString stack.length ++
      " generators left after partitioning, expected 1"))

end Splitter

/-- The fragments of a plan, in the order in which they end. -/
def partition (plan : Plan) : Except Error (List Fragment) := do
  let splitter ← Splitter.start.visitAll plan.postOrder
  splitter.close

end QueryFusion.Generate
