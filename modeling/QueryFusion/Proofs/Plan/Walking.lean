import QueryFusion.Plan.Walk
import QueryFusion.Proofs.Plan.Records

/-!
# Walks over built plans

The calls that add the nodes of a plan tell when the plan can be finished: its root is an added
node, no node consumes the root, and every other node is consumed. The walk over a finished plan
then ends, and visits every node once, each one directly behind the walks over its inputs.
-/

namespace QueryFusion

/-! ## What was added -/

namespace PlanBuilder

variable {builder next : PlanBuilder} {entries : List (NodeId × Operator × List NodeId)}

/-- A builder after these calls, all of which were accepted. -/
structure Holds (builder : PlanBuilder) (entries : List (NodeId × Operator × List NodeId)) :
    Prop where
  /-- The nodes are those that were added. -/
  added : builder.nodes.map Plan.entry = entries
  /-- The inputs of a node are nodes. -/
  closed : ∀ plan ∈ builder.nodes, ∀ input ∈ plan.inputs, input ∈ builder.nodes
  /-- A node has a consumer exactly when it is an input of a node that was added. -/
  consumed : ∀ id, (builder.consumer? id).isSome ↔ ∃ entry ∈ entries, id ∈ entry.2.2

/-- Nothing was added to a new builder. -/
theorem Holds.empty : Holds .empty [] :=
  ⟨rfl, nofun, fun id => by simp [consumer?, PlanBuilder.empty]⟩

/-- One more accepted call. -/
theorem Holds.add {id new : NodeId} {operator : Operator} {inputs : List NodeId}
    (holds : builder.Holds entries) (added : builder.add id operator inputs = (.ok new, next)) :
    next.Holds (entries ++ [(id, operator, inputs)]) := by
  rcases builder.add_cases id operator inputs with
    ⟨plan, accepts, same⟩ | ⟨error, marked, -, same⟩
  · rw [added] at same
    cases same
    refine ⟨?_, ?_, fun other => ?_⟩
    · rw [List.map_append, holds.added, List.map_singleton, accepts.entry]
    · intro node member input below
      refine List.mem_append_left _ ?_
      rcases List.mem_append.1 member with old | last
      · exact holds.closed node old input below
      · rw [List.mem_singleton.1 last] at below
        exact accepts.inside input below
    · have owner : ({ builder.mark id inputs with nodes := builder.nodes ++ [plan] } :
          PlanBuilder).consumer? other = if other ∈ inputs then some id
            else builder.consumer? other :=
        consumer?_mark builder id inputs other
      rw [owner]
      simp only [List.mem_append, List.mem_singleton, or_and_right, exists_or, exists_eq_left]
      rw [← holds.consumed other]
      split
      · simp [*]
      · simp [*]
  · rw [added] at same
    cases same

/-- A run of accepted calls. -/
theorem Holds.addAll {more : List (NodeId × Operator × List NodeId)} (holds : builder.Holds entries)
    (added : builder.addAll more = .ok next) : next.Holds (entries ++ more) := by
  induction more generalizing builder entries with
  | nil =>
    cases added
    rwa [List.append_nil]
  | cons entry rest step =>
    obtain ⟨id, operator, inputs⟩ := entry
    simp only [PlanBuilder.addAll] at added
    split at added
    · rename_i accepted
      have whole := step (holds.add accepted) added
      rwa [List.append_assoc] at whole
    · cases added

/-- The ids of the nodes are those that were added. -/
theorem Holds.ids (holds : builder.Holds entries) :
    builder.nodes.map Plan.id = entries.map (·.1) := by
  rw [← holds.added, List.map_map]
  rfl

/-- A node is found exactly when it was added. -/
theorem Holds.node?_isSome_iff (holds : builder.Holds entries) (id : NodeId) :
    (builder.node? id).isSome ↔ id ∈ entries.map (·.1) := by
  rw [← holds.ids]
  exact PlanBuilder.node?_isSome_iff

/-- What finishing a plan checks. -/
theorem build_ok_iff (root : NodeId) : (∃ tree, builder.build root = .ok tree) ↔
    (builder.node? root).isSome ∧ ¬ (builder.consumer? root).isSome ∧
      ∀ id ∈ builder.nodes.map Plan.id, id ≠ root → (builder.consumer? id).isSome := by
  unfold PlanBuilder.build
  split
  · rename_i missing
    simp [missing]
  rename_i plan found
  split
  · rename_i taken
    simp [taken]
  rename_i free
  split
  · rename_i orphan lost
    refine ⟨nofun, fun whole => ?_⟩
    have bad := List.find?_some lost
    rw [Bool.and_eq_true, bne_iff_ne, Option.isNone_iff_eq_none] at bad
    have owned := whole.2.2 orphan.id (List.mem_map_of_mem (List.mem_of_find?_eq_some lost)) bad.1
    rw [bad.2] at owned
    cases owned
  · rename_i connected
    refine ⟨fun _ => ⟨by rw [found]; rfl, free, fun id member other => ?_⟩, fun _ => ⟨_, rfl⟩⟩
    obtain ⟨node, there, rfl⟩ := List.mem_map.1 member
    have checked := List.find?_eq_none.1 connected node there
    rw [Bool.and_eq_true, bne_iff_ne, Option.isNone_iff_eq_none, not_and] at checked
    exact Option.isSome_iff_ne_none.2 (checked other)

end PlanBuilder

/-! ## The walk -/

/-- Induction over a plan by its inputs. -/
theorem Plan.induction_on_inputs {holds : Plan → Prop}
    (node : ∀ plan, (∀ input ∈ plan.inputs, holds input) → holds plan) (plan : Plan) :
    holds plan := by
  induction plan with
  | scan id spec => exact node _ nofun
  | root _ _ below | filter _ _ _ below | project _ _ _ below | sort _ _ _ _ below =>
    exact node _ fun input member => List.mem_singleton.1 member ▸ below
  | join id condition left right leftHolds rightHolds =>
    refine node _ fun input member => ?_
    rcases List.mem_pair.1 member with rfl | rfl
    · exact leftHolds
    · exact rightHolds

namespace PlanTree

variable {tree : PlanTree}

/-- A walk without entered nodes is over. -/
theorem walk_nil (tree : PlanTree) (fuel : Nat) (visited : List Plan) :
    tree.walk fuel [] visited = some visited.reverse := by
  cases fuel <;> rfl

/-- A node is found by its id. -/
theorem node?_of_mem (distinct : (tree.nodes.map Plan.id).Nodup) {plan : Plan}
    (member : plan ∈ tree.nodes) : tree.node? plan.id = some plan := by
  unfold node?
  cases found : tree.nodes.find? fun other => other.id == plan.id with
  | none => exact absurd (beq_self_eq_true plan.id) (List.find?_eq_none.1 found plan member)
  | some other =>
    have same := List.find?_some found
    rw [List.inj_on_of_nodup_map distinct (List.mem_of_find?_eq_some found) member (eq_of_beq same)]

/-- Steps that a walk takes inside of a node whose inputs these are: it enters and leaves each node
below, and goes back to the node behind each input. -/
def stepsAbove (inputs : List Plan) : Nat :=
  2 * (inputs.flatMap Plan.postOrder).length + 1

/-- From the entry of a node on, the walk visits the post-order of the node and then goes on. -/
def Visits (tree : PlanTree) (plan : Plan) : Prop :=
  ∀ fuel stack visited, tree.walk (fuel + stepsAbove plan.inputs) ((plan, 0) :: stack) visited =
    tree.walk fuel stack (plan.postOrder.reverse ++ visited)

/-- Inside of a node, the walk visits the post-orders of the inputs that are left, then the node. -/
theorem walk_inputs {plan : Plan} (found : ∀ input ∈ plan.inputs, tree.node? input.id = some input)
    (below : ∀ input ∈ plan.inputs, tree.Visits input) {next : Nat} {rest : List Plan}
    (left : plan.inputs.drop next = rest) (fuel : Nat) (stack : List (Plan × Nat))
    (visited : List Plan) :
    tree.walk (fuel + stepsAbove rest) ((plan, next) :: stack) visited =
      tree.walk fuel stack (plan :: ((rest.flatMap Plan.postOrder).reverse ++ visited)) := by
  induction rest generalizing next visited with
  | nil =>
    have past : plan.inputs[next]? = none := by
      rw [← List.head?_drop, left, List.head?_nil]
    simp only [stepsAbove, List.flatMap_nil, List.length_nil, walk, past]
    rfl
  | cons input rest step =>
    have here : plan.inputs[next]? = some input := by
      rw [← List.head?_drop, left, List.head?_cons]
    have member : input ∈ plan.inputs := List.mem_of_getElem? here
    have behind : plan.inputs.drop (next + 1) = rest := by
      rw [← List.tail_drop, left, List.tail_cons]
    have steps : fuel + stepsAbove (input :: rest) =
        fuel + stepsAbove rest + stepsAbove input.inputs + 1 := by
      simp only [stepsAbove, List.flatMap_cons, List.length_append, Plan.postOrder_eq input,
        List.length_singleton]
      omega
    rw [steps, walk, here]
    simp only [found input member]
    rw [below input member, step behind, List.flatMap_cons, List.reverse_append, List.append_assoc]

/-- When inputs are found by their ids, the walk over each node is its post-order. -/
theorem visits (distinct : (tree.nodes.map Plan.id).Nodup)
    (closed : ∀ plan ∈ tree.nodes, ∀ input ∈ plan.inputs, input ∈ tree.nodes) (plan : Plan)
    (member : plan ∈ tree.nodes) : tree.Visits plan := by
  induction plan using Plan.induction_on_inputs with
  | node plan step =>
    intro fuel stack visited
    have found : ∀ input ∈ plan.inputs, tree.node? input.id = some input :=
      fun input below => node?_of_mem distinct (closed plan member input below)
    have below : ∀ input ∈ plan.inputs, tree.Visits input :=
      fun input there => step input there (closed plan member input there)
    rw [walk_inputs found below (List.drop_zero ..) fuel stack visited, plan.postOrder_eq,
      List.reverse_append]
    rfl

end PlanTree

/-- In a post-order each node stands directly behind the post-orders of its inputs. -/
theorem Plan.postOrder_split {plan inner : Plan} (member : inner ∈ plan.postOrder) :
    ∃ before after, plan.postOrder =
      before ++ (inner.inputs.flatMap Plan.postOrder ++ [inner]) ++ after := by
  induction plan using Plan.induction_on_inputs with
  | node plan step =>
    rw [plan.postOrder_eq] at member
    rcases List.mem_append.1 member with below | top
    · obtain ⟨input, there, inside⟩ := List.mem_flatMap.1 below
      obtain ⟨before, after, split⟩ := step input there inside
      obtain ⟨first, last, inputs⟩ := List.append_of_mem there
      refine ⟨first.flatMap Plan.postOrder ++ before,
        after ++ last.flatMap Plan.postOrder ++ [plan], ?_⟩
      rw [plan.postOrder_eq, inputs, List.flatMap_append, List.flatMap_cons, split]
      simp only [List.append_assoc]
    · rw [List.mem_singleton.1 top]
      exact ⟨[], [], by rw [plan.postOrder_eq, List.nil_append, List.append_nil]⟩

/-! ## Built plans -/

/-- Nodes that were all accepted make a plan exactly when its root is one of them, no node consumes
the root, and every other node is consumed. The walk over the plan ends after at most two steps for
each node; it visits every node once, each one directly behind the post-orders of its inputs from
left to right, and the root last. -/
theorem built_plans_are_walked {entries : List (NodeId × Operator × List NodeId)}
    {builder : PlanBuilder} (added : PlanBuilder.empty.addAll entries = .ok builder)
    (root : NodeId) :
    ((∃ tree, builder.build root = .ok tree) ↔
      root ∈ entries.map (·.1) ∧ (∀ entry ∈ entries, root ∉ entry.2.2) ∧
        ∀ entry ∈ entries, entry.1 ≠ root → ∃ consumer ∈ entries, entry.1 ∈ consumer.2.2) ∧
    ∀ tree, builder.build root = .ok tree →
      tree.nodes.map Plan.entry = entries ∧ tree.root.id = root ∧
      ∃ order, (∀ fuel, 2 * entries.length ≤ fuel → tree.postOrder fuel = some order) ∧
        order.Perm tree.nodes ∧ (order.map Plan.id).Nodup ∧
        (∀ plan ∈ order, ∃ before after, order =
          before ++ (plan.inputs.flatMap Plan.postOrder ++ [plan]) ++ after) ∧
        ∃ others, order = others ++ [tree.root] := by
  have holds := PlanBuilder.Holds.empty.addAll added
  rw [List.nil_append] at holds
  have sound := PlanBuilder.Sound.empty.addAll added
  refine ⟨?_, fun tree built => ?_⟩
  · rw [PlanBuilder.build_ok_iff, holds.node?_isSome_iff, holds.ids, holds.consumed]
    simp only [holds.consumed, List.forall_mem_map, not_exists, not_and]
  · obtain ⟨nodes, rootId, rootMember⟩ := PlanBuilder.build_eq_ok built
    have whole := (sound.build built).whole
    have closed := holds.closed
    have distinct := sound.distinct
    rw [← nodes] at closed distinct rootMember
    have count : entries.length = (tree.root.inputs.flatMap Plan.postOrder).length + 1 := by
      rw [← holds.added, ← nodes, List.length_map, ← whole.length_eq, tree.root.postOrder_eq,
        List.length_append, List.length_singleton]
    refine ⟨by rw [nodes, holds.added], rootId, tree.root.postOrder, ?_, whole,
      (whole.map Plan.id).nodup_iff.2 distinct, fun plan member => Plan.postOrder_split member, ?_⟩
    · intro fuel enough
      obtain ⟨rest, rfl⟩ : ∃ rest, fuel = rest + PlanTree.stepsAbove tree.root.inputs :=
        ⟨fuel - PlanTree.stepsAbove tree.root.inputs, by unfold PlanTree.stepsAbove; omega⟩
      rw [PlanTree.postOrder, PlanTree.visits distinct closed tree.root rootMember,
        PlanTree.walk_nil, List.append_nil, List.reverse_reverse]
    · exact ⟨_, tree.root.postOrder_eq⟩

/-- Calls that join a filtered scan with one that was added before it. -/
def forkCalls : List (NodeId × Operator × List NodeId) :=
  [(7, .scan default, []), (2, .scan default, []),
    (5, .filter (.constant (.boolean true) .boolean), [2]), (3, .join none, [5, 7]),
    (9, .root, [3])]

/-- A join of two branches is finished and walked. -/
theorem built_plans_are_walked_fork : ∃ builder tree order,
    PlanBuilder.empty.addAll forkCalls = .ok builder ∧ builder.build 9 = .ok tree ∧
    tree.postOrder 10 = some order ∧ order.Perm tree.nodes ∧
    ∃ others, order = others ++ [tree.root] := by
  have added : PlanBuilder.empty.addAll forkCalls = .ok
      ⟨[.scan 7 default, .scan 2 default,
        .filter 5 (.constant (.boolean true) .boolean) (.scan 2 default),
        .join 3 none (.filter 5 (.constant (.boolean true) .boolean) (.scan 2 default))
          (.scan 7 default),
        .root 9 (.join 3 none (.filter 5 (.constant (.boolean true) .boolean) (.scan 2 default))
          (.scan 7 default))], [(3, 9), (7, 3), (5, 3), (2, 5)]⟩ := rfl
  obtain ⟨finishes, walked⟩ := built_plans_are_walked added 9
  obtain ⟨tree, built⟩ := finishes.2 (by decide)
  obtain ⟨-, -, order, visited, perm, -, -, last⟩ := walked tree built
  exact ⟨_, tree, order, added, built, visited 10 (by decide), perm, last⟩

/-- The filtered scan comes first, because the join has it on the left. -/
example : (PlanTree.ofNodes forkCalls 9).toOption.bind (fun tree => (tree.postOrder 10).map
    (·.map Plan.id)) = some [2, 5, 7, 3, 9] := by
  decide

end QueryFusion
