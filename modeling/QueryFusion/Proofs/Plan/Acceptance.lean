import QueryFusion.Proofs.Plan.Refusals
import QueryFusion.Proofs.Plan.Walking

/-!
# Plans behind refused nodes

A builder may refuse nodes before it finishes a plan. The marks that refused nodes leave can only
keep a node from being consumed again, so the tree of the root is one that accepted nodes make
alone: the calls that add its nodes in post-order are all accepted, and they finish a plan with the
same root.
-/

namespace QueryFusion

/-! ## Roots -/

/-- What holds of the root of every finished plan. -/
structure Plan.Sound (plan : Plan) : Prop where
  /-- No two nodes have the same id. -/
  distinct : (plan.postOrder.map Plan.id).Nodup
  /-- Ids are not negative, and scans are valid. -/
  valid : ∀ inner ∈ plan.postOrder,
    0 ≤ inner.id ∧ PlanBuilder.checkOperator inner.id inner.operator = .ok ()

/-- A plan is built when calls that add nodes, whatever is answered to them, are followed by one
that finishes it. -/
def PlanTree.Built (tree : PlanTree) : Prop :=
  ∃ calls root, (PlanBuilder.empty.addEach calls).2.build root = .ok tree

namespace PlanBuilder

variable {builder next : PlanBuilder} {lost : List Plan}

/-- The nodes of a sound builder are told apart by their ids. -/
theorem Sound.eq_of_id (sound : builder.Sound lost) {first second : Plan}
    (left : first ∈ builder.nodes) (right : second ∈ builder.nodes) (same : first.id = second.id) :
    first = second :=
  List.inj_on_of_nodup_map sound.distinct left right same

/-- A marked node and what is below it are lost. -/
theorem Sound.marked (sound : builder.Sound lost) {input : NodeId}
    (present : (builder.node? input).isSome) (id : NodeId) :
    ∃ more, Sound { builder with consumed := (input, id) :: builder.consumed } (more ++ lost) := by
  let taken : Plan → Bool := fun plan => plan.id == input
  have kept : unconsumed { builder with consumed := (input, id) :: builder.consumed } =
      builder.unconsumed.filter fun plan => !taken plan := by
    unfold unconsumed
    rw [List.filter_filter]
    refine List.filter_congr fun plan _ => ?_
    rw [consumer?_cons]
    by_cases same : input = plan.id
    · simp [taken, same]
    · simp [taken, same, Ne.symm same]
  refine ⟨(builder.unconsumed.filter taken).flatMap Plan.postOrder, sound.distinct,
    fun entry member => ?_, ?_, sound.valid⟩
  · rcases List.mem_cons.1 member with rfl | old
    · exact node?_isSome_iff.1 present
    · exact sound.known entry old
  · have parts := List.filter_append_perm taken builder.unconsumed
    rw [kept, ← List.append_assoc, ← List.flatMap_append]
    exact (((List.perm_append_comm.trans parts).flatMap_right Plan.postOrder).append_right
      lost).trans sound.forest

/-- Marked nodes and what is below them are lost. -/
theorem Sound.mark (sound : builder.Sound lost) (id : NodeId) {inputs : List NodeId}
    (present : ∀ input ∈ inputs, (builder.node? input).isSome) :
    ∃ more, (builder.mark id inputs).Sound more := by
  induction inputs generalizing builder lost with
  | nil => exact ⟨lost, sound⟩
  | cons input rest step =>
    obtain ⟨more, marked⟩ := sound.marked (present input List.mem_cons_self) id
    exact step marked fun other member => present other (List.mem_cons_of_mem _ member)

/-- A builder stays sound, whatever it answers. -/
theorem Sound.behind (sound : builder.Sound lost) (id : NodeId) (operator : Operator)
    (inputs : List NodeId) : ∃ more, (builder.add id operator inputs).2.Sound more := by
  rcases builder.add_cases id operator inputs with ⟨plan, -, same⟩ | ⟨error, marked, refuses, same⟩
  · rw [same]
    exact ⟨lost, sound.add same⟩
  · rw [same]
    cases refuses with
    | unfit _ | invalid _ _ _ => exact ⟨lost, sound⟩
    | stuck _ stuck => exact sound.mark id fun input inside => stuck.present inside

/-- A builder stays sound behind any calls. -/
theorem Sound.addEach (sound : builder.Sound lost)
    (calls : List (NodeId × Operator × List NodeId)) :
    ∃ more, (builder.addEach calls).2.Sound more := by
  induction calls generalizing builder lost with
  | nil => exact ⟨lost, sound⟩
  | cons call rest step =>
    obtain ⟨id, operator, inputs⟩ := call
    obtain ⟨more, next⟩ := sound.behind id operator inputs
    exact step next

/-- The root of a finished plan is sound, whatever the builder has lost. -/
theorem Sound.root (sound : builder.Sound lost) {root : NodeId} {tree : PlanTree}
    (built : builder.build root = .ok tree) : tree.root.Sound := by
  have whole := sound.postOrder_perm built
  have ids : ((tree.root.postOrder ++ lost).map Plan.id).Nodup :=
    (whole.map Plan.id).nodup_iff.2 sound.distinct
  rw [List.map_append] at ids
  exact ⟨ids.of_append_left, fun inner member =>
    sound.valid inner (whole.subset (List.mem_append_left lost member))⟩

/-! ## Accepted calls -/

/-- Calls are made one behind the other. -/
theorem addAll_append {former later : List (NodeId × Operator × List NodeId)}
    (added : builder.addAll former = .ok next) :
    builder.addAll (former ++ later) = next.addAll later := by
  induction former generalizing builder with
  | nil =>
    cases added
    rfl
  | cons entry rest step =>
    obtain ⟨id, operator, inputs⟩ := entry
    simp only [List.cons_append, addAll] at added ⊢
    split at added
    · exact step added
    · cases added

/-- Nodes are told apart by their ids, also one after the other. -/
theorem Sound.eq_of_ids (sound : builder.Sound lost) {former latter : List Plan}
    (left : ∀ plan ∈ former, plan ∈ builder.nodes) (right : ∀ plan ∈ latter, plan ∈ builder.nodes)
    (ids : former.map Plan.id = latter.map Plan.id) : former = latter := by
  induction former generalizing latter with
  | nil => simpa [eq_comm] using ids
  | cons plan rest step =>
    obtain _ | ⟨other, others⟩ := latter
    · cases ids
    · obtain ⟨top, below⟩ := List.cons.inj ids
      rw [List.forall_mem_cons] at left right
      rw [sound.eq_of_id left.1 right.1 top, step left.2 right.2 below]

/-- Plans on top of nodes are told apart by their entries. -/
theorem Sound.eq_of_entry (sound : builder.Sound lost) {first second : Plan}
    (left : ∀ input ∈ first.inputs, input ∈ builder.nodes)
    (right : ∀ input ∈ second.inputs, input ∈ builder.nodes) (same : first.entry = second.entry) :
    first = second := by
  obtain ⟨id, operator, ids⟩ : first.id = second.id ∧ first.operator = second.operator ∧
      first.inputs.map Plan.id = second.inputs.map Plan.id := by simpa [Plan.entry] using same
  have made := first.ofOperator?_inputs
  rw [id, operator, sound.eq_of_ids left right ids, second.ofOperator?_inputs] at made
  exact (Option.some.inj made).symm

/-- A node whose inputs are nodes without consumers is accepted. -/
theorem Sound.add_plan (sound : builder.Sound lost) {plan : Plan}
    (fresh : plan.id ∉ builder.nodes.map Plan.id)
    (valid : 0 ≤ plan.id ∧ checkOperator plan.id plan.operator = .ok ())
    (free : builder.Free (plan.inputs.map Plan.id))
    (inside : ∀ input ∈ plan.inputs, input ∈ builder.nodes) :
    builder.add plan.id plan.operator (plan.inputs.map Plan.id) = (.ok plan.id,
      { builder.mark plan.id (plan.inputs.map Plan.id) with nodes :=
        builder.nodes ++ [plan] }) := by
  have missing : builder.node? plan.id = none := by
    rwa [← node?_isSome_iff, Option.not_isSome_iff_eq_none] at fresh
  have fit : builder.checkNode plan.id plan.operator (plan.inputs.map Plan.id) = .ok () :=
    checkNode_eq_ok_iff.2 ⟨valid.1, missing, by rw [List.length_map, plan.length_inputs]⟩
  rcases builder.add_cases plan.id plan.operator (plan.inputs.map Plan.id) with
    ⟨made, accepts, same⟩ | ⟨error, marked, refuses, -⟩
  · rw [same, sound.eq_of_entry accepts.inside inside accepts.entry]
  · exfalso
    cases refuses with
    | unfit reason =>
      rw [fit] at reason
      cases reason
    | invalid _ _ reason =>
      rw [valid.2] at reason
      cases reason
    | stuck _ stuck =>
      cases stuck with
      | @missing kept rest bad split _ absent =>
        have present := free.present bad (by rw [split]; simp)
        rw [absent] at present
        cases present
      | @claimed kept rest bad owner split _ _ owned =>
        have apart := free.apart
        have unclaimed := free.unclaimed bad (by rw [split]; simp)
        rw [split, List.nodup_append] at apart
        have first : bad ∉ kept := fun early => apart.2.2 bad early bad List.mem_cons_self rfl
        rw [if_neg first, unclaimed] at owned
        cases owned

/-- Calls that are all accepted add these nodes. The tops have no consumer afterwards, and nodes
that were there before keep theirs. -/
structure Gains (builder : PlanBuilder) (plans tops : List Plan) (next : PlanBuilder) : Prop where
  added : builder.addAll (plans.map Plan.entry) = .ok next
  nodes : next.nodes = builder.nodes ++ plans
  kept : ∀ id ∈ builder.nodes.map Plan.id, next.consumer? id = builder.consumer? id
  free : ∀ top ∈ tops, next.consumer? top.id = none

/-- The nodes can be added in this order, as far as their ids and operators go. -/
structure Fits (builder : PlanBuilder) (plans : List Plan) : Prop where
  distinct : ((builder.nodes ++ plans).map Plan.id).Nodup
  valid : ∀ plan ∈ plans, 0 ≤ plan.id ∧ checkOperator plan.id plan.operator = .ok ()

/-- Plans stand in this order among their nodes. -/
theorem sublist_flatMap_postOrder (plans : List Plan) :
    plans.Sublist (plans.flatMap Plan.postOrder) := by
  induction plans with
  | nil => exact .slnil
  | cons plan rest step =>
    rw [List.flatMap_cons]
    exact (List.singleton_sublist.2 plan.mem_postOrder).append step

/-- The nodes of plans one after the other. -/
theorem gains_flatMap {plans : List Plan}
    (each : ∀ plan ∈ plans, ∀ {builder : PlanBuilder}, builder.Sound [] →
      builder.Fits plan.postOrder → ∃ next, builder.Gains plan.postOrder [plan] next)
    {builder : PlanBuilder} (sound : builder.Sound [])
    (fits : builder.Fits (plans.flatMap Plan.postOrder)) :
    ∃ next, builder.Gains (plans.flatMap Plan.postOrder) plans next := by
  induction plans generalizing builder with
  | nil => exact ⟨builder, rfl, (List.append_nil _).symm, fun _ _ => rfl, nofun⟩
  | cons plan rest step =>
    obtain ⟨distinct, valid⟩ := fits
    rw [List.flatMap_cons] at distinct valid
    have front : builder.Fits plan.postOrder := by
      refine ⟨?_, fun inner member => valid inner (List.mem_append_left _ member)⟩
      rw [← List.append_assoc, List.map_append] at distinct
      exact distinct.of_append_left
    obtain ⟨middle, first⟩ := each plan List.mem_cons_self sound front
    have back : middle.Fits (rest.flatMap Plan.postOrder) := by
      refine ⟨?_, fun inner member => valid inner (List.mem_append_right _ member)⟩
      rw [first.nodes, List.append_assoc]
      exact distinct
    obtain ⟨next, further⟩ := step (fun other member => each other (List.mem_cons_of_mem _ member))
      (sound.addAll first.added) back
    refine ⟨next, ?_, ?_, fun id member => ?_, fun top member => ?_⟩
    · rw [List.flatMap_cons, List.map_append, addAll_append first.added, further.added]
    · rw [further.nodes, first.nodes, List.flatMap_cons, List.append_assoc]
    · rw [further.kept id, first.kept id member]
      rw [first.nodes, List.map_append]
      exact List.mem_append_left _ member
    · rcases List.mem_cons.1 member with rfl | later
      · rw [further.kept, first.free top (List.mem_singleton_self top)]
        rw [first.nodes]
        exact List.mem_map_of_mem (List.mem_append_right _ top.mem_postOrder)
      · exact further.free top later

/-- The nodes of a plan in post-order are accepted one after the other. -/
theorem gains_postOrder (plan : Plan) {builder : PlanBuilder} (sound : builder.Sound [])
    (fits : builder.Fits plan.postOrder) : ∃ next, builder.Gains plan.postOrder [plan] next := by
  induction plan using Plan.induction_on_inputs generalizing builder with
  | node plan below =>
    obtain ⟨distinct, valid⟩ := fits
    rw [plan.postOrder_eq] at distinct valid
    have front : builder.Fits (plan.inputs.flatMap Plan.postOrder) := by
      refine ⟨?_, fun inner member => valid inner (List.mem_append_left _ member)⟩
      rw [← List.append_assoc, List.map_append] at distinct
      exact distinct.of_append_left
    obtain ⟨middle, gains⟩ :=
      gains_flatMap (fun input member _ sound fits => below input member sound fits) sound front
    have middleSound := sound.addAll gains.added
    have inside : ∀ input ∈ plan.inputs, input ∈ middle.nodes := by
      intro input member
      rw [gains.nodes]
      exact List.mem_append_right _ (List.mem_flatMap.2 ⟨input, member, input.mem_postOrder⟩)
    have fresh : plan.id ∉ middle.nodes.map Plan.id := by
      rw [← List.append_assoc, ← gains.nodes, List.map_append, List.nodup_append] at distinct
      exact fun member => distinct.2.2 plan.id member plan.id (List.mem_singleton_self _) rfl
    have listed := (sublist_flatMap_postOrder plan.inputs).map Plan.id
    have apart := front.distinct
    rw [List.map_append, List.nodup_append] at apart
    have free : middle.Free (plan.inputs.map Plan.id) := by
      refine ⟨apart.2.1.sublist listed, fun input member => ?_, fun input member => ?_⟩
      · obtain ⟨top, below, rfl⟩ := List.mem_map.1 member
        exact node?_isSome_iff.2 (List.mem_map_of_mem (inside top below))
      · obtain ⟨top, below, rfl⟩ := List.mem_map.1 member
        exact gains.free top below
    have added := middleSound.add_plan fresh
      (valid plan (List.mem_append_right _ (List.mem_singleton_self plan))) free inside
    refine ⟨{ middle.mark plan.id (plan.inputs.map Plan.id) with nodes := middle.nodes ++ [plan] },
      ?_, ?_, fun id member => ?_, fun top member => ?_⟩
    · rw [plan.postOrder_eq, List.map_append, addAll_append gains.added]
      show middle.addAll [(plan.id, plan.operator, plan.inputs.map Plan.id)] = _
      rw [addAll, added]
      rfl
    · show middle.nodes ++ [plan] = _
      rw [gains.nodes, plan.postOrder_eq, List.append_assoc]
    · refine (consumer?_mark middle plan.id _ id).trans ?_
      rw [if_neg, gains.kept id member]
      exact fun consumed => apart.2.2 id member id (listed.subset consumed) rfl
    · obtain rfl := List.mem_singleton.1 member
      refine (consumer?_mark middle top.id _ top.id).trans ?_
      rw [if_neg, middleSound.consumer?_eq_none fresh]
      intro own
      obtain ⟨input, member, same⟩ := List.mem_map.1 own
      exact fresh (same ▸ List.mem_map_of_mem (inside input member))

/-- A builder with the nodes of one plan finishes it. -/
theorem Sound.build_postOrder (sound : builder.Sound []) {plan : Plan}
    (nodes : builder.nodes = plan.postOrder) (free : builder.consumer? plan.id = none) :
    builder.build plan.id = .ok ⟨plan.postOrder, plan⟩ := by
  have member : plan ∈ builder.nodes := nodes ▸ plan.mem_postOrder
  have found : builder.node? plan.id = some plan := by
    obtain ⟨other, found⟩ := Option.isSome_iff_exists.1
      (node?_isSome_iff.2 (List.mem_map_of_mem member))
    obtain ⟨inside, same⟩ := node?_eq_some found
    rw [found, sound.eq_of_id inside member same]
  have top : plan ∈ builder.unconsumed := List.mem_filter.2 ⟨member, by rw [free]; rfl⟩
  -- the tree of the root has all nodes, so that nothing is left for another tree
  obtain ⟨before, after, split⟩ := List.append_of_mem top
  have count := sound.forest.length_eq
  rw [split, nodes, List.append_nil, List.flatMap_append, List.flatMap_cons, List.length_append,
    List.length_append] at count
  have single : ∀ other ∈ builder.unconsumed, other = plan := by
    intro other unconsumed
    have length : ∀ plans : List Plan, other ∈ plans → 0 < (plans.flatMap Plan.postOrder).length :=
      fun plans inside =>
        List.length_pos_of_mem (List.mem_flatMap.2 ⟨other, inside, other.mem_postOrder⟩)
    rw [split, List.mem_append, List.mem_cons] at unconsumed
    rcases unconsumed with early | same | late
    · have := length before early
      omega
    · exact same
    · have := length after late
      omega
  have connected : builder.nodes.find? (fun node =>
      node.id != plan.id && (builder.consumer? node.id).isNone) = none := by
    rw [List.find?_eq_none]
    intro node inside orphan
    rw [Bool.and_eq_true, bne_iff_ne] at orphan
    exact orphan.1 (congrArg Plan.id (single node (List.mem_filter.2 ⟨inside, orphan.2⟩)))
  unfold PlanBuilder.build
  simp only [found, free, connected, Option.isSome_none, Bool.false_eq_true, if_false]
  rw [nodes]

/-- Calls that are all accepted are answered one after the other. -/
theorem addEach_of_addAll {calls : List (NodeId × Operator × List NodeId)}
    (added : builder.addAll calls = .ok next) : (builder.addEach calls).2 = next := by
  induction calls generalizing builder with
  | nil =>
    cases added
    rfl
  | cons call rest step =>
    obtain ⟨id, operator, inputs⟩ := call
    simp only [addAll] at added
    split at added
    · rename_i accepted
      simp only [addEach, accepted]
      exact step added
    · cases added

end PlanBuilder

/-- A sound plan is finished by accepted calls, which add its nodes in post-order. -/
theorem Plan.Sound.ofNodes {plan : Plan} (sound : plan.Sound) :
    PlanTree.ofNodes (plan.postOrder.map Plan.entry) plan.id = .ok ⟨plan.postOrder, plan⟩ := by
  have fits : PlanBuilder.Fits .empty plan.postOrder := ⟨sound.distinct, sound.valid⟩
  obtain ⟨next, added, nodes, -, free⟩ := PlanBuilder.gains_postOrder plan .empty fits
  rw [PlanTree.ofNodes, added]
  exact (PlanBuilder.Sound.empty.addAll added).build_postOrder nodes
    (free plan (List.mem_singleton_self plan))

namespace PlanTree

variable {tree : PlanTree}

/-- The root of a plan that was built is sound. -/
theorem Built.sound (built : tree.Built) : tree.root.Sound := by
  obtain ⟨calls, root, built⟩ := built
  obtain ⟨lost, sound⟩ := PlanBuilder.Sound.empty.addEach calls
  exact sound.root built

/-- The root of a plan that was built, also behind refused nodes, is the root of a plan that
accepted nodes make. -/
theorem Built.accepted (built : tree.Built) :
    ∃ nodes made, PlanTree.ofNodes nodes tree.root.id = .ok made ∧ made.root = tree.root :=
  ⟨_, _, built.sound.ofNodes, rfl⟩

/-- A plan that accepted nodes make is built. -/
theorem built_of_ofNodes {nodes : List (NodeId × Operator × List NodeId)} {root : NodeId}
    (made : PlanTree.ofNodes nodes root = .ok tree) : tree.Built := by
  unfold PlanTree.ofNodes at made
  cases added : PlanBuilder.empty.addAll nodes with
  | error error =>
    rw [added] at made
    cases made
  | ok builder =>
    rw [added] at made
    exact ⟨nodes, root, PlanBuilder.addEach_of_addAll added ▸ made⟩

end PlanTree

end QueryFusion
