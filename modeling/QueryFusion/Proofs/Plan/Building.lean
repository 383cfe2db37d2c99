import Mathlib.Data.List.Nodup
import Mathlib.Data.List.Perm.Basic
import QueryFusion.Plan.Builder

/-!
# Plans that were built

While nodes are added, the nodes that no other one has consumed are the roots of a forest, and every
node stands in it exactly once. A finished plan is the only tree of its forest.
-/

namespace QueryFusion

/-! ## Trees -/

/-- The post-order of a plan is that of its inputs, then the plan itself. -/
theorem Plan.postOrder_eq (plan : Plan) :
    plan.postOrder = plan.inputs.flatMap Plan.postOrder ++ [plan] := by
  cases plan <;> simp [Plan.postOrder, Plan.inputs]

/-- A plan has the id, the operator and the inputs that it is made of. -/
theorem Plan.ofOperator?_eq_some {id : NodeId} {operator : Operator} {plans : List Plan}
    {plan : Plan} (made : Plan.ofOperator? id operator plans = some plan) :
    plan.id = id ∧ plan.operator = operator ∧ plan.inputs = plans := by
  unfold Plan.ofOperator? at made
  split at made <;> cases made <;> exact ⟨rfl, rfl, rfl⟩

/-- An item with a key of its own stands before the items of other keys. -/
theorem perm_cons_filter {α κ : Type} [DecidableEq κ] (key : α → κ) {items : List α} {item : α}
    (distinct : (items.map key).Nodup) (member : item ∈ items) :
    items.Perm (item :: items.filter fun other => key other != key item) := by
  induction items with
  | nil => cases member
  | cons first rest step =>
    rw [List.map_cons, List.nodup_cons] at distinct
    obtain ⟨fresh, distinct⟩ := distinct
    rcases List.mem_cons.1 member with rfl | later
    · have apart : rest.filter (fun other => key other != key item) = rest := by
        refine List.filter_eq_self.2 fun other there => bne_iff_ne.2 fun same => fresh ?_
        rw [← same]
        exact List.mem_map_of_mem there
      simp [apart]
    · have other : key first ≠ key item := by
        intro same
        rw [same] at fresh
        exact fresh (List.mem_map_of_mem later)
      have kept : (first :: rest).filter (fun other => key other != key item) =
          first :: rest.filter fun other => key other != key item :=
        List.filter_cons_of_pos (bne_iff_ne.2 other)
      rw [kept]
      exact ((step distinct later).cons first).trans (.swap item first _)

namespace PlanBuilder

variable {builder next : PlanBuilder} {lost : List Plan}

/-! ## The forest of a builder -/

/-- The nodes that no other node has consumed. -/
def unconsumed (builder : PlanBuilder) : List Plan :=
  builder.nodes.filter fun plan => (builder.consumer? plan.id).isNone

/-- What holds after every call. A refused node may have marked some nodes, and these and what is
below them are lost: no root leads to them. -/
structure Sound (builder : PlanBuilder) (lost : List Plan) : Prop where
  /-- No two nodes have the same id. -/
  distinct : (builder.nodes.map Plan.id).Nodup
  /-- Only nodes are consumed. -/
  known : ∀ entry ∈ builder.consumed, entry.1 ∈ builder.nodes.map Plan.id
  /-- Every node that is not lost stands once in the trees of the nodes that are not consumed. -/
  forest : (builder.unconsumed.flatMap Plan.postOrder ++ lost).Perm builder.nodes
  /-- Ids are not negative, and scans are valid. -/
  valid : ∀ plan ∈ builder.nodes, 0 ≤ plan.id ∧ checkOperator plan.id plan.operator = .ok ()

/-- A builder without nodes is sound. -/
theorem Sound.empty : Sound .empty [] :=
  ⟨List.nodup_nil, by simp [PlanBuilder.empty], .refl _, by simp [PlanBuilder.empty]⟩

/-- Only nodes have consumers. -/
theorem Sound.consumer?_eq_none (sound : builder.Sound lost) {id : NodeId}
    (unknown : id ∉ builder.nodes.map Plan.id) : builder.consumer? id = none := by
  unfold consumer?
  rw [Option.map_eq_none_iff, List.find?_eq_none]
  intro entry present same
  exact unknown (eq_of_beq same ▸ sound.known entry present)

/-- A node that is found is a node of that id. -/
theorem node?_eq_some {id : NodeId} {plan : Plan} (found : builder.node? id = some plan) :
    plan ∈ builder.nodes ∧ plan.id = id := by
  have same := List.find?_some found
  exact ⟨List.mem_of_find?_eq_some found, eq_of_beq same⟩

/-- A node that is not found is no node. -/
theorem node?_eq_none {id : NodeId} (missing : builder.node? id = none) :
    id ∉ builder.nodes.map Plan.id := by
  intro member
  obtain ⟨plan, there, same⟩ := List.mem_map.1 member
  exact List.find?_eq_none.1 missing plan there (beq_iff_eq.2 same)

/-- A node is found iff it was added. -/
theorem node?_isSome_iff {id : NodeId} :
    (builder.node? id).isSome ↔ id ∈ builder.nodes.map Plan.id := by
  constructor
  · intro found
    obtain ⟨plan, found⟩ := Option.isSome_iff_exists.1 found
    obtain ⟨member, rfl⟩ := node?_eq_some found
    exact List.mem_map_of_mem member
  · intro member
    by_contra missing
    exact node?_eq_none (Option.not_isSome_iff_eq_none.1 missing) member

/-- One more consumed node changes the consumer of no other one. -/
theorem consumer?_cons (input owner id : NodeId) :
    ({ builder with consumed := (input, owner) :: builder.consumed } : PlanBuilder).consumer? id =
      if input = id then some owner else builder.consumer? id := by
  unfold consumer?
  by_cases same : input = id
  · simp [same]
  · simp [same]

/-- A node that is consumed is taken out of the unconsumed ones. -/
theorem unconsumed_consume {input owner : NodeId} {plan : Plan}
    (distinct : (builder.nodes.map Plan.id).Nodup) (found : builder.node? input = some plan)
    (free : builder.consumer? input = none) :
    builder.unconsumed.Perm
      (plan :: ({ builder with
        consumed := (input, owner) :: builder.consumed } : PlanBuilder).unconsumed) := by
  obtain ⟨member, rfl⟩ := node?_eq_some found
  have present : plan ∈ builder.unconsumed := List.mem_filter.2 ⟨member, by rw [free]; rfl⟩
  have apart : (builder.unconsumed.map Plan.id).Nodup :=
    distinct.sublist (List.filter_sublist.map Plan.id)
  have rest : ({ builder with
      consumed := (plan.id, owner) :: builder.consumed } : PlanBuilder).unconsumed =
      builder.unconsumed.filter fun other => other.id != plan.id := by
    unfold unconsumed
    rw [List.filter_filter]
    refine List.filter_congr fun other _ => ?_
    rw [consumer?_cons]
    by_cases same : plan.id = other.id
    · simp [same]
    · have differs : other.id ≠ plan.id := fun equal => same equal.symm
      simp [same, differs]
  rw [rest]
  exact perm_cons_filter Plan.id apart present

/-! ## Adding nodes -/

/-- Inputs that are consumed were unconsumed nodes. -/
theorem consume_eq_ok {id : NodeId} {inputs : List NodeId} {plans : List Plan}
    (distinct : (builder.nodes.map Plan.id).Nodup)
    (known : ∀ entry ∈ builder.consumed, entry.1 ∈ builder.nodes.map Plan.id)
    (consumed : builder.consume id inputs = (.ok plans, next)) :
    next.nodes = builder.nodes ∧ (∀ entry ∈ next.consumed, entry.1 ∈ next.nodes.map Plan.id) ∧
      plans.map Plan.id = inputs ∧ builder.unconsumed.Perm (plans ++ next.unconsumed) := by
  induction inputs generalizing builder plans with
  | nil =>
    cases consumed
    exact ⟨rfl, known, rfl, .refl _⟩
  | cons input rest step =>
    simp only [consume] at consumed
    split at consumed
    · cases consumed
    rename_i plan found
    split at consumed
    · cases consumed
    rename_i free
    split at consumed
    · rename_i others final taken
      cases consumed
      obtain ⟨member, same⟩ := node?_eq_some found
      have further : ∀ entry ∈ (input, id) :: builder.consumed,
          entry.1 ∈ builder.nodes.map Plan.id := by
        intro entry present
        rcases List.mem_cons.1 present with rfl | old
        · exact List.mem_map.2 ⟨plan, member, same⟩
        · exact known entry old
      obtain ⟨nodes, known, ids, perm⟩ :=
        @step { builder with consumed := (input, id) :: builder.consumed } _ distinct further taken
      refine ⟨nodes, known, by rw [List.map_cons, same, ids], ?_⟩
      exact (unconsumed_consume distinct found free).trans (perm.cons plan)
    · cases consumed

/-- A node that passes the first checks has a new id that is not negative, and the right number of
inputs. -/
theorem checkNode_eq_ok_iff {id : NodeId} {operator : Operator} {inputs : List NodeId} :
    builder.checkNode id operator inputs = .ok () ↔
      0 ≤ id ∧ builder.node? id = none ∧ inputs.length = operator.inputCount := by
  unfold checkNode
  split
  · rename_i negative
    exact ⟨nofun, fun fit => absurd fit.1 (Int32.not_le.2 negative)⟩
  rename_i bound
  split
  · rename_i known
    refine ⟨nofun, fun fit => ?_⟩
    rw [fit.2.1] at known
    cases known
  rename_i fresh
  split
  · rename_i wrong
    exact ⟨nofun, fun fit => absurd fit.2.2 wrong⟩
  rename_i counted
  exact ⟨fun _ => ⟨Int32.not_lt.1 bound, Option.not_isSome_iff_eq_none.1 fresh,
    Decidable.of_not_not counted⟩, fun _ => rfl⟩

/-- An accepted node keeps a builder sound. -/
theorem Sound.add {id new : NodeId} {operator : Operator} {inputs : List NodeId}
    (sound : builder.Sound lost) (added : builder.add id operator inputs = (.ok new, next)) :
    next.Sound lost := by
  unfold PlanBuilder.add at added
  split at added
  · cases added
  rename_i checked
  split at added
  · cases added
  rename_i plans between consumed
  obtain ⟨nodes, known, ids, perm⟩ := consume_eq_ok sound.distinct sound.known consumed
  split at added
  · cases added
  · rename_i plan accepted made
    obtain ⟨own, same, below⟩ := Plan.ofOperator?_eq_some made
    cases added
    obtain ⟨positive, missing, -⟩ := checkNode_eq_ok_iff.1 checked
    have fresh : plan.id ∉ between.nodes.map Plan.id := by
      rw [nodes, own]
      exact node?_eq_none missing
    -- nobody can have consumed the new node
    have free : between.consumer? plan.id = none := by
      unfold consumer?
      rw [Option.map_eq_none_iff, List.find?_eq_none]
      intro entry present same
      exact fresh (eq_of_beq same ▸ known entry present)
    have roots : ({ between with nodes := between.nodes ++ [plan] } : PlanBuilder).unconsumed =
        between.unconsumed ++ [plan] := by
      unfold unconsumed
      rw [List.filter_append]
      congr 1
      have free : ({ between with nodes := between.nodes ++ [plan] } : PlanBuilder).consumer?
          plan.id = none := free
      simp [free]
    refine ⟨?_, ?_, ?_, ?_⟩
    · rw [List.map_append, List.nodup_append']
      refine ⟨nodes ▸ sound.distinct, by simp, ?_⟩
      intro other old new
      rw [List.map_singleton, List.mem_singleton] at new
      exact fresh (new ▸ old)
    · intro entry present
      rw [List.map_append]
      exact List.mem_append_left _ (known entry present)
    · rw [roots, List.flatMap_append, List.flatMap_singleton, plan.postOrder_eq, below]
      have moved := perm.flatMap_right Plan.postOrder
      rw [List.flatMap_append] at moved
      have whole := (moved.symm.append_right lost).trans sound.forest
      rw [← nodes] at whole
      refine List.Perm.trans ?_ (whole.append_right [plan])
      have front : (between.unconsumed.flatMap Plan.postOrder ++
          (plans.flatMap Plan.postOrder ++ [plan])).Perm
          (plans.flatMap Plan.postOrder ++ [plan] ++ between.unconsumed.flatMap Plan.postOrder) :=
        List.perm_append_comm
      have last : ([plan] ++ (between.unconsumed.flatMap Plan.postOrder ++ lost)).Perm
          (between.unconsumed.flatMap Plan.postOrder ++ lost ++ [plan]) := List.perm_append_comm
      have former := front.append_right lost
      have later := last.append_left (plans.flatMap Plan.postOrder)
      simp only [List.append_assoc] at former later ⊢
      exact former.trans later
    · intro other present
      rcases List.mem_append.1 present with old | new
      · exact sound.valid other (nodes ▸ old)
      · rw [List.mem_singleton.1 new, same, own]
        exact ⟨positive, accepted⟩
  · cases added

/-- Accepted nodes keep a builder sound. -/
theorem Sound.addAll {entries : List (NodeId × Operator × List NodeId)}
    (sound : builder.Sound lost) (added : builder.addAll entries = .ok next) : next.Sound lost := by
  induction entries generalizing builder with
  | nil =>
    cases added
    exact sound
  | cons entry rest step =>
    obtain ⟨id, operator, inputs⟩ := entry
    simp only [PlanBuilder.addAll] at added
    split at added
    · rename_i accepted
      exact step (sound.add accepted) added
    · cases added

end PlanBuilder

/-! ## Finished plans -/

/-- What holds of every finished plan. -/
structure PlanTree.Sound (tree : PlanTree) : Prop where
  /-- No two nodes have the same id. -/
  distinct : (tree.nodes.map Plan.id).Nodup
  /-- Every node stands exactly once in the tree of the root. -/
  whole : tree.root.postOrder.Perm tree.nodes
  /-- Ids are not negative, and scans are valid. -/
  valid : ∀ plan ∈ tree.nodes,
    0 ≤ plan.id ∧ PlanBuilder.checkOperator plan.id plan.operator = .ok ()

/-- The root of a finished plan leads to all nodes that are not lost. -/
theorem PlanBuilder.Sound.postOrder_perm {builder : PlanBuilder} {lost : List Plan} {root : NodeId}
    {tree : PlanTree} (sound : builder.Sound lost) (built : builder.build root = .ok tree) :
    (tree.root.postOrder ++ lost).Perm builder.nodes := by
  unfold PlanBuilder.build at built
  split at built
  · cases built
  rename_i plan found
  split at built
  · cases built
  rename_i free
  split at built
  · cases built
  rename_i connected
  cases built
  obtain ⟨member, same⟩ := node?_eq_some found
  have single : builder.unconsumed = [plan] := by
    have present : plan ∈ builder.unconsumed := by
      refine List.mem_filter.2 ⟨member, ?_⟩
      rw [same]
      exact Option.isNone_iff_eq_none.2 (Option.not_isSome_iff_eq_none.1 free)
    have apart : (builder.unconsumed.map Plan.id).Nodup :=
      sound.distinct.sublist (List.filter_sublist.map Plan.id)
    have none : builder.unconsumed.filter (fun other => other.id != plan.id) = [] := by
      refine List.filter_eq_nil_iff.2 fun other there differs => ?_
      obtain ⟨inside, unowned⟩ := List.mem_filter.1 there
      refine List.find?_eq_none.1 connected other inside ?_
      rw [Bool.and_eq_true]
      exact ⟨same ▸ differs, unowned⟩
    have perm := perm_cons_filter Plan.id apart present
    rw [none] at perm
    exact List.perm_singleton.1 perm
  have forest := sound.forest
  rw [single, List.flatMap_singleton] at forest
  exact forest

/-- A finished plan has the nodes of its builder, and its root is the one that was named. -/
theorem PlanBuilder.build_eq_ok {builder : PlanBuilder} {root : NodeId} {tree : PlanTree}
    (built : builder.build root = .ok tree) :
    tree.nodes = builder.nodes ∧ tree.root.id = root ∧ tree.root ∈ builder.nodes := by
  unfold PlanBuilder.build at built
  split at built
  · cases built
  rename_i plan found
  split at built
  · cases built
  split at built
  · cases built
  cases built
  obtain ⟨member, same⟩ := node?_eq_some found
  exact ⟨rfl, same, member⟩

/-- A builder that has refused no node finishes sound plans. -/
theorem PlanBuilder.Sound.build {builder : PlanBuilder} {root : NodeId} {tree : PlanTree}
    (sound : builder.Sound []) (built : builder.build root = .ok tree) : tree.Sound := by
  have whole := sound.postOrder_perm built
  obtain ⟨nodes, -, -⟩ := PlanBuilder.build_eq_ok built
  rw [List.append_nil] at whole
  rw [← nodes] at whole
  exact ⟨nodes ▸ sound.distinct, whole, nodes ▸ sound.valid⟩

/-- A plan that was built from its nodes is sound. -/
theorem PlanTree.sound_of_ofNodes {nodes : List (NodeId × Operator × List NodeId)} {root : NodeId}
    {tree : PlanTree} (built : PlanTree.ofNodes nodes root = .ok tree) : tree.Sound := by
  unfold PlanTree.ofNodes at built
  cases added : PlanBuilder.empty.addAll nodes with
  | error error =>
    rw [added] at built
    cases built
  | ok builder =>
    rw [added] at built
    exact (PlanBuilder.Sound.empty.addAll added).build built

end QueryFusion
