import Mathlib.Data.List.Pairwise
import QueryFusion.Generate.Fragment
import QueryFusion.Proofs.Outcome
import QueryFusion.Proofs.Plan.Acceptance

/-!
# Fragments are exact and maximal

A node can be compiled when it is a scan that has a form in source, or a filter or projection over
such a node. Splitting a plan never fails: while a node is visited, its inputs lie on top of the
stack. The fragments are the runs of compilable nodes that end below an interpreted node or at the
root, so every compilable node lies in exactly one of them.
-/

namespace QueryFusion

open Generate

/-! ## Compilable nodes -/

namespace Plan

/-- The node can be compiled: it is a scan that has a form in source, or a filter or projection
whose input can be compiled. -/
def isCompilable : Plan → Bool
  | scan _ spec => (checkScan spec).isOk
  | filter _ _ input | project _ _ input => input.isCompilable
  | root .. | sort .. | join .. => false

/-- The ids of a run: from its scan up to the node itself, each node the input of the next. -/
inductive Chain : Plan → List NodeId → Prop
  | scan (id : NodeId) (spec : ScanSpec) : Chain (.scan id spec) [id]
  | filter {input : Plan} {ids : List NodeId} (id : NodeId) (condition : Expr)
      (below : Chain input ids) : Chain (.filter id condition input) (ids ++ [id])
  | project {input : Plan} {ids : List NodeId} (id : NodeId) (expressions : List Expr)
      (below : Chain input ids) : Chain (.project id expressions input) (ids ++ [id])

/-- The generators of a run that ends at a node; a node outside of every run stays interpreted. -/
def runTree : Plan → GeneratorTree
  | scan id spec => if (checkScan spec).isOk then .node (.scan id spec) []
    else .node (.interpreted id) []
  | filter id condition input =>
    if input.isCompilable then .node (.filter id condition) [input.runTree]
    else .node (.interpreted id) []
  | project id expressions input =>
    if input.isCompilable then .node (.project id expressions) [input.runTree]
    else .node (.interpreted id) []
  | root id _ | sort id _ _ _ | join id _ _ _ => .node (.interpreted id) []

/-- The inputs of an interpreted node that can be compiled: the runs that end below it. -/
def endedRuns (plan : Plan) : List Plan :=
  if plan.isCompilable then [] else plan.inputs.filter isCompilable

/-- The nodes at which the runs of a plan end, in the order in which their consumers are reached;
the root has no consumer and comes last. -/
def runEnds (plan : Plan) : List Plan :=
  plan.postOrder.flatMap endedRuns ++ [plan].filter isCompilable

end Plan

/-- The fragment of the run that ends at a node. -/
def Generate.Fragment.ofPlan (plan : Plan) : Fragment :=
  .ofRun plan plan.runTree

namespace Generate

/-! ## The walk over the nodes -/

/-- What waits on the stack for a node that was visited. -/
def Pending.ofPlan (plan : Plan) : Pending :=
  ⟨plan, plan.runTree⟩

/-- Exactly the compilable nodes have generators with code, and these hand a row on. -/
theorem runTree_generator (plan : Plan) :
    plan.runTree.generator.isCompilable = plan.isCompilable ∧
      plan.runTree.generator.isTerminal = false := by
  cases plan with
  | scan id spec =>
    simp only [Plan.runTree, Plan.isCompilable]
    cases (checkScan spec).isOk <;> exact ⟨rfl, rfl⟩
  | filter id condition input =>
    simp only [Plan.runTree, Plan.isCompilable]
    cases input.isCompilable <;> exact ⟨rfl, rfl⟩
  | project id expressions input =>
    simp only [Plan.runTree, Plan.isCompilable]
    cases input.isCompilable <;> exact ⟨rfl, rfl⟩
  | root id input | sort id columns ascending input | join id condition left right =>
    exact ⟨rfl, rfl⟩

/-- A node whose generators wait is compilable exactly when the node is. -/
@[simp] theorem Pending.ofPlan_isCompilable (plan : Plan) :
    (Pending.ofPlan plan).isCompilable = plan.isCompilable :=
  (runTree_generator plan).1

/-- A run that ends here becomes its fragment. -/
theorem Pending.finish_ofPlan (plan : Plan) :
    (Pending.ofPlan plan).finish = ([plan].filter Plan.isCompilable).map Fragment.ofPlan := by
  have handsOn : (Pending.ofPlan plan).tree.generator.isTerminal = false :=
    (runTree_generator plan).2
  unfold Pending.finish
  rw [Pending.ofPlan_isCompilable, handsOn]
  cases ends : plan.isCompilable
  · simp [ends]
  · simp [ends, Fragment.ofPlan, Pending.ofPlan]

/-- The runs that wait for a node become their fragments. -/
theorem Pending.flatMap_finish (plans : List Plan) :
    (plans.map Pending.ofPlan).flatMap Pending.finish =
      (plans.filter Plan.isCompilable).map Fragment.ofPlan := by
  induction plans with
  | nil => rfl
  | cons plan rest step =>
    rw [List.map_cons, List.flatMap_cons, step, Pending.finish_ofPlan, ← List.map_append,
      ← List.filter_append, List.singleton_append]

namespace Splitter

/-- Inputs on top of the stack are taken from left to right, and all of them are expected. -/
theorem takeInputs_eq (plan : Plan) (stack : List Pending) (fragments : List Fragment) :
    takeInputs ⟨(plan.inputs.map Pending.ofPlan).reverse ++ stack, fragments⟩ plan =
      .ok (plan.inputs.map Pending.ofPlan, ⟨stack, fragments⟩) := by
  have count : (plan.inputs.map Pending.ofPlan).reverse.length = plan.operator.inputCount := by
    rw [List.length_reverse, List.length_map, plan.length_inputs]
  have expected : ∀ pair ∈ plan.inputs.zip (plan.inputs.map Pending.ofPlan),
      ¬ (pair.1.id != pair.2.plan.id) = true := by
    intro pair member
    rw [List.zip_map_right, List.mem_map] at member
    obtain ⟨⟨left, right⟩, member, rfl⟩ := member
    rw [List.zip_eq_zipWith, List.zipWith_self, List.mem_map] at member
    obtain ⟨input, -, same⟩ := member
    cases same
    simp [Pending.ofPlan]
  unfold takeInputs
  rw [← count]
  simp only [List.length_append, List.take_left, List.drop_left, List.reverse_reverse]
  rw [List.find?_eq_none.2 expected, if_neg (by omega)]

/-- An interpreted node ends the runs of its inputs. -/
theorem interrupt_eq (plan : Plan) (stack : List Pending) (fragments : List Fragment) :
    interrupt ⟨(plan.inputs.map Pending.ofPlan).reverse ++ stack, fragments⟩ plan =
      .ok ⟨.interpreted plan :: stack,
        fragments ++ (plan.inputs.filter Plan.isCompilable).map Fragment.ofPlan⟩ := by
  unfold interrupt
  rw [takeInputs_eq]
  simp only [ok_bind, push, Pending.flatMap_finish]

/-- A filter or projection goes on with the run of its input. -/
theorem extend_eq (plan : Plan) (generator : Generator) (stack : List Pending)
    (fragments : List Fragment) :
    extend ⟨(plan.inputs.map Pending.ofPlan).reverse ++ stack, fragments⟩ plan generator =
      .ok ⟨⟨plan, .node generator (plan.inputs.map Plan.runTree)⟩ :: stack, fragments⟩ := by
  unfold extend
  rw [takeInputs_eq]
  simp only [ok_bind, push, List.map_map]
  rfl

/-- Scans are refused only because they have no form in source. -/
theorem checkScan_error {spec : ScanSpec} {error : Error}
    (refused : checkScan spec = .error error) :
    ∃ reason, error = .unsupported reason := by
  have shapes : ∀ shape : Shape, ∀ error, checkShape shape = .error error →
      ∃ reason, error = .unsupported reason := by
    intro shape error failed
    unfold checkShape at failed
    split at failed
    · split at failed
      · cases failed
      · cases failed
        exact ⟨_, rfl⟩
    · cases failed
  have field : ∀ path type error, checkField spec.keyShape spec.valueShape path type =
    .error error → ∃ reason, error = .unsupported reason := by
    intro path type error failed
    simp only [checkField] at failed
    repeat' split at failed
    all_goals
      cases failed
      try exact ⟨_, rfl⟩
  have fields : ∀ entries error, checkFields spec.keyShape spec.valueShape entries = .error error →
      ∃ reason, error = .unsupported reason := by
    intro entries
    induction entries with
    | nil =>
      intro error failed
      cases failed
    | cons entry rest step =>
      intro error failed
      obtain ⟨path, type⟩ := entry
      simp only [checkFields, bind_eq_error_iff] at failed
      rcases failed with first | ⟨-, -, later⟩
      · exact field path type error first
      · exact step error later
  unfold checkScan at refused
  split at refused
  · cases refused
    exact ⟨_, rfl⟩
  split at refused
  · cases refused
    exact ⟨_, rfl⟩
  · simp only [bind_eq_error_iff] at refused
    rcases refused with key | ⟨-, -, value | ⟨-, -, rest⟩⟩
    · exact shapes _ _ key
    · exact shapes _ _ value
    · exact fields _ _ rest

/-- A node over one input goes on with the run of the input, or is interpreted if there is none. -/
theorem visit_single {input : Plan} (plan : Plan) (generator : Generator) (stack : List Pending)
    (fragments : List Fragment) (below : plan.inputs = [input])
    (follows : plan.isCompilable = input.isCompilable)
    (trees : plan.runTree = if input.isCompilable then .node generator [input.runTree]
      else .node (.interpreted plan.id) []) :
    (let splitter : Splitter := ⟨(plan.inputs.map Pending.ofPlan).reverse ++ stack, fragments⟩
     if splitter.topIsCompilable then splitter.extend plan generator
     else splitter.interrupt plan) =
      .ok ⟨.ofPlan plan :: stack, fragments ++ plan.endedRuns.map Fragment.ofPlan⟩ := by
  have top : topIsCompilable ⟨(plan.inputs.map Pending.ofPlan).reverse ++ stack, fragments⟩ =
      input.isCompilable := by
    rw [below]
    exact Pending.ofPlan_isCompilable input
  simp only [top, extend_eq, interrupt_eq]
  simp only [Plan.endedRuns, follows, Pending.ofPlan, trees, below]
  cases input.isCompilable
  · rfl
  · simp

/-- Visiting a node whose inputs lie on top of the stack puts the node in their place. -/
theorem visit_eq (plan : Plan) (stack : List Pending) (fragments : List Fragment) :
    visit ⟨(plan.inputs.map Pending.ofPlan).reverse ++ stack, fragments⟩ plan =
      .ok ⟨.ofPlan plan :: stack, fragments ++ plan.endedRuns.map Fragment.ofPlan⟩ := by
  cases plan with
  | scan id spec =>
    simp only [visit, Plan.inputs, List.map_nil, List.reverse_nil, List.nil_append,
      Plan.endedRuns, List.filter_nil, ite_self, List.append_nil, Pending.ofPlan, Plan.runTree]
    cases checked : checkScan spec with
    | ok nothing => rfl
    | error error =>
      obtain ⟨reason, rfl⟩ := checkScan_error checked
      rfl
  | filter id condition input =>
    exact visit_single (.filter id condition input)
      (.filter id condition) stack fragments rfl rfl rfl
  | project id expressions input =>
    exact visit_single (.project id expressions input) (.project id expressions) stack fragments rfl
      rfl rfl
  | root id input => exact interrupt_eq (.root id input) stack fragments
  | sort id columns ascending input =>
    exact interrupt_eq (.sort id columns ascending input) stack fragments
  | join id condition left right =>
    exact interrupt_eq (.join id condition left right) stack fragments

/-- Nodes are visited one after another. -/
theorem visitAll_append (splitter : Splitter) (first second : List Plan) :
    splitter.visitAll (first ++ second) =
      (splitter.visitAll first >>= fun next => next.visitAll second) := by
  induction first generalizing splitter with
  | nil => rfl
  | cons plan rest step =>
    simp only [List.cons_append, visitAll]
    cases splitter.visit plan with
    | error error => rfl
    | ok next => exact step next

/-- Visiting all nodes of a plan leaves the plan on the stack, and the runs that end inside of it
are finished. -/
theorem visitAll_postOrder (plan : Plan) (stack : List Pending) (fragments : List Fragment) :
    visitAll ⟨stack, fragments⟩ plan.postOrder = .ok ⟨.ofPlan plan :: stack,
      fragments ++ (plan.postOrder.flatMap Plan.endedRuns).map Fragment.ofPlan⟩ := by
  -- the inputs come first, so they lie on top of the stack when the node itself is visited
  have last : ∀ (plan : Plan) (stack : List Pending) (fragments : List Fragment)
      (below : List Plan),
      visitAll ⟨(plan.inputs.map Pending.ofPlan).reverse ++ stack,
        fragments ++ (below.flatMap Plan.endedRuns).map Fragment.ofPlan⟩ [plan] =
      .ok ⟨.ofPlan plan :: stack,
        fragments ++ ((below ++ [plan]).flatMap Plan.endedRuns).map Fragment.ofPlan⟩ := by
    intro plan stack fragments below
    simp only [visitAll, visit_eq, ok_bind, List.flatMap_append, List.map_append,
      List.flatMap_singleton, List.append_assoc]
  induction plan generalizing stack fragments with
  | scan id spec =>
    have only := last (.scan id spec) stack fragments []
    rwa [List.flatMap_nil, List.map_nil, List.append_nil] at only
  | root id input step =>
    rw [Plan.postOrder, visitAll_append, step, ok_bind]
    exact last (.root id input) stack fragments input.postOrder
  | filter id condition input step =>
    rw [Plan.postOrder, visitAll_append, step, ok_bind]
    exact last (.filter id condition input) stack fragments input.postOrder
  | project id expressions input step =>
    rw [Plan.postOrder, visitAll_append, step, ok_bind]
    exact last (.project id expressions input) stack fragments input.postOrder
  | sort id columns ascending input step =>
    rw [Plan.postOrder, visitAll_append, step, ok_bind]
    exact last (.sort id columns ascending input) stack fragments input.postOrder
  | join id condition left right leftStep rightStep =>
    rw [Plan.postOrder, visitAll_append, visitAll_append, leftStep, ok_bind, rightStep, ok_bind,
      List.append_assoc, ← List.map_append, ← List.flatMap_append]
    exact last (.join id condition left right) stack fragments (left.postOrder ++ right.postOrder)

end Splitter

/-- Splitting a plan succeeds, and gives the fragments of its runs. -/
theorem partition_eq (plan : Plan) : partition plan = .ok (plan.runEnds.map Fragment.ofPlan) := by
  unfold partition Splitter.start
  rw [Splitter.visitAll_postOrder, ok_bind]
  simp only [Splitter.close, Pending.finish_ofPlan, List.nil_append, Plan.runEnds, List.map_append]

end Generate

/-! ## Runs and their nodes -/

namespace Plan

/-- The ids of the run that ends at a node. -/
def runIds : Plan → List NodeId
  | scan id _ => [id]
  | filter id _ input | project id _ input => input.runIds ++ [id]
  | root .. | sort .. | join .. => []

/-- The ids of a run are the chain from its scan up to the node at its end. -/
theorem chain_runIds {plan : Plan} (compilable : plan.isCompilable = true) :
    plan.Chain plan.runIds := by
  induction plan with
  | scan id spec => exact .scan id spec
  | filter id condition input step => exact .filter id condition (step compilable)
  | project id expressions input step => exact .project id expressions (step compilable)
  | root id input step | sort id columns ascending input step => cases compilable
  | join id condition left right leftStep rightStep => cases compilable

/-- The last node of a chain is the one at its end. -/
theorem Chain.mem_id {plan : Plan} {ids : List NodeId} (chain : plan.Chain ids) :
    plan.id ∈ ids := by
  cases chain with
  | scan id spec => exact List.mem_singleton_self id
  | filter id condition below => exact List.mem_append_right _ (List.mem_singleton_self id)
  | project id expressions below => exact List.mem_append_right _ (List.mem_singleton_self id)

/-- The generators of a run have its ids. -/
theorem runTree_ids {plan : Plan} (compilable : plan.isCompilable = true) :
    plan.runTree.postOrder.map (fun tree => tree.generator.id) = plan.runIds := by
  induction plan with
  | scan id spec =>
    have accepted : (checkScan spec).isOk = true := compilable
    simp [runTree, accepted, runIds, GeneratorTree.postOrder, GeneratorTree.postOrderAll,
      GeneratorTree.generator, Generator.id]
  | filter id condition input step =>
    have below : input.isCompilable = true := compilable
    simp [runTree, below, runIds, ← step below, GeneratorTree.postOrder,
      GeneratorTree.postOrderAll, GeneratorTree.generator, Generator.id]
  | project id expressions input step =>
    have below : input.isCompilable = true := compilable
    simp [runTree, below, runIds, ← step below, GeneratorTree.postOrder,
      GeneratorTree.postOrderAll, GeneratorTree.generator, Generator.id]
  | root id input step | sort id columns ascending input step => cases compilable
  | join id condition left right leftStep rightStep => cases compilable

/-- Above an interpreted node with one input the runs are those of the input. -/
theorem runEnds_of_inputs {plan input : Plan} (below : plan.inputs = [input])
    (stays : plan.isCompilable = false) : plan.runEnds = input.runEnds := by
  simp [runEnds, endedRuns, plan.postOrder_eq, below, stays]

/-- The runs of a join are those of its inputs. -/
theorem runEnds_join (id : NodeId) (condition : Option Expr) (left right : Plan) :
    (join id condition left right).runEnds.Perm (left.runEnds ++ right.runEnds) := by
  have both : (join id condition left right).runEnds =
      left.postOrder.flatMap endedRuns ++ (right.postOrder.flatMap endedRuns ++
        ([left].filter isCompilable ++ [right].filter isCompilable)) := by
    rw [← List.filter_append]
    simp [runEnds, postOrder, endedRuns, isCompilable, inputs]
  rw [both, runEnds, runEnds, List.append_assoc]
  refine List.Perm.append_left _ ?_
  rw [← List.append_assoc, ← List.append_assoc]
  exact List.perm_append_comm.append_right _

/-- The runs of a plan hold each of its compilable nodes once. -/
theorem runIds_perm (plan : Plan) :
    (plan.runEnds.flatMap runIds).Perm ((plan.postOrder.filter isCompilable).map Plan.id) := by
  -- the runs below an interpreted node with one input are those of the input
  have interpreted : ∀ plan input : Plan, plan.inputs = [input] → plan.isCompilable = false →
      plan.runEnds = input.runEnds ∧
        plan.postOrder.filter isCompilable = input.postOrder.filter isCompilable := by
    intro plan input below stays
    refine ⟨runEnds_of_inputs below stays, ?_⟩
    simp [plan.postOrder_eq, below, stays]
  -- a node that goes on with the run of its input takes the place of the input
  have goesOn : ∀ plan input : Plan, plan.inputs = [input] → plan.isCompilable = true →
      input.isCompilable = true → plan.runIds = input.runIds ++ [plan.id] →
      plan.runEnds.flatMap runIds = input.runEnds.flatMap runIds ++ [plan.id] ∧
        (plan.postOrder.filter isCompilable).map Plan.id =
          (input.postOrder.filter isCompilable).map Plan.id ++ [plan.id] := by
    intro plan input below compilable under ids
    simp [runEnds, endedRuns, plan.postOrder_eq, below, compilable, under, ids]
  induction plan with
  | scan id spec =>
    cases accepted : (checkScan spec).isOk <;>
      simp [runEnds, postOrder, endedRuns, isCompilable, accepted, inputs, runIds, Plan.id]
  | root id input step =>
    obtain ⟨ends, nodes⟩ := interpreted (.root id input) input rfl rfl
    rw [ends, nodes]
    exact step
  | sort id columns ascending input step =>
    obtain ⟨ends, nodes⟩ := interpreted (.sort id columns ascending input) input rfl rfl
    rw [ends, nodes]
    exact step
  | filter id condition input step =>
    cases under : input.isCompilable with
    | false =>
      obtain ⟨ends, nodes⟩ := interpreted (.filter id condition input) input rfl under
      rw [ends, nodes]
      exact step
    | true =>
      obtain ⟨ends, nodes⟩ := goesOn (.filter id condition input) input rfl under under rfl
      rw [ends, nodes]
      exact step.append_right _
  | project id expressions input step =>
    cases under : input.isCompilable with
    | false =>
      obtain ⟨ends, nodes⟩ := interpreted (.project id expressions input) input rfl under
      rw [ends, nodes]
      exact step
    | true =>
      obtain ⟨ends, nodes⟩ := goesOn (.project id expressions input) input rfl under under rfl
      rw [ends, nodes]
      exact step.append_right _
  | join id condition left right leftStep rightStep =>
    have nodes : (join id condition left right).postOrder.filter isCompilable =
        left.postOrder.filter isCompilable ++ right.postOrder.filter isCompilable := by
      simp [postOrder, isCompilable]
    refine ((runEnds_join id condition left right).flatMap_right runIds).trans ?_
    rw [List.flatMap_append, nodes, List.map_append]
    exact leftStep.append rightStep

/-- A run goes on with a node of a new id. -/
theorem runIds_goesOn {input : Plan} {id : NodeId} (apart : (input.runIds ++ [id]).Nodup) :
    input.runIds.Nodup ∧ ∀ other ∈ input.runIds, other ≠ id := by
  obtain ⟨ids, -, new⟩ := List.nodup_append.1 apart
  exact ⟨ids, fun other member => new other member id (List.mem_singleton_self id)⟩

/-- The ids of the runs of a plan differ. -/
theorem runIds_nodup {plan : Plan} (distinct : (plan.postOrder.map Plan.id).Nodup) :
    (plan.runEnds.flatMap runIds).Nodup :=
  plan.runIds_perm.nodup_iff.2 (distinct.sublist (List.filter_sublist.map Plan.id))

/-- Every node of a plan but the root is the input of one node, and the root of none. -/
theorem inputs_perm (plan : Plan) :
    (plan.postOrder.flatMap (fun node => node.inputs) ++ [plan]).Perm plan.postOrder := by
  have single : ∀ plan input : Plan, plan.inputs = [input] →
      (input.postOrder.flatMap (fun node => node.inputs) ++ [input]).Perm input.postOrder →
      (plan.postOrder.flatMap (fun node => node.inputs) ++ [plan]).Perm plan.postOrder := by
    intro plan input below step
    rw [plan.postOrder_eq, below, List.flatMap_singleton, List.flatMap_append,
      List.flatMap_singleton, below]
    exact step.append_right _
  induction plan with
  | scan id spec => exact .refl _
  | root id input step => exact single (.root id input) input rfl step
  | filter id condition input step => exact single (.filter id condition input) input rfl step
  | project id expressions input step => exact single (.project id expressions input) input rfl step
  | sort id columns ascending input step =>
    exact single (.sort id columns ascending input) input rfl step
  | join id condition left right leftStep rightStep =>
    have both : (join id condition left right).postOrder.flatMap (fun node => node.inputs) =
        left.postOrder.flatMap (fun node => node.inputs) ++
          (right.postOrder.flatMap (fun node => node.inputs) ++ ([left] ++ [right])) := by
      simp [postOrder, inputs]
    rw [both, postOrder]
    refine List.Perm.append_right _ ?_
    refine List.Perm.trans ?_ (leftStep.append rightStep)
    rw [List.append_assoc]
    refine List.Perm.append_left _ ?_
    rw [← List.append_assoc, ← List.append_assoc]
    exact List.perm_append_comm.append_right _

/-- A run ends below an interpreted node or at the root. -/
theorem mem_runEnds {plan node : Plan} (ends : node ∈ plan.runEnds) :
    node.isCompilable = true ∧ (node = plan ∨ ∃ consumer ∈ plan.postOrder,
      consumer.isCompilable = false ∧ node ∈ consumer.inputs) := by
  rcases List.mem_append.1 ends with inside | top
  · obtain ⟨consumer, member, ended⟩ := List.mem_flatMap.1 inside
    unfold endedRuns at ended
    split at ended
    · cases ended
    · rename_i stays
      obtain ⟨input, compilable⟩ := List.mem_filter.1 ended
      exact ⟨compilable, .inr ⟨consumer, member, Bool.eq_false_iff.2 stays, input⟩⟩
  · obtain ⟨same, compilable⟩ := List.mem_filter.1 top
    exact ⟨compilable, .inl (List.mem_singleton.1 same)⟩

/-- A run ends at a node of the plan. -/
theorem runEnds_subset {plan node : Plan} (ends : node ∈ plan.runEnds) : node ∈ plan.postOrder := by
  obtain ⟨-, rfl | ⟨consumer, member, -, input⟩⟩ := mem_runEnds ends
  · exact node.mem_postOrder
  · refine plan.inputs_perm.mem_iff.1 (List.mem_append_left _ ?_)
    exact List.mem_flatMap.2 ⟨consumer, member, input⟩

/-- No compilable node consumes the node at the end of a run. -/
theorem runEnds_maximal {plan : Plan} (distinct : (plan.postOrder.map Plan.id).Nodup)
    {node consumer : Plan} (ends : node ∈ plan.runEnds) (member : consumer ∈ plan.postOrder)
    (consumes : node.id ∈ consumer.inputs.map Plan.id) : consumer.isCompilable = false := by
  have once := (plan.inputs_perm.map Plan.id).nodup_iff.2 distinct
  rw [List.map_append, List.map_flatMap] at once
  obtain ⟨-, rootless⟩ := List.nodup_append.1 once |>.2
  have apart := (List.nodup_flatMap.1 (List.nodup_append.1 once).1).2
  obtain ⟨-, rfl | ⟨other, present, stays, input⟩⟩ := mem_runEnds ends
  · -- the root is nobody's input
    exact absurd rfl (rootless node.id (List.mem_flatMap.2 ⟨consumer, member, consumes⟩) node.id
      (by simp))
  · by_contra compilable
    have differs : other ≠ consumer := by
      rintro rfl
      exact compilable stays
    have symmetric : Std.Symm
        (Function.onFun List.Disjoint fun node : Plan => node.inputs.map Plan.id) :=
      ⟨fun _ _ separate id right left => separate left right⟩
    have disjoint := apart.forall present member differs
    exact disjoint (List.mem_map_of_mem input) consumes

end Plan

namespace Generate

/-- Ids that come back do not count again. -/
theorem distinct_append {seen ids again : List NodeId} (apart : ids.Nodup)
    (fresh : ∀ id ∈ ids, id ∉ seen) (old : ∀ id ∈ again, id ∈ seen ∨ id ∈ ids) :
    distinct seen (ids ++ again) = ids := by
  induction ids generalizing seen with
  | nil =>
    induction again with
    | nil => rfl
    | cons id rest step =>
      have known : seen.contains id = true := by
        simpa using old id List.mem_cons_self
      rw [List.nil_append, distinct, if_pos known]
      exact step fun other later => old other (List.mem_cons_of_mem id later)
  | cons id rest step =>
    rw [List.nodup_cons] at apart
    have new : ¬seen.contains id = true := by
      simpa using fresh id List.mem_cons_self
    rw [List.cons_append, distinct, if_neg new]
    congr 1
    refine step apart.2 ?_ ?_
    · intro other later
      rw [List.mem_cons, not_or]
      exact ⟨fun same => apart.1 (same ▸ later), fresh other (List.mem_cons_of_mem id later)⟩
    · intro other later
      have cases := old other later
      simp only [List.mem_cons] at cases ⊢
      tauto

/-- The ids of the fragment of a run are those of the run. -/
theorem Fragment.subsumedIds_ofPlan {plan : Plan} (compilable : plan.isCompilable = true)
    (apart : plan.runIds.Nodup) : (Fragment.ofPlan plan).subsumedIds = plan.runIds := by
  have ids : (Fragment.ofPlan plan).generators.map (fun tree => tree.generator.id) =
      plan.runIds ++ [plan.id] := by
    rw [← Plan.runTree_ids compilable]
    simp [Fragment.ofPlan, Fragment.ofRun, Fragment.generators, GeneratorTree.postOrder,
      GeneratorTree.postOrderAll, GeneratorTree.generator, Generator.id]
  rw [Fragment.subsumedIds, ids]
  refine distinct_append apart (fun _ _ => List.not_mem_nil) fun id again => .inr ?_
  rw [List.mem_singleton.1 again]
  exact (Plan.chain_runIds compilable).mem_id

/-- Fragments are the maximal runs of compilable nodes of a plan. -/
structure ExactPartition (tree : PlanTree) (fragments : List Fragment) : Prop where
  /-- No node lies in two fragments. -/
  disjoint : fragments.Pairwise fun first second => first.subsumedIds.Disjoint second.subsumedIds
  /-- Exactly the compilable nodes lie in fragments. -/
  covers : ∀ id, (∃ fragment ∈ fragments, id ∈ fragment.subsumedIds) ↔
    ∃ node ∈ tree.nodes, node.id = id ∧ node.isCompilable = true
  /-- A fragment is the chain from a scan up to its primary node. -/
  chain : ∀ fragment ∈ fragments,
    fragment.plan ∈ tree.nodes ∧ fragment.plan.Chain fragment.subsumedIds
  /-- What consumes a fragment cannot be compiled. -/
  maximal : ∀ fragment ∈ fragments, ∀ consumer ∈ tree.nodes,
    fragment.primaryId ∈ consumer.inputs.map Plan.id → consumer.isCompilable = false
  /-- Fragments come in the order in which their consumers are reached, from left to right. -/
  ordered : fragments.map Fragment.plan = tree.root.runEnds

/-- Splitting a plan of accepted nodes succeeds, and the fragments are its maximal runs. The root of
any other built plan is the root of such a one (`PlanTree.Built.accepted`). -/
theorem partition_exact {nodes : List (NodeId × Operator × List NodeId)} {root : NodeId}
    {tree : PlanTree} (built : PlanTree.ofNodes nodes root = .ok tree) :
    ∃ fragments, partition tree.root = .ok fragments ∧ ExactPartition tree fragments := by
  have sound := PlanTree.sound_of_ofNodes built
  have distinct := (PlanTree.built_of_ofNodes built).sound.distinct
  have runs := List.nodup_flatMap.1 (Plan.runIds_nodup distinct)
  have ids : ∀ plan ∈ tree.root.runEnds, (Fragment.ofPlan plan).subsumedIds = plan.runIds :=
    fun plan ends => Fragment.subsumedIds_ofPlan (Plan.mem_runEnds ends).1 (runs.1 plan ends)
  refine ⟨_, partition_eq tree.root, ?_, ?_, ?_, ?_, ?_⟩
  · rw [List.pairwise_map]
    refine runs.2.imp_of_mem fun {first second} left right apart => ?_
    rw [ids first left, ids second right]
    exact apart
  · intro id
    have listed : id ∈ tree.root.runEnds.flatMap Plan.runIds ↔
        id ∈ (tree.root.postOrder.filter Plan.isCompilable).map Plan.id :=
      tree.root.runIds_perm.mem_iff
    constructor
    · rintro ⟨fragment, member, inside⟩
      obtain ⟨plan, ends, rfl⟩ := List.mem_map.1 member
      rw [ids plan ends] at inside
      obtain ⟨node, present, same⟩ :=
        List.mem_map.1 (listed.1 (List.mem_flatMap.2 ⟨plan, ends, inside⟩))
      obtain ⟨there, compilable⟩ := List.mem_filter.1 present
      exact ⟨node, sound.whole.mem_iff.1 there, same, compilable⟩
    · rintro ⟨node, present, rfl, compilable⟩
      have there := List.mem_filter.2 ⟨sound.whole.mem_iff.2 present, compilable⟩
      obtain ⟨plan, ends, inside⟩ := List.mem_flatMap.1 (listed.2 (List.mem_map_of_mem there))
      exact ⟨.ofPlan plan, List.mem_map_of_mem ends, ids plan ends ▸ inside⟩
  · intro fragment member
    obtain ⟨plan, ends, rfl⟩ := List.mem_map.1 member
    refine ⟨sound.whole.mem_iff.1 (Plan.runEnds_subset ends), ?_⟩
    rw [ids plan ends]
    exact Plan.chain_runIds (Plan.mem_runEnds ends).1
  · intro fragment member consumer present consumes
    obtain ⟨plan, ends, rfl⟩ := List.mem_map.1 member
    exact Plan.runEnds_maximal distinct ends (sound.whole.mem_iff.2 present) consumes
  · rw [List.map_map]
    exact List.map_id' tree.root.runEnds

/-- A run of a finished plan: its nodes have different ids, none of them negative. -/
structure IsRun (plan : Plan) : Prop where
  compilable : plan.isCompilable = true
  apart : plan.runIds.Nodup
  positive : ∀ id ∈ plan.runIds, 0 ≤ id

/-- The fragments of a finished plan are those of its runs. -/
theorem isRun_of_partition {tree : PlanTree} (built : tree.Built) {fragments : List Fragment}
    (split : partition tree.root = .ok fragments) {fragment : Fragment}
    (member : fragment ∈ fragments) : fragment = .ofPlan fragment.plan ∧ IsRun fragment.plan := by
  have once := Plan.runIds_nodup built.sound.distinct
  rw [partition_eq] at split
  cases split
  obtain ⟨plan, ends, rfl⟩ := List.mem_map.1 member
  refine ⟨rfl, (Plan.mem_runEnds ends).1, (List.nodup_flatMap.1 once).1 plan ends, ?_⟩
  intro id inside
  have listed : id ∈ tree.root.runEnds.flatMap Plan.runIds :=
    List.mem_flatMap.2 ⟨plan, ends, inside⟩
  rw [tree.root.runIds_perm.mem_iff] at listed
  obtain ⟨node, present, rfl⟩ := List.mem_map.1 listed
  exact (built.sound.valid node (List.mem_filter.1 present).1).1

/-- A scan of the keys of a map, under a class for its values. -/
def keyScan (className : String) : ScanSpec :=
  ⟨"people", .scalar .int, .ofClass className, [⟨true, none⟩], [.int], [0], none⟩

/-- A join of a filtered scan with a scan whose class has no form in source. -/
def halfCompiled : Plan :=
  .root 9 (.join 4 none (.filter 2 (.isNull (.column 0 .int)) (.scan 1 (keyScan "Person")))
    (.scan 3 (keyScan "1st")))

/-- The finished plan with its nodes. -/
def halfCompiledTree : PlanTree :=
  ⟨[.scan 1 (keyScan "Person"), .scan 3 (keyScan "1st"),
    .filter 2 (.isNull (.column 0 .int)) (.scan 1 (keyScan "Person")),
    .join 4 none (.filter 2 (.isNull (.column 0 .int)) (.scan 1 (keyScan "Person")))
      (.scan 3 (keyScan "1st")), halfCompiled], halfCompiled⟩

/-- It is built from its nodes. -/
theorem ofNodes_halfCompiled : PlanTree.ofNodes
    [(1, .scan (keyScan "Person"), []), (3, .scan (keyScan "1st"), []),
     (2, .filter (.isNull (.column 0 .int)), [1]), (4, .join none, [2, 3]), (9, .root, [4])] 9 =
      .ok halfCompiledTree :=
  rfl

/-- So it is a plan that was built. -/
theorem built_halfCompiled : halfCompiledTree.Built :=
  PlanTree.built_of_ofNodes ofNodes_halfCompiled

/-- The plan is split into one fragment, its scan with the filter. -/
theorem partition_exact_halfCompiled : ∃ tree,
    PlanTree.ofNodes
        [(1, .scan (keyScan "Person"), []), (3, .scan (keyScan "1st"), []),
         (2, .filter (.isNull (.column 0 .int)), [1]), (4, .join none, [2, 3]), (9, .root, [4])]
        9 = .ok tree ∧ tree.root = halfCompiled ∧
      ∃ fragments, partition tree.root = .ok fragments ∧ ExactPartition tree fragments ∧
        fragments.map Fragment.subsumedIds = [[1, 2]] := by
  obtain ⟨fragments, found, exact⟩ := partition_exact ofNodes_halfCompiled
  refine ⟨_, ofNodes_halfCompiled, rfl, fragments, found, exact, ?_⟩
  have same : partition halfCompiled = .ok fragments := found
  have listed : (partition halfCompiled).toOption.map (List.map Fragment.subsumedIds) =
      some [[1, 2]] := by decide +kernel
  rw [same] at listed
  exact Option.some.inj listed

end Generate

end QueryFusion
