import QueryFusion.Proofs.Plan.Records

/-!
# Refused nodes

A builder that refuses a node keeps its nodes, but inputs of the refused node that it has passed on
the way to the reason stay marked as consumed by it. Later calls are answered as if the refused one
had never been made exactly when these marks change no consumer.
-/

namespace QueryFusion

namespace PlanBuilder

variable {builder next first second : PlanBuilder} {id : NodeId}

/-! ## Later calls -/

/-- Tries to add nodes one after the other, whatever the answers are. -/
def addEach (builder : PlanBuilder) :
    List (NodeId × Operator × List NodeId) → List (Except Error NodeId) × PlanBuilder
  | [] => ([], builder)
  | (id, operator, inputs) :: rest =>
    let (answer, next) := builder.add id operator inputs
    let (answers, last) := next.addEach rest
    (answer :: answers, last)

/-- What is answered to calls that add nodes, and to the last call, which finishes the plan. -/
def answers (builder : PlanBuilder) (calls : List (NodeId × Operator × List NodeId))
    (root : NodeId) : List (Except Error NodeId) × Except Error PlanTree :=
  ((builder.addEach calls).1, (builder.addEach calls).2.build root)

/-- Two builders with the same nodes and consumers, whatever the order of their records. -/
structure Alike (first second : PlanBuilder) : Prop where
  nodes : first.nodes = second.nodes
  consumer : ∀ id, first.consumer? id = second.consumer? id

namespace Alike

/-- The same nodes are found. -/
theorem node? (alike : first.Alike second) (id : NodeId) : first.node? id = second.node? id := by
  rw [PlanBuilder.node?, PlanBuilder.node?, alike.nodes]

/-- One more mark on both. -/
theorem marked (alike : first.Alike second) (id input : NodeId) :
    Alike { first with consumed := (input, id) :: first.consumed }
      { second with consumed := (input, id) :: second.consumed } :=
  ⟨alike.nodes, fun other => by rw [consumer?_cons, consumer?_cons, alike.consumer]⟩

/-- Inputs are consumed in the same way. -/
theorem consume (alike : first.Alike second) (id : NodeId) (inputs : List NodeId) :
    (first.consume id inputs).1 = (second.consume id inputs).1 ∧
      Alike (first.consume id inputs).2 (second.consume id inputs).2 := by
  induction inputs generalizing first second with
  | nil => exact ⟨rfl, alike⟩
  | cons input rest step =>
    rw [PlanBuilder.consume, PlanBuilder.consume, alike.node?, alike.consumer]
    cases second.node? input with
    | none => exact ⟨rfl, alike⟩
    | some plan =>
      cases second.consumer? input with
      | some owner => exact ⟨rfl, alike.marked id input⟩
      | none =>
        obtain ⟨same, left⟩ := step (alike.marked id input)
        dsimp only
        revert same left
        generalize ({ first with consumed := (input, id) :: first.consumed } :
          PlanBuilder).consume id rest = one
        generalize ({ second with consumed := (input, id) :: second.consumed } :
          PlanBuilder).consume id rest = other
        obtain ⟨answer, one⟩ := one
        obtain ⟨answer', other⟩ := other
        rintro rfl left
        cases answer with
        | ok plans => exact ⟨rfl, left⟩
        | error error => exact ⟨rfl, left⟩

/-- A node is added in the same way. -/
theorem add (alike : first.Alike second) (id : NodeId) (operator : Operator)
    (inputs : List NodeId) :
    (first.add id operator inputs).1 = (second.add id operator inputs).1 ∧
      Alike (first.add id operator inputs).2 (second.add id operator inputs).2 := by
  have checked : first.checkNode id operator inputs = second.checkNode id operator inputs := by
    rw [checkNode, checkNode, alike.node?]
  obtain ⟨same, left⟩ := alike.consume id inputs
  unfold PlanBuilder.add
  rw [checked]
  cases second.checkNode id operator inputs with
  | error error => exact ⟨rfl, alike⟩
  | ok _ =>
    dsimp only
    revert same left
    generalize first.consume id inputs = one
    generalize second.consume id inputs = other
    obtain ⟨answer, one⟩ := one
    obtain ⟨answer', other⟩ := other
    rintro rfl left
    cases answer with
    | error error => exact ⟨rfl, left⟩
    | ok plans =>
      dsimp only
      cases checkOperator id operator with
      | error error => exact ⟨rfl, left⟩
      | ok _ =>
        cases Plan.ofOperator? id operator plans with
        | none => exact ⟨rfl, left⟩
        | some plan => exact ⟨rfl, by rw [left.nodes], left.consumer⟩

/-- Nodes are added one after the other in the same way. -/
theorem addEach (alike : first.Alike second) (calls : List (NodeId × Operator × List NodeId)) :
    (first.addEach calls).1 = (second.addEach calls).1 ∧
      Alike (first.addEach calls).2 (second.addEach calls).2 := by
  induction calls generalizing first second with
  | nil => exact ⟨rfl, alike⟩
  | cons call rest step =>
    obtain ⟨id, operator, inputs⟩ := call
    obtain ⟨answer, left⟩ := alike.add id operator inputs
    obtain ⟨answers, last⟩ := step left
    exact ⟨congrArg₂ List.cons answer answers, last⟩

/-- A plan is finished in the same way. -/
theorem build (alike : first.Alike second) (root : NodeId) :
    first.build root = second.build root := by
  unfold PlanBuilder.build
  simp only [alike.node?, alike.consumer, alike.nodes]

/-- All calls are answered in the same way. -/
theorem answers (alike : first.Alike second) (calls : List (NodeId × Operator × List NodeId))
    (root : NodeId) : first.answers calls root = second.answers calls root := by
  obtain ⟨same, left⟩ := alike.addEach calls
  rw [PlanBuilder.answers, PlanBuilder.answers, same, left.build root]

end Alike

/-! ## Marks that show -/

/-- The error names the consumer. -/
theorem consumedTwice_inj {input owner other id : NodeId}
    (same : consumedTwice input owner id = consumedTwice input other id) : owner = other := by
  simp only [consumedTwice, Error.planInvariant.injEq] at same
  exact NodeId.text_inj ((String.append_right_inj _).1
    ((String.append_left_inj _).1 ((String.append_left_inj _).1 same)))

/-- Whether an input has a consumer shows when a node is added on top of it. -/
theorem add_root {input : NodeId} (fit : builder.checkNode id .root [input] = .ok ())
    (present : (builder.node? input).isSome) : (builder.add id .root [input]).1 =
      match builder.consumer? input with
      | none => .ok id
      | some owner => .error (consumedTwice input owner id) := by
  obtain ⟨plan, found⟩ := Option.isSome_iff_exists.1 present
  unfold PlanBuilder.add
  rw [fit]
  simp only [consume, found]
  cases builder.consumer? input <;> rfl

/-- Marked inputs are nodes. -/
theorem Stuck.present {inputs marked : List NodeId} {error : Error}
    (stuck : builder.Stuck id inputs error marked) {input : NodeId} (inside : input ∈ marked) :
    (builder.node? input).isSome := by
  cases stuck with
  | missing _ split free absent => exact free.present input inside
  | claimed _ split free present owned =>
    rcases List.mem_append.1 inside with before | last
    · exact free.present input before
    · rwa [List.mem_singleton.1 last]

/-- A builder that refuses a node keeps its nodes. Some inputs of the refused node stay marked,
those up to the one that is the reason, and have it as their consumer from now on. All later calls
are answered as if the refused one had never been made exactly when it was their consumer before,
too. -/
theorem refused_add_leaves {operator : Operator} {inputs : List NodeId} {error : Error}
    (refused : builder.add id operator inputs = (.error error, next)) :
    ∃ marked, builder.Refuses id operator inputs error marked ∧ next.nodes = builder.nodes ∧
      (∀ other, next.consumer? other =
        if other ∈ marked then some id else builder.consumer? other) ∧
      ((∀ calls root, next.answers calls root = builder.answers calls root) ↔
        ∀ input ∈ marked, builder.consumer? input = some id) := by
  rcases builder.add_cases id operator inputs with ⟨plan, -, same⟩ | ⟨_, marked, refuses, same⟩
  · rw [refused] at same
    cases same
  rw [refused] at same
  cases same
  refine ⟨marked, refuses, nodes_mark builder id marked, consumer?_mark builder id marked,
    fun same input inside => ?_, fun owned calls root => ?_⟩
  · cases refuses with
    | unfit reason => cases inside
    | invalid fit alone reason => cases inside
    | stuck fit stuck =>
      -- a node of the refused id on top of the input alone shows who consumes the input
      have alone : builder.checkNode id .root [input] = .ok () := by
        obtain ⟨positive, fresh, -⟩ := checkNode_eq_ok_iff.1 fit
        exact checkNode_eq_ok_iff.2 ⟨positive, fresh, rfl⟩
      have present := stuck.present inside
      have before := add_root alone present
      have after := @add_root (builder.mark id marked) id input
        (by rwa [checkNode, node?, nodes_mark]) (by rwa [node?, nodes_mark])
      have answer : ((builder.mark id marked).add id .root [input]).1 =
          (builder.add id .root [input]).1 :=
        (List.cons.inj (congrArg Prod.fst (same [(id, .root, [input])] id))).1
      rw [after, before, consumer?_mark, if_pos inside] at answer
      cases owned : builder.consumer? input with
      | none =>
        rw [owned] at answer
        cases answer
      | some owner =>
        rw [owned] at answer
        rw [consumedTwice_inj (Except.error.inj answer)]
  · refine Alike.answers ⟨nodes_mark builder id marked, fun other => ?_⟩ calls root
    rw [consumer?_mark]
    split
    · rename_i inside
      exact (owned other inside).symm
    · rfl

/-- A builder with two scans. -/
def twoScans : PlanBuilder :=
  ⟨[.scan 1 default, .scan 2 default], []⟩

/-- A join whose second input is missing leaves its first one marked, and this shows. -/
theorem refused_add_leaves_join :
    twoScans.add 3 (.join none) [1, 9] =
      (.error (.planInvariant ("input " ++ NodeId.text 9 ++ " of node " ++ NodeId.text 3 ++
        " not found")), twoScans.mark 3 [1]) ∧
    ¬ ∀ calls root, (twoScans.mark 3 [1]).answers calls root = twoScans.answers calls root := by
  have refused : twoScans.add 3 (.join none) [1, 9] =
      (.error (.planInvariant ("input " ++ NodeId.text 9 ++ " of node " ++ NodeId.text 3 ++
        " not found")), twoScans.mark 3 [1]) := rfl
  refine ⟨refused, fun same => ?_⟩
  obtain ⟨marked, -, -, consumer, shows⟩ := refused_add_leaves refused
  have inside : 1 ∈ marked := by
    by_contra apart
    have owner := consumer 1
    rw [if_neg apart] at owner
    cases owner
  cases shows.1 same 1 inside

/-- A plan with a scan that no node consumes is finished when a refused join has marked the scan,
and it is not finished otherwise. -/
theorem disconnected_by_refused_join :
    PlanBuilder.empty.addAll [(1, .scan default, []), (2, .scan default, [])] = .ok twoScans ∧
    ∃ error next tree reason, twoScans.add 3 (.join none) [1, 9] = (.error error, next) ∧
      next.answers [(4, .root, [2])] 4 = ([.ok 4], .ok tree) ∧
      twoScans.answers [(4, .root, [2])] 4 = ([.ok 4], .error reason) :=
  ⟨rfl, _, _, _, _, rfl, rfl, rfl⟩

end PlanBuilder

end QueryFusion
