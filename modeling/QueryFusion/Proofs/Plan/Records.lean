import QueryFusion.Proofs.Plan.Building
import QueryFusion.Proofs.Script.Numerals

/-!
# What a builder records

A builder records each node that was added, and for each consumed node its consumer. Consuming the
inputs of a new node marks them one after the other up to the first one that cannot be consumed: an
input that is missing, or one that has a consumer already. Adding a node either records it and marks
its inputs, or records nothing and leaves some inputs marked.
-/

namespace QueryFusion

/-- The call that adds the top node of a plan. -/
def Plan.entry (plan : Plan) : NodeId × Operator × List NodeId :=
  (plan.id, plan.operator, plan.inputs.map Plan.id)

/-- Different ids have different texts. -/
theorem NodeId.text_inj {first second : NodeId} (same : first.text = second.text) :
    first = second := by
  have unsigned : ∀ {left right : Nat}, Nat.toDigits 10 left = Nat.toDigits 10 right →
      left = right := by
    intro left right equal
    rw [← Script.valueOf_toDigits left, equal, Script.valueOf_toDigits]
  have signed : ∀ {left right : Nat}, '-' :: Nat.toDigits 10 left ≠ Nat.toDigits 10 right := by
    intro left right equal
    have digit := Nat.isDigit_of_mem_toDigits (by decide) (by decide)
      (equal ▸ List.mem_cons_self : '-' ∈ Nat.toDigits 10 right)
    exact absurd digit (by decide)
  unfold NodeId.text at same
  rw [← String.toList_inj, Script.toList_toString, Script.toList_toString] at same
  apply Int32.toInt.inj
  split at same <;> split at same
  · have := unsigned same
    omega
  · exact absurd same.symm signed
  · exact absurd same signed
  · have := unsigned (List.cons.inj same).2
    omega

namespace PlanBuilder

variable {builder : PlanBuilder} {id : NodeId}

/-! ## Marked inputs -/

/-- The builder with these nodes marked as consumed, one after the other. -/
def mark (builder : PlanBuilder) (id : NodeId) : List NodeId → PlanBuilder
  | [] => builder
  | input :: rest => mark { builder with consumed := (input, id) :: builder.consumed } id rest

/-- Marking adds no node. -/
theorem nodes_mark (builder : PlanBuilder) (id : NodeId) (inputs : List NodeId) :
    (builder.mark id inputs).nodes = builder.nodes := by
  induction inputs generalizing builder with
  | nil => rfl
  | cons input rest step => exact step _

/-- A marked node has the new consumer, whatever it had before. -/
theorem consumer?_mark (builder : PlanBuilder) (id : NodeId) (inputs : List NodeId)
    (other : NodeId) : (builder.mark id inputs).consumer? other =
      if other ∈ inputs then some id else builder.consumer? other := by
  induction inputs generalizing builder with
  | nil => rw [mark, if_neg List.not_mem_nil]
  | cons input rest step =>
    rw [mark, step, consumer?_cons]
    by_cases inside : other ∈ rest
    · rw [if_pos inside, if_pos (List.mem_cons_of_mem input inside)]
    · simp only [List.mem_cons, inside, or_false, if_false, eq_comm]

/-- Inputs that can be consumed together: different nodes without a consumer. -/
structure Free (builder : PlanBuilder) (inputs : List NodeId) : Prop where
  apart : inputs.Nodup
  present : ∀ input ∈ inputs, (builder.node? input).isSome
  unclaimed : ∀ input ∈ inputs, builder.consumer? input = none

/-- Nothing can always be consumed. -/
theorem Free.nil (builder : PlanBuilder) : builder.Free [] :=
  ⟨List.nodup_nil, nofun, nofun⟩

/-- One more node without a consumer stands before inputs that can be consumed behind it. -/
theorem Free.cons {input : NodeId} {rest : List NodeId} (present : (builder.node? input).isSome)
    (unclaimed : builder.consumer? input = none)
    (free : Free { builder with consumed := (input, id) :: builder.consumed } rest) :
    builder.Free (input :: rest) := by
  have other : ∀ later ∈ rest, input ≠ later ∧ builder.consumer? later = none := by
    intro later member
    have unowned := free.unclaimed later member
    rw [consumer?_cons] at unowned
    split at unowned
    · cases unowned
    · rename_i differs
      exact ⟨differs, unowned⟩
  refine ⟨List.nodup_cons.2 ⟨fun inside => (other input inside).1 rfl, free.apart⟩, ?_, ?_⟩
  · intro later member
    rcases List.mem_cons.1 member with rfl | inside
    · exact present
    · exact free.present later inside
  · intro later member
    rcases List.mem_cons.1 member with rfl | inside
    · exact unclaimed
    · exact (other later inside).2

/-- The error of a node whose input has a consumer. -/
def consumedTwice (input owner id : NodeId) : Error :=
  .planInvariant ("node " ++ input.text ++ " is consumed by both " ++ owner.text ++ " and " ++
    id.text)

/-- Why the inputs of a node cannot be consumed, and those that stay marked. -/
inductive Stuck (builder : PlanBuilder) (id : NodeId) (inputs : List NodeId) :
    Error → List NodeId → Prop
  /-- An input is no node; those before it stay marked. -/
  | missing (kept : List NodeId) {rest : List NodeId} {bad : NodeId}
      (split : inputs = kept ++ bad :: rest)
      (free : builder.Free kept) (absent : builder.node? bad = none) :
      Stuck builder id inputs (.planInvariant ("input " ++ bad.text ++ " of node " ++ id.text ++
        " not found")) kept
  /-- An input has a consumer, or it is named twice; it is marked all the same. -/
  | claimed (kept : List NodeId) {rest : List NodeId} {bad owner : NodeId}
      (split : inputs = kept ++ bad :: rest)
      (free : builder.Free kept) (present : (builder.node? bad).isSome)
      (owned : (if bad ∈ kept then some id else builder.consumer? bad) = some owner) :
      Stuck builder id inputs (consumedTwice bad owner id) (kept ++ [bad])

/-- A reason among later inputs is one among all of them. -/
theorem Stuck.cons {input : NodeId} {rest marked : List NodeId} {error : Error}
    (present : (builder.node? input).isSome) (unclaimed : builder.consumer? input = none)
    (stuck : Stuck { builder with consumed := (input, id) :: builder.consumed } id rest error
      marked) : builder.Stuck id (input :: rest) error (input :: marked) := by
  cases stuck with
  | missing _ split free absent =>
    exact .missing (input :: _) (by rw [split, List.cons_append])
      (free.cons present unclaimed) absent
  | @claimed kept _ bad owner split free found owned =>
    refine .claimed (input :: kept) (by rw [split, List.cons_append])
      (free.cons present unclaimed) found ?_
    rw [← owned, consumer?_cons]
    by_cases inside : bad ∈ kept
    · rw [if_pos inside, if_pos (List.mem_cons_of_mem input inside)]
    · simp only [List.mem_cons, inside, or_false, if_false, eq_comm]

/-- The inputs of a node are consumed together and marked, or some of them stay marked. -/
theorem consume_cases (builder : PlanBuilder) (id : NodeId) (inputs : List NodeId) :
    (builder.Free inputs ∧ ∃ plans, (∀ plan ∈ plans, plan ∈ builder.nodes) ∧
      plans.map Plan.id = inputs ∧
      builder.consume id inputs = (.ok plans, builder.mark id inputs)) ∨
    ∃ error marked, builder.Stuck id inputs error marked ∧
      builder.consume id inputs = (.error error, builder.mark id marked) := by
  induction inputs generalizing builder with
  | nil => exact .inl ⟨.nil builder, [], nofun, rfl, rfl⟩
  | cons input rest step =>
    rw [consume]
    cases found : builder.node? input with
    | none =>
      exact .inr ⟨_, [], .missing [] rfl (.nil builder) found, rfl⟩
    | some plan =>
      have present : (builder.node? input).isSome := by rw [found]; rfl
      cases claimed : builder.consumer? input with
      | some owner =>
        exact .inr ⟨_, [input], .claimed [] rfl (.nil builder) present
          ((if_neg List.not_mem_nil).trans claimed), rfl⟩
      | none =>
        rcases step { builder with consumed := (input, id) :: builder.consumed } with
          ⟨free, plans, inside, ids, consumed⟩ | ⟨error, marked, stuck, consumed⟩
        · obtain ⟨member, same⟩ := node?_eq_some found
          refine .inl ⟨free.cons present claimed, plan :: plans, ?_, ?_, ?_⟩
          · intro other listed
            rcases List.mem_cons.1 listed with rfl | later
            · exact member
            · exact inside other later
          · rw [List.map_cons, same, ids]
          · simp only [consumed, mark]
        · refine .inr ⟨error, input :: marked, stuck.cons present claimed, ?_⟩
          simp only [consumed, mark]

/-! ## Calls -/

/-- A node that is accepted, with the plan that it is the top of. -/
structure Accepts (builder : PlanBuilder) (id : NodeId) (operator : Operator)
    (inputs : List NodeId) (plan : Plan) : Prop where
  fit : builder.checkNode id operator inputs = .ok ()
  free : builder.Free inputs
  valid : checkOperator id operator = .ok ()
  entry : plan.entry = (id, operator, inputs)
  /-- The inputs are the plans that were recorded for them. -/
  inside : ∀ input ∈ plan.inputs, input ∈ builder.nodes

/-- Why a node is refused, and the inputs that stay marked. -/
inductive Refuses (builder : PlanBuilder) (id : NodeId) (operator : Operator)
    (inputs : List NodeId) (error : Error) : List NodeId → Prop
  | unfit (reason : builder.checkNode id operator inputs = .error error) :
      Refuses builder id operator inputs error []
  | stuck {marked : List NodeId} (fit : builder.checkNode id operator inputs = .ok ())
      (reason : builder.Stuck id inputs error marked) :
      Refuses builder id operator inputs error marked
  /-- Only a scan has conditions of its own, and it has no inputs. -/
  | invalid (fit : builder.checkNode id operator inputs = .ok ()) (alone : inputs = [])
      (reason : checkOperator id operator = .error error) :
      Refuses builder id operator inputs error []

/-- A plan can be made from as many inputs as its operator takes. -/
theorem ofOperator?_isSome (id : NodeId) {operator : Operator} {plans : List Plan}
    (counted : plans.length = operator.inputCount) :
    ∃ plan, Plan.ofOperator? id operator plans = some plan := by
  match operator, plans, counted with
  | .scan _, [], _ => exact ⟨_, rfl⟩
  | .root, [_], _ | .filter _, [_], _ | .project _, [_], _ | .sort .., [_], _ => exact ⟨_, rfl⟩
  | .join _, [_, _], _ => exact ⟨_, rfl⟩

/-- An accepted node is recorded with its inputs marked, and a refused one leaves marks at most. -/
theorem add_cases (builder : PlanBuilder) (id : NodeId) (operator : Operator)
    (inputs : List NodeId) :
    (∃ plan, builder.Accepts id operator inputs plan ∧ builder.add id operator inputs =
      (.ok id, { builder.mark id inputs with nodes := builder.nodes ++ [plan] })) ∨
    ∃ error marked, builder.Refuses id operator inputs error marked ∧
      builder.add id operator inputs = (.error error, builder.mark id marked) := by
  unfold PlanBuilder.add
  cases fit : builder.checkNode id operator inputs with
  | error error => exact .inr ⟨error, [], .unfit fit, rfl⟩
  | ok _ =>
    rcases builder.consume_cases id inputs with
      ⟨free, plans, inside, ids, consumed⟩ | ⟨error, marked, stuck, consumed⟩
    · have counted : plans.length = operator.inputCount := by
        rw [← (checkNode_eq_ok_iff.1 fit).2.2, ← ids, List.length_map]
      obtain ⟨plan, made⟩ := ofOperator?_isSome id counted
      obtain ⟨own, same, below⟩ := Plan.ofOperator?_eq_some made
      simp only [consumed, made, nodes_mark]
      cases valid : checkOperator id operator with
      | error error =>
        have alone : inputs = [] := by
          cases operator with
          | scan spec => exact List.length_eq_zero_iff.1 (checkNode_eq_ok_iff.1 fit).2.2
          | root | filter _ | project _ | sort _ _ | join _ => cases valid
        refine .inr ⟨error, [], .invalid fit alone valid, ?_⟩
        rw [alone]
      | ok _ =>
        refine .inl ⟨plan, ⟨fit, free, valid, ?_, ?_⟩, rfl⟩
        · rw [Plan.entry, own, same, below, ids]
        · rwa [below]
    · simp only [consumed]
      exact .inr ⟨error, marked, .stuck fit stuck, rfl⟩

end PlanBuilder

end QueryFusion
