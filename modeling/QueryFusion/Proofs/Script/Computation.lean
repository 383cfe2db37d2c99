import QueryFusion.Proofs.Script.Runs
import QueryFusion.Proofs.Script.State

/-!
# Code that computes a meaning

Code realizes the meaning of an expression when, from every state that the compiler expects, it does
to the memory what the meaning does, and then either leaves one more slot on the stack, which fits
the type, or ends the run with the same error. The forms of expressions are combined here one by
one: code that realizes the parts, put together with its jumps, realizes the whole.
-/

namespace QueryFusion.Script

variable {unit : CompiledUnit} {routine : Routine}

/-- The run follows an outcome: it arrives where a result is expected, or it ends with the error. -/
def Computes {α : Type} (unit : CompiledUnit) (routine : Routine) (frame : Frame)
    (memory : Memory) (arrival : α → Frame) (good : Nat → α → Prop) :
    Except Error α × Memory → Prop
  | (.ok result, changed) => Reaches unit routine frame memory (arrival result) changed ∧
      Follows unit.fields memory changed ∧ good changed.cursors.length result
  | (.error error, changed) => Halts unit routine frame memory (.error error) changed ∧
      Follows unit.fields memory changed ∧ Foreseen error

namespace Computes

variable {α β : Type} {frame : Frame} {memory : Memory}

/-- What stands before a place that is reached. -/
theorem after {first : Frame} {before : Memory} {arrival : α → Frame} {good : Nat → α → Prop}
    {outcome : Except Error α × Memory}
    (part : Reaches unit routine first before frame memory)
    (follows : Follows unit.fields before memory)
    (rest : Computes unit routine frame memory arrival good outcome) :
    Computes unit routine first before arrival good outcome := by
  obtain ⟨result | result, changed⟩ := outcome
  · exact ⟨part.halts rest.1, follows.trans rest.2.1, rest.2.2⟩
  · exact ⟨part.trans rest.1, follows.trans rest.2.1, rest.2.2⟩

/-- Two parts, the second from where the first arrives. -/
theorem bind {first : Effect α} {next : α → Effect β} {between : α → Frame} {arrival : β → Frame}
    {middling : Nat → α → Prop} {good : Nat → β → Prop}
    (head : Computes unit routine frame memory between middling (first memory))
    (tail : ∀ result changed, Follows unit.fields memory changed →
      middling changed.cursors.length result →
        Computes unit routine (between result) changed arrival good (next result changed)) :
    Computes unit routine frame memory arrival good ((first >>= next) memory) := by
  cases outcome : first memory with
  | mk result changed =>
    rw [outcome] at head
    cases result with
    | error error =>
      rw [Effect.bind_apply_error outcome]
      exact head
    | ok result =>
      rw [Effect.bind_apply_ok outcome]
      exact (tail result changed head.2.1 head.2.2).after head.1 head.2.1

/-- What is known of a result may be less. -/
theorem imp {arrival : α → Frame} {good fine : Nat → α → Prop}
    {outcome : Except Error α × Memory}
    (part : Computes unit routine frame memory arrival good outcome)
    (less : ∀ cursorCount result, good cursorCount result → fine cursorCount result) :
    Computes unit routine frame memory arrival fine outcome := by
  obtain ⟨error | result, changed⟩ := outcome
  · exact part
  · exact ⟨part.1, part.2.1, less _ _ part.2.2⟩

/-- A run that goes on from where it arrives, with the same memory. -/
theorem further {arrival last : α → Frame} {good : Nat → α → Prop}
    {outcome : Except Error α × Memory}
    (part : Computes unit routine frame memory arrival good outcome)
    (rest : ∀ result changed,
      Reaches unit routine (arrival result) changed (last result) changed) :
    Computes unit routine frame memory last good outcome := by
  obtain ⟨error | result, changed⟩ := outcome
  · exact part
  · exact ⟨part.1.trans (rest result changed), part.2⟩

end Computes

/-- The effect of an instruction on the stack and the memory: a failure changes nothing. -/
def Acts (unit : CompiledUnit) (routineName : String) (frame : Frame) (memory : Memory) (op : Op)
    (rest : List Slot) : Except Error Slot × Memory → Prop
  | (.ok slot, changed) => execute unit routineName frame memory op =
      .ok (.proceed (frame.withStack (slot :: rest)), changed)
  | (.error error, changed) => execute unit routineName frame memory op = .error error ∧
      changed = memory

/-- An outcome that a typed instruction may have. -/
def SoundEffect (fields : List FieldInfo) (memory : Memory) (type : Ty) :
    Except Error Slot × Memory → Prop
  | (.ok slot, changed) => Follows fields memory changed ∧ slot.Fits changed.cursors.length type
  | (.error error, _) => Foreseen error

/-- An instruction that pushes one slot. -/
theorem Computes.op {frame : Frame} {memory : Memory} {op : Op} {rest : List Slot} {type : Ty}
    {outcome : Except Error Slot × Memory}
    (present : routine.ops[frame.counter]? = some op)
    (acts : Acts unit routine.name { frame with counter := frame.counter + 1 } memory op rest
      outcome)
    (fits : memory.Fits unit.fields) (sound : SoundEffect unit.fields memory type outcome) :
    Computes unit routine frame memory
      (fun slot => ⟨frame.counter + 1, frame.locals, slot :: rest⟩)
      (fun cursorCount slot => slot.Fits cursorCount type) outcome := by
  obtain ⟨error | slot, changed⟩ := outcome
  · obtain ⟨failed, rfl⟩ := acts
    exact ⟨.error present failed, fits.follows, sound⟩
  · exact ⟨.step present acts, sound.1, sound.2⟩

/-- An outcome that leaves the memory alone. -/
theorem SoundEffect.unchanged {fields : List FieldInfo} {memory : Memory} {type : Ty}
    {outcome : Except Error Slot} (fits : memory.Fits fields)
    (sound : Sound memory.cursors.length type outcome) :
    SoundEffect fields memory type (outcome, memory) := by
  cases outcome with
  | error error => exact sound
  | ok slot => exact ⟨fits.follows, sound⟩

/-! ## Instructions -/

section Instructions

variable {name : String} {frame : Frame} {memory : Memory} {rest : List Slot}

/-- An instruction that only works on the stack. -/
theorem acts_onStack {op : Op} {outcome : Except Error Slot}
    (plain : execute unit name frame memory op = (do
      let stack ← onStack unit frame.locals memory.fields frame.stack op
      .ok (.proceed (frame.withStack stack), memory)))
    (stacked : onStack unit frame.locals memory.fields frame.stack op = (do
      let slot ← outcome
      .ok (slot :: rest))) :
    Acts unit name frame memory op rest (outcome, memory) := by
  rw [stacked] at plain
  cases outcome with
  | error error => exact ⟨plain, rfl⟩
  | ok slot => exact plain

/-- An entry that a table has. -/
theorem entryAt_eq {α : Type} {what : String} {table : List α} {index : Nat} {entry : α}
    (present : table[index]? = some entry) : entryAt what table index = .ok entry := by
  rw [entryAt, present]

/-- Pushing a constant. -/
theorem acts_const {index : Nat} {constant : Slot}
    (present : unit.constants[index]? = some constant) :
    Acts unit name frame memory (.const index) frame.stack (.ok constant, memory) := by
  refine acts_onStack rfl ?_
  change (entryAt "constant" unit.constants index >>= fun slot => _) = _
  rw [entryAt_eq present]

/-- Pushing a local. -/
theorem acts_loadLocal {index : Nat} {slot : Slot} (present : frame.locals[index]? = some slot) :
    Acts unit name frame memory (.loadLocal index) frame.stack (.ok slot, memory) := by
  refine acts_onStack rfl ?_
  change (entryAt "local" frame.locals index >>= fun slot => _) = _
  rw [entryAt_eq present]

/-- Pushing a field. -/
theorem acts_loadField (index : Nat) :
    Acts unit name frame memory (.loadField index) frame.stack
      (loadField unit memory.fields index, memory) :=
  acts_onStack rfl rfl

/-- The truth value on top of the stack. -/
theorem popTruth_cons (what : String) (slot : Slot) (rest : List Slot) :
    popTruth what (slot :: rest) = (do
      let truth ← truthOf what slot
      .ok (truth, rest)) := by
  unfold popTruth popValue truthOf
  simp only [pop, ok_bind]
  cases slot.toValue with
  | error error => rfl
  | ok value => cases value <;> rfl

/-- Negation. -/
theorem acts_not {slot : Slot} (top : frame.stack = slot :: rest) :
    Acts unit name frame memory .not rest (notSlot slot, memory) := by
  refine acts_onStack rfl ?_
  rw [top]
  change (popTruth "operator !" (slot :: rest) >>= fun truth => _) = _
  rw [popTruth_cons, notSlot]
  cases truthOf "operator !" slot <;> rfl

/-- Changing a sign. -/
theorem acts_negate {slot : Slot} (top : frame.stack = slot :: rest) :
    Acts unit name frame memory .negate rest (negateSlot slot, memory) := by
  refine acts_onStack rfl ?_
  rw [top]
  change (popValue (slot :: rest) >>= fun operand => _) = _
  simp only [popValue, pop, ok_bind, negateSlot]
  cases slot.toValue with
  | error error => rfl
  | ok value =>
    simp only [ok_bind]
    cases value.negate <;> rfl

/-- The two values on top of the stack. -/
theorem popValue_pair {γ : Type} (left right : Slot) (next : Value → Value → Except Error γ)
    (rest : List Slot) (wrap : γ → Slot) :
    (do let (rightValue, afterRight) ← popValue (right :: left :: rest)
        let (leftValue, others) ← popValue afterRight
        let result ← next leftValue rightValue
        .ok (wrap result :: others)) =
      (do let slot ← (do
            let rightValue ← right.toValue
            let leftValue ← left.toValue
            let result ← next leftValue rightValue
            Except.ok (wrap result))
          .ok (slot :: rest)) := by
  simp only [popValue, pop, ok_bind]
  cases right.toValue with
  | error error => rfl
  | ok rightValue =>
    simp only [ok_bind]
    cases left.toValue with
    | error error => rfl
    | ok leftValue =>
      simp only [ok_bind]
      cases next leftValue rightValue <;> rfl

/-- Equality and inequality. -/
theorem equalityOnStack_pair (expected : Bool) (left right : Slot) (rest : List Slot) :
    equalityOnStack expected (right :: left :: rest) = (do
      let slot ← matchSlots expected left right
      .ok (slot :: rest)) := by
  simp only [equalityOnStack, pop, ok_bind, matchSlots]
  cases left.equal right <;> rfl

/-- The instruction of a binary operator. -/
theorem acts_binary {op : BinaryOp} {leftType rightType type : Ty} {instruction : Op}
    {left right : Slot}
    (accepted : binaryOp? op leftType rightType = some (instruction, type))
    (top : frame.stack = right :: left :: rest) :
    Acts unit name frame memory instruction rest (op.apply left right, memory) := by
  cases op <;> simp only [binaryOp?, reduceCtorEq, Option.ite_none_right_eq_some, Option.some.injEq,
    Prod.mk.injEq] at accepted
  case equal | notEqual =>
    obtain ⟨-, rfl, -⟩ := accepted
    refine acts_onStack rfl ?_
    rw [top]
    exact equalityOnStack_pair _ left right rest
  case less | lessOrEqual | greater | greaterOrEqual =>
    obtain ⟨-, rfl, -⟩ := accepted
    refine acts_onStack rfl ?_
    rw [top]
    exact popValue_pair left right _ rest Slot.truth
  case add | subtract | multiply | divide | remainder =>
    obtain ⟨-, rfl, -⟩ := accepted
    refine acts_onStack rfl ?_
    rw [top]
    exact popValue_pair left right _ rest Slot.value

/-- A cast. -/
theorem acts_cast {slot : Slot} {target : CastTarget} (top : frame.stack = slot :: rest) :
    Acts unit name frame memory (.cast target) rest (target.apply slot, memory) := by
  refine acts_onStack rfl ?_
  rw [top]
  rfl

/-- Reading a field of an object. -/
theorem acts_getter {slot : Slot} {index : Nat} {field : String}
    (present : unit.names[index]? = some field) (top : frame.stack = slot :: rest) :
    Acts unit name frame memory (.getter index) rest (getterSlot field slot, memory) := by
  refine acts_onStack rfl ?_
  rw [top]
  change (entryAt "name" unit.names index >>= fun field => _) = _
  simp only [entryAt_eq present, ok_bind, popValue, pop, getterSlot]
  cases slot.toValue with
  | error error => rfl
  | ok value =>
    simp only [ok_bind]
    cases readGetter field value <;> rfl

/-- The slots of arguments on top of the stack. -/
theorem popMany_reverse (slots rest : List Slot) :
    popMany slots.length (slots.reverse ++ rest) = .ok (slots, rest) := by
  unfold popMany
  rw [if_neg (by simp)]
  have taken : (slots.reverse ++ rest).take slots.length = slots.reverse := by
    rw [← List.length_reverse, List.take_left]
  have dropped : (slots.reverse ++ rest).drop slots.length = rest := by
    rw [← List.length_reverse, List.drop_left]
  rw [taken, dropped, List.reverse_reverse]

/-- Making a row. -/
theorem acts_newRow {slots : List Slot} (top : frame.stack = slots.reverse ++ rest) :
    Acts unit name frame memory (.newRow slots.length) rest (rowOf slots, memory) := by
  refine acts_onStack rfl ?_
  rw [top]
  change (popMany slots.length (slots.reverse ++ rest) >>= fun parts => _) = _
  simp only [popMany_reverse, ok_bind, rowOf]
  cases valuesOf slots <;> rfl

/-- Making a cursor. -/
theorem acts_createCursor {map partitions : Slot}
    (top : frame.stack = partitions :: map :: rest) :
    Acts unit name frame memory .createCursor rest (openCursor map partitions memory) := by
  unfold openCursor
  split
  · change (pop frame.stack >>= fun first => _) = _
    rw [top]
    rfl
  · refine ⟨?_, rfl⟩
    change (pop frame.stack >>= fun first => _) = _
    simp only [top, pop, ok_bind]

/-- Adding a row to the batch. -/
theorem acts_addToBatch {slot : Slot} (top : frame.stack = slot :: rest) :
    Acts unit name frame memory .addToBatch rest (addRow slot memory) := by
  cases slot with
  | row columns =>
    change (pop frame.stack >>= fun popped => _) = _
    rw [top]
    rfl
  | _ =>
    refine ⟨?_, rfl⟩
    change (pop frame.stack >>= fun popped => _) = _
    rw [top]
    rfl

/-- Calling a method. -/
theorem acts_call {method : Method} {receiver : Slot} {slots : List Slot}
    (top : frame.stack = slots.reverse ++ receiver :: rest) :
    Acts unit name frame memory (.call method slots.length) rest
      (called (invoke memory.cursors method receiver slots) memory) := by
  have start : execute unit name frame memory (.call method slots.length) = (do
      let result ← invoke memory.cursors method receiver slots
      .ok (.proceed (frame.withStack (result.1 :: rest)),
        { memory with cursors := result.2 })) := by
    change (popMany slots.length frame.stack >>= fun parts => _) = _
    simp only [top, popMany_reverse, pop, ok_bind]
  cases outcome : invoke memory.cursors method receiver slots with
  | error error =>
    rw [outcome] at start
    exact ⟨start, rfl⟩
  | ok result =>
    rw [outcome] at start
    exact start

end Instructions

end QueryFusion.Script
