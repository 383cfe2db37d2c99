import QueryFusion.Proofs.Script.Footprint

/-!
# Runs over bound fields

A running routine fails for want of binding in two ways: it reads a field that is not set, or it
takes an executor for one of another kind. A routine that sets no field leaves none unset, and comes
by no executor that it was not given. So where every field is set and no executor is at hand, no run
fails that way, whatever the code is.
-/

namespace QueryFusion.Script

/-- What comes out has the property, or the error is not one of binding. -/
def Avoids {α : Type} (holds : α → Prop) : Except Error α → Prop
  | .ok result => holds result
  | .error error => error.isBinding = false

namespace Avoids

variable {α β : Type} {holds : α → Prop} {after : β → Prop} {outcome : Except Error α}

/-- A sequence avoids binding errors when its parts do. -/
theorem bind {next : α → Except Error β} (head : Avoids holds outcome)
    (tail : ∀ result, holds result → Avoids after (next result)) :
    Avoids after (outcome >>= next) := by
  cases outcome with
  | error error => exact head
  | ok result => exact tail result head

/-- Where the data is to blame, binding is not. -/
theorem of_data (fails : ∀ error, outcome = .error error → error.isData = true) :
    Avoids (fun _ => True) outcome := by
  cases outcome with
  | error error => exact Error.isBinding_of_isData (fails error rfl)
  | ok result => trivial

end Avoids

/-! ## Slots without executors -/

/-- The slot holds no executor. -/
def Slot.IsDetached (slot : Slot) : Prop :=
  ∀ id state, slot ≠ .handle (.executor id state)

/-- Where no object is, no executor is. -/
theorem Slot.IsData.detached {slot : Slot} (data : slot.IsData) : slot.IsDetached :=
  fun _ _ => data _

/-- None of the slots holds an executor. -/
abbrev AreDetached (slots : List Slot) : Prop :=
  ∀ slot ∈ slots, slot.IsDetached

/-- The fields are all set, and none of them holds an executor. -/
abbrev AreBound (fields : List Slot) : Prop :=
  ∀ slot ∈ fields, slot ≠ .unset ∧ slot.IsDetached

section Operands

variable {slot : Slot} {slots stack : List Slot}

/-- A slot on a stack. -/
theorem AreDetached.push (top : slot.IsDetached) (rest : AreDetached stack) :
    AreDetached (slot :: stack) :=
  List.forall_mem_cons.2 ⟨top, rest⟩

/-- A value on a stack. -/
theorem AreDetached.pushValue (rest : AreDetached stack) (content : Value) :
    AreDetached (.value content :: stack) :=
  rest.push nofun

/-- The top of a stack and the rest. -/
theorem pop_avoids (stacked : AreDetached stack) :
    Avoids (fun parts => parts.1.IsDetached ∧ AreDetached parts.2) (pop stack) := by
  cases stack with
  | nil => rfl
  | cons top rest => exact List.forall_mem_cons.1 stacked

/-- What is below the topmost slots of a stack. -/
theorem popMany_avoids (stacked : AreDetached stack) (count : Nat) :
    Avoids (fun parts => AreDetached parts.2) (popMany count stack) := by
  unfold popMany
  split
  · rfl
  · exact fun slot member => stacked slot (List.mem_of_mem_drop member)

/-- A slot that holds no value breaks a rule of the engine. -/
theorem toValue_avoids (slot : Slot) : Avoids (fun _ => True) slot.toValue := by
  cases slot <;> first | rfl | trivial

/-- What is below the value on top of a stack. -/
theorem popValue_avoids (stacked : AreDetached stack) :
    Avoids (fun parts => AreDetached parts.2) (popValue stack) :=
  (pop_avoids stacked).bind fun parts held => (toValue_avoids parts.1).bind fun _ _ => held.2

/-- What is below the truth value on top of a stack. -/
theorem popTruth_avoids (stacked : AreDetached stack) (what : String) :
    Avoids (fun parts => AreDetached parts.2) (popTruth what stack) := by
  refine (popValue_avoids stacked).bind fun parts held => ?_
  obtain ⟨value, rest⟩ := parts
  cases value <;> first | exact held | rfl

/-- The values in slots. -/
theorem valuesOf_avoids (slots : List Slot) : Avoids (fun _ => True) (valuesOf slots) := by
  induction slots with
  | nil => trivial
  | cons slot rest step => exact (toValue_avoids slot).bind fun _ _ => step.bind fun _ _ => trivial

/-- Slots that an operation is not made for are not to be blamed on binding. -/
theorem misapplied_isBinding (slots : List Slot) (what : String) :
    (misapplied slots what).isBinding = false := by
  unfold misapplied
  split <;> rfl

/-- An entry of a table. -/
theorem entryAt_avoids {α : Type} (what : String) (table : List α) (index : Nat) :
    Avoids (· ∈ table) (entryAt what table index) := by
  unfold entryAt
  split
  · exact List.mem_of_getElem? ‹_›
  · rfl

/-- A table with another entry. -/
theorem setEntry_avoids (entries : AreDetached slots) (entry : slot.IsDetached) (what : String)
    (index : Nat) : Avoids AreDetached (setEntry what slots index slot) := by
  refine (entryAt_avoids what slots index).bind fun _ _ other member => ?_
  rcases List.mem_or_eq_of_mem_set member with old | rfl
  · exact entries other old
  · exact entry

/-- A field that is set is read. -/
theorem loadField_avoids (unit : CompiledUnit) {fields : List Slot} (bound : AreBound fields)
    (index : Nat) : Avoids Slot.IsDetached (loadField unit fields index) := by
  refine (entryAt_avoids "field" fields index).bind fun slot member => ?_
  obtain ⟨set, detached⟩ := bound slot member
  cases slot with
  | unset => exact absurd rfl set
  | _ => exact detached

end Operands

/-! ## Operations -/

section Operations

variable {slot : Slot} {stack : List Slot}

/-- Equality of two slots. -/
theorem equal_avoids (left right : Slot) : Avoids (fun _ => True) (left.equal right) := by
  unfold Slot.equal
  split
  · trivial
  · split
    · trivial
    · split
      · split
        · exact .of_data fun _ => Comparison.apply_isData
        · trivial
      · trivial
      · rfl

/-- A cast of a slot that holds no executor. -/
theorem castTarget_avoids (target : CastTarget) (detached : slot.IsDetached) :
    Avoids Slot.IsDetached (target.apply slot) := by
  unfold CastTarget.apply
  split
  · exact (Avoids.of_data fun _ => DataType.convert_isData).bind fun _ _ => nofun
  · exact (Avoids.of_data fun _ => Value.expectClass_isData).bind fun _ _ => nofun
  · split
    · exact nofun
    · rfl
  · exact absurd rfl (detached _ _)
  · exact nofun
  · rfl

/-- The field of an object. -/
theorem readGetter_avoids (field : String) (value : Value) :
    Avoids (fun _ => True) (readGetter field value) := by
  unfold readGetter
  split
  · exact .of_data fun _ => requireField_isData
  · rfl
  · rfl

/-- The order of two values on a stack. -/
theorem orderOnStack_avoids (stacked : AreDetached stack) (comparison : Comparison) :
    Avoids AreDetached (orderOnStack comparison stack) :=
  (popValue_avoids stacked).bind fun _ below => (popValue_avoids below).bind fun _ rest =>
    (Avoids.of_data fun _ => Comparison.apply_isData).bind fun _ _ => rest.pushValue _

/-- Equality of two slots on a stack. -/
theorem equalityOnStack_avoids (stacked : AreDetached stack) (expected : Bool) :
    Avoids AreDetached (equalityOnStack expected stack) :=
  (pop_avoids stacked).bind fun _ below => (pop_avoids below.2).bind fun _ rest =>
    (equal_avoids _ _).bind fun _ _ => rest.2.pushValue _

/-- The integer argument of a method. -/
theorem integerArgument_avoids (what : String) (arguments : List Slot) :
    Avoids (fun _ => True) (integerArgument what arguments) := by
  unfold integerArgument
  split <;> trivial

/-- The slot of a count or an index. -/
theorem integerSlot_avoids (what : String) (number : Nat) :
    Avoids Slot.IsDetached (integerSlot what number) := by
  unfold integerSlot
  split
  · intro id state equal
    cases equal
  · rfl

/-- An item of a list of the engine. -/
theorem listItem_avoids (list : Handle) (index : Int32) :
    Avoids Slot.IsDetached (listItem list index) := by
  have item : ∀ {α : Type} (items : List α), Avoids (fun _ => True) (itemAt items index) :=
    fun items =>
    .of_data fun _ => itemAt_isData
  cases list with
  | paths items | types items | expressions items => exact (item items).bind fun _ _ => nofun
  | indexes items => exact (item items).bind fun _ _ => integerSlot_avoids _ _
  | _ => exact misapplied_isBinding _ _

/-- The size of a list of the engine. -/
theorem listSize_avoids (list : Handle) : Avoids Slot.IsDetached (listSize list) := by
  cases list with
  | paths items | types items | expressions items | indexes items => exact integerSlot_avoids _ _
  | _ => exact misapplied_isBinding _ _

/-- The value of an expression on the row that a method is given. -/
theorem evalArgument_avoids (expression : Expr) (arguments : List Slot) :
    Avoids Slot.IsDetached (evalArgument expression arguments) := by
  unfold evalArgument
  split
  · exact (Avoids.of_data fun _ => Expr.eval_isData _ expression).bind fun _ _ => nofun
  · exact misapplied_isBinding _ _
  · rfl

/-- What a cursor stands on. -/
theorem current_avoids (cursor : Cursor) (part : Entry → Value) :
    Avoids Slot.IsDetached ((cursor.current.map part).map .value) := by
  have found : Avoids (fun _ => True) cursor.current := by
    unfold Cursor.current
    split
    · split
      · split <;> trivial
      · rfl
    · rfl
  cases outcome : cursor.current with
  | error error =>
    rw [outcome] at found
    exact found
  | ok entry => exact nofun

/-- A method of something else than an executor. -/
theorem invoke_avoids (cursors : List Cursor) (method : Method) (arguments : List Slot)
    (detached : slot.IsDetached) :
    Avoids (fun outcome => outcome.1.IsDetached) (invoke cursors method slot arguments) := by
  have unchanged : ∀ {outcome : Except Error Slot}, Avoids Slot.IsDetached outcome →
      Avoids (fun outcome => outcome.1.IsDetached) (outcome >>= fun slot => .ok (slot, cursors)) :=
    fun part => part.bind fun _ held => held
  unfold invoke
  dsimp only
  split
  · rfl
  · split
    · exact absurd rfl (detached _ _)
    · exact absurd rfl (detached _ _)
    · exact absurd rfl (detached _ _)
    · exact absurd rfl (detached _ _)
    · exact (integerArgument_avoids _ _).bind fun _ _ => unchanged (listItem_avoids _ _)
    · exact unchanged (listSize_avoids _)
    · split
      · exact nofun
      · exact misapplied_isBinding _ _
    · split
      · exact unchanged (current_avoids _ _)
      · exact misapplied_isBinding _ _
    · split
      · exact unchanged (current_avoids _ _)
      · exact misapplied_isBinding _ _
    · exact unchanged (evalArgument_avoids _ _)
    · refine (integerArgument_avoids _ _).bind fun index _ => unchanged ?_
      cases outcome : itemAt _ index with
      | error error => exact Error.isBinding_of_isData (itemAt_isData outcome)
      | ok item => exact nofun
    · exact unchanged (integerSlot_avoids _ _)
    · exact misapplied_isBinding _ _

end Operations

/-! ## Instructions -/

/-- The slots of the frame hold no executor. -/
structure Frame.IsDetached (frame : Frame) : Prop where
  locals : AreDetached frame.locals
  stack : AreDetached frame.stack

/-- Where the run goes on, its frame holds no executor. -/
def Signal.IsDetached : Signal → Prop
  | .proceed frame => frame.IsDetached
  | .stop _ => True

section Running

variable {unit : CompiledUnit} {routine : Routine} {frame : Frame} {memory changed : Memory}
  {fuel : Nat} {result : Except Error Slot}

/-- Instructions that change the stack only. -/
theorem onStack_avoids (constants : AreDetached unit.constants) (detached : frame.IsDetached)
    (bound : AreBound memory.fields) (op : Op) :
    Avoids AreDetached (onStack unit frame.locals memory.fields frame.stack op) := by
  have stacked := detached.stack
  cases op with
  | const index =>
    exact (entryAt_avoids _ _ _).bind fun slot member => stacked.push (constants slot member)
  | pushNull | pushTrue | pushFalse => exact stacked.pushValue _
  | loadLocal index =>
    exact (entryAt_avoids _ _ _).bind fun slot member => stacked.push (detached.locals slot member)
  | loadField index =>
    exact (loadField_avoids unit bound index).bind fun _ held => stacked.push held
  | pop => exact (pop_avoids stacked).bind fun _ parts => parts.2
  | arithmetic op =>
    exact (popValue_avoids stacked).bind fun _ below => (popValue_avoids below).bind fun _ rest =>
      (Avoids.of_data fun _ => ArithmeticOp.apply_isData).bind fun _ _ => rest.pushValue _
  | negate =>
    exact (popValue_avoids stacked).bind fun _ rest =>
      (Avoids.of_data fun _ => Value.negate_isData).bind fun _ _ => rest.pushValue _
  | not => exact (popTruth_avoids stacked _).bind fun _ rest => rest.pushValue _
  | equal | notEqual => exact equalityOnStack_avoids stacked _
  | less | lessOrEqual | greater | greaterOrEqual => exact orderOnStack_avoids stacked _
  | cast target =>
    exact (pop_avoids stacked).bind fun _ parts =>
      (castTarget_avoids target parts.1).bind fun _ held => parts.2.push held
  | getter index =>
    exact (entryAt_avoids _ _ _).bind fun _ _ => (popValue_avoids stacked).bind fun _ rest =>
      (readGetter_avoids _ _).bind fun _ _ => rest.pushValue _
  | newRow size =>
    exact (popMany_avoids stacked size).bind fun _ rest =>
      (valuesOf_avoids _).bind fun _ _ => rest.push nofun
  | _ => exact stacked

/-- An instruction over bound fields does not fail for want of binding. -/
theorem execute_avoids (constants : AreDetached unit.constants) (detached : frame.IsDetached)
    (bound : AreBound memory.fields) (name : String) (op : Op) :
    Avoids (fun outcome => outcome.1.IsDetached) (execute unit name frame memory op) := by
  have stacked := detached.stack
  cases op with
  | storeLocal index =>
    exact (pop_avoids stacked).bind fun _ parts =>
      (setEntry_avoids detached.locals parts.1 _ _).bind fun _ locals => ⟨locals, parts.2⟩
  | storeField index =>
    exact (pop_avoids stacked).bind fun _ parts =>
      (setEntry_avoids (fun slot member => (bound slot member).2) parts.1 _ _).bind fun _ _ =>
        ⟨detached.locals, parts.2⟩
  | jumpIfFalse target | jumpIfTrue target =>
    exact (popTruth_avoids stacked _).bind fun _ rest => ⟨detached.locals, rest⟩
  | answer => exact (pop_avoids stacked).bind fun _ _ => trivial
  | finish => trivial
  | missingAnswer => rfl
  | call method count =>
    exact (popMany_avoids stacked count).bind fun _ below => (pop_avoids below).bind fun _ parts =>
      (invoke_avoids _ method _ parts.1).bind fun _ held => ⟨detached.locals, parts.2.push held⟩
  | createCursor =>
    refine (pop_avoids stacked).bind fun first below =>
      (pop_avoids below.2).bind fun second parts => ?_
    obtain ⟨partitions, afterPartitions⟩ := first
    obtain ⟨map, rest⟩ := second
    dsimp only
    split
    · exact ⟨detached.locals, parts.2.push nofun⟩
    · exact misapplied_isBinding _ _
  | addToBatch =>
    refine (pop_avoids stacked).bind fun popped parts => ?_
    obtain ⟨slot, rest⟩ := popped
    cases slot with
    | row row => exact ⟨detached.locals, parts.2.pushValue _⟩
    | _ => exact misapplied_isBinding _ _
  | jump target => exact ⟨detached.locals, stacked⟩
  | clearBatch => exact detached
  | _ =>
    exact (onStack_avoids constants detached bound _).bind fun _ rest => ⟨detached.locals, rest⟩

/-- A routine that sets no field does not fail for want of binding, whichever frame it goes on
from. -/
theorem runFrom_avoids (still : routine.IsStill) (constants : AreDetached unit.constants)
    (detached : frame.IsDetached) (bound : AreBound memory.fields)
    (ended : runFrom unit routine fuel frame memory = some (result, changed)) :
    Avoids (fun _ => True) result := by
  induction fuel generalizing frame memory with
  | zero => cases ended
  | succ fuel step =>
    rw [runFrom] at ended
    cases present : routine.ops[frame.counter]? with
    | none =>
      rw [present] at ended
      cases ended
      rfl
    | some op =>
      simp only [present] at ended
      have one := @execute_avoids unit { frame with counter := frame.counter + 1 } memory constants
        ⟨detached.locals, detached.stack⟩ bound routine.name op
      rcases done : execute unit routine.name { frame with counter := frame.counter + 1 }
        memory op with
        error | ⟨next | slot, between⟩
      · rw [done] at ended one
        cases ended
        exact one
      · rw [done] at ended one
        have kept := (execute_keeps done).fields (still op (List.mem_of_getElem? present))
        exact step one (kept.symm ▸ bound) ended
      · rw [done] at ended
        cases ended
        trivial

/-- A run over bound fields does not fail for want of binding. -/
theorem run_avoids (still : routine.IsStill) (constants : AreDetached unit.constants)
    {arguments : List Slot} (given : AreDetached arguments) (bound : AreBound memory.fields)
    (ended : run unit routine fuel arguments memory = some (result, changed)) :
    Avoids (fun _ => True) result := by
  unfold run at ended
  split at ended
  · cases ended
    rfl
  · refine runFrom_avoids still constants ⟨?_, List.forall_mem_nil _⟩ bound ended
    refine List.forall_mem_append.2 ⟨given, fun slot member => ?_⟩
    rw [List.eq_of_mem_replicate member]
    exact nofun

end Running

end QueryFusion.Script
