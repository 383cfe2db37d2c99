import QueryFusion.Proofs.Outcome
import QueryFusion.Script.Machine

/-!
# Cursors under other numbers

Slots name the cursors of an instance by number. With other cursors in front the numbers are higher,
and nothing else about a run changes: it comes to the same outcome after the same number of steps,
and leaves the cursors in front alone.
-/

namespace QueryFusion.Script

/-! ## Slots -/

namespace Slot

/-- The slot with so many cursors more in front. -/
def shift (count : Nat) : Slot → Slot
  | handle (.cursor number) => handle (.cursor (number + count))
  | other => other

/-- The slot names no cursor. -/
def IsPlain (slot : Slot) : Prop :=
  ∀ count, slot.shift count = slot

variable {count : Nat} {slot : Slot}

/-- Only a slot that names a cursor has another one for it. -/
theorem shift_eq_self (other : ∀ number, slot ≠ handle (.cursor number)) :
    slot.shift count = slot := by
  unfold shift
  split
  · exact absurd rfl (other _)
  · rfl

/-- A slot either names a cursor, or it is the same under all numbers. -/
theorem plain_or_cursor (slot : Slot) :
    slot.IsPlain ∨ ∃ number, slot = handle (.cursor number) := by
  cases slot with
  | handle object =>
    cases object with
    | cursor number => exact .inr ⟨number, rfl⟩
    | _ => exact .inl fun _ => rfl
  | _ => exact .inl fun _ => rfl

/-- A slot that is the same under all numbers names no cursor. -/
theorem not_plain_cursor (plain : slot.IsPlain) (number : Nat) :
    slot ≠ handle (.cursor number) := by
  rintro rfl
  have same := plain 1
  simp [shift] at same

/-- Values name no cursor. -/
@[simp] theorem shift_value (content : Value) : (value content).shift count = value content :=
  rfl

/-- Truth values name no cursor. -/
@[simp] theorem shift_truth (truth : Bool) : (Slot.truth truth).shift count = .truth truth :=
  rfl

/-- A slot keeps its kind. -/
@[simp] theorem kindName_shift (slot : Slot) : (slot.shift count).kindName = slot.kindName := by
  unfold shift
  split <;> rfl

/-- Null stays null. -/
@[simp] theorem isNull_shift (slot : Slot) : (slot.shift count).isNull = slot.isNull := by
  unfold shift
  split <;> rfl

/-- A slot keeps its value. -/
@[simp] theorem toValue_shift (slot : Slot) : (slot.shift count).toValue = slot.toValue := by
  unfold shift
  split <;> rfl

end Slot

/-- Slots that name no cursor. -/
theorem map_shift_of_plain {slots : List Slot} (plain : ∀ slot ∈ slots, slot.IsPlain)
    (count : Nat) :
    slots.map (Slot.shift count) = slots := by
  rw [List.map_congr_left fun slot member => plain slot member count]
  exact List.map_id' slots

/-! ## Operands -/

section Operands

variable {count : Nat} {slots stack : List Slot}

/-- The errors of misapplied operations do not depend on numbers. -/
theorem misapplied_shift (slots : List Slot) (what : String) :
    misapplied (slots.map (Slot.shift count)) what = misapplied slots what := by
  have null : (slots.map (Slot.shift count)).any Slot.isNull = slots.any Slot.isNull := by
    simp [List.any_map, Function.comp_def]
  simp only [misapplied, null, List.map_map, Function.comp_def, Slot.kindName_shift]

/-- The top of a stack. -/
theorem pop_shift (stack : List Slot) :
    pop (stack.map (Slot.shift count)) =
      (pop stack).map fun parts => (parts.1.shift count, parts.2.map (Slot.shift count)) := by
  cases stack <;> rfl

/-- The topmost slots. -/
theorem popMany_shift (size : Nat) (stack : List Slot) :
    popMany size (stack.map (Slot.shift count)) = (popMany size stack).map fun parts =>
      (parts.1.map (Slot.shift count), parts.2.map (Slot.shift count)) := by
  unfold popMany
  rw [List.length_map]
  split
  · rfl
  · simp [Except.map, List.map_reverse, List.map_take, List.map_drop]

/-- The value on top of a stack. -/
theorem popValue_shift (stack : List Slot) :
    popValue (stack.map (Slot.shift count)) =
      (popValue stack).map fun parts => (parts.1, parts.2.map (Slot.shift count)) := by
  cases stack with
  | nil => rfl
  | cons top rest =>
    simp only [popValue, List.map_cons, pop, ok_bind, Slot.toValue_shift]
    cases top.toValue <;> rfl

/-- The truth value on top of a stack. -/
theorem popTruth_shift (what : String) (stack : List Slot) :
    popTruth what (stack.map (Slot.shift count)) =
      (popTruth what stack).map fun parts => (parts.1, parts.2.map (Slot.shift count)) := by
  unfold popTruth
  rw [popValue_shift]
  cases popValue stack with
  | error error => rfl
  | ok parts =>
    obtain ⟨value, rest⟩ := parts
    cases value <;> rfl

/-- The values in slots. -/
theorem valuesOf_shift (slots : List Slot) :
    valuesOf (slots.map (Slot.shift count)) = valuesOf slots := by
  induction slots with
  | nil => rfl
  | cons slot rest step => rw [List.map_cons, valuesOf, valuesOf, Slot.toValue_shift, step]

/-- An entry of a table. -/
theorem entryAt_shift (what : String) (table : List Slot) (index : Nat) :
    entryAt what (table.map (Slot.shift count)) index =
      (entryAt what table index).map (Slot.shift count) := by
  unfold entryAt
  rw [List.getElem?_map]
  cases table[index]? <;> rfl

/-- A table with another entry. -/
theorem setEntry_shift (what : String) (table : List Slot) (index : Nat) (slot : Slot) :
    setEntry what (table.map (Slot.shift count)) index (slot.shift count) =
      (setEntry what table index slot).map fun slots => slots.map (Slot.shift count) := by
  unfold setEntry
  rw [entryAt_shift]
  cases entryAt what table index with
  | error error => rfl
  | ok entry => exact congrArg Except.ok List.map_set.symm

/-- Two slots are equal under all numbers or under none. -/
theorem equal_shift (left right : Slot) :
    (left.shift count).equal (right.shift count) = left.equal right := by
  rcases Slot.plain_or_cursor left with same | ⟨number, rfl⟩ <;>
    rcases Slot.plain_or_cursor right with other | ⟨second, rfl⟩
  · rw [same, other]
  · rw [same]
    cases left <;> rfl
  · rw [other]
    cases right <;> rfl
  · rfl

/-- A cast does not depend on numbers. -/
theorem castTarget_shift (target : CastTarget) (slot : Slot) :
    target.apply (slot.shift count) = (target.apply slot).map (Slot.shift count) := by
  cases target with
  | scalar type =>
    cases slot with
    | value value =>
      simp only [Slot.shift_value, CastTarget.apply]
      cases type.convert value <;> rfl
    | handle object => cases object <;> rfl
    | _ => rfl
  | object className =>
    cases slot with
    | value value =>
      cases className with
      | none =>
        show (if value.isNull || value.asObject?.isSome then _ else _) = Except.map
          _ (if _ then _ else _)
        split <;> rfl
      | some name =>
        simp only [Slot.shift_value, CastTarget.apply]
        cases value.expectClass name <;> rfl
    | handle object => cases className <;> cases object <;> rfl
    | _ => cases className <;> rfl
  | executor kind =>
    cases slot with
    | value value => cases value <;> rfl
    | handle object =>
      cases object with
      | executor id state =>
        show (if state.kindName = kind.name then _ else _) = Except.map _ (if _ then _ else _)
        split <;> rfl
      | _ => rfl
    | _ => rfl

end Operands

/-! ## Calls -/

section Calls

variable {count : Nat}

/-- What a method reads from a scan names no cursor. -/
theorem scanPart?_plain {scan : ScanState} {method : Method} {slot : Slot}
    (found : scanPart? scan method = some slot) : slot.IsPlain := by
  unfold scanPart? at found
  split at found
  all_goals try split at found
  all_goals cases found
  all_goals exact fun _ => rfl

/-- The integer of a count names no cursor. -/
theorem integerSlot_plain (what : String) (number : Nat) :
    (integerSlot what number).map (Slot.shift count) = integerSlot what number := by
  unfold integerSlot
  split <;> rfl

/-- An item of a list names no cursor. -/
theorem listItem_plain (list : Handle) (index : Int32) :
    (listItem list index).map (Slot.shift count) = listItem list index := by
  unfold listItem
  split
  case h_3 items =>
    cases itemAt items index with
    | error error => rfl
    | ok item => exact integerSlot_plain _ _
  case h_5 => rfl
  all_goals
    rename_i items
    cases itemAt items index <;> rfl

/-- The size of a list names no cursor. -/
theorem listSize_plain (list : Handle) :
    (listSize list).map (Slot.shift count) = listSize list := by
  unfold listSize
  split
  case h_5 => rfl
  all_goals exact integerSlot_plain _ _

/-- The first argument is the same integer. -/
theorem integerArgument_shift (what : String) (arguments : List Slot) :
    integerArgument what (arguments.map (Slot.shift count)) = integerArgument what arguments := by
  cases arguments with
  | nil => rfl
  | cons slot rest =>
    cases slot with
    | handle object => cases object <;> rfl
    | value value => cases value <;> rfl
    | _ => rfl

/-- An expression has the same value, which names no cursor. -/
theorem evalArgument_shift (expression : Expr) (arguments : List Slot) :
    evalArgument expression (arguments.map (Slot.shift count)) = evalArgument expression arguments ∧
      (evalArgument expression arguments).map (Slot.shift count) =
        evalArgument expression arguments := by
  cases arguments with
  | nil => exact ⟨rfl, rfl⟩
  | cons slot rest =>
    cases slot with
    | row row =>
      refine ⟨rfl, ?_⟩
      simp only [evalArgument]
      cases expression.eval row <;> rfl
    | handle object => cases object <;> exact ⟨rfl, rfl⟩
    | _ => exact ⟨rfl, rfl⟩

/-- Values name no cursor. -/
theorem values_plain (outcome : Except Error Value) :
    (outcome.map Slot.value).map (Slot.shift count) = outcome.map Slot.value := by
  cases outcome <;> rfl

/-- A call that leaves the cursors alone. -/
theorem unmoved_shift (before cursors : List Cursor) {outcome : Except Error Slot}
    (plain : outcome.map (Slot.shift before.length) = outcome) :
    (do let slot ← outcome
        Except.ok (slot, before ++ cursors)) =
      Except.map (fun result => (result.1.shift before.length, before ++ result.2)) (do
        let slot ← outcome
        Except.ok (slot, cursors)) := by
  cases outcome with
  | error error => rfl
  | ok slot =>
    have same : slot.shift before.length = slot := Except.ok.inj plain
    exact congrArg (fun slot => Except.ok (slot, before ++ cursors)) same.symm

/-- A call comes to the same, and moves the same cursor. -/
theorem invoke_shift (before cursors : List Cursor) (method : Method) (receiver : Slot)
    (arguments : List Slot) :
    invoke (before ++ cursors) method (receiver.shift before.length)
        (arguments.map (Slot.shift before.length)) =
      (invoke cursors method receiver arguments).map fun result =>
        (result.1.shift before.length, before ++ result.2) := by
  rcases Slot.plain_or_cursor receiver with plain | ⟨number, rfl⟩
  · rw [plain]
    unfold invoke
    simp only
    split
    · rfl
    split
    case h_4 scan _ _ =>
      cases found : scanPart? scan method with
      | none => rfl
      | some slot =>
        exact unmoved_shift before cursors (congrArg Except.ok (scanPart?_plain found _))
    case h_5 list _ _ =>
      rw [integerArgument_shift]
      cases integerArgument Method.listGet.name arguments with
      | error error => rfl
      | ok index => exact unmoved_shift before cursors (listItem_plain list index)
    case h_6 list _ _ => exact unmoved_shift before cursors (listSize_plain list)
    case h_7 number _ | h_8 number _ | h_9 number _ =>
      exact absurd rfl (Slot.not_plain_cursor plain number)
    case h_10 expression _ =>
      rw [(evalArgument_shift expression arguments).1]
      exact unmoved_shift before cursors (evalArgument_shift expression arguments).2
    case h_11 row _ =>
      rw [integerArgument_shift]
      cases integerArgument Method.rowGet.name arguments with
      | error error => rfl
      | ok index => exact unmoved_shift before cursors (values_plain (itemAt row index))
    case h_12 row _ => exact unmoved_shift before cursors (integerSlot_plain "size" row.length)
    all_goals rfl
  · have place : (before ++ cursors)[number + before.length]? = cursors[number]? := by
      rw [List.getElem?_append_right (Nat.le_add_left _ _), Nat.add_sub_cancel]
    have moved : ∀ cursor, (before ++ cursors).set (number + before.length) cursor =
        before ++ cursors.set number cursor := by
      intro cursor
      rw [List.set_append_right _ _ (Nat.le_add_left _ _), Nat.add_sub_cancel]
    have named : (Slot.handle (.cursor number)).shift before.length =
      .handle (.cursor (number + before.length)) := rfl
    rw [named]
    have refused : misapplied [.handle (.cursor (number + before.length))] method.name =
      misapplied [.handle (.cursor number)] method.name := rfl
    simp only [invoke, Slot.isNull, Bool.false_eq_true, if_false, refused]
    cases method
    case cursorAdvance =>
      dsimp only
      rw [place]
      cases cursors[number]? with
      | none => rfl
      | some cursor =>
        exact congrArg Except.ok (congrArg (Slot.truth cursor.advance.1, ·) (moved _))
    case cursorKey =>
      dsimp only
      rw [place]
      cases cursors[number]? with
      | none => rfl
      | some cursor => exact unmoved_shift before cursors (values_plain cursor.key)
    case cursorValue =>
      dsimp only
      rw [place]
      cases cursors[number]? with
      | none => rfl
      | some cursor => exact unmoved_shift before cursors (values_plain cursor.value)
    case listGet =>
      dsimp only
      rw [integerArgument_shift]
      cases integerArgument Method.listGet.name arguments <;> rfl
    all_goals rfl

end Calls

/-! ## Runs -/

/-- The memory with other cursors in front. -/
def Memory.shift (before : List Cursor) (memory : Memory) : Memory :=
  ⟨memory.fields.map (Slot.shift before.length), memory.batch, before ++ memory.cursors⟩

/-- The frame with so many cursors more in front. -/
def Frame.shift (count : Nat) (frame : Frame) : Frame :=
  ⟨frame.counter, frame.locals.map (Slot.shift count), frame.stack.map (Slot.shift count)⟩

/-- What follows, with so many cursors more in front. -/
def Signal.shift (count : Nat) : Signal → Signal
  | proceed frame => proceed (frame.shift count)
  | stop result => stop (result.shift count)

section Runs

variable {unit : CompiledUnit} {count : Nat}

/-- A field that is set is read, and one that is not set is refused. -/
theorem loadField_shift (fields : List Slot) (index : Nat) :
    loadField unit (fields.map (Slot.shift count)) index =
      (loadField unit fields index).map (Slot.shift count) := by
  unfold loadField
  rw [entryAt_shift]
  cases entryAt "field" fields index with
  | error error => rfl
  | ok slot =>
    cases slot with
    | handle object => cases object <;> rfl
    | _ => rfl

/-- Comparing by order. -/
theorem orderOnStack_shift (comparison : Comparison) (stack : List Slot) :
    orderOnStack comparison (stack.map (Slot.shift count)) =
      (orderOnStack comparison stack).map fun rest => rest.map (Slot.shift count) := by
  unfold orderOnStack
  rw [popValue_shift]
  cases popValue stack with
  | error error => rfl
  | ok first =>
    show (popValue (first.2.map (Slot.shift count)) >>= _) = _
    rw [popValue_shift]
    simp only [ok_bind]
    cases popValue first.2 with
    | error error => rfl
    | ok second =>
      show (comparison.apply second.1 first.1 >>= _) = Except.map
        _ (comparison.apply second.1 first.1 >>= _)
      cases comparison.apply second.1 first.1 <;> rfl

/-- Comparing for equality. -/
theorem equalityOnStack_shift (expected : Bool) (stack : List Slot) :
    equalityOnStack expected (stack.map (Slot.shift count)) =
      (equalityOnStack expected stack).map fun rest => rest.map (Slot.shift count) := by
  rcases stack with _ | ⟨right, _ | ⟨left, rest⟩⟩
  · rfl
  · rfl
  · show ((left.shift count).equal (right.shift count) >>= _) = Except.map
      _ (left.equal right >>= _)
    rw [equal_shift]
    cases left.equal right <;> rfl

/-- An instruction on the stack. -/
theorem onStack_shift (plain : ∀ constant ∈ unit.constants, constant.IsPlain)
    (locals fields stack : List Slot) (op : Op) :
    onStack unit (locals.map (Slot.shift count)) (fields.map (Slot.shift count))
        (stack.map (Slot.shift count)) op =
      (onStack unit locals fields stack op).map fun rest => rest.map (Slot.shift count) := by
  cases op with
  | const index =>
    have same := @entryAt_shift count "constant" unit.constants index
    rw [map_shift_of_plain plain] at same
    simp only [onStack]
    cases found : entryAt "constant" unit.constants index with
    | error error => rfl
    | ok constant =>
      rw [found] at same
      exact congrArg (fun slot => Except.ok (slot :: stack.map (Slot.shift count)))
        (Except.ok.inj same)
  | loadLocal index =>
    simp only [onStack, entryAt_shift]
    cases entryAt "local" locals index <;> rfl
  | loadField index =>
    simp only [onStack, loadField_shift]
    cases loadField unit fields index <;> rfl
  | pop =>
    simp only [onStack, pop_shift]
    cases pop stack <;> rfl
  | arithmetic operator =>
    simp only [onStack, popValue_shift]
    cases popValue stack with
    | error error => rfl
    | ok first =>
      show (popValue (first.2.map (Slot.shift count)) >>= _) = _
      rw [popValue_shift]
      simp only [ok_bind]
      cases popValue first.2 with
      | error error => rfl
      | ok second =>
        show (operator.apply second.1 first.1 >>= _) = Except.map
          _ (operator.apply second.1 first.1 >>= _)
        cases operator.apply second.1 first.1 <;> rfl
  | negate =>
    simp only [onStack, popValue_shift]
    cases popValue stack with
    | error error => rfl
    | ok operand =>
      show (operand.1.negate >>= _) = Except.map _ (operand.1.negate >>= _)
      cases operand.1.negate <;> rfl
  | not =>
    simp only [onStack, popTruth_shift]
    cases popTruth "operator !" stack <;> rfl
  | equal | notEqual => exact equalityOnStack_shift _ stack
  | less | lessOrEqual | greater | greaterOrEqual => exact orderOnStack_shift _ stack
  | cast target =>
    simp only [onStack, pop_shift]
    cases pop stack with
    | error error => rfl
    | ok operand =>
      show (target.apply (operand.1.shift count) >>= _) = Except.map
        _ (target.apply operand.1 >>= _)
      rw [castTarget_shift]
      cases target.apply operand.1 <;> rfl
  | getter index =>
    simp only [onStack, popValue_shift]
    cases entryAt "name" unit.names index with
    | error error => rfl
    | ok field =>
      cases popValue stack with
      | error error => rfl
      | ok target =>
        show (readGetter field target.1 >>= _) = Except.map _ (readGetter field target.1 >>= _)
        cases readGetter field target.1 <;> rfl
  | newRow size =>
    simp only [onStack, popMany_shift]
    cases popMany size stack with
    | error error => rfl
    | ok parts =>
      show (valuesOf (parts.1.map (Slot.shift count)) >>= _) = Except.map _ (valuesOf parts.1 >>= _)
      rw [valuesOf_shift]
      cases valuesOf parts.1 <;> rfl
  | _ => rfl

/-- An instruction that only works on the stack. -/
theorem execute_onStack_shift (plain : ∀ constant ∈ unit.constants, constant.IsPlain)
    {routineName : String} {before : List Cursor} {frame : Frame} {memory : Memory} {op : Op}
    (stacked : ∀ frame memory, execute unit routineName frame memory op = (do
      let stack ← onStack unit frame.locals memory.fields frame.stack op
      .ok (.proceed (frame.withStack stack), memory))) :
    execute unit routineName (frame.shift before.length) (memory.shift before) op =
      (execute unit routineName frame memory op).map fun result =>
        (result.1.shift before.length, result.2.shift before) := by
  have moved := @onStack_shift unit before.length plain frame.locals memory.fields frame.stack op
  rw [stacked, stacked]
  show (onStack unit (frame.locals.map _) (memory.fields.map _) (frame.stack.map _) op >>= _) = _
  rw [moved]
  cases onStack unit frame.locals memory.fields frame.stack op <;> rfl

/-- An instruction. -/
theorem execute_shift (plain : ∀ constant ∈ unit.constants, constant.IsPlain) (routineName : String)
    (before : List Cursor) (frame : Frame) (memory : Memory) (op : Op) :
    execute unit routineName (frame.shift before.length) (memory.shift before) op =
      (execute unit routineName frame memory op).map fun result =>
        (result.1.shift before.length, result.2.shift before) := by
  cases op with
  | storeLocal index =>
    simp only [execute, Frame.shift, pop_shift]
    cases pop frame.stack with
    | error error => rfl
    | ok parts =>
      show (setEntry "local" _ index (parts.1.shift before.length) >>= _) =
        Except.map _ (setEntry "local" frame.locals index parts.1 >>= _)
      rw [setEntry_shift]
      cases setEntry "local" frame.locals index parts.1 <;> rfl
  | storeField index =>
    simp only [execute, Frame.shift, Memory.shift, pop_shift]
    cases pop frame.stack with
    | error error => rfl
    | ok parts =>
      show (setEntry "field" _ index (parts.1.shift before.length) >>= _) =
        Except.map _ (setEntry "field" memory.fields index parts.1 >>= _)
      rw [setEntry_shift]
      cases setEntry "field" memory.fields index parts.1 <;> rfl
  | jumpIfFalse target | jumpIfTrue target =>
    simp only [execute, Frame.shift, popTruth_shift]
    cases popTruth "condition" frame.stack with
    | error error => rfl
    | ok parts =>
      obtain ⟨truth, rest⟩ := parts
      cases truth <;> rfl
  | answer =>
    simp only [execute, Frame.shift, pop_shift]
    cases pop frame.stack <;> rfl
  | call method size =>
    simp only [execute, Frame.shift, Memory.shift, popMany_shift]
    cases popMany size frame.stack with
    | error error => rfl
    | ok parts =>
      show (pop (parts.2.map (Slot.shift before.length)) >>= _) = Except.map _ (pop parts.2 >>= _)
      rw [pop_shift]
      cases pop parts.2 with
      | error error => rfl
      | ok receiver =>
        show (invoke (before ++ memory.cursors) method (receiver.1.shift before.length)
          (parts.1.map (Slot.shift before.length)) >>= _) =
            Except.map _ (invoke memory.cursors method receiver.1 parts.1 >>= _)
        rw [invoke_shift]
        cases invoke memory.cursors method receiver.1 parts.1 <;> rfl
  | createCursor =>
    obtain ⟨counter, locals, stack⟩ := frame
    rcases stack with _ | ⟨partitions, _ | ⟨map, rest⟩⟩
    · rfl
    · rfl
    have refused := @misapplied_shift before.length [map, partitions] "MapScanUtils.createIterator"
    simp only [execute, Frame.shift, Memory.shift, List.map_cons, pop, ok_bind]
    rcases Slot.plain_or_cursor map with same | ⟨number, rfl⟩
    · rcases Slot.plain_or_cursor partitions with other | ⟨number, rfl⟩
      · rw [same, other]
        split
        · rw [List.length_append, Nat.add_comm, List.append_assoc]
          rfl
        · rfl
      · cases map with
        | handle object => cases object <;> exact congrArg Except.error refused
        | _ => exact congrArg Except.error refused
    · exact congrArg Except.error refused
  | addToBatch =>
    simp only [execute, Frame.shift, Memory.shift, pop_shift]
    cases pop frame.stack with
    | error error => rfl
    | ok parts =>
      obtain ⟨slot, rest⟩ := parts
      cases slot with
      | handle object => cases object <;> rfl
      | _ => rfl
  | jump | finish | missingAnswer | clearBatch => rfl
  | _ => exact execute_onStack_shift plain fun _ _ => rfl

/-- Instructions one after another. -/
theorem runFrom_shift (plain : ∀ constant ∈ unit.constants, constant.IsPlain) (routine : Routine)
    (fuel : Nat) (before : List Cursor) (frame : Frame) (memory : Memory) :
    runFrom unit routine fuel (frame.shift before.length) (memory.shift before) =
      (runFrom unit routine fuel frame memory).map fun outcome =>
        (outcome.1.map (Slot.shift before.length), outcome.2.shift before) := by
  induction fuel generalizing frame memory with
  | zero => rfl
  | succ fuel step =>
    have place : (frame.shift before.length).counter = frame.counter := rfl
    rw [runFrom, runFrom, place]
    cases routine.ops[frame.counter]? with
    | none => rfl
    | some op =>
      have moved := execute_shift plain routine.name before
        { frame with counter := frame.counter + 1 } memory op
      simp only [Frame.shift] at moved ⊢
      rw [moved]
      rcases execute unit routine.name { frame with counter := frame.counter + 1 } memory op with
        error | ⟨next | result, changed⟩
      · rfl
      · exact step next changed
      · rfl

/-- A run comes to the same outcome under all numbers. -/
theorem run_shift (plain : ∀ constant ∈ unit.constants, constant.IsPlain) (routine : Routine)
    (fuel : Nat) (before : List Cursor) (arguments : List Slot) (memory : Memory) :
    run unit routine fuel (arguments.map (Slot.shift before.length)) (memory.shift before) =
      (run unit routine fuel arguments memory).map fun outcome =>
        (outcome.1.map (Slot.shift before.length), outcome.2.shift before) := by
  unfold run
  rw [List.length_map]
  split
  · rfl
  · have locals : ∀ more, arguments.map (Slot.shift before.length) ++
      List.replicate more Slot.unset =
        (arguments ++ List.replicate more Slot.unset).map (Slot.shift before.length) := by
      intro more
      rw [List.map_append, List.map_replicate]
      rfl
    dsimp only
    rw [locals]
    exact runFrom_shift plain routine fuel before ⟨0, _, []⟩ memory

end Runs

end QueryFusion.Script
