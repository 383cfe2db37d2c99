import QueryFusion.Script.Machine

/-!
# Runs of the stack machine

A run either ends, whatever fuel is left, or lasts as long as the fuel does. Parts of a run compose:
one place is reached from another, an outcome follows from a place, or the fuel ends behind it. Code
that stands in a routine at an index is met there instruction by instruction.
-/

namespace QueryFusion.Script

variable {unit : CompiledUnit} {routine : Routine}

/-- From one frame and memory the run comes to another. -/
def Reaches (unit : CompiledUnit) (routine : Routine) (frame : Frame) (memory : Memory)
    (last : Frame) (changed : Memory) : Prop :=
  ∃ steps, ∀ fuel, runFrom unit routine (fuel + steps) frame memory =
    runFrom unit routine fuel last changed

/-- From a frame and memory the run ends with an outcome. -/
def Halts (unit : CompiledUnit) (routine : Routine) (frame : Frame) (memory : Memory)
    (outcome : Except Error Slot) (changed : Memory) : Prop :=
  ∃ steps, ∀ fuel, runFrom unit routine (fuel + steps) frame memory = some (outcome, changed)

/-- From a frame and memory the run does not end within the fuel. -/
def Endures (unit : CompiledUnit) (routine : Routine) (fuel : Nat) (frame : Frame)
    (memory : Memory) : Prop :=
  runFrom unit routine fuel frame memory = none

/-! ## One instruction -/

/-- A run goes by its next instruction. -/
theorem runFrom_eq {frame : Frame} {op : Op} (fuel : Nat) (memory : Memory)
    (present : routine.ops[frame.counter]? = some op) :
    runFrom unit routine (fuel + 1) frame memory =
      match execute unit routine.name { frame with counter := frame.counter + 1 } memory op with
      | .error error => some (.error error, memory)
      | .ok (.stop slot, next) => some (.ok slot, next)
      | .ok (.proceed frame, next) => runFrom unit routine fuel frame next := by
  rw [runFrom]
  split
  · rename_i missing
    cases present.symm.trans missing
  · rename_i found
    obtain rfl := Option.some.inj (present.symm.trans found)
    rfl

/-- An instruction after which the run goes on. -/
theorem runFrom_proceed {frame next : Frame} {memory changed : Memory} {op : Op} (fuel : Nat)
    (present : routine.ops[frame.counter]? = some op)
    (done : execute unit routine.name { frame with counter := frame.counter + 1 } memory op =
      .ok (.proceed next, changed)) :
    runFrom unit routine (fuel + 1) frame memory = runFrom unit routine fuel next changed := by
  rw [runFrom_eq fuel memory present, done]

/-- An instruction after which the run goes on takes one step. -/
theorem Reaches.step {frame next : Frame} {memory changed : Memory} {op : Op}
    (present : routine.ops[frame.counter]? = some op)
    (done : execute unit routine.name { frame with counter := frame.counter + 1 } memory op =
      .ok (.proceed next, changed)) :
    Reaches unit routine frame memory next changed :=
  ⟨1, fun fuel => runFrom_proceed fuel present done⟩

/-- An instruction that fails ends the run. -/
theorem Halts.error {frame : Frame} {memory : Memory} {op : Op} {error : Error}
    (present : routine.ops[frame.counter]? = some op)
    (failed : execute unit routine.name { frame with counter := frame.counter + 1 } memory op =
      .error error) :
    Halts unit routine frame memory (.error error) memory := by
  refine ⟨1, fun fuel => ?_⟩
  rw [runFrom_eq fuel memory present, failed]

/-- An instruction that ends the routine ends the run. -/
theorem Halts.stop {frame : Frame} {memory changed : Memory} {op : Op} {slot : Slot}
    (present : routine.ops[frame.counter]? = some op)
    (done : execute unit routine.name { frame with counter := frame.counter + 1 } memory op =
      .ok (.stop slot, changed)) :
    Halts unit routine frame memory (.ok slot) changed := by
  refine ⟨1, fun fuel => ?_⟩
  rw [runFrom_eq fuel memory present, done]

/-! ## Composition -/

/-- A run is at its own start. -/
theorem Reaches.refl (frame : Frame) (memory : Memory) :
    Reaches unit routine frame memory frame memory :=
  ⟨0, fun _ => rfl⟩

/-- Parts of a run follow each other. -/
theorem Reaches.trans {first second third : Frame} {before between after : Memory}
    (left : Reaches unit routine first before second between)
    (right : Reaches unit routine second between third after) :
    Reaches unit routine first before third after := by
  obtain ⟨leftSteps, left⟩ := left
  obtain ⟨rightSteps, right⟩ := right
  refine ⟨rightSteps + leftSteps, fun fuel => ?_⟩
  rw [← Nat.add_assoc, left, right]

/-- What follows from a place follows from where it is reached. -/
theorem Reaches.halts {frame last : Frame} {memory changed final : Memory}
    {outcome : Except Error Slot} (part : Reaches unit routine frame memory last changed)
    (ending : Halts unit routine last changed outcome final) :
    Halts unit routine frame memory outcome final := by
  obtain ⟨leftSteps, part⟩ := part
  obtain ⟨rightSteps, ending⟩ := ending
  refine ⟨rightSteps + leftSteps, fun fuel => ?_⟩
  rw [← Nat.add_assoc, part, ending]

/-- One more unit of fuel does not change an outcome. -/
theorem runFrom_succ {fuel : Nat} {frame : Frame} {memory : Memory}
    {result : Except Error Slot × Memory}
    (ended : runFrom unit routine fuel frame memory = some result) :
    runFrom unit routine (fuel + 1) frame memory = some result := by
  induction fuel generalizing frame memory with
  | zero => cases ended
  | succ fuel step =>
    rw [runFrom] at ended ⊢
    split at ended
    · exact ended
    · split at ended
      · exact ended
      · exact ended
      · exact step ended

/-- More fuel does not change an outcome. -/
theorem runFrom_add {fuel : Nat} {frame : Frame} {memory : Memory}
    {result : Except Error Slot × Memory}
    (ended : runFrom unit routine fuel frame memory = some result) (more : Nat) :
    runFrom unit routine (fuel + more) frame memory = some result := by
  induction more with
  | zero => exact ended
  | succ more step => exact runFrom_succ step

/-- More fuel does not change the outcome of a routine. -/
theorem run_add {fuel : Nat} {arguments : List Slot} {memory : Memory}
    {result : Except Error Slot × Memory}
    (ended : run unit routine fuel arguments memory = some result) (more : Nat) :
    run unit routine (fuel + more) arguments memory = some result := by
  unfold run at ended ⊢
  split
  · rename_i wrong
    rwa [if_pos wrong] at ended
  · rename_i right
    rw [if_neg right] at ended
    exact runFrom_add ended more

/-- A run that lasts for some fuel lasts for less. -/
theorem Endures.of_le {fuel less : Nat} {frame : Frame} {memory : Memory}
    (lasting : Endures unit routine fuel frame memory) (bound : less ≤ fuel) :
    Endures unit routine less frame memory := by
  obtain ⟨more, rfl⟩ := Nat.exists_eq_add_of_le bound
  cases ended : runFrom unit routine less frame memory with
  | none => exact ended
  | some result =>
    rw [Endures, runFrom_add ended more] at lasting
    cases lasting

/-- A run that lasts behind a place lasts before it. -/
theorem Reaches.endures {fuel : Nat} {frame last : Frame} {memory changed : Memory}
    (part : Reaches unit routine frame memory last changed)
    (lasting : Endures unit routine fuel last changed) :
    Endures unit routine fuel frame memory := by
  obtain ⟨steps, part⟩ := part
  have later : Endures unit routine (fuel + steps) frame memory := (part fuel).trans lasting
  exact later.of_le (Nat.le_add_right fuel steps)

/-- A step makes a run last for one more unit of fuel. -/
theorem Endures.step {fuel : Nat} {frame next : Frame} {memory changed : Memory} {op : Op}
    (present : routine.ops[frame.counter]? = some op)
    (done : execute unit routine.name { frame with counter := frame.counter + 1 } memory op =
      .ok (.proceed next, changed))
    (lasting : Endures unit routine fuel next changed) :
    Endures unit routine (fuel + 1) frame memory :=
  (runFrom_proceed fuel present done).trans lasting

/-- A routine has at most one outcome. -/
theorem run_unique {fuel steps : Nat} {arguments : List Slot} {memory : Memory}
    {outcome result : Except Error Slot × Memory}
    (ended : ∀ more, run unit routine (more + steps) arguments memory = some outcome)
    (found : run unit routine fuel arguments memory = some result) : result = outcome :=
  Option.some.inj ((run_add found steps).symm.trans (ended fuel))

/-! ## Code in its place -/

/-- The code stands among the instructions, its first instruction at the index. -/
def CodeAt (ops : List Op) (start : Nat) (code : List Op) : Prop :=
  ∀ index op, code[index]? = some op → ops[start + index]? = some op

namespace CodeAt

variable {ops code rest : List Op} {start : Nat} {op : Op}

/-- All of the instructions stand at the start. -/
theorem refl (ops : List Op) : CodeAt ops 0 ops := by
  intro index op present
  rw [Nat.zero_add]
  exact present

/-- The first instruction of the code. -/
theorem head (placed : CodeAt ops start (op :: rest)) : ops[start]? = some op :=
  placed 0 op rfl

/-- The first part of the code. -/
theorem left (placed : CodeAt ops start (code ++ rest)) : CodeAt ops start code := by
  intro index op present
  refine placed index op ?_
  obtain ⟨inside, -⟩ := List.getElem?_eq_some_iff.1 present
  rw [List.getElem?_append_left inside]
  exact present

/-- The second part of the code. -/
theorem right (placed : CodeAt ops start (code ++ rest)) :
    CodeAt ops (start + code.length) rest := by
  intro index op present
  rw [Nat.add_assoc]
  refine placed (code.length + index) op ?_
  rw [List.getElem?_append_right (Nat.le_add_right _ _), Nat.add_sub_cancel_left]
  exact present

end CodeAt

end QueryFusion.Script
