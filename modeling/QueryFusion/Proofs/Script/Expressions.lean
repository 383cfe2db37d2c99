import QueryFusion.Proofs.Script.Computation

/-!
# Expressions and their code

The code of every accepted expression realizes its meaning.
-/

namespace QueryFusion.Script

variable {unit : CompiledUnit} {locals : Locals} {start : Nat}

/-- The code, placed at the index, leaves the slot of the meaning on the stack. -/
structure Realizes (unit : CompiledUnit) (locals : Locals) (start : Nat) (ops : List Op) (type : Ty)
    (meaning : Env → Effect Slot) : Prop where
  computes : ∀ {routine : Routine} {slots stack : List Slot} {memory : Memory} {env : Env},
    CodeAt routine.ops start ops → Mirrors locals slots memory.cursors.length env →
      memory.Fits unit.fields →
        Computes unit routine ⟨start, slots, stack⟩ memory
          (fun slot => ⟨start + ops.length, slots, slot :: stack⟩)
          (fun cursorCount slot => slot.Fits cursorCount type) (meaning env memory)

/-- The code, placed at the index, leaves the slots of the meaning on the stack, the last one on
top. -/
structure RealizesAll (unit : CompiledUnit) (locals : Locals) (start : Nat) (ops : List Op)
    (types : List Ty) (meaning : Env → Effect (List Slot)) : Prop where
  computes : ∀ {routine : Routine} {slots stack : List Slot} {memory : Memory} {env : Env},
    CodeAt routine.ops start ops → Mirrors locals slots memory.cursors.length env →
      memory.Fits unit.fields →
        Computes unit routine ⟨start, slots, stack⟩ memory
          (fun results => ⟨start + ops.length, slots, results.reverse ++ stack⟩)
          (fun cursorCount results => List.Forall₂ (Slot.Fits cursorCount) results types)
          (meaning env memory)

/-! ## One instruction -/

/-- An expression with one instruction. -/
theorem Realizes.single {op : Op} {type : Ty} {meaning : Env → Effect Slot}
    (acts : ∀ {name : String} {frame : Frame} {memory : Memory} {env : Env},
      Mirrors locals frame.locals memory.cursors.length env → memory.Fits unit.fields →
        Acts unit name frame memory op frame.stack (meaning env memory))
    (sound : ∀ {slots : List Slot} {memory : Memory} {env : Env},
      Mirrors locals slots memory.cursors.length env → memory.Fits unit.fields →
        SoundEffect unit.fields memory type (meaning env memory)) :
    Realizes unit locals start [op] type meaning := by
  refine ⟨@fun routine slots stack memory env code mirrors fits => ?_⟩
  exact .op code.head (acts mirrors fits) fits (sound mirrors fits)

/-- An instruction behind the code of its operand. -/
theorem Realizes.followed {ops : List Op} {op : Op} {source type : Ty}
    {meaning : Env → Effect Slot} {result : Slot → Effect Slot}
    (part : Realizes unit locals start ops source meaning)
    (acts : ∀ {name : String} {frame : Frame} {memory : Memory} {slot : Slot} {rest : List Slot},
      slot.Fits memory.cursors.length source → frame.stack = slot :: rest →
        Acts unit name frame memory op rest (result slot memory))
    (sound : ∀ {memory : Memory} {slot : Slot}, memory.Fits unit.fields →
      slot.Fits memory.cursors.length source →
        SoundEffect unit.fields memory type (result slot memory)) :
    Realizes unit locals start (ops ++ [op]) type
      (fun env => do
        let slot ← meaning env
        result slot) := by
  refine ⟨@fun routine slots stack memory env code mirrors fits => ?_⟩
  rw [List.length_append, List.length_singleton, ← Nat.add_assoc]
  refine (part.computes code.left mirrors fits).bind fun slot changed follows typed => ?_
  exact .op code.right.head (acts typed rfl) follows.fits (sound follows.fits typed)

/-- An instruction behind the code of its operands. -/
theorem RealizesAll.followed {ops : List Op} {op : Op} {types : List Ty} {type : Ty}
    {meaning : Env → Effect (List Slot)} {result : List Slot → Effect Slot}
    (parts : RealizesAll unit locals start ops types meaning)
    (acts : ∀ {name : String} {frame : Frame} {memory : Memory} {slots rest : List Slot},
      List.Forall₂ (Slot.Fits memory.cursors.length) slots types →
        frame.stack = slots.reverse ++ rest →
          Acts unit name frame memory op rest (result slots memory))
    (sound : ∀ {memory : Memory} {slots : List Slot}, memory.Fits unit.fields →
      List.Forall₂ (Slot.Fits memory.cursors.length) slots types →
        SoundEffect unit.fields memory type (result slots memory)) :
    Realizes unit locals start (ops ++ [op]) type
      (fun env => do
        let slots ← meaning env
        result slots) := by
  refine ⟨@fun routine slots stack memory env code mirrors fits => ?_⟩
  rw [List.length_append, List.length_singleton, ← Nat.add_assoc]
  refine (parts.computes code.left mirrors fits).bind fun slots changed follows typed => ?_
  exact .op code.right.head (acts typed rfl) follows.fits (sound follows.fits typed)

/-- An instruction behind the code of its two operands. -/
theorem Realizes.combined {ops more : List Op} {op : Op} {leftType rightType type : Ty}
    {meaning other : Env → Effect Slot} {outcome : Slot → Slot → Except Error Slot}
    (left : Realizes unit locals start ops leftType meaning)
    (right : Realizes unit locals (start + ops.length) more rightType other)
    (acts : ∀ {name : String} {frame : Frame} {memory : Memory} {first second : Slot}
      {rest : List Slot}, frame.stack = second :: first :: rest →
        Acts unit name frame memory op rest (outcome first second, memory))
    (sound : ∀ {cursorCount : Nat} {first second : Slot}, first.Fits cursorCount leftType →
      second.Fits cursorCount rightType → Sound cursorCount type (outcome first second)) :
    Realizes unit locals start (ops ++ more ++ [op]) type
      (fun env => do
        let first ← meaning env
        let second ← other env
        .ofExcept (outcome first second)) := by
  refine ⟨@fun routine slots stack memory env code mirrors fits => ?_⟩
  rw [List.length_append, List.length_append, List.length_singleton, ← Nat.add_assoc,
    ← Nat.add_assoc]
  have opCode := code.right.head
  rw [List.length_append, ← Nat.add_assoc] at opCode
  refine (left.computes code.left.left mirrors fits).bind fun first changed follows typed => ?_
  refine (right.computes code.left.right (mirrors.mono follows.more) follows.fits).bind
    fun second next further alsoTyped => ?_
  exact .op opCode (acts rfl) further.fits
    (.unchanged further.fits (sound (typed.mono further.more) alsoTyped))

/-- No code for no expressions. -/
theorem RealizesAll.nil : RealizesAll unit locals start [] [] (fun _ => pure []) := by
  refine ⟨@fun routine slots stack memory env code mirrors fits => ?_⟩
  exact ⟨.refl _ _, fits.follows, .nil⟩

/-- The code of an expression before that of others. -/
theorem RealizesAll.cons {first ops : List Op} {type : Ty} {types : List Ty}
    {meaning : Env → Effect Slot} {meanings : Env → Effect (List Slot)}
    (head : Realizes unit locals start first type meaning)
    (tail : RealizesAll unit locals (start + first.length) ops types meanings) :
    RealizesAll unit locals start (first ++ ops) (type :: types)
      (fun env => do
        let slot ← meaning env
        let slots ← meanings env
        pure (slot :: slots)) := by
  refine ⟨@fun routine slots stack memory env code mirrors fits => ?_⟩
  rw [List.length_append, ← Nat.add_assoc]
  refine (head.computes code.left mirrors fits).bind fun slot changed follows typed => ?_
  refine (tail.computes code.right (mirrors.mono follows.more) follows.fits).bind
    fun results next further allTyped => ?_
  refine ⟨?_, further.fits.follows, .cons (typed.mono further.more) allTyped⟩
  simp only [List.reverse_cons, List.append_assoc, List.singleton_append]
  exact .refl _ _

/-! ## Jumps -/

/-- A jump. -/
theorem Reaches.jump {routine : Routine} {counter target : Nat} {slots stack : List Slot}
    (present : routine.ops[counter]? = some (.jump target)) (memory : Memory) :
    Reaches unit routine ⟨counter, slots, stack⟩ memory ⟨target, slots, stack⟩ memory :=
  .step present rfl

/-- A jump that is taken unless the condition has the sense. -/
structure JumpsUnless (op : Op) (sense : Bool) (target : Nat) : Prop where
  jumps : ∀ {unit : CompiledUnit} {name : String} {frame : Frame} {memory : Memory} {slot : Slot}
    {rest : List Slot}, frame.stack = slot :: rest → execute unit name frame memory op = (do
      let truth ← truthOf "condition" slot
      .ok (.proceed ⟨if truth = sense then frame.counter else target, frame.locals, rest⟩, memory))

/-- The jump over a part that needs a condition. -/
theorem JumpsUnless.jumpIfFalse (target : Nat) : JumpsUnless (.jumpIfFalse target) true target := by
  refine ⟨fun top => ?_⟩
  simp only [execute, top, popTruth_cons]
  cases truthOf "condition" _ <;> rfl

/-- The jump over a part that needs the opposite of a condition. -/
theorem JumpsUnless.jumpIfTrue (target : Nat) : JumpsUnless (.jumpIfTrue target) false target := by
  refine ⟨@fun unit name frame memory slot rest top => ?_⟩
  simp only [execute, top, popTruth_cons]
  cases truthOf "condition" slot with
  | error error => rfl
  | ok truth => cases truth <;> rfl

/-- A conditional jump behind its condition: two ways to go on. -/
theorem Computes.test {routine : Routine} {counter target : Nat} {slots rest : List Slot}
    {memory : Memory} {op : Op} {sense : Bool} {slot : Slot}
    (present : routine.ops[counter]? = some op) (jump : JumpsUnless op sense target)
    (fits : memory.Fits unit.fields) (typed : slot.Fits memory.cursors.length .boolean) :
    Computes unit routine ⟨counter, slots, slot :: rest⟩ memory
      (fun truth => ⟨if truth = sense then counter + 1 else target, slots, rest⟩)
      (fun _ _ => True) (truthOf "condition" slot, memory) := by
  have jumps := @jump.jumps unit routine.name ⟨counter + 1, slots, slot :: rest⟩ memory
    slot rest rfl
  rcases truthOf_cases typed "condition" with ⟨truth, -, found⟩ | failed
  · rw [found] at jumps ⊢
    exact ⟨.step present jumps, fits.follows, trivial⟩
  · rw [failed] at jumps ⊢
    exact ⟨.error present jumps, fits.follows, .of_isInternal rfl⟩

/-- One of two parts, chosen by a condition: the first when the condition has the sense. -/
theorem Realizes.choice {ops first second : List Op} {op : Op} {sense : Bool} {type : Ty}
    {thenStart elseStart : Nat} {condition meaning other : Env → Effect Slot}
    (test : Realizes unit locals start ops .boolean condition)
    (jump : JumpsUnless op sense elseStart) (thenPlace : thenStart = start + ops.length + 1)
    (thenPart : Realizes unit locals thenStart first type meaning)
    (elsePlace : elseStart = thenStart + first.length + 1)
    (elsePart : Realizes unit locals elseStart second type other) :
    Realizes unit locals start
      (ops ++ [op] ++ first ++ [Op.jump (elseStart + second.length)] ++ second) type
      (fun env => do
        let slot ← condition env
        let truth ← .ofExcept (truthOf "condition" slot)
        if truth = sense then meaning env else other env) := by
  refine ⟨@fun routine slots stack memory env code mirrors fits => ?_⟩
  have size : start + (ops ++ [op] ++ first ++ [Op.jump (elseStart + second.length)] ++
      second).length = elseStart + second.length := by
    simp only [List.length_append, List.length_singleton]
    omega
  have thenCode : CodeAt routine.ops thenStart first := by
    have placed := code.left.left.right
    rwa [List.length_append, List.length_singleton, ← Nat.add_assoc, ← thenPlace] at placed
  have jumpCode : routine.ops[thenStart + first.length]? =
      some (.jump (elseStart + second.length)) := by
    have placed := code.left.right.head
    rwa [List.length_append, List.length_append, List.length_singleton, ← Nat.add_assoc,
      ← Nat.add_assoc, ← thenPlace] at placed
  have elseCode : CodeAt routine.ops elseStart second := by
    have placed := code.right
    rwa [List.length_append, List.length_append, List.length_append, List.length_singleton,
      List.length_singleton, ← Nat.add_assoc, ← Nat.add_assoc, ← Nat.add_assoc, ← thenPlace,
      ← elsePlace] at placed
  rw [size]
  refine (test.computes code.left.left.left.left mirrors fits).bind fun slot tested follows typed =>
    ?_
  refine (Computes.test code.left.left.left.right.head jump follows.fits typed).bind
    fun truth again further _ => ?_
  have mirrors := mirrors.mono (Nat.le_trans follows.more further.more)
  by_cases chosen : truth = sense
  · simp only [if_pos chosen, ← thenPlace]
    exact (thenPart.computes thenCode mirrors further.fits).further fun _ changed =>
      Reaches.jump jumpCode changed
  · simp only [if_neg chosen]
    exact elsePart.computes elseCode mirrors further.fits

/-- Code that realizes a meaning of a type realizes it at the types that the type is assignable
to. -/
theorem Realizes.widen {ops : List Op} {source target : Ty} {meaning : Env → Effect Slot}
    (part : Realizes unit locals start ops source meaning)
    (assignable : source.isAssignableTo target = true) :
    Realizes unit locals start ops target meaning := by
  refine ⟨@fun routine slots stack memory env code mirrors fits => ?_⟩
  exact (part.computes code mirrors fits).imp fun _ _ typed => typed.widen assignable

/-! ## Results of single operations -/

/-- The type of a conditional takes the slots of both branches. -/
theorem Ty.unify?_assignable {left right type : Ty} (joined : left.unify? right = some type)
    (stored : type ≠ .void) :
    left.isAssignableTo type = true ∧ right.isAssignableTo type = true := by
  unfold Ty.unify? at joined
  simp only [Ty.isAssignableTo_iff]
  split at joined
  · rename_i same
    cases joined
    exact ⟨⟨stored, .inl rfl⟩, stored, .inl same.symm⟩
  · split at joined
    · cases joined
      exact ⟨⟨stored, .inr (.inl rfl)⟩, stored, .inl rfl⟩
    · cases joined
      exact ⟨⟨stored, .inl rfl⟩, stored, .inr (.inl rfl)⟩
    · rename_i first second _
      cases joined
      refine ⟨⟨stored, ?_⟩, stored, ?_⟩
      · cases first with
        | none => exact .inl rfl
        | some className => exact .inr (.inr (.inr (.inl ⟨className, rfl, rfl⟩)))
      · cases second with
        | none => exact .inl rfl
        | some className => exact .inr (.inr (.inr (.inl ⟨className, rfl, rfl⟩)))
    · split at joined
      · rename_i values
        rw [Bool.and_eq_true] at values
        cases joined
        exact ⟨⟨stored, .inr (.inr (.inl ⟨rfl, values.1⟩))⟩, stored,
          .inr (.inr (.inl ⟨rfl, values.2⟩))⟩
      · cases joined

/-- Reading a field. -/
theorem loadField_sound {memory : Memory} {index : Nat} {field : FieldInfo}
    (fits : memory.Fits unit.fields) (present : unit.fields[index]? = some field) :
    Sound memory.cursors.length field.type (loadField unit memory.fields index) := by
  obtain ⟨slot, found, held⟩ := fits.field present
  unfold loadField entryAt
  simp only [found, ok_bind]
  rcases held with rfl | typed
  · exact .of_isInternal rfl
  · split
    · exact .of_isInternal rfl
    · exact typed

/-- Reading a field of an object. -/
theorem getterSlot_sound {cursorCount : Nat} {slot : Slot} {className : Option String}
    (typed : slot.Fits cursorCount (.object className)) (field : String) :
    Sound cursorCount .value (getterSlot field slot) := by
  obtain ⟨content, rfl⟩ := typed.exists_value rfl
  unfold getterSlot
  simp only [Slot.toValue, ok_bind]
  cases outcome : readGetter field content with
  | ok value => exact fits_any _ value
  | error error =>
    refine .of_isData ?_
    unfold readGetter at outcome
    split at outcome
    · exact requireField_isData outcome
    · cases outcome
      rfl
    · cases outcome
      rfl

/-- Slots of types of values hold values. -/
theorem valuesOf_ok {cursorCount : Nat} {slots : List Slot} {types : List Ty}
    (typed : List.Forall₂ (Slot.Fits cursorCount) slots types)
    (values : ∀ type ∈ types, type.isValueType = true) : ∃ row, valuesOf slots = .ok row := by
  induction typed with
  | nil => exact ⟨[], rfl⟩
  | cons fits rest step =>
    rw [List.forall_mem_cons] at values
    obtain ⟨content, rfl⟩ := fits.exists_value values.1
    obtain ⟨row, found⟩ := step values.2
    exact ⟨content :: row, by simp [valuesOf, Slot.toValue, found]⟩

/-- Making a row. -/
theorem rowOf_sound {cursorCount : Nat} {slots : List Slot} {types : List Ty}
    (typed : List.Forall₂ (Slot.Fits cursorCount) slots types)
    (values : ∀ type ∈ types, type.isValueType = true) : Sound cursorCount .row (rowOf slots) := by
  obtain ⟨row, found⟩ := valuesOf_ok typed values
  unfold rowOf
  rw [found]
  exact ⟨rfl, by simp⟩

/-- Slots that fit types fit the types that accept them. -/
theorem Accepts.fits {cursorCount : Nat} {slots : List Slot} {types params : List Ty}
    (accepted : Accepts params types) (typed : List.Forall₂ (Slot.Fits cursorCount) slots types) :
    List.Forall₂ (Slot.Fits cursorCount) slots params := by
  induction typed generalizing params with
  | nil =>
    cases accepted
    exact .nil
  | cons fits rest step =>
    cases accepted with
    | cons assignable accepted => exact .cons (fits.widen assignable) (step accepted)

/-- Making a cursor. -/
theorem openCursor_sound {memory : Memory} {map partitions : Slot}
    (fits : memory.Fits unit.fields) (mapTyped : map.Fits memory.cursors.length .map)
    (partsTyped : partitions.Fits memory.cursors.length .partitions) :
    SoundEffect unit.fields memory .cursor (openCursor map partitions memory) := by
  have nullOrMap : map = .value .null ∨ ∃ entries, map = .handle (.map entries) := by
    have assignable := mapTyped.1
    cases map with
    | value content => cases content <;> first | exact .inl rfl | cases assignable
    | handle object =>
      cases object with
      | map entries => exact .inr ⟨entries, rfl⟩
      | executor id state => cases state <;> cases assignable
      | _ => cases assignable
    | _ => cases assignable
  have nullOrParts : partitions = .value .null ∨ ∃ set, partitions = .handle (.partitions set) := by
    have assignable := partsTyped.1
    cases partitions with
    | value content => cases content <;> first | exact .inl rfl | cases assignable
    | handle object =>
      cases object with
      | partitions set => exact .inr ⟨set, rfl⟩
      | executor id state => cases state <;> cases assignable
      | _ => cases assignable
    | _ => cases assignable
  rcases nullOrMap with rfl | ⟨entries, rfl⟩
  · exact .of_isInternal rfl
  rcases nullOrParts with rfl | ⟨set, rfl⟩
  · exact .of_isInternal rfl
  · refine ⟨fits.withCursors (by simp) ?_, rfl, ?_⟩
    · intro cursor member
      rcases List.mem_append.1 member with old | new
      · exact fits.cursors cursor old
      · rw [List.mem_singleton.1 new]
        exact .start entries set
    · intro number same
      cases same
      simp

/-- Adding a row to the batch. -/
theorem addRow_sound {memory : Memory} {slot : Slot} (fits : memory.Fits unit.fields)
    (typed : slot.Fits memory.cursors.length .row) :
    SoundEffect unit.fields memory .boolean (addRow slot memory) := by
  rcases typed.row with rfl | ⟨columns, rfl⟩
  · exact .of_isInternal rfl
  · exact ⟨fits.withBatch _, Slot.fits_truth _ _⟩

/-- Items of lists can be stored. -/
theorem ListElement.itemType_ne_void (element : ListElement) : element.itemType ≠ .void := by
  cases element <;> simp [ListElement.itemType]

/-- The name of a method is the one that it is called by, and no getter has it. -/
theorem methodOf?_name {type : Ty} {name : String} {method : Method} {params : List Ty}
    {result : Ty} (has : methodOf? type name = some (method, params, result)) :
    method.name = name ∧ fieldOfGetter? name = none ∧ result ≠ .void := by
  unfold methodOf? at has
  split at has <;> first | contradiction | skip
  all_goals
    cases has
    refine ⟨rfl, by decide, ?_⟩
  all_goals first | exact ListElement.itemType_ne_void _ | simp

/-- A call of a method by its name is the call of the method that the compiler found. -/
theorem callMethod_eq {memory : Memory} {receiver : Slot} {type : Ty} {name : String}
    {method : Method} {params : List Ty} {result : Ty} (slots : List Slot)
    (typed : receiver.Fits memory.cursors.length type)
    (has : methodOf? type name = some (method, params, result)) :
    callMethod name receiver slots memory =
      called (invoke memory.cursors method receiver slots) memory := by
  unfold callMethod
  cases null : receiver.isNull with
  | true => simp [invoke, called, null, (methodOf?_name has).1]
  | false => simp [methodOf?_receiver typed null has]

/-- Calling a method that the receiver has, on arguments of the types of its parameters. -/
theorem callMethod_sound {memory : Memory} {receiver : Slot} {slots : List Slot} {type : Ty}
    {name : String} {method : Method} {params : List Ty} {result : Ty}
    (fits : memory.Fits unit.fields) (typed : receiver.Fits memory.cursors.length type)
    (has : methodOf? type name = some (method, params, result))
    (given : List.Forall₂ (Slot.Fits memory.cursors.length) slots params) :
    SoundEffect unit.fields memory result (callMethod name receiver slots memory) := by
  cases null : receiver.isNull with
  | true =>
    simp only [callMethod, null, if_true]
    exact .of_isInternal rfl
  | false =>
    rw [callMethod_eq slots typed has]
    have sound := invoke_sound (methodOf?_receiver typed null has) given typed.2 fits.cursors
    cases outcome : invoke memory.cursors method receiver slots with
    | error error =>
      rw [outcome] at sound
      exact sound
    | ok called =>
      rw [outcome] at sound
      obtain ⟨fitting, same, reachable⟩ := sound
      exact ⟨fits.withCursors (Nat.le_of_eq same.symm) reachable, fitting⟩

/-- The code of a call: receiver, arguments, and the call itself. -/
theorem Realizes.called {ops more : List Op} {type result : Ty} {types params : List Ty}
    {name : String} {method : Method} {meaning : Env → Effect Slot}
    {meanings : Env → Effect (List Slot)}
    (part : Realizes unit locals start ops type meaning)
    (parts : RealizesAll unit locals (start + ops.length) more types meanings)
    (has : methodOf? type name = some (method, params, result)) (accepted : Accepts params types) :
    Realizes unit locals start (ops ++ more ++ [Op.call method types.length]) result
      (fun env => do
        let receiver ← meaning env
        let slots ← meanings env
        callMethod name receiver slots) := by
  refine ⟨@fun routine slots stack memory env code mirrors fits => ?_⟩
  rw [List.length_append, List.length_append, List.length_singleton, ← Nat.add_assoc,
    ← Nat.add_assoc]
  have callCode := code.right.head
  rw [List.length_append, ← Nat.add_assoc] at callCode
  refine (part.computes code.left.left mirrors fits).bind fun receiver changed follows typed => ?_
  refine (parts.computes code.left.right (mirrors.mono follows.more) follows.fits).bind
    fun results next further allTyped => ?_
  have typed := typed.mono further.more
  rw [← allTyped.length_eq] at callCode
  refine .op callCode ?_ further.fits
    (callMethod_sound further.fits typed has (accepted.fits allTyped))
  rw [callMethod_eq results typed has]
  exact acts_call rfl

/-- Meanings that agree where the code runs are realized by the same code. -/
theorem Realizes.congr {ops : List Op} {type : Ty} {meaning other : Env → Effect Slot}
    (part : Realizes unit locals start ops type meaning)
    (same : ∀ {slots : List Slot} {cursorCount : Nat} {env : Env},
      Mirrors locals slots cursorCount env → other env = meaning env) :
    Realizes unit locals start ops type other := by
  refine ⟨@fun routine slots stack memory env code mirrors fits => ?_⟩
  rw [same mirrors]
  exact part.computes code mirrors fits

/-- An expression that pushes a constant of the unit. -/
theorem Realizes.constant {pools : Pools} {slot : Slot} {type : Ty}
    (within : (lowerConstant pools slot type).pools.Within unit)
    (typed : ∀ cursorCount, slot.Fits cursorCount type) :
    Realizes unit locals start (lowerConstant pools slot type).ops type (fun _ => pure slot) := by
  obtain ⟨-, present⟩ := Pools.addConstant_within within
  exact Realizes.single (fun _ _ => acts_const present) (fun _ fits => ⟨fits.follows, typed _⟩)

/-- Pushing a truth value. -/
theorem Realizes.truth {op : Op} {truth : Bool}
    (pushed : (op = .pushTrue ∧ truth = true) ∨ (op = .pushFalse ∧ truth = false)) :
    Realizes unit locals start [op] .boolean (fun _ => pure (.truth truth)) := by
  refine .single (fun _ _ => ?_) (fun _ fits => ⟨fits.follows, Slot.fits_truth _ _⟩)
  rcases pushed with ⟨rfl, rfl⟩ | ⟨rfl, rfl⟩
  · exact acts_onStack rfl rfl
  · exact acts_onStack rfl rfl

/-- A cast, with or without an instruction. -/
theorem Realizes.cast {ops : List Op} {source target : Ty} {meaning : Env → Effect Slot}
    (part : Realizes unit locals start ops source meaning)
    (castable : target.isCastableFrom source = true) :
    Realizes unit locals start (ops ++ castOps source target) target
      (fun env => do
        let slot ← meaning env
        .ofExcept (castSlot target slot)) := by
  rcases @castOps_cases source target with ⟨none, kept⟩ | ⟨cast, single, applied⟩
  · rw [none, List.append_nil]
    refine ⟨@fun routine slots stack memory env code mirrors fits => ?_⟩
    refine (part.computes code mirrors fits).bind fun slot changed follows typed => ?_
    have sound := castSlot_sound typed castable
    rw [kept _ slot typed] at sound
    rw [Effect.ofExcept_apply, kept _ slot typed]
    exact ⟨.refl _ _, follows.fits.follows, sound⟩
  · rw [single]
    refine part.followed ?_ fun fits typed => .unchanged fits (castSlot_sound typed castable)
    intro name frame memory slot rest typed top
    rw [applied]
    exact acts_cast top

/-! ## Types that can be stored -/

/-- A type that is accepted somewhere can be stored. -/
theorem Ty.isAssignableTo_ne_void {source target : Ty}
    (assignable : source.isAssignableTo target = true) : source ≠ .void := by
  rintro rfl
  cases target <;> cases assignable

/-- The operands of a binary operator can be stored. -/
theorem binaryOp?_ne_void {op : BinaryOp} {left right : Ty} {found : Op × Ty}
    (accepted : binaryOp? op left right = some found) : left ≠ .void ∧ right ≠ .void := by
  constructor
  · rintro rfl
    cases op <;> cases right <;> cases accepted
  · rintro rfl
    cases op <;> cases left <;> cases accepted

/-- What has a method can be stored. -/
theorem methodOf?_ne_void {type : Ty} {name : String} {found : Method × List Ty × Ty}
    (has : methodOf? type name = some found) : type ≠ .void := by
  rintro rfl
  cases has

/-- What can be cast can be stored. -/
theorem Ty.isCastableFrom_ne_void {target source : Ty}
    (castable : target.isCastableFrom source = true) : source ≠ .void := by
  rintro rfl
  cases target <;> cases castable

/-- A type that is written and accepted is the one that its names stand for. -/
theorem UnitScope.resolve_eq_ok {scope : UnitScope} {written : TypeName} {type : Ty}
    (named : scope.resolve written = .ok type) :
    Ty.resolve? written.name written.argument = some type := by
  unfold UnitScope.resolve at named
  split at named
  · cases named
  · rename_i found known
    rw [known]
    simp only [bind_eq_ok_iff] at named
    obtain ⟨-, -, named⟩ := named
    split at named
    · simp only [bind_eq_ok_iff] at named
      obtain ⟨-, -, named⟩ := named
      cases named
      rfl
    · cases named
      rfl

/-- The arguments of a function with two parameters. -/
theorem forall₂_pair {cursorCount : Nat} {arguments : List Slot} {first second : Ty}
    (given : List.Forall₂ (Slot.Fits cursorCount) arguments [first, second]) :
    ∃ left right, arguments = [left, right] ∧ left.Fits cursorCount first ∧
      right.Fits cursorCount second := by
  cases given with
  | cons fits rest =>
    obtain ⟨right, rfl, alsoFits⟩ := forall₂_singleton rest
    exact ⟨_, right, rfl, fits, alsoFits⟩

/-- The types of accepted arguments can be stored. -/
theorem Accepts.ne_void {params types : List Ty} (accepted : Accepts params types) :
    ∀ type ∈ types, type ≠ .void := by
  induction accepted with
  | nil => simp
  | cons assignable rest step =>
    rw [List.forall_mem_cons]
    exact ⟨Ty.isAssignableTo_ne_void assignable, step⟩

/-- The slot of a literal has the type of the literal. -/
theorem literal?_fits {term : Term} {slot : Slot} {type : Ty}
    (same : literal? term = some (slot, type)) (cursorCount : Nat) :
    slot.Fits cursorCount type := by
  unfold literal? at same
  split at same <;> cases same
  all_goals exact ⟨rfl, by simp⟩

/-- The meaning of a literal is its slot. -/
theorem literal?_evalTerm {term : Term} {slot : Slot} {type : Ty}
    (same : literal? term = some (slot, type)) (env : Env) :
    evalTerm unit env term = pure slot := by
  unfold literal? at same
  split at same <;> cases same <;> simp only [evalTerm]

/-- A static member tells how far an executor has come. -/
theorem staticMember?_fits {owner name : String} {slot : Slot}
    (known : staticMember? owner name = some slot) (cursorCount : Nat) :
    slot.Fits cursorCount .progress := by
  unfold staticMember? at known
  split at known
  · split at known
    · cases known
      exact ⟨rfl, by simp⟩
    · split at known <;> cases known
      exact ⟨rfl, by simp⟩
  · cases known

/-! ## Kinds of expressions -/

section Kinds

variable {place : Position} {ops more : List Op} {type other : Ty} {scope : UnitScope}

/-- A literal is a constant of the unit. -/
theorem Realizes.literal {pools : Pools} {term : Term} {slot : Slot}
    (same : literal? term = some (slot, type))
    (within : (lowerConstant pools slot type).pools.Within unit) :
    Realizes unit locals start (lowerConstant pools slot type).ops type
      (fun env => evalTerm unit env term) :=
  (Realizes.constant within (literal?_fits same)).congr fun _ => literal?_evalTerm same _

/-- A truth value. -/
theorem Realizes.boolean (truth : Bool) :
    Realizes unit locals start [if truth then .pushTrue else .pushFalse] .boolean
      (fun env => evalTerm unit env (.boolean place truth)) := by
  simp only [evalTerm]
  cases truth
  · exact .truth (.inr ⟨rfl, rfl⟩)
  · exact .truth (.inl ⟨rfl, rfl⟩)

/-- The null of the language. -/
theorem Realizes.null : Realizes unit locals start [.pushNull] .null
    (fun env => evalTerm unit env (.null place)) :=
  .single (fun _ _ => acts_onStack rfl rfl) fun _ fits =>
    ⟨fits.follows, Slot.fits_null _ (by simp)⟩

/-- A local that can be seen. -/
theorem Realizes.name {name : String} {number : Nat}
    (found : locals.find? name = some (number, type)) :
    Realizes unit locals start [.loadLocal number] type
      (fun env => evalTerm unit env (.name place name)) := by
  refine .single (fun mirrors _ => ?_) (fun mirrors fits => ?_)
  · obtain ⟨slot, content, present, typed⟩ := mirrors.content found
    simp only [evalTerm, content]
    exact acts_loadLocal present
  · obtain ⟨slot, content, present, typed⟩ := mirrors.content found
    simp only [evalTerm, content]
    exact ⟨fits.follows, typed⟩

/-- A negation. -/
theorem Realizes.not {operand : Term} (truth : type = .boolean)
    (part : Realizes unit locals start ops type (fun env => evalTerm unit env operand)) :
    Realizes unit locals start (ops ++ [Op.not]) type
      (fun env => evalTerm unit env (.not place operand)) := by
  subst truth
  simp only [evalTerm]
  exact part.followed (fun _ top => acts_not top)
    (fun fits typed => .unchanged fits (notSlot_sound typed))

/-- A change of sign. -/
theorem Realizes.negate {operand : Term} (numeric : type.isNumeric = true)
    (part : Realizes unit locals start ops type (fun env => evalTerm unit env operand)) :
    Realizes unit locals start (ops ++ [Op.negate]) type
      (fun env => evalTerm unit env (.negate place operand)) := by
  simp only [evalTerm]
  exact part.followed (fun _ top => acts_negate top)
    (fun fits typed => .unchanged fits (negateSlot_sound typed numeric))

section Binary

variable {left right : Term} {shortcut : Nat}

/-- Both conditions. The second one is left out when the first is false. -/
theorem Realizes.and (decided : shortcut = start + ops.length + 1 + more.length + 1)
    (first : Realizes unit locals start ops .boolean (fun env => evalTerm unit env left))
    (second : Realizes unit locals (start + ops.length + 1) more .boolean
      (fun env => evalTerm unit env right)) :
    Realizes unit locals start
      (ops ++ [Op.jumpIfFalse shortcut] ++ more ++ [Op.jump (shortcut + 1), Op.pushFalse]) .boolean
      (fun env => evalTerm unit env (.binary place .and left right)) := by
  have whole := first.choice (.jumpIfFalse shortcut) rfl second decided (.truth (.inr ⟨rfl, rfl⟩))
  rw [List.append_assoc _ [_] [_]] at whole
  simp only [evalTerm]
  exact whole

/-- One of two conditions. The second one is left out when the first is true. -/
theorem Realizes.or (decided : shortcut = start + ops.length + 1 + more.length + 1)
    (first : Realizes unit locals start ops .boolean (fun env => evalTerm unit env left))
    (second : Realizes unit locals (start + ops.length + 1) more .boolean
      (fun env => evalTerm unit env right)) :
    Realizes unit locals start
      (ops ++ [Op.jumpIfTrue shortcut] ++ more ++ [Op.jump (shortcut + 1), Op.pushTrue]) .boolean
      (fun env => evalTerm unit env (.binary place .or left right)) := by
  have whole := first.choice (.jumpIfTrue shortcut) rfl second decided (.truth (.inl ⟨rfl, rfl⟩))
  rw [List.append_assoc _ [_] [_]] at whole
  refine whole.congr fun _ => ?_
  simp only [evalTerm]
  congr 1
  funext slot
  congr 1
  funext truth
  cases truth <;> rfl

/-- The other binary operators take both operands. -/
theorem Realizes.binary {op : BinaryOp} {instruction : Op} {result : Ty}
    (accepted : binaryOp? op type other = some (instruction, result))
    (first : Realizes unit locals start ops type (fun env => evalTerm unit env left))
    (second : Realizes unit locals (start + ops.length) more other
      (fun env => evalTerm unit env right)) :
    Realizes unit locals start (ops ++ more ++ [instruction]) result
      (fun env => evalTerm unit env (.binary place op left right)) := by
  have whole := first.combined second (fun top => acts_binary accepted top)
    (fun left right => BinaryOp.apply_sound left right accepted)
  refine whole.congr fun _ => ?_
  -- the operators that leave out an operand have no instruction
  cases op <;> first | cases accepted | skip
  all_goals simp only [evalTerm]

end Binary

/-- A conditional, at a type that takes both branches. -/
theorem Realizes.conditional {condition thenValue elseValue : Term} {test : List Op}
    {thenStart elseStart : Nat} {result : Ty} (joined : type.unify? other = some result)
    (stored : result ≠ .void) (thenPlace : thenStart = start + test.length + 1)
    (elsePlace : elseStart = thenStart + ops.length + 1)
    (tested : Realizes unit locals start test .boolean (fun env => evalTerm unit env condition))
    (first : Realizes unit locals thenStart ops type (fun env => evalTerm unit env thenValue))
    (second : Realizes unit locals elseStart more other (fun env => evalTerm unit env elseValue)) :
    Realizes unit locals start
      (test ++ [Op.jumpIfFalse elseStart] ++ ops ++ [Op.jump (elseStart + more.length)] ++ more)
      result
      (fun env => evalTerm unit env (.conditional place condition thenValue elseValue)) := by
  obtain ⟨left, right⟩ := Ty.unify?_assignable joined stored
  simp only [evalTerm]
  exact tested.choice (.jumpIfFalse _) thenPlace (first.widen left) elsePlace (second.widen right)

/-- A field of the unit. -/
theorem Realizes.field {here : Position} {name : String} {index : Nat}
    (fields : scope.fields = unit.fields) (found : scope.field? name = some (index, type)) :
    Realizes unit locals start [.loadField index] type
      (fun env => evalTerm unit env (.member place (.this here) name)) := by
  obtain ⟨known, field, present, rfl⟩ := UnitScope.field?_eq_some found
  rw [fields] at known present
  simp only [evalTerm, Term.isThis, if_true]
  refine .single (fun _ _ => ?_) (fun _ fits => ?_)
  · simp only [readField, fieldIndex?, known]
    exact acts_loadField _
  · simp only [readField, fieldIndex?, known]
    exact .unchanged fits (loadField_sound fits present)

/-- A name that stands for a part of the engine is not the unit itself. -/
theorem isThis_of_staticOwner? {target : Term} {owner : String}
    (owned : staticOwner? locals target = some owner) : target.isThis = false := by
  cases target <;> first | rfl | cases owned

/-- A static member of the engine. -/
theorem Realizes.static {pools : Pools} {target : Term} {owner name : String} {slot : Slot}
    (owned : staticOwner? locals target = some owner) (known : staticMember? owner name = some slot)
    (within : (lowerConstant pools slot .progress).pools.Within unit) :
    Realizes unit locals start (lowerConstant pools slot .progress).ops .progress
      (fun env => evalTerm unit env (.member place target name)) := by
  refine (Realizes.constant within (staticMember?_fits known)).congr fun mirrors => ?_
  simp [evalTerm, isThis_of_staticOwner? owned, mirrors.staticOwner, owned, known]

section Calls

variable {target : Term} {called : String} {arguments : List Term} {types : List Ty}

/-- Adding a row to the batch. -/
theorem RealizesAll.add {here : Position} (accepted : Accepts [.row] types)
    (parts : RealizesAll unit locals start ops types (fun env => evalTerms unit env arguments)) :
    Realizes unit locals start (ops ++ [Op.addToBatch]) .boolean
      (fun env => evalTerm unit env (.call place (.this here) "addToBatch" arguments)) := by
  simp only [evalTerm, Term.isThis, if_true, String.reduceEq, if_false]
  refine parts.followed (fun typed top => ?_) (fun fits typed => ?_)
  · obtain ⟨slot, rfl, -⟩ := forall₂_singleton (accepted.fits typed)
    exact acts_addToBatch top
  · obtain ⟨slot, rfl, row⟩ := forall₂_singleton (accepted.fits typed)
    exact addRow_sound fits row

/-- Making a row of values. -/
theorem RealizesAll.row (owned : staticOwner? locals target = some "HeapRow")
    (count : arguments.length = types.length) (values : ∀ type ∈ types, type.isValueType = true)
    (parts : RealizesAll unit locals start ops types (fun env => evalTerms unit env arguments)) :
    Realizes unit locals start (ops ++ [Op.newRow arguments.length]) .row
      (fun env => evalTerm unit env (.call place target "of" arguments)) := by
  have whole : Realizes unit locals start (ops ++ [Op.newRow arguments.length]) .row (fun env => do
      let slots ← evalTerms unit env arguments
      .ofExcept (rowOf slots)) := by
    refine parts.followed (fun typed top => ?_)
      (fun fits typed => .unchanged fits (rowOf_sound typed values))
    rw [count, ← typed.length_eq]
    exact acts_newRow top
  refine whole.congr fun mirrors => ?_
  simp [evalTerm, isThis_of_staticOwner? owned, mirrors.staticOwner, owned]

/-- Making a cursor over a map. -/
theorem RealizesAll.cursor (owned : staticOwner? locals target = some "MapScanUtils")
    (accepted : Accepts [.map, .partitions] types)
    (parts : RealizesAll unit locals start ops types (fun env => evalTerms unit env arguments)) :
    Realizes unit locals start (ops ++ [Op.createCursor]) .cursor
      (fun env => evalTerm unit env (.call place target "createIterator" arguments)) := by
  have whole : Realizes unit locals start (ops ++ [Op.createCursor]) .cursor (fun env => do
      let slots ← evalTerms unit env arguments
      openGiven slots) := by
    refine parts.followed (fun typed top => ?_) (fun fits typed => ?_)
    · obtain ⟨map, partitions, rfl, -⟩ := forall₂_pair (accepted.fits typed)
      exact acts_createCursor top
    · obtain ⟨map, partitions, rfl, mapTyped, partsTyped⟩ := forall₂_pair (accepted.fits typed)
      exact openCursor_sound fits mapTyped partsTyped
  refine whole.congr fun mirrors => ?_
  simp [evalTerm, isThis_of_staticOwner? owned, mirrors.staticOwner, owned]

/-- Reading a field of an object. -/
theorem Realizes.getter {number : Nat} {field : String} {className : Option String}
    (apart : target.isThis = false) (free : staticOwner? locals target = none)
    (read : fieldOfGetter? called = some field) (object : type = .object className)
    (present : unit.names[number]? = some field)
    (part : Realizes unit locals start ops type (fun env => evalTerm unit env target)) :
    Realizes unit locals start (ops ++ [Op.getter number]) .value
      (fun env => evalTerm unit env (.call place target called [])) := by
  subst object
  have whole : Realizes unit locals start (ops ++ [Op.getter number]) .value (fun env => do
      let slot ← evalTerm unit env target
      .ofExcept (getterSlot field slot)) :=
    part.followed (fun _ top => acts_getter present top)
      (fun fits typed => .unchanged fits (getterSlot_sound typed _))
  refine whole.congr fun mirrors => ?_
  simp [evalTerm, apart, mirrors.staticOwner, free, read]

/-- Calling a method of the receiver. -/
theorem Realizes.method {instruction : Method} {params : List Ty} {result : Ty}
    (apart : target.isThis = false) (free : staticOwner? locals target = none)
    (has : methodOf? type called = some (instruction, params, result))
    (accepted : Accepts params types) (count : arguments.length = types.length)
    (part : Realizes unit locals start ops type (fun env => evalTerm unit env target))
    (parts : RealizesAll unit locals (start + ops.length) more types
      (fun env => evalTerms unit env arguments)) :
    Realizes unit locals start (ops ++ more ++ [Op.call instruction arguments.length]) result
      (fun env => evalTerm unit env (.call place target called arguments)) := by
  have whole := part.called parts has accepted
  rw [← count] at whole
  refine whole.congr fun mirrors => ?_
  simp [evalTerm, apart, mirrors.staticOwner, free, (methodOf?_name has).2.1]

end Calls

end Kinds

/-! ## All expressions -/

mutual

/-- The code of an accepted expression realizes its meaning. -/
theorem Lowers.realizes {scope : UnitScope} {start : Nat} {pools : Pools} {term : Term}
    {lowered : Lowered}
    (rule : Lowers scope locals start pools term lowered) (fields : scope.fields = unit.fields)
    (within : lowered.pools.Within unit) (stored : lowered.type ≠ .void) :
    Realizes unit locals start lowered.ops lowered.type (fun env => evalTerm unit env term) := by
  cases rule with
  | literal same => exact .literal same within
  | boolean => exact .boolean _
  | null => exact .null
  | name found => exact .name found
  | not part truth => exact .not truth (part.realizes fields within stored)
  | negate part numeric => exact .negate numeric (part.realizes fields within stored)
  | and leftPart leftTruth rightPart rightTruth decided =>
    have first := leftPart.realizes fields (rightPart.within within) (by simp [leftTruth])
    have second := rightPart.realizes fields within (by simp [rightTruth])
    rw [leftTruth] at first
    rw [rightTruth] at second
    exact .and decided first second
  | or leftPart leftTruth rightPart rightTruth decided =>
    have first := leftPart.realizes fields (rightPart.within within) (by simp [leftTruth])
    have second := rightPart.realizes fields within (by simp [rightTruth])
    rw [leftTruth] at first
    rw [rightTruth] at second
    exact .or decided first second
  | binary leftPart rightPart accepted =>
    obtain ⟨left, right⟩ := binaryOp?_ne_void accepted
    exact .binary accepted (leftPart.realizes fields (rightPart.within within) left)
      (rightPart.realizes fields within right)
  | conditional testPart truth thenPlace thenPart elsePlace elsePart joined =>
    obtain ⟨left, right⟩ := Ty.unify?_assignable joined stored
    have test := testPart.realizes fields (thenPart.within (elsePart.within within))
      (by simp [truth])
    rw [truth] at test
    exact .conditional joined stored thenPlace elsePlace test
      (thenPart.realizes fields (elsePart.within within) (Ty.isAssignableTo_ne_void left))
      (elsePart.realizes fields within (Ty.isAssignableTo_ne_void right))
  | field found => exact .field fields found
  | static owned imported known => exact .static owned known within
  | clear => exact absurd rfl stored
  | add parts accepted =>
    exact RealizesAll.add accepted (parts.realizes fields within accepted.ne_void)
  | row owned imported parts values =>
    refine RealizesAll.row owned parts.length_eq values (parts.realizes fields within ?_)
    rintro _ member rfl
    cases values _ member
  | cursor owned imported parts accepted =>
    exact RealizesAll.cursor owned accepted (parts.realizes fields within accepted.ne_void)
  | getter other free part object read =>
    obtain ⟨poolsWithin, present⟩ := Pools.addName_within within
    exact .getter other free read object present
      (part.realizes fields poolsWithin (by simp [object]))
  | method other free part has parts accepted =>
    exact .method other free has accepted parts.length_eq
      (part.realizes fields (parts.within within) (methodOf?_ne_void has))
      (parts.realizes fields within accepted.ne_void)
  | cast named part castable =>
    have inside := part.realizes fields within (Ty.isCastableFrom_ne_void castable)
    simp only [evalTerm, UnitScope.resolve_eq_ok named]
    exact inside.cast castable

/-- The code of accepted expressions realizes their meanings. -/
theorem LowersAll.realizes {scope : UnitScope} {start : Nat} {pools next : Pools}
    {terms : List Term} {types : List Ty} {ops : List Op}
    (rules : LowersAll scope locals start pools terms types ops next)
    (fields : scope.fields = unit.fields) (within : next.Within unit)
    (stored : ∀ type ∈ types, type ≠ .void) :
    RealizesAll unit locals start ops types (fun env => evalTerms unit env terms) := by
  match rules with
  | .nil =>
    simp only [evalTerms]
    exact RealizesAll.nil
  | .cons head tail =>
    rw [List.forall_mem_cons] at stored
    simp only [evalTerms]
    exact RealizesAll.cons (head.realizes fields (tail.within within) stored.1)
      (tail.realizes fields within stored.2)

end

end QueryFusion.Script
