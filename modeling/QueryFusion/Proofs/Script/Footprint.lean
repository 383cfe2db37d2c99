import QueryFusion.Proofs.Script.Refinement
import QueryFusion.Proofs.Script.Renumbering
import QueryFusion.Proofs.Script.Units

/-!
# What code leaves alone

Only an assignment to a field changes the fields of an instance, and nothing changes the size of its
batches. The constants of an accepted unit hold no object of the engine. A routine that starts by
clearing the batch does not see what was in it.
-/

namespace QueryFusion.Script

/-! ## Instructions -/

/-- The instruction sets a field. -/
def Op.setsField : Op → Bool
  | .storeField _ => true
  | _ => false

section Running

variable {unit : CompiledUnit} {routine : Routine}

/-- What one memory has in common with one that a run leaves. -/
structure Memory.Keeps (still : Prop) (memory changed : Memory) : Prop where
  capacity : changed.batch.capacity = memory.batch.capacity
  fields : still → changed.fields = memory.fields

/-- Nothing is lost without a change. -/
theorem Memory.Keeps.refl (still : Prop) (memory : Memory) : Memory.Keeps still memory memory :=
  ⟨rfl, fun _ => rfl⟩

/-- What two runs keep one after the other. -/
theorem Memory.Keeps.trans {still : Prop} {first second third : Memory}
    (left : Memory.Keeps still first second) (right : Memory.Keeps still second third) :
    Memory.Keeps still first third :=
  ⟨right.capacity.trans left.capacity, fun calm => (right.fields calm).trans (left.fields calm)⟩

/-- An instruction keeps the size of batches, and the fields unless it sets one. -/
theorem execute_keeps {routineName : String} {frame : Frame} {memory changed : Memory} {op : Op}
    {signal : Signal} (done : execute unit routineName frame memory op = .ok (signal, changed)) :
    Memory.Keeps (op.setsField = false) memory changed := by
  cases op with
  | storeField index =>
    simp only [execute, bind_eq_ok_iff, Except.ok.injEq, Prod.mk.injEq] at done
    obtain ⟨parts, -, fields, -, -, rfl⟩ := done
    exact ⟨rfl, fun still => by cases still⟩
  | storeLocal index =>
    simp only [execute, bind_eq_ok_iff, Except.ok.injEq, Prod.mk.injEq] at done
    obtain ⟨parts, -, locals, -, -, rfl⟩ := done
    exact .refl _ _
  | jumpIfFalse target | jumpIfTrue target | answer =>
    simp only [execute, bind_eq_ok_iff, Except.ok.injEq, Prod.mk.injEq] at done
    obtain ⟨parts, -, -, rfl⟩ := done
    exact .refl _ _
  | call method size =>
    simp only [execute, bind_eq_ok_iff, Except.ok.injEq, Prod.mk.injEq] at done
    obtain ⟨arguments, -, receiver, -, result, -, -, rfl⟩ := done
    exact ⟨rfl, fun _ => rfl⟩
  | createCursor =>
    simp only [execute, bind_eq_ok_iff] at done
    obtain ⟨partitions, -, map, -, done⟩ := done
    split at done <;> cases done
    exact ⟨rfl, fun _ => rfl⟩
  | addToBatch =>
    simp only [execute, bind_eq_ok_iff] at done
    obtain ⟨⟨slot, rest⟩, -, done⟩ := done
    cases slot <;> cases done
    exact ⟨rfl, fun _ => rfl⟩
  | clearBatch =>
    cases done
    exact ⟨rfl, fun _ => rfl⟩
  | missingAnswer => cases done
  | jump target | finish =>
    cases done
    exact .refl _ _
  | _ =>
    simp only [execute, bind_eq_ok_iff, Except.ok.injEq, Prod.mk.injEq] at done
    obtain ⟨stack, -, -, rfl⟩ := done
    exact .refl _ _

/-- The routine sets no field. -/
def Routine.IsStill (routine : Routine) : Prop :=
  ∀ op ∈ routine.ops, op.setsField = false

/-- Instructions one after another keep the size of batches, and a routine that sets no field keeps
the fields. -/
theorem runFrom_keeps {fuel : Nat} {frame : Frame} {memory changed : Memory}
    {result : Except Error Slot}
    (ended : runFrom unit routine fuel frame memory = some (result, changed)) :
    Memory.Keeps routine.IsStill memory changed := by
  induction fuel generalizing frame memory with
  | zero => cases ended
  | succ fuel step =>
    rw [runFrom] at ended
    cases present : routine.ops[frame.counter]? with
    | none =>
      rw [present] at ended
      cases ended
      exact .refl _ _
    | some op =>
      simp only [present] at ended
      have inside : op ∈ routine.ops := List.mem_of_getElem? present
      rcases done : execute unit routine.name { frame with counter := frame.counter + 1 }
        memory op with
        error | ⟨next | slot, between⟩
      · rw [done] at ended
        cases ended
        exact .refl _ _
      · rw [done] at ended
        have kept := execute_keeps done
        exact .trans ⟨kept.capacity, fun still => kept.fields (still op inside)⟩ (step ended)
      · rw [done] at ended
        cases ended
        have kept := execute_keeps done
        exact ⟨kept.capacity, fun still => kept.fields (still op inside)⟩

/-- A run keeps the size of batches, and the fields where its routine sets none. -/
theorem run_keeps {fuel : Nat} {arguments : List Slot} {memory changed : Memory}
    {result : Except Error Slot}
    (ended : run unit routine fuel arguments memory = some (result, changed)) :
    Memory.Keeps routine.IsStill memory changed := by
  unfold run at ended
  split at ended
  · cases ended
    exact .refl _ _
  · exact runFrom_keeps ended

/-- The routine clears the batch before anything else. -/
structure Routine.Clears (routine : Routine) : Prop where
  first : routine.ops[0]? = some Op.clearBatch
  alone : routine.paramCount = 0

/-- A run that clears the batch first does not see what was in it. -/
theorem Routine.Clears.run_clear (clears : routine.Clears) (fuel : Nat) (memory : Memory) :
    run unit routine fuel [] { memory with batch := memory.batch.clear } =
      run unit routine fuel [] memory := by
  unfold run
  rw [clears.alone]
  cases fuel with
  | zero => rfl
  | succ fuel =>
    simp only [List.length_nil, ne_eq, not_true_eq_false, if_false, runFrom, clears.first]
    rfl

end Running

/-! ## Code of expressions -/

/-- The slot holds no object of the engine. -/
def Slot.IsData (slot : Slot) : Prop :=
  ∀ object, slot ≠ .handle object

/-- Where no object is, no cursor is. -/
theorem Slot.IsData.plain {slot : Slot} (data : slot.IsData) : slot.IsPlain :=
  fun _ => Slot.shift_eq_self fun _ => data _

/-- The constants hold no object of the engine. -/
def Pools.AreData (pools : Pools) : Prop :=
  ∀ constant ∈ pools.constants, constant.IsData

/-- The code adds constants that hold no object of the engine, and sets no field. -/
structure Modest (pools : Pools) (ops : List Op) (next : Pools) : Prop where
  constants : pools.AreData → next.AreData
  still : ∀ op ∈ ops, op.setsField = false

namespace Modest

variable {pools between next : Pools} {ops first second : List Op} {op : Op}

/-- Code one after another. -/
theorem append (left : Modest pools first between) (right : Modest between second next) :
    Modest pools (first ++ second) next :=
  ⟨right.constants ∘ left.constants, List.forall_mem_append.2 ⟨left.still, right.still⟩⟩

/-- An instruction that sets no field. -/
theorem single (pools : Pools) (still : op.setsField = false) : Modest pools [op] pools :=
  ⟨id, List.forall_mem_singleton.2 still⟩

/-- No code. -/
theorem nil (pools : Pools) : Modest pools [] pools :=
  ⟨id, List.forall_mem_nil _⟩

/-- Code with an instruction behind it. -/
theorem snoc (part : Modest pools ops next) (still : op.setsField = false) :
    Modest pools (ops ++ [op]) next :=
  part.append (single next still)

/-- A constant that holds no object. -/
theorem constant {slot : Slot} (data : slot.IsData) (type : Ty) :
    Modest pools (lowerConstant pools slot type).ops (lowerConstant pools slot type).pools := by
  refine ⟨fun before => ?_, List.forall_mem_singleton.2 rfl⟩
  exact List.forall_mem_append.2 ⟨before, List.forall_mem_singleton.2 data⟩

/-- Adding a name. -/
theorem addName (part : Modest pools ops between) (name : String) (still : op.setsField = false) :
    Modest pools (ops ++ [op]) (between.addName name).2 := by
  refine ⟨fun before => ?_, (part.snoc still).still⟩
  have kept : (between.addName name).2.constants = between.constants := by
    unfold Pools.addName
    split <;> rfl
  unfold Pools.AreData
  rw [kept]
  exact part.constants before

/-- A cast. -/
theorem castOps (source target : Ty) : Modest pools (castOps source target) pools := by
  refine ⟨id, ?_⟩
  unfold Script.castOps
  split
  · exact List.forall_mem_nil _
  · split
    · exact List.forall_mem_singleton.2 rfl
    · exact List.forall_mem_singleton.2 rfl
    · split
      · exact List.forall_mem_singleton.2 rfl
      · exact List.forall_mem_nil _

end Modest

/-- Literals hold no object. -/
theorem literal?_data {term : Term} {slot : Slot} {type : Ty}
    (same : literal? term = some (slot, type)) : slot.IsData := by
  cases term <;> cases same <;> exact nofun

/-- Static members hold no object. -/
theorem staticMember?_data {owner name : String} {slot : Slot}
    (known : staticMember? owner name = some slot) : slot.IsData := by
  unfold staticMember? at known
  split at known
  · split at known
    · cases known
      exact nofun
    · split at known <;> cases known
      exact nofun
  · cases known

/-- The instruction of a binary operator sets no field. -/
theorem binaryOp?_still {op : BinaryOp} {left right type : Ty} {instruction : Op}
    (accepted : binaryOp? op left right = some (instruction, type)) :
    instruction.setsField = false := by
  cases op <;> simp only [binaryOp?, reduceCtorEq, Option.ite_none_right_eq_some, Option.some.injEq,
    Prod.mk.injEq] at accepted <;> obtain ⟨-, rfl, -⟩ := accepted <;> rfl

mutual

/-- The code of expressions is modest. -/
theorem Lowers.modest {scope : UnitScope} {locals : Locals} {start : Nat} {pools : Pools}
    {term : Term} {lowered : Lowered} (rule : Lowers scope locals start pools term lowered) :
    Modest pools lowered.ops lowered.pools := by
  cases rule with
  | literal same => exact .constant (literal?_data same) _
  | static owned imported known => exact .constant (staticMember?_data known) _
  | @boolean _ _ _ truth => cases truth <;> exact .single pools rfl
  | null | clear => exact .single pools rfl
  | name found | field found => exact .single pools rfl
  | not part truth => exact part.modest.snoc rfl
  | negate part numeric => exact part.modest.snoc rfl
  | and leftPart leftTruth rightPart rightTruth decided =>
    exact ((leftPart.modest.snoc rfl).append rightPart.modest).append
      ((Modest.single _ rfl).append (.single _ rfl))
  | or leftPart leftTruth rightPart rightTruth decided =>
    exact ((leftPart.modest.snoc rfl).append rightPart.modest).append
      ((Modest.single _ rfl).append (.single _ rfl))
  | binary leftPart rightPart accepted =>
    exact (leftPart.modest.append rightPart.modest).snoc (binaryOp?_still accepted)
  | conditional testPart truth thenPlace thenPart elsePlace elsePart joined =>
    exact (((testPart.modest.snoc rfl).append thenPart.modest).snoc rfl).append elsePart.modest
  | add parts accepted => exact parts.modest.snoc rfl
  | row owned imported parts values => exact parts.modest.snoc rfl
  | cursor owned imported parts accepted => exact parts.modest.snoc rfl
  | getter other free part object read => exact part.modest.addName _ rfl
  | method other free part has parts accepted => exact (part.modest.append parts.modest).snoc rfl
  | cast named part castable => exact part.modest.append (.castOps _ _)

/-- The code of several expressions is modest. -/
theorem LowersAll.modest {scope : UnitScope} {locals : Locals} {start : Nat} {pools next : Pools}
    {terms : List Term} {types : List Ty} {ops : List Op}
    (rules : LowersAll scope locals start pools terms types ops next) : Modest pools ops next := by
  cases rules with
  | nil => exact .nil _
  | cons head tail => exact head.modest.append tail.modest

end

/-! ## Code of statements -/

mutual

/-- The statement assigns to no field. -/
def Stmt.IsStill : Stmt → Prop
  | .setField .. => False
  | .branch _ _ thenBlock => Stmt.AreStill thenBlock
  | .choose _ _ thenBlock elseBlock => Stmt.AreStill thenBlock ∧ Stmt.AreStill elseBlock
  | .loop _ _ body => Stmt.AreStill body
  | _ => True

/-- The statements assign to no field. -/
def Stmt.AreStill : List Stmt → Prop
  | [] => True
  | statement :: rest => statement.IsStill ∧ Stmt.AreStill rest

end

/-- Statements assign to no field when none of them does. -/
theorem Stmt.areStill_iff {statements : List Stmt} :
    Stmt.AreStill statements ↔ ∀ statement ∈ statements, statement.IsStill := by
  induction statements with
  | nil => simp [Stmt.AreStill]
  | cons statement rest step => rw [Stmt.AreStill, step, List.forall_mem_cons]

mutual

/-- Statements add constants that hold no object. -/
theorem LowersStmt.data {scope : RoutineScope} {start : Nat} {locals : Locals} {pools : Pools}
    {statement : Stmt} {block : LoweredBlock}
    (rule : LowersStmt scope start locals pools statement block) (before : pools.AreData) :
    block.pools.AreData := by
  match rule with
  | .declare named part assignable fresh => exact part.modest.constants before
  | .setField found part assignable => exact part.modest.constants before
  | .setLocal found part assignable => exact part.modest.constants before
  | .branch part truth thenPlace thenPart => exact thenPart.data (part.modest.constants before)
  | .choose part truth thenPlace thenPart elsePlace elsePart =>
    exact elsePart.data (thenPart.data (part.modest.constants before))
  | .loop part truth bodyPlace bodyPart endPlace =>
    exact bodyPart.data (part.modest.constants before)
  | .proceed inside => exact before
  | .leave inside => exact before
  | .finish without => exact before
  | .answer wanted part assignable => exact part.modest.constants before
  | .perform called part => exact part.modest.constants before

/-- Statements one after another add constants that hold no object. -/
theorem LowersBlock.data {scope : RoutineScope} {start : Nat} {locals : Locals} {pools : Pools}
    {statements : List Stmt} {block : LoweredBlock}
    (rules : LowersBlock scope start locals pools statements block) (before : pools.AreData) :
    block.pools.AreData := by
  match rules with
  | .nil => exact before
  | .cons head tail => exact tail.data (head.data before)

end

/-- The code sets no field. -/
def Piece.AreStill (pieces : List Piece) : Prop :=
  ∀ piece ∈ pieces, piece.instruction.setsField = false

namespace Piece

variable {first second : List Piece}

/-- Code one after another. -/
theorem AreStill.append (left : AreStill first) (right : AreStill second) :
    AreStill (first ++ second) :=
  List.forall_mem_append.2 ⟨left, right⟩

/-- One instruction. -/
theorem AreStill.single {piece : Piece} (still : piece.instruction.setsField = false) :
    AreStill [piece] :=
  List.forall_mem_singleton.2 still

/-- Code of which the end is known. -/
theorem AreStill.close (still : AreStill first) (loopEnd : Nat) :
    AreStill (first.map (Piece.close loopEnd)) := by
  intro piece member
  obtain ⟨inner, inside, rfl⟩ := List.mem_map.1 member
  cases inner with
  | op instruction => exact still _ inside
  | leave => rfl

end Piece

/-- The code of an expression sets no field. -/
theorem Lowers.still {scope : UnitScope} {locals : Locals} {start : Nat} {pools : Pools}
    {term : Term} {lowered : Lowered} (rule : Lowers scope locals start pools term lowered) :
    Piece.AreStill lowered.pieces := by
  intro piece member
  obtain ⟨op, inside, rfl⟩ := List.mem_map.1 member
  exact rule.modest.still op inside

mutual

/-- A statement that assigns to no field has code that sets none. -/
theorem LowersStmt.still {scope : RoutineScope} {start : Nat} {locals : Locals} {pools : Pools}
    {statement : Stmt} {block : LoweredBlock}
    (rule : LowersStmt scope start locals pools statement block) (still : statement.IsStill) :
    Piece.AreStill block.pieces := by
  match rule with
  | .declare named part assignable fresh => exact part.still.append (.single rfl)
  | .setField found part assignable => exact still.elim
  | .setLocal found part assignable => exact part.still.append (.single rfl)
  | .branch part truth thenPlace thenPart =>
    exact (part.still.append (.single rfl)).append (thenPart.still still)
  | .choose part truth thenPlace thenPart elsePlace elsePart =>
    exact (((part.still.append (.single rfl)).append (thenPart.still still.1)).append
      (.single rfl)).append (elsePart.still still.2)
  | .loop part truth bodyPlace bodyPart endPlace =>
    exact ((part.still.append (.single rfl)).append ((bodyPart.still still).close _)).append
      (.single rfl)
  | .proceed inside => exact .single rfl
  | .leave inside => exact .single rfl
  | .finish without => exact .single rfl
  | .answer wanted part assignable => exact part.still.append (.single rfl)
  | .perform called part =>
    refine part.still.append ?_
    split
    · exact List.forall_mem_nil _
    · exact .single rfl

/-- Statements that assign to no field have code that sets none. -/
theorem LowersBlock.still {scope : RoutineScope} {start : Nat} {locals : Locals} {pools : Pools}
    {statements : List Stmt} {block : LoweredBlock}
    (rules : LowersBlock scope start locals pools statements block)
    (still : Stmt.AreStill statements) : Piece.AreStill block.pieces := by
  match rules with
  | .nil => exact List.forall_mem_nil _
  | .cons head tail => exact (head.still still.1).append (tail.still still.2)

end

/-! ## Routines -/

/-- A routine whose statements assign to no field sets none. -/
theorem RoutineRule.isStill {scope : UnitScope} {pools next : Pools} {decl : RoutineDecl}
    {signature : Signature} {routine : Routine}
    (rule : RoutineRule scope pools decl signature routine next)
    (still : Stmt.AreStill decl.body) : routine.IsStill := by
  obtain ⟨-, locals, block, last, -, body, -, rfl, ending⟩ := rule
  refine List.forall_mem_append.2 ⟨fun op member => ?_, List.forall_mem_singleton.2 ?_⟩
  · obtain ⟨piece, inside, rfl⟩ := List.mem_map.1 member
    exact body.still still piece inside
  · rcases ending with ⟨-, rfl⟩ | ⟨-, -, rfl⟩ <;> rfl

/-- A routine without parameters whose first statement clears the batch does so first. -/
theorem RoutineRule.clears {scope : UnitScope} {pools next : Pools} {decl : RoutineDecl}
    {signature : Signature} {routine : Routine} {position place own : Position} {rest : List Stmt}
    (rule : RoutineRule scope pools decl signature routine next) (alone : decl.params = [])
    (first : decl.body = .perform position (.call place (.this own) "clearBatch" []) :: rest) :
    routine.Clears := by
  obtain ⟨-, locals, block, last, -, body, -, rfl, -⟩ := rule
  rw [first] at body
  refine ⟨?_, by simp [alone]⟩
  cases body with
  | cons head tail =>
    cases head with
    | perform called part =>
      have lowered := lowerTerm_eq_ok_iff.2 part
      simp only [lowerTerm, Term.isThis] at lowered
      cases lowered
      rfl

/-- Accepted routines add constants that hold no object. -/
theorem lowerRoutines_data {scope : UnitScope} {pools next : Pools} {done routines : List Routine}
    {decls : List RoutineDecl}
    (accepted : lowerRoutines scope pools done decls = .ok (routines, next))
    (before : pools.AreData) : next.AreData := by
  induction decls generalizing pools done with
  | nil =>
    cases accepted
    exact before
  | cons decl rest step =>
    simp only [lowerRoutines] at accepted
    split at accepted
    · cases accepted
    split at accepted
    · cases accepted
    obtain ⟨⟨routine, between⟩, first, further⟩ := bind_eq_ok_iff.1 accepted
    obtain ⟨-, locals, block, last, -, body, rfl, -, -⟩ := routineRule_of_lowerRoutine first
    exact step further (body.data before)

/-- The constants of an accepted unit hold no object of the engine. -/
theorem lowerUnit_data {source : SourceUnit} {qualifiedName : String} {unit : CompiledUnit}
    (accepted : lowerUnit source qualifiedName = .ok unit) :
    ∀ constant ∈ unit.constants, constant.IsData := by
  obtain ⟨scope, routines, pools, -, lowered, -, -, -, -, -, -, constants, -⟩ :=
    lowerUnit_eq_ok_iff.1 accepted
  rw [constants]
  exact lowerRoutines_data lowered (List.forall_mem_nil _)

end QueryFusion.Script
