import QueryFusion.Proofs.Script.Locals

/-!
# Statements and their code

The code of accepted statements follows their execution on the tree: it goes on behind them, at the
start or the end of the innermost loop, or ends the run, and the slots of the frame keep mirroring
the locals of the tree. Where the execution on the tree runs out of fuel, the run on the code lasts
at least as long.
-/

namespace QueryFusion.Script

variable {unit : CompiledUnit} {routine : Routine}

/-- An effect in two parts, and what follows it. -/
theorem andThen_bind {α β γ : Type} (first : Effect α) (second : α → Effect β) (memory : Memory)
    (next : β → Memory → Step Memory γ) :
    Step.andThen (some ((first >>= second) memory)) next =
      Step.andThen (some (first memory)) fun result changed =>
        Step.andThen (some (second result changed)) next := by
  cases outcome : first memory with
  | mk result changed =>
    cases result with
    | error error =>
      rw [Effect.bind_apply_error outcome]
      rfl
    | ok result =>
      rw [Effect.bind_apply_ok outcome]
      rfl

/-! ## Ways to end -/

/-- Where the code of statements goes on, and what holds there. -/
structure Exits where
  /-- The locals visible at the start of the statements. -/
  outer : Locals
  /-- The place behind the statements. -/
  next : Nat
  /-- The locals visible behind the statements. -/
  after : Locals
  loopStart : Option Nat
  loopEnd : Nat
  returnType : Ty
  /-- The number of slots of the frame. -/
  size : Nat
  /-- The stack between statements. -/
  stack : List Slot

/-- The slot is a result of the type; a routine without a result ends with an unset slot. -/
def Answers (returnType : Ty) (cursorCount : Nat) (slot : Slot) : Prop :=
  (returnType = .void ∧ slot = .unset) ∨ slot.Fits cursorCount returnType

/-- The run from a frame follows an execution of statements on the tree. -/
inductive Ends (unit : CompiledUnit) (routine : Routine) (fuel : Nat) (exits : Exits)
    (frame : Frame) (memory : Memory) : Step Memory (Exit × Env) → Prop
  | lasts (lasting : Endures unit routine fuel frame memory) :
      Ends unit routine fuel exits frame memory none
  | fails {error : Error} {changed : Memory}
      (halts : Halts unit routine frame memory (.error error) changed)
      (follows : Follows unit.fields memory changed) (foreseen : Foreseen error) :
      Ends unit routine fuel exits frame memory (some (.error error, changed))
  | through {slots : List Slot} {env : Env} {changed : Memory}
      (reaches : Reaches unit routine frame memory ⟨exits.next, slots, exits.stack⟩ changed)
      (size : slots.length = exits.size) (follows : Follows unit.fields memory changed)
      (mirrors : Mirrors exits.after slots changed.cursors.length env) :
      Ends unit routine fuel exits frame memory (some (.ok (.through, env), changed))
  | proceed {slots : List Slot} {env : Env} {changed : Memory} {place : Nat} {inner : Locals}
      (inside : exits.loopStart = some place)
      (reaches : Reaches unit routine frame memory ⟨place, slots, exits.stack⟩ changed)
      (size : slots.length = exits.size) (follows : Follows unit.fields memory changed)
      (extended : inner.Extends exits.outer)
      (mirrors : Mirrors inner slots changed.cursors.length env) :
      Ends unit routine fuel exits frame memory (some (.ok (.proceed, env), changed))
  | leave {slots : List Slot} {env : Env} {changed : Memory} {place : Nat} {inner : Locals}
      (inside : exits.loopStart = some place)
      (reaches : Reaches unit routine frame memory ⟨exits.loopEnd, slots, exits.stack⟩ changed)
      (size : slots.length = exits.size) (follows : Follows unit.fields memory changed)
      (extended : inner.Extends exits.outer)
      (mirrors : Mirrors inner slots changed.cursors.length env) :
      Ends unit routine fuel exits frame memory (some (.ok (.leave, env), changed))
  | answer {slot : Slot} {env : Env} {changed : Memory}
      (halts : Halts unit routine frame memory (.ok slot) changed)
      (follows : Follows unit.fields memory changed)
      (typed : Answers exits.returnType changed.cursors.length slot) :
      Ends unit routine fuel exits frame memory (some (.ok (.answer slot, env), changed))

namespace Ends

variable {fuel : Nat} {exits : Exits} {frame : Frame} {memory : Memory}
  {outcome : Step Memory (Exit × Env)}

/-- What stands before a place that is reached. -/
theorem after {first : Frame} {before : Memory}
    (part : Reaches unit routine first before frame memory)
    (follows : Follows unit.fields before memory)
    (rest : Ends unit routine fuel exits frame memory outcome) :
    Ends unit routine fuel exits first before outcome := by
  cases rest with
  | lasts lasting => exact .lasts (part.endures lasting)
  | fails halts further foreseen => exact .fails (part.halts halts) (follows.trans further) foreseen
  | through reaches size further mirrors =>
    exact .through (part.trans reaches) size (follows.trans further) mirrors
  | proceed inside reaches size further extended mirrors =>
    exact .proceed inside (part.trans reaches) size (follows.trans further) extended mirrors
  | leave inside reaches size further extended mirrors =>
    exact .leave inside (part.trans reaches) size (follows.trans further) extended mirrors
  | answer halts further typed => exact .answer (part.halts halts) (follows.trans further) typed

/-- A step makes the run last for one more unit of fuel. -/
theorem step {next : Frame} {changed : Memory} {op : Op}
    (present : routine.ops[frame.counter]? = some op)
    (done : execute unit routine.name { frame with counter := frame.counter + 1 } memory op =
      .ok (.proceed next, changed))
    (follows : Follows unit.fields memory changed)
    (rest : Ends unit routine fuel exits next changed outcome) :
    Ends unit routine (fuel + 1) exits frame memory outcome := by
  have part : Reaches unit routine frame memory next changed := .step present done
  cases rest with
  | lasts lasting => exact .lasts (.step present done lasting)
  | fails halts further foreseen => exact .fails (part.halts halts) (follows.trans further) foreseen
  | through reaches size further mirrors =>
    exact .through (part.trans reaches) size (follows.trans further) mirrors
  | proceed inside reaches size further extended mirrors =>
    exact .proceed inside (part.trans reaches) size (follows.trans further) extended mirrors
  | leave inside reaches size further extended mirrors =>
    exact .leave inside (part.trans reaches) size (follows.trans further) extended mirrors
  | answer halts further typed => exact .answer (part.halts halts) (follows.trans further) typed

/-- Less fuel is used up sooner. -/
theorem of_le {less : Nat} (rest : Ends unit routine fuel exits frame memory outcome)
    (bound : less ≤ fuel) : Ends unit routine less exits frame memory outcome := by
  cases rest with
  | lasts lasting => exact .lasts (lasting.of_le bound)
  | fails halts further foreseen => exact .fails halts further foreseen
  | through reaches size further mirrors => exact .through reaches size further mirrors
  | proceed inside reaches size further extended mirrors =>
    exact .proceed inside reaches size further extended mirrors
  | leave inside reaches size further extended mirrors =>
    exact .leave inside reaches size further extended mirrors
  | answer halts further typed => exact .answer halts further typed

/-- A run that lasts for one more unit of fuel. -/
theorem of_succ (rest : Ends unit routine (fuel + 1) exits frame memory outcome) :
    Ends unit routine fuel exits frame memory outcome :=
  rest.of_le (Nat.le_succ fuel)

/-- Statements behind an expression. -/
theorem bind {α : Type} {arrival : α → Frame} {good : Nat → α → Prop}
    {result : Except Error α × Memory} {next : α → Memory → Step Memory (Exit × Env)}
    (part : Computes unit routine frame memory arrival good result)
    (rest : ∀ value changed, Follows unit.fields memory changed →
      good changed.cursors.length value →
        Ends unit routine fuel exits (arrival value) changed (next value changed)) :
    Ends unit routine fuel exits frame memory (Step.andThen (some result) next) := by
  obtain ⟨error | value, changed⟩ := result
  · exact .fails part.1 part.2.1 part.2.2
  · exact (rest value changed part.2.1 part.2.2).after part.1 part.2.1

/-- Statements behind a condition, which takes at least one step. -/
theorem condition {locals : Locals} {start target : Nat} {ops : List Op} {slots stack : List Slot}
    {env : Env} {term : Term} {next : Bool → Memory → Step Memory (Exit × Env)}
    (part : Realizes unit locals start ops .boolean (fun env => evalTerm unit env term))
    (code : CodeAt routine.ops start (ops ++ [Op.jumpIfFalse target]))
    (mirrors : Mirrors locals slots memory.cursors.length env) (fits : memory.Fits unit.fields)
    (rest : ∀ truth changed, Follows unit.fields memory changed →
      Ends unit routine fuel exits
        ⟨if truth then start + ops.length + 1 else target, slots, stack⟩ changed
        (next truth changed)) :
    Ends unit routine (fuel + 1) exits ⟨start, slots, stack⟩ memory
      (Step.andThen (some (testTerm unit env term memory)) next) := by
  unfold testTerm
  rw [andThen_bind]
  refine .bind (part.computes code.left mirrors fits) fun slot changed follows typed => ?_
  have jump := @(JumpsUnless.jumpIfFalse target).jumps unit routine.name
    ⟨start + ops.length + 1, slots, slot :: stack⟩ changed slot stack rfl
  rcases truthOf_cases typed "condition" with ⟨truth, -, found⟩ | failed
  · rw [found] at jump
    rw [Effect.ofExcept_apply, found]
    exact .step code.right.head jump follows.fits.follows (rest truth changed follows)
  · rw [failed] at jump
    rw [Effect.ofExcept_apply, failed]
    exact .fails (.error code.right.head jump) follows.fits.follows (.of_isInternal rfl)

/-- Statements seen from a place before, where fewer locals are visible. -/
theorem widen {inner : Locals}
    (part : Ends unit routine fuel { exits with outer := inner } frame memory outcome)
    (extended : inner.Extends exits.outer) :
    Ends unit routine fuel exits frame memory outcome := by
  cases part with
  | lasts lasting => exact .lasts lasting
  | fails halts further foreseen => exact .fails halts further foreseen
  | through reaches size further mirrors => exact .through reaches size further mirrors
  | proceed inside reaches size further deeper mirrors =>
    exact .proceed inside reaches size further (deeper.trans extended) mirrors
  | leave inside reaches size further deeper mirrors =>
    exact .leave inside reaches size further (deeper.trans extended) mirrors
  | answer halts further typed => exact .answer halts further typed

/-- Statements with a jump behind them. -/
theorem jump {between : Nat}
    (part : Ends unit routine fuel { exits with next := between } frame memory outcome)
    (present : routine.ops[between]? = some (.jump exits.next)) :
    Ends unit routine fuel exits frame memory outcome := by
  cases part with
  | lasts lasting => exact .lasts lasting
  | fails halts further foreseen => exact .fails halts further foreseen
  | @through slots env changed reaches size further mirrors =>
    exact .through (reaches.trans (.jump present changed)) size further mirrors
  | proceed inside reaches size further deeper mirrors =>
    exact .proceed inside reaches size further deeper mirrors
  | leave inside reaches size further deeper mirrors =>
    exact .leave inside reaches size further deeper mirrors
  | answer halts further typed => exact .answer halts further typed

/-- Statements in braces: what they declare is hidden behind them. -/
theorem braces {inner : Locals} {types : List Ty} {env : Env}
    (part : Ends unit routine fuel { exits with after := inner } frame memory outcome)
    (extended : inner.Extends exits.outer) (valid : exits.outer.Valid)
    (size : exits.outer.visible.length = env.length)
    (hidden : exits.after = ⟨exits.outer.visible, types⟩) (more : exits.outer.types <+: types) :
    Ends unit routine fuel exits frame memory
      (Step.andThen outcome fun (exit, last) changed =>
        some (.ok (exit, last.restore env), changed)) := by
  cases part with
  | lasts lasting => exact .lasts lasting
  | fails halts further foreseen => exact .fails halts further foreseen
  | through reaches sized further mirrors =>
    refine .through reaches sized further ?_
    rw [hidden]
    exact (mirrors.restore extended valid size).grow more
  | proceed inside reaches sized further deeper mirrors =>
    exact .proceed inside reaches sized further (.refl _) (mirrors.restore deeper valid size)
  | leave inside reaches sized further deeper mirrors =>
    exact .leave inside reaches sized further (.refl _) (mirrors.restore deeper valid size)
  | answer halts further typed => exact .answer halts further typed

/-- One statement, and others behind it. -/
theorem sequence {between : Nat} {locals : Locals} {first : Step Memory (Exit × Env)}
    {others : Env → Memory → Step Memory (Exit × Env)}
    (head : Ends unit routine fuel { exits with next := between, after := locals } frame memory
      first)
    (extended : locals.Extends exits.outer)
    (rest : ∀ slots env changed, Follows unit.fields memory changed →
      slots.length = exits.size → Mirrors locals slots changed.cursors.length env →
        Ends unit routine fuel { exits with outer := locals } ⟨between, slots, exits.stack⟩ changed
          (others env changed)) :
    Ends unit routine fuel exits frame memory
      (Step.andThen first fun (exit, next) changed =>
        match exit with
        | .through => others next changed
        | other => some (.ok (other, next), changed)) := by
  cases head with
  | lasts lasting => exact .lasts lasting
  | fails halts follows foreseen => exact .fails halts follows foreseen
  | @through slots env changed reaches size follows mirrors =>
    exact ((rest slots env changed follows size mirrors).widen extended).after reaches follows
  | proceed inside reaches size further inner mirrors =>
    exact .proceed inside reaches size further inner mirrors
  | leave inside reaches size further inner mirrors =>
    exact .leave inside reaches size further inner mirrors
  | answer halts further typed => exact .answer halts further typed

end Ends

/-! ## Pieces of code -/

/-- The instruction of a piece, where the end of the innermost loop is known. -/
def Piece.placed (loopEnd : Nat) : Piece → Op
  | op instruction => instruction
  | leave => .jump loopEnd

/-- The code of an expression has no loop of its own. -/
@[simp] theorem Lowered.pieces_placed (lowered : Lowered) (loopEnd : Nat) :
    lowered.pieces.map (Piece.placed loopEnd) = lowered.ops := by
  unfold Lowered.pieces
  rw [List.map_map]
  exact List.map_id _

@[simp] theorem Lowered.pieces_length (lowered : Lowered) :
    lowered.pieces.length = lowered.ops.length :=
  List.length_map _

/-- The end of a loop is known behind it. -/
@[simp] theorem Piece.close_placed (pieces : List Piece) (inner outer : Nat) :
    (pieces.map (Piece.close inner)).map (Piece.placed outer) =
      pieces.map (Piece.placed inner) := by
  rw [List.map_map]
  refine List.map_congr_left fun piece _ => ?_
  cases piece <;> rfl

/-- The code of statements, placed at the index, follows their execution on the tree. -/
structure Executes (unit : CompiledUnit) (scope : RoutineScope) (start : Nat) (locals : Locals)
    (block : LoweredBlock) (meaning : Nat → Execution) : Prop where
  ends : ∀ {routine : Routine} {slots : List Slot} {memory : Memory} {env : Env}
    (fuel loopEnd : Nat) (stack : List Slot), CodeAt routine.ops start
      (block.pieces.map (Piece.placed loopEnd)) → block.locals.types.length ≤ slots.length →
        Mirrors locals slots memory.cursors.length env → memory.Fits unit.fields →
          Ends unit routine fuel
            ⟨locals, start + block.pieces.length, block.locals, scope.loopStart, loopEnd,
              scope.returnType, slots.length, stack⟩
            ⟨start, slots, stack⟩ memory (meaning fuel env memory)

/-! ## Forms of statements -/

section Forms

variable {scope : RoutineScope} {start : Nat} {locals : Locals} {pools : Pools} {inner : Lowered}
  {value : Term} {position : Position}

/-- Storing into a local. -/
theorem execute_storeLocal {name : String} {counter number : Nat} {slots stack : List Slot}
    {slot : Slot} {memory : Memory} (inside : number < slots.length) :
    execute unit name ⟨counter, slots, slot :: stack⟩ memory (.storeLocal number) =
      .ok (.proceed ⟨counter, slots.set number slot, stack⟩, memory) := by
  simp [execute, pop, setEntry, entryAt, List.getElem?_eq_getElem inside]

/-- Storing into a field. -/
theorem execute_storeField {name : String} {counter index : Nat} {slots stack : List Slot}
    {slot : Slot} {memory : Memory} (inside : index < memory.fields.length) :
    execute unit name ⟨counter, slots, slot :: stack⟩ memory (.storeField index) =
      .ok (.proceed ⟨counter, slots, stack⟩,
        { memory with fields := memory.fields.set index slot }) := by
  simp [execute, pop, setEntry, entryAt, List.getElem?_eq_getElem inside, Frame.withStack]

/-- The declaration of a local. -/
theorem Executes.declare {name : String} {written : TypeName} {declared : Ty}
    (part : Realizes unit locals start inner.ops inner.type (fun env => evalTerm unit env value))
    (assignable : inner.type.isAssignableTo declared = true) (valid : locals.Valid) :
    Executes unit scope start locals
      ⟨inner.pieces ++ [Piece.op (.storeLocal locals.types.length)],
        ⟨(name, locals.types.length) :: locals.visible, locals.types ++ [declared]⟩, pools⟩
      (fun fuel => execStmt unit fuel (.declare position name written value)) := by
  refine ⟨fun fuel loopEnd stack code room mirrors fits => ?_⟩
  simp only [List.map_append, Lowered.pieces_placed, List.map_cons, Piece.placed,
    List.map_nil] at code
  simp only [List.length_append, List.length_singleton] at room
  simp only [execStmt, List.length_append, Lowered.pieces_length, List.length_singleton]
  refine .bind (part.computes code.left mirrors fits) fun slot changed follows typed => ?_
  have inside : locals.types.length < _ := Nat.lt_of_lt_of_le (Nat.lt_succ_self _) room
  refine .through (.step code.right.head (execute_storeLocal inside)) (by simp)
    follows.fits.follows ?_
  exact (mirrors.mono follows.more).declare valid inside (typed.widen assignable) name

/-- The assignment of a local. -/
theorem Executes.setLocal {name : String} {number : Nat} {declared : Ty}
    (part : Realizes unit locals start inner.ops inner.type (fun env => evalTerm unit env value))
    (assignable : inner.type.isAssignableTo declared = true)
    (found : locals.find? name = some (number, declared)) (valid : locals.Valid) :
    Executes unit scope start locals
      ⟨inner.pieces ++ [Piece.op (.storeLocal number)], locals, pools⟩
      (fun fuel => execStmt unit fuel (.setLocal position name value)) := by
  refine ⟨fun fuel loopEnd stack code room mirrors fits => ?_⟩
  simp only [List.map_append, Lowered.pieces_placed, List.map_cons, Piece.placed,
    List.map_nil] at code
  simp only [execStmt, List.length_append, Lowered.pieces_length, List.length_singleton]
  refine .bind (part.computes code.left mirrors fits) fun slot changed follows typed => ?_
  obtain ⟨old, -, present, -⟩ := mirrors.content found
  have inside := (List.getElem?_eq_some_iff.1 present).1
  refine .through (.step code.right.head (execute_storeLocal inside)) (by simp)
    follows.fits.follows ?_
  exact (mirrors.mono follows.more).assign valid.distinct found (typed.widen assignable)

/-- The assignment of a field. -/
theorem Executes.setField {field : String} {index : Nat} {declared : Ty}
    (part : Realizes unit locals start inner.ops inner.type (fun env => evalTerm unit env value))
    (assignable : inner.type.isAssignableTo declared = true)
    (found : scope.unit.field? field = some (index, declared))
    (fields : scope.unit.fields = unit.fields) :
    Executes unit scope start locals
      ⟨inner.pieces ++ [Piece.op (.storeField index)], locals, pools⟩
      (fun fuel => execStmt unit fuel (.setField position field value)) := by
  obtain ⟨place, info, present, rfl⟩ := UnitScope.field?_eq_some found
  rw [fields] at place present
  refine ⟨fun fuel loopEnd stack code room mirrors fits => ?_⟩
  simp only [List.map_append, Lowered.pieces_placed, List.map_cons, Piece.placed,
    List.map_nil] at code
  simp only [execStmt, List.length_append, Lowered.pieces_length, List.length_singleton]
  refine .bind (part.computes code.left mirrors fits) fun slot changed follows typed => ?_
  obtain ⟨old, held, -⟩ := follows.fits.field present
  have inside := (List.getElem?_eq_some_iff.1 held).1
  have written := follows.fits.setField present (typed.widen assignable)
  simp only [writeField, fieldIndex?, place]
  exact .through (.step code.right.head (execute_storeField inside)) rfl written
    (mirrors.mono (Nat.le_trans follows.more written.more))

/-- The end of a routine with a value. -/
theorem Executes.answer
    (part : Realizes unit locals start inner.ops inner.type (fun env => evalTerm unit env value))
    (assignable : inner.type.isAssignableTo scope.returnType = true) :
    Executes unit scope start locals ⟨inner.pieces ++ [Piece.op .answer], locals, pools⟩
      (fun fuel => execStmt unit fuel (.answer position value)) := by
  refine ⟨fun fuel loopEnd stack code room mirrors fits => ?_⟩
  simp only [List.map_append, Lowered.pieces_placed, List.map_cons, Piece.placed,
    List.map_nil] at code
  simp only [execStmt]
  refine .bind (part.computes code.left mirrors fits) fun slot changed follows typed => ?_
  exact .answer (.stop code.right.head rfl) follows.fits.follows (.inr (typed.widen assignable))

/-- The end of a routine without a value. -/
theorem Executes.finish (without : scope.returnType = .void) :
    Executes unit scope start locals ⟨[.op .finish], locals, pools⟩
      (fun fuel => execStmt unit fuel (.finish position)) := by
  refine ⟨fun fuel loopEnd stack code room mirrors fits => ?_⟩
  simp only [execStmt]
  exact .answer (.stop code.head rfl) fits.follows (.inl ⟨without, rfl⟩)

/-- The next round of a loop. -/
theorem Executes.proceed {loopStart : Nat} (inside : scope.loopStart = some loopStart) :
    Executes unit scope start locals ⟨[.op (.jump loopStart)], locals, pools⟩
      (fun fuel => execStmt unit fuel (.proceed position)) := by
  refine ⟨fun fuel loopEnd stack code room mirrors fits => ?_⟩
  simp only [execStmt]
  exact .proceed inside (.jump code.head _) rfl fits.follows (.refl _) mirrors

/-- The end of a loop. -/
theorem Executes.leave {loopStart : Nat} (inside : scope.loopStart = some loopStart) :
    Executes unit scope start locals ⟨[.leave], locals, pools⟩
      (fun fuel => execStmt unit fuel (.leave position)) := by
  refine ⟨fun fuel loopEnd stack code room mirrors fits => ?_⟩
  simp only [execStmt]
  exact .leave inside (.jump code.head _) rfl fits.follows (.refl _) mirrors

/-- A call for its effect. -/
theorem Executes.perform
    (part : Realizes unit locals start inner.ops inner.type (fun env => evalTerm unit env value)) :
    Executes unit scope start locals ⟨inner.pieces ++ [Piece.op .pop], locals, pools⟩
      (fun fuel => execStmt unit fuel (.perform position value)) := by
  refine ⟨fun fuel loopEnd stack code room mirrors fits => ?_⟩
  simp only [List.map_append, Lowered.pieces_placed, List.map_cons, Piece.placed,
    List.map_nil] at code
  simp only [execStmt, List.length_append, Lowered.pieces_length, List.length_singleton]
  refine .bind (part.computes code.left mirrors fits) fun slot changed follows typed => ?_
  exact .through (.step code.right.head rfl) rfl follows.fits.follows (mirrors.mono follows.more)

/-- Clearing the batch. -/
theorem Executes.clear {place self : Position} :
    Executes unit scope start locals ⟨[.op .clearBatch], locals, pools⟩
      (fun fuel => execStmt unit fuel
        (.perform position (.call place (.this self) "clearBatch" []))) := by
  refine ⟨fun fuel loopEnd stack code room mirrors fits => ?_⟩
  simp only [execStmt, evalTerm, Term.isThis, if_true]
  exact .through (.step code.head rfl) rfl (fits.withBatch _) mirrors

/-- Statements in braces, as a part of a longer one. -/
theorem Executes.braces {block : LoweredBlock} {statements : List Stmt} {slots stack : List Slot}
    {memory : Memory} {env : Env} {types : List Ty} {fuel loopEnd : Nat}
    (part : Executes unit scope start locals block (fun fuel => execStmts unit fuel statements))
    (extended : block.locals.Extends locals) (valid : locals.Valid)
    (code : CodeAt routine.ops start (block.pieces.map (Piece.placed loopEnd)))
    (room : block.locals.types.length ≤ slots.length)
    (mirrors : Mirrors locals slots memory.cursors.length env) (fits : memory.Fits unit.fields)
    (more : locals.types <+: types) :
    Ends unit routine fuel
      ⟨locals, start + block.pieces.length, ⟨locals.visible, types⟩, scope.loopStart, loopEnd,
        scope.returnType, slots.length, stack⟩
      ⟨start, slots, stack⟩ memory (inBraces (execStmts unit fuel statements) env memory) :=
  .braces (part.ends fuel loopEnd stack code room mirrors fits) extended valid
    mirrors.length_eq rfl more

/-- A condition without an alternative. -/
theorem Executes.branch {condition : Term} {thenBlock : List Stmt} {test : Lowered}
    {first : LoweredBlock} {thenStart : Nat}
    (part : Realizes unit locals start test.ops .boolean (fun env => evalTerm unit env condition))
    (thenPlace : thenStart = start + test.ops.length + 1)
    (thenPart : Executes unit scope thenStart locals first
      (fun fuel => execStmts unit fuel thenBlock))
    (extended : first.locals.Extends locals) (valid : locals.Valid) :
    Executes unit scope start locals
      ⟨test.pieces ++ [Piece.op (.jumpIfFalse (thenStart + first.pieces.length))] ++ first.pieces,
        ⟨locals.visible, first.locals.types⟩, pools⟩
      (fun fuel => execStmt unit fuel (.branch position condition thenBlock)) := by
  refine ⟨fun fuel loopEnd stack code room mirrors fits => ?_⟩
  simp only [List.map_append, Lowered.pieces_placed, List.map_cons, Piece.placed,
    List.map_nil] at code
  have thenCode := code.right
  rw [List.length_append, List.length_singleton, ← Nat.add_assoc, ← thenPlace] at thenCode
  have size : start + (test.pieces ++ [Piece.op (.jumpIfFalse (thenStart + first.pieces.length))] ++
      first.pieces).length = thenStart + first.pieces.length := by
    simp only [List.length_append, Lowered.pieces_length, List.length_singleton]
    omega
  simp only [execStmt, size]
  refine .of_succ (.condition part code.left mirrors fits fun truth changed follows => ?_)
  cases truth with
  | true =>
    simp only [if_true, ← thenPlace]
    exact thenPart.braces extended valid thenCode room (mirrors.mono follows.more) follows.fits
      extended.types
  | false =>
    exact .through (.refl _ _) rfl follows.fits.follows
      ((mirrors.mono follows.more).grow extended.types)

/-- A condition with an alternative. -/
theorem Executes.choose {condition : Term} {thenBlock elseBlock : List Stmt} {test : Lowered}
    {first second : LoweredBlock} {thenStart elseStart : Nat}
    (part : Realizes unit locals start test.ops .boolean (fun env => evalTerm unit env condition))
    (thenPlace : thenStart = start + test.ops.length + 1)
    (thenPart : Executes unit scope thenStart locals first
      (fun fuel => execStmts unit fuel thenBlock))
    (extended : first.locals.Extends locals)
    (elsePlace : elseStart = thenStart + first.pieces.length + 1)
    (elsePart : Executes unit scope elseStart ⟨locals.visible, first.locals.types⟩ second
      (fun fuel => execStmts unit fuel elseBlock))
    (further : second.locals.Extends ⟨locals.visible, first.locals.types⟩)
    (valid : locals.Valid) :
    Executes unit scope start locals
      ⟨test.pieces ++ [Piece.op (.jumpIfFalse elseStart)] ++ first.pieces ++
        [Piece.op (.jump (elseStart + second.pieces.length))] ++ second.pieces,
        ⟨locals.visible, second.locals.types⟩, pools⟩
      (fun fuel => execStmt unit fuel (.choose position condition thenBlock elseBlock)) := by
  refine ⟨fun fuel loopEnd stack code room mirrors fits => ?_⟩
  simp only [List.map_append, Lowered.pieces_placed, List.map_cons, Piece.placed,
    List.map_nil] at code
  have thenCode := code.left.left.right
  rw [List.length_append, List.length_singleton, ← Nat.add_assoc, ← thenPlace] at thenCode
  have jumpCode := code.left.right.head
  rw [List.length_append, List.length_append, List.length_singleton, List.length_map,
    ← Nat.add_assoc, ← Nat.add_assoc, ← thenPlace] at jumpCode
  have elseCode := code.right
  rw [List.length_append, List.length_append, List.length_append, List.length_singleton,
    List.length_singleton, List.length_map, ← Nat.add_assoc, ← Nat.add_assoc, ← Nat.add_assoc,
    ← thenPlace, ← elsePlace] at elseCode
  have size : start + (test.pieces ++ [Piece.op (.jumpIfFalse elseStart)] ++ first.pieces ++
      [Piece.op (.jump (elseStart + second.pieces.length))] ++ second.pieces).length =
        elseStart + second.pieces.length := by
    simp only [List.length_append, Lowered.pieces_length, List.length_singleton]
    omega
  simp only [execStmt, size]
  refine .of_succ (.condition part code.left.left.left mirrors fits fun truth changed follows => ?_)
  have mirrors := mirrors.mono follows.more
  cases truth with
  | true =>
    simp only [if_true, ← thenPlace]
    exact .jump (thenPart.braces extended valid thenCode (Nat.le_trans further.types.length_le room)
      mirrors follows.fits (extended.types.trans further.types)) jumpCode
  | false =>
    exact .widen (elsePart.braces further (valid.hide extended) elseCode room
      (mirrors.grow extended.types) follows.fits further.types) extended.hide

/-- The rounds of a loop. -/
theorem Executes.rounds {condition : Term} {body : List Stmt} {test : Lowered}
    {inner : LoweredBlock} {bodyStart loopEnd : Nat}
    (part : Realizes unit locals start test.ops .boolean (fun env => evalTerm unit env condition))
    (bodyPlace : bodyStart = start + test.ops.length + 1)
    (bodyPart : Executes unit { scope with loopStart := some start } bodyStart locals inner
      (fun fuel => execStmts unit fuel body))
    (extended : inner.locals.Extends locals) (valid : locals.Valid) {stack : List Slot}
    (testCode : CodeAt routine.ops start (test.ops ++ [Op.jumpIfFalse loopEnd]))
    (bodyCode : CodeAt routine.ops bodyStart (inner.pieces.map (Piece.placed loopEnd)))
    (jumpCode : routine.ops[bodyStart + inner.pieces.length]? = some (.jump start))
    {size : Nat} (room : inner.locals.types.length ≤ size) {exits : Exits}
    (same : exits = ⟨locals, loopEnd, ⟨locals.visible, inner.locals.types⟩, scope.loopStart,
      exits.loopEnd, scope.returnType, size, stack⟩)
    (fuel : Nat) : ∀ (count : Nat) {slots : List Slot} {memory : Memory} {env : Env},
      count ≤ fuel → slots.length = size → Mirrors locals slots memory.cursors.length env →
        memory.Fits unit.fields →
          Ends unit routine count exits ⟨start, slots, stack⟩ memory
            (Script.rounds (fun env => testTerm unit env condition)
              (inBraces (execStmts unit fuel body)) count env memory) := by
  intro count
  induction count with
  | zero =>
    intro slots memory env bound sized mirrors fits
    exact .lasts rfl
  | succ count step =>
    intro slots memory env bound sized mirrors fits
    simp only [Script.rounds]
    refine .condition part testCode mirrors fits fun truth changed follows => ?_
    have mirrors := mirrors.mono follows.more
    cases truth with
    | false =>
      simp only [Bool.false_eq_true, if_false]
      rw [same]
      exact .through (.refl _ _) sized follows.fits.follows (mirrors.grow extended.types)
    | true =>
      simp only [if_true, ← bodyPlace]
      have round := bodyPart.ends fuel loopEnd stack bodyCode (sized ▸ room) mirrors follows.fits
      have shorter : count ≤ fuel := Nat.le_of_succ_le bound
      have visible := mirrors.length_eq
      unfold inBraces
      generalize execStmts unit fuel body env changed = outcome at round ⊢
      -- the locals of a round are hidden at its end, however it ends
      cases round with
      | lasts lasting => exact .lasts (lasting.of_le shorter)
      | fails halts further foreseen => exact .fails halts further foreseen
      | @through after next final reaches kept further held =>
        have again := reaches.trans (.jump jumpCode final)
        have held := held.restore extended valid visible
        exact (step shorter (kept.trans sized) held further.fits).after again further
      | proceed inside reaches kept further deeper held =>
        cases inside
        have held := held.restore deeper valid visible
        exact (step shorter (kept.trans sized) held further.fits).after reaches further
      | leave inside reaches kept further deeper held =>
        have held := held.restore deeper valid visible
        rw [same]
        exact .through reaches (kept.trans sized) further (held.grow extended.types)
      | answer halts further typed =>
        rw [same]
        exact .answer halts further typed

/-- A loop. -/
theorem Executes.loop {condition : Term} {body : List Stmt} {test : Lowered}
    {inner : LoweredBlock} {bodyStart loopEnd : Nat}
    (part : Realizes unit locals start test.ops .boolean (fun env => evalTerm unit env condition))
    (bodyPlace : bodyStart = start + test.ops.length + 1)
    (bodyPart : Executes unit { scope with loopStart := some start } bodyStart locals inner
      (fun fuel => execStmts unit fuel body))
    (endPlace : loopEnd = bodyStart + inner.pieces.length + 1)
    (extended : inner.locals.Extends locals) (valid : locals.Valid) :
    Executes unit scope start locals
      ⟨test.pieces ++ [Piece.op (.jumpIfFalse loopEnd)] ++ inner.pieces.map (Piece.close loopEnd) ++
        [Piece.op (.jump start)], ⟨locals.visible, inner.locals.types⟩, pools⟩
      (fun fuel => execStmt unit fuel (.loop position condition body)) := by
  refine ⟨fun fuel outerEnd stack code room mirrors fits => ?_⟩
  simp only [List.map_append, Lowered.pieces_placed, List.map_cons, Piece.placed, List.map_nil,
    Piece.close_placed] at code
  have bodyCode := code.left.right
  rw [List.length_append, List.length_singleton, ← Nat.add_assoc, ← bodyPlace] at bodyCode
  have jumpCode := code.right.head
  rw [List.length_append, List.length_append, List.length_singleton, List.length_map,
    ← Nat.add_assoc, ← Nat.add_assoc, ← bodyPlace] at jumpCode
  have size : start + (test.pieces ++ [Piece.op (.jumpIfFalse loopEnd)] ++
      inner.pieces.map (Piece.close loopEnd) ++ [Piece.op (.jump start)]).length = loopEnd := by
    simp only [List.length_append, Lowered.pieces_length, List.length_singleton, List.length_map]
    omega
  simp only [execStmt, size]
  exact Executes.rounds part bodyPlace bodyPart extended valid code.left.left bodyCode
    jumpCode room rfl fuel fuel (Nat.le_refl _) rfl mirrors fits

/-- No statements. -/
theorem Executes.nil :
    Executes unit scope start locals ⟨[], locals, pools⟩ (fun fuel => execStmts unit fuel []) := by
  refine ⟨fun fuel loopEnd stack code room mirrors fits => ?_⟩
  simp only [execStmts]
  exact .through (.refl _ _) rfl fits.follows mirrors

/-- Statements one after another. -/
theorem Executes.cons {statement : Stmt} {rest : List Stmt} {first others : LoweredBlock}
    (head : Executes unit scope start locals first (fun fuel => execStmt unit fuel statement))
    (extended : first.locals.Extends locals)
    (tail : Executes unit scope (start + first.pieces.length) first.locals others
      (fun fuel => execStmts unit fuel rest))
    (further : others.locals.Extends first.locals) :
    Executes unit scope start locals
      ⟨first.pieces ++ others.pieces, others.locals, others.pools⟩
      (fun fuel => execStmts unit fuel (statement :: rest)) := by
  refine ⟨fun fuel loopEnd stack code room mirrors fits => ?_⟩
  rw [List.map_append] at code
  have restCode := code.right
  rw [List.length_map] at restCode
  simp only [execStmts, List.length_append, ← Nat.add_assoc]
  refine .sequence (head.ends fuel loopEnd stack code.left
    (Nat.le_trans further.types.length_le room) mirrors fits) extended
      fun slots env changed follows sized held => ?_
  have last := tail.ends fuel loopEnd stack restCode (sized ▸ room) held follows.fits
  rwa [sized] at last

end Forms

/-! ## All statements -/

/-- A call without a result clears the batch. -/
theorem Lowers.eq_clear {scope : UnitScope} {locals : Locals} {start : Nat} {pools : Pools}
    {value : Term} {inner : Lowered} (part : Lowers scope locals start pools value inner)
    (called : value.isCall = true) (empty : inner.type = .void) :
    ∃ place self, value = .call place (.this self) "clearBatch" [] ∧
      inner = ⟨.void, [.clearBatch], pools⟩ := by
  cases part with
  | clear => exact ⟨_, _, rfl, rfl⟩
  | method other free receiver has parts accepted =>
    exact absurd empty (methodOf?_name has).2.2
  | add | row | cursor | getter => cases empty
  | literal same =>
    unfold literal? at same
    split at same <;> first | cases called | cases same
  | _ => cases called

mutual

/-- The code of an accepted statement follows its execution on the tree. -/
theorem LowersStmt.executes {scope : RoutineScope} {start : Nat} {locals : Locals} {pools : Pools}
    {statement : Stmt} {block : LoweredBlock}
    (rule : LowersStmt scope start locals pools statement block)
    (fields : scope.unit.fields = unit.fields) (within : block.pools.Within unit)
    (valid : locals.Valid) :
    Executes unit scope start locals block (fun fuel => execStmt unit fuel statement) := by
  match rule with
  | .declare named part assignable fresh =>
    have inner := part.realizes fields within (Ty.isAssignableTo_ne_void assignable)
    exact .declare inner assignable valid
  | .setField found part assignable =>
    have inner := part.realizes fields within (Ty.isAssignableTo_ne_void assignable)
    exact .setField inner assignable found fields
  | .setLocal found part assignable =>
    have inner := part.realizes fields within (Ty.isAssignableTo_ne_void assignable)
    exact .setLocal inner assignable found valid
  | .branch part truth thenPlace thenPart =>
    have test := part.realizes fields (thenPart.within within) (by simp [truth])
    rw [truth] at test
    exact .branch test thenPlace (thenPart.executes fields within valid)
      (thenPart.locals_extend valid).1 valid
  | .choose part truth thenPlace thenPart elsePlace elsePart =>
    have thenWithin := elsePart.within within
    have test := part.realizes fields (thenPart.within thenWithin) (by simp [truth])
    rw [truth] at test
    have extended := (thenPart.locals_extend valid).1
    have hidden := valid.hide extended
    exact .choose test thenPlace (thenPart.executes fields thenWithin valid) extended elsePlace
      (elsePart.executes fields within hidden) (elsePart.locals_extend hidden).1 valid
  | .loop part truth bodyPlace bodyPart endPlace =>
    have test := part.realizes fields (bodyPart.within within) (by simp [truth])
    rw [truth] at test
    exact .loop test bodyPlace (bodyPart.executes fields within valid) endPlace
      (bodyPart.locals_extend valid).1 valid
  | .proceed inside => exact .proceed inside
  | .leave inside => exact .leave inside
  | .finish without => exact .finish without
  | .answer wanted part assignable =>
    have inner := part.realizes fields within (Ty.isAssignableTo_ne_void assignable)
    exact .answer inner assignable
  | .perform called part =>
    rename_i inner
    by_cases empty : inner.type = .void
    · obtain ⟨place, self, rfl, rfl⟩ := part.eq_clear called empty
      exact .clear
    · rw [if_neg empty]
      exact .perform (part.realizes fields within empty)

/-- The code of accepted statements follows their execution on the tree. -/
theorem LowersBlock.executes {scope : RoutineScope} {start : Nat} {locals : Locals}
    {pools : Pools} {statements : List Stmt} {block : LoweredBlock}
    (rules : LowersBlock scope start locals pools statements block)
    (fields : scope.unit.fields = unit.fields) (within : block.pools.Within unit)
    (valid : locals.Valid) :
    Executes unit scope start locals block (fun fuel => execStmts unit fuel statements) := by
  match rules with
  | .nil => exact .nil
  | .cons head tail =>
    obtain ⟨extended, validThen⟩ := head.locals_extend valid
    exact .cons (head.executes fields (tail.within within) valid) extended
      (tail.executes fields within validThen) (tail.locals_extend validThen).1

end

end QueryFusion.Script
