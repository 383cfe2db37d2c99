import QueryFusion.Proofs.Generate.Restarting
import QueryFusion.Proofs.Generate.RowValues

/-!
# Batches of compiled code

The loop of a compiled run moves its cursor round by round. A round makes of the entry it finds what
the run makes of it: nothing more when the run drops the entry, a row in the batch otherwise. The
batch is handed on from the middle of the loop when the row makes it full, and behind the loop when
no entry is left. So a call of the routine fills the batch from the entries that follow.
-/

namespace QueryFusion.Generate

open Emit
open Script (Term Slot Env Exit CompiledUnit Memory Contents Denotes FieldInfo execStmts)

/-! ## Handing on -/

section Output

variable {unit : CompiledUnit} {env : Env} {row : List Local} {values : Row} {content : Contents}
  {batch : RowBatch} {cursors : List Cursor}

/-- How a round ends that has added a row: a full batch is handed on. -/
def afterRow (batch : RowBatch) : Exit :=
  if batch.hasRoom then .through else .answer (.progress .fetched)

/-- The local of the output row is seen by its name. -/
theorem denotes_output (id : NodeId) (memory : Memory) :
    Denotes unit memory (((outputBinding id row).entry.name, .row values) :: env)
      (termOf (outputBinding id row).entry) (.ok (.row values)) :=
  .name (by simp [Env.content?])

/-- A row is added to the batch. -/
theorem testTerm_add {term : Term} {memory : Memory}
    (part : Denotes unit memory env term (.ok (.row values))) :
    Script.testTerm unit env (.not .first (.call .first (.this .first) "addToBatch" [term]))
      memory =
      (.ok (!(memory.batch.add values).hasRoom),
        { memory with batch := memory.batch.add values }) := by
  have added : Script.evalTerm unit env (.call .first (.this .first) "addToBatch" [term]) memory =
      (.ok (.truth (memory.batch.add values).hasRoom),
        { memory with batch := memory.batch.add values }) := by
    have here : (Term.this .first).isThis = true := rfl
    have other : ("addToBatch" : String) ≠ "clearBatch" := by decide
    rw [Script.evalTerm]
    simp only [here, if_true, other, if_false]
    rw [Script.Effect.bind_apply_ok part.argument]
    rfl
  have negated : Script.evalTerm unit env
      (.not .first (.call .first (.this .first) "addToBatch" [term])) memory =
        (.ok (.truth !(memory.batch.add values).hasRoom),
          { memory with batch := memory.batch.add values }) := by
    rw [Script.evalTerm, Script.Effect.bind_apply_ok added]
    rfl
  unfold Script.testTerm
  rw [Script.Effect.bind_apply_ok negated]
  rfl

/-- The row is added to the batch, which is handed on when it is full. -/
theorem exec_outputStatements (id : NodeId) (fed : List.Forall₂ (Carries env) row values)
    (quiet : Quiet env) (positive : 0 ≤ id) (fuel : Nat) :
    execStmts unit fuel (outputStatements id row) env (.of unit content batch cursors) =
      some (.ok
        (afterRow (batch.add values), ((outputBinding id row).entry.name, .row values) :: env),
        .of unit content (batch.add values) cursors) := by
  let memory := Memory.of unit content batch cursors
  let after : Env := ((outputBinding id row).entry.name, .row values) :: env
  have made : Denotes unit memory env (outputBinding id row).value (.ok (.row values)) :=
    .row quiet.unowned (evalTerms_termOf fed) (Script.valuesOf_map_value values)
  have tested : Script.testTerm unit after (.not .first (.call .first (.this .first) "addToBatch"
      [termOf (outputBinding id row).entry])) memory =
        (.ok (!(batch.add values).hasRoom), .of unit content (batch.add values) cursors) :=
    testTerm_add (denotes_output id memory)
  have free : after.content? "IterationResult" = none := by
    have hidden : env.content? "IterationResult" = none := quiet _ (not_underscored (by decide))
    have named : Underscored (outputBinding id row).entry.name :=
      underscored_stemOf positive (by decide)
    have other : ((outputBinding id row).entry.name == "IterationResult") = false :=
      beq_eq_false_iff_ne.2 fun same => not_underscored (by decide) (same ▸ named)
    simpa [after, Env.content?, other] using hidden
  have answered : Denotes unit (.of unit content (batch.add values) cursors) after
      (.member .first (.name .first "IterationResult") "FETCHED") (.ok (.progress .fetched)) :=
    .static free rfl
  rw [outputStatements, Binding.statement, Script.execStmts_cons (Script.execStmt_declare made),
    Script.execStmts_single, Script.execStmt_branch tested]
  cases room : (batch.add values).hasRoom with
  | true => simp [afterRow, room, after]
  | false =>
    simp only [Bool.not_false, if_true, Script.inBraces, Script.execStmts_answer answered]
    simp [Step.andThen, afterRow, room, Env.restore, after]

end Output

/-! ## Rounds -/

/-- The unit of a run has what its code reads, wherever its cursor stands. -/
structure Operates (plan : Plan) (row : List Local) (steps : List RowStep) (unit : CompiledUnit)
    (content : Contents) (number : Nat) : Prop where
  code : RowCode False plan row steps
  compilable : plan.isCompilable = true
  positive : 0 ≤ plan.id
  named : ∀ binding ∈ steps.flatMap RowStep.bindings, Underscored binding.entry.name
  field : cursorField plan ∈ unit.fields.map FieldInfo.name
  cursor : content (cursorField plan) = .handle (.cursor number)
  equips : ∀ batch cursors cursor entry, cursors[number]? = some cursor →
    cursor.current = .ok entry → Equips unit (.of unit content batch cursors) entry plan

/-- What is done in a round. -/
def roundStatements (plan : Plan) (row : List Local) (steps : List RowStep) : List Script.Stmt :=
  steps.map RowStep.statement ++ outputStatements plan.id row

/-- The test of the loop: the cursor moves on. -/
def seekTerm (plan : Plan) : Term :=
  .call .first (cursorTerm plan.leafId) "tryAdvance" []

/-- How a round ends, and with which batch, that makes this of its entry. -/
def roundEnd (batch : RowBatch) : Except Error (Option Row) → Except Error (Exit × Env) × RowBatch
  | .error error => (.error error, batch)
  | .ok none => (.ok (.proceed, []), batch)
  | .ok (some row) => (.ok (afterRow (batch.add row), []), batch.add row)

/-- How the loop ends when filling the batch ends so. -/
def loopEnd : Except Error Progress → Except Error (Exit × Env)
  | .error error => .error error
  | .ok .finished => .ok (.through, [])
  | .ok .fetched => .ok (.answer (.progress .fetched), [])

section Rounds

variable {plan : Plan} {row : List Local} {steps : List RowStep} {unit : CompiledUnit}
  {content : Contents} {number : Nat} {batch : RowBatch} {cursors : List Cursor} {cursor : Cursor}

/-- A round makes of the current entry what the run makes of it. -/
theorem Operates.round (operates : Operates plan row steps unit content number) {entry : Entry}
    (here : cursors[number]? = some cursor) (stands : cursor.current = .ok entry) (map : EntryMap)
    (fuel : Nat) :
    Script.inBraces (execStmts unit fuel (roundStatements plan row steps)) []
        (.of unit content batch cursors) =
      some ((roundEnd batch (plan.image map entry)).1,
        .of unit content (roundEnd batch (plan.image map entry)).2 cursors) := by
  have processed := operates.code.processes operates.compilable
    (operates.equips batch cursors cursor entry here stands) operates.named map
  rw [Script.inBraces, roundStatements, Script.execStmts_append]
  rcases made : plan.image map entry with error | _ | values
  · rw [made] at processed
    rw [processed fuel]
    rfl
  · rw [made] at processed
    obtain ⟨added, dropped⟩ := processed fuel
    rw [dropped]
    simp [Step.andThen, roundEnd, Env.restore]
  · rw [made] at processed
    obtain ⟨added, passes, fed⟩ := processed
    have quiet : Quiet (added ++ []) := Quiet.nil.past passes.names operates.named
    rw [passes.runs fuel]
    simp only [Step.andThen, exec_outputStatements plan.id fed quiet operates.positive fuel]
    simp [roundEnd, Env.restore]

/-- The test moves the cursor, and tells whether it found an entry. -/
theorem Operates.testTerm_seek (operates : Operates plan row steps unit content number)
    (here : cursors[number]? = some cursor) (env : Env) :
    Script.testTerm unit env (seekTerm plan) (.of unit content batch cursors) =
      (.ok cursor.advance.1, .of unit content batch (cursors.set number cursor.advance.2)) := by
  have set : content (cursorField plan) ≠ .unset := by
    rw [operates.cursor]
    exact nofun
  have receiver : Script.evalTerm unit env (cursorTerm plan.leafId)
      (.of unit content batch cursors) =
        (.ok (.handle (.cursor number)), .of unit content batch cursors) := by
    have read := @Script.readField_of unit content batch cursors _ operates.field set
    rw [operates.cursor] at read
    exact read
  have moved : Script.callMethod "tryAdvance" (.handle (.cursor number)) []
      (.of unit content batch cursors) = (.ok (.truth cursor.advance.1),
        .of unit content batch (cursors.set number cursor.advance.2)) := by
    have invoked : Script.invoke cursors .cursorAdvance (.handle (.cursor number)) [] =
        .ok (.truth cursor.advance.1, cursors.set number cursor.advance.2) := by
      simp only [Script.invoke, Slot.isNull, here]
      rfl
    have called : Script.callMethod "tryAdvance" (.handle (.cursor number)) []
        (.of unit content batch cursors) = Script.called
          (Script.invoke cursors .cursorAdvance (.handle (.cursor number)) [])
            (.of unit content batch cursors) := rfl
    rw [called, invoked]
    rfl
  have sought : Script.evalTerm unit env (seekTerm plan) (.of unit content batch cursors) =
      (.ok (.truth cursor.advance.1),
        .of unit content batch (cursors.set number cursor.advance.2)) := by
    have other : (cursorTerm plan.leafId).isThis = false := rfl
    have unowned : env.staticOwner? (cursorTerm plan.leafId) = none := rfl
    have plain : fieldOfGetter? "tryAdvance" = none := by decide
    rw [seekTerm, Script.evalTerm]
    simp only [other, Bool.false_eq_true, if_false, unowned, plain]
    rw [Script.Effect.bind_apply_ok receiver]
    exact moved
  unfold Script.testTerm
  rw [Script.Effect.bind_apply_ok sought]
  rfl

/-- The loop fills the batch from the entries that follow. -/
theorem Operates.rounds (operates : Operates plan row steps unit content number) (map : EntryMap)
    {entries : List Entry} (here : cursors[number]? = some cursor) (follow : cursor.rest = entries)
    {fuel : Nat} (enough : entries.length < fuel) (inner : Nat) (batch : RowBatch) :
    ∃ next, Script.rounds (fun env => Script.testTerm unit env (seekTerm plan))
          (Script.inBraces (execStmts unit inner (roundStatements plan row steps))) fuel []
          (.of unit content batch cursors) =
        some (loopEnd (fillItems (plan.image map) none entries batch).1,
          .of unit content (fillItems (plan.image map) none entries batch).2.1
            (cursors.set number next)) ∧
      (cursor.Reachable → next.Reachable) ∧
      ∀ progress, (fillItems (plan.image map) none entries batch).1 = .ok progress →
        next.rest = (fillItems (plan.image map) none entries batch).2.2 := by
  have inside : number < cursors.length := (List.getElem?_eq_some_iff.1 here).1
  induction entries generalizing cursor cursors fuel batch with
  | nil =>
    obtain ⟨fuel, rfl⟩ : ∃ less, fuel = less + 1 := ⟨fuel - 1, by omega⟩
    obtain ⟨missing, left⟩ := Cursor.advance_of_rest_nil follow
    refine ⟨cursor.advance.2, ?_, .advance, fun _ _ => left⟩
    rw [Script.rounds, operates.testTerm_seek here, missing]
    rfl
  | cons entry entries step =>
    obtain ⟨fuel, rfl⟩ : ∃ less, fuel = less + 1 := ⟨fuel - 1, by omega⟩
    rw [List.length_cons] at enough
    obtain ⟨found, stands, behind⟩ := Cursor.advance_of_rest_cons follow
    have moved : (cursors.set number cursor.advance.2)[number]? = some cursor.advance.2 :=
      List.getElem?_set_self inside
    have round := fun batch => @Operates.round plan row steps unit content number batch
      _ _ operates _ moved stands map inner
    have later : ∀ batch, ∃ next, Script.rounds
      (fun env => Script.testTerm unit env (seekTerm plan))
          (Script.inBraces (execStmts unit inner (roundStatements plan row steps))) fuel []
          (.of unit content batch (cursors.set number cursor.advance.2)) =
        some (loopEnd (fillItems (plan.image map) none entries batch).1,
          .of unit content (fillItems (plan.image map) none entries batch).2.1
            (cursors.set number next)) ∧
      (cursor.Reachable → next.Reachable) ∧
      ∀ progress, (fillItems (plan.image map) none entries batch).1 = .ok progress →
        next.rest = (fillItems (plan.image map) none entries batch).2.2 := by
      intro batch
      obtain ⟨next, ran, reached, left⟩ := step moved behind (by omega : entries.length < fuel)
        batch (by rwa [List.length_set])
      rw [List.set_set] at ran
      exact ⟨next, ran, fun reachable => reached (.advance reachable), left⟩
    rw [Script.rounds, operates.testTerm_seek here, found, fillItems]
    simp only [Step.andThen, if_true, round]
    rcases plan.image map entry with error | _ | values
    · exact ⟨_, rfl, .advance, fun progress never => by cases never⟩
    · exact later batch
    · cases room : (batch.add values).hasRoom with
      | true =>
        simp only [roundEnd, afterRow, room, if_true]
        exact later (batch.add values)
      | false =>
        simp only [roundEnd, afterRow, room, Bool.false_eq_true, if_false]
        exact ⟨_, rfl, .advance, fun _ _ => behind⟩

/-- A call of the routine fills the batch from the entries that follow. -/
theorem Operates.exec_advance (operates : Operates plan row steps unit content number)
    (map : EntryMap) (here : cursors[number]? = some cursor) {fuel : Nat}
    (enough : cursor.rest.length < fuel) :
    ∃ next, Script.execRoutine unit fuel (advanceDecl plan row steps) []
          (.of unit content batch cursors) =
        some ((fillItems (plan.image map) none cursor.rest batch.clear).1.map Slot.progress,
          .of unit content (fillItems (plan.image map) none cursor.rest batch.clear).2.1
            (cursors.set number next)) ∧
      (cursor.Reachable → next.Reachable) ∧
      ∀ progress, (fillItems (plan.image map) none cursor.rest batch.clear).1 = .ok progress →
        next.rest = (fillItems (plan.image map) none cursor.rest batch.clear).2.2 := by
  obtain ⟨next, ran, reached, left⟩ := operates.rounds map here rfl enough fuel batch.clear
  refine ⟨next, ?_, reached, left⟩
  have cleared : Script.execStmt unit fuel (.perform .first
      (.call .first (.this .first) "clearBatch" [])) [] (.of unit content batch cursors) =
        some (.ok (.through, []), .of unit content batch.clear cursors) := rfl
  have looped : Script.execStmt unit fuel (.loop .first (seekTerm plan)
      (roundStatements plan row steps)) [] (.of unit content batch.clear cursors) =
        some (loopEnd (fillItems (plan.image map) none cursor.rest batch.clear).1,
          .of unit content (fillItems (plan.image map) none cursor.rest batch.clear).2.1
            (cursors.set number next)) := by
    rw [Script.execStmt]
    exact ran
  have free : Env.content? [] "IterationResult" = none := rfl
  have answered : ∀ memory, Denotes unit memory []
      (.member .first (.name .first "IterationResult") "FETCHED_DONE")
        (.ok (.progress .finished)) :=
    fun _ => .static free rfl
  have start : Script.bindParams (advanceDecl plan row steps).params [] = [] := rfl
  have body : (advanceDecl plan row steps).body = advanceStatements plan row steps := rfl
  rw [Script.execRoutine, start, body, advanceStatements, Script.execStmts_cons cleared,
    Script.execStmts]
  show Step.andThen (Step.andThen (Script.execStmt unit fuel (.loop .first (seekTerm plan)
    (roundStatements plan row steps)) [] (.of unit content batch.clear cursors)) _) _ = _
  rw [looped]
  rcases (fillItems (plan.image map) none cursor.rest batch.clear).1 with error | _ | _
  · rfl
  · rfl
  · simp only [loopEnd, Step.andThen, Script.execStmts_answer (answered _)]
    rfl

end Rounds

end QueryFusion.Generate
