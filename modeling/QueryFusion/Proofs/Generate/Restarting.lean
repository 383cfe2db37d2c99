import QueryFusion.Proofs.Executor.Sameness
import QueryFusion.Proofs.Generate.Binding
import QueryFusion.Proofs.Script.Footprint
import QueryFusion.Proofs.Script.Safety

/-!
# Restarting a compiled run

The unit of a run sets one field after it has been bound: its setup routine opens a new cursor. The
routine that produces batches sets none, and clears the batch before anything else. So an instance
that has been set up again goes on like one that is set up for the first time, with its cursor under
a higher number.
-/

namespace QueryFusion

open Emit (Local)
open Script (Slot Contents Memory CompiledUnit UnitInstance FieldInfo Env)

namespace Generate

section Setup

variable {plan : Plan} {row : List Local} {steps : List RowStep} {unit : CompiledUnit}
  {content : Contents} {batch : RowBatch} {cursors : List Cursor}

/-- The field that keeps the cursor of a run. -/
def cursorField (plan : Plan) : String :=
  VariableKind.scanCursor.fieldOf plan.leafId

/-- A run opens one cursor, that of its scan. -/
theorem openStatements_run (compilable : plan.isCompilable = true) :
    (registryOf plan).declared.flatMap StateVariable.openStatements =
      StateVariable.openStatements ⟨plan.leafId, .scanCursor, .opened⟩ := by
  unfold registryOf
  dsimp only
  induction plan with
  | scan id spec =>
    rw [Plan.runGenerators_scan compilable]
    rfl
  | filter id condition input step =>
    have below : input.isCompilable = true := compilable
    rw [Plan.runGenerators_filter below, List.flatMap_append, List.flatMap_append, step below]
    exact List.append_nil _
  | project id expressions input step =>
    have below : input.isCompilable = true := compilable
    rw [Plan.runGenerators_project below, List.flatMap_append, List.flatMap_append, step below]
    exact List.append_nil _
  | root id input step | sort id columns ascending input step => cases compilable
  | join id condition left right leftStep rightStep => cases compilable

/-- Every field of a run is bound, or it is the one that keeps the cursor. -/
theorem declared_cases (compilable : plan.isCompilable = true) :
    ∀ entry ∈ (registryOf plan).declared, entry.hasPrepare = true ∨
      entry.name = cursorField plan := by
  unfold registryOf
  dsimp only
  induction plan with
  | scan id spec =>
    rw [Plan.runGenerators_scan compilable, List.flatMap_singleton]
    refine List.forall_mem_append.2 ⟨fun entry member => ?_, List.forall_mem_singleton.2 (.inr rfl)⟩
    obtain ⟨pair, -, rfl⟩ := List.mem_map.1 member
    exact .inl rfl
  | filter id condition input step =>
    have below : input.isCompilable = true := compilable
    rw [Plan.runGenerators_filter below, List.flatMap_append, List.flatMap_singleton]
    exact List.forall_mem_append.2 ⟨step below, List.forall_mem_singleton.2 (.inl rfl)⟩
  | project id expressions input step =>
    have below : input.isCompilable = true := compilable
    rw [Plan.runGenerators_project below, List.flatMap_append, List.flatMap_singleton]
    exact List.forall_mem_append.2 ⟨step below, List.forall_mem_singleton.2 (.inl rfl)⟩
  | root id input step | sort id columns ascending input step => cases compilable
  | join id condition left right leftStep rightStep => cases compilable

/-- The fields of a run hold a map and its partitions, those that are bound are set, and none of
them names a cursor. -/
structure Supplied (plan : Plan) (content : Contents) (map : EntryMap) (partitions : PartitionSet) :
    Prop where
  map : content (VariableKind.scanMap.fieldOf plan.leafId) = .handle (.map map)
  partitions : content (VariableKind.scanPartitions.fieldOf plan.leafId) =
    .handle (.partitions partitions)
  fits : FieldsFit plan 0 content
  plain : ∀ name, (content name).IsPlain
  bound : ∀ entry ∈ (registryOf plan).declared, entry.hasPrepare = true →
    content entry.name ≠ .unset

/-- The variables of the scan of a run are declared. -/
theorem exists_declared (compilable : plan.isCompilable = true) {kind : VariableKind}
    (own : kind ∈ scanBindings.map Prod.fst ++ [VariableKind.scanCursor]) :
    ∃ entry ∈ (registryOf plan).declared, entry.kind = kind ∧
      entry.name = kind.fieldOf plan.leafId := by
  obtain ⟨spec, member⟩ := Plan.exists_leaf compilable
  rcases List.mem_append.1 own with bound | last
  · obtain ⟨pair, listed, rfl⟩ := List.mem_map.1 bound
    exact ⟨⟨plan.leafId, pair.1, .bound pair.2.name⟩, List.mem_flatMap.2 ⟨_, member,
      List.mem_append_left _ (List.mem_map.2 ⟨pair, listed, rfl⟩)⟩, rfl, rfl⟩
  · rw [List.mem_singleton.1 last]
    exact ⟨⟨plan.leafId, .scanCursor, .opened⟩, List.mem_flatMap.2 ⟨_, member,
      List.mem_append_right _ (List.mem_singleton_self _)⟩, rfl, rfl⟩

/-- The variables of the scan of a run are fields of its unit. -/
theorem Realizes.leaf_field (realizes : Realizes plan row steps unit) {kind : VariableKind}
    (own : kind ∈ scanBindings.map Prod.fst ++ [VariableKind.scanCursor]) :
    kind.fieldOf plan.leafId ∈ unit.fields.map FieldInfo.name := by
  obtain ⟨entry, listed, -, named⟩ := exists_declared realizes.run.compilable own
  rw [realizes.parts.2.2, List.map_map, ← named]
  exact List.mem_map_of_mem listed

/-- The cursor of a run is none of the fields that are bound. -/
theorem assign_cursor_of_ne {kind : VariableKind} (other : kind ≠ .scanCursor) (id : NodeId)
    (slot : Slot) :
    content.assign (cursorField plan) slot (kind.fieldOf id) = content (kind.fieldOf id) := by
  refine if_neg fun same => other ?_
  exact (@StateVariable.name_inj ⟨id, kind, .none⟩ ⟨plan.leafId, .scanCursor, .none⟩ same).2

/-- The setup routine opens a new cursor and keeps it in its field. -/
theorem Realizes.exec_setup (realizes : Realizes plan row steps unit) {map : EntryMap}
    {partitions : PartitionSet} (supplied : Supplied plan content map partitions) (slot : Slot)
    (fuel : Nat) (context : Context) :
    Script.execRoutine unit fuel (setupDecl plan) [.handle (.context context)]
        (.of unit (content.assign (cursorField plan) slot) batch cursors) =
      some (.ok .unset,
        .of unit (content.assign (cursorField plan) (.handle (.cursor cursors.length)))
        batch (cursors ++ [Cursor.start map partitions])) := by
  let env : Env := [("ctx", .handle (.context context))]
  let memory := Memory.of unit (content.assign (cursorField plan) slot) batch cursors
  have denotes : ∀ (kind : VariableKind) (held : Slot),
      kind ∈ scanBindings.map Prod.fst ++ [VariableKind.scanCursor] → kind ≠ .scanCursor →
        held ≠ .unset → content (kind.fieldOf plan.leafId) = held →
          Script.Denotes unit memory env (fieldOfThis (kind.fieldOf plan.leafId)) (.ok held) := by
    intro kind held own other set same
    have kept := (@assign_cursor_of_ne plan content kind other _ slot).trans same
    refine .field ?_
    rw [Script.readField_of (realizes.leaf_field own) (kept ▸ set), kept]
  have parts : Script.evalTerms unit env [fieldOfThis (VariableKind.scanMap.fieldOf plan.leafId),
      fieldOfThis (VariableKind.scanPartitions.fieldOf plan.leafId)] memory =
        (.ok [.handle (.map map), .handle (.partitions partitions)], memory) := by
    have mapped := denotes .scanMap (.handle (.map map)) (by decide) (by decide) nofun supplied.map
    have parted := denotes .scanPartitions (.handle (.partitions partitions))
      (by decide) (by decide) nofun supplied.partitions
    rw [Script.evalTerms, Script.Effect.bind_apply_ok mapped,
      Script.Effect.bind_apply_ok parted.argument]
    rfl
  have created : Script.evalTerm unit env
    (.call .first (.name .first "MapScanUtils") "createIterator"
      [fieldOfThis (VariableKind.scanMap.fieldOf plan.leafId),
        fieldOfThis (VariableKind.scanPartitions.fieldOf plan.leafId)]) memory =
      (.ok (.handle (.cursor cursors.length)),
        .of unit (content.assign (cursorField plan) slot) batch
        (cursors ++ [Cursor.start map partitions])) := by
    rw [Script.evalTerm]
    show ((Script.evalTerms unit env _) >>= Script.openGiven) memory = _
    rw [Script.Effect.bind_apply_ok parts]
    rfl
  have again : ∀ first second : Slot, (content.assign (cursorField plan) first).assign
      (cursorField plan) second = content.assign (cursorField plan) second := by
    intro first second
    funext name
    unfold Contents.assign
    split <;> rfl
  have body : Script.execStmts unit fuel (setupDecl plan).body env memory =
    some (.ok (.through, env),
      .of unit (content.assign (cursorField plan) (.handle (.cursor cursors.length))) batch
        (cursors ++ [Cursor.start map partitions])) := by
    rw [setupDecl, openStatements_run realizes.run.compilable, ← again slot]
    exact Script.execStmts_cons (Script.execStmt_setField created
      (Script.writeField_of realizes.fields_apart
        (realizes.leaf_field (List.mem_append_right _ (List.mem_singleton_self _))) _))
  have start : Script.bindParams (setupDecl plan).params [.handle (.context context)] = env := rfl
  rw [Script.execRoutine, start, body]
  rfl

/-! ## The routine that produces batches -/

/-- The code of the routine that produces batches. -/
theorem Realizes.advance_rule (realizes : Realizes plan row steps unit) :
    ∃ scope before after, scope.fields = unit.fields ∧ after.Within unit ∧
      Script.RoutineRule scope before (advanceDecl plan row steps) ⟨"advance", [], .progress⟩
        unit.advance after := by
  obtain ⟨name, draft, advances, accepted⟩ := realizes.code
  obtain ⟨signature, routine, scope, before, after, declared, named, fields, within, rule⟩ :=
    Script.lowerUnit_rule_of_decl accepted
      (List.mem_cons_of_mem _ (List.mem_cons_of_mem _ List.mem_cons_self))
  simp only [CompiledUnit.routines, Script.signatures, List.zip_cons_cons, List.zip_nil_right,
    List.mem_cons, Prod.mk.injEq, List.not_mem_nil, or_false] at declared
  rcases declared with ⟨rfl, rfl⟩ | ⟨rfl, rfl⟩ | ⟨rfl, rfl⟩
  · exact absurd named (by decide : "prepare" ≠ "advance")
  · exact absurd named (by decide : "setup" ≠ "advance")
  · exact ⟨scope, before, after, fields, within, rule⟩

/-- The routine that produces batches clears the batch first. -/
theorem Realizes.advance_clears (realizes : Realizes plan row steps unit) :
    unit.advance.Clears := by
  obtain ⟨scope, before, after, -, -, rule⟩ := realizes.advance_rule
  exact rule.clears rfl rfl

/-- The routine that produces batches sets no field. -/
theorem Realizes.advance_isStill (realizes : Realizes plan row steps unit) :
    unit.advance.IsStill := by
  obtain ⟨scope, before, after, -, -, rule⟩ := realizes.advance_rule
  have rows : Script.Stmt.AreStill
      (steps.map RowStep.statement ++ outputStatements plan.id row) := by
    refine Script.Stmt.areStill_iff.2 (List.forall_mem_append.2 ⟨fun statement member => ?_, ?_⟩)
    · obtain ⟨step, -, rfl⟩ := List.mem_map.1 member
      cases step with
      | bind binding => trivial
      | skip condition => exact ⟨trivial, trivial⟩
    · exact List.forall_mem_cons.2 ⟨trivial, List.forall_mem_singleton.2 ⟨trivial, trivial⟩⟩
  exact rule.isStill ⟨trivial, rows, trivial, trivial⟩

/-- The constants of the unit hold no object of the engine. -/
theorem Realizes.data (realizes : Realizes plan row steps unit) :
    ∀ constant ∈ unit.constants, constant.IsData := by
  obtain ⟨name, draft, advances, accepted⟩ := realizes.code
  exact Script.lowerUnit_data accepted

/-- The constants of the unit name no cursor. -/
theorem Realizes.plain (realizes : Realizes plan row steps unit) :
    ∀ constant ∈ unit.constants, constant.IsPlain :=
  fun constant member => (realizes.data constant member).plain

end Setup

end Generate

/-! ## Instances that go on alike -/

namespace Script.UnitInstance

/-- Instances of a unit that have been set up and hold the same, but for the numbers of the cursors
and for what is left in the batch. -/
structure Alike (first second : UnitInstance) : Prop where
  unit : second.unit = first.unit
  armed : first.armed = true ∧ second.armed = true
  plain : ∀ constant ∈ first.unit.constants, constant.IsPlain
  clears : first.unit.advance.Clears
  memory : ∃ before, { second.memory with batch := second.memory.batch.clear } =
    Memory.shift before { first.memory with batch := first.memory.batch.clear }

/-- Such instances take the same steps. -/
theorem Alike.advance {first second : UnitInstance} (alike : first.Alike second) (fuel : Nat) :
    Step.Same (fun next other => Alike next other ∧
        next.memory.batch.rows = other.memory.batch.rows)
      (first.advance fuel) (second.advance fuel) := by
  obtain ⟨before, memory⟩ := alike.memory
  have moved : run second.unit second.unit.advance fuel [] second.memory =
      (run first.unit first.unit.advance fuel [] first.memory).map fun outcome =>
        (outcome.1.map (Slot.shift before.length), outcome.2.shift before) := by
    rw [alike.unit, ← alike.clears.run_clear fuel second.memory, memory,
      ← alike.clears.run_clear fuel first.memory]
    exact run_shift alike.plain _ fuel before [] _
  unfold UnitInstance.advance
  rw [alike.armed.1, alike.armed.2, moved, alike.unit]
  have goesOn : ∀ changed : Memory,
      Alike (first.withMemory changed) (second.withMemory (changed.shift before)) ∧
        (first.withMemory changed).memory.batch.rows =
          (second.withMemory (changed.shift before)).memory.batch.rows := fun changed =>
    ⟨⟨alike.unit, alike.armed, alike.plain, alike.clears, before, rfl⟩, rfl⟩
  rcases run first.unit first.unit.advance fuel [] first.memory with _ | ⟨error | slot, changed⟩
  · exact .none
  · exact .some (goesOn changed)
  · cases slot with
    | progress progress => exact .some (goesOn changed)
    | handle object => cases object <;> exact .some (goesOn changed)
    | _ => exact .some (goesOn changed)

end Script.UnitInstance

namespace Generate

open Script (UnitInstance)

/-- An instance that has been set up and advanced in any way since it was bound like the first
one. -/
inductive Worn : UnitInstance → UnitInstance → Prop
  | of {plan : Plan} {row : List Local} {steps : List RowStep} {unit : CompiledUnit}
      {content : Contents}
      {map : EntryMap} {partitions : PartitionSet} {bound : List NodeId} {slot : Slot}
      {fresh worn : RowBatch} {cursors : List Cursor} {armed : Bool}
      (realizes : Realizes plan row steps unit) (supplied : Supplied plan content map partitions)
      (complete : ∀ id ∈ unit.subsumedIds, id ∈ bound)
      (kept : slot = .unset ∨ slot.Fits cursors.length .cursor)
      (reached : ∀ cursor ∈ cursors, cursor.Reachable) (capacity : worn.capacity = fresh.capacity)
      (ready : armed = true → ∃ number, slot = .handle (.cursor number)) :
      Worn ⟨unit, .of unit content fresh [], bound, false⟩
        ⟨unit, .of unit (content.assign (cursorField plan) slot) worn cursors, bound, armed⟩

section Wearing

variable {plan : Plan} {row : List Local} {steps : List RowStep} {unit : CompiledUnit}
  {content : Contents} {map : EntryMap} {partitions : PartitionSet} {slot : Slot} {batch : RowBatch}
  {cursors : List Cursor} {fresh worn next : UnitInstance} {fuel : Nat} {context : Context}

/-- The fields of a run fit with any cursor. -/
theorem Supplied.fits_assign (supplied : Supplied plan content map partitions)
    (kept : slot = .unset ∨ slot.Fits cursors.length .cursor) :
    FieldsFit plan cursors.length (content.assign (cursorField plan) slot) := by
  intro entry member
  unfold Contents.assign
  split
  · rename_i same
    have kind : entry.kind = .scanCursor :=
      (@StateVariable.name_inj entry ⟨plan.leafId, .scanCursor, .none⟩ same).2
    rw [kind]
    exact kept
  · exact (supplied.fits entry member).imp_right fun typed => typed.mono (Nat.zero_le _)

/-- The fields hold what they hold. -/
theorem assign_self (content : Contents) (name : String) :
    content.assign name (content name) = content := by
  funext other
  unfold Contents.assign
  split
  · rename_i same
    rw [same]
  · rfl

/-- What the field of the cursor holds in a new instance. -/
theorem Supplied.kept (supplied : Supplied plan content map partitions)
    (realizes : Realizes plan row steps unit) :
    content (cursorField plan) = .unset ∨ (content (cursorField plan)).Fits 0 .cursor := by
  obtain ⟨entry, listed, kind, named⟩ := exists_declared realizes.run.compilable
    (List.mem_append_right _ (List.mem_singleton_self _))
  have fits := supplied.fits entry listed
  rw [kind, named] at fits
  exact fits

/-- An instance that has just been bound. -/
theorem Worn.refl (realizes : Realizes plan row steps unit)
    (supplied : Supplied plan content map partitions) {bound : List NodeId}
    (complete : ∀ id ∈ unit.subsumedIds, id ∈ bound) :
    Worn ⟨unit, .of unit content batch [], bound, false⟩
      ⟨unit, .of unit content batch [], bound, false⟩ := by
  have worn := @Worn.of plan row steps unit content map partitions bound
    (content (cursorField plan))
    batch batch [] false realizes supplied complete (supplied.kept realizes)
      (List.forall_mem_nil _) rfl
    nofun
  rw [assign_self] at worn
  exact worn

/-- The setup routine of an instance opens a new cursor. -/
theorem Realizes.run_setup (realizes : Realizes plan row steps unit)
    (supplied : Supplied plan content map partitions)
    (kept : slot = .unset ∨ slot.Fits cursors.length .cursor)
    (reached : ∀ cursor ∈ cursors, cursor.Reachable) (context : Context) : ∃ enough, ∀ fuel,
      enough ≤ fuel → Script.run unit unit.setup fuel [.handle (.context context)]
        (.of unit (content.assign (cursorField plan) slot) batch cursors) =
      some (.ok .unset,
        .of unit (content.assign (cursorField plan) (.handle (.cursor cursors.length)))
        batch (cursors ++ [Cursor.start map partitions])) := by
  have held : (Memory.of unit (content.assign (cursorField plan) slot) batch cursors).Fits
      unit.fields :=
    realizes.memory_fits (supplied.fits_assign kept) reached
  obtain ⟨enough, ran⟩ := (realizes.setup_iff held context _).2
    ⟨0, realizes.exec_setup supplied slot 0 context⟩
  exact ⟨enough, fun fuel more => Script.run_agrees _ _ more _ _ _ ran⟩

/-- A slot that names a new cursor fits. -/
theorem cursor_kept (cursors : List Cursor) (last : Cursor) :
    Slot.handle (.cursor cursors.length) = .unset ∨
      (Slot.handle (.cursor cursors.length)).Fits (cursors ++ [last]).length .cursor := by
  refine .inr ⟨rfl, fun number same => ?_⟩
  cases same
  simp

/-- The memories of two instances that have just been set up are the same, but for the numbers of
the cursors. -/
theorem Supplied.shift_eq (supplied : Supplied plan content map partitions) {other : RowBatch}
    (capacity : batch.capacity = other.capacity) (last : Cursor) :
    { Memory.of unit (content.assign (cursorField plan) (.handle (.cursor cursors.length))) batch
        (cursors ++ [last]) with batch := batch.clear } =
      Memory.shift cursors
        { Memory.of unit (content.assign (cursorField plan) (.handle (.cursor 0)))
        other [last] with batch := other.clear } := by
  have fields : ∀ name, (content.assign (cursorField plan) (.handle (.cursor 0)) name).shift
      cursors.length = content.assign (cursorField plan)
        (.handle (.cursor cursors.length)) name := by
    intro name
    unfold Contents.assign
    split
    · exact congrArg (fun number => Slot.handle (.cursor number)) (Nat.zero_add _)
    · exact supplied.plain name cursors.length
  simp only [Memory.shift, Memory.of, List.map_map, RowBatch.clear_eq capacity, Function.comp_def,
    fields]

/-- Setting up an instance fails and changes nothing, or it opens a new cursor. -/
theorem Supplied.setup_cases (supplied : Supplied plan content map partitions)
    (realizes : Realizes plan row steps unit)
    (kept : slot = .unset ∨ slot.Fits cursors.length .cursor)
    (reached : ∀ cursor ∈ cursors, cursor.Reachable) {bound : List NodeId} {armed : Bool}
    {outcome : Except Error Unit}
    (done : UnitInstance.setup fuel context
      ⟨unit, .of unit (content.assign (cursorField plan) slot) batch
      cursors, bound, armed⟩ = some (outcome, next)) :
    (outcome ≠ .ok () ∧
      next = ⟨unit, .of unit (content.assign (cursorField plan) slot) batch cursors,
      bound, armed⟩) ∨
    (outcome = .ok () ∧ next = ⟨unit, .of unit (content.assign (cursorField plan)
      (.handle (.cursor cursors.length))) batch (cursors ++ [Cursor.start map partitions]), bound,
      true⟩) := by
  obtain ⟨enough, runs⟩ := @Realizes.run_setup plan row steps unit content map partitions slot batch
    cursors realizes supplied kept reached context
  unfold UnitInstance.setup at done
  split at done
  · cases done
    exact .inl ⟨nofun, rfl⟩
  · cases done
    exact .inl ⟨nofun, rfl⟩
  · split at done
    · cases done
    all_goals
      rename_i ended
      have agreed := Script.run_agrees _ _ (Nat.le_max_left fuel enough) _ _ _ ended
      rw [runs _ (Nat.le_max_right fuel enough)] at agreed
      cases agreed
    cases done
    exact .inr ⟨rfl, rfl⟩

/-- Setting up an instance leaves it worn. -/
theorem Worn.setup (bound : Worn fresh worn) {outcome : Except Error Unit}
    (done : worn.setup fuel context = some (outcome, next)) : Worn fresh next := by
  cases bound with
  | of realizes supplied complete kept reached capacity ready =>
    rcases supplied.setup_cases realizes kept reached done with ⟨-, rfl⟩ | ⟨-, rfl⟩
    · exact .of realizes supplied complete kept reached capacity ready
    · refine .of realizes supplied complete (cursor_kept _ _) ?_ capacity fun _ => ⟨_, rfl⟩
      exact List.forall_mem_append.2 ⟨reached, List.forall_mem_singleton.2 (.start _ _)⟩

/-- An instance that is bound to all of its nodes can be set up in an execution that goes on. -/
theorem Supplied.ready (supplied : Supplied plan content map partitions)
    (realizes : Realizes plan row steps unit) {bound : List NodeId}
    (complete : ∀ id ∈ unit.subsumedIds, id ∈ bound)
    (kept : slot = .unset ∨ slot.Fits cursors.length .cursor)
    (reached : ∀ cursor ∈ cursors, cursor.Reachable) (live : context.check = .ok ())
    (armed : Bool) :
    ∃ enough first, UnitInstance.setup enough context ⟨unit, .of unit
      (content.assign (cursorField plan) slot) batch cursors, bound, armed⟩ =
      some (.ok (), first) := by
  obtain ⟨enough, runs⟩ := @Realizes.run_setup plan row steps unit content map partitions slot batch
    cursors realizes supplied kept reached context
  have unbound : UnitInstance.unbound?
    ⟨unit, .of unit (content.assign (cursorField plan) slot) batch
      cursors, bound, armed⟩ = none := by
    rw [UnitInstance.unbound?, List.find?_eq_none]
    intro id member
    simpa using complete id member
  refine ⟨enough, ⟨unit, .of unit (content.assign (cursorField plan)
    (.handle (.cursor cursors.length))) batch (cursors ++ [Cursor.start map partitions]),
      bound, true⟩, ?_⟩
  unfold UnitInstance.setup
  simp only [unbound, live, runs enough (Nat.le_refl enough)]
  rfl

/-- An instance can be set up in an execution that goes on. -/
theorem Worn.ready (bound : Worn fresh worn) (live : context.check = .ok ()) :
    ∃ enough next, worn.setup enough context = some (.ok (), next) := by
  cases bound with
  | of realizes supplied complete kept reached capacity ready =>
    exact supplied.ready realizes complete kept reached live _

/-- Where an instance can be set up again, it can be set up for the first time. -/
theorem Worn.starts (bound : Worn fresh worn)
    (done : worn.setup fuel context = some (.ok (), next)) :
    ∃ enough first, fresh.setup enough context = some (.ok (), first) := by
  have live : context.check = .ok () := by
    unfold UnitInstance.setup at done
    split at done
    · cases done
    · cases done
    · assumption
  cases bound with
  | @of plan row steps unit content map partitions bound slot batch used cursors armed realizes
      supplied complete kept reached capacity ready =>
    have ready := @Supplied.ready plan row steps unit content map partitions _ batch [] context
      supplied realizes bound complete (supplied.kept realizes) (List.forall_mem_nil _) live false
    rw [assign_self] at ready
    exact ready

/-- An instance that has been set up again goes on like one that is set up for the first time,
whatever the two executions are. -/
theorem Worn.alike (bound : Worn fresh worn) {first : UnitInstance} {more : Nat} {other : Context}
    (started : fresh.setup more other = some (.ok (), first))
    (done : worn.setup fuel context = some (.ok (), next)) : first.Alike next := by
  cases bound with
  | @of plan row steps unit content map partitions bound slot batch used cursors armed realizes
      supplied complete kept reached capacity ready =>
    rw [← assign_self content (cursorField plan)] at started
    rcases supplied.setup_cases realizes (supplied.kept realizes)
      (List.forall_mem_nil _) started with
      ⟨failed, -⟩ | ⟨-, rfl⟩
    · exact absurd rfl failed
    rcases supplied.setup_cases realizes kept reached done with ⟨failed, -⟩ | ⟨-, rfl⟩
    · exact absurd rfl failed
    exact ⟨rfl, ⟨rfl, rfl⟩, realizes.plain, realizes.advance_clears, cursors,
      supplied.shift_eq capacity _⟩

/-- Advancing an instance leaves it worn. -/
theorem Worn.advance (bound : Worn fresh worn) {outcome : Except Error Progress}
    (done : worn.advance fuel = some (outcome, next)) : Worn fresh next := by
  cases bound with
  | @of plan row steps unit content map partitions bound slot batch used cursors armed realizes
      supplied complete kept reached capacity ready =>
    have goesOn : ∀ {result changed}, Script.run unit unit.advance fuel []
        (.of unit (content.assign (cursorField plan) slot) used cursors) = some (result, changed) →
          Worn ⟨unit, .of unit content batch [], bound, false⟩ ⟨unit, changed, bound, armed⟩ := by
      intro result changed ended
      have keeps := Script.run_keeps ended
      have held : (Memory.of unit (content.assign (cursorField plan) slot) used cursors).Fits
        unit.fields := realizes.memory_fits (supplied.fits_assign kept) reached
      obtain ⟨scope, before, after, fields, within, rule⟩ := realizes.advance_rule
      have follows := (rule.ends fields within .nil held fuel).follows ended
      have unmoved : changed.fields = unit.fields.map fun field =>
          content.assign (cursorField plan) slot field.name := keeps.fields realizes.advance_isStill
      have same : changed = .of unit (content.assign (cursorField plan) slot) changed.batch
          changed.cursors := by
        rw [Memory.of, ← unmoved]
      rw [same]
      exact .of realizes supplied complete (kept.imp_right fun typed => typed.mono follows.more)
        follows.fits.cursors (keeps.capacity.trans capacity) ready
    unfold UnitInstance.advance at done
    split at done
    · cases done
      exact .of realizes supplied complete kept reached capacity ready
    · split at done
      · cases done
      all_goals
        rename_i ended
        cases done
        exact goesOn ended

end Wearing

end Generate

end QueryFusion
