import QueryFusion.Proofs.Generate.CompiledUnits
import QueryFusion.Proofs.Script.Refinement

/-!
# Compiled runs

A compiled run stands for the nodes of the run, has the fields that they declare, and its routines
do what their statements do: one takes the state of each node from its executor, one opens the
cursors, and one produces batches.
-/

namespace QueryFusion.Generate

open Emit
open Script (CompiledUnit FieldInfo Memory RoutineDecl Routine Slot)

/-- The unit is what the source of a run is compiled to; its batches come from the steps. -/
structure Realizes (plan : Plan) (row : List Local) (steps : List RowStep) (unit : CompiledUnit) :
    Prop where
  run : IsRun plan
  code : ∃ name routine, Advances False plan routine row steps ∧
    Script.lowerUnit (sourceUnitOf plan name (unitImports plan routine) row steps)
      (Symbol.unitModule ++ "." ++ name) = .ok unit

/-- What is compiled from the source of a run realizes it. -/
theorem realizes_of_compile {plan : Plan} {generated : GeneratedUnit} {unit : CompiledUnit}
    (run : IsRun plan)
    (written : (Fragment.ofPlan plan).generate = .ok generated)
    (compiled : generated.compile = .ok unit) : ∃ row steps, Realizes plan row steps unit := by
  have readable : ∃ read, Script.parse generated.source = .ok read := by
    unfold GeneratedUnit.compile Script.compile at compiled
    split at compiled
    · cases compiled
    · exact ⟨_, ‹_›⟩
  obtain ⟨routine, row, steps, read, advances, alike, qualified, parsed, -⟩ :=
    generate_reads run (.inr readable) written
  refine ⟨row, steps, run, generated.name, routine, advances, ?_⟩
  unfold GeneratedUnit.compile Script.compile at compiled
  simp only [parsed] at compiled
  split at compiled
  · cases compiled
  · rename_i lowered accepted
    cases compiled
    exact qualified ▸ alike.symm.lowerUnit_eq_ok accepted

namespace Realizes

variable {plan : Plan} {row : List Local} {steps : List RowStep} {unit : CompiledUnit}

/-- The frame of the unit is that of the run. -/
theorem parts (realizes : Realizes plan row steps unit) :
    unit.primaryId = plan.id ∧ unit.subsumedIds = plan.runIds ∧
      unit.fields = (registryOf plan).declared.map fun entry => ⟨entry.name, entry.kind.ty⟩ := by
  obtain ⟨name, routine, advances, accepted⟩ := realizes.code
  obtain ⟨scope, _, _, frame, -, -, -, -, -, -, fields, -⟩ := Script.lowerUnit_eq_ok_iff.1 accepted
  have known := @sourceUnitOf_frame _ _ _ _ name _ realizes.run.compilable
    realizes.run.apart advances
  have ids := frame.constructed.symm.trans known.constructed
  have imports := Except.ok.inj (frame.imports.symm.trans known.imports)
  have declared := frame.fields
  rw [imports, known.fields] at declared
  obtain ⟨primary, subsumed⟩ := Prod.mk.inj (Except.ok.inj ids)
  refine ⟨primary, subsumed, ?_⟩
  rw [fields, ← Except.ok.inj declared]
  rfl

/-- The fields of the unit have different names. -/
theorem fields_apart (realizes : Realizes plan row steps unit) :
    (unit.fields.map FieldInfo.name).Nodup := by
  rw [realizes.parts.2.2, List.map_map]
  exact declared_apart realizes.run.compilable realizes.run.apart

/-- The routine of a declaration is that of its name. -/
theorem routine_of_mem {signature : Script.Signature} {routine : Routine}
    (member : (signature, routine) ∈ unit.routines) :
    signature.name = "prepare" ∧ routine = unit.prepare ∧ signature.params.map (·.2) = [.executor] ∨
      signature.name = "setup" ∧ routine = unit.setup ∧ signature.params.map (·.2) = [.context] ∨
      signature.name = "advance" ∧ routine = unit.advance ∧ signature.params.map (·.2) = [] := by
  simp only [CompiledUnit.routines, Script.signatures, List.zip_cons_cons, List.zip_nil_right,
    List.mem_cons, Prod.mk.injEq, List.not_mem_nil, or_false] at member
  rcases member with ⟨rfl, rfl⟩ | ⟨rfl, rfl⟩ | ⟨rfl, rfl⟩
  · exact .inl ⟨rfl, rfl, rfl⟩
  · exact .inr (.inl ⟨rfl, rfl, rfl⟩)
  · exact .inr (.inr ⟨rfl, rfl, rfl⟩)

/-- A routine of the unit does what its statements do. -/
theorem run_iff (realizes : Realizes plan row steps unit) {memory : Memory}
    (held : memory.Fits unit.fields) {decl : RoutineDecl}
    (written : decl ∈ [prepareDecl plan, setupDecl plan, advanceDecl plan row steps]) :
    ∃ signature routine, (signature, routine) ∈ unit.routines ∧ signature.name = decl.name ∧
      ∀ arguments, List.Forall₂ (Slot.Fits memory.cursors.length) arguments
          (signature.params.map (·.2)) → ∀ outcome,
        (∃ fuel, Script.run unit routine fuel arguments memory = some outcome) ↔
          ∃ fuel, Script.execRoutine unit fuel decl arguments memory = some outcome := by
  obtain ⟨name, draft, advances, accepted⟩ := realizes.code
  obtain ⟨signature, routine, scope, before, after, member, named, fields, within, rule⟩ :=
    Script.lowerUnit_rule_of_decl accepted written
  exact ⟨signature, routine, member, named, fun _ given => rule.run_iff fields within given held⟩

/-- The routine that binds the unit does what its statements do. -/
theorem prepare_iff (realizes : Realizes plan row steps unit) {memory : Memory}
    (held : memory.Fits unit.fields) (id : NodeId) (state : ExecutorState)
    (outcome : Except Error Slot × Memory) :
    (∃ fuel, Script.run unit unit.prepare fuel [.handle (.executor id state)] memory =
      some outcome) ↔
      ∃ fuel, Script.execRoutine unit fuel (prepareDecl plan)
        [.handle (.executor id state)] memory =
        some outcome := by
  obtain ⟨signature, routine, member, named, same⟩ := realizes.run_iff held List.mem_cons_self
  have fits : Slot.Fits memory.cursors.length (.handle (.executor id state)) .executor :=
    ⟨by cases state <;> rfl, nofun⟩
  rcases routine_of_mem member with ⟨-, rfl, params⟩ | ⟨other, -⟩ | ⟨other, -⟩
  · exact same _ (params ▸ .cons fits .nil) outcome
  · exact absurd (other.symm.trans named) (by decide : "setup" ≠ "prepare")
  · exact absurd (other.symm.trans named) (by decide : "advance" ≠ "prepare")

/-- The setup routine does what its statements do. -/
theorem setup_iff (realizes : Realizes plan row steps unit) {memory : Memory}
    (held : memory.Fits unit.fields) (context : Context) (outcome : Except Error Slot × Memory) :
    (∃ fuel, Script.run unit unit.setup fuel [.handle (.context context)] memory = some outcome) ↔
      ∃ fuel, Script.execRoutine unit fuel (setupDecl plan) [.handle (.context context)] memory =
        some outcome := by
  obtain ⟨signature, routine, member, named, same⟩ :=
    realizes.run_iff held (List.mem_cons_of_mem _ List.mem_cons_self)
  have fits : Slot.Fits memory.cursors.length (.handle (.context context)) .context := ⟨rfl, nofun⟩
  rcases routine_of_mem member with ⟨other, -⟩ | ⟨-, rfl, params⟩ | ⟨other, -⟩
  · exact absurd (other.symm.trans named) (by decide : "prepare" ≠ "setup")
  · exact same _ (params ▸ .cons fits .nil) outcome
  · exact absurd (other.symm.trans named) (by decide : "advance" ≠ "setup")

/-- The routine that produces batches does what its statements do. -/
theorem advance_iff (realizes : Realizes plan row steps unit) {memory : Memory}
    (held : memory.Fits unit.fields) (outcome : Except Error Slot × Memory) :
    (∃ fuel, Script.run unit unit.advance fuel [] memory = some outcome) ↔
      ∃ fuel, Script.execRoutine unit fuel (advanceDecl plan row steps)
        [] memory = some outcome := by
  obtain ⟨signature, routine, member, named, same⟩ :=
    realizes.run_iff held (List.mem_cons_of_mem _ (List.mem_cons_of_mem _ List.mem_cons_self))
  rcases routine_of_mem member with ⟨other, -⟩ | ⟨other, -⟩ | ⟨-, rfl, params⟩
  · exact absurd (other.symm.trans named) (by decide : "prepare" ≠ "advance")
  · exact absurd (other.symm.trans named) (by decide : "setup" ≠ "advance")
  · exact same _ (params ▸ .nil) outcome

end Realizes

end QueryFusion.Generate
