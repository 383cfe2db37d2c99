import QueryFusion.Proofs.Script.Routines

/-!
# Compiled units are type safe

Whatever source text is accepted, its routines never break a rule of the machine: on arguments of
the declared types, and in a memory whose fields are unset or hold slots of their types, a run goes
on, or ends with a slot of the declared result, or fails for a reason that lies in the data. The
memory it leaves fits again.
-/

namespace QueryFusion.Script

/-- What a run of a routine may come to, and the memory that it may leave. -/
def SafeOutcome (fields : List FieldInfo) (result : Ty) : Step Memory Slot → Prop
  | none => True
  | some (.error error, memory) => Foreseen error ∧ memory.Fits fields
  | some (.ok slot, memory) => Answers result memory.cursors.length slot ∧ memory.Fits fields

/-- A run has the outcome that it has on the tree, or is not at its end yet. -/
theorem RoutineEnds.safe {unit : CompiledUnit} {routine : Routine} {result : Ty} {fuel : Nat}
    {arguments : List Slot} {memory : Memory} {outcome : Step Memory Slot}
    (ends : RoutineEnds unit routine result fuel arguments memory outcome) :
    SafeOutcome unit.fields result (run unit routine fuel arguments memory) := by
  cases found : run unit routine fuel arguments memory with
  | none => trivial
  | some last =>
    cases ends with
    | lasts lasting =>
      rw [lasting] at found
      cases found
    | fails ended follows foreseen =>
      rw [run_unique ended found]
      exact ⟨foreseen, follows.fits⟩
    | answers ended follows typed =>
      rw [run_unique ended found]
      exact ⟨typed, follows.fits⟩

/-- The memory that a run leaves follows the one it started from. -/
theorem RoutineEnds.follows {unit : CompiledUnit} {routine : Routine} {result : Ty} {fuel : Nat}
    {arguments : List Slot} {memory changed : Memory} {outcome : Step Memory Slot}
    {last : Except Error Slot}
    (ends : RoutineEnds unit routine result fuel arguments memory outcome)
    (ended : run unit routine fuel arguments memory = some (last, changed)) :
    Follows unit.fields memory changed := by
  cases ends with
  | lasts lasting =>
    rw [lasting] at ended
    cases ended
  | fails always follows foreseen =>
    cases run_unique always ended
    exact follows
  | answers always follows typed =>
    cases run_unique always ended
    exact follows

/-- A compiled text has a tree that was accepted. -/
theorem compile_eq_ok {source qualifiedName : String} {unit : CompiledUnit}
    (compiled : compile source qualifiedName = .ok unit) :
    ∃ tree, parse source = .ok tree ∧ lowerUnit tree qualifiedName = .ok unit := by
  unfold compile at compiled
  split at compiled
  · cases compiled
  · rename_i tree parsed
    split at compiled
    · cases compiled
    · rename_i lowered
      cases compiled
      exact ⟨tree, parsed, lowered⟩

/-- Every run of every routine of an accepted unit is safe. -/
theorem compile_run_safe {source qualifiedName : String} {unit : CompiledUnit}
    (compiled : compile source qualifiedName = .ok unit) {signature : Signature}
    {routine : Routine} (declared : (signature, routine) ∈ unit.routines)
    {arguments : List Slot} {memory : Memory}
    (given : List.Forall₂ (Slot.Fits memory.cursors.length) arguments
      (signature.params.map (·.2)))
    (held : memory.Fits unit.fields) (fuel : Nat) :
    SafeOutcome unit.fields signature.result (run unit routine fuel arguments memory) := by
  obtain ⟨tree, -, accepted⟩ := compile_eq_ok compiled
  obtain ⟨scope, before, after, decl, fields, within, -, rule⟩ := lowerUnit_rules accepted declared
  exact (rule.ends fields within given held fuel).safe

/-- A unit that reads a key before the first step of its cursor. -/
def keyReader : String :=
  "module m;import sql.exec;unit U extends CompiledExec\x7bfield keys:MapScanIterator;" ++
    "new()\x7bsuper(3,[3]);\x7dfn prepare(exec:Exec)\x7b\x7d" ++
    "fn setup(ctx:FragmentContext)\x7b\x7d" ++
    "fn advance()->IterationResult\x7bthis.keys.key();return IterationResult.FETCHED;\x7d\x7d"

/-- A memory of that unit: its cursor stands before the first entry. -/
def keyReaderMemory : Memory :=
  ⟨[.handle (.cursor 0)], .empty 2, [.start (.empty "people" 4) (.ofList [0, 1])]⟩

/-- The memory fits the fields of the unit. -/
theorem keyReaderMemory_fits : keyReaderMemory.Fits [⟨"keys", .cursor⟩] := by
  constructor
  · refine .cons (.inr ⟨rfl, ?_⟩) .nil
    intro number same
    cases same
    exact Nat.zero_lt_one
  · intro cursor member
    rw [List.mem_singleton.1 member]
    exact .start _ _

deriving instance DecidableEq for Routine

/-- The code of that unit. -/
theorem compile_keyReader : ∃ unit, compile keyReader "m.U" = .ok unit ∧ unit.subsumedIds = [3] ∧
    unit.fields = [⟨"keys", .cursor⟩] ∧ unit.prepare = ⟨"prepare", [.finish], 1, 1⟩ ∧
    unit.setup = ⟨"setup", [.finish], 1, 1⟩ ∧ unit.advance = ⟨"advance",
      [.loadField 0, .call .cursorKey 0, .pop, .const 0, .answer, .missingAnswer], 0, 0⟩ := by
  have computed : (compile keyReader "m.U").toOption.map (fun unit =>
      (unit.subsumedIds, unit.fields, unit.prepare, unit.setup, unit.advance)) =
    some ([3], [⟨"keys", .cursor⟩], ⟨"prepare", [.finish], 1, 1⟩, ⟨"setup", [.finish], 1, 1⟩,
      ⟨"advance", [.loadField 0, .call .cursorKey 0, .pop, .const 0, .answer, .missingAnswer],
        0, 0⟩) := by decide +kernel
  obtain ⟨unit, compiled, parts⟩ := Option.map_eq_some_iff.1 computed
  simp only [Prod.mk.injEq] at parts
  exact ⟨unit, toOption_eq_some_iff.1 compiled, parts⟩

/-- The routine that reads too early is safe as well. -/
theorem compile_run_safe_keyReader : ∃ unit,
    compile keyReader "m.U" = .ok unit ∧
      SafeOutcome unit.fields .progress (run unit unit.advance 40 [] keyReaderMemory) := by
  obtain ⟨unit, compiled, -, fields, -⟩ := compile_keyReader
  have declared : (⟨"advance", [], .progress⟩, unit.advance) ∈ unit.routines := by
    simp [CompiledUnit.routines, signatures]
  refine ⟨unit, compiled, compile_run_safe compiled declared .nil ?_ 40⟩
  rw [fields]
  exact keyReaderMemory_fits

end QueryFusion.Script
