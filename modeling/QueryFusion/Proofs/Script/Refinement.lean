import Mathlib.Data.List.Nodup
import QueryFusion.Proofs.Script.Routines

/-!
# Code and trees have the same outcomes

Every routine of an accepted unit comes, on the machine, to exactly the outcome that its statements
come to on the tree: the same slot or error, with the same fields, batch and cursors left behind,
or none at all, when both go on forever.
-/

namespace QueryFusion.Script

variable {unit : CompiledUnit}

/-! ## Routines of accepted units -/

/-- Accepted routines have names of signatures, and no two of them have the same one. -/
theorem lowerRoutines_names {scope : UnitScope} {pools next : Pools} {done routines : List Routine}
    {decls : List RoutineDecl}
    (accepted : lowerRoutines scope pools done decls = .ok (routines, next)) :
    (∀ decl ∈ decls, ∃ signature ∈ signatures, signature.name = decl.name) ∧
      (∀ decl ∈ decls, ∀ routine ∈ done, routine.name ≠ decl.name) ∧
      (decls.map RoutineDecl.name).Nodup := by
  induction decls generalizing pools done with
  | nil => exact ⟨by simp, by simp, List.nodup_nil⟩
  | cons decl rest step =>
    simp only [lowerRoutines] at accepted
    split at accepted
    · cases accepted
    rename_i signature known
    split at accepted
    · cases accepted
    rename_i fresh
    simp only [bind_eq_ok_iff] at accepted
    obtain ⟨⟨routine, between⟩, first, accepted⟩ := accepted
    obtain ⟨-, locals, block, last, -, -, -, rfl, -⟩ := routineRule_of_lowerRoutine first
    obtain ⟨known', apart, distinct⟩ := step accepted
    have own : signature.name = decl.name := by
      have same := List.find?_some known
      exact eq_of_beq same
    have new : ∀ routine ∈ done, routine.name ≠ decl.name := by
      intro routine member same
      exact fresh (List.any_eq_true.2 ⟨routine, member, beq_iff_eq.2 same⟩)
    refine ⟨?_, ?_, ?_⟩
    · intro other member
      rcases List.mem_cons.1 member with rfl | later
      · exact ⟨signature, List.mem_of_find?_eq_some known, own⟩
      · exact known' other later
    · intro other member routine old
      rcases List.mem_cons.1 member with rfl | later
      · exact new routine old
      · exact apart other later routine (List.mem_append_left _ old)
    · rw [List.map_cons, List.nodup_cons]
      refine ⟨fun again => ?_, distinct⟩
      obtain ⟨other, later, same⟩ := List.mem_map.1 again
      exact apart other later _ (List.mem_append_right _ (List.mem_singleton_self _)) same.symm

/-- A unit has a routine for each signature. -/
theorem CompiledUnit.exists_routine (unit : CompiledUnit) {signature : Signature}
    (known : signature ∈ signatures) : ∃ routine, (signature, routine) ∈ unit.routines := by
  simp only [signatures, List.mem_cons, List.not_mem_nil, or_false] at known
  rcases known with rfl | rfl | rfl
  · exact ⟨unit.prepare, by simp [CompiledUnit.routines, signatures]⟩
  · exact ⟨unit.setup, by simp [CompiledUnit.routines, signatures]⟩
  · exact ⟨unit.advance, by simp [CompiledUnit.routines, signatures]⟩

/-- Every routine that is declared in an accepted unit has its code there. -/
theorem lowerUnit_rule_of_decl {source : SourceUnit} {qualifiedName : String}
    (accepted : lowerUnit source qualifiedName = .ok unit) {decl : RoutineDecl}
    (written : decl ∈ source.unit.routines) :
    ∃ signature routine scope before after, (signature, routine) ∈ unit.routines ∧
      signature.name = decl.name ∧ scope.fields = unit.fields ∧ after.Within unit ∧
      RoutineRule scope before decl signature routine after := by
  obtain ⟨_, _, _, -, -, lowered, parts⟩ := lowerUnit_parts accepted
  obtain ⟨names, -, distinct⟩ := lowerRoutines_names lowered
  obtain ⟨signature, known, same⟩ := names decl written
  obtain ⟨routine, declared⟩ := unit.exists_routine known
  obtain ⟨-, -, named⟩ := parts signature routine declared
  obtain ⟨scope, before, after, other, fields, within, present, rule⟩ :=
    lowerUnit_rules accepted declared
  -- the code is that of some declared routine, and only one of these has the name
  have alike : other.name = decl.name := by
    rw [← same, ← named]
    obtain ⟨-, locals, block, last, -, -, -, rfl, -⟩ := rule
    rfl
  have unique : other = decl := List.inj_on_of_nodup_map distinct present written alike
  exact ⟨signature, routine, scope, before, after, declared, same, fields, within, unique ▸ rule⟩

/-! ## Outcomes -/

/-- The outcome of the tree is the outcome of the code. -/
theorem RoutineEnds.run_eq {routine : Routine} {result : Ty} {fuel : Nat} {arguments : List Slot}
    {memory : Memory} {outcome : Except Error Slot × Memory}
    (ends : RoutineEnds unit routine result fuel arguments memory (some outcome)) :
    ∃ steps, run unit routine steps arguments memory = some outcome := by
  cases ends with
  | fails ended follows foreseen => exact ⟨_, ended 0⟩
  | answers ended follows typed => exact ⟨_, ended 0⟩

/-- The outcome of the code is the outcome of the tree, with the same fuel. -/
theorem RoutineEnds.outcome_eq {routine : Routine} {result : Ty} {fuel : Nat}
    {arguments : List Slot} {memory : Memory} {outcome : Step Memory Slot}
    {found : Except Error Slot × Memory}
    (ends : RoutineEnds unit routine result fuel arguments memory outcome)
    (ended : run unit routine fuel arguments memory = some found) : outcome = some found := by
  cases ends with
  | lasts lasting =>
    rw [lasting] at ended
    cases ended
  | fails always follows foreseen => rw [run_unique always ended]
  | answers always follows typed => rw [run_unique always ended]

/-- A routine has an outcome on the machine exactly when it has the same one on the tree. -/
theorem RoutineRule.run_iff {scope : UnitScope} {pools next : Pools} {decl : RoutineDecl}
    {signature : Signature} {routine : Routine} {arguments : List Slot} {memory : Memory}
    (rule : RoutineRule scope pools decl signature routine next)
    (fields : scope.fields = unit.fields) (within : next.Within unit)
    (given : List.Forall₂ (Slot.Fits memory.cursors.length) arguments
      (signature.params.map (·.2)))
    (held : memory.Fits unit.fields) (outcome : Except Error Slot × Memory) :
    (∃ fuel, run unit routine fuel arguments memory = some outcome) ↔
      ∃ fuel, execRoutine unit fuel decl arguments memory = some outcome := by
  have ends := rule.ends fields within given held
  constructor
  · rintro ⟨fuel, ended⟩
    exact ⟨fuel, (ends fuel).outcome_eq ended⟩
  · rintro ⟨fuel, reached⟩
    have followed := ends fuel
    rw [reached] at followed
    exact followed.run_eq

/-- A routine goes on forever: no fuel is enough for it. -/
def GoesOn (attempt : Nat → Step Memory Slot) : Prop :=
  ∀ fuel, attempt fuel = none

/-- Two ways to execute a routine that have the same outcomes go on forever together. -/
theorem goesOn_iff {first second : Nat → Step Memory Slot}
    (same : ∀ outcome, (∃ fuel, first fuel = some outcome) ↔ ∃ fuel, second fuel = some outcome) :
    GoesOn first ↔ GoesOn second := by
  have goes : ∀ attempt : Nat → Step Memory Slot,
      GoesOn attempt ↔ ∀ outcome, ¬∃ fuel, attempt fuel = some outcome := by
    intro attempt
    constructor
    · rintro lasting outcome ⟨fuel, ended⟩
      rw [lasting fuel] at ended
      cases ended
    · intro never fuel
      exact Option.eq_none_iff_forall_not_mem.2 fun outcome ended => never outcome ⟨fuel, ended⟩
  rw [goes, goes]
  exact forall_congr' fun outcome => not_congr (same outcome)

/-- Every routine of an accepted unit does on the machine what its statements do on the tree. -/
theorem lowerUnit_run_iff_exec {source : SourceUnit} {qualifiedName : String}
    (accepted : lowerUnit source qualifiedName = .ok unit) {decl : RoutineDecl}
    (written : decl ∈ source.unit.routines) :
    ∃ signature routine, (signature, routine) ∈ unit.routines ∧ signature.name = decl.name ∧
      ∀ arguments memory,
        List.Forall₂ (Slot.Fits memory.cursors.length) arguments (signature.params.map (·.2)) →
        memory.Fits unit.fields →
          (∀ outcome, (∃ fuel, run unit routine fuel arguments memory = some outcome) ↔
            ∃ fuel, execRoutine unit fuel decl arguments memory = some outcome) ∧
          (GoesOn (fun fuel => run unit routine fuel arguments memory) ↔
            GoesOn (fun fuel => execRoutine unit fuel decl arguments memory)) := by
  obtain ⟨signature, routine, scope, before, after, declared, named, fields, within, rule⟩ :=
    lowerUnit_rule_of_decl accepted written
  refine ⟨signature, routine, declared, named, fun arguments memory given held => ?_⟩
  have same := rule.run_iff fields within given held
  exact ⟨same, goesOn_iff same⟩

/-- The call of a method of the cursor that a unit keeps. -/
def seekCall (method : String) : Term :=
  .call .first (.member .first (.this .first) "keys") method []

/-- A routine that looks for an entry without null: it skips entries in one loop and leaves
another. -/
def seekAdvance : RoutineDecl :=
  let fetched (name : String) : Term := .member .first (.name .first "IterationResult") name
  let isNull (method : String) : Term := .binary .first .equal (seekCall method) (.null .first)
  ⟨"advance", [], some ⟨"IterationResult", none, .first⟩,
    [.loop .first (seekCall "tryAdvance")
      [.branch .first (.binary .first .or (isNull "key") (isNull "value")) [.proceed .first],
       .loop .first (.boolean .first true) [.leave .first],
       .answer .first (.conditional .first
         (.binary .first .equal (seekCall "key") (seekCall "value"))
         (fetched "FETCHED") (fetched "FETCHED_DONE"))],
     .answer .first (fetched "FETCHED_DONE")], .first⟩

/-- The unit of that routine. -/
def seekUnit : SourceUnit :=
  ⟨"m", [⟨"sql.exec", .first⟩],
    ⟨"U", "CompiledExec", [⟨"keys", ⟨"MapScanIterator", none, .first⟩, .first⟩],
      [⟨[.construct .first [.int .first 3, .ints .first [3]]], .first⟩],
      [⟨"prepare", [⟨"exec", ⟨"Exec", none, .first⟩, .first⟩], none, [], .first⟩,
       ⟨"setup", [⟨"ctx", ⟨"FragmentContext", none, .first⟩, .first⟩], none, [], .first⟩,
       seekAdvance], .first⟩⟩

/-- A memory of that unit: its cursor stands before the first entry. -/
def seekMemory : Memory :=
  ⟨[.handle (.cursor 0)], .empty 2, [.start (.empty "people" 4) (.ofList [0, 1])]⟩

/-- The routine that looks for an entry has the same outcomes on the machine and on the tree. -/
theorem lowerUnit_run_iff_exec_seek : ∃ unit,
    lowerUnit seekUnit "m.U" = .ok unit ∧ seekMemory.Fits unit.fields ∧
      ∀ outcome, (∃ fuel, run unit unit.advance fuel [] seekMemory = some outcome) ↔
        ∃ fuel, execRoutine unit fuel seekAdvance [] seekMemory = some outcome := by
  have accepted : ((lowerUnit seekUnit "m.U").toOption.map CompiledUnit.fields) =
      some [⟨"keys", .cursor⟩] := by decide +kernel
  obtain ⟨unit, lowered, fields⟩ := Option.map_eq_some_iff.1 accepted
  rw [toOption_eq_some_iff] at lowered
  have fits : seekMemory.Fits unit.fields := by
    rw [fields]
    refine ⟨.cons (.inr ⟨rfl, ?_⟩) .nil, ?_⟩
    · intro number same
      cases same
      exact Nat.zero_lt_one
    · intro cursor member
      rw [List.mem_singleton.1 member]
      exact .start _ _
  have written : seekAdvance ∈ seekUnit.unit.routines := by simp [seekUnit]
  obtain ⟨signature, routine, declared, named, same⟩ := lowerUnit_run_iff_exec lowered written
  -- of the three signatures only one has the name of the routine
  simp only [CompiledUnit.routines, signatures, List.zip_cons_cons, List.zip_nil_right,
    List.mem_cons, Prod.mk.injEq, List.not_mem_nil, or_false] at declared
  rcases declared with ⟨rfl, rfl⟩ | ⟨rfl, rfl⟩ | ⟨rfl, rfl⟩
  · simp [seekAdvance] at named
  · simp [seekAdvance] at named
  · exact ⟨unit, lowered, fits, (same [] seekMemory .nil fits).1⟩

end QueryFusion.Script
