import QueryFusion.Proofs.Script.Statements

/-!
# Routines and units

A routine starts with its arguments as its first locals. Its code follows the execution of its body
on the tree, and the instruction behind the body is only reached by a routine without a result. What
the compiler guarantees of every routine of a unit is read off its rules here.
-/

namespace QueryFusion.Script

variable {unit : CompiledUnit}

/-! ## Blocks that end the routine -/

/-- The execution does not go on behind its statements. -/
def NeverThrough (outcome : Step Memory (Exit × Env)) : Prop :=
  ∀ env changed, outcome ≠ some (.ok (.through, env), changed)

/-- What does not go on does not go on in braces. -/
theorem NeverThrough.inBraces {body : Execution} {env : Env} {memory : Memory}
    (never : NeverThrough (body env memory)) : NeverThrough (inBraces body env memory) := by
  intro last changed same
  unfold Script.inBraces at same
  rcases outcome : body env memory with _ | ⟨_ | ⟨exit, inner⟩, final⟩
  · rw [outcome] at same
    cases same
  · rw [outcome] at same
    cases same
  · rw [outcome] at same never
    cases exit with
    | through => exact never inner final rfl
    | proceed | leave | answer slot => cases same

mutual

/-- A statement that ends the routine on every path does not go on. -/
theorem Stmt.neverThrough {statement : Stmt} (ends : statement.ends = true) (fuel : Nat)
    (env : Env) (memory : Memory) : NeverThrough (execStmt unit fuel statement env memory) := by
  cases statement with
  | finish position =>
    intro last changed same
    cases same
  | answer position value =>
    intro last changed same
    simp only [execStmt] at same
    rcases outcome : evalTerm unit env value memory with ⟨_ | slot, final⟩
    · rw [outcome] at same
      cases same
    · rw [outcome] at same
      cases same
  | choose position condition thenBlock elseBlock =>
    simp only [Stmt.ends, Bool.and_eq_true] at ends
    intro last changed same
    simp only [execStmt] at same
    rcases outcome : testTerm unit env condition memory with ⟨_ | truth, final⟩
    · rw [outcome] at same
      cases same
    · rw [outcome] at same
      cases truth with
      | true => exact (blockNeverThrough ends.1 fuel env final).inBraces last changed same
      | false => exact (blockNeverThrough ends.2 fuel env final).inBraces last changed same
  | _ => cases ends

/-- Statements that end the routine on every path do not go on. -/
theorem blockNeverThrough {statements : List Stmt} (ends : blockEnds statements = true)
    (fuel : Nat) (env : Env) (memory : Memory) :
    NeverThrough (execStmts unit fuel statements env memory) := by
  cases statements with
  | nil => cases ends
  | cons statement rest =>
    intro last changed same
    simp only [execStmts] at same
    rcases outcome : execStmt unit fuel statement env memory with _ | ⟨_ | ⟨exit, next⟩, final⟩
    · rw [outcome] at same
      cases same
    · rw [outcome] at same
      cases same
    · rw [outcome] at same
      cases exit with
      | through =>
        cases rest with
        | nil => exact Stmt.neverThrough ends fuel env memory next final outcome
        | cons second others =>
          have later : blockEnds (second :: others) = true := ends
          exact blockNeverThrough later fuel next final last changed same
      | proceed | leave | answer slot => cases same

end

/-! ## Parameters -/

/-- A local whose slot is there already comes into sight. -/
theorem Mirrors.appear {locals : Locals} {slots : List Slot} {cursorCount : Nat} {env : Env}
    (mirrors : Mirrors locals slots cursorCount env) {type : Ty} {slot : Slot}
    (present : slots[locals.types.length]? = some slot) (fits : slot.Fits cursorCount type)
    (name : String) :
    Mirrors ⟨(name, locals.types.length) :: locals.visible, locals.types ++ [type]⟩ slots
      cursorCount ((name, slot) :: env) :=
  .cons ⟨rfl, present, type, by simp, fits⟩ (mirrors.grow (List.prefix_append _ _))

/-- The parameters mirror their arguments, behind the locals that are there already. -/
theorem lowerParams_mirrors {scope : UnitScope} {cursorCount : Nat} {params : List Param}
    {expected : List (String × Ty)} {locals next : Locals} {arguments slots : List Slot} {env : Env}
    (accepted : lowerParams scope locals params expected = .ok next)
    (arity : params.length = expected.length)
    (given : List.Forall₂ (Slot.Fits cursorCount) arguments (expected.map (·.2)))
    (valid : locals.Valid) (mirrors : Mirrors locals slots cursorCount env)
    (stored : arguments <+: slots.drop locals.types.length) :
    next.Valid ∧ Mirrors next slots cursorCount
      (((params.map Param.name).zip arguments).reverse ++ env) := by
  induction params generalizing expected locals arguments env with
  | nil =>
    cases expected with
    | nil =>
      cases accepted
      exact ⟨valid, mirrors⟩
    | cons first rest => cases arity
  | cons param params step =>
    cases expected with
    | nil => cases arity
    | cons first rest =>
      obtain ⟨name, type⟩ := first
      simp only [lowerParams, bind_eq_ok_iff] at accepted
      obtain ⟨declared, -, accepted⟩ := accepted
      split at accepted
      · rename_i same
        simp only [bind_eq_ok_iff] at accepted
        obtain ⟨⟨number, added⟩, declaring, accepted⟩ := accepted
        obtain ⟨-, rfl, rfl⟩ := Locals.declare_eq_ok_iff.1 declaring
        cases given with
        | @cons argument _ others _ fits allFit =>
          obtain ⟨after, whole⟩ := stored
          have present : slots[locals.types.length]? = some argument := by
            have first := congrArg (·[0]?) whole
            simpa using first.symm
          have stored : others <+: slots.drop (locals.types ++ [type]).length := by
            refine ⟨after, ?_⟩
            rw [List.length_append, List.length_singleton, ← List.drop_drop, ← whole]
            rfl
          have last := step accepted (Nat.succ.inj arity) allFit (valid.declare name type)
            (mirrors.appear present fits name) stored
          rw [List.map_cons, List.zip_cons_cons, List.reverse_cons, List.append_assoc,
            List.singleton_append, same.2]
          exact last
      · cases accepted

/-! ## Routines -/

/-- What the compiler guarantees of a routine. -/
structure RoutineRule (scope : UnitScope) (pools : Pools) (decl : RoutineDecl)
    (signature : Signature) (routine : Routine) (next : Pools) : Prop where
  arity : decl.params.length = signature.params.length
  body : ∃ locals block last, lowerParams scope ⟨[], []⟩ decl.params signature.params = .ok locals ∧
    LowersBlock ⟨scope, signature.result, none⟩ 0 locals pools decl.body block ∧
    next = block.pools ∧
    routine = ⟨decl.name, block.pieces.map Piece.instruction ++ [last], decl.params.length,
      block.locals.types.length⟩ ∧
    ((signature.result = .void ∧ last = Op.finish) ∨
      (signature.result ≠ .void ∧ blockEnds decl.body = true ∧ last = Op.missingAnswer))

/-- An accepted routine follows the rule. -/
theorem routineRule_of_lowerRoutine {scope : UnitScope} {pools next : Pools} {decl : RoutineDecl}
    {signature : Signature} {routine : Routine}
    (accepted : lowerRoutine scope pools decl signature = .ok (routine, next)) :
    RoutineRule scope pools decl signature routine next := by
  unfold lowerRoutine at accepted
  -- both ways to write the type of the result lead to the same checks
  cases written : decl.returnType
  all_goals
    rw [written] at accepted
    simp only [bind_eq_ok_iff] at accepted
    obtain ⟨declared, -, accepted⟩ := accepted
    split at accepted
    · cases accepted
    split at accepted
    · cases accepted
    rename_i arity
    simp only [bind_eq_ok_iff] at accepted
    obtain ⟨locals, params, block, body, accepted⟩ := accepted
    have body := lowersBlock_of_lowerStmts decl.body body
    refine ⟨not_not.1 arity, locals, block, ?_⟩
    split at accepted
    · rename_i without
      cases accepted
      exact ⟨_, params, body, rfl, rfl, .inl ⟨without, rfl⟩⟩
    · rename_i wanted
      split at accepted
      · rename_i ends
        cases accepted
        exact ⟨_, params, body, rfl, rfl, .inr ⟨wanted, ends, rfl⟩⟩
      · cases accepted

/-- The run of a routine follows an outcome on the tree. -/
inductive RoutineEnds (unit : CompiledUnit) (routine : Routine) (result : Ty) (fuel : Nat)
    (arguments : List Slot) (memory : Memory) : Step Memory Slot → Prop
  | lasts (lasting : run unit routine fuel arguments memory = none) :
      RoutineEnds unit routine result fuel arguments memory none
  | fails {error : Error} {changed : Memory} {steps : Nat}
      (ended : ∀ more, run unit routine (more + steps) arguments memory =
        some (.error error, changed))
      (follows : Follows unit.fields memory changed) (foreseen : Foreseen error) :
      RoutineEnds unit routine result fuel arguments memory (some (.error error, changed))
  | answers {slot : Slot} {changed : Memory} {steps : Nat}
      (ended : ∀ more, run unit routine (more + steps) arguments memory = some (.ok slot, changed))
      (follows : Follows unit.fields memory changed)
      (typed : Answers result changed.cursors.length slot) :
      RoutineEnds unit routine result fuel arguments memory (some (.ok slot, changed))

/-- Outside of loops the marks of pieces do not matter. -/
theorem Piece.instruction_eq (pieces : List Piece) :
    pieces.map Piece.instruction = pieces.map (Piece.placed 0) := by
  refine List.map_congr_left fun piece _ => ?_
  cases piece <;> rfl

/-- The code of a routine follows the execution of its body on the tree. -/
theorem RoutineRule.ends {scope : UnitScope} {pools next : Pools} {decl : RoutineDecl}
    {signature : Signature} {routine : Routine} {arguments : List Slot} {memory : Memory}
    (rule : RoutineRule scope pools decl signature routine next)
    (fields : scope.fields = unit.fields) (within : next.Within unit)
    (given : List.Forall₂ (Slot.Fits memory.cursors.length) arguments
      (signature.params.map (·.2)))
    (fits : memory.Fits unit.fields) (fuel : Nat) :
    RoutineEnds unit routine signature.result fuel arguments memory
      (execRoutine unit fuel decl arguments memory) := by
  obtain ⟨arity, locals, block, last, params, body, rfl, rfl, ending⟩ := rule
  have count : arguments.length = decl.params.length := by
    rw [given.length_eq, List.length_map, arity]
  let slots := arguments ++ List.replicate
    (max block.locals.types.length decl.params.length - arguments.length) Slot.unset
  have room : block.locals.types.length ≤ slots.length := by
    simp only [slots, List.length_append, List.length_replicate]
    omega
  have empty : Mirrors ⟨[], []⟩ slots memory.cursors.length [] := .nil
  obtain ⟨valid, mirrors⟩ := lowerParams_mirrors params arity given ⟨List.nodup_nil, by simp⟩ empty
    (List.prefix_append _ _)
  rw [List.append_nil] at mirrors
  let routine : Routine := ⟨decl.name, block.pieces.map Piece.instruction ++ [last],
    decl.params.length, block.locals.types.length⟩
  have begins : ∀ fuel, run unit routine fuel arguments memory =
      runFrom unit routine fuel ⟨0, slots, []⟩ memory := by
    intro fuel
    unfold run
    exact if_neg (not_not.2 count)
  have code : CodeAt routine.ops 0 (block.pieces.map (Piece.placed 0) ++ [last]) := by
    rw [← Piece.instruction_eq]
    exact .refl _
  have followed := (body.executes fields within valid).ends fuel 0 [] code.left room mirrors fits
  unfold execRoutine bindParams
  cases outcome : execStmts unit fuel decl.body _ memory with
  | none =>
    rw [outcome] at followed
    cases followed with
    | lasts lasting => exact .lasts ((begins fuel).trans lasting)
  | some result =>
    rw [outcome] at followed
    cases followed with
    | fails halts follows foreseen =>
      obtain ⟨steps, ended⟩ := halts
      exact .fails (fun more => (begins _).trans (ended more)) follows foreseen
    | @through final env changed reaches size follows mirrors =>
      rcases ending with ⟨without, rfl⟩ | ⟨-, ends, -⟩
      · have stopping := code.right.head
        rw [List.length_map] at stopping
        obtain ⟨steps, ended⟩ := reaches.halts (Halts.stop stopping rfl)
        exact .answers (fun more => (begins _).trans (ended more)) follows (.inl ⟨without, rfl⟩)
      · exact absurd outcome (blockNeverThrough ends fuel _ memory env changed)
    | proceed inside reaches size follows extended mirrors => cases inside
    | leave inside reaches size follows extended mirrors => cases inside
    | answer halts follows typed =>
      obtain ⟨steps, ended⟩ := halts
      exact .answers (fun more => (begins _).trans (ended more)) follows typed

/-! ## Units -/

/-- The routines of a unit, with what they must be. -/
def CompiledUnit.routines (unit : CompiledUnit) : List (Signature × Routine) :=
  signatures.zip [unit.prepare, unit.setup, unit.advance]

/-- The names of the signatures tell them apart. -/
theorem signature_ext {first second : Signature} (left : first ∈ signatures)
    (right : second ∈ signatures) (same : first.name = second.name) : first = second := by
  simp only [signatures, List.mem_cons, List.not_mem_nil, or_false] at left right
  rcases left with rfl | rfl | rfl <;> rcases right with rfl | rfl | rfl <;>
    first | rfl | simp at same

/-- Routines one after another: each follows the rule of its name, and the constants and names
only grow. -/
theorem lowerRoutines_rules {scope : UnitScope} {pools next : Pools} {done routines : List Routine}
    {decls : List RoutineDecl} {unit : CompiledUnit}
    (accepted : lowerRoutines scope pools done decls = .ok (routines, next))
    (within : next.Within unit) :
    pools.Within unit ∧ ∀ routine ∈ routines, routine ∈ done ∨
      ∃ before after decl signature, RoutineRule scope before decl signature routine after ∧
        after.Within unit ∧ decl ∈ decls ∧ signature ∈ signatures ∧
        signature.name = routine.name := by
  induction decls generalizing pools done with
  | nil =>
    cases accepted
    exact ⟨within, fun routine member => .inl member⟩
  | cons decl rest step =>
    simp only [lowerRoutines] at accepted
    split at accepted
    · cases accepted
    · rename_i signature known
      split at accepted
      · cases accepted
      · simp only [bind_eq_ok_iff] at accepted
        obtain ⟨⟨routine, between⟩, first, accepted⟩ := accepted
        have rule := routineRule_of_lowerRoutine first
        obtain ⟨further, rules⟩ := step accepted
        have named : signature.name = routine.name := by
          have same := List.find?_some known
          obtain ⟨-, locals, block, last, -, -, -, rfl, -⟩ := rule
          exact eq_of_beq same
        refine ⟨?_, fun other member => ?_⟩
        · obtain ⟨-, locals, block, last, -, body, rfl, -, -⟩ := rule
          exact body.within further
        · rcases rules other member with old | ⟨before, after, own, its, ruled, inside, present,
            listed, same⟩
          · rcases List.mem_append.1 old with old | new
            · exact .inl old
            · rw [List.mem_singleton.1 new]
              exact .inr ⟨pools, between, decl, signature, rule, further, List.mem_cons_self,
                List.mem_of_find?_eq_some known, named⟩
          · exact .inr ⟨before, after, own, its, ruled, inside, List.mem_cons_of_mem _ present,
              listed, same⟩

/-- A routine that must be there is one of the routines, under its name. -/
theorem requireRoutine_mem {routines : List Routine} {name : String} {position : Position}
    {routine : Routine} (found : requireRoutine routines name position = .ok routine) :
    routine ∈ routines ∧ routine.name = name := by
  unfold requireRoutine at found
  split at found
  · rename_i seen
    cases found
    have same := List.find?_some seen
    exact ⟨List.mem_of_find?_eq_some seen, eq_of_beq same⟩
  · cases found

/-- An accepted unit has the code of its routines, one for each signature. -/
theorem lowerUnit_parts {source : SourceUnit} {qualifiedName : String}
    (accepted : lowerUnit source qualifiedName = .ok unit) :
    ∃ scope routines pools, scope.fields = unit.fields ∧ pools.Within unit ∧
      lowerRoutines scope ⟨[], []⟩ [] source.unit.routines = .ok (routines, pools) ∧
      ∀ signature routine, (signature, routine) ∈ unit.routines →
        signature ∈ signatures ∧ routine ∈ routines ∧ routine.name = signature.name := by
  unfold lowerUnit at accepted
  simp only at accepted
  split at accepted
  · cases accepted
  simp only [bind_eq_ok_iff] at accepted
  obtain ⟨imports, -, accepted⟩ := accepted
  split at accepted
  · cases accepted
  simp only [bind_eq_ok_iff, Except.ok.injEq] at accepted
  obtain ⟨-, -, scope, -, ⟨primaryId, subsumedIds⟩, -, ⟨routines, pools⟩, lowered, prepare,
    prepareFound, setup, setupFound, advance, advanceFound, rfl⟩ := accepted
  refine ⟨scope, routines, pools, rfl, ⟨List.prefix_refl _, List.prefix_refl _⟩, lowered, ?_⟩
  intro signature routine declared
  simp only [CompiledUnit.routines, signatures, List.zip_cons_cons, List.zip_nil_right,
    List.mem_cons, Prod.mk.injEq, List.not_mem_nil, or_false] at declared
  rcases declared with ⟨rfl, rfl⟩ | ⟨rfl, rfl⟩ | ⟨rfl, rfl⟩
  · exact ⟨by simp [signatures], requireRoutine_mem prepareFound⟩
  · exact ⟨by simp [signatures], requireRoutine_mem setupFound⟩
  · exact ⟨by simp [signatures], requireRoutine_mem advanceFound⟩

/-- The routines of an accepted unit follow the rule of their signature. -/
theorem lowerUnit_rules {source : SourceUnit} {qualifiedName : String}
    (accepted : lowerUnit source qualifiedName = .ok unit) {signature : Signature}
    {routine : Routine} (declared : (signature, routine) ∈ unit.routines) :
    ∃ scope before after decl, scope.fields = unit.fields ∧ after.Within unit ∧
      decl ∈ source.unit.routines ∧ RoutineRule scope before decl signature routine after := by
  obtain ⟨scope, routines, pools, fields, within, lowered, parts⟩ := lowerUnit_parts accepted
  obtain ⟨known, member, named⟩ := parts signature routine declared
  obtain ⟨-, rules⟩ := lowerRoutines_rules lowered within
  rcases rules routine member with old | ⟨before, after, decl, other, rule, inside, present, also,
    same⟩
  · cases old
  · have unique : other = signature := signature_ext also known (same.trans named)
    exact ⟨scope, before, after, decl, fields, inside, present, unique ▸ rule⟩

end QueryFusion.Script
