import QueryFusion.Proofs.Script.Acceptance
import QueryFusion.Proofs.Script.ReadingUnits
import QueryFusion.Proofs.Script.Refinement

/-!
# Accepted units

A unit is accepted when its frame is right (its name, its base, its imports, its fields and its
constructor) and each of its routines is accepted in the scope of that frame. Whether it is, and
what code it gets, does not depend on the places of its parts.
-/

namespace QueryFusion.Script

/-! ## Places -/

/-- Imports go by their modules. -/
theorem checkImports_alike {first second : List Import} {seen known : List String}
    (same : first.map Import.moduleName = second.map Import.moduleName)
    (accepted : checkImports seen first = .ok known) : checkImports seen second = .ok known := by
  induction first generalizing second seen with
  | nil =>
    obtain rfl : second = [] := by simpa using same.symm
    exact accepted
  | cons entry rest step =>
    obtain ⟨other, others, rfl, here, behind⟩ := List.map_eq_cons_iff.1 same.symm
    simp only [checkImports, here] at accepted ⊢
    split at accepted
    · cases accepted
    · rename_i listed
      split at accepted
      · cases accepted
      · rename_i new
        rw [if_neg listed, if_neg new]
        exact step behind.symm accepted

/-- Fields go by their names and types. -/
theorem lowerFields_alike {first second : List FieldDecl} {scope last : UnitScope}
    (same : List.Forall₂ FieldDecl.Alike first second)
    (accepted : lowerFields scope first = .ok last) : lowerFields scope second = .ok last := by
  induction same generalizing scope with
  | nil => exact accepted
  | @cons decl other rest others alike _ step =>
    simp only [lowerFields, bind_eq_ok_iff] at accepted
    obtain ⟨type, typed, accepted⟩ := accepted
    rw [lowerFields, alike.type.resolve_eq typed, ok_bind, ← alike.name]
    split at accepted
    · cases accepted
    · rename_i new
      rw [if_neg new]
      exact step accepted

/-- A constructor is accepted when it is the only one and does nothing but call that of the base,
with different numbers and the first of them among the others. -/
theorem checkConstructor_eq_ok_iff {decl : UnitDecl} {primary : Int32} {subsumed : List Int32} :
    checkConstructor decl = .ok (primary, subsumed) ↔
      (∃ place position here there, decl.constructors =
        [⟨[.construct position [.int here primary, .ints there subsumed]], place⟩]) ∧
      firstRepeated? [] subsumed = none ∧ primary ∈ subsumed := by
  constructor
  · intro accepted
    unfold checkConstructor at accepted
    split at accepted
    · cases accepted
    · cases accepted
    rename_i only shape
    split at accepted
    · rename_i position here first there numbers body
      split at accepted
      · cases accepted
      rename_i unrepeated
      split at accepted
      · rename_i inside
        cases accepted
        refine ⟨⟨only.position, position, here, there, ?_⟩, unrepeated,
          List.contains_iff_mem.1 inside⟩
        rw [shape, ← body]
      · cases accepted
    all_goals cases accepted
  · rintro ⟨⟨place, position, here, there, only⟩, unrepeated, inside⟩
    unfold checkConstructor
    rw [only]
    simp only [unrepeated]
    rw [if_pos (List.contains_iff_mem.2 inside)]

/-- The constructor goes by the numbers in it. -/
theorem checkConstructor_alike {first second : UnitDecl} (same : first.Alike second)
    {ids : Int32 × List Int32} (accepted : checkConstructor first = .ok ids) :
    checkConstructor second = .ok ids := by
  obtain ⟨primary, subsumed⟩ := ids
  rw [checkConstructor_eq_ok_iff] at accepted ⊢
  obtain ⟨⟨place, position, here, there, only⟩, rest⟩ := accepted
  refine ⟨?_, rest⟩
  have constructors := same.constructors
  rw [only] at constructors
  obtain ⟨⟨body, otherPlace⟩, others, ⟨alike⟩, none, listed⟩ :=
    List.forall₂_cons_left_iff.1 constructors
  obtain rfl := List.forall₂_nil_left_iff.1 none
  cases alike with
  | cons statement behind =>
    cases behind
    cases statement with
    | construct arguments =>
      obtain _ | ⟨number, numbers⟩ := arguments
      obtain _ | ⟨list, none⟩ := numbers
      cases number
      cases list
      cases none
      exact ⟨_, _, _, _, listed⟩

/-- Parameters go by their names and types. -/
theorem lowerParams_alike {scope : UnitScope} {first second : List Param}
    {expected : List (String × Ty)} {locals last : Locals}
    (same : List.Forall₂ Param.Alike first second)
    (accepted : lowerParams scope locals first expected = .ok last) :
    lowerParams scope locals second expected = .ok last := by
  induction same generalizing expected locals with
  | nil => exact accepted
  | @cons param other params others alike _ step =>
    cases expected with
    | nil => exact accepted
    | cons head rest =>
      simp only [lowerParams, bind_eq_ok_iff] at accepted ⊢
      obtain ⟨declared, typed, accepted⟩ := accepted
      refine ⟨declared, alike.type.resolve_eq typed, ?_⟩
      split at accepted
      · rename_i fits
        rw [if_pos ⟨fits.1, alike.name ▸ fits.2⟩]
        simp only [bind_eq_ok_iff] at accepted ⊢
        obtain ⟨⟨number, added⟩, new, accepted⟩ := accepted
        exact ⟨(number, added), Locals.declare_eq_ok_iff.2 (Locals.declare_eq_ok_iff.1 new),
          step accepted⟩
      · cases accepted

/-- The type that a routine declares for its result. -/
def Declares (scope : UnitScope) (written : Option TypeName) (result : Ty) : Prop :=
  match written with
  | some type => scope.resolve type = .ok result
  | none => result = .void

/-- A routine is accepted when its result, its parameters and its body are. -/
theorem lowerRoutine_eq_ok_iff {scope : UnitScope} {pools next : Pools} {decl : RoutineDecl}
    {signature : Signature} {routine : Routine} :
    lowerRoutine scope pools decl signature = .ok (routine, next) ↔
      Declares scope decl.returnType signature.result ∧
      decl.params.length = signature.params.length ∧
      ∃ (locals : Locals) (block : LoweredBlock) (last : Op),
        lowerParams scope ⟨[], []⟩ decl.params signature.params = .ok locals ∧
        LowersBlock ⟨scope, signature.result, none⟩ 0 locals pools decl.body block ∧
        next = block.pools ∧
        routine = ⟨decl.name, block.pieces.map Piece.instruction ++ [last], decl.params.length,
          block.locals.types.length⟩ ∧
        (signature.result = .void ∧ last = .finish ∨
          signature.result ≠ .void ∧ blockEnds decl.body = true ∧ last = .missingAnswer) := by
  unfold lowerRoutine
  -- both ways to write the type of the result lead to the same checks
  cases written : decl.returnType
  all_goals
    simp only [bind_eq_ok_iff, Declares]
    constructor
    · rintro ⟨declared, typed, accepted⟩
      split at accepted
      · cases accepted
      rename_i fits
      obtain rfl := not_not.1 fits
      split at accepted
      · cases accepted
      rename_i arity
      simp only [bind_eq_ok_iff] at accepted
      obtain ⟨locals, params, block, body, accepted⟩ := accepted
      have body := lowersBlock_of_lowerStmts decl.body body
      refine ⟨?_, not_not.1 arity, locals, block, ?_⟩
      · first
          | exact typed
          | exact (Except.ok.inj typed).symm
      split at accepted
      · rename_i without
        cases accepted
        exact ⟨_, params, body, rfl, rfl, .inl ⟨without, rfl⟩⟩
      · rename_i wanted
        split at accepted
        · rename_i ends
          cases accepted
          exact ⟨_, params, body, rfl, rfl, .inr ⟨wanted, ends, rfl⟩⟩
        · cases accepted
    · rintro ⟨typed, arity, locals, block, last, params, body, rfl, rfl, ending⟩
      refine ⟨signature.result, ?_, ?_⟩
      · first
          | exact typed
          | exact congrArg Except.ok typed.symm
      rw [if_neg (not_not.2 rfl), if_neg (not_not.2 arity)]
      simp only [bind_eq_ok_iff]
      refine ⟨locals, params, block, body.lowerStmts_eq, ?_⟩
      rcases ending with ⟨without, rfl⟩ | ⟨wanted, ends, rfl⟩
      · rw [if_pos without]
      · rw [if_neg wanted, if_pos ends]

/-- Routines that are alike have the same code. -/
theorem lowerRoutine_alike {scope : UnitScope} {pools : Pools} {first second : RoutineDecl}
    {signature : Signature} {lowered : Routine × Pools} (same : first.Alike second)
    (accepted : lowerRoutine scope pools first signature = .ok lowered) :
    lowerRoutine scope pools second signature = .ok lowered := by
  obtain ⟨routine, next⟩ := lowered
  obtain ⟨typed, arity, locals, block, last, params, body, rfl, rfl, ending⟩ :=
    lowerRoutine_eq_ok_iff.1 accepted
  have count := same.params.length_eq
  rw [lowerRoutine_eq_ok_iff, ← same.name, ← count, ← same.body.blockEnds_eq]
  refine ⟨?_, arity, locals, block, last, lowerParams_alike same.params params,
    body.alike same.body, rfl, rfl, ending⟩
  have results := same.returnType
  unfold Declares at typed ⊢
  revert typed results
  generalize first.returnType = here
  generalize second.returnType = there
  rintro typed (alike | _)
  · exact alike.resolve_eq typed
  · exact typed

/-- Routines that are alike one by one have the same code. -/
theorem lowerRoutines_alike {scope : UnitScope} {pools : Pools} {first second : List RoutineDecl}
    {done : List Routine} {lowered : List Routine × Pools}
    (same : List.Forall₂ RoutineDecl.Alike first second)
    (accepted : lowerRoutines scope pools done first = .ok lowered) :
    lowerRoutines scope pools done second = .ok lowered := by
  induction same generalizing pools done with
  | nil => exact accepted
  | @cons decl other rest others alike _ step =>
    simp only [lowerRoutines, alike.name] at accepted ⊢
    split at accepted
    · cases accepted
    · rename_i signature known
      split at accepted
      · cases accepted
      · rename_i new
        simp only [bind_eq_ok_iff] at accepted
        obtain ⟨⟨routine, next⟩, first, accepted⟩ := accepted
        rw [if_neg new, lowerRoutine_alike alike first, ok_bind]
        exact step accepted

/-! ## Frames -/

/-- What a unit must be apart from its routines. -/
structure UnitFrame (source : SourceUnit) (qualifiedName : String) (scope : UnitScope)
    (primaryId : Int32) (subsumedIds : List Int32) : Prop where
  name : source.moduleName ++ "." ++ source.unit.name = qualifiedName
  imports : checkImports [] source.imports = .ok scope.imports
  base : source.unit.base = Symbol.baseUnit
  provided : UnitScope.Imports ⟨scope.imports, []⟩ Symbol.baseUnit
  fields : lowerFields ⟨scope.imports, []⟩ source.unit.fields = .ok scope
  constructed : checkConstructor source.unit = .ok (primaryId, subsumedIds)

/-- Fields do not change the imports. -/
theorem lowerFields_imports {scope last : UnitScope} {decls : List FieldDecl}
    (accepted : lowerFields scope decls = .ok last) : last.imports = scope.imports := by
  induction decls generalizing scope with
  | nil =>
    cases accepted
    rfl
  | cons decl rest step =>
    simp only [lowerFields, bind_eq_ok_iff] at accepted
    obtain ⟨type, -, accepted⟩ := accepted
    split at accepted
    · cases accepted
    · have same := step accepted
      exact same

/-- A unit is accepted when its frame is right and its routines are accepted. -/
theorem lowerUnit_eq_ok_iff {source : SourceUnit} {qualifiedName : String} {unit : CompiledUnit} :
    lowerUnit source qualifiedName = .ok unit ↔
      ∃ scope routines pools,
        UnitFrame source qualifiedName scope unit.primaryId unit.subsumedIds ∧
        lowerRoutines scope ⟨[], []⟩ [] source.unit.routines = .ok (routines, pools) ∧
        requireRoutine routines "prepare" source.unit.position = .ok unit.prepare ∧
        requireRoutine routines "setup" source.unit.position = .ok unit.setup ∧
        requireRoutine routines "advance" source.unit.position = .ok unit.advance ∧
        unit.name = source.unit.name ∧ unit.qualifiedName = qualifiedName ∧
        unit.fields = scope.fields ∧ unit.constants = pools.constants ∧
          unit.names = pools.names := by
  unfold lowerUnit
  simp only
  constructor
  · intro accepted
    split at accepted
    · cases accepted
    rename_i named
    simp only [bind_eq_ok_iff] at accepted
    obtain ⟨imports, checked, accepted⟩ := accepted
    split at accepted
    · cases accepted
    rename_i based
    simp only [bind_eq_ok_iff, Except.ok.injEq] at accepted
    obtain ⟨_, provided, scope, fields, ⟨primaryId, subsumedIds⟩, constructed, ⟨routines, pools⟩,
      lowered, prepare, prepareFound, setup, setupFound, advance, advanceFound, rfl⟩ := accepted
    have same : scope.imports = imports := lowerFields_imports fields
    have based := not_not.1 based
    refine ⟨scope, routines, pools, ⟨not_not.1 named, same ▸ checked, based, ?_, same ▸ fields,
      constructed⟩, lowered, prepareFound, setupFound, advanceFound, rfl, rfl, rfl, rfl, rfl⟩
    rw [same, ← based]
    exact UnitScope.requireImport_eq_ok_iff.1 provided
  · rintro ⟨scope, routines, pools, frame, lowered, prepareFound, setupFound, advanceFound, named,
      qualified, fields, constants, names⟩
    have provided := frame.provided
    rw [← frame.base] at provided
    rw [if_neg (not_not.2 frame.name), frame.imports, ok_bind, if_neg (not_not.2 frame.base),
      provided.requireImport_eq, ok_bind, frame.fields, ok_bind, frame.constructed]
    simp only [ok_bind, lowered, prepareFound, setupFound, advanceFound, Except.ok.injEq]
    cases unit
    simp only at named qualified fields constants names
    simp only [named, qualified, fields, constants, names]

/-- The frame of a unit does not depend on places. -/
theorem UnitFrame.alike {first second : SourceUnit} {qualifiedName : String} {scope : UnitScope}
    {primaryId : Int32} {subsumedIds : List Int32}
    (frame : UnitFrame first qualifiedName scope primaryId subsumedIds)
    (same : first.Alike second) : UnitFrame second qualifiedName scope primaryId subsumedIds where
  name := by rw [← same.moduleName, ← same.unit.name, frame.name]
  imports := checkImports_alike same.imports frame.imports
  base := same.unit.base ▸ frame.base
  provided := frame.provided
  fields := lowerFields_alike same.unit.fields frame.fields
  constructed := checkConstructor_alike same.unit frame.constructed

/-- What is required is found wherever it is asked for. -/
theorem requireRoutine_place {routines : List Routine} {name : String} {here : Position}
    {routine : Routine} (found : requireRoutine routines name here = .ok routine)
    (there : Position) : requireRoutine routines name there = .ok routine := by
  unfold requireRoutine at found ⊢
  split at found
  · exact found
  · cases found

/-- Source units that are alike are compiled to the same unit. -/
theorem SourceUnit.Alike.lowerUnit_eq_ok {first second : SourceUnit} {qualifiedName : String}
    {unit : CompiledUnit} (same : first.Alike second)
    (accepted : lowerUnit first qualifiedName = .ok unit) :
    lowerUnit second qualifiedName = .ok unit := by
  rw [lowerUnit_eq_ok_iff] at accepted ⊢
  obtain ⟨scope, routines, pools, frame, lowered, prepare, setup, advance, name, rest⟩ := accepted
  exact ⟨scope, routines, pools, frame.alike same, lowerRoutines_alike same.unit.routines lowered,
    requireRoutine_place prepare _, requireRoutine_place setup _, requireRoutine_place advance _,
    name.trans same.unit.name, rest⟩

/-- A source unit is like the other one when that is like it. -/
theorem SourceUnit.Alike.symm {first second : SourceUnit} (same : first.Alike second) :
    second.Alike first := by
  obtain ⟨moduleName, imports, name, base, fields, constructors, routines⟩ := same
  refine ⟨moduleName.symm, imports.symm, name.symm, base.symm, ?_, ?_, ?_⟩
  · exact fields.flip.imp fun _ _ alike => ⟨alike.name.symm, alike.type.symm⟩
  · exact constructors.flip.imp fun _ _ alike => ⟨alike.body.symm⟩
  · refine routines.flip.imp fun _ _ alike => ⟨alike.name.symm, ?_, ?_, alike.body.symm⟩
    · exact alike.params.flip.imp fun _ _ param => ⟨param.name.symm, param.type.symm⟩
    · have results := alike.returnType
      revert results
      generalize RoutineDecl.returnType _ = here
      generalize RoutineDecl.returnType _ = there
      rintro (type | _)
      · exact .some type.symm
      · exact .none

/-- A source text is compiled to the unit that its tree is lowered to. -/
theorem compile_eq_ok_iff {text qualifiedName : String} {source : SourceUnit} {unit : CompiledUnit}
    (parsed : parse text = .ok source) :
    compile text qualifiedName = .ok unit ↔ lowerUnit source qualifiedName = .ok unit := by
  unfold compile
  simp only [parsed]
  generalize lowerUnit source qualifiedName = outcome
  cases outcome <;> simp

/-! ## Routines one by one -/

/-- The routine is accepted, whatever constants and names the unit has already. -/
def AcceptsRoutine (scope : UnitScope) (decl : RoutineDecl) (signature : Signature) : Prop :=
  ∀ pools, ∃ routine next, lowerRoutine scope pools decl signature = .ok (routine, next)

/-- A routine of which every part is accepted. -/
theorem AcceptsRoutine.of_admits {scope : UnitScope} {decl : RoutineDecl} {signature : Signature}
    {locals after : Locals} (typed : Declares scope decl.returnType signature.result)
    (params : lowerParams scope ⟨[], []⟩ decl.params signature.params = .ok locals)
    (arity : decl.params.length = signature.params.length)
    (body : Admits ⟨scope, signature.result, none⟩ locals decl.body after)
    (ends : signature.result = .void ∨ blockEnds decl.body = true) :
    AcceptsRoutine scope decl signature := by
  intro pools
  obtain ⟨pieces, next, rules⟩ := body 0 pools
  by_cases without : signature.result = .void
  · exact ⟨_, _, lowerRoutine_eq_ok_iff.2 ⟨typed, arity, locals, _, _, params, rules, rfl, rfl,
      .inl ⟨without, rfl⟩⟩⟩
  · have answers := ends.resolve_left without
    exact ⟨_, _, lowerRoutine_eq_ok_iff.2 ⟨typed, arity, locals, _, _, params, rules, rfl, rfl,
      .inr ⟨without, answers, rfl⟩⟩⟩

/-- Statements end the routine when the last of them does. -/
theorem blockEnds_append (statements : List Stmt) {last : Stmt} (ends : last.ends = true) :
    blockEnds (statements ++ [last]) = true := by
  induction statements with
  | nil => exact ends
  | cons statement rest step =>
    cases rest with
    | nil => exact ends
    | cons second others => exact step

/-- A unit with a right frame and three accepted routines is accepted. -/
theorem lowerUnit_of_routines {source : SourceUnit} {qualifiedName : String} {scope : UnitScope}
    {primaryId : Int32} {subsumedIds : List Int32} {prepare setup advance : RoutineDecl}
    (frame : UnitFrame source qualifiedName scope primaryId subsumedIds)
    (routines : source.unit.routines = [prepare, setup, advance])
    (prepareName : prepare.name = "prepare") (setupName : setup.name = "setup")
    (advanceName : advance.name = "advance")
    (prepares : AcceptsRoutine scope prepare ⟨"prepare", [("exec", .executor)], .void⟩)
    (setsUp : AcceptsRoutine scope setup ⟨"setup", [("ctx", .context)], .void⟩)
    (advances : AcceptsRoutine scope advance ⟨"advance", [], .progress⟩) :
    ∃ unit, lowerUnit source qualifiedName = .ok unit ∧ unit.primaryId = primaryId ∧
      unit.subsumedIds = subsumedIds ∧ unit.fields = scope.fields := by
  obtain ⟨first, afterFirst, prepared⟩ := prepares ⟨[], []⟩
  obtain ⟨second, afterSecond, settled⟩ := setsUp afterFirst
  obtain ⟨third, afterThird, advanced⟩ := advances afterSecond
  have named : ∀ {decl : RoutineDecl} {signature : Signature} {pools next : Pools}
      {routine : Routine}, lowerRoutine scope pools decl signature = .ok (routine, next) →
      routine.name = decl.name := by
    intro decl signature pools next routine accepted
    obtain ⟨-, -, _, _, _, -, -, -, rfl, -⟩ := lowerRoutine_eq_ok_iff.1 accepted
    rfl
  have firstName := (named prepared).trans prepareName
  have secondName := (named settled).trans setupName
  have thirdName := (named advanced).trans advanceName
  have lowered : lowerRoutines scope ⟨[], []⟩ [] source.unit.routines =
      .ok ([first, second, third], afterThird) := by
    rw [routines]
    simp [lowerRoutines, signatures, prepareName, setupName, advanceName, prepared, settled,
      advanced, firstName, secondName]
  refine ⟨⟨source.unit.name, qualifiedName, primaryId, subsumedIds, scope.fields,
    afterThird.constants, afterThird.names, first, second, third⟩, ?_, rfl, rfl, rfl⟩
  rw [lowerUnit_eq_ok_iff]
  refine ⟨scope, [first, second, third], afterThird, frame, lowered, ?_, ?_, ?_, rfl, rfl, rfl, rfl,
    rfl⟩
  · simp [requireRoutine, firstName]
  · simp [requireRoutine, firstName, secondName]
  · simp [requireRoutine, firstName, secondName, thirdName]

/-- Routines that are accepted one after another are accepted each. -/
theorem lowerRoutines_each {scope : UnitScope} {pools : Pools} {done : List Routine}
    {decls : List RoutineDecl} {lowered : List Routine × Pools}
    (accepted : lowerRoutines scope pools done decls = .ok lowered) {decl : RoutineDecl}
    (member : decl ∈ decls) : ∃ signature ∈ signatures, signature.name = decl.name ∧
      ∃ before result, lowerRoutine scope before decl signature = .ok result := by
  induction decls generalizing pools done with
  | nil => cases member
  | cons first rest step =>
    simp only [lowerRoutines] at accepted
    split at accepted
    · cases accepted
    rename_i signature known
    split at accepted
    · cases accepted
    simp only [bind_eq_ok_iff] at accepted
    obtain ⟨⟨routine, next⟩, here, accepted⟩ := accepted
    rcases List.mem_cons.1 member with rfl | later
    · have same := List.find?_some known
      exact ⟨signature, List.mem_of_find?_eq_some known, eq_of_beq same, pools, _, here⟩
    · exact step accepted later

/-- In an accepted unit every routine is accepted in the scope of the frame. -/
theorem lowerRoutine_of_lowerUnit {source : SourceUnit} {qualifiedName : String}
    {unit : CompiledUnit} {scope : UnitScope} {primaryId : Int32} {subsumedIds : List Int32}
    (frame : UnitFrame source qualifiedName scope primaryId subsumedIds)
    (accepted : lowerUnit source qualifiedName = .ok unit) {decl : RoutineDecl}
    (member : decl ∈ source.unit.routines) : ∃ signature ∈ signatures,
      signature.name = decl.name ∧
        ∃ before result, lowerRoutine scope before decl signature = .ok result := by
  obtain ⟨other, routines, pools, also, lowered, -⟩ := lowerUnit_eq_ok_iff.1 accepted
  have imports : other.imports = scope.imports :=
    Except.ok.inj (also.imports.symm.trans frame.imports)
  have fields := also.fields
  rw [imports, frame.fields] at fields
  rw [← Except.ok.inj fields] at lowered
  exact lowerRoutines_each lowered member

/-! ## Imports, fields and constructors that are accepted -/

/-- Known modules, each of them once. -/
theorem checkImports_eq {entries : List Import} {seen : List String}
    (known : ∀ entry ∈ entries, entry.moduleName ∈ Symbol.modules)
    (once : (entries.map Import.moduleName).Nodup)
    (new : ∀ entry ∈ entries, entry.moduleName ∉ seen) :
    checkImports seen entries = .ok ((entries.map Import.moduleName).reverse ++ seen) := by
  induction entries generalizing seen with
  | nil => rfl
  | cons entry rest step =>
    have listed : Symbol.modules.contains entry.moduleName = true :=
      List.contains_iff_mem.2 (known entry List.mem_cons_self)
    have unseen : seen.contains entry.moduleName = false := by
      have fresh := new entry List.mem_cons_self
      simpa using fresh
    rw [List.map_cons, List.nodup_cons] at once
    rw [checkImports, if_neg (not_not.2 listed), unseen, if_neg Bool.false_ne_true, step]
    · simp
    · exact fun other member => known other (List.mem_cons_of_mem _ member)
    · exact once.2
    · intro other member again
      rcases List.mem_cons.1 again with same | before
      · exact once.1 (same ▸ List.mem_map_of_mem member)
      · exact new other (List.mem_cons_of_mem _ member) before

/-- A field is there when one of that name is declared. -/
theorem UnitScope.field?_eq_none {scope : UnitScope} {name : String}
    (absent : ∀ field ∈ scope.fields, field.name ≠ name) : scope.field? name = none := by
  have missing : scope.fields.findIdx? (fun field => field.name == name) = none := by
    rw [List.findIdx?_eq_none_iff]
    intro field member
    simpa using absent field member
  rw [field?, missing]

/-- Fields of different names, with types that are accepted. -/
theorem lowerFields_eq {decls : List FieldDecl} {imports : List String}
    {before infos : List FieldInfo} (typed : List.Forall₂ (fun decl info => decl.name = info.name ∧
      UnitScope.resolve ⟨imports, []⟩ decl.type = .ok info.type) decls infos)
    (apart : ((before ++ infos).map FieldInfo.name).Nodup) :
    lowerFields ⟨imports, before⟩ decls = .ok ⟨imports, before ++ infos⟩ := by
  induction typed generalizing before with
  | nil => simp [lowerFields]
  | @cons decl info decls infos here _ step =>
    obtain ⟨name, type⟩ := here
    have resolved : UnitScope.resolve ⟨imports, before⟩ decl.type = .ok info.type := type
    have new : UnitScope.field? ⟨imports, before⟩ decl.name = none := by
      apply UnitScope.field?_eq_none
      intro field member same
      rw [List.map_append, List.map_cons, List.nodup_append] at apart
      exact apart.2.2 field.name (List.mem_map_of_mem member) info.name List.mem_cons_self
        (same.trans name)
    have apart : ((before ++ [info] ++ infos).map FieldInfo.name).Nodup := by
      rw [List.append_assoc]
      exact apart
    rw [lowerFields, resolved, ok_bind, new, Option.isSome_none, if_neg Bool.false_ne_true, name,
      step apart, List.append_assoc]
    rfl

/-- The only constructor calls that of the base with different numbers, the first among them. -/
theorem checkConstructor_eq {decl : UnitDecl} {place position here there : Position}
    {primary : Int32} {subsumed : List Int32}
    (only : decl.constructors =
      [⟨[.construct position [.int here primary, .ints there subsumed]], place⟩])
    (apart : subsumed.Nodup) (inside : primary ∈ subsumed) :
    checkConstructor decl = .ok (primary, subsumed) := by
  have unrepeated : ∀ (numbers seen : List Int32), numbers.Nodup →
    (∀ number ∈ numbers, number ∉ seen) → firstRepeated? seen numbers = none := by
    intro numbers
    induction numbers with
    | nil => intros; rfl
    | cons number rest step =>
      intro seen apart new
      rw [List.nodup_cons] at apart
      have fresh : seen.contains number = false := by
        simpa using new number List.mem_cons_self
      rw [firstRepeated?, fresh, if_neg Bool.false_ne_true]
      apply step _ apart.2
      intro other member again
      rcases List.mem_cons.1 again with rfl | before
      · exact apart.1 member
      · exact new other (List.mem_cons_of_mem _ member) before
  exact checkConstructor_eq_ok_iff.2 ⟨⟨place, position, here, there, only⟩,
    unrepeated subsumed [] apart fun _ _ => List.not_mem_nil, inside⟩

end QueryFusion.Script
