import QueryFusion.Proofs.Script.Rules

/-!
# The rules of statements

Which statements the compiler accepts, with their code and the locals behind them, as rules. As for
expressions, the compiler follows the rules and accepts whatever they allow.
-/

namespace QueryFusion.Script

mutual

/-- The statement has the code, which starts at the index and may add locals, constants and
names. -/
inductive LowersStmt : RoutineScope → Nat → Locals → Pools → Stmt → LoweredBlock → Prop
  | declare {scope : RoutineScope} {start : Nat} {locals : Locals} {pools : Pools}
      {position : Position} {name : String} {written : TypeName} {value : Term} {declared : Ty}
      {inner : Lowered} (named : scope.unit.resolve written = .ok declared)
      (part : Lowers scope.unit locals start pools value inner)
      (assignable : inner.type.isAssignableTo declared = true)
      (fresh : locals.find? name = none) :
      LowersStmt scope start locals pools (.declare position name written value)
        ⟨inner.pieces ++ [Piece.op (.storeLocal locals.types.length)],
          ⟨(name, locals.types.length) :: locals.visible, locals.types ++ [declared]⟩, inner.pools⟩
  | setField {scope : RoutineScope} {start : Nat} {locals : Locals} {pools : Pools}
      {position : Position} {field : String} {value : Term} {index : Nat} {declared : Ty}
      {inner : Lowered} (found : scope.unit.field? field = some (index, declared))
      (part : Lowers scope.unit locals start pools value inner)
      (assignable : inner.type.isAssignableTo declared = true) :
      LowersStmt scope start locals pools (.setField position field value)
        ⟨inner.pieces ++ [Piece.op (.storeField index)], locals, inner.pools⟩
  | setLocal {scope : RoutineScope} {start : Nat} {locals : Locals} {pools : Pools}
      {position : Position} {name : String} {value : Term} {number : Nat} {declared : Ty}
      {inner : Lowered} (found : locals.find? name = some (number, declared))
      (part : Lowers scope.unit locals start pools value inner)
      (assignable : inner.type.isAssignableTo declared = true) :
      LowersStmt scope start locals pools (.setLocal position name value)
        ⟨inner.pieces ++ [Piece.op (.storeLocal number)], locals, inner.pools⟩
  | branch {scope : RoutineScope} {start thenStart : Nat} {locals : Locals} {pools : Pools}
      {position : Position} {condition : Term} {thenBlock : List Stmt} {test : Lowered}
      {first : LoweredBlock} (part : Lowers scope.unit locals start pools condition test)
      (truth : test.type = .boolean) (thenPlace : thenStart = start + test.ops.length + 1)
      (thenPart : LowersBlock scope thenStart locals test.pools thenBlock first) :
      LowersStmt scope start locals pools (.branch position condition thenBlock)
        ⟨test.pieces ++ [Piece.op (.jumpIfFalse (thenStart + first.pieces.length))] ++ first.pieces,
          ⟨locals.visible, first.locals.types⟩, first.pools⟩
  | choose {scope : RoutineScope} {start thenStart elseStart : Nat} {locals : Locals}
      {pools : Pools} {position : Position} {condition : Term} {thenBlock elseBlock : List Stmt}
      {test : Lowered} {first second : LoweredBlock}
      (part : Lowers scope.unit locals start pools condition test) (truth : test.type = .boolean)
      (thenPlace : thenStart = start + test.ops.length + 1)
      (thenPart : LowersBlock scope thenStart locals test.pools thenBlock first)
      (elsePlace : elseStart = thenStart + first.pieces.length + 1)
      (elsePart : LowersBlock scope elseStart ⟨locals.visible, first.locals.types⟩ first.pools
        elseBlock second) :
      LowersStmt scope start locals pools (.choose position condition thenBlock elseBlock)
        ⟨test.pieces ++ [Piece.op (.jumpIfFalse elseStart)] ++ first.pieces ++
          [Piece.op (.jump (elseStart + second.pieces.length))] ++ second.pieces,
          ⟨locals.visible, second.locals.types⟩, second.pools⟩
  | loop {scope : RoutineScope} {start bodyStart loopEnd : Nat} {locals : Locals} {pools : Pools}
      {position : Position} {condition : Term} {body : List Stmt} {test : Lowered}
      {inner : LoweredBlock} (part : Lowers scope.unit locals start pools condition test)
      (truth : test.type = .boolean) (bodyPlace : bodyStart = start + test.ops.length + 1)
      (bodyPart : LowersBlock { scope with loopStart := some start } bodyStart locals test.pools
        body inner)
      (endPlace : loopEnd = bodyStart + inner.pieces.length + 1) :
      LowersStmt scope start locals pools (.loop position condition body)
        ⟨test.pieces ++ [Piece.op (.jumpIfFalse loopEnd)] ++
          inner.pieces.map (Piece.close loopEnd) ++ [Piece.op (.jump start)],
          ⟨locals.visible, inner.locals.types⟩, inner.pools⟩
  | proceed {scope : RoutineScope} {start loopStart : Nat} {locals : Locals} {pools : Pools}
      {position : Position} (inside : scope.loopStart = some loopStart) :
      LowersStmt scope start locals pools (.proceed position)
        ⟨[.op (.jump loopStart)], locals, pools⟩
  | leave {scope : RoutineScope} {start loopStart : Nat} {locals : Locals} {pools : Pools}
      {position : Position} (inside : scope.loopStart = some loopStart) :
      LowersStmt scope start locals pools (.leave position) ⟨[.leave], locals, pools⟩
  | finish {scope : RoutineScope} {start : Nat} {locals : Locals} {pools : Pools}
      {position : Position} (without : scope.returnType = .void) :
      LowersStmt scope start locals pools (.finish position) ⟨[.op .finish], locals, pools⟩
  | answer {scope : RoutineScope} {start : Nat} {locals : Locals} {pools : Pools}
      {position : Position} {value : Term} {inner : Lowered} (wanted : scope.returnType ≠ .void)
      (part : Lowers scope.unit locals start pools value inner)
      (assignable : inner.type.isAssignableTo scope.returnType = true) :
      LowersStmt scope start locals pools (.answer position value)
        ⟨inner.pieces ++ [Piece.op .answer], locals, inner.pools⟩
  | perform {scope : RoutineScope} {start : Nat} {locals : Locals} {pools : Pools}
      {position : Position} {value : Term} {inner : Lowered} (called : value.isCall = true)
      (part : Lowers scope.unit locals start pools value inner) :
      LowersStmt scope start locals pools (.perform position value)
        ⟨inner.pieces ++ (if inner.type = .void then [] else [.op .pop]), locals, inner.pools⟩

/-- The statements have the code, one after another. -/
inductive LowersBlock : RoutineScope → Nat → Locals → Pools → List Stmt → LoweredBlock → Prop
  | nil {scope : RoutineScope} {start : Nat} {locals : Locals} {pools : Pools} :
      LowersBlock scope start locals pools [] ⟨[], locals, pools⟩
  | cons {scope : RoutineScope} {start : Nat} {locals : Locals} {pools : Pools} {statement : Stmt}
      {rest : List Stmt} {first others : LoweredBlock}
      (head : LowersStmt scope start locals pools statement first)
      (tail : LowersBlock scope (start + first.pieces.length) first.locals first.pools rest
        others) :
      LowersBlock scope start locals pools (statement :: rest)
        ⟨first.pieces ++ others.pieces, others.locals, others.pools⟩

end

/-- Declaring a local succeeds when its name is free. -/
theorem Locals.declare_eq_ok_iff {locals : Locals} {name : String} {type : Ty} {position : Position}
    {number : Nat} {next : Locals} :
    locals.declare name type position = .ok (number, next) ↔ locals.find? name = none ∧
      number = locals.types.length ∧
      next = ⟨(name, locals.types.length) :: locals.visible, locals.types ++ [type]⟩ := by
  unfold Locals.declare
  cases locals.find? name with
  | none => simp [eq_comm]
  | some entry => simp

/-- An accepted condition follows the rules. -/
theorem lowerCondition_eq_ok_iff {scope : UnitScope} {locals : Locals} {start : Nat}
    {pools : Pools} {condition : Term} {test : Lowered} :
    lowerCondition scope locals start pools condition = .ok test ↔
      Lowers scope locals start pools condition test ∧ test.type = .boolean := by
  unfold lowerCondition
  simp only [bind_eq_ok_iff, exists_const, expectType_eq_ok_iff, Except.ok.injEq,
    lowerTerm_eq_ok_iff]
  constructor
  · rintro ⟨found, part, truth, rfl⟩
    exact ⟨part, truth⟩
  · rintro ⟨part, truth⟩
    exact ⟨test, part, truth, rfl⟩

/-! ## The compiler follows the rules -/

mutual

/-- An accepted statement follows the rules. -/
theorem lowersStmt_of_lowerStmt {scope : RoutineScope} {start : Nat} {locals : Locals}
    {pools : Pools} {block : LoweredBlock} (statement : Stmt)
    (accepted : lowerStmt scope start locals pools statement = .ok block) :
    LowersStmt scope start locals pools statement block := by
  cases statement with
  | declare position name written value =>
    simp only [lowerStmt, bind_eq_ok_iff, exists_const, expectAssignable_eq_ok_iff,
      lowerTerm_eq_ok_iff, Except.ok.injEq] at accepted
    obtain ⟨declared, named, inner, part, assignable, ⟨number, next⟩, added, rfl⟩ := accepted
    obtain ⟨fresh, rfl, rfl⟩ := Locals.declare_eq_ok_iff.1 added
    exact .declare named part assignable fresh
  | setField position field value =>
    simp only [lowerStmt] at accepted
    split at accepted
    · cases accepted
    · rename_i found
      simp only [bind_eq_ok_iff, exists_const, expectAssignable_eq_ok_iff, lowerTerm_eq_ok_iff,
        Except.ok.injEq] at accepted
      obtain ⟨inner, part, assignable, rfl⟩ := accepted
      exact .setField found part assignable
  | setLocal position name value =>
    simp only [lowerStmt] at accepted
    split at accepted
    · cases accepted
    · rename_i found
      simp only [bind_eq_ok_iff, exists_const, expectAssignable_eq_ok_iff, lowerTerm_eq_ok_iff,
        Except.ok.injEq] at accepted
      obtain ⟨inner, part, assignable, rfl⟩ := accepted
      exact .setLocal found part assignable
  | branch position condition thenBlock =>
    simp only [lowerStmt, bind_eq_ok_iff, lowerCondition_eq_ok_iff, Except.ok.injEq] at accepted
    obtain ⟨test, ⟨part, truth⟩, first, thenPart, rfl⟩ := accepted
    exact .branch part truth rfl (lowersBlock_of_lowerStmts thenBlock thenPart)
  | choose position condition thenBlock elseBlock =>
    simp only [lowerStmt, bind_eq_ok_iff, lowerCondition_eq_ok_iff, Except.ok.injEq] at accepted
    obtain ⟨test, ⟨part, truth⟩, first, thenPart, second, elsePart, rfl⟩ := accepted
    exact .choose part truth rfl (lowersBlock_of_lowerStmts thenBlock thenPart) rfl
      (lowersBlock_of_lowerStmts elseBlock elsePart)
  | loop position condition body =>
    simp only [lowerStmt, bind_eq_ok_iff, lowerCondition_eq_ok_iff, Except.ok.injEq] at accepted
    obtain ⟨test, ⟨part, truth⟩, inner, bodyPart, rfl⟩ := accepted
    exact .loop part truth rfl (lowersBlock_of_lowerStmts body bodyPart) rfl
  | proceed position =>
    simp only [lowerStmt] at accepted
    split at accepted <;> cases accepted
    rename_i inside
    exact .proceed inside
  | leave position =>
    simp only [lowerStmt] at accepted
    split at accepted <;> cases accepted
    rename_i inside
    exact .leave inside
  | finish position =>
    simp only [lowerStmt] at accepted
    split at accepted <;> cases accepted
    rename_i without
    exact .finish without
  | answer position value =>
    simp only [lowerStmt] at accepted
    split at accepted
    · cases accepted
    · rename_i wanted
      simp only [bind_eq_ok_iff, exists_const, expectAssignable_eq_ok_iff, lowerTerm_eq_ok_iff,
        Except.ok.injEq] at accepted
      obtain ⟨inner, part, assignable, rfl⟩ := accepted
      exact .answer wanted part assignable
  | construct position arguments => cases accepted
  | perform position value =>
    simp only [lowerStmt] at accepted
    split at accepted
    · rename_i called
      simp only [bind_eq_ok_iff, lowerTerm_eq_ok_iff, Except.ok.injEq] at accepted
      obtain ⟨inner, part, rfl⟩ := accepted
      exact .perform called part
    · cases accepted

/-- Accepted statements follow the rules. -/
theorem lowersBlock_of_lowerStmts {scope : RoutineScope} {start : Nat} {locals : Locals}
    {pools : Pools} {block : LoweredBlock} (statements : List Stmt)
    (accepted : lowerStmts scope start locals pools statements = .ok block) :
    LowersBlock scope start locals pools statements block := by
  cases statements with
  | nil =>
    cases accepted
    exact .nil
  | cons statement rest =>
    simp only [lowerStmts, bind_eq_ok_iff, Except.ok.injEq] at accepted
    obtain ⟨first, head, others, tail, rfl⟩ := accepted
    exact .cons (lowersStmt_of_lowerStmt statement head) (lowersBlock_of_lowerStmts rest tail)

end

/-! ## The compiler accepts what the rules allow -/

mutual

/-- A statement that follows the rules is accepted. -/
theorem LowersStmt.lowerStmt_eq {scope : RoutineScope} {start : Nat} {locals : Locals}
    {pools : Pools} {statement : Stmt} {block : LoweredBlock}
    (rule : LowersStmt scope start locals pools statement block) :
    lowerStmt scope start locals pools statement = .ok block := by
  match rule with
  | .declare named part assignable fresh =>
    simp [lowerStmt, named, part.lowerTerm_eq, expectAssignable, assignable,
      Locals.declare, fresh]
  | .setField found part assignable =>
    simp [lowerStmt, found, part.lowerTerm_eq, expectAssignable, assignable]
  | .setLocal found part assignable =>
    simp [lowerStmt, found, part.lowerTerm_eq, expectAssignable, assignable]
  | .branch part truth thenPlace thenPart =>
    subst thenPlace
    simp [lowerStmt, lowerCondition_eq_ok_iff.2 ⟨part, truth⟩, thenPart.lowerStmts_eq]
  | .choose part truth thenPlace thenPart elsePlace elsePart =>
    subst thenPlace elsePlace
    simp [lowerStmt, lowerCondition_eq_ok_iff.2 ⟨part, truth⟩, thenPart.lowerStmts_eq,
      elsePart.lowerStmts_eq]
  | .loop part truth bodyPlace bodyPart endPlace =>
    subst bodyPlace endPlace
    simp [lowerStmt, lowerCondition_eq_ok_iff.2 ⟨part, truth⟩, bodyPart.lowerStmts_eq]
  | .proceed inside => simp [lowerStmt, inside]
  | .leave inside => simp [lowerStmt, inside]
  | .finish without => simp [lowerStmt, without]
  | .answer wanted part assignable =>
    simp [lowerStmt, wanted, part.lowerTerm_eq, expectAssignable, assignable]
  | .perform called part => simp [lowerStmt, called, part.lowerTerm_eq]

/-- Statements that follow the rules are accepted. -/
theorem LowersBlock.lowerStmts_eq {scope : RoutineScope} {start : Nat} {locals : Locals}
    {pools : Pools} {statements : List Stmt} {block : LoweredBlock}
    (rules : LowersBlock scope start locals pools statements block) :
    lowerStmts scope start locals pools statements = .ok block := by
  match rules with
  | .nil => rfl
  | .cons head tail => simp [lowerStmts, head.lowerStmt_eq, tail.lowerStmts_eq]

end

end QueryFusion.Script
