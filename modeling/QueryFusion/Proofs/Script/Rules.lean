import Mathlib.Data.List.Forall2
import QueryFusion.Proofs.Outcome
import QueryFusion.Proofs.Script.Meaning

/-!
# The rules of expressions

Which expressions the compiler accepts, with their types and their code, as rules: one for each form
of an expression, with a premise for every part and every check. The compiler follows the rules, and
it accepts whatever they allow; places in the source matter to neither.
-/

namespace QueryFusion.Script

/-- The slot that a literal stands for, with its type. -/
def literal? : Term → Option (Slot × Ty)
  | .int _ number => some (.value (.int number), .int)
  | .bigInt _ number => some (.value (.bigInt number), .bigInt)
  | .double _ number => some (.value (.double number), .double)
  | .text _ content => some (.value (.varchar content), .varchar)
  | .ints _ numbers => some (.ints numbers, .intArray)
  | _ => none

/-- The module of a name of the engine is imported. -/
def UnitScope.Imports (scope : UnitScope) (name : String) : Prop :=
  ∀ moduleName, Symbol.moduleOf? name = some moduleName → moduleName ∈ scope.imports

/-- The types may stand where the expected ones are wanted, one by one. -/
abbrev Accepts (params types : List Ty) : Prop :=
  List.Forall₂ (fun type param => type.isAssignableTo param = true) types params

mutual

/-- The expression has the type and the code, which starts at the index, uses the constants and
names so far, and may add to them. -/
inductive Lowers (scope : UnitScope) (locals : Locals) : Nat → Pools → Term → Lowered → Prop
  | literal {start : Nat} {pools : Pools} {term : Term} {slot : Slot} {type : Ty}
      (same : literal? term = some (slot, type)) :
      Lowers scope locals start pools term (lowerConstant pools slot type)
  | boolean {start : Nat} {pools : Pools} {position : Position} {truth : Bool} :
      Lowers scope locals start pools (.boolean position truth)
        ⟨.boolean, [if truth then .pushTrue else .pushFalse], pools⟩
  | null {start : Nat} {pools : Pools} {position : Position} :
      Lowers scope locals start pools (.null position) ⟨.null, [.pushNull], pools⟩
  | name {start : Nat} {pools : Pools} {position : Position} {name : String} {number : Nat}
      {type : Ty} (found : locals.find? name = some (number, type)) :
      Lowers scope locals start pools (.name position name) ⟨type, [.loadLocal number], pools⟩
  | not {start : Nat} {pools : Pools} {position : Position} {operand : Term} {inner : Lowered}
      (part : Lowers scope locals start pools operand inner) (truth : inner.type = .boolean) :
      Lowers scope locals start pools (.not position operand)
        ⟨inner.type, inner.ops ++ [Op.not], inner.pools⟩
  | negate {start : Nat} {pools : Pools} {position : Position} {operand : Term} {inner : Lowered}
      (part : Lowers scope locals start pools operand inner)
      (numeric : inner.type.isNumeric = true) :
      Lowers scope locals start pools (.negate position operand)
        ⟨inner.type, inner.ops ++ [Op.negate], inner.pools⟩
  | and {start shortcut : Nat} {pools : Pools} {position : Position} {left right : Term}
      {first second : Lowered} (leftPart : Lowers scope locals start pools left first)
      (leftTruth : first.type = .boolean)
      (rightPart : Lowers scope locals (start + first.ops.length + 1) first.pools right second)
      (rightTruth : second.type = .boolean)
      (decided : shortcut = start + first.ops.length + 1 + second.ops.length + 1) :
      Lowers scope locals start pools (.binary position .and left right)
        ⟨.boolean, first.ops ++ [Op.jumpIfFalse shortcut] ++ second.ops ++
          [Op.jump (shortcut + 1), Op.pushFalse], second.pools⟩
  | or {start shortcut : Nat} {pools : Pools} {position : Position} {left right : Term}
      {first second : Lowered} (leftPart : Lowers scope locals start pools left first)
      (leftTruth : first.type = .boolean)
      (rightPart : Lowers scope locals (start + first.ops.length + 1) first.pools right second)
      (rightTruth : second.type = .boolean)
      (decided : shortcut = start + first.ops.length + 1 + second.ops.length + 1) :
      Lowers scope locals start pools (.binary position .or left right)
        ⟨.boolean, first.ops ++ [Op.jumpIfTrue shortcut] ++ second.ops ++
          [Op.jump (shortcut + 1), Op.pushTrue], second.pools⟩
  | binary {start : Nat} {pools : Pools} {position : Position} {op : BinaryOp}
      {left right : Term} {first second : Lowered} {instruction : Op} {type : Ty}
      (leftPart : Lowers scope locals start pools left first)
      (rightPart : Lowers scope locals (start + first.ops.length) first.pools right second)
      (accepted : binaryOp? op first.type second.type = some (instruction, type)) :
      Lowers scope locals start pools (.binary position op left right)
        ⟨type, first.ops ++ second.ops ++ [instruction], second.pools⟩
  | conditional {start thenStart elseStart : Nat} {pools : Pools} {position : Position}
      {condition thenValue elseValue : Term} {test first second : Lowered} {type : Ty}
      (testPart : Lowers scope locals start pools condition test)
      (truth : test.type = .boolean) (thenPlace : thenStart = start + test.ops.length + 1)
      (thenPart : Lowers scope locals thenStart test.pools thenValue first)
      (elsePlace : elseStart = thenStart + first.ops.length + 1)
      (elsePart : Lowers scope locals elseStart first.pools elseValue second)
      (joined : first.type.unify? second.type = some type) :
      Lowers scope locals start pools (.conditional position condition thenValue elseValue)
        ⟨type, test.ops ++ [Op.jumpIfFalse elseStart] ++ first.ops ++
          [Op.jump (elseStart + second.ops.length)] ++ second.ops, second.pools⟩
  | field {start : Nat} {pools : Pools} {position place : Position} {name : String} {index : Nat}
      {type : Ty} (found : scope.field? name = some (index, type)) :
      Lowers scope locals start pools (.member position (.this place) name)
        ⟨type, [.loadField index], pools⟩
  | static {start : Nat} {pools : Pools} {position : Position} {target : Term}
      {owner name : String} {slot : Slot} (owned : staticOwner? locals target = some owner)
      (imported : scope.Imports owner) (known : staticMember? owner name = some slot) :
      Lowers scope locals start pools (.member position target name)
        (lowerConstant pools slot .progress)
  | clear {start : Nat} {pools : Pools} {position place : Position} :
      Lowers scope locals start pools (.call position (.this place) "clearBatch" [])
        ⟨.void, [.clearBatch], pools⟩
  | add {start : Nat} {pools next : Pools} {position place : Position} {arguments : List Term}
      {types : List Ty} {ops : List Op}
      (parts : LowersAll scope locals start pools arguments types ops next)
      (accepted : Accepts [.row] types) :
      Lowers scope locals start pools (.call position (.this place) "addToBatch" arguments)
        ⟨.boolean, ops ++ [Op.addToBatch], next⟩
  | row {start : Nat} {pools next : Pools} {position : Position} {target : Term}
      {arguments : List Term} {types : List Ty} {ops : List Op}
      (owned : staticOwner? locals target = some "HeapRow") (imported : scope.Imports "HeapRow")
      (parts : LowersAll scope locals start pools arguments types ops next)
      (values : ∀ type ∈ types, type.isValueType = true) :
      Lowers scope locals start pools (.call position target "of" arguments)
        ⟨.row, ops ++ [Op.newRow arguments.length], next⟩
  | cursor {start : Nat} {pools next : Pools} {position : Position} {target : Term}
      {arguments : List Term} {types : List Ty} {ops : List Op}
      (owned : staticOwner? locals target = some "MapScanUtils")
      (imported : scope.Imports "MapScanUtils")
      (parts : LowersAll scope locals start pools arguments types ops next)
      (accepted : Accepts [.map, .partitions] types) :
      Lowers scope locals start pools (.call position target "createIterator" arguments)
        ⟨.cursor, ops ++ [Op.createCursor], next⟩
  | getter {start : Nat} {pools : Pools} {position : Position} {target : Term}
      {method field : String} {className : Option String} {receiver : Lowered}
      (other : target.isThis = false) (free : staticOwner? locals target = none)
      (part : Lowers scope locals start pools target receiver)
      (object : receiver.type = .object className) (read : fieldOfGetter? method = some field) :
      Lowers scope locals start pools (.call position target method [])
        ⟨.value, receiver.ops ++ [Op.getter (receiver.pools.addName field).1],
          (receiver.pools.addName field).2⟩
  | method {start : Nat} {pools next : Pools} {position : Position} {target : Term}
      {method : String} {arguments : List Term} {receiver : Lowered} {instruction : Method}
      {params types : List Ty} {result : Ty} {ops : List Op}
      (other : target.isThis = false) (free : staticOwner? locals target = none)
      (part : Lowers scope locals start pools target receiver)
      (has : methodOf? receiver.type method = some (instruction, params, result))
      (parts : LowersAll scope locals (start + receiver.ops.length) receiver.pools arguments types
        ops next)
      (accepted : Accepts params types) :
      Lowers scope locals start pools (.call position target method arguments)
        ⟨result, receiver.ops ++ ops ++ [Op.call instruction arguments.length], next⟩
  | cast {start : Nat} {pools : Pools} {position : Position} {operand : Term}
      {written : TypeName} {target : Ty} {inner : Lowered}
      (named : scope.resolve written = .ok target)
      (part : Lowers scope locals start pools operand inner)
      (castable : target.isCastableFrom inner.type = true) :
      Lowers scope locals start pools (.cast position operand written)
        ⟨target, inner.ops ++ castOps inner.type target, inner.pools⟩

/-- The expressions have the types and the code, one after another. -/
inductive LowersAll (scope : UnitScope) (locals : Locals) :
    Nat → Pools → List Term → List Ty → List Op → Pools → Prop
  | nil {start : Nat} {pools : Pools} : LowersAll scope locals start pools [] [] [] pools
  | cons {start : Nat} {pools next : Pools} {term : Term} {terms : List Term} {first : Lowered}
      {types : List Ty} {ops : List Op} (head : Lowers scope locals start pools term first)
      (tail : LowersAll scope locals (start + first.ops.length) first.pools terms types ops next) :
      LowersAll scope locals start pools (term :: terms) (first.type :: types) (first.ops ++ ops)
        next

end

/-- Each expression has a type. -/
theorem LowersAll.length_eq {scope : UnitScope} {locals : Locals} {start : Nat}
    {pools next : Pools} {terms : List Term} {types : List Ty} {ops : List Op}
    (rules : LowersAll scope locals start pools terms types ops next) :
    terms.length = types.length := by
  induction terms generalizing start pools types ops with
  | nil =>
    cases rules
    rfl
  | cons term terms step =>
    cases rules with
    | cons head tail => exact congrArg (· + 1) (step tail)

/-! ## Checks of the compiler -/

/-- A name of the engine may be used exactly when its module is imported. -/
theorem UnitScope.requireImport_eq_ok_iff {scope : UnitScope} {name : String}
    {position : Position} {checked : Unit} :
    scope.requireImport name position = .ok checked ↔ scope.Imports name := by
  unfold UnitScope.requireImport UnitScope.Imports
  cases Symbol.moduleOf? name with
  | none => simp
  | some moduleName =>
    simp only [List.contains_iff_mem, Option.some.injEq, forall_eq']
    split
    · simp_all
    · simp_all

/-- A name of an imported module may be used anywhere. -/
theorem UnitScope.Imports.requireImport_eq {scope : UnitScope} {name : String}
    (imported : scope.Imports name) (position : Position) :
    scope.requireImport name position = .ok () :=
  UnitScope.requireImport_eq_ok_iff.2 imported

/-- The check for assignable types. -/
theorem expectAssignable_eq_ok_iff {actual expected : Ty} {position : Position} {checked : Unit} :
    expectAssignable actual expected position = .ok checked ↔
      actual.isAssignableTo expected = true := by
  unfold expectAssignable
  split <;> simp_all

/-- The check for one type. -/
theorem expectType_eq_ok_iff {actual expected : Ty} {position : Position} {checked : Unit} :
    expectType actual expected position = .ok checked ↔ actual = expected := by
  unfold expectType
  split <;> simp_all

/-- The check for the number of arguments. -/
theorem expectArity_eq_ok_iff {method : String} {expected given : Nat} {position : Position}
    {checked : Unit} : expectArity method expected given position = .ok checked ↔
    given = expected := by
  unfold expectArity
  split <;> simp_all

/-- The static members of the engine. -/
theorem lowerStaticMember_eq_ok_iff {scope : UnitScope} {pools : Pools} {owner name : String}
    {ownerPosition position : Position} {lowered : Lowered} :
    lowerStaticMember scope pools owner name ownerPosition position = .ok lowered ↔
      ∃ slot, staticMember? owner name = some slot ∧ scope.Imports owner ∧
        lowered = lowerConstant pools slot .progress := by
  unfold lowerStaticMember staticMember?
  split
  · simp only [bind_eq_ok_iff, exists_const, UnitScope.requireImport_eq_ok_iff]
    split
    · simp [eq_comm]
    · split
      · simp [eq_comm]
      · simp
  · simp

/-! ## The compiler follows the rules -/

/-- An accepted call follows the rules when its parts do. -/
theorem lowers_of_lowerCall {scope : UnitScope} {locals : Locals} {start : Nat} {pools : Pools}
    {lowered : Lowered} {position : Position} {target : Term} {method : String}
    {arguments : List Term}
    (receiverRule : ∀ {receiver : Lowered},
      lowerTerm scope locals start pools target = .ok receiver →
        Lowers scope locals start pools target receiver)
    (argumentsRule : ∀ {start : Nat} {pools next : Pools} {ops : List Op} (params : List Ty),
      arguments.length = params.length →
        lowerArguments scope locals start pools arguments params = .ok (ops, next) →
          ∃ types, LowersAll scope locals start pools arguments types ops next ∧
            Accepts params types)
    (valuesRule : ∀ {next : Pools} {ops : List Op},
      lowerRowValues scope locals start pools arguments = .ok (ops, next) →
        ∃ types, LowersAll scope locals start pools arguments types ops next ∧
          ∀ type ∈ types, type.isValueType = true)
    (accepted : lowerTerm scope locals start pools (.call position target method arguments) =
      .ok lowered) :
    Lowers scope locals start pools (.call position target method arguments) lowered := by
  simp only [lowerTerm] at accepted
  split at accepted
  · rename_i self
    obtain ⟨place, rfl⟩ : ∃ place, target = .this place := by
      cases target with
      | this place => exact ⟨place, rfl⟩
      | _ => cases self
    split at accepted
    · rename_i named
      simp only [bind_eq_ok_iff, exists_const, expectArity_eq_ok_iff, Except.ok.injEq] at accepted
      obtain ⟨none, rfl⟩ := accepted
      rw [List.length_eq_zero_iff] at none
      rw [named, none]
      exact .clear
    · split at accepted
      · rename_i named
        simp only [bind_eq_ok_iff, exists_const, expectArity_eq_ok_iff, Except.ok.injEq]
          at accepted
        obtain ⟨arity, ⟨ops, next⟩, parts, rfl⟩ := accepted
        obtain ⟨types, parts, accepted⟩ := argumentsRule [.row] arity parts
        rw [named]
        exact .add parts accepted
      · cases accepted
  · rename_i other
    rw [Bool.not_eq_true] at other
    split at accepted
    · rename_i owner owned
      simp only [bind_eq_ok_iff, exists_const, UnitScope.requireImport_eq_ok_iff] at accepted
      obtain ⟨imported, accepted⟩ := accepted
      split at accepted
      · rename_i known
        obtain ⟨rfl, rfl⟩ := known
        simp only [bind_eq_ok_iff, Except.ok.injEq] at accepted
        obtain ⟨⟨ops, next⟩, parts, rfl⟩ := accepted
        obtain ⟨types, parts, values⟩ := valuesRule parts
        exact .row owned imported parts values
      · split at accepted
        · rename_i known
          obtain ⟨rfl, rfl⟩ := known
          simp only [bind_eq_ok_iff, exists_const, expectArity_eq_ok_iff, Except.ok.injEq]
            at accepted
          obtain ⟨arity, ⟨ops, next⟩, parts, rfl⟩ := accepted
          obtain ⟨types, parts, accepted⟩ := argumentsRule [.map, .partitions] arity parts
          exact .cursor owned imported parts accepted
        · cases accepted
    · rename_i free
      simp only [bind_eq_ok_iff] at accepted
      obtain ⟨receiver, part, accepted⟩ := accepted
      have part := receiverRule part
      split at accepted
      · rename_i className object
        split at accepted
        · rename_i field read
          split at accepted
          · rename_i none
            cases accepted
            rw [List.isEmpty_iff] at none
            rw [none]
            exact .getter other free part object read
          · cases accepted
        · cases accepted
      · split at accepted
        · cases accepted
        · rename_i has
          simp only [bind_eq_ok_iff, exists_const, expectArity_eq_ok_iff, Except.ok.injEq]
            at accepted
          obtain ⟨arity, ⟨ops, next⟩, parts, rfl⟩ := accepted
          obtain ⟨types, parts, accepted⟩ := argumentsRule _ arity parts
          exact .method other free part has parts accepted

mutual

/-- An accepted expression follows the rules. -/
theorem lowers_of_lowerTerm {scope : UnitScope} {locals : Locals} {start : Nat} {pools : Pools}
    {lowered : Lowered} (term : Term)
    (accepted : lowerTerm scope locals start pools term = .ok lowered) :
    Lowers scope locals start pools term lowered := by
  cases term with
  | int position number | bigInt position number | double position number
  | text position content | ints position numbers =>
    cases accepted
    exact .literal rfl
  | boolean position truth =>
    cases accepted
    exact .boolean
  | null position =>
    cases accepted
    exact .null
  | name position name =>
    simp only [lowerTerm] at accepted
    split at accepted
    · rename_i found
      cases accepted
      exact .name found
    · cases accepted
  | this position => cases accepted
  | not position operand =>
    simp only [lowerTerm, bind_eq_ok_iff, exists_const, expectType_eq_ok_iff,
      Except.ok.injEq] at accepted
    obtain ⟨inner, part, truth, rfl⟩ := accepted
    exact .not (lowers_of_lowerTerm operand part) truth
  | negate position operand =>
    simp only [lowerTerm, bind_eq_ok_iff] at accepted
    obtain ⟨inner, part, accepted⟩ := accepted
    split at accepted
    · rename_i numeric
      cases accepted
      exact .negate (lowers_of_lowerTerm operand part) numeric
    · cases accepted
  | binary position op left right =>
    simp only [lowerTerm] at accepted
    split at accepted
    · simp only [bind_eq_ok_iff, exists_const, expectType_eq_ok_iff, Except.ok.injEq] at accepted
      obtain ⟨first, leftPart, leftTruth, second, rightPart, rightTruth, rfl⟩ := accepted
      exact .and (lowers_of_lowerTerm left leftPart) leftTruth
        (lowers_of_lowerTerm right rightPart) rightTruth rfl
    · simp only [bind_eq_ok_iff, exists_const, expectType_eq_ok_iff, Except.ok.injEq] at accepted
      obtain ⟨first, leftPart, leftTruth, second, rightPart, rightTruth, rfl⟩ := accepted
      exact .or (lowers_of_lowerTerm left leftPart) leftTruth
        (lowers_of_lowerTerm right rightPart) rightTruth rfl
    · simp only [bind_eq_ok_iff] at accepted
      obtain ⟨first, leftPart, second, rightPart, accepted⟩ := accepted
      split at accepted
      · rename_i known
        cases accepted
        exact .binary (lowers_of_lowerTerm left leftPart) (lowers_of_lowerTerm right rightPart)
          known
      · cases accepted
  | conditional position condition thenValue elseValue =>
    simp only [lowerTerm, bind_eq_ok_iff, exists_const, expectType_eq_ok_iff] at accepted
    obtain ⟨test, testPart, truth, first, thenPart, second, elsePart, accepted⟩ := accepted
    split at accepted
    · rename_i joined
      cases accepted
      exact .conditional (lowers_of_lowerTerm condition testPart) truth rfl
        (lowers_of_lowerTerm thenValue thenPart) rfl (lowers_of_lowerTerm elseValue elsePart) joined
    · cases accepted
  | member position target name =>
    simp only [lowerTerm] at accepted
    split at accepted
    · rename_i self
      split at accepted
      · rename_i found
        cases accepted
        cases target with
        | this place => exact .field found
        | _ => cases self
      · cases accepted
    · split at accepted
      · rename_i owned
        obtain ⟨slot, known, imported, rfl⟩ := lowerStaticMember_eq_ok_iff.1 accepted
        exact .static owned imported known
      · cases accepted
  | call position target method arguments =>
    exact lowers_of_lowerCall (lowers_of_lowerTerm target)
      (fun params => lowersAll_of_lowerArguments arguments params)
      (lowersAll_of_lowerRowValues arguments) accepted
  | cast position operand written =>
    simp only [lowerTerm, bind_eq_ok_iff] at accepted
    obtain ⟨target, named, inner, part, accepted⟩ := accepted
    split at accepted
    · rename_i castable
      cases accepted
      exact .cast named (lowers_of_lowerTerm operand part) castable
    · cases accepted

/-- Accepted arguments follow the rules, and their types are accepted for the parameters. -/
theorem lowersAll_of_lowerArguments {scope : UnitScope} {locals : Locals} {start : Nat}
    {pools next : Pools} {ops : List Op} (arguments : List Term) (params : List Ty)
    (arity : arguments.length = params.length)
    (accepted : lowerArguments scope locals start pools arguments params = .ok (ops, next)) :
    ∃ types, LowersAll scope locals start pools arguments types ops next ∧
      Accepts params types := by
  cases arguments with
  | nil =>
    cases params with
    | nil =>
      cases accepted
      exact ⟨[], .nil, .nil⟩
    | cons param params => cases arity
  | cons argument rest =>
    cases params with
    | nil => cases arity
    | cons param params =>
      simp only [lowerArguments, bind_eq_ok_iff, exists_const, expectAssignable_eq_ok_iff,
        Except.ok.injEq, Prod.mk.injEq] at accepted
      obtain ⟨first, head, assignable, ⟨others, last⟩, tail, rfl, rfl⟩ := accepted
      obtain ⟨types, tail, accepted⟩ :=
        lowersAll_of_lowerArguments rest params (Nat.succ.inj arity) tail
      exact ⟨_, .cons (lowers_of_lowerTerm argument head) tail, .cons assignable accepted⟩

/-- Accepted values of a row follow the rules and have types of values. -/
theorem lowersAll_of_lowerRowValues {scope : UnitScope} {locals : Locals} {start : Nat}
    {pools next : Pools} {ops : List Op} (arguments : List Term)
    (accepted : lowerRowValues scope locals start pools arguments = .ok (ops, next)) :
    ∃ types, LowersAll scope locals start pools arguments types ops next ∧
      ∀ type ∈ types, type.isValueType = true := by
  cases arguments with
  | nil =>
    cases accepted
    exact ⟨[], .nil, by simp⟩
  | cons argument rest =>
    simp only [lowerRowValues, bind_eq_ok_iff] at accepted
    obtain ⟨first, head, accepted⟩ := accepted
    split at accepted
    · rename_i value
      simp only [bind_eq_ok_iff, Except.ok.injEq, Prod.mk.injEq] at accepted
      obtain ⟨⟨others, last⟩, tail, rfl, rfl⟩ := accepted
      obtain ⟨types, tail, values⟩ := lowersAll_of_lowerRowValues rest tail
      refine ⟨_, .cons (lowers_of_lowerTerm argument head) tail, ?_⟩
      intro type member
      rcases List.mem_cons.1 member with rfl | member
      · exact value
      · exact values type member
    · cases accepted

end

/-! ## The compiler accepts what the rules allow -/

/-- A method belongs to a type whose members are no objects. -/
theorem methodOf?_ne_object {type : Ty} {name : String} {found : Method × List Ty × Ty}
    (has : methodOf? type name = some found) (className : Option String) :
    type ≠ .object className := by
  rintro rfl
  cases has

mutual

/-- What follows the rules is accepted. -/
theorem Lowers.lowerTerm_eq {scope : UnitScope} {locals : Locals} {start : Nat} {pools : Pools}
    {term : Term} {lowered : Lowered} (rule : Lowers scope locals start pools term lowered) :
    lowerTerm scope locals start pools term = .ok lowered := by
  cases rule with
  | literal same =>
    unfold literal? at same
    split at same <;> cases same <;> rfl
  | boolean | null => rfl
  | name found => simp [lowerTerm, found]
  | not part truth =>
    simp [lowerTerm, part.lowerTerm_eq, expectType, truth]
  | negate part numeric => simp [lowerTerm, part.lowerTerm_eq, numeric]
  | and leftPart leftTruth rightPart rightTruth decided =>
    subst decided
    simp [lowerTerm, leftPart.lowerTerm_eq, leftTruth, rightPart.lowerTerm_eq, rightTruth,
      expectType]
  | or leftPart leftTruth rightPart rightTruth decided =>
    subst decided
    simp [lowerTerm, leftPart.lowerTerm_eq, leftTruth, rightPart.lowerTerm_eq, rightTruth,
      expectType]
  | @binary start pools position op left right first second instruction type leftPart rightPart
      accepted =>
    cases op <;> first | cases accepted | skip
    all_goals
      simp only [lowerTerm, leftPart.lowerTerm_eq, rightPart.lowerTerm_eq, ok_bind, accepted]
  | conditional testPart truth thenPlace thenPart elsePlace elsePart joined =>
    subst thenPlace elsePlace
    simp [lowerTerm, testPart.lowerTerm_eq, truth, expectType, thenPart.lowerTerm_eq,
      elsePart.lowerTerm_eq, joined]
  | field found => simp [lowerTerm, Term.isThis, found]
  | @static start pools position target owner name slot owned imported known =>
    have other : target.isThis = false := by
      cases target <;> first | rfl | cases owned
    simp only [lowerTerm, other, Bool.false_eq_true, if_false, owned]
    exact lowerStaticMember_eq_ok_iff.2 ⟨slot, known, imported, rfl⟩
  | clear => rfl
  | add parts accepted =>
    simp [lowerTerm, Term.isThis, expectArity, parts.length_eq, accepted.length_eq,
      parts.lowerArguments_eq accepted]
  | @row start pools next position target arguments types ops owned imported parts values =>
    have other : target.isThis = false := by
      cases target <;> first | rfl | cases owned
    simp [lowerTerm, other, owned, imported.requireImport_eq,
      parts.lowerRowValues_eq values]
  | @cursor start pools next position target arguments types ops owned imported parts accepted =>
    have other : target.isThis = false := by
      cases target <;> first | rfl | cases owned
    simp [lowerTerm, other, owned, imported.requireImport_eq, expectArity,
      parts.length_eq, accepted.length_eq, parts.lowerArguments_eq accepted]
  | getter other free part object read =>
    simp [lowerTerm, other, free, part.lowerTerm_eq, object, read]
  | method other free part has parts accepted =>
    have plain := methodOf?_ne_object has
    simp [lowerTerm, other, free, part.lowerTerm_eq, has, expectArity, parts.length_eq,
      accepted.length_eq, parts.lowerArguments_eq accepted]
  | cast named part castable => simp [lowerTerm, named, part.lowerTerm_eq, castable]

/-- Arguments that follow the rules are accepted for parameters of the right types. -/
theorem LowersAll.lowerArguments_eq {scope : UnitScope} {locals : Locals} {start : Nat}
    {pools next : Pools} {arguments : List Term} {types params : List Ty} {ops : List Op}
    (rules : LowersAll scope locals start pools arguments types ops next)
    (accepted : Accepts params types) :
    lowerArguments scope locals start pools arguments params = .ok (ops, next) := by
  cases rules with
  | nil =>
    cases accepted
    rfl
  | cons head tail =>
    cases accepted with
    | cons assignable accepted =>
      simp [lowerArguments, head.lowerTerm_eq, expectAssignable, assignable,
        tail.lowerArguments_eq accepted]

/-- Values that follow the rules are accepted for a row. -/
theorem LowersAll.lowerRowValues_eq {scope : UnitScope} {locals : Locals} {start : Nat}
    {pools next : Pools} {arguments : List Term} {types : List Ty} {ops : List Op}
    (rules : LowersAll scope locals start pools arguments types ops next)
    (values : ∀ type ∈ types, type.isValueType = true) :
    lowerRowValues scope locals start pools arguments = .ok (ops, next) := by
  cases rules with
  | nil => rfl
  | cons head tail =>
    simp only [List.mem_cons, forall_eq_or_imp] at values
    simp [lowerRowValues, head.lowerTerm_eq, values.1, tail.lowerRowValues_eq values.2]

end

/-- The compiler accepts exactly what the rules allow. -/
theorem lowerTerm_eq_ok_iff {scope : UnitScope} {locals : Locals} {start : Nat} {pools : Pools}
    {term : Term} {lowered : Lowered} :
    lowerTerm scope locals start pools term = .ok lowered ↔
      Lowers scope locals start pools term lowered :=
  ⟨lowers_of_lowerTerm term, Lowers.lowerTerm_eq⟩

end QueryFusion.Script
