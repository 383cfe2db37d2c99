import QueryFusion.Proofs.Script.Locals

/-!
# Types of expressions

An expression that is accepted at one place of the code is accepted at every place, with the same
type. What has a type is therefore told without the code, and so are the statements that a routine
may contain.
-/

namespace QueryFusion.Script

/-- The expression has the type, wherever its code stands. -/
def Types (scope : UnitScope) (locals : Locals) (term : Term) (type : Ty) : Prop :=
  ∀ start pools, ∃ ops next, Lowers scope locals start pools term ⟨type, ops, next⟩

/-- The expressions have the types, wherever their code stands. -/
def TypesAll (scope : UnitScope) (locals : Locals) (terms : List Term) (types : List Ty) : Prop :=
  ∀ start pools, ∃ ops next, LowersAll scope locals start pools terms types ops next

namespace Types

variable {scope : UnitScope} {locals : Locals} {position : Position}

/-- A literal. -/
theorem literal {term : Term} {slot : Slot} {type : Ty} (same : literal? term = some (slot, type)) :
    Types scope locals term type :=
  fun _ _ => ⟨_, _, .literal same⟩

/-- A truth value. -/
theorem boolean {truth : Bool} : Types scope locals (.boolean position truth) .boolean :=
  fun _ _ => ⟨_, _, .boolean⟩

/-- The missing value. -/
theorem null : Types scope locals (.null position) .null :=
  fun _ _ => ⟨_, _, .null⟩

/-- A local. -/
theorem name {word : String} {number : Nat} {type : Ty}
    (found : locals.find? word = some (number, type)) :
    Types scope locals (.name position word) type :=
  fun _ _ => ⟨_, _, .name found⟩

/-- A field of the unit. -/
theorem field {place : Position} {word : String} {index : Nat} {type : Ty}
    (found : scope.field? word = some (index, type)) :
    Types scope locals (.member position (.this place) word) type :=
  fun _ _ => ⟨_, _, .field found⟩

/-- A negation. -/
theorem not {operand : Term} (inner : Types scope locals operand .boolean) :
    Types scope locals (.not position operand) .boolean := by
  intro start pools
  obtain ⟨ops, next, part⟩ := inner start pools
  exact ⟨_, _, .not part rfl⟩

/-- A disjunction. -/
theorem or {left right : Term} (first : Types scope locals left .boolean)
    (second : Types scope locals right .boolean) :
    Types scope locals (.binary position .or left right) .boolean := by
  intro start pools
  obtain ⟨leftOps, middle, leftPart⟩ := first start pools
  obtain ⟨rightOps, next, rightPart⟩ := second (start + leftOps.length + 1) middle
  exact ⟨_, _, .or leftPart rfl rightPart rfl rfl⟩

/-- An operator that is not logical. -/
theorem binary {op : BinaryOp} {left right : Term} {leftType rightType type : Ty}
    {instruction : Op} (first : Types scope locals left leftType)
    (second : Types scope locals right rightType)
    (accepted : binaryOp? op leftType rightType = some (instruction, type)) :
    Types scope locals (.binary position op left right) type := by
  intro start pools
  obtain ⟨leftOps, middle, leftPart⟩ := first start pools
  obtain ⟨rightOps, next, rightPart⟩ := second (start + leftOps.length) middle
  exact ⟨_, _, .binary leftPart rightPart accepted⟩

/-- A choice. -/
theorem conditional {condition thenValue elseValue : Term} {thenType elseType type : Ty}
    (test : Types scope locals condition .boolean)
    (thenPart : Types scope locals thenValue thenType)
    (elsePart : Types scope locals elseValue elseType)
    (joined : thenType.unify? elseType = some type) :
    Types scope locals (.conditional position condition thenValue elseValue) type := by
  intro start pools
  obtain ⟨testOps, tested, testRule⟩ := test start pools
  obtain ⟨thenOps, middle, thenRule⟩ := thenPart (start + testOps.length + 1) tested
  obtain ⟨elseOps, next, elseRule⟩ :=
    elsePart (start + testOps.length + 1 + thenOps.length + 1) middle
  exact ⟨_, _, .conditional testRule rfl rfl thenRule rfl elseRule joined⟩

/-- A cast. -/
theorem cast {operand : Term} {written : TypeName} {source target : Ty}
    (named : scope.resolve written = .ok target) (inner : Types scope locals operand source)
    (castable : target.isCastableFrom source = true) :
    Types scope locals (.cast position operand written) target := by
  intro start pools
  obtain ⟨ops, next, part⟩ := inner start pools
  exact ⟨_, _, .cast named part castable⟩

/-- A row of values. -/
theorem row {place : Position} {arguments : List Term} {types : List Ty}
    (free : locals.find? "HeapRow" = none) (imported : scope.Imports "HeapRow")
    (parts : TypesAll scope locals arguments types)
    (values : ∀ type ∈ types, type.isValueType = true) :
    Types scope locals (.call position (.name place "HeapRow") "of" arguments) .row := by
  intro start pools
  obtain ⟨ops, next, rules⟩ := parts start pools
  have owned : staticOwner? locals (.name place "HeapRow") = some "HeapRow" := by
    simp [staticOwner?, free]
  exact ⟨_, _, .row owned imported rules values⟩

/-- A constant of the engine. -/
theorem static {place : Position} {owner word : String} {slot : Slot}
    (free : locals.find? owner = none) (imported : scope.Imports owner)
    (known : staticMember? owner word = some slot) :
    Types scope locals (.member position (.name place owner) word) .progress := by
  have owned : staticOwner? locals (.name place owner) = some owner := by
    simp [staticOwner?, free]
  exact fun _ _ => ⟨_, _, .static owned imported known⟩

/-- Clearing the batch. -/
theorem clear {place : Position} :
    Types scope locals (.call position (.this place) "clearBatch" []) .void :=
  fun _ _ => ⟨_, _, .clear⟩

/-- Adding a row to the batch. -/
theorem add {place : Position} {row : Term} (part : Types scope locals row .row) :
    Types scope locals (.call position (.this place) "addToBatch" [row]) .boolean := by
  intro start pools
  obtain ⟨ops, next, rule⟩ := part start pools
  exact ⟨_, _, .add (.cons rule .nil) (.cons rfl .nil)⟩

/-- A new cursor over a map. -/
theorem cursor {place : Position} {source filter : Term}
    (free : locals.find? "MapScanUtils" = none) (imported : scope.Imports "MapScanUtils")
    (first : Types scope locals source .map) (second : Types scope locals filter .partitions) :
    Types scope locals (.call position (.name place "MapScanUtils") "createIterator"
      [source, filter]) .cursor := by
  have owned : staticOwner? locals (.name place "MapScanUtils") = some "MapScanUtils" := by
    simp [staticOwner?, free]
  intro start pools
  obtain ⟨ops, middle, rule⟩ := first start pools
  obtain ⟨others, next, further⟩ := second (start + ops.length) middle
  exact ⟨_, _, .cursor owned imported (.cons rule (.cons further .nil))
    (.cons rfl (.cons rfl .nil))⟩

/-- Reading a field of an object. -/
theorem getter {target : Term} {word field : String} {className : Option String}
    (other : target.isThis = false) (free : staticOwner? locals target = none)
    (part : Types scope locals target (.object className))
    (read : fieldOfGetter? word = some field) :
    Types scope locals (.call position target word []) .value := by
  intro start pools
  obtain ⟨ops, next, rule⟩ := part start pools
  exact ⟨_, _, .getter other free rule rfl read⟩

/-- A call of a method. -/
theorem method {target : Term} {word : String} {arguments : List Term} {receiver result : Ty}
    {instruction : Method} {params types : List Ty} (other : target.isThis = false)
    (free : staticOwner? locals target = none) (part : Types scope locals target receiver)
    (has : methodOf? receiver word = some (instruction, params, result))
    (parts : TypesAll scope locals arguments types) (accepted : Accepts params types) :
    Types scope locals (.call position target word arguments) result := by
  intro start pools
  obtain ⟨ops, middle, rule⟩ := part start pools
  obtain ⟨others, next, rules⟩ := parts (start + ops.length) middle
  exact ⟨_, _, .method other free rule has rules accepted⟩

end Types

namespace TypesAll

variable {scope : UnitScope} {locals : Locals}

/-- No expressions. -/
theorem nil : TypesAll scope locals [] [] :=
  fun _ _ => ⟨_, _, .nil⟩

/-- One more expression. -/
theorem cons {term : Term} {terms : List Term} {type : Ty} {types : List Ty}
    (head : Types scope locals term type) (tail : TypesAll scope locals terms types) :
    TypesAll scope locals (term :: terms) (type :: types) := by
  intro start pools
  obtain ⟨ops, middle, rule⟩ := head start pools
  obtain ⟨others, next, rules⟩ := tail (start + ops.length) middle
  exact ⟨_, _, .cons rule rules⟩

end TypesAll

/-! ## Statements -/

/-- The statements are accepted wherever their code stands, and leave these locals. -/
def Admits (scope : RoutineScope) (locals : Locals) (statements : List Stmt) (after : Locals) :
    Prop :=
  ∀ start pools, ∃ pieces next, LowersBlock scope start locals pools statements
    ⟨pieces, after, next⟩

/-- The code of statements behind the code of others. -/
theorem LowersBlock.append {scope : RoutineScope} {start : Nat} {locals : Locals} {pools : Pools}
    {first second : List Stmt} {left right : LoweredBlock}
    (leftRules : LowersBlock scope start locals pools first left)
    (rightRules : LowersBlock scope (start + left.pieces.length) left.locals left.pools
      second right) :
    LowersBlock scope start locals pools (first ++ second)
      ⟨left.pieces ++ right.pieces, right.locals, right.pools⟩ := by
  induction first generalizing start locals pools left with
  | nil =>
    cases leftRules
    exact rightRules
  | cons statement rest step =>
    cases leftRules with
    | @cons _ _ _ _ _ _ head others rule rules =>
      rw [List.length_append, ← Nat.add_assoc] at rightRules
      rw [List.cons_append, List.append_assoc]
      exact .cons rule (step rules rightRules)

/-- The locals with one more. -/
def Locals.with (locals : Locals) (name : String) (type : Ty) : Locals :=
  ⟨(name, locals.types.length) :: locals.visible, locals.types ++ [type]⟩

/-- A local that was declared last is found. -/
theorem Locals.find?_with_self (locals : Locals) (name : String) (type : Ty) :
    (locals.with name type).find? name = some (locals.types.length, type) := by
  simp [Locals.with, Locals.find?]

/-- A local that is visible stays so. -/
theorem Locals.find?_with_of_some {locals : Locals} {other name : String} {found : Ty}
    {number : Nat} (type : Ty) (present : locals.find? name = some (number, found))
    (differs : other ≠ name) :
    (locals.with other type).find? name = some (number, found) := by
  unfold Locals.find? at present ⊢
  rw [Locals.with, List.find?_cons_of_neg (by simpa using differs)]
  split at present
  · obtain ⟨known, same, pair⟩ := Option.map_eq_some_iff.1 present
    obtain ⟨inside, -⟩ := List.getElem?_eq_some_iff.1 same
    rw [List.getElem?_append_left inside, same]
    exact congrArg some pair
  · cases present

/-- A name that is free stays so. -/
theorem Locals.find?_with_of_none {locals : Locals} {other name : String} (type : Ty)
    (valid : locals.Valid) (free : locals.find? name = none) (differs : other ≠ name) :
    (locals.with other type).find? name = none := by
  unfold Locals.find? at free ⊢
  rw [Locals.with, List.find?_cons_of_neg (by simpa using differs)]
  split at free
  · rename_i entry number here
    have inside := valid.typed _ (List.mem_of_find?_eq_some here)
    rw [List.getElem?_eq_getElem inside] at free
    cases free
  · rfl

namespace Admits

variable {scope : RoutineScope} {locals middle after : Locals}

/-- No statements. -/
theorem nil : Admits scope locals [] locals :=
  fun _ _ => ⟨_, _, .nil⟩

/-- A declaration before other statements. -/
theorem declare {position : Position} {name : String} {written : TypeName} {value : Term}
    {declared type : Ty} {rest : List Stmt} (named : scope.unit.resolve written = .ok declared)
    (part : Types scope.unit locals value type) (assignable : type.isAssignableTo declared = true)
    (fresh : locals.find? name = none)
    (others : Admits scope (locals.with name declared) rest after) :
    Admits scope locals (.declare position name written value :: rest) after := by
  intro start pools
  obtain ⟨ops, next, rule⟩ := part start pools
  have head := @LowersStmt.declare scope start locals pools position name written value declared _
    named rule assignable fresh
  obtain ⟨pieces, last, tail⟩ := others _ _
  exact ⟨_, _, .cons head tail⟩

/-- Statements behind others. -/
theorem append {first second : List Stmt} (left : Admits scope locals first middle)
    (right : Admits scope middle second after) : Admits scope locals (first ++ second) after := by
  intro start pools
  obtain ⟨pieces, next, leftRules⟩ := left start pools
  obtain ⟨others, last, rightRules⟩ := right (start + pieces.length) next
  exact ⟨_, _, leftRules.append rightRules⟩

/-- A statement before other statements. -/
theorem cons {statement : Stmt} {rest : List Stmt}
    (head : ∀ start pools, ∃ pieces next, LowersStmt scope start locals pools statement
      ⟨pieces, middle, next⟩)
    (tail : Admits scope middle rest after) : Admits scope locals (statement :: rest) after := by
  intro start pools
  obtain ⟨pieces, next, rule⟩ := head start pools
  obtain ⟨others, last, rules⟩ := tail (start + pieces.length) next
  exact ⟨_, _, .cons rule rules⟩

/-- An assignment to a field. -/
theorem setField {position : Position} {field : String} {value : Term} {index : Nat}
    {declared type : Ty} (found : scope.unit.field? field = some (index, declared))
    (part : Types scope.unit locals value type) (assignable : type.isAssignableTo declared = true) :
    Admits scope locals [.setField position field value] locals := by
  refine .cons (fun start pools => ?_) .nil
  obtain ⟨ops, next, rule⟩ := part start pools
  exact ⟨_, _, @LowersStmt.setField scope start locals pools position field value _ _ _ found rule
    assignable⟩

/-- The next round of the loop. -/
theorem proceed {position : Position} {head : Nat} (inside : scope.loopStart = some head) :
    Admits scope locals [.proceed position] locals :=
  .cons (fun _ _ => ⟨_, _, .proceed inside⟩) .nil

/-- The end of the routine with a value. -/
theorem answer {position : Position} {value : Term} {type : Ty} (wanted : scope.returnType ≠ .void)
    (part : Types scope.unit locals value type)
    (assignable : type.isAssignableTo scope.returnType = true) :
    Admits scope locals [.answer position value] locals := by
  refine .cons (fun start pools => ?_) .nil
  obtain ⟨ops, next, rule⟩ := part start pools
  exact ⟨_, _, @LowersStmt.answer scope start locals pools position value _ wanted rule assignable⟩

/-- A call for its effect. -/
theorem perform {position : Position} {value : Term} {type : Ty} (called : value.isCall = true)
    (part : Types scope.unit locals value type) :
    Admits scope locals [.perform position value] locals := by
  refine .cons (fun start pools => ?_) .nil
  obtain ⟨ops, next, rule⟩ := part start pools
  exact ⟨_, _, @LowersStmt.perform scope start locals pools position value _ called rule⟩

/-- A conditional without a second branch. -/
theorem branch {position : Position} {condition : Term} {block : List Stmt}
    (test : Types scope.unit locals condition .boolean) (inner : Admits scope locals block after) :
    Admits scope locals [.branch position condition block] ⟨locals.visible, after.types⟩ := by
  refine .cons (fun start pools => ?_) .nil
  obtain ⟨ops, middle, rule⟩ := test start pools
  obtain ⟨pieces, next, rules⟩ := inner (start + ops.length + 1) middle
  exact ⟨_, _, @LowersStmt.branch scope start _ locals pools position condition block _ _ rule rfl
    rfl rules⟩

end Admits

/-! ## Statements that are accepted under a condition -/

/-- The statements are accepted exactly when the condition holds, and leave these locals then. -/
structure AdmitsIff (scope : RoutineScope) (locals : Locals) (statements : List Stmt)
    (after : Locals) (fine : Prop) : Prop where
  admits : fine → Admits scope locals statements after
  holds : ∀ {start : Nat} {pools : Pools} {block : LoweredBlock},
    LowersBlock scope start locals pools statements block → fine

/-- The code of statements has the code of the first of them in front. -/
theorem LowersBlock.split {scope : RoutineScope} {start : Nat} {locals : Locals} {pools : Pools}
    {first second : List Stmt} {block : LoweredBlock}
    (rules : LowersBlock scope start locals pools (first ++ second) block) :
    ∃ left right, LowersBlock scope start locals pools first left ∧
      LowersBlock scope (start + left.pieces.length) left.locals left.pools second right := by
  induction first generalizing start locals pools block with
  | nil => exact ⟨_, _, .nil, rules⟩
  | cons statement rest step =>
    rw [List.cons_append] at rules
    cases rules with
    | @cons _ _ _ _ _ _ head others rule rules =>
      obtain ⟨left, right, leftRules, rightRules⟩ := step rules
      refine ⟨_, right, .cons rule leftRules, ?_⟩
      rw [List.length_append, ← Nat.add_assoc]
      exact rightRules

/-- Statements have one code. -/
theorem LowersBlock.unique {scope : RoutineScope} {start : Nat} {locals : Locals} {pools : Pools}
    {statements : List Stmt} {first second : LoweredBlock}
    (rules : LowersBlock scope start locals pools statements first)
    (others : LowersBlock scope start locals pools statements second) : first = second :=
  Except.ok.inj (rules.lowerStmts_eq.symm.trans others.lowerStmts_eq)

namespace AdmitsIff

variable {scope : RoutineScope} {locals middle after : Locals} {fine also : Prop}

/-- Statements that are always accepted. -/
theorem of_admits {statements : List Stmt} (admits : Admits scope locals statements after) :
    AdmitsIff scope locals statements after True :=
  ⟨fun _ => admits, fun _ => trivial⟩

/-- The same condition in other words. -/
theorem congr {statements : List Stmt} (admits : AdmitsIff scope locals statements after fine)
    (same : fine ↔ also) : AdmitsIff scope locals statements after also :=
  ⟨fun holds => admits.admits (same.2 holds), fun rules => same.1 (admits.holds rules)⟩

/-- Statements behind others are accepted when both are. -/
theorem append {first second : List Stmt} (left : AdmitsIff scope locals first middle fine)
    (right : AdmitsIff scope middle second after also) :
    AdmitsIff scope locals (first ++ second) after (fine ∧ also) := by
  refine ⟨fun both => (left.admits both.1).append (right.admits both.2), fun rules => ?_⟩
  obtain ⟨front, back, frontRules, backRules⟩ := rules.split
  have holds := left.holds frontRules
  obtain ⟨pieces, next, expected⟩ := left.admits holds _ _
  rw [frontRules.unique expected] at backRules
  exact ⟨holds, right.holds backRules⟩

/-- A loop is accepted when its body is. -/
theorem loop {position : Position} {condition : Term} {body : List Stmt}
    (test : Types scope.unit locals condition .boolean)
    (inner : ∀ head, AdmitsIff { scope with loopStart := some head } locals body after fine) :
    AdmitsIff scope locals [.loop position condition body] ⟨locals.visible, after.types⟩ fine := by
  constructor
  · intro holds
    refine .cons (fun start pools => ?_) .nil
    obtain ⟨ops, middle, rule⟩ := test start pools
    obtain ⟨pieces, next, rules⟩ := (inner start).admits holds (start + ops.length + 1) middle
    exact ⟨_, _, @LowersStmt.loop scope start _ _ locals pools position condition body _ _ rule rfl
      rfl rules rfl⟩
  · intro start pools block rules
    cases rules with
    | cons rule =>
      cases rule with
      | loop part truth bodyPlace bodyPart endPlace => exact (inner start).holds bodyPart

end AdmitsIff

end QueryFusion.Script
