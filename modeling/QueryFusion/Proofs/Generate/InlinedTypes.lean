import QueryFusion.Proofs.Generate.Inlining
import QueryFusion.Proofs.Script.Acceptance

/-!
# Inlined expressions are accepted

What inlining declares is accepted by the compiler wherever the inputs are visible with their types
and the numbered names are not taken. Each declared local has the type that it is declared with.
-/

namespace QueryFusion.Generate

open Emit
open Script (Term TypeName BinaryOp Ty Stmt Types Admits Locals UnitScope RoutineScope)

/-- The local is visible with its type. -/
def Knows (locals : Locals) (entry : Local) : Prop :=
  ∃ number, locals.find? entry.name = some (number, entry.type.ty)

/-! ## Types as they are written -/

/-- The types of scalars. -/
def Scalar (type : DataType) : Prop :=
  (scalarTy type).dataType? = some type

/-- Numeric types are scalar. -/
theorem Scalar.of_isNumeric {type : DataType} (numeric : type.isNumeric = true) : Scalar type := by
  cases type <;> first | rfl | cases numeric

/-- The common type of a comparison is scalar. -/
theorem Scalar.of_inlineComparisonType? {left right common : DataType}
    (found : inlineComparisonType? left right = some common) : Scalar common := by
  unfold inlineComparisonType? at found
  split at found
  · cases found
  · cases found
  · cases found
  · rename_i notNull notObject same
    cases found
    cases common with
    | null => exact absurd rfl notNull
    | object => exact absurd rfl notObject
    | _ => rfl

/-- A scalar type is resolved without an import. -/
theorem resolve_scalar (scope : UnitScope) (type : DataType) :
    scope.resolve (writtenType (scalarTy type)) = .ok (scalarTy type) := by
  cases type <;> rfl

/-- The type of all values is resolved without an import. -/
theorem resolve_value (scope : UnitScope) : scope.resolve (writtenType .value) = .ok .value :=
  rfl

/-- The type of a local can be stored. -/
theorem ty_ne_void (type : LocalType) : type.ty ≠ .void := by
  cases type with
  | scalar type => cases type <;> simp [LocalType.ty, scalarTy]
  | _ => simp [LocalType.ty]

/-! ## Types of the source trees -/

section Terms

variable {scope : UnitScope} {locals : Locals} {entry left right : Local}

/-- A visible local. -/
theorem Knows.types (known : Knows locals entry) :
    Types scope locals (termOf entry) entry.type.ty := by
  obtain ⟨number, found⟩ := known
  exact .name found

/-- A null test. -/
theorem Knows.equal_null (known : Knows locals entry) :
    Types scope locals (equalTerm entry (.null .first)) .boolean := by
  have stored := ty_ne_void entry.type
  have accepted : Script.binaryOp? .equal entry.type.ty .null = some (.equal, .boolean) := by
    simp [Script.binaryOp?, Ty.isEquatableWith, stored]
  exact .binary known.types .null accepted

/-- The test of a boolean local. -/
theorem Knows.equal_boolean (known : Knows locals entry) (boolean : entry.type = .scalar .boolean)
    (truth : Bool) : Types scope locals (equalTerm entry (.boolean .first truth)) .boolean := by
  have first : Types scope locals (termOf entry) entry.type.ty := known.types
  rw [boolean] at first
  exact .binary first .boolean rfl

/-- An operation that is null when an operand is. -/
theorem Knows.nullSafe {operation : Term} {type : Ty} (leftKnown : Knows locals left)
    (rightKnown : Knows locals right) (inner : Types scope locals operation type) :
    Types scope locals (nullSafeTerm left right operation) type := by
  refine .conditional (.or leftKnown.equal_null rightKnown.equal_null) .null inner ?_
  cases type <;> rfl

/-- A logical operation. -/
theorem Knows.logical (leftKnown : Knows locals left) (rightKnown : Knows locals right)
    (leftBoolean : left.type = .scalar .boolean) (rightBoolean : right.type = .scalar .boolean)
    (decisive : Bool) : Types scope locals (logicalTerm left right decisive) .boolean := by
  have open_case : Types scope locals (.conditional .first (eitherTerm left right (.null .first))
      (.null .first) (.boolean .first !decisive)) .boolean :=
    .conditional (.or leftKnown.equal_null rightKnown.equal_null) .null .boolean rfl
  exact .conditional (.or (leftKnown.equal_boolean leftBoolean decisive)
    (rightKnown.equal_boolean rightBoolean decisive)) .boolean open_case rfl

/-- A negation. -/
theorem Knows.negation (known : Knows locals entry) (boolean : entry.type = .scalar .boolean) :
    Types scope locals (negationTerm entry) .boolean := by
  have inner : Types scope locals (termOf entry) entry.type.ty := known.types
  rw [boolean] at inner
  exact .conditional known.equal_null .null (.not inner) rfl

/-- Locals that are not opaque can be cast to every scalar type. -/
theorem isCastableFrom_of_transparent {type : LocalType} {target : DataType}
    (scalar : Scalar target) (transparent : type.isOpaque = false) :
    (scalarTy target).isCastableFrom type.ty = true := by
  cases type with
  | scalar source =>
    cases source with
    | object => cases transparent
    | _ => cases target <;> first | rfl | cases scalar
  | value =>
    cases target with
    | null => cases scalar
    | _ => rfl
  | object className => cases transparent
  | row => cases transparent

/-- A converted local. -/
theorem Knows.converted {target : DataType} {term : Term} (known : Knows locals entry)
    (scalar : Scalar target) (found : convertTerm? entry target = some term) :
    Types scope locals term (scalarTy target) := by
  have inner : Types scope locals (termOf entry) entry.type.ty := known.types
  unfold convertTerm? at found
  split at found
  · rename_i same
    cases found
    rwa [same] at inner
  · split at found
    · cases found
    · rename_i transparent
      cases found
      exact .cast (resolve_scalar scope target) inner
        (isCastableFrom_of_transparent scalar (by simpa using transparent))

/-- An arithmetic operator on converted operands. -/
theorem types_arithmetic {leftTerm rightTerm : Term} {type : DataType} (op : ArithmeticOp)
    (numeric : type.isNumeric = true) (first : Types scope locals leftTerm (scalarTy type))
    (second : Types scope locals rightTerm (scalarTy type)) :
    Types scope locals (.binary .first op.binary leftTerm rightTerm) (scalarTy type) := by
  have accepted : Script.binaryOp? op.binary (scalarTy type) (scalarTy type) =
      some (.arithmetic op, scalarTy type) := by
    cases type with
    | int | bigInt | double => cases op <;> rfl
    | _ => cases numeric
  exact .binary first second accepted

/-- A comparison of converted operands. -/
theorem types_comparison {leftTerm rightTerm : Term} {type : DataType} (mode : Comparison)
    (scalar : Scalar type) (first : Types scope locals leftTerm (scalarTy type))
    (second : Types scope locals rightTerm (scalarTy type)) :
    Types scope locals (.binary .first mode.binary leftTerm rightTerm) .boolean := by
  have accepted : ∃ instruction,
      Script.binaryOp? mode.binary (scalarTy type) (scalarTy type) =
        some (instruction, .boolean) := by
    cases type with
    | null | object => cases scalar
    | _ => cases mode <;> exact ⟨_, rfl⟩
  obtain ⟨instruction, accepted⟩ := accepted
  exact .binary first second accepted

/-- The literal of a constant. -/
theorem types_constant (scope : UnitScope) (locals : Locals) {value : Value} {type : DataType}
    {localType : LocalType} {term : Term}
    (written : constantTerm? value type = some (localType, term)) :
    ∃ source, Types scope locals term source ∧ source.isAssignableTo localType.ty = true ∧
      scope.resolve (writtenType localType.ty) = .ok localType.ty := by
  cases value with
  | null =>
    cases written
    refine ⟨.null, .null, ?_, ?_⟩
    · cases type <;> rfl
    · cases type <;> rfl
  | boolean truth =>
    cases written
    exact ⟨.boolean, .boolean, rfl, rfl⟩
  | int number =>
    cases written
    exact ⟨.int, .literal rfl, rfl, rfl⟩
  | bigInt number =>
    cases written
    exact ⟨.bigInt, .literal rfl, rfl, rfl⟩
  | double number =>
    simp only [constantTerm?] at written
    split at written
    · cases written
      exact ⟨.double, .literal rfl, rfl, rfl⟩
    · cases written
  | varchar text =>
    cases written
    exact ⟨.varchar, .literal rfl, rfl, rfl⟩
  | object identity className fields => cases written

end Terms

/-! ## Locals behind declarations -/

/-- The locals with those that are declared. -/
def withAll (bindings : List Binding) (locals : Locals) : Locals :=
  bindings.foldl (fun all binding => all.with binding.entry.name binding.entry.type.ty) locals

/-- Locals are added behind others. -/
theorem withAll_append (first second : List Binding) (locals : Locals) :
    withAll (first ++ second) locals = withAll second (withAll first locals) :=
  List.foldl_append

/-- The locals stay valid. -/
theorem withAll_valid (bindings : List Binding) {locals : Locals} (valid : locals.Valid) :
    (withAll bindings locals).Valid := by
  induction bindings generalizing locals with
  | nil => exact valid
  | cons binding rest step => exact step (valid.declare _ _)

/-- A local of another name stays visible. -/
theorem Knows.withAll {bindings : List Binding} {locals : Locals} {entry : Local}
    (known : Knows locals entry) (differs : ∀ binding ∈ bindings, binding.entry.name ≠ entry.name) :
    Knows (withAll bindings locals) entry := by
  induction bindings generalizing locals with
  | nil => exact known
  | cons binding rest step =>
    obtain ⟨number, found⟩ := known
    have kept := Script.Locals.find?_with_of_some binding.entry.type.ty found
      (differs binding (by simp))
    exact step ⟨number, kept⟩ fun other member => differs other (by simp [member])

/-- A free name that is not declared stays free. -/
theorem find?_withAll_of_none {bindings : List Binding} {locals : Locals} {name : String}
    (valid : locals.Valid) (free : locals.find? name = none)
    (differs : ∀ binding ∈ bindings, binding.entry.name ≠ name) :
    (withAll bindings locals).find? name = none := by
  induction bindings generalizing locals with
  | nil => exact free
  | cons binding rest step =>
    have kept := Script.Locals.find?_with_of_none binding.entry.type.ty valid free
      (differs binding (by simp))
    exact step (valid.declare _ _) kept fun other member => differs other (by simp [member])

namespace Inlining

/-- None of the numbers from one to another is the number of a visible local. -/
def Unseen (inlining : Inlining) (locals : Locals) (number limit : Nat) : Prop :=
  ∀ index, number ≤ index → index < limit → locals.find? (inlining.nameOf index) = none

/-- A visible local has none of the numbers that are not seen. -/
theorem Unseen.differs {inlining : Inlining} {locals : Locals} {number next limit : Nat}
    {bindings : List Binding} {entry : Local} (unseen : inlining.Unseen locals number limit)
    (numbered : inlining.Numbered bindings number next) (room : next ≤ limit)
    (known : Knows locals entry) : ∀ binding ∈ bindings, binding.entry.name ≠ entry.name := by
  intro binding member same
  obtain ⟨index, above, below, named⟩ := numbered.range binding member
  obtain ⟨place, found⟩ := known
  rw [← same, named, unseen index above (by omega)] at found
  cases found

/-- Numbers that are not seen stay so when other numbers are taken. -/
theorem Unseen.withAll {inlining : Inlining} {locals : Locals} {number next limit : Nat}
    {bindings : List Binding} (unseen : inlining.Unseen locals number limit) (valid : locals.Valid)
    (numbered : inlining.Numbered bindings number next) (ordered : number ≤ next) :
    inlining.Unseen (withAll bindings locals) next limit := by
  intro index from_next below
  refine find?_withAll_of_none valid (unseen index (by omega) below) ?_
  intro binding member same
  obtain ⟨other, -, taken, named⟩ := numbered.range binding member
  have := nameOf_inj (named.symm.trans same)
  omega

/-- The inputs of an expression are visible, and its numbers are not. -/
structure Ready (inlining : Inlining) (locals : Locals) (number limit : Nat) : Prop where
  valid : locals.Valid
  inputs : ∀ entry ∈ inlining.inputs, Knows locals entry
  unseen : inlining.Unseen locals number limit

/-- Behind declarations the next numbers can be taken. -/
theorem Ready.withAll {inlining : Inlining} {locals : Locals} {number next limit : Nat}
    {bindings : List Binding} (ready : inlining.Ready locals number limit)
    (numbered : inlining.Numbered bindings number next) (ordered : number ≤ next)
    (room : next ≤ limit) : inlining.Ready (withAll bindings locals) next limit where
  valid := withAll_valid bindings ready.valid
  inputs := fun entry member =>
    (ready.inputs entry member).withAll
      (ready.unseen.differs numbered room (ready.inputs entry member))
  unseen := ready.unseen.withAll ready.valid numbered ordered

/-! ## Inlined expressions -/

/-- The declarations are accepted, and behind them the local is visible. -/
structure Admitted (scope : RoutineScope) (locals : Locals) (bindings : List Binding)
    (entry : Local) : Prop where
  admits : Admits scope locals (bindings.map Binding.statement) (withAll bindings locals)
  known : Knows (withAll bindings locals) entry

variable {inlining : Inlining} {scope : RoutineScope} {locals : Locals} {number next limit : Nat}

/-- One more declaration behind others. -/
theorem Admitted.declare {bindings : List Binding} {type : LocalType} {value : Term} {source : Ty}
    (front : Admits scope locals (bindings.map Binding.statement) (withAll bindings locals))
    (ready : inlining.Ready (withAll bindings locals) next limit) (room : next < limit)
    (named : scope.unit.resolve (writtenType type.ty) = .ok type.ty)
    (part : Types scope.unit (withAll bindings locals) value source)
    (assignable : source.isAssignableTo type.ty = true) :
    Admitted scope locals (bindings ++ [⟨inlining.fresh next type, value⟩])
      (inlining.fresh next type) := by
  have fresh := ready.unseen next (Nat.le_refl _) room
  constructor
  · rw [List.map_append, withAll_append]
    exact front.append (.declare named part assignable fresh .nil)
  · rw [withAll_append]
    exact ⟨_, Script.Locals.find?_with_self _ _ _⟩

/-- A declaration whose value has the type of the local. -/
theorem Admitted.declare_scalar {bindings : List Binding} {type : DataType} {value : Term}
    (front : Admits scope locals (bindings.map Binding.statement) (withAll bindings locals))
    (ready : inlining.Ready (withAll bindings locals) next limit) (room : next < limit)
    (part : Types scope.unit (withAll bindings locals) value (scalarTy type)) :
    Admitted scope locals (bindings ++ [⟨inlining.fresh next (.scalar type), value⟩])
      (inlining.fresh next (.scalar type)) := by
  refine .declare front ready room (resolve_scalar scope.unit type) part ?_
  cases type <;> rfl

/-- A local made boolean. -/
theorem Booleans.admitted {plain entry : Local} {bindings : List Binding}
    (booleans : Booleans inlining plain number entry next bindings)
    (ready : inlining.Ready locals number limit) (room : next ≤ limit)
    (known : Knows locals plain) :
    Admitted scope locals bindings entry ∧ entry.type = .scalar .boolean := by
  cases booleans with
  | same boolean => exact ⟨⟨.nil, known⟩, boolean⟩
  | cast other transparent =>
    have scalar : Scalar .boolean := rfl
    have inner : Types scope.unit locals
        (.cast .first (termOf plain) (writtenType .boolean)) .boolean :=
      .cast (resolve_scalar scope.unit .boolean) known.types
        (isCastableFrom_of_transparent scalar transparent)
    have front : Admits scope locals ([].map Binding.statement) (withAll [] locals) := .nil
    exact ⟨.declare_scalar front ready room inner, rfl⟩

/-- What is declared later leaves an accepted local visible. -/
theorem Admitted.behind {first second : List Binding} {entry last : Local}
    (left : Admitted scope locals first entry)
    (right : Admitted scope (withAll first locals) second last) :
    Admitted scope locals (first ++ second) last where
  admits := by
    rw [List.map_append, withAll_append]
    exact left.admits.append right.admits
  known := by
    rw [withAll_append]
    exact right.known

/-- An operand that is made boolean. -/
theorem Admitted.boolean {plain entry : Local} {middle : Nat} {bindings more : List Binding}
    (operand : Admitted scope locals bindings plain)
    (numbered : inlining.Numbered bindings number middle) (ordered : number ≤ middle)
    (booleans : Booleans inlining plain middle entry next more)
    (ready : inlining.Ready locals number limit) (room : next ≤ limit) :
    Admitted scope locals (bindings ++ more) entry ∧ entry.type = .scalar .boolean := by
  obtain ⟨above, -, -⟩ := booleans.numbered
  have later := ready.withAll numbered ordered (by omega)
  have made : Admitted scope (withAll bindings locals) more entry ∧ entry.type = .scalar .boolean :=
    booleans.admitted later room operand.known
  exact ⟨operand.behind made.1, made.2⟩

/-- Two operands, one behind the other. -/
theorem Admitted.both {leftLocal rightLocal : Local} {middle : Nat}
    {leftBindings rightBindings : List Binding}
    (first : Admitted scope locals leftBindings leftLocal)
    (lower : inlining.Numbered leftBindings number middle) (above : number ≤ middle)
    (upper : inlining.Numbered rightBindings middle next) (further : middle ≤ next)
    (ready : inlining.Ready locals number limit) (room : next ≤ limit)
    (second : Admitted scope (withAll leftBindings locals) rightBindings rightLocal) :
    Knows (withAll (leftBindings ++ rightBindings) locals) leftLocal ∧
      Admitted scope locals (leftBindings ++ rightBindings) rightLocal ∧
      inlining.Ready (withAll (leftBindings ++ rightBindings) locals) next limit := by
  have middleReady := ready.withAll lower above (by omega)
  refine ⟨?_, first.behind second, ?_⟩
  · rw [withAll_append]
    exact first.known.withAll (middleReady.unseen.differs upper room first.known)
  · rw [withAll_append]
    exact middleReady.withAll upper further room

/-- Whatever is inlined is accepted. -/
theorem Inlines.admitted {expr : Expr} {entry : Local} {bindings : List Binding}
    (inlines : Inlines inlining expr number entry next bindings)
    (ready : inlining.Ready locals number limit) (room : next ≤ limit) :
    Admitted scope locals bindings entry := by
  induction inlines generalizing locals with
  | column present => exact ⟨.nil, ready.inputs _ (List.mem_of_getElem? present)⟩
  | constant written =>
    obtain ⟨source, part, assignable, named⟩ := types_constant scope.unit locals written
    have front : Admits scope locals ([].map Binding.statement) (withAll [] locals) := .nil
    exact .declare front ready room named part assignable
  | arithmetic plain numeric first second leftConverts rightConverts firstStep secondStep =>
    obtain ⟨above, -, lower⟩ := first.numbered
    obtain ⟨further, -, upper⟩ := second.numbered
    have left := firstStep ready (by omega)
    have right := secondStep (ready.withAll lower above (by omega)) (by omega)
    obtain ⟨leftKnown, both, later⟩ := left.both lower above upper further ready (by omega) right
    have scalar := Scalar.of_isNumeric numeric
    refine .declare_scalar both.admits later room (leftKnown.nullSafe both.known ?_)
    exact types_arithmetic _ numeric (leftKnown.converted scalar leftConverts)
      (both.known.converted scalar rightConverts)
  | comparison comparable first second leftConverts rightConverts firstStep secondStep =>
    obtain ⟨above, -, lower⟩ := first.numbered
    obtain ⟨further, -, upper⟩ := second.numbered
    have left := firstStep ready (by omega)
    have right := secondStep (ready.withAll lower above (by omega)) (by omega)
    obtain ⟨leftKnown, both, later⟩ := left.both lower above upper further ready (by omega) right
    have scalar := Scalar.of_inlineComparisonType? comparable
    refine .declare_scalar both.admits later room (leftKnown.nullSafe both.known ?_)
    exact types_comparison _ scalar (leftKnown.converted scalar leftConverts)
      (both.known.converted scalar rightConverts)
  | logical first leftBoolean second rightBoolean firstStep secondStep =>
    obtain ⟨above, -, lower⟩ := first.numbered
    obtain ⟨more, -, leftSingle⟩ := leftBoolean.numbered
    obtain ⟨further, -, upper⟩ := second.numbered
    obtain ⟨last, -, rightSingle⟩ := rightBoolean.numbered
    have leftNumbered := lower.append leftSingle above more
    have rightNumbered := upper.append rightSingle further last
    obtain ⟨left, leftTyped⟩ :=
      (firstStep ready (by omega)).boolean lower above leftBoolean ready (by omega)
    have middleReady := ready.withAll leftNumbered (by omega) (by omega)
    obtain ⟨right, rightTyped⟩ := (secondStep middleReady (by omega)).boolean upper further
      rightBoolean middleReady (by omega)
    obtain ⟨leftKnown, both, later⟩ := left.both leftNumbered (by omega) rightNumbered (by omega)
      ready (by omega) right
    exact .declare_scalar both.admits later room
      (leftKnown.logical both.known leftTyped rightTyped _)
  | not inner boolean step =>
    obtain ⟨above, -, lower⟩ := inner.numbered
    obtain ⟨more, -, upper⟩ := boolean.numbered
    obtain ⟨operand, typed⟩ := (step ready (by omega)).boolean lower above boolean ready (by omega)
    have later := ready.withAll (lower.append upper above more) (by omega) (by omega)
    exact .declare_scalar operand.admits later room (operand.known.negation typed)
  | isNull inner step =>
    obtain ⟨above, -, lower⟩ := inner.numbered
    have operand := step ready (by omega)
    have later := ready.withAll lower above (by omega)
    exact .declare_scalar operand.admits later room operand.known.equal_null

end Inlining

end QueryFusion.Generate
