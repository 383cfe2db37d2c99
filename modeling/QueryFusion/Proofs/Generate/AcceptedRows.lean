import QueryFusion.Proofs.Generate.FittingRows
import QueryFusion.Proofs.Generate.InlinedTypes

/-!
# The code of rows is accepted

Every step of a run is accepted by the compiler behind the steps before it, with one exception: a
condition that is an object without a class cannot be made boolean. No name is declared twice, since
each node starts its names with its id, and the parts of a node do not share names.
-/

namespace QueryFusion.Generate

open Emit
open Script (Term Ty Stmt Types TypesAll Admits AdmitsIff Locals UnitScope RoutineScope)

/-! ## Names that are not taken -/

/-- No visible local has a name under the stem. -/
def Clear (locals : Locals) (stem : String) : Prop :=
  ∀ name, Under stem name → locals.find? name = none

/-- All declared names are under the stem. -/
def Within (stem : String) (bindings : List Binding) : Prop :=
  ∀ binding ∈ bindings, Under stem binding.entry.name

section Names

variable {locals : Locals} {stem : String} {bindings : List Binding} {entry : Local}

/-- What is visible stays so when free names are declared. -/
theorem Clear.knows (clear : Clear locals stem) (within : Within stem bindings)
    (known : Knows locals entry) : Knows (withAll bindings locals) entry := by
  refine known.withAll fun binding member same => ?_
  obtain ⟨number, found⟩ := known
  have free := clear _ (within binding member)
  rw [same, found] at free
  cases free

/-- Declarations that leave a part alone. -/
theorem Clear.withAll (clear : Clear locals stem) (valid : locals.Valid)
    (apart : Apart stem bindings) : Clear (withAll bindings locals) stem := by
  intro name under
  refine find?_withAll_of_none valid (clear name under) fun binding member same => ?_
  exact apart binding member (same ▸ under)

/-- A part of a part. -/
theorem Clear.part {rest : String} (clear : Clear locals stem) :
    Clear locals (stem ++ "_" ++ rest) :=
  fun name under => clear name under.shorten

/-- Nothing is visible at the beginning of a routine. -/
theorem clear_withAll (apart : Apart stem bindings) :
    Clear (Generate.withAll bindings ⟨[], []⟩) stem :=
  Clear.withAll (fun _ _ => rfl) ⟨List.nodup_nil, fun _ member => nomatch member⟩ apart

/-- The names of two lists of declarations. -/
theorem Within.append {more : List Binding} (first : Within stem bindings)
    (second : Within stem more) :
    Within stem (bindings ++ more) :=
  List.forall_mem_append.2 ⟨first, second⟩

end Names

/-- The locals of a routine whose names leave those of the engine alone. -/
structure Ordinary (locals : Locals) : Prop where
  valid : locals.Valid
  free : ∀ name, ¬ Underscored name → locals.find? name = none

/-- There are no locals at the beginning of a routine. -/
theorem Ordinary.empty : Ordinary ⟨[], []⟩ :=
  ⟨⟨List.nodup_nil, fun _ member => nomatch member⟩, fun _ _ => rfl⟩

/-- More locals with names of generated code. -/
theorem Ordinary.withAll {locals : Locals} {bindings : List Binding} (ordinary : Ordinary locals)
    (named : ∀ binding ∈ bindings, Underscored binding.entry.name) :
    Ordinary (withAll bindings locals) where
  valid := withAll_valid bindings ordinary.valid
  free := by
    intro name other
    refine find?_withAll_of_none ordinary.valid (ordinary.free name other) ?_
    exact fun binding member same => other (same ▸ named binding member)

/-- The names of the engine do not start with an underscore. -/
theorem not_underscored {name : String} (other : name.toList.head? ≠ some '_') :
    ¬ Underscored name := by
  rintro ⟨rest, -, rfl⟩
  exact other (by simp)

/-- No local hides the rows of the engine. -/
theorem Ordinary.unowned {locals : Locals} (ordinary : Ordinary locals) :
    locals.find? "HeapRow" = none :=
  ordinary.free _ (not_underscored (by decide))

/-- A name of an imported module may be used. -/
theorem imports_of_module {scope : UnitScope} {name moduleName : String}
    (provided : Symbol.moduleOf? name = some moduleName) (imported : moduleName ∈ scope.imports) :
    scope.Imports name :=
  fun _ found => Option.some.inj (provided.symm.trans found) ▸ imported

/-- A type that is written as a single name is resolved when the name may be used. -/
theorem resolve_plain {scope : UnitScope} {name : String} {type : Ty}
    (known : Ty.resolve? name none = some type) (imported : scope.Imports name) :
    scope.resolve ⟨name, none, .first⟩ = .ok type := by
  rw [UnitScope.resolve, known]
  have needed := imported.requireImport_eq .first
  rw [needed]
  cases type <;> rfl

/-! ## Types of values -/

/-- What is not a row is a value. -/
theorem isValueType_of_ne_row {type : LocalType} (plain : type ≠ .row) :
    type.ty.isValueType = true := by
  cases type with
  | scalar source => cases source <;> rfl
  | value | object => rfl
  | row => exact absurd rfl plain

/-- Operations do not make rows. -/
theorem operationType?_ne_row {target : DataType} {type found : LocalType}
    {operands : List (Option LocalType)} (plain : type ≠ .row)
    (made : operationType? target type operands = some found) : found ≠ .row := by
  unfold operationType? at made
  split at made
  · cases made
    exact plain
  · cases made

/-- An expression over values is a value. -/
theorem exprType_ne_row {inputs : List LocalType} (plain : ∀ type ∈ inputs, type ≠ .row)
    (expr : Expr) : exprType inputs expr ≠ .row := by
  have scalar : ∀ {type : DataType}, LocalType.scalar type ≠ .row := by
    intro type same
    cases same
  have inlined : ∀ {type : LocalType}, inlineType? inputs expr = some type → type ≠ .row := by
    intro type found
    cases expr with
    | column index source => exact plain type (List.mem_of_getElem? found)
    | constant value source =>
      obtain ⟨term, written⟩ := inlineType?_constant.1 found
      cases value with
      | null =>
        cases written
        split <;> exact fun same => by cases same
      | double number =>
        simp only [constantTerm?] at written
        split at written
        · cases written
          exact scalar
        · cases written
      | boolean | int | bigInt | varchar =>
        cases written
        exact scalar
      | object => cases written
    | arithmetic op left right source =>
      rw [inlineType?] at found
      split at found
      · cases found
      · exact operationType?_ne_row scalar found
    | comparison mode left right =>
      rw [inlineType?] at found
      split at found
      · exact operationType?_ne_row scalar found
      · cases found
    | and left right | or left right | not operand => exact operationType?_ne_row scalar found
    | isNull operand =>
      obtain ⟨source, -, rfl⟩ := Option.map_eq_some_iff.1 found
      exact scalar
    | cast operand target | abs operand => cases found
  unfold exprType
  cases found : inlineType? inputs expr with
  | none => exact fun same => by cases same
  | some type => exact inlined found

/-- No field of a scan is a row. -/
theorem fieldTypes_ne_row (spec : ScanSpec) : ∀ type ∈ spec.fieldTypes, type ≠ .row := by
  intro type member
  obtain ⟨field, -, rfl⟩ := List.mem_map.1 member
  unfold ScanSpec.fieldType
  split <;> exact fun same => nomatch same

/-- No column of a run is a row. -/
theorem columnTypes_ne_row (plan : Plan) : ∀ type ∈ plan.columnTypes, type ≠ .row := by
  induction plan with
  | scan id spec =>
    intro type member
    obtain ⟨index, -, found⟩ := List.mem_filterMap.1 member
    exact fieldTypes_ne_row spec type (List.mem_of_getElem? found)
  | filter id condition input step => exact step
  | project id expressions input step =>
    intro type member
    obtain ⟨expression, -, rfl⟩ := List.mem_map.1 member
    exact exprType_ne_row step expression
  | root | sort | join => exact fun _ member => nomatch member

/-! ## Expressions -/

section Expressions

variable {scope : RoutineScope} {locals : Locals} {id : NodeId} {inputs row : List Local}

/-- The inputs are visible, and none of them is a row. -/
def Given (locals : Locals) (inputs : List Local) : Prop :=
  ∀ input ∈ inputs, Knows locals input ∧ input.type ≠ .row

/-- Inputs stay visible when free names are declared. -/
theorem Given.behind {stem : String} {bindings : List Binding} (given : Given locals inputs)
    (clear : Clear locals stem) (within : Within stem bindings) :
    Given (withAll bindings locals) inputs :=
  fun input member => ⟨clear.knows within (given input member).1, (given input member).2⟩

/-- The types of the inputs are no rows. -/
theorem Given.plain (given : Given locals inputs) :
    ∀ type ∈ inputs.map Local.type, type ≠ .row := by
  intro type member
  obtain ⟨input, inside, rfl⟩ := List.mem_map.1 member
  exact (given input inside).2

/-- The values of inputs. -/
theorem Given.types (given : Given locals inputs) :
    TypesAll scope.unit locals (inputs.map termOf) (inputs.map fun input => input.type.ty) := by
  induction inputs with
  | nil => exact .nil
  | cons input rest step =>
    exact .cons (given input List.mem_cons_self).1.types
      (step fun other member => given other (List.mem_cons_of_mem _ member))

namespace Inlining

variable {inlining : Inlining} {keeper : Keeper} {expr : Expr} {imports : List String}
  {entry : Local} {bindings : List Binding}

/-- The names of an expression are under its stem. -/
theorem under_nameOf (inlining : Inlining) (number : Nat) :
    Under inlining.stem (inlining.nameOf number) :=
  .inr ⟨toString number, rfl⟩

/-- The name of the row of the inputs is under the stem. -/
theorem under_rowName (inlining : Inlining) : Under inlining.stem inlining.rowName := by
  have apart : "_row" = "_" ++ "row" := by decide
  exact .inr ⟨"row", by rw [rowName, apart, String.append_assoc]⟩

/-- The numbered names are among those that an expression may take. -/
theorem nameOf_mem_names (inlining : Inlining) {number : Nat} (below : number < expr.span) :
    inlining.nameOf number ∈ inlining.names expr :=
  List.mem_cons_of_mem _ (List.mem_cons_of_mem _ (List.mem_map_of_mem (List.mem_range.2 below)))

/-- The name of the row is among those that an expression may take. -/
theorem rowName_mem_names (inlining : Inlining) : inlining.rowName ∈ inlining.names expr :=
  List.mem_cons_of_mem _ List.mem_cons_self

/-- The names that an expression may take are under its stem. -/
theorem under_of_mem_names {name : String} (member : name ∈ inlining.names expr) :
    Under inlining.stem name := by
  rcases List.mem_cons.1 member with rfl | member
  · exact .inl rfl
  rcases List.mem_cons.1 member with rfl | member
  · exact inlining.under_rowName
  · obtain ⟨number, -, rfl⟩ := List.mem_map.1 member
    exact inlining.under_nameOf number

/-- The names of an expression are free where nothing under its stem is visible. -/
theorem free_of_clear (clear : Clear locals inlining.stem) :
    ∀ name ∈ inlining.names expr, locals.find? name = none :=
  fun name member => clear name (under_of_mem_names member)

/-- All names of an expression are under its stem. -/
theorem Emits.within (emits : Emits inlining keeper expr imports entry bindings) :
    Within inlining.stem bindings := by
  cases emits with
  | inlined inlines =>
    obtain ⟨-, -, numbered⟩ := inlines.numbered
    intro binding member
    obtain ⟨number, -, -, named⟩ := numbered.range binding member
    rw [named]
    exact inlining.under_nameOf number
  | evaluated =>
    exact List.forall_mem_cons.2
      ⟨inlining.under_rowName, List.forall_mem_singleton.2 (.inl rfl)⟩

/-- The code of an expression is accepted where its inputs are visible and its names are free. -/
theorem Emits.admitted (emits : Emits inlining keeper expr scope.unit.imports entry bindings)
    (valid : locals.Valid) (unowned : locals.find? "HeapRow" = none)
    (given : Given locals inlining.inputs)
    (free : ∀ name ∈ inlining.names expr, locals.find? name = none)
    (visible : keeper.Visible scope.unit locals) : Admitted scope locals bindings entry := by
  cases emits with
  | @inlined _ next _ inlines =>
    obtain ⟨-, bound, -⟩ := inlines.numbered
    have unseen : inlining.Unseen locals 0 expr.span := by
      intro number _ below
      exact free _ (inlining.nameOf_mem_names below)
    have ready : inlining.Ready locals 0 expr.span :=
      ⟨valid, fun input member => (given input member).1, unseen⟩
    exact inlines.admitted ready (by omega)
  | evaluated untyped provided =>
    have row : Types scope.unit locals inlining.rowBinding.value .row := by
      refine .row unowned (provided "HeapRow" (by decide)) given.types fun type member => ?_
      obtain ⟨input, inside, rfl⟩ := List.mem_map.1 member
      exact isValueType_of_ne_row (given input inside).2
    have rowNamed : scope.unit.resolve (writtenType .row) = .ok .row :=
      resolve_plain rfl (provided "Row" (by decide))
    have rowFree := free _ inlining.rowName_mem_names
    have kept := visible.with .row rowFree
    obtain ⟨held, unshadowed⟩ := kept.types
    have given : Types scope.unit (locals.with inlining.rowName .row)
        (.name .first inlining.rowName) .row := .name (Script.Locals.find?_with_self _ _ _)
    have evaluated : Types scope.unit (locals.with inlining.rowName .row)
        (inlining.evalBinding keeper).value .value :=
      .method (by cases keeper <;> rfl) unshadowed held rfl (.cons given .nil) (.cons rfl .nil)
    have stemFree : (locals.with inlining.rowName .row).find? inlining.stem = none :=
      Script.Locals.find?_with_of_none .row valid (free _ List.mem_cons_self) inlining.rowName_ne
    constructor
    · exact .declare rowNamed row rfl rowFree
        (.declare (resolve_value scope.unit) evaluated rfl stemFree .nil)
    · exact ⟨_, Script.Locals.find?_with_self _ _ _⟩

end Inlining

end Expressions

/-! ## Fields -/

/-- No name is declared twice. -/
def Unrepeated (bindings : List Binding) : Prop :=
  (bindings.map fun binding => binding.entry.name).Nodup

section Once

variable {locals : Locals} {entry : Local} {done more : List Binding}

/-- Some of the declarations. -/
theorem Unrepeated.left (once : Unrepeated (done ++ more)) : Unrepeated done := by
  rw [Unrepeated, List.map_append, List.nodup_append] at once
  exact once.1

/-- What is declared once is visible behind the declarations. -/
theorem Declared.knows (declared : Declared done entry) (once : Unrepeated done) :
    Knows (withAll done locals) entry := by
  obtain ⟨binding, member, rfl⟩ := declared
  obtain ⟨before, after, rfl⟩ := List.append_of_mem member
  rw [Unrepeated, List.map_append, List.map_cons, List.nodup_append, List.nodup_cons] at once
  rw [withAll_append]
  have last : Knows ((withAll before locals).with binding.entry.name binding.entry.type.ty)
      binding.entry := ⟨_, Script.Locals.find?_with_self _ _ _⟩
  refine last.withAll fun other behind same => ?_
  exact once.2.1.1 (same ▸ List.mem_map_of_mem behind)

/-- A name that is declared later is free before. -/
theorem Unrepeated.free {binding : Binding} (once : Unrepeated (done ++ more))
    (member : binding ∈ more) : (withAll done ⟨[], []⟩).find? binding.entry.name = none := by
  refine find?_withAll_of_none Ordinary.empty.valid rfl fun other before same => ?_
  rw [Unrepeated, List.map_append, List.nodup_append] at once
  exact once.2.2 _ (List.mem_map_of_mem before) _ (List.mem_map_of_mem member) same

/-- The declarations are accepted behind others. -/
def AdmitsBehind (scope : RoutineScope) (done more : List Binding) : Prop :=
  Admits scope (withAll done ⟨[], []⟩) (more.map Binding.statement)
    (withAll (done ++ more) ⟨[], []⟩)

/-- Declarations behind others. -/
theorem AdmitsBehind.append {scope : RoutineScope} {further : List Binding}
    (front : AdmitsBehind scope done more) (back : AdmitsBehind scope (done ++ more) further) :
    AdmitsBehind scope done (more ++ further) := by
  unfold AdmitsBehind
  rw [List.map_append, ← List.append_assoc]
  exact Admits.append front back

/-- One declaration behind others. -/
theorem AdmitsBehind.single {scope : RoutineScope} {binding : Binding} {source : Ty}
    (once : Unrepeated (done ++ [binding]))
    (named : scope.unit.resolve (writtenType binding.entry.type.ty) = .ok binding.entry.type.ty)
    (part : Types scope.unit (withAll done ⟨[], []⟩) binding.value source)
    (assignable : source.isAssignableTo binding.entry.type.ty = true) :
    AdmitsBehind scope done [binding] := by
  unfold AdmitsBehind
  rw [withAll_append]
  exact .declare named part assignable (once.free (List.mem_singleton_self _)) .nil

/-- The local is no static owner. -/
theorem Knows.staticOwner?_eq (known : Knows locals entry) :
    Script.staticOwner? locals (termOf entry) = none := by
  obtain ⟨number, found⟩ := known
  simp [termOf, Script.staticOwner?, found]

end Once

/-- Values can be made scalars of every type. -/
theorem isCastableFrom_value (type : DataType) : (scalarTy type).isCastableFrom .value = true := by
  cases type <;> rfl

/-- The type of a scalar is the type of its local. -/
theorem isAssignableTo_scalar (type : DataType) :
    (scalarTy type).isAssignableTo (LocalType.scalar type).ty = true := by
  cases type <;> rfl

/-- The cursor of a scan is a field of the unit. -/
def HasCursor (scope : UnitScope) (id : NodeId) : Prop :=
  ∃ index, scope.field? (VariableKind.scanCursor.fieldOf id) = some (index, .cursor)

section Fields

variable {scope : RoutineScope} {id : NodeId} {spec : ScanSpec} {ofKey : Bool}
  {locals next : ScanLocals} {top entry : Local} {done bindings : List Binding} {path : FieldPath}
  {type : DataType}

/-- The current key or value is a value. -/
theorem HasCursor.types {unit : UnitScope} {visible : Locals} (cursor : HasCursor unit id)
    (ofKey : Bool) : Types unit visible (readTerm id ofKey) .value := by
  obtain ⟨index, found⟩ := cursor
  have field : Types unit visible (cursorTerm id) .cursor := .field found
  cases ofKey <;> exact .method rfl rfl field rfl .nil .nil

/-- The whole key or value is accepted. -/
theorem TopCode.admits (code : TopCode id spec ofKey locals top next bindings)
    (cursor : HasCursor scope.unit id) (once : Unrepeated (done ++ bindings)) :
    AdmitsBehind scope done bindings := by
  cases code with
  | known =>
    unfold AdmitsBehind
    rw [List.append_nil]
    exact .nil
  | read missing =>
    have read : Types scope.unit (withAll done ⟨[], []⟩) (readTerm id ofKey) .value :=
      cursor.types ofKey
    revert once
    cases spec.shapeOf ofKey with
    | ofClass className =>
      intro once
      have same : Ty.isAssignableTo (.object (some className))
          (.object (some className)) = true := by
        simp [Ty.isAssignableTo]
      exact .single once rfl (.cast rfl read rfl) same
    | scalar source => exact fun once => .single once (resolve_value _) read rfl

/-- A field is accepted. -/
theorem FieldCode.admits (code : FieldCode id spec path type locals entry next bindings)
    (cursor : HasCursor scope.unit id) (readable : spec.Readable)
    (member : (path, type) ∈ spec.paths.zip spec.types) (agrees : locals.Agrees spec done)
    (once : Unrepeated (done ++ bindings)) : AdmitsBehind scope done bindings := by
  cases code with
  | whole below shape read => exact read.admits cursor once
  | @scalar top _ tops other name below shape read named =>
    rw [← List.append_assoc] at once
    obtain ⟨typed, declared, -⟩ := read.agrees agrees
    have known : Knows (withAll (done ++ tops) ⟨[], []⟩) top := declared.knows once.left
    have whole : Types scope.unit (withAll (done ++ tops) ⟨[], []⟩) (termOf top) .value := by
      have plain : Types scope.unit _ (termOf top) top.type.ty := known.types
      rwa [typed, shape] at plain
    refine (read.admits cursor once.left).append (.single once (resolve_scalar _ type) ?_
      (isAssignableTo_scalar type))
    exact .cast (resolve_scalar _ type) whole (isCastableFrom_value type)
  | @field top _ tops className field name below shape read named =>
    rw [← List.append_assoc] at once
    obtain ⟨typed, declared, -⟩ := read.agrees agrees
    have known : Knows (withAll (done ++ tops) ⟨[], []⟩) top := declared.knows once.left
    have whole : Types scope.unit (withAll (done ++ tops) ⟨[], []⟩) (termOf top)
        (.object (some className)) := by
      have plain : Types scope.unit _ (termOf top) top.type.ty := known.types
      rwa [typed, shape] at plain
    obtain ⟨-, invertible⟩ := readable.fields _ member className shape field below
    have get : Types scope.unit (withAll (done ++ tops) ⟨[], []⟩)
        (.call .first (termOf top) (getterName field) []) .value :=
      .getter rfl known.staticOwner?_eq whole invertible
    have joined : Ty.null.unify? (scalarTy type) = some (scalarTy type) := by
      cases type <;> rfl
    have value : Types scope.unit (withAll (done ++ tops) ⟨[], []⟩) (fieldTerm top field type)
        (scalarTy type) :=
      .conditional known.equal_null .null
        (.cast (resolve_scalar _ type) get (isCastableFrom_value type)) joined
    exact (read.admits cursor once.left).append (.single once (resolve_scalar _ type) value
      (isAssignableTo_scalar type))

/-- All fields are accepted. -/
theorem FieldsCode.admits {fields : List (FieldPath × DataType)} {row : List Local}
    (code : FieldsCode id spec fields locals row bindings) (cursor : HasCursor scope.unit id)
    (readable : spec.Readable) (listed : ∀ field ∈ fields, field ∈ spec.paths.zip spec.types)
    (agrees : locals.Agrees spec done) (once : Unrepeated (done ++ bindings)) :
    AdmitsBehind scope done bindings := by
  induction code generalizing done with
  | nil =>
    unfold AdmitsBehind
    rw [List.append_nil]
    exact .nil
  | again seen further step =>
    exact step (fun field member => listed field (List.mem_cons_of_mem _ member)) agrees once
  | fresh read further step =>
    rw [← List.append_assoc] at once
    obtain ⟨typed, declared, behind⟩ := read.agrees agrees
    have first := read.admits cursor readable (listed _ List.mem_cons_self) agrees once.left
    exact first.append (step (fun field member => listed field (List.mem_cons_of_mem _ member))
      (behind.withField typed declared) once)

end Fields

/-! ## Conditions -/

section Conditions

variable {scope : RoutineScope} {visible : Locals} {id : NodeId} {inputs row : List Local}

/-- Going on with the next row unless a condition is true. -/
theorem Knows.skip {condition : Local} {head : Nat} (known : Knows visible condition)
    (boolean : condition.type = .scalar .boolean) (inside : scope.loopStart = some head) :
    Admits scope visible [(RowStep.skip condition).statement] visible := by
  have truth : Types scope.unit visible (termOf condition) condition.type.ty := known.types
  rw [boolean] at truth
  exact .branch (.or known.equal_null (.not truth)) (.proceed inside)

/-- What a condition is made boolean by has the boolean type. -/
theorem Knows.passed {entry : Local} (known : Knows visible entry) (plain : entry.type ≠ .row)
    (allowed : entry.type ≠ .scalar .object) :
    Types scope.unit visible (passedBinding id entry).value .boolean := by
  have value : Types scope.unit visible (termOf entry) entry.type.ty := known.types
  have scalar : Scalar .boolean := rfl
  unfold passedBinding
  cases typed : entry.type with
  | object className =>
    rw [typed] at value
    exact .cast rfl (.cast (resolve_value _) value rfl) rfl
  | row => exact absurd typed plain
  | value =>
    rw [typed] at value
    exact .cast rfl value rfl
  | scalar source =>
    rw [typed] at value allowed
    refine .cast rfl value (isCastableFrom_of_transparent scalar ?_)
    cases source with
    | object => exact absurd rfl allowed
    | _ => rfl

/-- An object of no known class is not made boolean. -/
theorem ne_object_of_lowers {entry : Local} {start : Nat} {pools : Script.Pools}
    {block : Script.LoweredBlock} (known : Knows visible entry)
    (rules : Script.LowersBlock scope start visible pools
      [(passedBinding id entry).statement] block) :
    entry.type ≠ .scalar .object := by
  intro closed
  obtain ⟨number, found⟩ := known
  have value : (passedBinding id entry).value =
      .cast .first (.name .first entry.name) (writtenType .boolean) := by
    rw [passedBinding, closed]
    rfl
  rw [Binding.statement, value] at rules
  cases rules with
  | cons rule =>
    cases rule with
    | declare named part assignable fresh =>
      cases part with
      | literal same => cases same
      | cast target inner castable =>
        cases target
        cases inner with
        | literal same => cases same
        | name same =>
          rw [found, closed] at same
          cases same
          cases castable

/-- The names of an expression leave that of a condition made boolean alone. -/
theorem Inlining.Emits.named {suffix : String} {keeper : Keeper} {expr : Expr}
    {imports : List String} {entry : Local} {bindings : List Binding}
    (emits : Emits ⟨stemOf id suffix, inputs⟩ keeper expr imports entry bindings) :
    ∀ binding ∈ bindings, ExpressionName id suffix binding.entry.name := by
  cases emits with
  | inlined inlines =>
    obtain ⟨-, -, numbered⟩ := inlines.numbered
    intro binding member
    obtain ⟨number, -, -, named⟩ := numbered.range binding member
    rw [named]
    exact expressionName_nameOf id suffix inputs number
  | evaluated =>
    exact List.forall_mem_cons.2 ⟨expressionName_row id suffix,
      List.forall_mem_singleton.2 (expressionName_stem id suffix)⟩

/-- A condition is accepted unless it is an object of no known class. -/
theorem TestCode.admitsIff {kind : VariableKind} {condition : Expr} {steps : List RowStep}
    {head : Nat} (code : TestCode id kind inputs condition steps) (ordinary : Ordinary visible)
    (given : Given visible inputs) (clear : Clear visible (stemOf id "filter"))
    (kept : ∃ index, scope.unit.field? (kind.fieldOf id) = some (index, .expression))
    (rows : "sql.row" ∈ scope.unit.imports) (inside : scope.loopStart = some head) :
    AdmitsIff scope visible (steps.map RowStep.statement)
      (withAll (steps.flatMap RowStep.bindings) visible)
      (exprType (inputs.map Local.type) condition ≠ .scalar .object) := by
  cases code with
  | @boolean _ entry bindings emits typed =>
    have admitted : Inlining.Admitted scope visible bindings entry :=
      (emits.importing rows).admitted ordinary.valid ordinary.unowned given
        (Inlining.free_of_clear clear) kept
    rw [List.map_append, RowStep.map_statement_bind, List.flatMap_append,
      RowStep.flatMap_bindings_bind, withAll_append]
    have both := admitted.admits.append (admitted.known.skip typed inside)
    refine (AdmitsIff.of_admits both).congr (iff_of_true trivial ?_)
    have same : entry.type = exprType (inputs.map Local.type) condition := emits.type_eq
    rw [← same, typed]
    exact fun other => nomatch other
  | @cast _ entry bindings emits other =>
    have admitted : Inlining.Admitted scope visible bindings entry :=
      (emits.importing rows).admitted ordinary.valid ordinary.unowned given
        (Inlining.free_of_clear clear) kept
    have same : entry.type = exprType (inputs.map Local.type) condition := emits.type_eq
    have plain : entry.type ≠ .row := same ▸ exprType_ne_row given.plain condition
    have named := emits.named
    have free : (withAll bindings visible).find? (passedLocal id).name = none :=
      find?_withAll_of_none ordinary.valid (clear _ (under_passed id "filter"))
        fun binding member => (named binding member).2
    rw [List.map_append, RowStep.map_statement_bind, List.flatMap_append,
      RowStep.flatMap_bindings_bind, withAll_append, ← same]
    have tested : AdmitsIff scope (withAll bindings visible)
        [(passedBinding id entry).statement, (RowStep.skip (passedLocal id)).statement]
        (withAll [passedBinding id entry] (withAll bindings visible))
        (entry.type ≠ .scalar .object) := by
      refine ⟨fun allowed => ?_, fun rules => ?_⟩
      · have passed : Types scope.unit (withAll bindings visible) (passedBinding id entry).value
            .boolean := admitted.known.passed plain allowed
        have last : Knows (withAll [passedBinding id entry] (withAll bindings visible))
            (passedLocal id) := ⟨_, Script.Locals.find?_with_self _ _ _⟩
        exact .declare rfl passed rfl free (last.skip rfl inside)
      · obtain ⟨left, right, front, -⟩ :=
          @Script.LowersBlock.split _ _ _ _ [(passedBinding id entry).statement] _ _ rules
        exact ne_object_of_lowers admitted.known front
    exact ((AdmitsIff.of_admits admitted.admits).append tested).congr (by rw [true_and])

/-- The names of a condition are under its own part. -/
theorem TestCode.within {kind : VariableKind} {condition : Expr} {steps : List RowStep}
    (code : TestCode id kind inputs condition steps) :
    Within (stemOf id "filter") (steps.flatMap RowStep.bindings) := by
  cases code with
  | boolean emits typed =>
    rw [List.flatMap_append, RowStep.flatMap_bindings_bind]
    exact Within.append emits.within fun _ member => nomatch member
  | cast emits other =>
    rw [List.flatMap_append, RowStep.flatMap_bindings_bind]
    exact Within.append emits.within (List.forall_mem_singleton.2 (under_passed id "filter"))

end Conditions

/-! ## Projections -/

section Projections

variable {scope : RoutineScope} {visible : Locals} {id : NodeId} {row projected : List Local}

/-- The names of a projection are under the parts of its expressions. -/
theorem ProjectsCode.under {wide : Prop} {expressions : List Expr} {index : Nat}
    {bindings : List Binding}
    (code : ProjectsCode wide id row expressions index projected bindings) : ∀ binding ∈ bindings,
      ∃ number, index ≤ number ∧ Under (projection id row number).stem binding.entry.name := by
  induction code with
  | nil => exact fun _ member => nomatch member
  | @cons imports expression rest index entry others first bindings emits small further step =>
    refine List.forall_mem_append.2 ⟨fun binding member => ?_, fun binding member => ?_⟩
    · exact ⟨index, Nat.le_refl _, emits.within binding member⟩
    · obtain ⟨number, above, under⟩ := step binding member
      exact ⟨number, by omega, under⟩

/-- The expressions of a projection are accepted, and their locals are visible behind them. -/
theorem ProjectsCode.admits {wide : Prop} {expressions : List Expr} {index : Nat}
    {bindings : List Binding} (code : ProjectsCode wide id row expressions index projected bindings)
    (ordinary : Ordinary visible) (given : Given visible row)
    (clear : ∀ number, index ≤ number → Clear visible (projection id row number).stem)
    (kept : ∃ place, scope.unit.field? (VariableKind.projectExpressions.fieldOf id) =
      some (place, .list .expression))
    (rows : "sql.row" ∈ scope.unit.imports)
    (named : ∀ binding ∈ bindings, Underscored binding.entry.name) :
    Admits scope visible (bindings.map Binding.statement) (withAll bindings visible) ∧
      ∀ entry ∈ projected, Knows (withAll bindings visible) entry := by
  induction code generalizing visible with
  | nil => exact ⟨.nil, fun _ member => nomatch member⟩
  | @cons imports expression rest index entry others first bindings emits small further step =>
    rw [List.forall_mem_append] at named
    have here := clear index (Nat.le_refl _)
    have admitted : Inlining.Admitted scope visible first entry :=
      (emits.importing rows).admitted ordinary.valid ordinary.unowned given
        (Inlining.free_of_clear here) kept
    have within : Within (projection id row index).stem first := emits.within
    have apart : ∀ number, index < number → Apart (projection id row number).stem first :=
      fun number above binding member under =>
        absurd (projection_unique (within binding member) under) (Nat.ne_of_lt above)
    have behind : ∀ number, index + 1 ≤ number →
        Clear (withAll first visible) (projection id row number).stem := fun number above =>
      (clear number (by omega)).withAll ordinary.valid (apart number above)
    have later := step (ordinary.withAll named.1) (given.behind here within) behind named.2
    rw [List.map_append, withAll_append]
    refine ⟨admitted.admits.append later.1, List.forall_mem_cons.2 ⟨?_, later.2⟩⟩
    refine admitted.known.withAll fun binding member same => ?_
    obtain ⟨place, found⟩ := admitted.known
    obtain ⟨number, above, under⟩ := further.under binding member
    have free := behind number above _ under
    rw [same, found] at free
    cases free

end Projections

/-! ## Runs -/

section Runs

variable {scope : RoutineScope} {head : Nat}

/-- The fields of a run are fields of the unit. -/
def HasFields (scope : UnitScope) (plan : Plan) : Prop :=
  ∀ entry ∈ (registryOf plan).declared, ∃ index, scope.field? entry.name =
    some (index, entry.kind.ty)

namespace HasFields

variable {unit : UnitScope} {id : NodeId} {input : Plan}

/-- The fields of a generator are among those of its run. -/
theorem of_mem {plan : Plan} (fields : HasFields unit plan) {generator : Generator}
    (member : generator ∈ plan.runGenerators) {kind : VariableKind} {origin : VariableOrigin}
    (listed : ⟨id, kind, origin⟩ ∈ generator.stateVariables) :
    ∃ index, unit.field? (kind.fieldOf id) = some (index, kind.ty) :=
  fields ⟨id, kind, origin⟩ (List.mem_flatMap.2 ⟨generator, member, listed⟩)

/-- A run that ends in others has their fields. -/
theorem mono {plan : Plan} (fields : HasFields unit plan)
    (part : ∀ generator ∈ input.runGenerators, generator ∈ plan.runGenerators) :
    HasFields unit input := by
  intro entry member
  obtain ⟨generator, inside, listed⟩ := List.mem_flatMap.1 member
  exact fields entry (List.mem_flatMap.2 ⟨generator, part generator inside, listed⟩)

/-- The fields of a scan. -/
theorem scan {spec : ScanSpec} (fields : HasFields unit (.scan id spec))
    (compilable : (Plan.scan id spec).isCompilable = true) :
    HasCursor unit id ∧
      ∃ index, unit.field? (VariableKind.scanFilter.fieldOf id) = some (index, .expression) := by
  have member : Generator.scan id spec ∈ (Plan.scan id spec).runGenerators := by
    rw [Plan.runGenerators_scan compilable]
    exact List.mem_singleton_self _
  refine ⟨@of_mem _ id _ fields _ member .scanCursor .opened
    (List.mem_append_right _ (List.mem_singleton_self _)), ?_⟩
  exact @of_mem _ id _ fields _ member .scanFilter (.bound Script.Method.scanFilter.name)
    (List.mem_append_left _ (List.mem_map.2 ⟨(.scanFilter, .scanFilter), by decide, rfl⟩))

/-- The fields of a filter and of what is below it. -/
theorem filter {condition : Expr} (fields : HasFields unit (.filter id condition input))
    (below : input.isCompilable = true) : HasFields unit input ∧
      ∃ index, unit.field? (VariableKind.filterCondition.fieldOf id) =
        some (index, .expression) := by
  have generators := @Plan.runGenerators_filter id input condition below
  refine ⟨fields.mono fun generator member => ?_, ?_⟩
  · rw [generators]
    exact List.mem_append_left _ member
  · exact @of_mem _ id _ fields (.filter id condition)
      (generators ▸ List.mem_append_right _ (List.mem_singleton_self _)) .filterCondition _
      (List.mem_singleton_self _)

/-- The fields of a projection and of what is below it. -/
theorem project {expressions : List Expr} (fields : HasFields unit (.project id expressions input))
    (below : input.isCompilable = true) : HasFields unit input ∧
      ∃ index, unit.field? (VariableKind.projectExpressions.fieldOf id) =
        some (index, .list .expression) := by
  have generators := @Plan.runGenerators_project id input expressions below
  refine ⟨fields.mono fun generator member => ?_, ?_⟩
  · rw [generators]
    exact List.mem_append_left _ member
  · exact @of_mem _ id _ fields (.project id expressions)
      (generators ▸ List.mem_append_right _ (List.mem_singleton_self _)) .projectExpressions _
      (List.mem_singleton_self _)

end HasFields

/-- Locals that are selected are among those read. -/
theorem mem_of_selectLocals {id : NodeId} {fields row : List Local} {projects : List Nat}
    (selected : selectLocals id fields projects = .ok row) {entry : Local} (member : entry ∈ row) :
    entry ∈ fields := by
  rw [selectLocals_eq selected] at member
  obtain ⟨index, -, found⟩ := List.mem_filterMap.1 member
  exact List.mem_of_getElem? found

/-- An optional test is accepted unless its condition is an object of no known class, and declares
names of the filter only. -/
theorem optionalTest_admitsIff {id : NodeId} {row : List Local} {filter : Option Expr}
    {steps : List RowStep} {visible : Locals}
    (tests : OptionalTestCode id .scanFilter row filter steps) (ordinary : Ordinary visible)
    (given : Given visible row) (clear : Clear visible (stemOf id "filter"))
    (kept : ∃ index, scope.unit.field? (VariableKind.scanFilter.fieldOf id) =
      some (index, .expression))
    (rows : "sql.row" ∈ scope.unit.imports) (inside : scope.loopStart = some head) :
    AdmitsIff scope visible (steps.map RowStep.statement)
        (withAll (steps.flatMap RowStep.bindings) visible)
        (∀ type ∈ filter.toList.map (exprType (row.map Local.type)), type ≠ .scalar .object) ∧
      Within (stemOf id "filter") (steps.flatMap RowStep.bindings) := by
  cases tests with
  | none =>
    exact ⟨(AdmitsIff.of_admits .nil).congr (iff_of_true trivial fun _ member => nomatch member),
      fun _ member => nomatch member⟩
  | some tests =>
    refine ⟨(tests.admitsIff ordinary given clear kept rows inside).congr ?_, tests.within⟩
    simp

/-- The steps of a run are accepted unless a condition is an object of no known class, and its row
is visible behind them. -/
theorem RowCode.admitsIff {wide : Prop} {plan : Plan} {row : List Local} {steps : List RowStep}
    (code : RowCode wide plan row steps) (compilable : plan.isCompilable = true)
    (fields : HasFields scope.unit plan) (rows : "sql.row" ∈ scope.unit.imports)
    (inside : scope.loopStart = some head)
    (named : ∀ binding ∈ steps.flatMap RowStep.bindings, Underscored binding.entry.name) :
    AdmitsIff scope ⟨[], []⟩ (steps.map RowStep.statement)
        (withAll (steps.flatMap RowStep.bindings) ⟨[], []⟩)
        (∀ type ∈ plan.conditionTypes, type ≠ .scalar .object) ∧
      Given (withAll (steps.flatMap RowStep.bindings) ⟨[], []⟩) row := by
  induction code with
  | @scan id spec fieldRow row bindings steps read distinct tests apart selected =>
    obtain ⟨cursor, kept⟩ := fields.scan compilable
    have readable := readable_of_checkScan (Plan.checkScan_of_isCompilable compilable)
    rw [List.flatMap_append, RowStep.flatMap_bindings_bind, List.forall_mem_append] at named
    have front : AdmitsBehind scope [] bindings :=
      read.admits cursor readable (fun _ member => member) .empty distinct
    obtain ⟨types, declared⟩ := read.types_eq
    have given : Given (withAll bindings ⟨[], []⟩) fieldRow := fun entry member =>
      ⟨(declared entry member).knows distinct, fieldTypes_ne_row spec _
        (types ▸ List.mem_map_of_mem member)⟩
    have clear : Clear (withAll bindings ⟨[], []⟩) (stemOf id "filter") := clear_withAll apart
    obtain ⟨filtered, within⟩ :=
      optionalTest_admitsIff tests (Ordinary.empty.withAll named.1) given clear kept rows inside
    rw [List.map_append, RowStep.map_statement_bind, List.flatMap_append,
      RowStep.flatMap_bindings_bind, withAll_append, Plan.conditionTypes, ← types]
    refine ⟨((AdmitsIff.of_admits front).append filtered).congr (by rw [true_and]), ?_⟩
    exact fun entry member =>
      (given.behind clear within) entry (mem_of_selectLocals selected member)
  | @filter id condition input row before steps below tests apart step =>
    obtain ⟨further, kept⟩ := fields.filter compilable
    rw [List.flatMap_append, List.forall_mem_append] at named
    obtain ⟨earlier, given⟩ := step compilable further named.1
    have clear : Clear (withAll (before.flatMap RowStep.bindings) ⟨[], []⟩) (stemOf id "filter") :=
      (clear_withAll apart).part
    rw [List.map_append, List.flatMap_append, withAll_append]
    have tested := tests.admitsIff (Ordinary.empty.withAll named.1) given clear kept rows inside
    refine ⟨(earlier.append tested).congr ?_, given.behind clear tests.within⟩
    rw [below.types_eq.1, Plan.conditionTypes, List.forall_mem_append, List.forall_mem_singleton]
  | @project id expressions input row projected before bindings below projects apart step =>
    obtain ⟨further, kept⟩ := fields.project compilable
    rw [List.flatMap_append, List.forall_mem_append, RowStep.flatMap_bindings_bind] at named
    obtain ⟨earlier, given⟩ := step compilable further named.1
    have clear : ∀ number, Clear (withAll (before.flatMap RowStep.bindings) ⟨[], []⟩)
        (projection id row number).stem := fun number => (clear_withAll apart).part
    obtain ⟨admits, known⟩ := projects.admits (Ordinary.empty.withAll named.1) given
      (fun number _ => clear number) kept rows named.2
    rw [List.map_append, List.flatMap_append, RowStep.map_statement_bind,
      RowStep.flatMap_bindings_bind, withAll_append]
    refine ⟨(earlier.append (.of_admits admits)).congr (and_iff_left trivial),
      fun entry member => ?_⟩
    have types := (RowCode.project below projects apart).types_eq.1
    exact ⟨known entry member, columnTypes_ne_row _ _ (types ▸ List.mem_map_of_mem member)⟩

end Runs

end QueryFusion.Generate
