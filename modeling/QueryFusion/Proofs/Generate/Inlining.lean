import QueryFusion.Generate.Inline
import QueryFusion.Proofs.Emit.Drafting
import QueryFusion.Proofs.Emit.Lines

/-!
# What inlining writes

The locals that stand for an expression, with the source trees of their values, as rules: one for
each form of an expression that can be inlined. Inlining follows the rules or finds a part without
one, and the texts it writes are those of the trees.
-/

namespace QueryFusion

/-- How many locals inlining an expression declares at most. -/
def Expr.span : Expr → Nat
  | column .. | cast .. | abs _ => 0
  | constant .. => 1
  | arithmetic _ left right _ | comparison _ left right => left.span + right.span + 1
  | and left right | or left right => left.span + right.span + 3
  | not operand => operand.span + 2
  | isNull operand => operand.span + 1

/-- The logical operation that a truth value settles. -/
def Expr.logical (decisive : Bool) (left right : Expr) : Expr :=
  if decisive then .or left right else .and left right

/-- The operator of the source language. -/
def ArithmeticOp.binary : ArithmeticOp → Script.BinaryOp
  | plus => .add
  | minus => .subtract
  | times => .multiply
  | divide => .divide
  | remainder => .remainder

/-- The operator of the source language. -/
def Comparison.binary : Comparison → Script.BinaryOp
  | equal => .equal
  | notEqual => .notEqual
  | less => .less
  | lessOrEqual => .lessOrEqual
  | greater => .greater
  | greaterOrEqual => .greaterOrEqual

namespace Generate

open Emit
open Script (Term TypeName BinaryOp Ty Stmt enclose)

/-! ## Source trees -/

/-- A type as it is written. -/
def writtenType : Ty → TypeName
  | .object (some className) => ⟨"Object", some className, .first⟩
  | .list element => ⟨"List", some element.name, .first⟩
  | type => ⟨type.text, none, .first⟩

/-- The text of a type as it is written. -/
theorem writtenType_text (type : Ty) : (writtenType type).text = type.text := by
  cases type with
  | object className => cases className <;> rfl
  | _ => rfl

/-- A local as an expression. -/
def termOf (entry : Local) : Term :=
  .name .first entry.name

/-- The test of a local for a value that is written as an expression. -/
def equalTerm (entry : Local) (value : Term) : Term :=
  .binary .first .equal (termOf entry) value

/-- The test of two locals, either of which may have the value. -/
def eitherTerm (left right : Local) (value : Term) : Term :=
  .binary .first .or (equalTerm left value) (equalTerm right value)

/-- A local converted to a type, when there is code for that. -/
def convertTerm? (entry : Local) (target : DataType) : Option Term :=
  if entry.type = .scalar target then some (termOf entry)
  else if entry.type.isOpaque then none
  else some (.cast .first (termOf entry) (writtenType (scalarTy target)))

/-- The literal of a constant, and the type of the local that holds it, when there is one. -/
def constantTerm? (value : Value) (type : DataType) : Option (LocalType × Term) :=
  match value with
  | .null => some (if type = .object then .value else .scalar type, .null .first)
  | .boolean truth => some (.scalar .boolean, .boolean .first truth)
  | .int number => some (.scalar .int, .int .first number)
  | .bigInt number => some (.scalar .bigInt, .bigInt .first number)
  | .double number =>
    if number.isFinite then some (.scalar .double, .double .first number) else none
  | .varchar text => some (.scalar .varchar, .text .first text)
  | .object .. => none

/-- An operation that is null when an operand is. -/
def nullSafeTerm (left right : Local) (operation : Term) : Term :=
  .conditional .first (eitherTerm left right (.null .first)) (.null .first) operation

/-- A logical operation: `decisive` is the value that settles it. -/
def logicalTerm (left right : Local) (decisive : Bool) : Term :=
  .conditional .first (eitherTerm left right (.boolean .first decisive)) (.boolean .first decisive)
    (.conditional .first (eitherTerm left right (.null .first)) (.null .first)
      (.boolean .first !decisive))

/-- The negation of a local that may be null. -/
def negationTerm (entry : Local) : Term :=
  .conditional .first (equalTerm entry (.null .first)) (.null .first) (.not .first (termOf entry))

/-! ## Their texts -/

/-- The text of an operator. -/
theorem symbol_binary (op : ArithmeticOp) : op.binary.symbol = op.symbol := by
  cases op <;> rfl

/-- The text of a comparison. -/
theorem symbol_comparison (mode : Comparison) : mode.binary.symbol = mode.symbol := by
  cases mode <;> rfl

/-- The text of a converted local. -/
theorem convertTo_eq {entry : Local} {target : DataType} {term : Term}
    (found : convertTerm? entry target = some term) : convertTo entry target = .ok term.source := by
  unfold convertTerm? at found
  unfold convertTo
  split at found
  · rename_i same
    cases found
    rw [if_pos same]
    rfl
  · rename_i other
    split at found
    · cases found
    · rename_i transparent
      cases found
      rw [if_neg other, if_neg transparent, Term.source, writtenType_text]
      rfl

/-- A local that cannot be converted is refused as something that is not supported. -/
theorem convertTo_error {entry : Local} {target : DataType}
    (missing : convertTerm? entry target = none) :
    ∃ message, convertTo entry target = .error (.unsupported message) := by
  unfold convertTerm? at missing
  unfold convertTo
  split at missing
  · cases missing
  · rename_i other
    split at missing
    · rename_i closed
      rw [if_neg other, if_pos closed]
      exact ⟨_, rfl⟩
    · cases missing

/-- A converted local needs no parentheses. -/
theorem convertTerm?_level {entry : Local} {target : DataType} {term : Term}
    (found : convertTerm? entry target = some term) : term.level = 8 := by
  unfold convertTerm? at found
  split at found
  · cases found
    rfl
  · split at found
    · cases found
    · cases found
      rfl

/-- The text of a constant. -/
theorem constantLiteral_eq {value : Value} {type : DataType} {localType : LocalType} {term : Term}
    (found : constantTerm? value type = some (localType, term)) :
    constantLiteral value type = .ok (localType, term.source) := by
  cases value with
  | null | boolean truth | int number | bigInt number | varchar text =>
    cases found
    rfl
  | double number =>
    simp only [constantTerm?] at found
    split at found
    · rename_i finite
      cases found
      exact if_pos finite
    · cases found
  | object identity className fields => cases found

/-- A constant without a literal is refused as something that is not supported. -/
theorem constantLiteral_error {value : Value} {type : DataType}
    (missing : constantTerm? value type = none) :
    ∃ message, constantLiteral value type = .error (.unsupported message) := by
  cases value with
  | null | boolean truth | int number | bigInt number | varchar text => cases missing
  | double number =>
    simp only [constantTerm?] at missing
    split at missing
    · cases missing
    · rename_i infinite
      exact ⟨_, if_neg infinite⟩
  | object identity className fields => exact ⟨_, rfl⟩

/-- The text of operands that are converted to a type, with an operator between them. -/
theorem joined_eq {left right : Local} {type : DataType} {leftTerm rightTerm : Term}
    (op : BinaryOp) (first : convertTerm? left type = some leftTerm)
    (second : convertTerm? right type = some rightTerm) :
    joined left right type op.symbol = .ok (Term.binary .first op leftTerm rightTerm).source := by
  have plain : ∀ {term : Term}, term.level = 8 →
      enclose (op.level + 1) term.level term.source = term.source := by
    intro term tight
    rw [tight]
    exact if_pos (by cases op <;> decide)
  rw [joined, convertTo_eq first, convertTo_eq second, Term.source,
    plain (convertTerm?_level first), plain (convertTerm?_level second)]
  rfl

/-- Operands that cannot both be converted are refused as something that is not supported. -/
theorem joined_error (left right : Local) {type : DataType} (symbol : String)
    (missing : convertTerm? left type = none ∨ convertTerm? right type = none) :
    ∃ message, joined left right type symbol = .error (.unsupported message) := by
  unfold joined
  cases first : convertTerm? left type with
  | none =>
    obtain ⟨message, refused⟩ := convertTo_error first
    exact ⟨message, by rw [refused]; rfl⟩
  | some leftTerm =>
    have second : convertTerm? right type = none := by simpa [first] using missing
    obtain ⟨message, refused⟩ := convertTo_error second
    exact ⟨message, by rw [convertTo_eq first, refused]; rfl⟩

/-- The text of the test of a local. -/
theorem equalTerm_source (entry : Local) {value : Term} (tight : value.level = 8) :
    (equalTerm entry value).source = entry.name ++ " == " ++ value.source := by
  have plain : enclose (BinaryOp.equal.level + 1) value.level value.source = value.source := by
    rw [tight]
    rfl
  rw [equalTerm, Term.source, plain, ← String.toList_inj]
  simp [termOf, Term.source, Term.level, BinaryOp.level, BinaryOp.symbol, enclose]

/-- The text of a choice that depends on two locals. -/
theorem conditional_source (left right : Local) {value thenValue elseValue : Term}
    (tight : value.level = 8) (also : thenValue.level = 8) :
    (Term.conditional .first (eitherTerm left right value) thenValue elseValue).source =
      "(" ++ left.name ++ " == " ++ value.source ++ " || " ++ right.name ++ " == " ++
        value.source ++
        ") ? " ++ thenValue.source ++ " : " ++ enclose 7 elseValue.level elseValue.source := by
  have loose : (eitherTerm left right value).level = 1 := rfl
  have test : (equalTerm left value).level = 3 := rfl
  have other : (equalTerm right value).level = 3 := rfl
  rw [Term.source, loose, also, eitherTerm, Term.source, test, other, equalTerm_source left tight,
    equalTerm_source right tight, ← String.toList_inj]
  simp [enclose, BinaryOp.symbol, BinaryOp.level]

/-- The text of an operation that is null when an operand is. -/
theorem nullSafe_eq (left right : Local) {operation : Term} (loose : operation.level < 7) :
    nullSafe left right operation.source = (nullSafeTerm left right operation).source := by
  have enclosed : enclose 7 operation.level operation.source = "(" ++ operation.source ++ ")" :=
    if_neg (by omega)
  have tight : (Term.null .first).level = 8 := rfl
  rw [nullSafeTerm, conditional_source left right tight tight, enclosed, ← String.toList_inj]
  simp [nullSafe, Term.source]

/-- The text of a logical operation as one choice within another. -/
theorem logical_eq_nested (left right decisive neutral : String) :
    logical left right decisive neutral =
      "(" ++ left ++ " == " ++ decisive ++ " || " ++ right ++ " == " ++ decisive ++ ") ? " ++
        decisive ++ " : " ++ ("(" ++ ("(" ++ left ++ " == " ++ "null" ++ " || " ++ right ++
          " == " ++ "null" ++ ") ? " ++ "null" ++ " : " ++ neutral) ++ ")") := by
  have opening : " : ((" = " : " ++ ("(" ++ "(") := by decide
  have first : " == null || " = " == " ++ "null" ++ " || " := by decide
  have last : " == null) ? null : " = " == " ++ "null" ++ ") ? " ++ "null" ++ " : " := by decide
  unfold logical
  rewrite [opening, first, last]
  simp only [String.append_assoc, -String.reduceAppend]

/-- The text of a logical operation. -/
theorem logical_eq (left right : Local) (decisive : Bool) :
    logical left.name right.name (Term.boolean .first decisive).source
        (Term.boolean .first !decisive).source = (logicalTerm left right decisive).source := by
  have constant : ∀ truth, (Term.boolean .first truth).level = 8 := fun _ => rfl
  have nothing : (Term.null .first).level = 8 := rfl
  have enclosed : ∀ text, enclose 7 0 text = "(" ++ text ++ ")" := fun _ => rfl
  have neutral : ∀ text, enclose 7 8 text = text := fun _ => rfl
  have inner : ∀ condition thenValue elseValue,
      (Term.conditional .first condition thenValue elseValue).level = 0 := fun _ _ _ => rfl
  rw [logicalTerm, conditional_source left right (constant _) (constant _), inner, enclosed,
    conditional_source left right nothing nothing, constant, neutral]
  exact logical_eq_nested _ _ _ _

/-- The text of a negation. -/
theorem negation_eq (entry : Local) :
    "(" ++ entry.name ++ " == null) ? null : !" ++ entry.name = (negationTerm entry).source := by
  rw [← String.toList_inj]
  simp only [negationTerm, equalTerm, termOf, Term.source]
  simp [Term.level, BinaryOp.level, BinaryOp.symbol, enclose]

/-- The text of a null test. -/
theorem nullTest_eq (entry : Local) :
    entry.name ++ " == null" = (equalTerm entry (.null .first)).source := by
  simp [equalTerm, termOf, Term.source, Term.level, BinaryOp.level, BinaryOp.symbol, enclose,
    String.append_assoc]

/-! ## Declared locals -/

/-- A local with the expression that is its first value. -/
structure Binding where
  entry : Local
  value : Term

/-- The statement that declares a local. -/
def Binding.statement (binding : Binding) : Stmt :=
  .declare .first binding.entry.name (writtenType binding.entry.type.ty) binding.value

/-- The routine with some locals declared one after another. -/
def declaredAll (bindings : List Binding) (draft : RoutineDraft) : RoutineDraft :=
  bindings.foldl (fun all binding => all.declared binding.entry binding.value.source) draft

/-- Locals are declared behind others. -/
theorem declaredAll_append (first second : List Binding) (draft : RoutineDraft) :
    declaredAll (first ++ second) draft = declaredAll second (declaredAll first draft) :=
  List.foldl_append

/-- Names that none of the declared locals has stay as they are. -/
theorem localOf?_declaredAll_of_ne {bindings : List Binding} {name : String}
    (other : ∀ binding ∈ bindings, name ≠ binding.entry.name) (draft : RoutineDraft) :
    (declaredAll bindings draft).localOf? name = draft.localOf? name := by
  induction bindings generalizing draft with
  | nil => rfl
  | cons binding rest step =>
    refine (step (fun later member => other later (List.mem_cons_of_mem _ member)) _).trans ?_
    exact RoutineDraft.localOf?_declared_of_ne (other binding List.mem_cons_self) _ draft

/-- The locals of a routine with more of them, whose names are free and differ. -/
theorem declaredAll_locals {bindings : List Binding} {draft : RoutineDraft}
    (free : ∀ binding ∈ bindings, draft.localOf? binding.entry.name = none)
    (once : (bindings.map fun binding => binding.entry.name).Nodup) :
    (declaredAll bindings draft).locals = draft.locals ++ bindings.map Binding.entry := by
  induction bindings generalizing draft with
  | nil => simp [declaredAll]
  | cons binding rest step =>
    rw [List.map_cons, List.nodup_cons] at once
    have unused := free binding List.mem_cons_self
    have still : ∀ other ∈ rest,
        (draft.declared binding.entry binding.value.source).localOf? other.entry.name = none := by
      intro other member
      have apart : other.entry.name ≠ binding.entry.name := fun same =>
        once.1 (same ▸ List.mem_map_of_mem member)
      rw [RoutineDraft.localOf?_declared_of_ne apart]
      exact free other (List.mem_cons_of_mem _ member)
    show (declaredAll rest _).locals = _
    rw [step still once.2, RoutineDraft.locals_declared unused, List.append_assoc]
    rfl

/-- The commands of a routine with more locals. -/
theorem declaredAll_commands (bindings : List Binding) (draft : RoutineDraft) :
    (declaredAll bindings draft).commands = draft.commands ++ bindings.flatMap fun binding =>
      lineOf (declarationText binding.entry binding.value.source) := by
  induction bindings generalizing draft with
  | nil => simp [declaredAll]
  | cons binding rest step =>
    show (declaredAll rest _).commands = _
    rw [step]
    simp [RoutineDraft.declared]

/-! ## Numbered names -/

namespace Inlining

/-- The name of a numbered local. -/
def nameOf (inlining : Inlining) (number : Nat) : String :=
  inlining.stem ++ "_" ++ toString number

/-- A numbered local. -/
def fresh (inlining : Inlining) (number : Nat) (type : LocalType) : Local :=
  ⟨inlining.nameOf number, type⟩

/-- Different numbers make different names. -/
theorem nameOf_inj {inlining : Inlining} {first second : Nat}
    (same : inlining.nameOf first = inlining.nameOf second) : first = second := by
  unfold nameOf at same
  rw [← String.toList_inj] at same
  simp only [String.toList_append, List.append_assoc, List.append_cancel_left_eq] at same
  have digits : ∀ number : Nat, (toString number).toList = Nat.toDigits 10 number := fun number =>
    String.toList_ofList
  rw [digits, digits] at same
  rw [← Script.valueOf_toDigits first, same, Script.valueOf_toDigits]

/-- None of the numbers from one to another is the number of a local of the routine. -/
def Free (inlining : Inlining) (draft : RoutineDraft) (number limit : Nat) : Prop :=
  ∀ index, number ≤ index → index < limit → draft.localOf? (inlining.nameOf index) = none

/-- The locals are numbered from one number up to another, each number being taken once. -/
structure Numbered (inlining : Inlining) (bindings : List Binding) (number next : Nat) : Prop where
  range : ∀ binding ∈ bindings, ∃ index, number ≤ index ∧ index < next ∧
    binding.entry.name = inlining.nameOf index
  once : (bindings.map fun binding => binding.entry.name).Nodup

/-- No local. -/
theorem Numbered.nil {inlining : Inlining} {number next : Nat} :
    inlining.Numbered [] number next :=
  ⟨by simp, List.nodup_nil⟩

/-- Free numbers stay free when other numbers are taken. -/
theorem Free.declaredAll {inlining : Inlining} {draft : RoutineDraft} {number next limit : Nat}
    {bindings : List Binding} (free : inlining.Free draft number limit)
    (numbered : inlining.Numbered bindings number next) (ordered : number ≤ next) :
    inlining.Free (declaredAll bindings draft) next limit := by
  intro index from_next below
  rw [localOf?_declaredAll_of_ne]
  · exact free index (by omega) below
  · intro binding member same
    obtain ⟨other, -, taken, named⟩ := numbered.range binding member
    have := nameOf_inj (same.trans named)
    omega

/-- Numbered locals are added when their numbers are free. -/
theorem Free.locals_declaredAll {inlining : Inlining} {draft : RoutineDraft}
    {number next limit : Nat} {bindings : List Binding} (free : inlining.Free draft number limit)
    (numbered : inlining.Numbered bindings number next) (room : next ≤ limit) :
    (Generate.declaredAll bindings draft).locals = draft.locals ++ bindings.map Binding.entry := by
  refine declaredAll_locals (fun binding member => ?_) numbered.once
  obtain ⟨index, above, below, named⟩ := numbered.range binding member
  rw [named]
  exact free index above (by omega)

/-- The locals of two neighbouring ranges of numbers. -/
theorem Numbered.append {inlining : Inlining} {first second : List Binding} {number next last : Nat}
    (lower : inlining.Numbered first number next) (upper : inlining.Numbered second next last)
    (ordered : number ≤ next) (also : next ≤ last) :
    inlining.Numbered (first ++ second) number last := by
  refine ⟨fun binding member => ?_, ?_⟩
  · rcases List.mem_append.1 member with left | right
    · obtain ⟨index, above, below, named⟩ := lower.range binding left
      exact ⟨index, above, by omega, named⟩
    · obtain ⟨index, above, below, named⟩ := upper.range binding right
      exact ⟨index, by omega, below, named⟩
  · rw [List.map_append, List.nodup_append]
    refine ⟨lower.once, upper.once, ?_⟩
    rintro name left other right same
    obtain ⟨before, member, rfl⟩ := List.mem_map.1 left
    obtain ⟨behind, also, rfl⟩ := List.mem_map.1 right
    obtain ⟨index, -, below, named⟩ := lower.range before member
    obtain ⟨further, above, -, called⟩ := upper.range behind also
    have := nameOf_inj (named.symm.trans (same.trans called))
    omega

/-- One local. -/
theorem Numbered.single {inlining : Inlining} {type : LocalType} {value : Term} {number : Nat} :
    inlining.Numbered [⟨inlining.fresh number type, value⟩] number (number + 1) := by
  refine ⟨fun binding member => ?_, List.nodup_singleton _⟩
  obtain rfl := List.mem_singleton.1 member
  exact ⟨number, Nat.le_refl _, Nat.lt_succ_self _, rfl⟩

/-- The next local is declared when its number is free. -/
theorem runOn_declare {inlining : Inlining} {draft : RoutineDraft} {number limit : Nat}
    (free : inlining.Free draft number limit) (room : number < limit) (type : LocalType)
    (value : Term) :
    (inlining.declare type value.source number).runOn draft =
      (.ok (inlining.fresh number type, number + 1),
        declaredAll [⟨inlining.fresh number type, value⟩] draft) := by
  have unused : draft.localOf? (inlining.fresh number type).name = none :=
    free number (Nat.le_refl _) room
  exact runOn_bind_ok (Emit.runOn_declare unused value.source)
    fun _ => pure (inlining.fresh number type, number + 1)

/-! ## The rules -/

/-- Making a local boolean: a boolean one is taken as it is, another one is converted. -/
inductive Booleans (inlining : Inlining) : Local → Nat → Local → Nat → List Binding → Prop
  | same {entry : Local} {number : Nat} (boolean : entry.type = .scalar .boolean) :
    Booleans inlining entry number entry number []
  | cast {entry : Local} {number : Nat} (other : entry.type ≠ .scalar .boolean)
    (transparent : entry.type.isOpaque = false) :
    Booleans inlining entry number (inlining.fresh number (.scalar .boolean)) (number + 1)
      [⟨inlining.fresh number (.scalar .boolean), .cast .first (termOf entry)
        (writtenType .boolean)⟩]

/-- How an expression is inlined: the local with its value, the next number and what is declared. -/
inductive Inlines (inlining : Inlining) : Expr → Nat → Local → Nat → List Binding → Prop
  | column {index : Nat} {type : DataType} {number : Nat} {entry : Local}
    (present : inlining.inputs[index]? = some entry) :
    Inlines inlining (.column index type) number entry number []
  | constant {value : Value} {type : DataType} {number : Nat} {localType : LocalType} {term : Term}
    (written : constantTerm? value type = some (localType, term)) :
    Inlines inlining (.constant value type) number (inlining.fresh number localType) (number + 1)
      [⟨inlining.fresh number localType, term⟩]
  | arithmetic {op : ArithmeticOp} {left right : Expr} {type : DataType} {number middle next : Nat}
    {leftLocal rightLocal : Local} {leftBindings rightBindings : List Binding}
    {leftTerm rightTerm : Term} (plain : op.divides = false) (numeric : type.isNumeric = true)
    (first : Inlines inlining left number leftLocal middle leftBindings)
    (second : Inlines inlining right middle rightLocal next rightBindings)
    (leftConverts : convertTerm? leftLocal type = some leftTerm)
    (rightConverts : convertTerm? rightLocal type = some rightTerm) :
    Inlines inlining (.arithmetic op left right type) number
      (inlining.fresh next (.scalar type)) (next + 1)
      (leftBindings ++ rightBindings ++ [⟨inlining.fresh next (.scalar type),
        nullSafeTerm leftLocal rightLocal (.binary .first op.binary leftTerm rightTerm)⟩])
  | comparison {mode : Comparison} {left right : Expr} {common : DataType}
    {number middle next : Nat} {leftLocal rightLocal : Local}
    {leftBindings rightBindings : List Binding} {leftTerm rightTerm : Term}
    (comparable : inlineComparisonType? left.dataType right.dataType = some common)
    (first : Inlines inlining left number leftLocal middle leftBindings)
    (second : Inlines inlining right middle rightLocal next rightBindings)
    (leftConverts : convertTerm? leftLocal common = some leftTerm)
    (rightConverts : convertTerm? rightLocal common = some rightTerm) :
    Inlines inlining (.comparison mode left right) number
      (inlining.fresh next (.scalar .boolean)) (next + 1)
      (leftBindings ++ rightBindings ++ [⟨inlining.fresh next (.scalar .boolean),
        nullSafeTerm leftLocal rightLocal (.binary .first mode.binary leftTerm rightTerm)⟩])
  | logical {left right : Expr} {decisive : Bool} {number : Nat}
    {leftPlain leftLocal rightPlain rightLocal : Local} {leftNext middle rightNext next : Nat}
    {leftBindings leftMore rightBindings rightMore : List Binding}
    (first : Inlines inlining left number leftPlain leftNext leftBindings)
    (leftBoolean : Booleans inlining leftPlain leftNext leftLocal middle leftMore)
    (second : Inlines inlining right middle rightPlain rightNext rightBindings)
    (rightBoolean : Booleans inlining rightPlain rightNext rightLocal next rightMore) :
    Inlines inlining (.logical decisive left right) number
      (inlining.fresh next (.scalar .boolean)) (next + 1)
      ((leftBindings ++ leftMore) ++ (rightBindings ++ rightMore) ++
        [⟨inlining.fresh next (.scalar .boolean), logicalTerm leftLocal rightLocal decisive⟩])
  | not {operand : Expr} {number middle next : Nat} {plain entry : Local}
    {bindings more : List Binding}
    (inner : Inlines inlining operand number plain middle bindings)
    (boolean : Booleans inlining plain middle entry next more) :
    Inlines inlining (.not operand) number (inlining.fresh next (.scalar .boolean)) (next + 1)
      (bindings ++ more ++ [⟨inlining.fresh next (.scalar .boolean), negationTerm entry⟩])
  | isNull {operand : Expr} {number next : Nat} {entry : Local} {bindings : List Binding}
    (inner : Inlines inlining operand number entry next bindings) :
    Inlines inlining (.isNull operand) number (inlining.fresh next (.scalar .boolean)) (next + 1)
      (bindings ++ [⟨inlining.fresh next (.scalar .boolean), equalTerm entry (.null .first)⟩])

/-- A local made boolean takes at most one number. -/
theorem Booleans.numbered {inlining : Inlining} {plain entry : Local} {number next : Nat}
    {bindings : List Binding} (booleans : Booleans inlining plain number entry next bindings) :
    number ≤ next ∧ next ≤ number + 1 ∧ inlining.Numbered bindings number next := by
  cases booleans with
  | same => exact ⟨Nat.le_refl _, Nat.le_succ _, .nil⟩
  | cast => exact ⟨Nat.le_succ _, Nat.le_refl _, .single⟩

/-- The numbers that an inlined expression takes. -/
theorem Inlines.numbered {inlining : Inlining} {expr : Expr} {entry : Local} {number next : Nat}
    {bindings : List Binding} (inlines : Inlines inlining expr number entry next bindings) :
    number ≤ next ∧ next ≤ number + expr.span ∧ inlining.Numbered bindings number next := by
  induction inlines with
  | column => exact ⟨Nat.le_refl _, Nat.le_refl _, .nil⟩
  | constant => exact ⟨Nat.le_succ _, Nat.le_refl _, .single⟩
  | arithmetic plain numeric first second leftConverts rightConverts firstStep secondStep
  | comparison comparable first second leftConverts rightConverts firstStep secondStep =>
    obtain ⟨above, below, lower⟩ := firstStep
    obtain ⟨further, within, upper⟩ := secondStep
    refine ⟨by omega, by simp only [Expr.span]; omega, ?_⟩
    exact (lower.append upper above further).append .single (by omega) (Nat.le_succ _)
  | @logical left right decisive _ _ _ _ _ _ _ _ _ _ _ _ _ first leftBoolean second rightBoolean
      firstStep secondStep =>
    obtain ⟨above, below, lower⟩ := firstStep
    obtain ⟨more, one, leftSingle⟩ := leftBoolean.numbered
    obtain ⟨further, within, upper⟩ := secondStep
    obtain ⟨last, also, rightSingle⟩ := rightBoolean.numbered
    have room : (Expr.logical decisive left right).span = left.span + right.span + 3 := by
      cases decisive <;> rfl
    refine ⟨by omega, by omega, ?_⟩
    have left_side := lower.append leftSingle above more
    have right_side := upper.append rightSingle further last
    exact (left_side.append right_side (by omega) (by omega)).append .single (by omega)
      (Nat.le_succ _)
  | not inner boolean step =>
    obtain ⟨above, below, lower⟩ := step
    obtain ⟨more, one, upper⟩ := boolean.numbered
    refine ⟨by omega, by simp only [Expr.span]; omega, ?_⟩
    exact (lower.append upper above more).append .single (by omega) (Nat.le_succ _)
  | isNull inner step =>
    obtain ⟨above, below, lower⟩ := step
    exact ⟨by omega, by simp only [Expr.span]; omega,
      lower.append .single (by omega) (Nat.le_succ _)⟩

/-! ## Inlining follows the rules -/

/-- Something was not supported. -/
def Refused (error : Error) (_ : RoutineDraft) : Prop :=
  ∃ message, error = .unsupported message

/-- The rules have been followed. -/
def Followed (inlining : Inlining) (expr : Expr) (number : Nat) (draft : RoutineDraft)
    (result : Local × Nat) (changed : RoutineDraft) : Prop :=
  ∃ bindings, Inlines inlining expr number result.1 result.2 bindings ∧
    changed = declaredAll bindings draft

variable {inlining : Inlining} {draft : RoutineDraft} {number limit : Nat}

/-- A local is made boolean by the rules, or refused. -/
theorem toBoolean_drafts (entry : Local) (free : inlining.Free draft number limit)
    (room : number < limit) :
    Drafts (inlining.toBoolean entry number) draft
      (fun result changed => ∃ bindings,
        Booleans inlining entry number result.1 result.2 bindings ∧
          changed = declaredAll bindings draft)
      Refused := by
  unfold Inlining.toBoolean
  by_cases boolean : entry.type = .scalar .boolean
  · rw [if_pos boolean]
    exact .pure ⟨[], .same boolean, rfl⟩
  · rw [if_neg boolean]
    cases transparent : entry.type.isOpaque with
    | true => exact .throw ⟨_, rfl⟩
    | false =>
      exact .of_ok
        (runOn_declare free room (.scalar .boolean)
          (.cast .first (termOf entry) (writtenType .boolean)))
        ⟨_, .cast boolean transparent, rfl⟩

/-- Wherever enough numbers are free, the expression is inlined by the rules, or refused. -/
def Inlinable (inlining : Inlining) (expr : Expr) : Prop :=
  ∀ {draft : RoutineDraft} {number limit : Nat}, inlining.Free draft number limit →
    number + expr.span ≤ limit →
      Drafts (inlining.inline expr number) draft (Followed inlining expr number draft)
        Refused

/-- A part of an expression behind locals that are declared already. -/
theorem Inlinable.behind {expr : Expr} {next : Nat} {bindings : List Binding}
    (inlinable : Inlinable inlining expr) (free : inlining.Free draft number limit)
    (numbered : inlining.Numbered bindings number next) (ordered : number ≤ next)
    (room : next + expr.span ≤ limit) :
    Drafts (inlining.inline expr next) (declaredAll bindings draft)
      (fun result changed => ∃ others, Inlines inlining expr next result.1 result.2 others ∧
        changed = declaredAll (bindings ++ others) draft)
      Refused := by
  refine (inlinable (free.declaredAll numbered ordered) room).imp ?_ fun _ _ refused => refused
  rintro result changed ⟨others, inlines, rfl⟩
  exact ⟨others, inlines, (declaredAll_append ..).symm⟩

/-- The next local behind locals that are declared already. -/
theorem declare_behind {next : Nat} {bindings : List Binding} {text : String}
    {good : Local × Nat → RoutineDraft → Prop} (free : inlining.Free draft number limit)
    (numbered : inlining.Numbered bindings number next) (ordered : number ≤ next)
    (room : next < limit) (type : LocalType) (value : Term) (written : text = value.source)
    (fine : good (inlining.fresh next type, next + 1)
      (declaredAll (bindings ++ [⟨inlining.fresh next type, value⟩]) draft)) :
    Drafts (inlining.declare type text next) (declaredAll bindings draft) good Refused := by
  subst written
  refine .of_ok (runOn_declare (free.declaredAll numbered ordered) room type value) ?_
  rwa [declaredAll_append] at fine

/-- Both operands are inlined and converted to a type, and an operation is declared. -/
theorem Inlinable.operation {left right : Expr} (leftInlines : Inlinable inlining left)
    (rightInlines : Inlinable inlining right) (free : inlining.Free draft number limit)
    (room : number + (left.span + right.span + 1) ≤ limit) (type : DataType) (op : BinaryOp)
    (resultType : LocalType) :
    Drafts
      (inlining.inline left number >>= fun first => inlining.inline right first.2 >>= fun second =>
        liftExcept (joined first.1 second.1 type op.symbol) >>= fun operation =>
          inlining.declare resultType (nullSafe first.1 second.1 operation) second.2) draft
      (fun result changed => ∃ leftLocal middle leftBindings rightLocal next rightBindings leftTerm
          rightTerm, Inlines inlining left number leftLocal middle leftBindings ∧
        Inlines inlining right middle rightLocal next rightBindings ∧
        convertTerm? leftLocal type = some leftTerm ∧
        convertTerm? rightLocal type = some rightTerm ∧
        result = (inlining.fresh next resultType, next + 1) ∧
        changed = declaredAll (leftBindings ++ rightBindings ++ [⟨inlining.fresh next resultType,
          nullSafeTerm leftLocal rightLocal (.binary .first op leftTerm rightTerm)⟩]) draft)
      Refused := by
  refine (leftInlines free (by omega)).bind ?_
  rintro ⟨leftLocal, middle⟩ _ ⟨leftBindings, first, rfl⟩
  obtain ⟨above, below, lower⟩ := first.numbered
  refine (rightInlines.behind free lower above (by omega)).bind ?_
  rintro ⟨rightLocal, next⟩ _ ⟨rightBindings, second, rfl⟩
  obtain ⟨further, within, upper⟩ := second.numbered
  have both := lower.append upper above further
  simp only at *
  cases leftConverts : convertTerm? leftLocal type with
  | none =>
    obtain ⟨message, refused⟩ := joined_error leftLocal rightLocal op.symbol (.inl leftConverts)
    rw [refused]
    exact .throw ⟨message, rfl⟩
  | some leftTerm =>
    cases rightConverts : convertTerm? rightLocal type with
    | none =>
      obtain ⟨message, refused⟩ := joined_error leftLocal rightLocal op.symbol (.inr rightConverts)
      rw [refused]
      exact .throw ⟨message, rfl⟩
    | some rightTerm =>
      rw [joined_eq op leftConverts rightConverts]
      have loose : (Term.binary .first op leftTerm rightTerm).level < 7 := by
        cases op <;> simp [Term.level, BinaryOp.level]
      refine declare_behind free both (by omega) (by omega) resultType _
        (nullSafe_eq leftLocal rightLocal loose) ?_
      exact ⟨_, _, _, _, _, _, _, _, first, second, leftConverts, rightConverts, rfl, rfl⟩

/-- An operand is inlined and made boolean. -/
theorem Inlinable.boolean {expr : Expr} {next : Nat} {bindings : List Binding}
    (inlinable : Inlinable inlining expr) (free : inlining.Free draft number limit)
    (numbered : inlining.Numbered bindings number next) (ordered : number ≤ next)
    (room : next + (expr.span + 1) ≤ limit) :
    Drafts (inlining.inline expr next >>= fun plain => inlining.toBoolean plain.1 plain.2)
      (declaredAll bindings draft)
      (fun result changed => ∃ plain middle others more,
        Inlines inlining expr next plain middle others ∧
        Booleans inlining plain middle result.1 result.2 more ∧
        inlining.Numbered (others ++ more) next result.2 ∧ next ≤ result.2 ∧
        result.2 ≤ next + (expr.span + 1) ∧
        changed = declaredAll (bindings ++ (others ++ more)) draft)
      Refused := by
  refine (inlinable.behind free numbered ordered (by omega)).bind ?_
  rintro ⟨plain, middle⟩ _ ⟨others, inlines, rfl⟩
  obtain ⟨above, below, upper⟩ := inlines.numbered
  have both := numbered.append upper ordered above
  have still := free.declaredAll both (by omega)
  simp only at *
  refine (toBoolean_drafts plain still (by omega)).imp ?_ fun _ _ refused => refused
  rintro ⟨entry, last⟩ _ ⟨more, booleans, rfl⟩
  obtain ⟨further, one, single⟩ := booleans.numbered
  refine ⟨plain, middle, others, more, inlines, booleans, upper.append single above further,
    by simp only; omega, by simp only; omega, ?_⟩
  rw [← declaredAll_append, List.append_assoc]

/-- Both operands of a logical operation are inlined and made boolean, and the operation is
declared. -/
theorem Inlinable.logical {left right : Expr} (leftInlines : Inlinable inlining left)
    (rightInlines : Inlinable inlining right) (free : inlining.Free draft number limit)
    (room : number + (left.span + right.span + 3) ≤ limit) (decisive : Bool)
    (text : Local → Local → String) (written : ∀ leftLocal rightLocal : Local,
      text leftLocal rightLocal = (logicalTerm leftLocal rightLocal decisive).source) :
    Drafts
      ((inlining.inline left number >>= fun plain => inlining.toBoolean plain.1 plain.2) >>=
        fun first => (inlining.inline right first.2 >>= fun plain =>
          inlining.toBoolean plain.1 plain.2) >>= fun second =>
            inlining.declare (.scalar .boolean) (text first.1 second.1) second.2) draft
      (Followed inlining (.logical decisive left right) number draft) Refused := by
  have none : inlining.Numbered [] number number := .nil
  refine (leftInlines.boolean free none (Nat.le_refl _) (by omega)).bind ?_
  rintro ⟨leftLocal, middle⟩ _ ⟨leftPlain, leftNext, leftBindings, leftMore, first, leftBoolean,
    lower, above, below, rfl⟩
  simp only at *
  refine (rightInlines.boolean free lower above (by omega)).bind ?_
  rintro ⟨rightLocal, next⟩ _ ⟨rightPlain, rightNext, rightBindings, rightMore, second,
    rightBoolean, upper, further, within, rfl⟩
  simp only at *
  refine declare_behind free (lower.append upper above further) (by omega) (by omega) _ _
    (written leftLocal rightLocal) ?_
  exact ⟨_, .logical first leftBoolean second rightBoolean, rfl⟩

namespace Inlinable

variable {left right operand : Expr}

/-- A column is an input. -/
theorem column (index : Nat) (type : DataType) : Inlinable inlining (.column index type) := by
  intro draft number limit free room
  rw [Inlining.inline]
  cases present : inlining.inputs[index]? with
  | none => exact .throw ⟨_, rfl⟩
  | some entry => exact .pure ⟨[], .column present, rfl⟩

/-- A constant with a literal is declared. -/
theorem constant (value : Value) (type : DataType) : Inlinable inlining (.constant value type) := by
  intro draft number limit free room
  rw [Inlining.inline]
  cases written : constantTerm? value type with
  | none =>
    obtain ⟨message, refused⟩ := constantLiteral_error written
    rw [refused]
    exact .throw ⟨_, rfl⟩
  | some literal =>
    obtain ⟨localType, term⟩ := literal
    rw [constantLiteral_eq written]
    exact .of_ok (runOn_declare free room localType term) ⟨_, .constant written, rfl⟩

/-- Arithmetic on numbers, unless it divides. -/
theorem arithmetic (op : ArithmeticOp) (leftInlines : Inlinable inlining left)
    (rightInlines : Inlinable inlining right) (type : DataType) :
    Inlinable inlining (.arithmetic op left right type) := by
  intro draft number limit free room
  rw [Inlining.inline]
  cases plain : op.divides with
  | true => exact .throw ⟨_, rfl⟩
  | false =>
    cases numeric : type.isNumeric with
    | false => exact .throw ⟨_, rfl⟩
    | true =>
      have drafts := leftInlines.operation rightInlines free room type op.binary (.scalar type)
      rw [symbol_binary] at drafts
      refine drafts.imp ?_ fun _ _ refused => refused
      rintro _ _ ⟨leftLocal, middle, leftBindings, rightLocal, next, rightBindings, leftTerm,
        rightTerm, first, second, leftConverts, rightConverts, rfl, rfl⟩
      exact ⟨_, .arithmetic plain numeric first second leftConverts rightConverts, rfl⟩

/-- A comparison at a common type. -/
theorem comparison (mode : Comparison) (leftInlines : Inlinable inlining left)
    (rightInlines : Inlinable inlining right) :
    Inlinable inlining (.comparison mode left right) := by
  intro draft number limit free room
  rw [Inlining.inline]
  cases comparable : inlineComparisonType? left.dataType right.dataType with
  | none => exact .throw ⟨_, rfl⟩
  | some common =>
    have drafts := leftInlines.operation rightInlines free room common mode.binary
      (.scalar .boolean)
    rw [symbol_comparison] at drafts
    refine drafts.imp ?_ fun _ _ refused => refused
    rintro _ _ ⟨leftLocal, middle, leftBindings, rightLocal, next, rightBindings, leftTerm,
      rightTerm, first, second, leftConverts, rightConverts, rfl, rfl⟩
    exact ⟨_, .comparison comparable first second leftConverts rightConverts, rfl⟩

/-- Both conditions. -/
theorem and (leftInlines : Inlinable inlining left) (rightInlines : Inlinable inlining right) :
    Inlinable inlining (.and left right) := by
  intro draft number limit free room
  have drafts := leftInlines.logical rightInlines free room false
    (fun leftLocal rightLocal => Generate.logical leftLocal.name rightLocal.name "false" "true")
    fun leftLocal rightLocal => logical_eq leftLocal rightLocal false
  simp only [bind_assoc] at drafts
  rw [Inlining.inline]
  exact drafts

/-- One of two conditions. -/
theorem or (leftInlines : Inlinable inlining left) (rightInlines : Inlinable inlining right) :
    Inlinable inlining (.or left right) := by
  intro draft number limit free room
  have drafts := leftInlines.logical rightInlines free room true
    (fun leftLocal rightLocal => Generate.logical leftLocal.name rightLocal.name "true" "false")
    fun leftLocal rightLocal => logical_eq leftLocal rightLocal true
  simp only [bind_assoc] at drafts
  rw [Inlining.inline]
  exact drafts

/-- A negation of what is made boolean. -/
theorem not (inlines : Inlinable inlining operand) : Inlinable inlining (.not operand) := by
  intro draft number limit free room
  simp only [Expr.span] at room
  have none : inlining.Numbered [] number number := .nil
  have drafts : Drafts
      ((inlining.inline operand number >>= fun plain => inlining.toBoolean plain.1 plain.2) >>=
        fun result => inlining.declare (.scalar .boolean)
          ("(" ++ result.1.name ++ " == null) ? null : !" ++ result.1.name) result.2) draft
      (Followed inlining (.not operand) number draft) Refused := by
    refine (inlines.boolean free none (Nat.le_refl _) (by omega)).bind ?_
    rintro ⟨entry, next⟩ _ ⟨plain, middle, bindings, more, inner, boolean, numbered,
      above, below, rfl⟩
    simp only at *
    refine declare_behind free numbered above (by omega) _ _ (negation_eq entry) ?_
    exact ⟨_, .not inner boolean, rfl⟩
  simp only [bind_assoc] at drafts
  rw [Inlining.inline]
  exact drafts

/-- A test for null. -/
theorem isNull (inlines : Inlinable inlining operand) : Inlinable inlining (.isNull operand) := by
  intro draft number limit free room
  simp only [Expr.span] at room
  rw [Inlining.inline]
  refine (inlines free (by omega)).bind ?_
  rintro ⟨entry, next⟩ _ ⟨bindings, inner, rfl⟩
  obtain ⟨above, below, numbered⟩ := inner.numbered
  refine declare_behind free numbered above (by simp only; omega) _ _ (nullTest_eq entry) ?_
  exact ⟨_, .isNull inner, rfl⟩

end Inlinable

/-- Every expression is inlined by the rules, or refused. -/
theorem inlinable (inlining : Inlining) (expr : Expr) : Inlinable inlining expr := by
  induction expr with
  | column index type => exact Inlinable.column index type
  | constant value type => exact Inlinable.constant value type
  | arithmetic op left right type leftStep rightStep => exact leftStep.arithmetic op rightStep type
  | comparison mode left right leftStep rightStep => exact leftStep.comparison mode rightStep
  | and left right leftStep rightStep => exact leftStep.and rightStep
  | or left right leftStep rightStep => exact leftStep.or rightStep
  | not operand step => exact step.not
  | isNull operand step => exact step.isNull
  | cast operand type | abs operand =>
    intro draft number limit free room
    exact .throw ⟨_, rfl⟩

end Inlining

end Generate

end QueryFusion
