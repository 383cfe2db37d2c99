import QueryFusion.Proofs.Generate.Inlining

/-!
# Static types of expressions

Which local an expression becomes depends on the types of its inputs only. An expression is inlined
exactly when it has a type by the rules, and the local that is handed out has this type; every other
expression becomes a value that is not known further.
-/

namespace QueryFusion.Generate

open Emit
open Script (Term Ty)

/-! ## Types by the form of the expression -/

/-- There is code that converts a local of one type to another type. -/
def convertible (type : LocalType) (target : DataType) : Bool :=
  type == .scalar target || !type.isOpaque

/-- The type of an operation whose operands are converted, if they all can be. -/
def operationType? (target : DataType) (result : LocalType) (operands : List (Option LocalType)) :
    Option LocalType :=
  if operands.all fun operand => operand.any fun type => convertible type target then some result
  else none

/-- The type of the local that an expression is inlined as, if it can be inlined. -/
def inlineType? (inputs : List LocalType) : Expr → Option LocalType
  | .column index _ => inputs[index]?
  | .constant value type =>
    match constantLiteral value type with
    | .ok (localType, _) => some localType
    | .error _ => none
  | .arithmetic op left right type =>
    if op.divides || !type.isNumeric then none
    else operationType? type (.scalar type) [inlineType? inputs left, inlineType? inputs right]
  | .comparison _ left right =>
    match inlineComparisonType? left.dataType right.dataType with
    | some common =>
      operationType? common (.scalar .boolean) [inlineType? inputs left, inlineType? inputs right]
    | none => none
  | .and left right | .or left right =>
    operationType? .boolean (.scalar .boolean) [inlineType? inputs left, inlineType? inputs right]
  | .not operand => operationType? .boolean (.scalar .boolean) [inlineType? inputs operand]
  | .isNull operand => (inlineType? inputs operand).map fun _ => .scalar .boolean
  | .cast .. | .abs _ => none

/-- The type of the local that an expression becomes: what the engine evaluates is just a value. -/
def exprType (inputs : List LocalType) (expr : Expr) : LocalType :=
  (inlineType? inputs expr).getD .value

/-! ## The rules give the types -/

/-- A local is converted when its type can be. -/
theorem convertTerm?_isSome (entry : Local) (target : DataType) :
    (convertTerm? entry target).isSome = convertible entry.type target := by
  unfold convertTerm? convertible
  by_cases same : entry.type = .scalar target
  · simp [same]
  · cases closed : entry.type.isOpaque <;> simp [same]

/-- The type of an operation with an operand. -/
theorem operationType?_one {target : DataType} {result found : LocalType}
    {operand : Option LocalType} :
    operationType? target result [operand] = some found ↔
      ∃ type, operand = some type ∧ convertible type target = true ∧ result = found := by
  unfold operationType?
  cases operand with
  | none => simp
  | some type => simp

/-- The type of an operation with two operands. -/
theorem operationType?_two {target : DataType} {result found : LocalType}
    {left right : Option LocalType} :
    operationType? target result [left, right] = some found ↔
      ∃ leftType rightType, left = some leftType ∧ right = some rightType ∧
        convertible leftType target = true ∧ convertible rightType target = true ∧
          result = found := by
  unfold operationType?
  cases left with
  | none => simp
  | some leftType =>
    cases right with
    | none => simp
    | some rightType => simp [and_assoc]

/-- The type of the local of a constant. -/
theorem inlineType?_constant {inputs : List LocalType} {value : Value} {type : DataType}
    {found : LocalType} : inlineType? inputs (.constant value type) = some found ↔
      ∃ term, constantTerm? value type = some (found, term) := by
  rw [inlineType?]
  cases written : constantTerm? value type with
  | none =>
    obtain ⟨message, refused⟩ := constantLiteral_error written
    rw [refused]
    simp
  | some literal =>
    obtain ⟨localType, term⟩ := literal
    rw [constantLiteral_eq written]
    simp

namespace Inlining

variable {inlining : Inlining} {expr : Expr} {entry : Local} {number next : Nat}
  {bindings : List Binding}

/-- The types of the inputs. -/
def inputTypes (inlining : Inlining) : List LocalType :=
  inlining.inputs.map Local.type

/-- What is made boolean can be converted. -/
theorem Booleans.convertible {plain : Local}
    (booleans : Booleans inlining plain number entry next bindings) :
    convertible plain.type .boolean = true := by
  cases booleans with
  | same boolean => simp [Generate.convertible, boolean]
  | cast other transparent => simp [Generate.convertible, transparent]

/-- What can be converted is made boolean. -/
theorem booleans_of_convertible {plain : Local} (number : Nat)
    (converts : Generate.convertible plain.type .boolean = true) :
    ∃ entry next bindings, Booleans inlining plain number entry next bindings := by
  by_cases boolean : plain.type = .scalar .boolean
  · exact ⟨_, _, _, .same boolean⟩
  · have transparent : plain.type.isOpaque = false := by
      simpa [Generate.convertible, boolean] using converts
    exact ⟨_, _, _, .cast boolean transparent⟩

/-- Whatever is inlined has the type of its local. -/
theorem Inlines.type_eq (inlines : Inlines inlining expr number entry next bindings) :
    inlineType? inlining.inputTypes expr = some entry.type := by
  induction inlines with
  | column present =>
    rw [inlineType?, inputTypes, List.getElem?_map, present]
    rfl
  | constant written => exact inlineType?_constant.2 ⟨_, written⟩
  | arithmetic plain numeric first second leftConverts rightConverts firstStep secondStep =>
    rw [inlineType?, plain, numeric]
    refine operationType?_two.2 ⟨_, _, firstStep, secondStep, ?_, ?_, rfl⟩
    · rw [← convertTerm?_isSome, leftConverts, Option.isSome_some]
    · rw [← convertTerm?_isSome, rightConverts, Option.isSome_some]
  | comparison comparable first second leftConverts rightConverts firstStep secondStep =>
    rw [inlineType?, comparable]
    refine operationType?_two.2 ⟨_, _, firstStep, secondStep, ?_, ?_, rfl⟩
    · rw [← convertTerm?_isSome, leftConverts, Option.isSome_some]
    · rw [← convertTerm?_isSome, rightConverts, Option.isSome_some]
  | @logical left right decisive _ _ _ _ _ _ _ _ _ _ _ _ _ first leftBoolean second rightBoolean
      firstStep secondStep =>
    cases decisive <;> exact operationType?_two.2 ⟨_, _, firstStep, secondStep,
      leftBoolean.convertible, rightBoolean.convertible, rfl⟩
  | not inner boolean step => exact operationType?_one.2 ⟨_, step, boolean.convertible, rfl⟩
  | isNull inner step =>
    rw [inlineType?, step]
    rfl

/-- What is inlined is converted when its type can be. -/
theorem Inlines.exists_convertTerm? {source : LocalType} {target : DataType}
    (inlines : Inlines inlining expr number entry next bindings)
    (known : inlineType? inlining.inputTypes expr = some source)
    (converts : Generate.convertible source target = true) :
    ∃ term, convertTerm? entry target = some term := by
  rw [inlines.type_eq, Option.some.injEq] at known
  rw [← known, ← convertTerm?_isSome, Option.isSome_iff_exists] at converts
  exact converts

/-- What is inlined is made boolean when its type can be. -/
theorem Inlines.exists_booleans {source : LocalType}
    (inlines : Inlines inlining expr number entry next bindings)
    (known : inlineType? inlining.inputTypes expr = some source)
    (converts : Generate.convertible source .boolean = true) :
    ∃ made last more, Booleans inlining entry next made last more := by
  rw [inlines.type_eq, Option.some.injEq] at known
  exact booleans_of_convertible next (known ▸ converts)

/-- The expression is inlined when it has a type by its form. -/
def Typable (inlining : Inlining) (expr : Expr) : Prop :=
  ∀ {type : LocalType}, inlineType? inlining.inputTypes expr = some type → ∀ number,
    ∃ entry next bindings, Inlines inlining expr number entry next bindings

/-- Two operands that can be inlined and converted are inlined one after the other. -/
theorem Typable.operands {left right : Expr} (leftStep : Typable inlining left)
    (rightStep : Typable inlining right) {target : DataType} {result found : LocalType}
    (typed : operationType? target result [inlineType? inlining.inputTypes left,
      inlineType? inlining.inputTypes right] = some found) (number : Nat) :
    ∃ leftLocal middle first rightLocal next second leftTerm rightTerm,
      Inlines inlining left number leftLocal middle first ∧
      Inlines inlining right middle rightLocal next second ∧
      convertTerm? leftLocal target = some leftTerm ∧
      convertTerm? rightLocal target = some rightTerm := by
  obtain ⟨leftType, rightType, leftTyped, rightTyped, leftConverts, rightConverts, -⟩ :=
    operationType?_two.1 typed
  obtain ⟨leftLocal, middle, first, leftInlines⟩ := leftStep leftTyped number
  obtain ⟨rightLocal, next, second, rightInlines⟩ := rightStep rightTyped middle
  obtain ⟨leftTerm, leftFound⟩ := leftInlines.exists_convertTerm? leftTyped leftConverts
  obtain ⟨rightTerm, rightFound⟩ := rightInlines.exists_convertTerm? rightTyped rightConverts
  exact ⟨_, _, _, _, _, _, _, _, leftInlines, rightInlines, leftFound, rightFound⟩

/-- A logical operation on operands that can be inlined. -/
theorem Typable.logical {left right : Expr} (leftStep : Typable inlining left)
    (rightStep : Typable inlining right) (decisive : Bool) {type : LocalType}
    (typed : operationType? .boolean (.scalar .boolean) [inlineType? inlining.inputTypes left,
      inlineType? inlining.inputTypes right] = some type) (number : Nat) :
    ∃ entry next bindings,
      Inlines inlining (.logical decisive left right) number entry next bindings := by
  obtain ⟨leftType, rightType, leftTyped, rightTyped, leftConverts, rightConverts, -⟩ :=
    operationType?_two.1 typed
  obtain ⟨plain, middle, first, leftInlines⟩ := leftStep leftTyped number
  obtain ⟨entry, behind, more, leftBoolean⟩ := leftInlines.exists_booleans leftTyped leftConverts
  obtain ⟨other, last, second, rightInlines⟩ := rightStep rightTyped behind
  obtain ⟨made, next, others, rightBoolean⟩ := rightInlines.exists_booleans rightTyped rightConverts
  exact ⟨_, _, _, .logical leftInlines leftBoolean rightInlines rightBoolean⟩

/-- Whatever has a type by its form is inlined. -/
theorem typable (inlining : Inlining) (expr : Expr) : Typable inlining expr := by
  induction expr with
  | column index source =>
    intro type typed number
    rw [inlineType?, inputTypes, List.getElem?_map, Option.map_eq_some_iff] at typed
    obtain ⟨entry, present, -⟩ := typed
    exact ⟨_, _, _, .column present⟩
  | constant value source =>
    intro type typed number
    obtain ⟨term, written⟩ := inlineType?_constant.1 typed
    exact ⟨_, _, _, .constant written⟩
  | arithmetic op left right result leftStep rightStep =>
    intro type typed number
    rw [inlineType?] at typed
    split at typed
    · cases typed
    rename_i allowed
    obtain ⟨plain, numeric⟩ : op.divides = false ∧ result.isNumeric = true := by
      simpa using allowed
    obtain ⟨_, _, _, _, _, _, _, _, leftInlines, rightInlines, leftFound, rightFound⟩ :=
      leftStep.operands rightStep typed number
    exact ⟨_, _, _, .arithmetic plain numeric leftInlines rightInlines leftFound rightFound⟩
  | comparison mode left right leftStep rightStep =>
    intro type typed number
    rw [inlineType?] at typed
    split at typed
    · rename_i common comparable
      obtain ⟨_, _, _, _, _, _, _, _, leftInlines, rightInlines, leftFound, rightFound⟩ :=
        leftStep.operands rightStep typed number
      exact ⟨_, _, _, .comparison comparable leftInlines rightInlines leftFound rightFound⟩
    · cases typed
  | and left right leftStep rightStep =>
    intro type typed number
    exact leftStep.logical rightStep false typed number
  | or left right leftStep rightStep =>
    intro type typed number
    exact leftStep.logical rightStep true typed number
  | not operand step =>
    intro type typed number
    obtain ⟨source, known, converts, -⟩ := operationType?_one.1 typed
    obtain ⟨plain, middle, bindings, inlines⟩ := step known number
    obtain ⟨made, next, more, booleans⟩ := inlines.exists_booleans known converts
    exact ⟨_, _, _, .not inlines booleans⟩
  | isNull operand step =>
    intro type typed number
    rw [inlineType?, Option.map_eq_some_iff] at typed
    obtain ⟨source, known, -⟩ := typed
    obtain ⟨plain, next, bindings, inlines⟩ := step known number
    exact ⟨_, _, _, .isNull inlines⟩
  | cast operand target | abs operand =>
    intro type typed
    cases typed

/-! ## What has a type is written -/

variable {draft : RoutineDraft} {limit : Nat}

/-- A local is made boolean as the rules say. -/
theorem Booleans.run {plain : Local} (booleans : Booleans inlining plain number entry next bindings)
    (free : inlining.Free draft number limit) (room : next ≤ limit) :
    (inlining.toBoolean plain number).runOn draft =
    (.ok (entry, next), declaredAll bindings draft) := by
  unfold Inlining.toBoolean
  cases booleans with
  | same boolean =>
    rw [if_pos boolean]
    rfl
  | cast other transparent =>
    rw [if_neg other, transparent]
    exact runOn_declare free room (.scalar .boolean)
      (.cast .first (termOf plain) (writtenType .boolean))

/-- One more local is declared behind others. -/
theorem run_declare {text : String} (free : inlining.Free draft number limit)
    (numbered : inlining.Numbered bindings number next) (ordered : number ≤ next)
    (room : next < limit) (type : LocalType) (value : Term) (written : text = value.source) :
    (inlining.declare type text next).runOn (declaredAll bindings draft) =
      (.ok (inlining.fresh next type, next + 1),
        declaredAll (bindings ++ [⟨inlining.fresh next type, value⟩]) draft) := by
  rw [written, declaredAll_append]
  exact runOn_declare (free.declaredAll numbered ordered) room type value

/-- What the rules allow is written. -/
theorem Inlines.run (inlines : Inlines inlining expr number entry next bindings)
    (free : inlining.Free draft number limit) (room : next ≤ limit) :
    (inlining.inline expr number).runOn draft =
    (.ok (entry, next), declaredAll bindings draft) := by
  induction inlines generalizing draft with
  | column present =>
    rw [Inlining.inline, present]
    rfl
  | @constant value type _ localType term written =>
    rw [Inlining.inline, constantLiteral_eq written]
    exact runOn_declare free room localType term
  | @arithmetic op left right type _ _ _ _ _ _ _ _ _ plain numeric first second leftConverts
      rightConverts firstStep secondStep =>
    obtain ⟨above, -, lower⟩ := first.numbered
    obtain ⟨further, -, upper⟩ := second.numbered
    have loose : ∀ leftTerm rightTerm,
        (Term.binary .first op.binary leftTerm rightTerm).level < 7 := by
      intro leftTerm rightTerm
      cases op <;> simp [Term.level, ArithmeticOp.binary, Script.BinaryOp.level]
    rw [Inlining.inline, plain, numeric]
    refine (runOn_bind_ok (firstStep free (by omega)) _).trans ?_
    refine (runOn_bind_ok (secondStep (free.declaredAll lower above) (by omega)) _).trans ?_
    rw [← declaredAll_append, ← symbol_binary]
    dsimp only
    rw [joined_eq op.binary leftConverts rightConverts]
    exact run_declare free (lower.append upper above further) (by omega) room _ _
      (nullSafe_eq _ _ (loose _ _))
  | @comparison mode left right common _ _ _ _ _ _ _ _ _ comparable first second leftConverts
      rightConverts firstStep secondStep =>
    obtain ⟨above, -, lower⟩ := first.numbered
    obtain ⟨further, -, upper⟩ := second.numbered
    have loose : ∀ leftTerm rightTerm,
        (Term.binary .first mode.binary leftTerm rightTerm).level < 7 := by
      intro leftTerm rightTerm
      cases mode <;> simp [Term.level, Comparison.binary, Script.BinaryOp.level]
    rw [Inlining.inline, comparable]
    refine (runOn_bind_ok (firstStep free (by omega)) _).trans ?_
    refine (runOn_bind_ok (secondStep (free.declaredAll lower above) (by omega)) _).trans ?_
    rw [← declaredAll_append, ← symbol_comparison]
    dsimp only
    rw [joined_eq mode.binary leftConverts rightConverts]
    exact run_declare free (lower.append upper above further) (by omega) room _ _
      (nullSafe_eq _ _ (loose _ _))
  | @logical left right decisive _ _ leftLocal _ rightLocal _ _ _ _ _ _ _ _ first leftBoolean second
      rightBoolean firstStep secondStep =>
    obtain ⟨above, -, lower⟩ := first.numbered
    obtain ⟨more, -, leftSingle⟩ := leftBoolean.numbered
    obtain ⟨further, -, upper⟩ := second.numbered
    obtain ⟨last, -, rightSingle⟩ := rightBoolean.numbered
    have leftNumbered := lower.append leftSingle above more
    have rightNumbered := upper.append rightSingle further last
    have start := firstStep free (by omega)
    have made := leftBoolean.run (free.declaredAll lower above) (by omega)
    have middleFree := free.declaredAll leftNumbered (by omega)
    rw [declaredAll_append] at middleFree
    have behind := secondStep middleFree (by omega)
    have also := rightBoolean.run (middleFree.declaredAll upper further) (by omega)
    simp only [← declaredAll_append] at made behind also
    have whole := run_declare free (leftNumbered.append rightNumbered (by omega) (by omega))
      (by omega) room (.scalar .boolean) _ (logical_eq leftLocal rightLocal decisive)
    simp only [← List.append_assoc] at made behind also whole ⊢
    cases decisive with
    | false | true =>
      simp only [Expr.logical, if_true, Bool.false_eq_true, if_false]
      rw [Inlining.inline]
      refine (runOn_bind_ok start _).trans ?_
      refine (runOn_bind_ok made _).trans ?_
      refine (runOn_bind_ok behind _).trans ?_
      exact (runOn_bind_ok also _).trans whole
  | not inner boolean step =>
    obtain ⟨above, -, lower⟩ := inner.numbered
    obtain ⟨more, -, upper⟩ := boolean.numbered
    rw [Inlining.inline]
    refine (runOn_bind_ok (step free (by omega)) _).trans ?_
    refine (runOn_bind_ok (boolean.run (free.declaredAll lower above) (by omega)) _).trans ?_
    rw [← declaredAll_append]
    exact run_declare free (lower.append upper above more) (by omega) room _ _ (negation_eq _)
  | isNull inner step =>
    obtain ⟨above, -, lower⟩ := inner.numbered
    rw [Inlining.inline]
    refine (runOn_bind_ok (step free (by omega)) _).trans ?_
    exact run_declare free lower above room _ _ (nullTest_eq _)

end Inlining

end QueryFusion.Generate
