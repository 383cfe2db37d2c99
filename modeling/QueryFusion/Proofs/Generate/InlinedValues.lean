import QueryFusion.Proofs.Generate.InlinedTypes

/-!
# Values of inlined expressions

The declarations that stand for an expression compute its value: behind them the local that was
handed out holds what the expression gives on the row of the inputs, or the declarations fail with
the same error. Each form of an expression is evaluated by the tree of its declaration, operands
first, in the order of the expression itself.
-/

namespace QueryFusion

/-- The truth value of an operand is read off its conversion to a boolean. -/
theorem Value.convert_boolean (value : Value) :
    DataType.boolean.convert value = value.truth.map Truth.toValue := by
  cases value <;> rfl

/-- Null or a truth value is the value of a truth value. -/
theorem Truth.exists_toValue {value : Value} (typed : value = .null ∨ value.dataType = .boolean) :
    ∃ truth : Truth, value = truth.toValue := by
  rcases typed with rfl | typed
  · exact ⟨none, rfl⟩
  · cases value with
    | boolean truth => exact ⟨some truth, rfl⟩
    | _ => cases typed

/-- A logical operation on truth values. -/
def Truth.logical (decisive : Bool) : Truth → Truth → Truth :=
  if decisive then Truth.or else Truth.and

/-- The common type of an inlined comparison is that of the comparison. -/
theorem Generate.comparisonType?_of_inline {left right common : DataType}
    (found : inlineComparisonType? left right = some common) :
    DataType.comparisonType? left right = some common := by
  unfold inlineComparisonType? at found
  split at found
  · cases found
  · cases found
  · cases found
  · rename_i same
    cases found
    exact same

namespace Script

variable {α β : Type}

/-- Effects that leave the memory alone, one behind the other. -/
theorem Effect.bind_unchanged {first : Effect α} {next : α → Effect β} {memory : Memory}
    {outcome : Except Error α} {last : α → Except Error β} (head : first memory = (outcome, memory))
    (tail : ∀ result, outcome = .ok result → next result memory = (last result, memory)) :
    (first >>= next) memory = (outcome >>= last, memory) := by
  cases outcome with
  | error error => exact Effect.bind_apply_error head next
  | ok result =>
    rw [Effect.bind_apply_ok head next]
    exact tail result rfl

/-- The expression has the outcome, and leaves the memory alone. -/
def Denotes (unit : CompiledUnit) (memory : Memory) (env : Env) (term : Term)
    (outcome : Except Error Slot) : Prop :=
  evalTerm unit env term memory = (outcome, memory)

namespace Denotes

variable {unit : CompiledUnit} {memory : Memory} {env : Env} {position : Position}

/-- Null. -/
theorem null : Denotes unit memory env (.null position) (.ok (.value .null)) :=
  rfl

/-- A truth value. -/
theorem boolean (truth : Bool) :
    Denotes unit memory env (.boolean position truth) (.ok (.truth truth)) :=
  rfl

/-- A literal. -/
theorem literal {term : Term} {slot : Slot} {type : Ty}
    (known : literal? term = some (slot, type)) :
    Denotes unit memory env term (.ok slot) := by
  unfold literal? at known
  split at known <;> cases known
  all_goals rfl

/-- A local. -/
theorem name {word : String} {slot : Slot} (found : env.content? word = some slot) :
    Denotes unit memory env (.name position word) (.ok slot) := by
  unfold Denotes
  rw [evalTerm, found]
  rfl

/-- An operator that is not logical. -/
theorem binary {op : BinaryOp} {left right : Term} {first second : Except Error Slot}
    (plain : op ≠ .and ∧ op ≠ .or) (leftPart : Denotes unit memory env left first)
    (rightPart : Denotes unit memory env right second) :
    Denotes unit memory env (.binary position op left right)
      (first >>= fun leftSlot => second >>= fun rightSlot => op.apply leftSlot rightSlot) := by
  have unfolded : evalTerm unit env (.binary position op left right) =
      (evalTerm unit env left >>= fun leftSlot => evalTerm unit env right >>= fun rightSlot =>
        Effect.ofExcept (op.apply leftSlot rightSlot)) := by
    cases op <;> first | rfl | simp at plain
  unfold Denotes
  rw [unfolded]
  exact Effect.bind_unchanged leftPart fun leftSlot _ =>
    Effect.bind_unchanged rightPart fun rightSlot _ => rfl

/-- A disjunction of truth values. -/
theorem or {left right : Term} {first second : Bool}
    (leftPart : Denotes unit memory env left (.ok (.truth first)))
    (rightPart : Denotes unit memory env right (.ok (.truth second))) :
    Denotes unit memory env (.binary position .or left right) (.ok (.truth (first || second))) := by
  unfold Denotes
  rw [evalTerm, Effect.bind_apply_ok leftPart]
  cases first with
  | true => rfl
  | false => exact rightPart

/-- The negation of a truth value. -/
theorem not {operand : Term} {truth : Bool}
    (part : Denotes unit memory env operand (.ok (.truth truth))) :
    Denotes unit memory env (.not position operand) (.ok (.truth !truth)) := by
  unfold Denotes
  rw [evalTerm, Effect.bind_apply_ok part]
  rfl

/-- A choice by a truth value. -/
theorem conditional {condition thenValue elseValue : Term} {truth : Bool}
    {outcome : Except Error Slot} (test : Denotes unit memory env condition (.ok (.truth truth)))
    (chosen : Denotes unit memory env (if truth then thenValue else elseValue) outcome) :
    Denotes unit memory env (.conditional position condition thenValue elseValue) outcome := by
  unfold Denotes
  rw [evalTerm, Effect.bind_apply_ok test]
  cases truth with
  | true => exact chosen
  | false => exact chosen

/-- A cast. -/
theorem cast {operand : Term} {written : TypeName} {target : Ty} {inner : Except Error Slot}
    (part : Denotes unit memory env operand inner)
    (named : Ty.resolve? written.name written.argument = some target) :
    Denotes unit memory env (.cast position operand written) (inner >>= castSlot target) := by
  unfold Denotes
  rw [evalTerm]
  refine Effect.bind_unchanged part fun slot _ => ?_
  rw [named]
  rfl

end Denotes

/-- Statements behind others are executed when those fall through. -/
theorem execStmts_append (unit : CompiledUnit) (fuel : Nat) (first second : List Stmt) (env : Env)
    (memory : Memory) : execStmts unit fuel (first ++ second) env memory =
      Step.andThen (execStmts unit fuel first env memory) fun (exit, after) changed =>
        match exit with
        | .through => execStmts unit fuel second after changed
        | other => some (.ok (other, after), changed) := by
  induction first generalizing env memory with
  | nil => rfl
  | cons statement rest step =>
    rw [List.cons_append]
    simp only [execStmts]
    rcases execStmt unit fuel statement env memory with _ | ⟨_ | ⟨exit, after⟩, changed⟩
    · rfl
    · rfl
    · cases exit with
      | through => exact step after changed
      | proceed | leave | answer slot => rfl

/-- A comparison of two values of one type, neither of them null. -/
theorem apply_comparison {left right : Value} (same : left.dataType = right.dataType)
    (present : left.isNull = false) (mode : Comparison) :
    mode.binary.apply (.value left) (.value right) = (mode.apply left right).map Slot.truth := by
  have equality : Slot.equal (.value left) (.value right) = Comparison.equal.apply left right := by
    cases left <;> cases right <;> first | (cases present; done) | (cases same; done) | rfl
  have unlike : (Comparison.notEqual == Comparison.equal) = false := rfl
  have opposite : Comparison.notEqual.apply left right =
      (Comparison.equal.apply left right).map (!·) := by
    cases left <;> cases right <;> first | (cases present; done) | (cases same; done) | skip
    all_goals simp [Comparison.apply, Value.order?, Comparison.isEquality, Except.map,
      Comparison.holds_notEqual, unlike]
  cases mode with
  | equal =>
    show matchSlots true _ _ = _
    rw [matchSlots, equality]
    cases Comparison.equal.apply left right <;> simp [Except.map]
  | notEqual =>
    show matchSlots false _ _ = _
    rw [matchSlots, equality, opposite]
    cases Comparison.equal.apply left right <;> simp [Except.map]
  | less | lessOrEqual | greater | greaterOrEqual =>
    show orderSlots _ _ _ = _
    unfold orderSlots
    simp only [Slot.toValue, ok_bind]
    cases Comparison.apply _ left right <;> rfl

end Script

namespace Emit

/-- Null, or a value of the type of a local. -/
def LocalType.Holds : LocalType → Value → Prop
  | _, .null => True
  | .scalar .null, _ => True
  | .scalar type, content => content.dataType = type
  | .value, _ => True
  | .object className, .object _ actual _ => actual = className
  | .object _, _ => False
  | .row, _ => False

/-- A local holds what may be stored under its type. -/
theorem LocalType.holds_iff (type : LocalType) (content : Value) :
    type.Holds content ↔ Script.Slot.Fits 0 (.value content) type.ty := by
  have fits : Script.Slot.Fits 0 (.value content) type.ty ↔
      (Script.valueType content).isAssignableTo type.ty = true :=
    and_iff_left fun number same => by cases same
  rw [fits]
  cases content with
  | null =>
    have stored := Generate.ty_ne_void type
    simp [Holds, Script.valueType, Script.Ty.isAssignableTo_iff, stored]
  | _ =>
    cases type with
    | scalar source =>
      cases source <;> simp [Holds, Value.dataType, Script.valueType, LocalType.ty, scalarTy,
        Script.Ty.isAssignableTo, Script.Ty.isValueType]
    | value | row | object =>
      simp [Holds, Script.valueType, LocalType.ty, Script.Ty.isAssignableTo, Script.Ty.isValueType]

end Emit

namespace Generate

open Emit
open Script (Term BinaryOp Ty Slot Env CompiledUnit Memory Denotes execStmts)

/-! ## Terms -/

/-- The local holds the value, which is null or of the type of the local. -/
structure Carries (env : Env) (entry : Local) (value : Value) : Prop where
  content : env.content? entry.name = some (.value value)
  typed : Slot.Fits 0 (.value value) entry.type.ty

section Terms

variable {unit : CompiledUnit} {memory : Memory} {env : Env} {entry left right : Local}
  {value first second : Value}

/-- A local. -/
theorem Carries.denotes (carries : Carries env entry value) :
    Denotes unit memory env (termOf entry) (.ok (.value value)) :=
  .name carries.content

/-- A null test. -/
theorem Carries.equal_null (carries : Carries env entry value) :
    Denotes unit memory env (equalTerm entry (.null .first)) (.ok (.truth value.isNull)) := by
  have plain : BinaryOp.equal ≠ .and ∧ BinaryOp.equal ≠ .or := by decide
  have tested : Denotes unit memory env (equalTerm entry (.null .first)) _ :=
    .binary plain carries.denotes .null
  have outcome : BinaryOp.equal.apply (.value value) (.value .null) =
      .ok (.truth value.isNull) := by
    show Script.matchSlots true _ _ = _
    rw [Script.matchSlots, Slot.equal_null_right]
    cases value <;> rfl
  exact outcome ▸ tested

/-- A local of boolean type holds a truth value. -/
theorem Carries.exists_truth (carries : Carries env entry value)
    (boolean : entry.type = .scalar .boolean) : ∃ truth : Truth, value = truth.toValue := by
  have fits := carries.typed
  rw [boolean] at fits
  refine Truth.exists_toValue ?_
  rcases fits.scalar (rfl : (LocalType.scalar .boolean).ty.dataType? = some .boolean) with
    null | ⟨content, same, typed⟩
  · exact .inl (Slot.value.inj null)
  · exact .inr (Slot.value.inj same ▸ typed)

/-- The test of a local for a truth value. -/
theorem Carries.equal_boolean {truth : Truth} (carries : Carries env entry truth.toValue)
    (decisive : Bool) :
    Denotes unit memory env (equalTerm entry (.boolean .first decisive))
      (.ok (.truth (truth == some decisive))) := by
  have plain : BinaryOp.equal ≠ .and ∧ BinaryOp.equal ≠ .or := by decide
  have tested : Denotes unit memory env (equalTerm entry (.boolean .first decisive)) _ :=
    .binary plain carries.denotes (.boolean decisive)
  have outcome : BinaryOp.equal.apply (.value truth.toValue) (.truth decisive) =
      .ok (.truth (truth == some decisive)) := by
    rcases truth with _ | _ | _ <;> cases decisive <;> rfl
  exact outcome ▸ tested

/-- An operation that is null when an operand is. -/
theorem Carries.nullSafe {operation : Term} {outcome : Except Error Slot}
    (leftCarries : Carries env left first) (rightCarries : Carries env right second)
    (inner : (first.isNull || second.isNull) = false → Denotes unit memory env operation outcome) :
    Denotes unit memory env (nullSafeTerm left right operation)
      (if first.isNull || second.isNull then .ok (.value .null) else outcome) := by
  refine .conditional (leftCarries.equal_null.or rightCarries.equal_null) ?_
  cases missing : first.isNull || second.isNull with
  | true => exact .null
  | false => exact inner missing

/-- A logical operation. -/
theorem Carries.logical {leftTruth rightTruth : Truth}
    (leftCarries : Carries env left leftTruth.toValue)
    (rightCarries : Carries env right rightTruth.toValue) (decisive : Bool) :
    Denotes unit memory env (logicalTerm left right decisive)
      (.ok (.value (Truth.logical decisive leftTruth rightTruth).toValue)) := by
  have settled : Denotes unit memory env (eitherTerm left right (.boolean .first decisive)) _ :=
    (leftCarries.equal_boolean decisive).or (rightCarries.equal_boolean decisive)
  have missing : Denotes unit memory env (eitherTerm left right (.null .first)) _ :=
    leftCarries.equal_null.or rightCarries.equal_null
  refine .conditional settled ?_
  -- nine pairs of truth values: one side settles it, both leave it open, or both are neutral
  rcases leftTruth with _ | _ | _ <;> rcases rightTruth with _ | _ | _ <;> cases decisive
  all_goals first
    | exact .boolean _
    | exact .conditional missing .null
    | exact .conditional missing (.boolean _)

/-- A negation. -/
theorem Carries.negation {truth : Truth} (carries : Carries env entry truth.toValue) :
    Denotes unit memory env (negationTerm entry) (.ok (.value truth.not.toValue)) := by
  refine .conditional carries.equal_null ?_
  cases truth with
  | none => exact .null
  | some truth => exact carries.denotes.not

/-- A local converted to a scalar type. -/
theorem Carries.converted {target : DataType} {term : Term} (carries : Carries env entry value)
    (scalar : Scalar target)
    (found : convertTerm? entry target = some term) :
    Denotes unit memory env term ((target.convert value).map Slot.value) := by
  unfold convertTerm? at found
  split at found
  · rename_i same
    cases found
    have fits := carries.typed
    rw [same] at fits
    have kept : target.convert value = .ok value := by
      rcases fits.scalar scalar with null | ⟨content, held, typed⟩
      · rw [Slot.value.inj null]
        exact DataType.convert_null target
      · rw [Slot.value.inj held, ← typed]
        exact DataType.convert_dataType content
    rw [kept]
    exact carries.denotes
  · split at found
    · cases found
    · cases found
      have named : Ty.resolve? (writtenType (scalarTy target)).name
          (writtenType (scalarTy target)).argument = some (scalarTy target) := by
        cases target <;> rfl
      have casted : Script.castSlot (scalarTy target) (.value value) =
          (target.convert value).map Slot.value := by
        cases target <;> first | (cases scalar; done) | rfl
      exact casted ▸ carries.denotes.cast named

end Terms

/-! ## Declarations -/

/-- Executing the declarations puts these contents before those of the locals so far. -/
structure Binds (unit : CompiledUnit) (memory : Memory) (env : Env) (bindings : List Binding)
    (added : Env) : Prop where
  runs : ∀ fuel, execStmts unit fuel (bindings.map Binding.statement) env memory =
    some (.ok (.through, added ++ env), memory)
  names : added.map Prod.fst = (bindings.map fun binding => binding.entry.name).reverse

/-- Executing the declarations leads to the outcome: locals of which this holds, or the error. -/
def Establishes {α : Type} (unit : CompiledUnit) (memory : Memory) (env : Env)
    (bindings : List Binding) (outcome : Except Error α) (holds : Env → α → Prop) : Prop :=
  match outcome with
  | .ok result => ∃ added, Binds unit memory env bindings added ∧ holds (added ++ env) result
  | .error error => ∀ fuel,
      execStmts unit fuel (bindings.map Binding.statement) env memory = some (.error error, memory)

/-- Executing the declarations leads to a local that carries the outcome. -/
abbrev Leaves (unit : CompiledUnit) (memory : Memory) (env : Env) (bindings : List Binding)
    (entry : Local) (outcome : Except Error Value) : Prop :=
  Establishes unit memory env bindings outcome fun after value => Carries after entry value

section Declarations

variable {unit : CompiledUnit} {memory : Memory} {env added : Env} {entry : Local} {value : Value}

/-- What is declared under other names does not hide a name. -/
theorem content?_past {bindings : List Binding} {name : String}
    (names : added.map Prod.fst = (bindings.map fun binding => binding.entry.name).reverse)
    (apart : ∀ binding ∈ bindings, binding.entry.name ≠ name) :
    Env.content? (added ++ env) name = env.content? name := by
  have missing : added.find? (fun known => known.1 == name) = none := by
    rw [List.find?_eq_none]
    intro known inside same
    have named : known.1 ∈ added.map Prod.fst := List.mem_map_of_mem inside
    rw [names, List.mem_reverse, List.mem_map] at named
    obtain ⟨binding, member, bound⟩ := named
    exact apart binding member (bound.trans (eq_of_beq same))
  unfold Env.content?
  rw [List.find?_append, missing, Option.none_or]

/-- What is declared under other names leaves a local alone. -/
theorem Carries.past {bindings : List Binding} (carries : Carries env entry value)
    (names : added.map Prod.fst = (bindings.map fun binding => binding.entry.name).reverse)
    (apart : ∀ binding ∈ bindings, binding.entry.name ≠ entry.name) :
    Carries (added ++ env) entry value :=
  ⟨(content?_past names apart).trans carries.content, carries.typed⟩

/-- What is declared under other names leaves locals alone. -/
theorem carries_past {bindings : List Binding} {entries : List Local} {row : Row}
    (carried : List.Forall₂ (Carries env) entries row)
    (names : added.map Prod.fst = (bindings.map fun binding => binding.entry.name).reverse)
    (apart : ∀ entry ∈ entries, ∀ binding ∈ bindings, binding.entry.name ≠ entry.name) :
    List.Forall₂ (Carries (added ++ env)) entries row := by
  induction carried with
  | nil => exact .nil
  | cons head rest step =>
    rw [List.forall_mem_cons] at apart
    exact .cons (head.past names apart.1) (step apart.2)

/-- Declarations behind others. -/
theorem Binds.append {first second : List Binding} {more : Env}
    (head : Binds unit memory env first added)
    (tail : Binds unit memory (added ++ env) second more) :
    Binds unit memory env (first ++ second) (more ++ added) where
  runs := by
    intro fuel
    rw [List.map_append, Script.execStmts_append, head.runs fuel, List.append_assoc]
    exact tail.runs fuel
  names := by
    rw [List.map_append, tail.names, head.names, List.map_append, List.reverse_append]

namespace Establishes

variable {α β : Type} {outcome : Except Error α} {holds : Env → α → Prop}

/-- Nothing is declared. -/
theorem nil {result : α} (held : holds env result) :
    Establishes unit memory env [] (.ok result) holds :=
  ⟨[], ⟨fun _ => rfl, rfl⟩, held⟩

/-- Declarations behind others. -/
theorem bind {first second : List Binding} {next : α → Except Error β} {last : Env → β → Prop}
    (head : Establishes unit memory env first outcome holds)
    (tail : ∀ added result, Binds unit memory env first added → holds (added ++ env) result →
      Establishes unit memory (added ++ env) second (next result) last) :
    Establishes unit memory env (first ++ second) (outcome >>= next) last := by
  have split : ∀ fuel, execStmts unit fuel ((first ++ second).map Binding.statement) env
      memory = Step.andThen (execStmts unit fuel (first.map Binding.statement) env memory)
        fun (exit, after) changed =>
          match exit with
          | .through => execStmts unit fuel (second.map Binding.statement) after changed
          | other => some (.ok (other, after), changed) := by
    intro fuel
    rw [List.map_append]
    exact Script.execStmts_append ..
  cases outcome with
  | error error =>
    intro fuel
    rw [split, head fuel]
    rfl
  | ok result =>
    obtain ⟨added, binds, held⟩ := head
    have rest := tail added result binds held
    show Establishes unit memory env (first ++ second) (next result) last
    cases final : next result with
    | error error =>
      rw [final] at rest
      intro fuel
      rw [split, binds.runs fuel]
      exact rest fuel
    | ok answer =>
      rw [final] at rest
      obtain ⟨more, further, also⟩ := rest
      exact ⟨more ++ added, binds.append further, by rwa [List.append_assoc]⟩

end Establishes

/-- One declaration that succeeds. -/
theorem Binds.declare {name : String} {type : LocalType} {term : Term} {slot : Slot}
    (part : Denotes unit memory env term (.ok slot)) :
    Binds unit memory env [⟨⟨name, type⟩, term⟩] [(name, slot)] := by
  refine ⟨fun fuel => ?_, rfl⟩
  have evaluated : Script.evalTerm unit env term memory = _ := part
  simp only [List.map_cons, List.map_nil, Binding.statement, execStmts, Script.execStmt, evaluated]
  rfl

/-- One declaration. -/
theorem Establishes.declare {name : String} {type : LocalType} {term : Term}
    {outcome : Except Error Value} (part : Denotes unit memory env term (outcome.map Slot.value))
    (typed : ∀ value, outcome = .ok value → Slot.Fits 0 (.value value) type.ty) :
    Leaves unit memory env [⟨⟨name, type⟩, term⟩] ⟨name, type⟩ outcome := by
  cases outcome with
  | error error =>
    intro fuel
    have evaluated : Script.evalTerm unit env term memory = _ := part
    simp only [List.map_cons, Binding.statement, execStmts, Script.execStmt, evaluated]
    rfl
  | ok value =>
    exact ⟨[(name, .value value)], .declare part, by simp [Env.content?], typed value rfl⟩

end Declarations

/-! ## Inlined expressions -/

namespace Inlining

/-- The local has none of the numbers from one to another. -/
def Settled (inlining : Inlining) (entry : Local) (number limit : Nat) : Prop :=
  ∀ index, number ≤ index → index < limit → inlining.nameOf index ≠ entry.name

variable {inlining : Inlining} {unit : CompiledUnit} {memory : Memory} {env added : Env}
  {number next limit : Nat}

/-- Fewer numbers are free later. -/
theorem Settled.later {entry : Local} {middle : Nat} (settled : inlining.Settled entry number limit)
    (ordered : number ≤ middle) : inlining.Settled entry middle limit :=
  fun index above below => settled index (Nat.le_trans ordered above) below

/-- Declarations under free numbers leave a local alone. -/
theorem Settled.apart {entry : Local} {bindings : List Binding}
    (settled : inlining.Settled entry number limit)
    (numbered : inlining.Numbered bindings number next) (room : next ≤ limit) :
    ∀ binding ∈ bindings, binding.entry.name ≠ entry.name := by
  intro binding member same
  obtain ⟨index, above, below, named⟩ := numbered.range binding member
  exact settled index above (by omega) (named.symm.trans same)

/-- A numbered local has no later number. -/
theorem Settled.fresh (type : LocalType) :
    inlining.Settled (inlining.fresh number type) (number + 1) limit := by
  intro index above _ same
  have := nameOf_inj same
  omega

/-- A local made boolean has no later number. -/
theorem Booleans.settled {plain entry : Local} {bindings : List Binding}
    (booleans : Booleans inlining plain number entry next bindings)
    (settled : inlining.Settled plain number limit) : inlining.Settled entry next limit := by
  cases booleans with
  | same => exact settled
  | cast => exact .fresh _

/-- The local of an inlined expression has no later number. -/
theorem Inlines.settled {expr : Expr} {entry : Local} {bindings : List Binding}
    (inlines : Inlines inlining expr number entry next bindings)
    (apart : ∀ input ∈ inlining.inputs, inlining.Settled input number limit) :
    inlining.Settled entry next limit := by
  cases inlines with
  | column present => exact apart _ (List.mem_of_getElem? present)
  | _ => exact .fresh _

/-- The inputs carry the values of a row. -/
abbrev Feeds (inlining : Inlining) (env : Env) (row : Row) : Prop :=
  List.Forall₂ (Carries env) inlining.inputs row

/-- Declarations under free numbers leave the inputs alone. -/
theorem feeds_past {inputs : List Local} {row : Row} {bindings : List Binding}
    (fed : List.Forall₂ (Carries env) inputs row)
    (apart : ∀ input ∈ inputs, inlining.Settled input number limit)
    (numbered : inlining.Numbered bindings number next) (room : next ≤ limit)
    (binds : Binds unit memory env bindings added) :
    List.Forall₂ (Carries (added ++ env)) inputs row :=
  carries_past fed binds.names fun input member => (apart input member).apart numbered room

/-- A value converted to a boolean is its truth value. -/
theorem establishes_truth {name : String} {term : Term} {value : Value}
    (part : Denotes unit memory env term ((DataType.boolean.convert value).map Slot.value)) :
    Establishes unit memory env [⟨⟨name, .scalar .boolean⟩, term⟩] value.truth
      fun after truth => Carries after ⟨name, .scalar .boolean⟩ truth.toValue := by
  rw [Value.convert_boolean] at part
  have left : Leaves unit memory env [⟨⟨name, .scalar .boolean⟩, term⟩] ⟨name, .scalar .boolean⟩
      (value.truth.map Truth.toValue) := by
    refine .declare part fun result done => ?_
    cases known : value.truth with
    | error error => simp [known, Except.map] at done
    | ok truth =>
      obtain rfl : truth.toValue = result := by simpa [known, Except.map] using done
      cases truth <;> exact Slot.fits_scalar 0 rfl (by simp [Truth.toValue, Value.dataType])
  cases known : value.truth with
  | error error =>
    rw [known] at left
    exact left
  | ok truth =>
    rw [known] at left
    exact left

/-- A local made boolean carries the truth value of the local that it was made from. -/
theorem Booleans.establishes {plain entry : Local} {bindings : List Binding} {value : Value}
    (booleans : Booleans inlining plain number entry next bindings)
    (carries : Carries env plain value) :
    Establishes unit memory env bindings value.truth fun after truth =>
      Carries after entry truth.toValue := by
  cases booleans with
  | same boolean =>
    obtain ⟨truth, rfl⟩ := carries.exists_truth boolean
    rw [Truth.truth_toValue]
    exact .nil carries
  | cast other transparent =>
    have scalar : Scalar .boolean := rfl
    have found : convertTerm? plain .boolean =
        some (.cast .first (termOf plain) (writtenType .boolean)) := by
      rw [convertTerm?, if_neg other, if_neg (by simp [transparent])]
      rfl
    exact establishes_truth (carries.converted scalar found)

/-- An operand is inlined and made boolean. -/
theorem Inlines.truth {expr : Expr} {row : Row} {plain entry : Local} {middle : Nat}
    {bindings more : List Binding} (operand : Leaves unit memory env bindings plain (expr.eval row))
    (booleans : Booleans inlining plain middle entry next more) :
    Establishes unit memory env (bindings ++ more) (expr.eval row >>= Value.truth)
      fun after truth => Carries after entry truth.toValue :=
  operand.bind fun _ _ _ carries => booleans.establishes carries

/-- Both operands are inlined, and an operation on them is null when one of them is. -/
theorem leaves_operation {left right : Expr} {row : Row} {leftLocal rightLocal : Local}
    {middle : Nat} {leftBindings rightBindings : List Binding} {operation : Term} {type : DataType}
    {compute : Value → Value → Except Error Value}
    (first : Leaves unit memory env leftBindings leftLocal (left.eval row))
    (second : ∀ added, Binds unit memory env leftBindings added →
      Leaves unit memory (added ++ env) rightBindings rightLocal (right.eval row))
    (settled : inlining.Settled leftLocal middle limit)
    (numbered : inlining.Numbered rightBindings middle next) (room : next ≤ limit)
    (scalar : Scalar type)
    (part : ∀ {env leftValue rightValue}, Carries env leftLocal leftValue →
      Carries env rightLocal rightValue → leftValue.isNull = false → rightValue.isNull = false →
        Denotes unit memory env operation ((compute leftValue rightValue).map Slot.value))
    (typed : ∀ leftValue rightValue result, compute leftValue rightValue = .ok result →
      result = .null ∨ result.dataType = type) :
    Leaves unit memory env (leftBindings ++ rightBindings ++ [⟨inlining.fresh next (.scalar type),
        nullSafeTerm leftLocal rightLocal operation⟩]) (inlining.fresh next (.scalar type))
      (left.eval row >>= fun leftValue => right.eval row >>= fun rightValue =>
        if leftValue.isNull || rightValue.isNull then .ok .null
        else compute leftValue rightValue) := by
  rw [List.append_assoc]
  refine first.bind fun added leftValue binds leftCarries => ?_
  refine (second added binds).bind fun more rightValue further rightCarries => ?_
  have leftKept := leftCarries.past further.names (settled.apart numbered room)
  refine .declare ?_ fun result done => ?_
  · have whole : Denotes unit memory _ (nullSafeTerm leftLocal rightLocal operation) _ :=
      leftKept.nullSafe rightCarries fun present =>
        part leftKept rightCarries (by simp_all) (by simp_all)
    cases missing : leftValue.isNull || rightValue.isNull with
    | true =>
      rw [missing] at whole
      exact whole
    | false =>
      rw [missing] at whole
      exact whole
  · refine Slot.fits_scalar 0 scalar ?_
    split at done
    · exact .inl (Except.ok.inj done).symm
    · exact typed leftValue rightValue result done

/-- An operator on converted operands, neither of them null. -/
theorem denotes_converted {op : BinaryOp} {leftLocal rightLocal : Local} {type : DataType}
    {leftTerm rightTerm : Term} {leftValue rightValue : Value}
    {compute : Value → Value → Except Error Value} (plain : op ≠ .and ∧ op ≠ .or)
    (scalar : Scalar type)
    (leftConverts : convertTerm? leftLocal type = some leftTerm)
    (rightConverts : convertTerm? rightLocal type = some rightTerm)
    (leftCarries : Carries env leftLocal leftValue)
    (rightCarries : Carries env rightLocal rightValue) (applied : ∀ left right,
      type.convert leftValue = .ok left → type.convert rightValue = .ok right →
      op.apply (.value left) (.value right) = (compute left right).map Slot.value) :
    Denotes unit memory env (.binary .first op leftTerm rightTerm)
      ((type.convert leftValue >>= fun left => type.convert rightValue >>= fun right =>
        compute left right).map Slot.value) := by
  have whole : Denotes unit memory env (.binary .first op leftTerm rightTerm) _ :=
    .binary plain (leftCarries.converted scalar leftConverts)
      (rightCarries.converted scalar rightConverts)
  cases first : type.convert leftValue with
  | error error =>
    rw [first] at whole
    exact whole
  | ok left =>
    cases second : type.convert rightValue with
    | error error =>
      rw [first, second] at whole
      exact whole
    | ok right =>
      rw [first, second] at whole
      exact applied left right first second ▸ whole

/-- The type of a converted value that is not null. -/
theorem dataType_of_convert {type : DataType} {value result : Value}
    (done : type.convert value = .ok result) (present : value.isNull = false) :
    result.dataType = type ∧ result.isNull = false := by
  have kept := DataType.isNull_convert done
  rw [present] at kept
  rcases Script.DataType.convert_typed done with rfl | typed
  · cases kept
  · exact ⟨typed, kept⟩

/-- The column of a row is carried by the input of its index. -/
theorem feeds_column {inputs : List Local} {row : Row} {index : Nat} {entry : Local}
    (fed : List.Forall₂ (Carries env) inputs row) (present : inputs[index]? = some entry) :
    ∃ value, row[index]? = some value ∧ Carries env entry value := by
  induction fed generalizing index with
  | nil => cases present
  | @cons input value inputs row head rest step =>
    cases index with
    | zero =>
      cases present
      exact ⟨value, rfl, head⟩
    | succ index => exact step present

/-- The literal of a constant has the value of the constant. -/
theorem constantTerm?_denotes {value : Value} {type : DataType} {localType : LocalType}
    {term : Term} (written : constantTerm? value type = some (localType, term)) :
    Denotes unit memory env term (.ok (.value value)) ∧
      Slot.Fits 0 (.value value) localType.ty := by
  cases value with
  | null =>
    cases written
    exact ⟨.null, Slot.fits_null 0 (ty_ne_void _)⟩
  | boolean truth =>
    cases written
    exact ⟨.boolean truth, Slot.fits_truth 0 truth⟩
  | int number | bigInt number | varchar text =>
    cases written
    exact ⟨.literal rfl, Slot.fits_value 0 _ rfl⟩
  | double number =>
    simp only [constantTerm?] at written
    split at written
    · cases written
      exact ⟨.literal rfl, Slot.fits_value 0 _ rfl⟩
    · cases written
  | object identity className fields => cases written

/-- An arithmetic operator on two values. -/
theorem apply_arithmetic (op : ArithmeticOp) (left right : Value) :
    op.binary.apply (.value left) (.value right) = (op.apply left right).map Slot.value := by
  have computed : Script.computeSlots op (.value left) (.value right) =
      (op.apply left right).map Slot.value := by
    unfold Script.computeSlots
    simp only [Slot.toValue, ok_bind]
    cases op.apply left right <;> rfl
  cases op <;> exact computed

/-- An arithmetic operation on converted operands has their type. -/
theorem dataType_of_arithmetic {op : ArithmeticOp} {type : DataType} {left right result : Value}
    (done : (type.convert left >>= fun first => type.convert right >>= fun second =>
      op.apply first second) = .ok result) : result = .null ∨ result.dataType = type := by
  obtain ⟨first, converted, done⟩ := bind_eq_ok_iff.1 done
  obtain ⟨second, -, done⟩ := bind_eq_ok_iff.1 done
  obtain ⟨same, -⟩ := Script.ArithmeticOp.apply_dataType done
  rcases Script.DataType.convert_typed converted with rfl | typed
  · exact .inl ((Value.dataType_eq_null_iff result).1 same)
  · exact .inr (same.trans typed)

/-- A comparison of converted operands, neither of them null. -/
theorem compare_converted {type : DataType} {leftValue rightValue left right : Value}
    (leftDone : type.convert leftValue = .ok left) (rightDone : type.convert rightValue = .ok right)
    (leftPresent : leftValue.isNull = false) (rightPresent : rightValue.isNull = false)
    (mode : Comparison) : mode.binary.apply (.value left) (.value right) =
      (mode.apply left right >>= fun outcome => .ok (Value.boolean outcome)).map Slot.value := by
  obtain ⟨leftTyped, present⟩ := dataType_of_convert leftDone leftPresent
  obtain ⟨rightTyped, -⟩ := dataType_of_convert rightDone rightPresent
  rw [Script.apply_comparison (leftTyped.trans rightTyped.symm) present]
  cases mode.apply left right <;> rfl

/-- A comparison of converted operands gives a truth value. -/
theorem dataType_of_comparison {mode : Comparison} {type : DataType} {left right result : Value}
    (done : (type.convert left >>= fun first => type.convert right >>= fun second =>
      mode.apply first second >>= fun outcome => .ok (Value.boolean outcome)) = .ok result) :
    result = .null ∨ result.dataType = .boolean := by
  obtain ⟨first, -, done⟩ := bind_eq_ok_iff.1 done
  obtain ⟨second, -, done⟩ := bind_eq_ok_iff.1 done
  obtain ⟨outcome, -, done⟩ := bind_eq_ok_iff.1 done
  exact .inr (Except.ok.inj done ▸ rfl)

/-- A truth value fits the boolean type. -/
theorem fits_truth (truth : Truth) : Slot.Fits 0 (.value truth.toValue) .boolean := by
  cases truth with
  | none => exact Slot.fits_null 0 (by simp)
  | some truth => exact Slot.fits_truth 0 truth

/-- A logical operation evaluates its operands and then joins their truth values. -/
theorem eval_logical (decisive : Bool) (left right : Expr) (row : Row) :
    (Expr.logical decisive left right).eval row =
      ((left.eval row >>= Value.truth) >>= fun leftTruth =>
        (right.eval row >>= Value.truth) >>= fun rightTruth =>
          .ok (Truth.logical decisive leftTruth rightTruth).toValue) := by
  cases decisive <;> simp only [Truth.logical, bind_assoc] <;> rfl

/-- A negation evaluates its operand and then turns its truth value. -/
theorem eval_not (operand : Expr) (row : Row) : (Expr.not operand).eval row =
    ((operand.eval row >>= Value.truth) >>= fun truth => .ok truth.not.toValue) := by
  rw [bind_assoc]
  rfl

/-- Behind the declarations of an inlined expression its local carries the value that the expression
gives on the row of the inputs; where the expression fails, they fail with the same error. -/
theorem Inlines.leaves {expr : Expr} {entry : Local} {bindings : List Binding} {row : Row}
    (inlines : Inlines inlining expr number entry next bindings) (fed : inlining.Feeds env row)
    (apart : ∀ input ∈ inlining.inputs, inlining.Settled input number limit) (room : next ≤ limit) :
    Leaves unit memory env bindings entry (expr.eval row) := by
  induction inlines generalizing env with
  | @column index type number entry present =>
    obtain ⟨value, known, carries⟩ := feeds_column fed present
    have found : (Expr.column index type).eval row = .ok value := by
      simp [Expr.eval, Row.column, known]
    rw [found]
    exact .nil carries
  | constant written =>
    obtain ⟨part, typed⟩ := constantTerm?_denotes written
    exact .declare part fun result done => Except.ok.inj done ▸ typed
  | @arithmetic op left right type _ _ _ _ _ _ _ _ _ plain numeric first second leftConverts
      rightConverts firstStep secondStep =>
    obtain ⟨above, -, lower⟩ := first.numbered
    obtain ⟨further, -, upper⟩ := second.numbered
    have scalar := Scalar.of_isNumeric numeric
    have leaves := leaves_operation (firstStep fed apart (by omega))
      (fun added binds => secondStep (feeds_past fed apart lower (by omega) binds)
        (fun input member => (apart input member).later above) (by omega))
      (first.settled apart) upper (by omega) scalar
      (fun leftCarries rightCarries _ _ => denotes_converted (by cases op <;> decide) scalar
        leftConverts rightConverts leftCarries rightCarries
        fun left right _ _ => apply_arithmetic op left right)
      (fun _ _ _ done => dataType_of_arithmetic done)
    rw [Expr.eval, if_pos numeric]
    exact leaves
  | @comparison mode left right common _ _ _ _ _ _ _ _ _ comparable first second leftConverts
      rightConverts firstStep secondStep =>
    obtain ⟨above, -, lower⟩ := first.numbered
    obtain ⟨further, -, upper⟩ := second.numbered
    have scalar := Scalar.of_inlineComparisonType? comparable
    have leaves := leaves_operation (firstStep fed apart (by omega))
      (fun added binds => secondStep (feeds_past fed apart lower (by omega) binds)
        (fun input member => (apart input member).later above) (by omega))
      (first.settled apart) upper (by omega) (rfl : Scalar .boolean)
      (fun leftCarries rightCarries leftPresent rightPresent =>
        denotes_converted (by cases mode <;> decide) scalar leftConverts rightConverts leftCarries
          rightCarries fun left right leftDone rightDone =>
            compare_converted leftDone rightDone leftPresent rightPresent mode)
      (fun _ _ _ done => dataType_of_comparison done)
    rw [Expr.eval, comparisonType?_of_inline comparable]
    exact leaves
  | @logical left right decisive _ _ _ _ _ _ _ _ _ _ _ _ _ first leftBoolean second rightBoolean
      firstStep secondStep =>
    obtain ⟨above, -, lower⟩ := first.numbered
    obtain ⟨more, -, leftSingle⟩ := leftBoolean.numbered
    obtain ⟨further, -, upper⟩ := second.numbered
    obtain ⟨last, -, rightSingle⟩ := rightBoolean.numbered
    have leftNumbered := lower.append leftSingle above more
    have rightNumbered := upper.append rightSingle further last
    have settled := leftBoolean.settled (first.settled apart)
    rw [eval_logical, List.append_assoc]
    refine (Inlines.truth (firstStep fed apart (by omega)) leftBoolean).bind
      fun added leftTruth binds leftCarries => ?_
    have later := feeds_past fed apart leftNumbered (by omega) binds
    refine (Inlines.truth (secondStep later (fun input member =>
      (apart input member).later (by omega)) (by omega)) rightBoolean).bind
        fun others rightTruth further rightCarries => ?_
    have leftKept := leftCarries.past further.names (settled.apart rightNumbered (by omega))
    refine .declare (leftKept.logical rightCarries decisive) fun result done => ?_
    exact Except.ok.inj done ▸ fits_truth _
  | not inner boolean step =>
    obtain ⟨more, -, -⟩ := boolean.numbered
    rw [eval_not]
    refine (Inlines.truth (step fed apart (by omega)) boolean).bind fun added truth binds carries =>
      ?_
    exact .declare carries.negation fun result done => Except.ok.inj done ▸ fits_truth _
  | isNull inner step =>
    refine (step fed apart (by omega)).bind fun added value binds carries => ?_
    exact .declare carries.equal_null fun result done => Except.ok.inj done ▸ Slot.fits_truth 0 _

end Inlining

end Generate

end QueryFusion
