import Mathlib.Data.List.Forall2
import QueryFusion.Proofs.Script.Typing

/-!
# Operations on slots of a type

Every operation of the source language, on slots that fit the types which the compiler accepts,
gives a slot that fits the type of its result, or fails for a reason that lies in the data.
-/

namespace QueryFusion.Script

/-- A slot that fits a type, or an error that may be raised. -/
def Sound (cursorCount : Nat) (type : Ty) : Except Error Slot → Prop
  | .ok slot => slot.Fits cursorCount type
  | .error error => Foreseen error

/-- The truth value in a slot that fits the boolean type is there unless the slot is null. -/
theorem truthOf_cases {cursorCount : Nat} {slot : Slot} (fits : slot.Fits cursorCount .boolean)
    (what : String) :
    (∃ truth, slot = .truth truth ∧ truthOf what slot = .ok truth) ∨
      truthOf what slot = .error (.nullOperand what) := by
  rcases fits.boolean with rfl | ⟨truth, rfl⟩
  · exact .inr rfl
  · exact .inl ⟨truth, rfl, rfl⟩

/-- Negation of a truth value. -/
theorem notSlot_sound {cursorCount : Nat} {slot : Slot} (fits : slot.Fits cursorCount .boolean) :
    Sound cursorCount .boolean (notSlot slot) := by
  unfold notSlot
  rcases truthOf_cases fits "operator !" with ⟨truth, -, found⟩ | failed
  · rw [found]
    exact Slot.fits_truth _ _
  · rw [failed]
    exact .of_isInternal rfl

/-- The data type of a numeric type. -/
theorem Ty.isNumeric_dataType {type : Ty} (numeric : type.isNumeric = true) :
    ∃ scalar, type.dataType? = some scalar ∧ scalar.isNumeric = true := by
  cases type with
  | int => exact ⟨.int, rfl, rfl⟩
  | bigInt => exact ⟨.bigInt, rfl, rfl⟩
  | double => exact ⟨.double, rfl, rfl⟩
  | _ => cases numeric

/-- Changing the sign of a value keeps its type. -/
theorem negate_dataType {value result : Value} (done : value.negate = .ok result) :
    result.dataType = value.dataType := by
  unfold Value.negate at done
  split at done <;> try contradiction
  all_goals try (split at done <;> try contradiction)
  all_goals
    cases done
    rfl

/-- An arithmetic result has the type of the operands. -/
theorem ArithmeticOp.apply_dataType {op : ArithmeticOp} {left right result : Value}
    (done : op.apply left right = .ok result) :
    result.dataType = left.dataType ∧ result.dataType = right.dataType := by
  unfold ArithmeticOp.apply at done
  split at done
  · split at done
    · cases done
    · split at done
      · cases done
        exact ⟨rfl, rfl⟩
      · cases done
  · split at done
    · cases done
    · split at done
      · cases done
        exact ⟨rfl, rfl⟩
      · cases done
  · cases done
    exact ⟨rfl, rfl⟩
  · cases done

/-- Changing a sign. -/
theorem negateSlot_sound {cursorCount : Nat} {slot : Slot} {type : Ty}
    (fits : slot.Fits cursorCount type) (numeric : type.isNumeric = true) :
    Sound cursorCount type (negateSlot slot) := by
  obtain ⟨scalar, named, -⟩ := Ty.isNumeric_dataType numeric
  rcases fits.scalar named with rfl | ⟨content, rfl, typed⟩
  · exact .of_isInternal rfl
  · unfold negateSlot
    simp only [Slot.toValue, ok_bind]
    cases outcome : content.negate with
    | error error => exact .of_isData (Value.negate_isData outcome)
    | ok result =>
      exact Slot.fits_scalar _ named (.inr ((negate_dataType outcome).trans typed))

/-- An arithmetic operator on slots of one numeric type. -/
theorem computeSlots_sound {cursorCount : Nat} {left right : Slot} {type : Ty}
    (first : left.Fits cursorCount type) (second : right.Fits cursorCount type)
    (numeric : type.isNumeric = true) (op : ArithmeticOp) :
    Sound cursorCount type (computeSlots op left right) := by
  obtain ⟨scalar, named, -⟩ := Ty.isNumeric_dataType numeric
  have valued : type.isValueType = true := by
    cases type <;> first | rfl | cases numeric
  obtain ⟨leftValue, rfl⟩ := first.exists_value valued
  obtain ⟨rightValue, rfl⟩ := second.exists_value valued
  unfold computeSlots
  simp only [Slot.toValue, ok_bind]
  cases outcome : op.apply leftValue rightValue with
  | error error => exact .of_isData (ArithmeticOp.apply_isData outcome)
  | ok result =>
    obtain ⟨sameLeft, -⟩ := ArithmeticOp.apply_dataType outcome
    refine Slot.fits_scalar _ named ?_
    rcases first.scalar named with null | ⟨content, same, typed⟩
    · cases null
      exact .inl ((Value.dataType_eq_null_iff result).1 sameLeft)
    · cases same
      exact .inr (sameLeft.trans typed)

/-- The order of slots of types of values. -/
theorem orderSlots_sound {cursorCount : Nat} {left right : Slot} {type : Ty}
    (first : left.Fits cursorCount type) (second : right.Fits cursorCount type)
    (valued : type.isValueType = true) (comparison : Comparison) :
    Sound cursorCount .boolean (orderSlots comparison left right) := by
  obtain ⟨leftValue, rfl⟩ := first.exists_value valued
  obtain ⟨rightValue, rfl⟩ := second.exists_value valued
  unfold orderSlots
  simp only [Slot.toValue, ok_bind]
  cases outcome : comparison.apply leftValue rightValue with
  | error error => exact .of_isData (Comparison.apply_isData outcome)
  | ok truth => exact Slot.fits_truth _ _

/-- Only null equals null on the left. -/
theorem Slot.equal_null_left (right : Slot) :
    Slot.equal (.value .null) right = .ok right.isNull := by
  cases right with
  | value content => cases content <;> rfl
  | _ => rfl

/-- Only null equals null on the right. -/
theorem Slot.equal_null_right (left : Slot) : Slot.equal left (.value .null) = .ok left.isNull := by
  cases left with
  | value content => cases content <;> rfl
  | _ => rfl

/-- Values can be tested for equality. -/
theorem Slot.equal_value (left right : Value) :
    ∃ truth, Slot.equal (.value left) (.value right) = .ok truth := by
  unfold Slot.equal
  split
  · exact ⟨_, rfl⟩
  · split
    · exact ⟨_, rfl⟩
    · simp only
      split
      · rename_i null _ same
        cases left <;> cases right <;> cases same
        all_goals first | exact ⟨_, rfl⟩ | skip
        simp [Slot.isNull, Value.isNull] at null
      · exact ⟨_, rfl⟩

/-- Slots of types that may be compared are equal or not. -/
theorem Slot.equal_ok {cursorCount : Nat} {left right : Slot} {leftType rightType : Ty}
    (first : left.Fits cursorCount leftType) (second : right.Fits cursorCount rightType)
    (equatable : leftType.isEquatableWith rightType = true) :
    ∃ truth, left.equal right = .ok truth := by
  by_cases leftNull : left = .value .null
  · exact ⟨right.isNull, leftNull ▸ Slot.equal_null_left right⟩
  by_cases rightNull : right = .value .null
  · exact ⟨left.isNull, rightNull ▸ Slot.equal_null_right left⟩
  have leftTyped : leftType ≠ .null := by
    rintro rfl
    rcases first.cases with null | same | ⟨unlike, -⟩ | ⟨_, -, unlike⟩ | ⟨_, -, unlike⟩
    · exact leftNull null
    · exact leftNull (Slot.eq_null same)
    all_goals cases unlike
  have rightTyped : rightType ≠ .null := by
    rintro rfl
    rcases second.cases with null | same | ⟨unlike, -⟩ | ⟨_, -, unlike⟩ | ⟨_, -, unlike⟩
    · exact rightNull null
    · exact rightNull (Slot.eq_null same)
    all_goals cases unlike
  unfold Ty.isEquatableWith at equatable
  rw [if_neg (by simp [leftTyped, rightTyped])] at equatable
  split at equatable
  · -- neither side is a value: both tell how far an executor has come
    simp only [Bool.and_eq_true, beq_iff_eq] at equatable
    obtain ⟨rfl, rfl⟩ := equatable
    obtain ⟨leftState, rfl⟩ := first.progress.resolve_left leftNull
    obtain ⟨rightState, rfl⟩ := second.progress.resolve_left rightNull
    exact ⟨leftState == rightState, rfl⟩
  · rename_i values
    simp only [Bool.or_eq_true, Bool.not_eq_true', not_or, Bool.not_eq_false] at values
    obtain ⟨leftValue, rfl⟩ := first.exists_value values.1
    obtain ⟨rightValue, rfl⟩ := second.exists_value values.2
    exact Slot.equal_value leftValue rightValue

/-- Equality of slots of types that may be compared. -/
theorem matchSlots_sound {cursorCount : Nat} {left right : Slot} {leftType rightType : Ty}
    (first : left.Fits cursorCount leftType) (second : right.Fits cursorCount rightType)
    (equatable : leftType.isEquatableWith rightType = true) (expected : Bool) :
    Sound cursorCount .boolean (matchSlots expected left right) := by
  obtain ⟨truth, outcome⟩ := Slot.equal_ok first second equatable
  unfold matchSlots
  rw [outcome]
  exact Slot.fits_truth _ _

/-- Types with an order are types of values. -/
theorem Ty.isOrderable_isValueType {type : Ty} (orderable : type.isOrderable = true) :
    type.isValueType = true := by
  cases type <;> first | rfl | cases orderable

/-- A binary operator on slots of types that it accepts. -/
theorem BinaryOp.apply_sound {cursorCount : Nat} {left right : Slot} {leftType rightType type : Ty}
    {op : BinaryOp} {instruction : Op} (first : left.Fits cursorCount leftType)
    (second : right.Fits cursorCount rightType)
    (accepted : binaryOp? op leftType rightType = some (instruction, type)) :
    Sound cursorCount type (op.apply left right) := by
  cases op <;> simp only [binaryOp?, reduceCtorEq, Option.ite_none_right_eq_some, Option.some.injEq,
    Prod.mk.injEq] at accepted
  case equal | notEqual =>
    obtain ⟨equatable, -, rfl⟩ := accepted
    exact matchSlots_sound first second equatable _
  case less | lessOrEqual | greater | greaterOrEqual =>
    obtain ⟨⟨rfl, orderable⟩, -, rfl⟩ := accepted
    exact orderSlots_sound first second (Ty.isOrderable_isValueType orderable) _
  case add | subtract | multiply | divide | remainder =>
    obtain ⟨⟨rfl, numeric⟩, -, rfl⟩ := accepted
    exact computeSlots_sound first second numeric _

/-! ## Casts -/

/-- A converted value has the type that it was converted to, or is null. -/
theorem DataType.convert_typed {type : DataType} {value result : Value}
    (done : type.convert value = .ok result) : result = .null ∨ result.dataType = type := by
  unfold DataType.convert at done
  split at done
  all_goals first | contradiction | skip
  all_goals try (split at done <;> try contradiction)
  all_goals
    cases done
    first | exact .inl rfl | exact .inr rfl

/-- The names of executor kinds tell them apart. -/
theorem executorType_of_kindName {state : ExecutorState} {kind : ExecutorKind}
    (named : state.kindName = kind.name) : executorType state = .specificExecutor kind := by
  cases state <;> cases kind <;>
    simp only [ExecutorState.kindName, ExecutorKind.name, String.reduceEq] at named <;> rfl

/-- An object of a class, or null, fits the type of that class. -/
theorem fits_of_expectClass {cursorCount : Nat} {value : Value} {className : String}
    (accepted : value.expectClass className = .ok ()) :
    Slot.Fits cursorCount (.value value) (.object (some className)) := by
  unfold Value.expectClass at accepted
  split at accepted
  · exact Slot.fits_null _ (by simp)
  · split at accepted
    · rename_i same
      subst same
      refine Slot.fits_value _ _ ?_
      simp [valueType, Ty.isAssignableTo]
    · cases accepted
  · cases accepted

/-- A slot that fits a type of executors is null or an executor. -/
theorem Slot.Fits.executor {cursorCount : Nat} {slot : Slot} {type : Ty}
    (fits : slot.Fits cursorCount type)
    (executors : type = .executor ∨ ∃ kind, type = .specificExecutor kind) :
    slot = .value .null ∨ ∃ id state, slot = .handle (.executor id state) ∧
      (executorType state).isAssignableTo type = true := by
  have assignable := fits.1
  cases slot with
  | value content =>
    rcases executors with rfl | ⟨kind, rfl⟩ <;> cases content <;>
      first | exact .inl rfl | cases assignable
  | handle object =>
    cases object with
    | executor id state => exact .inr ⟨id, state, rfl, assignable⟩
    | _ => rcases executors with rfl | ⟨kind, rfl⟩ <;> cases assignable
  | _ => rcases executors with rfl | ⟨kind, rfl⟩ <;> cases assignable

/-- Casts go from values to values, or from executors to a kind of executors. -/
theorem Ty.isCastableFrom_cases {target source : Ty}
    (castable : target.isCastableFrom source = true) :
    (target.isValueType = true ∧ source.isValueType = true) ∨
      ∃ kind, target = .specificExecutor kind ∧
        (source = .executor ∨ source = .null ∨ ∃ kind, source = .specificExecutor kind) := by
  unfold Ty.isCastableFrom at castable
  split at castable
  · rename_i same
    simp only [Bool.or_eq_true] at castable
    rcases castable with valued | special
    · refine .inl ⟨valued, ?_⟩
      rcases same with rfl | rfl
      · exact valued
      · rfl
    · split at special
      · rename_i kind
        refine .inr ⟨kind, rfl, ?_⟩
        rcases same with rfl | rfl
        · exact .inr (.inr ⟨kind, rfl⟩)
        · exact .inr (.inl rfl)
      · cases special
  · split at castable
    · exact .inl ⟨rfl, rfl⟩
    · refine .inl ⟨?_, rfl⟩
      cases target <;> first | rfl | cases castable
    · exact .inl ⟨rfl, rfl⟩
    · exact .inl ⟨rfl, rfl⟩
    · exact .inr ⟨_, rfl, .inl rfl⟩
    · simp only [Bool.and_eq_true, Bool.or_eq_true, beq_iff_eq] at castable
      obtain ⟨scalar, goal⟩ := castable
      refine .inl ⟨?_, ?_⟩
      · rcases goal with named | rfl
        · cases target <;> first | rfl | cases named
        · rfl
      · cases source <;> first | rfl | cases scalar

/-- A cast of a value that fits a type of values. -/
theorem castSlot_value_sound {cursorCount : Nat} {content : Value} {source target : Ty}
    (fits : Slot.Fits cursorCount (.value content) source)
    (castable : target.isCastableFrom source = true) (valued : target.isValueType = true)
    (held : source.isValueType = true) :
    Sound cursorCount target (castSlot target (.value content)) := by
  cases named : target.dataType? with
  | some type =>
    have cast : castSlot target (.value content) = CastTarget.apply (.scalar type)
        (.value content) := by
      cases target <;> cases named
      all_goals rfl
    rw [cast]
    simp only [CastTarget.apply]
    cases outcome : type.convert content with
    | error error => exact .of_isData (DataType.convert_isData outcome)
    | ok result => exact Slot.fits_scalar _ named (DataType.convert_typed outcome)
  | none =>
    cases target with
    | object className =>
      cases className with
      | some className =>
        simp only [castSlot, CastTarget.apply]
        cases outcome : content.expectClass className with
        | error error => exact .of_isData (Value.expectClass_isData outcome)
        | ok accepted => exact fits_of_expectClass outcome
      | none =>
        simp only [castSlot, CastTarget.apply]
        split
        · rename_i object
          cases content <;> simp only [Value.isNull, Value.asObject?, Option.isSome, Bool.or_self,
            Bool.false_eq_true, Bool.or_false, Bool.or_true] at object
          · exact Slot.fits_null _ (by simp)
          · exact Slot.fits_value _ _ rfl
        · exact .of_isInternal rfl
    | value =>
      refine Slot.Fits.widen fits ?_
      rw [Ty.isAssignableTo_iff]
      exact ⟨by simp, .inr (.inr (.inl ⟨rfl, held⟩))⟩
    | null =>
      have null : source = .null := by
        unfold Ty.isCastableFrom at castable
        split at castable
        · rename_i same
          exact same.elim id id
        · split at castable <;> simp_all [Ty.dataType?]
      subst null
      exact fits
    | _ => first | (cases named; done) | cases valued

/-- A cast between types that allow it. -/
theorem castSlot_sound {cursorCount : Nat} {slot : Slot} {source target : Ty}
    (fits : slot.Fits cursorCount source) (castable : target.isCastableFrom source = true) :
    Sound cursorCount target (castSlot target slot) := by
  rcases Ty.isCastableFrom_cases castable with ⟨valued, held⟩ | ⟨kind, rfl, origin⟩
  · obtain ⟨content, rfl⟩ := fits.exists_value held
    exact castSlot_value_sound fits castable valued held
  · have executor : slot = .value .null ∨ ∃ id state, slot = .handle (.executor id state) := by
      rcases origin with rfl | rfl | ⟨kind, rfl⟩
      · exact (fits.executor (.inl rfl)).imp_right fun ⟨id, state, same, _⟩ => ⟨id, state, same⟩
      · rcases fits.cases with null | same | ⟨unlike, -⟩ | ⟨_, -, unlike⟩ | ⟨_, -, unlike⟩
        · exact .inl null
        · exact .inl (Slot.eq_null same)
        all_goals cases unlike
      · exact (fits.executor (.inr ⟨kind, rfl⟩)).imp_right
          fun ⟨id, state, same, _⟩ => ⟨id, state, same⟩
    rcases executor with rfl | ⟨id, state, rfl⟩
    · exact Slot.fits_null _ (by simp)
    · simp only [castSlot, CastTarget.apply]
      split
      · rename_i named
        refine ⟨?_, by simp⟩
        rw [Slot.type, Handle.type, executorType_of_kindName named, Ty.isAssignableTo_iff]
        exact ⟨by simp, .inl rfl⟩
      · exact .of_isInternal rfl

/-- The kind of a special executor is told by its name. -/
theorem kindName_of_executorType {state : ExecutorState} {kind : ExecutorKind}
    (typed : (executorType state).isAssignableTo (.specificExecutor kind) = true) :
    state.kindName = kind.name := by
  cases state <;> cases kind <;> first | rfl | cases typed

/-- A cast to a type that the slot fits changes nothing. -/
theorem castSlot_fits {cursorCount : Nat} {slot : Slot} {target : Ty}
    (fits : slot.Fits cursorCount target) : castSlot target slot = .ok slot := by
  cases named : target.dataType? with
  | some type =>
    have cast : castSlot target slot = CastTarget.apply (.scalar type) slot := by
      cases target <;> cases named
      all_goals rfl
    rw [cast]
    rcases fits.scalar named with rfl | ⟨content, rfl, typed⟩
    · simp [CastTarget.apply, DataType.convert_null]
    · rw [← typed]
      simp [CastTarget.apply, DataType.convert_dataType]
  | none =>
    cases target with
    | specificExecutor kind =>
      rcases fits.executor (.inr ⟨kind, rfl⟩) with rfl | ⟨id, state, rfl, typed⟩
      · rfl
      · simp [castSlot, CastTarget.apply, kindName_of_executorType typed]
    | object className =>
      obtain ⟨content, rfl⟩ := fits.exists_value rfl
      have assignable := fits.1
      cases content with
      | null => cases className <;> rfl
      | object identity ownClass fields =>
        cases className with
        | none => rfl
        | some className =>
          have same : ownClass = className := by
            simpa [Slot.type, valueType, Ty.isAssignableTo] using assignable
          subst same
          simp [castSlot, CastTarget.apply, Value.expectClass]
      | _ => cases assignable
    | _ => first | rfl | cases named

/-- The slot of a cast is that of its instructions: where there is none, the slot fits already. -/
theorem castOps_cases {source target : Ty} :
    (castOps source target = [] ∧ ∀ cursorCount slot, Slot.Fits cursorCount slot source →
      castSlot target slot = .ok slot) ∨
    ∃ cast : CastTarget, castOps source target = [.cast cast] ∧
      ∀ slot, castSlot target slot = cast.apply slot := by
  by_cases plain : source = target ∨ source = .null
  · refine .inl ⟨by simp [castOps, plain], fun cursorCount slot fits => ?_⟩
    rcases plain with rfl | rfl
    · exact castSlot_fits fits
    · have null : slot = .value .null := by
        rcases fits.cases with null | same | ⟨unlike, -⟩ | ⟨_, -, unlike⟩ | ⟨_, -, unlike⟩
        · exact null
        · exact Slot.eq_null same
        all_goals cases unlike
      subst null
      by_cases stored : target = .void
      · subst stored
        rfl
      · exact castSlot_fits (Slot.fits_null cursorCount stored)
  · unfold castOps
    rw [if_neg plain]
    cases target with
    | specificExecutor kind => exact .inr ⟨_, rfl, fun _ => rfl⟩
    | object className => exact .inr ⟨_, rfl, fun _ => rfl⟩
    | boolean | int | bigInt | double | varchar => exact .inr ⟨_, rfl, fun _ => rfl⟩
    | _ => exact .inl ⟨rfl, fun _ _ _ => rfl⟩

/-! ## Methods -/

/-- A method that a static type has is the one that a fitting slot has. -/
theorem methodOf?_receiver {cursorCount : Nat} {receiver : Slot} {type : Ty} {name : String}
    {found : Method × List Ty × Ty} (fits : receiver.Fits cursorCount type)
    (present : receiver.isNull = false) (has : methodOf? type name = some found) :
    methodOf? receiver.type name = some found := by
  rcases fits.cases with rfl | same | ⟨rfl, -⟩ | ⟨_, -, rfl⟩ | ⟨kind, same, rfl⟩
  · cases present
  · rw [same]
    exact has
  · cases has
  · cases has
  · rw [same]
    unfold methodOf? at has
    split at has <;> first | contradiction | exact has

/-- A slot that fits, with the cursors behind a call, or an error that may be raised. -/
def SoundCall (cursorCount : Nat) (type : Ty) : Except Error (Slot × List Cursor) → Prop
  | .ok (slot, cursors) => slot.Fits cursors.length type ∧ cursors.length = cursorCount ∧
      ∀ cursor ∈ cursors, cursor.Reachable
  | .error error => Foreseen error

/-- A call that leaves the cursors alone. -/
theorem SoundCall.unchanged {cursors : List Cursor} {type : Ty} {outcome : Except Error Slot}
    (reachable : ∀ cursor ∈ cursors, cursor.Reachable) (sound : Sound cursors.length type outcome) :
    SoundCall cursors.length type (do
      let slot ← outcome
      .ok (slot, cursors)) := by
  cases outcome with
  | error error => exact sound
  | ok slot => exact ⟨sound, rfl, reachable⟩

/-- An object of the engine fits its own type. -/
theorem fits_handle (cursorCount : Nat) {object : Handle}
    (other : ∀ number, object ≠ .cursor number) :
    Slot.Fits cursorCount (.handle object) object.type := by
  refine ⟨?_, fun number same => absurd (Slot.handle.inj same) (other number)⟩
  rw [Ty.isAssignableTo_iff]
  refine ⟨?_, .inl rfl⟩
  cases object with
  | executor id state => cases state <;> simp [Handle.type, executorType]
  | _ => simp [Handle.type]

/-- An integer fits. -/
theorem integerSlot_sound (cursorCount : Nat) (what : String) (number : Nat) :
    Sound cursorCount .int (integerSlot what number) := by
  unfold integerSlot
  split
  · exact Slot.fits_value _ _ rfl
  · exact .of_isInternal rfl

/-- What a scan exposes has the type of the method that reads it. -/
theorem scanPart?_sound (cursorCount : Nat) (scan : ScanState) {name : String} {method : Method}
    {params : List Ty} {result : Ty}
    (has : methodOf? (.specificExecutor .scan) name = some (method, params, result)) :
    method = .executorId ∨ ∃ slot, scanPart? scan method = some slot ∧
      slot.Fits cursorCount result := by
  unfold methodOf? at has
  split at has <;> first | contradiction | skip
  all_goals cases has
  all_goals first | exact .inl rfl | skip
  all_goals right
  all_goals first | exact ⟨_, rfl, fits_handle _ (by simp)⟩ | skip
  -- the filter of a scan may be missing
  cases filter : scan.filter with
  | none => exact ⟨.value .null, by simp [scanPart?, filter], Slot.fits_null _ (by simp)⟩
  | some condition =>
    exact ⟨.handle (.expression condition), by simp [scanPart?, filter], fits_handle _ (by simp)⟩

/-- The integer argument of a method is there unless it is null. -/
theorem integerArgument_cases {cursorCount : Nat} {argument : Slot}
    (fits : argument.Fits cursorCount .int) (what : String) :
    (∃ number, integerArgument what [argument] = .ok number) ∨
      integerArgument what [argument] = .error (.nullOperand what) := by
  rcases fits.int with rfl | ⟨number, rfl⟩
  · exact .inr rfl
  · exact .inl ⟨number, rfl⟩

/-- An item of a list is there, or its index is out of bounds. -/
theorem itemAt_isData {α : Type} {items : List α} {index : Int32} {error : Error}
    (failed : itemAt items index = .error error) : error.isData = true := by
  unfold itemAt at failed
  split at failed
  · cases failed
  · cases failed
    rfl

/-- The items of a list have its element type. -/
theorem listItem_sound (cursorCount : Nat) {list : Handle} {element : ListElement}
    (typed : list.type = .list element) (index : Int32) :
    Sound cursorCount element.itemType (listItem list index) := by
  cases list with
  | paths items =>
    cases typed
    simp only [listItem]
    cases outcome : itemAt items index with
    | error error => exact .of_isData (itemAt_isData outcome)
    | ok item => exact fits_handle _ (by simp)
  | types items =>
    cases typed
    simp only [listItem]
    cases outcome : itemAt items index with
    | error error => exact .of_isData (itemAt_isData outcome)
    | ok item => exact fits_handle _ (by simp)
  | expressions items =>
    cases typed
    simp only [listItem]
    cases outcome : itemAt items index with
    | error error => exact .of_isData (itemAt_isData outcome)
    | ok item => exact fits_handle _ (by simp)
  | indexes items =>
    cases typed
    simp only [listItem]
    cases outcome : itemAt items index with
    | error error => exact .of_isData (itemAt_isData outcome)
    | ok item => exact integerSlot_sound _ _ _
  | executor id state => cases state <;> cases typed
  | _ => cases typed

/-- A list has a size. -/
theorem listSize_sound (cursorCount : Nat) {list : Handle} {element : ListElement}
    (typed : list.type = .list element) : Sound cursorCount .int (listSize list) := by
  cases list with
  | paths items | types items | expressions items | indexes items =>
    exact integerSlot_sound _ _ _
  | executor id state => cases state <;> cases typed
  | _ => cases typed

/-- Every value fits the type of all values. -/
theorem fits_any (cursorCount : Nat) (content : Value) :
    Slot.Fits cursorCount (.value content) .value := by
  refine Slot.fits_value _ _ ?_
  cases content <;> rfl

/-- The value of an expression on a row. -/
theorem evalArgument_sound {cursorCount : Nat} {argument : Slot}
    (fits : argument.Fits cursorCount .row) (expression : Expr) :
    Sound cursorCount .value (evalArgument expression [argument]) := by
  rcases fits.row with rfl | ⟨columns, rfl⟩
  · exact .of_isInternal rfl
  · simp only [evalArgument]
    cases outcome : expression.eval columns with
    | error error => exact .of_isData (Expr.eval_isData columns expression outcome)
    | ok value => exact fits_any _ value

/-- Calls that an executor takes. -/
theorem invoke_executor_sound {cursors : List Cursor} {id : NodeId} {state : ExecutorState}
    {arguments : List Slot} {name : String} {method : Method} {params : List Ty} {result : Ty}
    (has : methodOf? (executorType state) name = some (method, params, result))
    (reachable : ∀ cursor ∈ cursors, cursor.Reachable) :
    SoundCall cursors.length result
      (invoke cursors method (.handle (.executor id state)) arguments) := by
  cases state with
  | hidden =>
    simp only [executorType, methodOf?] at has
    split at has <;> first | contradiction | skip
    cases has
    exact .unchanged reachable (Slot.fits_value _ _ rfl)
  | scan scan =>
    rcases scanPart?_sound cursors.length scan has with rfl | ⟨slot, found, fits⟩
    · have integer : result = .int := by
        simp only [executorType, methodOf?] at has
        split at has <;> first | contradiction | (cases has; done) | (cases has; rfl)
      subst integer
      exact .unchanged reachable (Slot.fits_value _ _ rfl)
    · have call : invoke cursors method (.handle (.executor id (.scan scan))) arguments =
          .ok (slot, cursors) := by
        cases method <;> first | (cases found; done) | simp [invoke, Slot.isNull, found]
      rw [call]
      exact ⟨fits, rfl, reachable⟩
  | filter condition =>
    simp only [executorType, methodOf?] at has
    split at has <;> first | contradiction | skip
    · cases has
      exact .unchanged reachable (Slot.fits_value _ _ rfl)
    · cases has
      exact .unchanged reachable (fits_handle _ (by simp))
  | project expressions =>
    simp only [executorType, methodOf?] at has
    split at has <;> first | contradiction | skip
    · cases has
      exact .unchanged reachable (Slot.fits_value _ _ rfl)
    · cases has
      exact .unchanged reachable (fits_handle _ (by simp))

/-- The only argument of a method with one parameter. -/
theorem forall₂_singleton {cursorCount : Nat} {arguments : List Slot} {param : Ty}
    (given : List.Forall₂ (Slot.Fits cursorCount) arguments [param]) :
    ∃ argument, arguments = [argument] ∧ argument.Fits cursorCount param := by
  cases given with
  | cons fits rest =>
    cases rest
    exact ⟨_, rfl, fits⟩

/-- Calls that a list takes. -/
theorem invoke_list_sound {cursors : List Cursor} {list : Handle} {element : ListElement}
    {arguments : List Slot} {name : String} {method : Method} {params : List Ty} {result : Ty}
    (typed : list.type = .list element)
    (has : methodOf? (.list element) name = some (method, params, result))
    (given : List.Forall₂ (Slot.Fits cursors.length) arguments params)
    (reachable : ∀ cursor ∈ cursors, cursor.Reachable) :
    SoundCall cursors.length result (invoke cursors method (.handle list) arguments) := by
  simp only [methodOf?] at has
  split at has <;> first | contradiction | skip
  · rename_i same
    cases same
    cases has
    obtain ⟨argument, rfl, fits⟩ := forall₂_singleton given
    have call : invoke cursors .listGet (.handle list) [argument] = (do
        let index ← integerArgument Method.listGet.name [argument]
        let slot ← listItem list index
        .ok (slot, cursors)) := by
      cases list with
      | executor id state => cases state <;> cases typed
      | _ => rfl
    rw [call]
    rcases integerArgument_cases fits Method.listGet.name with ⟨number, found⟩ | failed
    · rw [found]
      exact .unchanged reachable (listItem_sound _ typed number)
    · rw [failed]
      exact Foreseen.of_isInternal rfl
  · cases has
    have call : invoke cursors .listSize (.handle list) arguments = (do
        let slot ← listSize list
        .ok (slot, cursors)) := by
      cases list with
      | executor id state => cases state <;> cases typed
      | _ => rfl
    rw [call]
    exact .unchanged reachable (listSize_sound _ typed)

/-- Calls that a row takes. -/
theorem invoke_row_sound {cursors : List Cursor} {columns : Row} {arguments : List Slot}
    {name : String} {method : Method} {params : List Ty} {result : Ty}
    (has : methodOf? .row name = some (method, params, result))
    (given : List.Forall₂ (Slot.Fits cursors.length) arguments params)
    (reachable : ∀ cursor ∈ cursors, cursor.Reachable) :
    SoundCall cursors.length result (invoke cursors method (.row columns) arguments) := by
  simp only [methodOf?] at has
  split at has <;> first | contradiction | skip
  · cases has
    obtain ⟨argument, rfl, fits⟩ := forall₂_singleton given
    have call : invoke cursors .rowGet (.row columns) [argument] = (do
        let index ← integerArgument Method.rowGet.name [argument]
        let slot ← (itemAt columns index).map Slot.value
        .ok (slot, cursors)) := rfl
    rw [call]
    rcases integerArgument_cases fits Method.rowGet.name with ⟨number, found⟩ | failed
    · rw [found]
      refine .unchanged reachable ?_
      cases outcome : itemAt columns number with
      | error error => exact .of_isData (itemAt_isData outcome)
      | ok item => exact fits_any _ item
    · rw [failed]
      exact Foreseen.of_isInternal rfl
  · cases has
    exact .unchanged reachable (integerSlot_sound _ _ _)

/-- Calls that an expression takes. -/
theorem invoke_expression_sound {cursors : List Cursor} {item : Expr} {arguments : List Slot}
    {name : String} {method : Method} {params : List Ty} {result : Ty}
    (has : methodOf? .expression name = some (method, params, result))
    (given : List.Forall₂ (Slot.Fits cursors.length) arguments params)
    (reachable : ∀ cursor ∈ cursors, cursor.Reachable) :
    SoundCall cursors.length result
      (invoke cursors method (.handle (.expression item)) arguments) := by
  simp only [methodOf?] at has
  split at has <;> first | contradiction | skip
  cases has
  obtain ⟨argument, rfl, fits⟩ := forall₂_singleton given
  exact .unchanged reachable (evalArgument_sound fits item)

/-- Reading from a cursor. -/
theorem cursor_read_sound {cursors : List Cursor} {cursor : Cursor} {part : Entry → Value}
    (reachable : ∀ cursor ∈ cursors, cursor.Reachable) (present : cursor ∈ cursors) :
    Sound cursors.length .value ((cursor.current.map part).map .value) := by
  cases outcome : cursor.current with
  | error error => exact fun _ => (reachable cursor present).current_eq outcome
  | ok entry => exact fits_any _ _

/-- Calls that a cursor takes. -/
theorem invoke_cursor_sound {cursors : List Cursor} {number : Nat} {arguments : List Slot}
    {name : String} {method : Method} {params : List Ty} {result : Ty}
    (has : methodOf? .cursor name = some (method, params, result))
    (inside : number < cursors.length) (reachable : ∀ cursor ∈ cursors, cursor.Reachable) :
    SoundCall cursors.length result
      (invoke cursors method (.handle (.cursor number)) arguments) := by
  have found : cursors[number]? = some cursors[number] := List.getElem?_eq_getElem inside
  have present : cursors[number] ∈ cursors := List.getElem_mem inside
  simp only [methodOf?] at has
  split at has <;> first | contradiction | skip
  · cases has
    have call : invoke cursors .cursorAdvance (.handle (.cursor number)) arguments =
        .ok (.truth cursors[number].advance.1, cursors.set number cursors[number].advance.2) := by
      simp [invoke, Slot.isNull, found]
    rw [call]
    refine ⟨Slot.fits_truth _ _, List.length_set, fun cursor member => ?_⟩
    rcases List.mem_or_eq_of_mem_set member with old | rfl
    · exact reachable cursor old
    · exact (reachable _ present).advance
  · cases has
    have call : invoke cursors .cursorKey (.handle (.cursor number)) arguments = (do
        let slot ← cursors[number].key.map Slot.value
        .ok (slot, cursors)) := by
      simp [invoke, Slot.isNull, found]
    rw [call]
    exact .unchanged reachable (cursor_read_sound reachable present)
  · cases has
    have call : invoke cursors .cursorValue (.handle (.cursor number)) arguments = (do
        let slot ← cursors[number].value.map Slot.value
        .ok (slot, cursors)) := by
      simp [invoke, Slot.isNull, found]
    rw [call]
    exact .unchanged reachable (cursor_read_sound reachable present)

/-- Calls of methods that a receiver has, on arguments of the types of its parameters. -/
theorem invoke_sound {cursors : List Cursor} {receiver : Slot} {arguments : List Slot}
    {name : String} {method : Method} {params : List Ty} {result : Ty}
    (has : methodOf? receiver.type name = some (method, params, result))
    (given : List.Forall₂ (Slot.Fits cursors.length) arguments params)
    (inside : ∀ number, receiver = .handle (.cursor number) → number < cursors.length)
    (reachable : ∀ cursor ∈ cursors, cursor.Reachable) :
    SoundCall cursors.length result (invoke cursors method receiver arguments) := by
  cases receiver with
  | unset | ints numbers | progress state => cases has
  | value content => cases content <;> cases has
  | row columns => exact invoke_row_sound has given reachable
  | handle object =>
    cases object with
    | executor id state => exact invoke_executor_sound has reachable
    | paths items | types items | indexes items | expressions items =>
      exact invoke_list_sound rfl has given reachable
    | cursor number => exact invoke_cursor_sound has (inside number rfl) reachable
    | expression item => exact invoke_expression_sound has given reachable
    | map _ | partitions _ | shape _ | context _ | path _ | dataType _ => cases has

end QueryFusion.Script
