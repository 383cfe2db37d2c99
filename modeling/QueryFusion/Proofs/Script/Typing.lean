import QueryFusion.Proofs.Expr.Failure
import QueryFusion.Proofs.Script.Meaning
import QueryFusion.Proofs.Store.Visiting

/-!
# Slots of a type

A slot fits a type when a member of its own type may stand there; null fits every type that can be
stored. Every operation on fitting slots gives a slot that fits the type of its result, or fails for
a reason that lies in the data: the only broken rule that can come to light is a cursor read while
it stands on no entry.
-/

namespace QueryFusion

namespace Script

/-- The error is one that a typed unit may raise. -/
def Foreseen (error : Error) : Prop :=
  error.isInternal = true → error = Cursor.notPositioned

/-- An error that breaks no rule may be raised. -/
theorem Foreseen.of_isInternal {error : Error} (data : error.isInternal = false) :
    Foreseen error := by
  intro internal
  rw [data] at internal
  cases internal

/-- An error that lies in the data may be raised. -/
theorem Foreseen.of_isData {error : Error} (data : error.isData = true) : Foreseen error :=
  .of_isInternal (Error.isInternal_of_isData data)

/-! ## Assignable types -/

/-- When a member of one type may stand where another is expected. -/
theorem Ty.isAssignableTo_iff (source target : Ty) :
    source.isAssignableTo target = true ↔ target ≠ .void ∧
      (source = target ∨ source = .null ∨ (target = .value ∧ source.isValueType = true) ∨
        (∃ className, source = .object (some className) ∧ target = .object none) ∨
        ∃ kind, source = .specificExecutor kind ∧ target = .executor) := by
  unfold Ty.isAssignableTo
  split
  · simp_all
  · split <;> simp_all [Ty.isValueType]

/-- Assignability may be used twice. -/
theorem Ty.isAssignableTo_trans {first second third : Ty}
    (left : first.isAssignableTo second = true) (right : second.isAssignableTo third = true) :
    first.isAssignableTo third = true := by
  rw [Ty.isAssignableTo_iff] at *
  obtain ⟨-, left⟩ := left
  obtain ⟨stored, right⟩ := right
  refine ⟨stored, ?_⟩
  rcases left with rfl | rfl | ⟨rfl, valued⟩ | ⟨className, rfl, rfl⟩ | ⟨kind, rfl, rfl⟩
  · exact right
  · exact .inr (.inl rfl)
  · rcases right with rfl | unlike | ⟨rfl, -⟩ | ⟨_, unlike, -⟩ | ⟨_, unlike, -⟩
    · exact .inr (.inr (.inl ⟨rfl, valued⟩))
    · cases unlike
    · exact .inr (.inr (.inl ⟨rfl, valued⟩))
    · cases unlike
    · cases unlike
  · rcases right with rfl | unlike | ⟨rfl, -⟩ | ⟨_, unlike, -⟩ | ⟨_, unlike, -⟩
    · exact .inr (.inr (.inr (.inl ⟨_, rfl, rfl⟩)))
    · cases unlike
    · exact .inr (.inr (.inl ⟨rfl, rfl⟩))
    · cases unlike
    · cases unlike
  · rcases right with rfl | unlike | ⟨rfl, unlike⟩ | ⟨_, unlike, -⟩ | ⟨_, unlike, -⟩
    · exact .inr (.inr (.inr (.inr ⟨_, rfl, rfl⟩)))
    · cases unlike
    · cases unlike
    · cases unlike
    · cases unlike

/-! ## Fitting slots -/

/-- The slot may stand where the type is expected, and it names a cursor only if there is one. -/
def Slot.Fits (cursorCount : Nat) (slot : Slot) (type : Ty) : Prop :=
  slot.type.isAssignableTo type = true ∧
    ∀ number, slot = .handle (.cursor number) → number < cursorCount

namespace Slot

/-- Null fits every type that can be stored. -/
theorem fits_null (cursorCount : Nat) {type : Ty} (stored : type ≠ .void) :
    Fits cursorCount (.value .null) type := by
  refine ⟨?_, by simp⟩
  rw [Ty.isAssignableTo_iff]
  exact ⟨stored, .inr (.inl rfl)⟩

/-- A value fits the type that it has. -/
theorem fits_value (cursorCount : Nat) (content : Value) {type : Ty}
    (assignable : (valueType content).isAssignableTo type = true) :
    Fits cursorCount (.value content) type :=
  ⟨assignable, by simp⟩

/-- A truth value fits. -/
theorem fits_truth (cursorCount : Nat) (truth : Bool) : Fits cursorCount (.truth truth) .boolean :=
  fits_value _ _ rfl

/-- A slot that fits a type fits the types it is assignable to. -/
theorem Fits.widen {cursorCount : Nat} {slot : Slot} {source target : Ty}
    (fits : slot.Fits cursorCount source) (assignable : source.isAssignableTo target = true) :
    slot.Fits cursorCount target :=
  ⟨Ty.isAssignableTo_trans fits.1 assignable, fits.2⟩

/-- More cursors do no harm. -/
theorem Fits.mono {first second : Nat} {slot : Slot} {type : Ty} (fits : slot.Fits first type)
    (more : first ≤ second) : slot.Fits second type :=
  ⟨fits.1, fun number named => Nat.lt_of_lt_of_le (fits.2 number named) more⟩

/-- Only null has the type of the null literal. -/
theorem eq_null {slot : Slot} (null : slot.type = .null) : slot = .value .null := by
  cases slot with
  | value content => cases content <;> first | rfl | cases null
  | handle object =>
    cases object with
    | executor id state => cases state <;> cases null
    | _ => cases null
  | _ => cases null

/-- A slot that fits a type has that type or is null, unless the type has special ones below. -/
theorem Fits.cases {cursorCount : Nat} {slot : Slot} {type : Ty}
    (fits : slot.Fits cursorCount type) :
    slot = .value .null ∨ slot.type = type ∨ (type = .value ∧ slot.type.isValueType = true) ∨
      (∃ className, slot.type = .object (some className) ∧ type = .object none) ∨
      ∃ kind, slot.type = .specificExecutor kind ∧ type = .executor := by
  obtain ⟨-, same | null | rest⟩ := (Ty.isAssignableTo_iff _ _).1 fits.1
  · exact .inr (.inl same)
  · exact .inl (eq_null null)
  · exact .inr (.inr rest)

/-- A slot of a type of values holds a value. -/
theorem exists_value {slot : Slot} (valued : slot.type.isValueType = true) :
    ∃ content, slot = .value content := by
  cases slot with
  | value content => exact ⟨content, rfl⟩
  | handle object =>
    cases object with
    | executor id state => cases state <;> cases valued
    | _ => cases valued
  | _ => cases valued

/-- A slot that fits a type of values holds a value. -/
theorem Fits.exists_value {cursorCount : Nat} {slot : Slot} {type : Ty}
    (fits : slot.Fits cursorCount type) (valued : type.isValueType = true) :
    ∃ content, slot = .value content := by
  rcases fits.cases with rfl | same | ⟨-, valued⟩ | ⟨className, same, -⟩ | ⟨kind, -, rfl⟩
  · exact ⟨.null, rfl⟩
  · exact Slot.exists_value (same ▸ valued)
  · exact Slot.exists_value valued
  · exact Slot.exists_value (by rw [same]; rfl)
  · cases valued

/-- A scalar type has the values of its data type. -/
theorem valueType_eq_iff {type : Ty} {scalar : DataType} (named : type.dataType? = some scalar)
    (content : Value) : valueType content = type ↔ content.dataType = scalar := by
  cases type <;> simp only [Ty.dataType?, Option.some.injEq, reduceCtorEq] at named <;>
    subst named <;> cases content <;> simp [valueType, Value.dataType]

/-- A slot that fits a scalar type holds null or a value of its data type. -/
theorem Fits.scalar {cursorCount : Nat} {slot : Slot} {type : Ty} {scalar : DataType}
    (fits : slot.Fits cursorCount type) (named : type.dataType? = some scalar) :
    slot = .value .null ∨ ∃ content, slot = .value content ∧ content.dataType = scalar := by
  have valued : type.isValueType = true := by
    cases type <;> first | rfl | cases named
  obtain ⟨content, rfl⟩ := fits.exists_value valued
  rcases fits.cases with null | same | ⟨rfl, -⟩ | ⟨_, -, rfl⟩ | ⟨_, -, rfl⟩
  · exact .inl null
  · exact .inr ⟨content, rfl, (valueType_eq_iff named content).1 same⟩
  · cases named
  · cases named
  · cases named

/-- A value of a data type, or null, fits the scalar type. -/
theorem fits_scalar (cursorCount : Nat) {content : Value} {type : Ty} {scalar : DataType}
    (named : type.dataType? = some scalar)
    (typed : content = .null ∨ content.dataType = scalar) :
    Fits cursorCount (.value content) type := by
  rcases typed with rfl | typed
  · refine fits_null _ ?_
    rintro rfl
    cases named
  · refine fits_value _ _ ?_
    rw [(valueType_eq_iff named content).2 typed, Ty.isAssignableTo_iff]
    refine ⟨?_, .inl rfl⟩
    rintro rfl
    cases named

/-- A slot that fits the boolean type holds null or a truth value. -/
theorem Fits.boolean {cursorCount : Nat} {slot : Slot} (fits : slot.Fits cursorCount .boolean) :
    slot = .value .null ∨ ∃ truth, slot = .truth truth := by
  rcases fits.scalar rfl with null | ⟨content, rfl, typed⟩
  · exact .inl null
  · cases content with
    | boolean truth => exact .inr ⟨truth, rfl⟩
    | _ => cases typed

/-- A slot that fits the integer type holds null or an integer. -/
theorem Fits.int {cursorCount : Nat} {slot : Slot} (fits : slot.Fits cursorCount .int) :
    slot = .value .null ∨ ∃ number, slot = .value (.int number) := by
  rcases fits.scalar rfl with null | ⟨content, rfl, typed⟩
  · exact .inl null
  · cases content with
    | int number => exact .inr ⟨number, rfl⟩
    | _ => cases typed

/-- A slot that fits the type of rows is null or a row. -/
theorem Fits.row {cursorCount : Nat} {slot : Slot} (fits : slot.Fits cursorCount .row) :
    slot = .value .null ∨ ∃ columns, slot = .row columns := by
  rcases fits.cases with null | same | ⟨unlike, -⟩ | ⟨_, -, unlike⟩ | ⟨_, -, unlike⟩
  · exact .inl null
  · cases slot with
    | row columns => exact .inr ⟨columns, rfl⟩
    | value content => cases content <;> cases same
    | handle object =>
      cases object with
      | executor id state => cases state <;> cases same
      | _ => cases same
    | _ => cases same
  · cases unlike
  · cases unlike
  · cases unlike

/-- A slot that fits the type of progress is null or tells how far an executor has come. -/
theorem Fits.progress {cursorCount : Nat} {slot : Slot} (fits : slot.Fits cursorCount .progress) :
    slot = .value .null ∨ ∃ state, slot = .progress state := by
  rcases fits.cases with null | same | ⟨unlike, -⟩ | ⟨_, -, unlike⟩ | ⟨_, -, unlike⟩
  · exact .inl null
  · cases slot with
    | progress state => exact .inr ⟨state, rfl⟩
    | value content => cases content <;> cases same
    | handle object =>
      cases object with
      | executor id state => cases state <;> cases same
      | _ => cases same
    | _ => cases same
  · cases unlike
  · cases unlike
  · cases unlike

end Slot

end Script

end QueryFusion
