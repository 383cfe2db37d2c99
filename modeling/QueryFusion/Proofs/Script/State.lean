import QueryFusion.Proofs.Script.Operations
import QueryFusion.Proofs.Script.Rules

/-!
# States that a compiled routine may be in

What the compiler knows at a place of a routine holds of the state of the machine there: constants
and names are those of the unit, every field is unset or fits its type, and every visible local has
the content that its name has in the tree, in the slot of its number.
-/

namespace QueryFusion.Script

/-! ## Constants and names -/

/-- The constants and names are the first ones of the unit. -/
structure Pools.Within (pools : Pools) (unit : CompiledUnit) : Prop where
  constants : pools.constants <+: unit.constants
  names : pools.names <+: unit.names

namespace Pools

variable {pools : Pools} {unit : CompiledUnit}

/-- An entry of the first part of a list is an entry of the list. -/
theorem getElem?_of_prefix {α : Type} {part whole : List α} (within : part <+: whole)
    {index : Nat} {item : α} (found : part[index]? = some item) : whole[index]? = some item := by
  obtain ⟨rest, rfl⟩ := within
  obtain ⟨inside, -⟩ := List.getElem?_eq_some_iff.1 found
  rw [List.getElem?_append_left inside]
  exact found

/-- A constant that was added is a constant of the unit. -/
theorem addConstant_within {constant : Slot} (within : (pools.addConstant constant).2.Within unit) :
    pools.Within unit ∧ unit.constants[(pools.addConstant constant).1]? = some constant := by
  refine ⟨⟨(List.prefix_append _ _).trans within.constants, within.names⟩, ?_⟩
  refine getElem?_of_prefix within.constants ?_
  simp [addConstant]

/-- A name that was added is a name of the unit. -/
theorem addName_within {name : String} (within : (pools.addName name).2.Within unit) :
    pools.Within unit ∧ unit.names[(pools.addName name).1]? = some name := by
  unfold addName at within ⊢
  split at within
  · rename_i index found
    obtain ⟨inside, same, -⟩ := List.findIdx?_eq_some_iff_getElem.1 found
    refine ⟨within, getElem?_of_prefix within.names ?_⟩
    rw [List.getElem?_eq_getElem inside, eq_of_beq same]
  · refine ⟨⟨within.constants, (List.prefix_append _ _).trans within.names⟩, ?_⟩
    refine getElem?_of_prefix within.names ?_
    simp

end Pools

mutual

/-- Code only adds constants and names. -/
theorem Lowers.within {scope : UnitScope} {locals : Locals} {start : Nat} {pools : Pools}
    {term : Term} {lowered : Lowered} {unit : CompiledUnit}
    (rule : Lowers scope locals start pools term lowered) (within : lowered.pools.Within unit) :
    pools.Within unit := by
  cases rule with
  | literal same => exact (Pools.addConstant_within within).1
  | static owned imported known => exact (Pools.addConstant_within within).1
  | boolean | null | clear => exact within
  | name found | field found => exact within
  | not part truth => exact part.within within
  | negate part numeric => exact part.within within
  | and leftPart leftTruth rightPart rightTruth decided =>
    exact leftPart.within (rightPart.within within)
  | or leftPart leftTruth rightPart rightTruth decided =>
    exact leftPart.within (rightPart.within within)
  | binary leftPart rightPart accepted => exact leftPart.within (rightPart.within within)
  | conditional testPart truth thenPlace thenPart elsePlace elsePart joined =>
    exact testPart.within (thenPart.within (elsePart.within within))
  | add parts accepted => exact parts.within within
  | row owned imported parts values => exact parts.within within
  | cursor owned imported parts accepted => exact parts.within within
  | getter other free part object read => exact part.within (Pools.addName_within within).1
  | method other free part has parts accepted => exact part.within (parts.within within)
  | cast named part castable => exact part.within within

/-- The code of several expressions only adds constants and names. -/
theorem LowersAll.within {scope : UnitScope} {locals : Locals} {start : Nat} {pools next : Pools}
    {terms : List Term} {types : List Ty} {ops : List Op} {unit : CompiledUnit}
    (rules : LowersAll scope locals start pools terms types ops next) (within : next.Within unit) :
    pools.Within unit := by
  cases rules with
  | nil => exact within
  | cons head tail => exact head.within (tail.within within)

end

/-! ## Memory -/

/-- Every field is unset or fits its type, and the cursors were made and advanced only. -/
structure Memory.Fits (memory : Memory) (fields : List FieldInfo) : Prop where
  fields : List.Forall₂
    (fun slot field => slot = .unset ∨ slot.Fits memory.cursors.length field.type)
    memory.fields fields
  cursors : ∀ cursor ∈ memory.cursors, cursor.Reachable

/-- The memory may follow another one: it fits, and no cursor is lost. -/
structure Follows (fields : List FieldInfo) (memory changed : Memory) : Prop where
  fits : changed.Fits fields
  more : memory.cursors.length ≤ changed.cursors.length

/-- Memory that fits follows itself. -/
theorem Memory.Fits.follows {memory : Memory} {fields : List FieldInfo}
    (fits : memory.Fits fields) : Follows fields memory memory :=
  ⟨fits, Nat.le_refl _⟩

/-- Memory follows step by step. -/
theorem Follows.trans {fields : List FieldInfo} {first second third : Memory}
    (left : Follows fields first second) (right : Follows fields second third) :
    Follows fields first third :=
  ⟨right.fits, Nat.le_trans left.more right.more⟩

/-- Memory with other cursors, and no fewer. -/
theorem Memory.Fits.withCursors {memory : Memory} {fields : List FieldInfo}
    (fits : memory.Fits fields) {cursors : List Cursor}
    (more : memory.cursors.length ≤ cursors.length)
    (reachable : ∀ cursor ∈ cursors, cursor.Reachable) :
    Follows fields memory { memory with cursors := cursors } := by
  refine ⟨⟨?_, reachable⟩, more⟩
  exact fits.fields.imp fun slot field held => held.imp_right fun fits => fits.mono more

/-- Memory with another batch. -/
theorem Memory.Fits.withBatch {memory : Memory} {fields : List FieldInfo}
    (fits : memory.Fits fields) (batch : RowBatch) :
    Follows fields memory { memory with batch := batch } :=
  ⟨⟨fits.fields, fits.cursors⟩, Nat.le_refl _⟩

/-- A number and type of a field. -/
theorem UnitScope.field?_eq_some {scope : UnitScope} {name : String} {index : Nat} {type : Ty}
    (found : scope.field? name = some (index, type)) :
    (scope.fields.findIdx? fun field => field.name == name) = some index ∧
      ∃ field, scope.fields[index]? = some field ∧ field.type = type := by
  unfold UnitScope.field? at found
  split at found
  · rename_i place seen
    simp only [Option.map_eq_some_iff, Prod.mk.injEq] at found
    obtain ⟨field, present, rfl, same⟩ := found
    exact ⟨seen, field, present, same⟩
  · cases found

/-- A field of memory that fits is there. -/
theorem Memory.Fits.field {memory : Memory} {fields : List FieldInfo} (fits : memory.Fits fields)
    {index : Nat} {field : FieldInfo} (present : fields[index]? = some field) :
    ∃ slot, memory.fields[index]? = some slot ∧
      (slot = .unset ∨ slot.Fits memory.cursors.length field.type) := by
  have same := fits.fields.length_eq
  obtain ⟨inside, here⟩ := List.getElem?_eq_some_iff.1 present
  refine ⟨_, List.getElem?_eq_getElem (same ▸ inside), ?_⟩
  have held := fits.fields.get (same ▸ inside) inside
  rw [List.get_eq_getElem, List.get_eq_getElem] at held
  rw [← here]
  exact held

/-- Setting a field to a slot that fits. -/
theorem Memory.Fits.setField {memory : Memory} {fields : List FieldInfo} (fits : memory.Fits fields)
    {index : Nat} {field : FieldInfo} {slot : Slot} (present : fields[index]? = some field)
    (stored : slot.Fits memory.cursors.length field.type) :
    Follows fields memory { memory with fields := memory.fields.set index slot } := by
  refine ⟨⟨?_, fits.cursors⟩, Nat.le_refl _⟩
  have same := fits.fields.length_eq
  rw [List.forall₂_iff_get]
  refine ⟨by simpa using same, fun other first second => ?_⟩
  simp only [List.get_eq_getElem, List.getElem_set]
  split
  · rename_i here
    subst here
    obtain ⟨inside, found⟩ := List.getElem?_eq_some_iff.1 present
    rw [found]
    exact .inr stored
  · exact (List.forall₂_iff_get.1 fits.fields).2 other (by simpa using first) second

/-! ## Locals -/

/-- A visible local has its content in the slot of its number, which fits its type. -/
def Holds (types : List Ty) (slots : List Slot) (cursorCount : Nat) (visible : String × Nat)
    (binding : String × Slot) : Prop :=
  binding.1 = visible.1 ∧ slots[visible.2]? = some binding.2 ∧
    ∃ type, types[visible.2]? = some type ∧ binding.2.Fits cursorCount type

/-- The slots of a frame hold what the visible locals hold in the tree. -/
def Mirrors (locals : Locals) (slots : List Slot) (cursorCount : Nat) (env : Env) : Prop :=
  List.Forall₂ (Holds locals.types slots cursorCount) locals.visible env

namespace Mirrors

variable {locals : Locals} {slots : List Slot} {cursorCount : Nat} {env : Env}

/-- More cursors do no harm. -/
theorem mono (mirrors : Mirrors locals slots cursorCount env) {more : Nat}
    (bound : cursorCount ≤ more) : Mirrors locals slots more env := by
  refine mirrors.imp fun visible binding => ?_
  rintro ⟨named, present, type, typed, fits⟩
  exact ⟨named, present, type, typed, fits.mono bound⟩

/-- A local that the compiler finds has a content. -/
theorem content (mirrors : Mirrors locals slots cursorCount env) {name : String} {number : Nat}
    {type : Ty} (found : locals.find? name = some (number, type)) :
    ∃ slot, env.content? name = some slot ∧ slots[number]? = some slot ∧
      slot.Fits cursorCount type := by
  obtain ⟨visible, types⟩ := locals
  unfold Mirrors at mirrors
  unfold Locals.find? at found
  simp only at mirrors found
  induction mirrors with
  | nil => cases found
  | @cons first binding others bindings held rest step =>
    obtain ⟨named, present, declared, typed, fits⟩ := held
    unfold Env.content?
    rw [List.find?_cons] at found ⊢
    rw [named]
    cases same : first.1 == name with
    | true =>
      simp only [same, typed, Option.map_some, Option.some.injEq, Prod.mk.injEq] at found
      obtain ⟨rfl, rfl⟩ := found
      exact ⟨binding.2, rfl, present, fits⟩
    | false =>
      rw [same] at found
      exact step found

/-- A local that the compiler does not find has no content. -/
theorem content_none (mirrors : Mirrors locals slots cursorCount env) {name : String}
    (missing : locals.find? name = none) : env.content? name = none := by
  obtain ⟨visible, types⟩ := locals
  unfold Mirrors at mirrors
  unfold Locals.find? at missing
  simp only at mirrors missing
  induction mirrors with
  | nil => rfl
  | @cons first binding others bindings held rest step =>
    obtain ⟨named, present, declared, typed, fits⟩ := held
    unfold Env.content?
    rw [List.find?_cons] at missing ⊢
    rw [named]
    cases same : first.1 == name with
    | true =>
      rw [same] at missing
      simp [typed] at missing
    | false =>
      rw [same] at missing
      exact step missing

/-- The tree and the compiler see the same owners of static members. -/
theorem staticOwner (mirrors : Mirrors locals slots cursorCount env) (term : Term) :
    env.staticOwner? term = staticOwner? locals term := by
  cases term with
  | name position name =>
    simp only [Env.staticOwner?, staticOwner?]
    cases found : locals.find? name with
    | none =>
      rw [mirrors.content_none found]
      rfl
    | some entry =>
      obtain ⟨slot, present, -⟩ := mirrors.content found
      rw [present]
      rfl
  | _ => rfl

end Mirrors

end QueryFusion.Script
