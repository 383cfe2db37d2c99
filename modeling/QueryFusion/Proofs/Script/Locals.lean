import QueryFusion.Proofs.Script.BlockRules
import QueryFusion.Proofs.Script.Expressions

/-!
# Locals along statements

Statements add locals, each with a number of its own; behind a block its locals are hidden, but
their numbers stay taken. The slots of a frame keep mirroring the locals of the tree when a local is
declared, when it is assigned, and when a block ends.
-/

namespace QueryFusion.Script

/-- Every visible local has a number of its own, and a type. -/
structure Locals.Valid (locals : Locals) : Prop where
  distinct : (locals.visible.map (·.2)).Nodup
  typed : ∀ entry ∈ locals.visible, entry.2 < locals.types.length

/-- The locals at a later place, where more may be visible. -/
structure Locals.Extends (inner outer : Locals) : Prop where
  visible : outer.visible <:+ inner.visible
  types : outer.types <+: inner.types

namespace Locals

/-- Locals extend themselves. -/
theorem Extends.refl (locals : Locals) : locals.Extends locals :=
  ⟨List.suffix_refl _, List.prefix_refl _⟩

/-- Locals extend each other step by step. -/
theorem Extends.trans {first second third : Locals} (left : third.Extends second)
    (right : second.Extends first) : third.Extends first :=
  ⟨right.visible.trans left.visible, right.types.trans left.types⟩

/-- The end of a block hides its locals but keeps their numbers. -/
theorem Extends.hide {outer inner : Locals} (extended : inner.Extends outer) :
    (⟨outer.visible, inner.types⟩ : Locals).Extends outer :=
  ⟨List.suffix_refl _, extended.types⟩

/-- Hiding the locals of a block keeps the others valid. -/
theorem Valid.hide {outer inner : Locals} (valid : outer.Valid) (extended : inner.Extends outer) :
    (⟨outer.visible, inner.types⟩ : Locals).Valid :=
  ⟨valid.distinct, fun entry member =>
    Nat.lt_of_lt_of_le (valid.typed entry member) extended.types.length_le⟩

/-- Declaring a local. -/
theorem Valid.declare {locals : Locals} (valid : locals.Valid) (name : String) (type : Ty) :
    (⟨(name, locals.types.length) :: locals.visible, locals.types ++ [type]⟩ : Locals).Valid := by
  constructor
  · rw [List.map_cons, List.nodup_cons]
    refine ⟨fun member => ?_, valid.distinct⟩
    obtain ⟨entry, present, same⟩ := List.mem_map.1 member
    exact absurd (valid.typed entry present) (by simp [same])
  · intro entry member
    rw [List.length_append, List.length_singleton]
    rcases List.mem_cons.1 member with rfl | old
    · exact Nat.lt_succ_self _
    · exact Nat.lt_succ_of_lt (valid.typed entry old)

/-- A declared local comes on top. -/
theorem Extends.declare (locals : Locals) (name : String) (type : Ty) :
    (⟨(name, locals.types.length) :: locals.visible, locals.types ++ [type]⟩ :
      Locals).Extends locals :=
  ⟨List.suffix_cons _ _, List.prefix_append _ _⟩

end Locals

mutual

/-- Statements only add locals. -/
theorem LowersStmt.locals_extend {scope : RoutineScope} {start : Nat} {locals : Locals}
    {pools : Pools} {statement : Stmt} {block : LoweredBlock}
    (rule : LowersStmt scope start locals pools statement block) (valid : locals.Valid) :
    block.locals.Extends locals ∧ block.locals.Valid := by
  match rule with
  | .declare named part assignable fresh => exact ⟨.declare _ _ _, valid.declare _ _⟩
  | .setField found part assignable => exact ⟨.refl _, valid⟩
  | .setLocal found part assignable => exact ⟨.refl _, valid⟩
  | .branch part truth thenPlace thenPart =>
    have extended := (thenPart.locals_extend valid).1
    exact ⟨extended.hide, valid.hide extended⟩
  | .choose part truth thenPlace thenPart elsePlace elsePart =>
    have first := (thenPart.locals_extend valid).1
    have second := (elsePart.locals_extend (valid.hide first)).1
    exact ⟨second.hide.trans first.hide, (valid.hide first).hide second⟩
  | .loop part truth bodyPlace bodyPart endPlace =>
    have extended := (bodyPart.locals_extend valid).1
    exact ⟨extended.hide, valid.hide extended⟩
  | .proceed inside => exact ⟨.refl _, valid⟩
  | .leave inside => exact ⟨.refl _, valid⟩
  | .finish without => exact ⟨.refl _, valid⟩
  | .answer wanted part assignable => exact ⟨.refl _, valid⟩
  | .perform called part => exact ⟨.refl _, valid⟩

/-- Statements one after another only add locals. -/
theorem LowersBlock.locals_extend {scope : RoutineScope} {start : Nat} {locals : Locals}
    {pools : Pools} {statements : List Stmt} {block : LoweredBlock}
    (rules : LowersBlock scope start locals pools statements block) (valid : locals.Valid) :
    block.locals.Extends locals ∧ block.locals.Valid := by
  match rules with
  | .nil => exact ⟨.refl _, valid⟩
  | .cons head tail =>
    obtain ⟨first, valid⟩ := head.locals_extend valid
    obtain ⟨others, valid⟩ := tail.locals_extend valid
    exact ⟨others.trans first, valid⟩

end

mutual

/-- Statements only add constants and names. -/
theorem LowersStmt.within {scope : RoutineScope} {start : Nat} {locals : Locals} {pools : Pools}
    {statement : Stmt} {block : LoweredBlock}
    (rule : LowersStmt scope start locals pools statement block)
    {unit : CompiledUnit} (within : block.pools.Within unit) : pools.Within unit := by
  match rule with
  | .declare named part assignable fresh => exact part.within within
  | .setField found part assignable => exact part.within within
  | .setLocal found part assignable => exact part.within within
  | .branch part truth thenPlace thenPart => exact part.within (thenPart.within within)
  | .choose part truth thenPlace thenPart elsePlace elsePart =>
    exact part.within (thenPart.within (elsePart.within within))
  | .loop part truth bodyPlace bodyPart endPlace => exact part.within (bodyPart.within within)
  | .proceed inside => exact within
  | .leave inside => exact within
  | .finish without => exact within
  | .answer wanted part assignable => exact part.within within
  | .perform called part => exact part.within within

/-- Statements one after another only add constants and names. -/
theorem LowersBlock.within {scope : RoutineScope} {start : Nat} {locals : Locals} {pools : Pools}
    {statements : List Stmt} {block : LoweredBlock}
    (rules : LowersBlock scope start locals pools statements block)
    {unit : CompiledUnit} (within : block.pools.Within unit) : pools.Within unit := by
  match rules with
  | .nil => exact within
  | .cons head tail => exact head.within (tail.within within)

end

namespace Mirrors

variable {locals inner : Locals} {slots : List Slot} {cursorCount : Nat} {env : Env}

/-- Each visible local has one content. -/
theorem length_eq (mirrors : Mirrors locals slots cursorCount env) :
    locals.visible.length = env.length :=
  List.Forall₂.length_eq mirrors

/-- Later declarations do not change what is visible. -/
theorem grow (mirrors : Mirrors locals slots cursorCount env) {types : List Ty}
    (more : locals.types <+: types) : Mirrors ⟨locals.visible, types⟩ slots cursorCount env := by
  refine List.Forall₂.imp (fun visible binding => ?_) mirrors
  rintro ⟨named, present, type, typed, fits⟩
  exact ⟨named, present, type, Pools.getElem?_of_prefix more typed, fits⟩

/-- The locals of a block are gone behind it. -/
theorem restore (mirrors : Mirrors inner slots cursorCount env) (extended : inner.Extends locals)
    (valid : locals.Valid) {outer : Env} (size : locals.visible.length = outer.length) :
    Mirrors locals slots cursorCount (env.restore outer) := by
  obtain ⟨added, split⟩ := extended.visible
  have dropped : Mirrors ⟨locals.visible, inner.types⟩ slots cursorCount (env.restore outer) := by
    have count : env.length - outer.length = added.length := by
      rw [← mirrors.length_eq, ← split, List.length_append]
      omega
    have rest := List.forall₂_drop added.length mirrors
    rwa [← split, List.drop_left, ← count] at rest
  -- the numbers of the outer locals were given before the block
  unfold Mirrors at dropped ⊢
  rw [List.forall₂_iff_get] at dropped ⊢
  refine ⟨dropped.1, fun index first second => ?_⟩
  obtain ⟨named, present, type, typed, fits⟩ := dropped.2 index first second
  refine ⟨named, present, type, ?_, fits⟩
  have early := valid.typed _ (List.get_mem locals.visible ⟨index, first⟩)
  obtain ⟨later, whole⟩ := extended.types
  rw [← whole, List.getElem?_append_left early] at typed
  exact typed

/-- A slot of another number does not matter. -/
theorem set_other (mirrors : Mirrors locals slots cursorCount env) {number : Nat}
    (other : ∀ entry ∈ locals.visible, entry.2 ≠ number) (slot : Slot) :
    Mirrors locals (slots.set number slot) cursorCount env := by
  unfold Mirrors at mirrors ⊢
  rw [List.forall₂_iff_get] at mirrors ⊢
  refine ⟨mirrors.1, fun index first second => ?_⟩
  obtain ⟨named, present, typed⟩ := mirrors.2 index first second
  refine ⟨named, ?_, typed⟩
  rw [List.getElem?_set_ne]
  · exact present
  · exact fun same => other _ (List.get_mem locals.visible ⟨index, first⟩) same.symm

/-- Declaring a local and storing its first content. -/
theorem declare (mirrors : Mirrors locals slots cursorCount env) (valid : locals.Valid)
    {type : Ty} {slot : Slot} (room : locals.types.length < slots.length)
    (fits : slot.Fits cursorCount type) (name : String) :
    Mirrors ⟨(name, locals.types.length) :: locals.visible, locals.types ++ [type]⟩
      (slots.set locals.types.length slot) cursorCount ((name, slot) :: env) := by
  refine .cons ⟨rfl, ?_, type, by simp, fits⟩ ?_
  · rw [List.getElem?_set_self room]
  · refine (mirrors.grow (List.prefix_append _ _)).set_other (fun entry member => ?_) slot
    exact Nat.ne_of_lt (valid.typed entry member)

/-- Storing another content of a visible local. -/
theorem assign (mirrors : Mirrors locals slots cursorCount env)
    (distinct : (locals.visible.map (·.2)).Nodup) {name : String} {number : Nat} {type : Ty}
    {slot : Slot} (found : locals.find? name = some (number, type))
    (fits : slot.Fits cursorCount type) :
    Mirrors locals (slots.set number slot) cursorCount (env.assign name slot) := by
  obtain ⟨visible, types⟩ := locals
  unfold Locals.find? at found
  unfold Mirrors at mirrors ⊢
  simp only at mirrors found distinct ⊢
  induction mirrors with
  | nil => cases found
  | @cons first binding others bindings held rest step =>
    rw [List.map_cons, List.nodup_cons] at distinct
    rw [List.find?_cons] at found
    obtain ⟨named, present, declared, typed, fitting⟩ := held
    unfold Env.assign
    rw [named]
    cases same : first.1 == name with
    | true =>
      simp only [same, typed, Option.map_some, Option.some.injEq, Prod.mk.injEq] at found
      obtain ⟨rfl, rfl⟩ := found
      rw [if_pos rfl]
      refine .cons ⟨rfl, ?_, declared, typed, fits⟩ ?_
      · rw [List.getElem?_set_self (List.getElem?_eq_some_iff.1 present).1]
      · have kept : Mirrors ⟨others, types⟩ slots cursorCount bindings := rest
        refine kept.set_other (fun entry member sameNumber => ?_) slot
        exact distinct.1 (List.mem_map.2 ⟨entry, member, sameNumber⟩)
    | false =>
      rw [same] at found
      rw [if_neg (by simp)]
      refine .cons ⟨named, ?_, declared, typed, fitting⟩ (step distinct.2 found)
      rw [List.getElem?_set_ne]
      · exact present
      · rintro rfl
        refine distinct.1 ?_
        split at found
        · rename_i entry seen
          simp only [Option.map_eq_some_iff, Prod.mk.injEq] at found
          obtain ⟨-, -, sameNumber, -⟩ := found
          exact List.mem_map.2 ⟨_, List.mem_of_find?_eq_some seen, sameNumber⟩
        · cases found

end Mirrors

end QueryFusion.Script
