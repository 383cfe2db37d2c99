import QueryFusion.Emit.Local

/-!
# The locals of a routine

A routine finds its locals by name in a map, and keeps the names in the order of their declaration
beside it. A local enters both. Going back cuts the order and takes each name behind the cut out of
the map, so that the two stay in step; a table of locals carries the proof that they are.
-/

namespace QueryFusion.Emit

/-- Locals by name. -/
abbrev LocalMap := String → Option Local

namespace LocalMap

/-- The map with a local under its name, in place of one that was there. -/
def insert (entry : Local) (map : LocalMap) : LocalMap :=
  fun name => if name = entry.name then some entry else map name

/-- The map without a name. -/
def remove (map : LocalMap) (gone : String) : LocalMap :=
  fun name => if name = gone then none else map name

/-- Names are removed one after another. -/
theorem foldl_remove (gone : List String) (map : LocalMap) (name : String) :
    gone.foldl remove map name = if name ∈ gone then none else map name := by
  induction gone generalizing map with
  | nil => simp
  | cons first rest step =>
    rw [List.foldl_cons, step]
    by_cases later : name ∈ rest
    · simp [later]
    · by_cases same : name = first
      · simp [remove, same]
      · simp [remove, later, same]

end LocalMap

/-- The map of the locals, and their names in the order of declaration. -/
structure RawLocals where
  map : LocalMap
  order : List String

namespace RawLocals

variable {locals : RawLocals}

/-- Puts a local into the map, and its name behind the others. -/
def push (entry : Local) (locals : RawLocals) : RawLocals :=
  ⟨locals.map.insert entry, locals.order ++ [entry.name]⟩

/-- Drains the names behind the first ones, and removes each of them from the map. -/
def truncate (count : Nat) (locals : RawLocals) : RawLocals :=
  if count < locals.order.length then
    ⟨(locals.order.drop count).foldl LocalMap.remove locals.map, locals.order.take count⟩
  else locals

/-- The order has each name of the map once, and the map has each local under its own name. -/
structure InStep (locals : RawLocals) : Prop where
  once : locals.order.Nodup
  listed : ∀ name, name ∈ locals.order ↔ (locals.map name).isSome
  named : ∀ name entry, locals.map name = some entry → entry.name = name

/-- A name that the map does not have is not in the order. -/
theorem InStep.not_mem_order (inStep : locals.InStep) {name : String}
    (free : locals.map name = none) : name ∉ locals.order := by
  rw [inStep.listed, free]
  simp

/-- A local whose name is free keeps map and order in step. -/
theorem InStep.push (inStep : locals.InStep) {entry : Local}
    (free : locals.map entry.name = none) : (locals.push entry).InStep where
  once := by
    have unlisted := inStep.not_mem_order free
    refine List.nodup_append.2 ⟨inStep.once, by simp, ?_⟩
    rintro name listed other single rfl
    exact unlisted (List.mem_singleton.1 single ▸ listed)
  listed name := by
    by_cases same : name = entry.name
    · simp [RawLocals.push, LocalMap.insert, same]
    · simp [RawLocals.push, LocalMap.insert, same, inStep.listed]
  named name other found := by
    simp only [RawLocals.push, LocalMap.insert] at found
    split at found
    · rename_i same
      rw [← Option.some.inj found, same]
    · exact inStep.named name other found

/-- Where the order is cut, the map keeps the names before the cut. -/
theorem InStep.map_truncate (inStep : locals.InStep) (count : Nat) (name : String) :
    (locals.truncate count).map name =
      if name ∈ locals.order.take count then locals.map name else none := by
  have parts : name ∈ locals.order.take count ∨ name ∈ locals.order.drop count ↔
      name ∈ locals.order := by
    rw [← List.mem_append, List.take_append_drop]
  unfold truncate
  split
  · have apart := inStep.once
    rw [← List.take_append_drop count locals.order, List.nodup_append] at apart
    show (locals.order.drop count).foldl LocalMap.remove locals.map name = _
    rw [LocalMap.foldl_remove]
    by_cases kept : name ∈ locals.order.take count
    · have undrained : name ∉ locals.order.drop count := fun drained =>
        apart.2.2 name kept name drained rfl
      rw [if_neg undrained, if_pos kept]
    · rw [if_neg kept]
      split
      · rfl
      · rename_i undrained
        have unlisted : name ∉ locals.order := fun listed => (parts.2 listed).elim kept undrained
        simpa [inStep.listed] using unlisted
  · rename_i short
    rw [List.take_of_length_le (Nat.le_of_not_lt short)]
    split
    · rfl
    · rename_i unlisted
      simpa [inStep.listed] using unlisted

/-- What is left of the order. -/
theorem order_truncate (count : Nat) (locals : RawLocals) :
    (locals.truncate count).order = locals.order.take count := by
  unfold truncate
  split
  · rfl
  · rename_i short
    exact (List.take_of_length_le (Nat.le_of_not_lt short)).symm

/-- A cut keeps map and order in step. -/
theorem InStep.truncate (inStep : locals.InStep) (count : Nat) :
    (locals.truncate count).InStep where
  once := by
    rw [order_truncate]
    exact inStep.once.sublist (List.take_sublist count locals.order)
  listed name := by
    rw [order_truncate, inStep.map_truncate]
    split
    · rename_i kept
      exact ⟨fun _ => (inStep.listed name).1 (List.mem_of_mem_take kept), fun _ => kept⟩
    · rename_i cut
      simp [cut]
  named name entry found := by
    rw [inStep.map_truncate] at found
    split at found
    · exact inStep.named name entry found
    · simp at found

end RawLocals

/-- A map of locals and their order, in step. -/
structure LocalTable extends RawLocals where
  inStep : toRawLocals.InStep

namespace LocalTable

/-- No local. -/
def empty : LocalTable :=
  ⟨⟨fun _ => none, []⟩, List.nodup_nil, by simp, by simp⟩

instance : Inhabited LocalTable := ⟨empty⟩

/-- The table with one more local, whose name must be free; otherwise nothing is added. -/
def add (entry : Local) (table : LocalTable) : LocalTable :=
  if free : table.map entry.name = none then ⟨table.push entry, table.inStep.push free⟩ else table

/-- The table of the first locals. -/
def truncate (count : Nat) (table : LocalTable) : LocalTable :=
  ⟨table.toRawLocals.truncate count, table.inStep.truncate count⟩

/-- The locals in the order of their declaration. -/
def toList (table : LocalTable) : List Local :=
  table.order.filterMap table.map

end LocalTable

end QueryFusion.Emit
