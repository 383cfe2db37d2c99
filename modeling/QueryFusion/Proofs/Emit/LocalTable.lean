import Mathlib.Data.List.Basic
import QueryFusion.Emit.LocalTable

/-!
# Map and order of the locals

The list of the locals in the order of their declaration says all about their table: looking up a
name is looking for it in the list, and a local that is added is its last. What was added since an
earlier state is drained from the order, and its names are removed from the map, by one cut.
-/

namespace QueryFusion.Emit

namespace LocalTable

/-! ## The list of the locals -/

/-- What is added enters map and order. -/
theorem add_eq {table : LocalTable} {entry : Local} (free : table.map entry.name = none) :
    (table.add entry).toRawLocals = table.push entry := by
  rw [add, dif_pos free]

/-- Tables of one map and one order are equal. -/
theorem ext {first second : LocalTable} (map : ∀ name, first.map name = second.map name)
    (order : first.order = second.order) : first = second := by
  obtain ⟨⟨firstMap, firstOrder⟩, firstStep⟩ := first
  obtain ⟨⟨secondMap, secondOrder⟩, secondStep⟩ := second
  obtain rfl : firstMap = secondMap := funext map
  obtain rfl : firstOrder = secondOrder := order
  rfl

/-- A local is in the list iff the map has it under its name. -/
theorem mem_toList {table : LocalTable} {entry : Local} :
    entry ∈ table.toList ↔ table.map entry.name = some entry := by
  rw [toList, List.mem_filterMap]
  constructor
  · rintro ⟨name, -, found⟩
    rwa [table.inStep.named name entry found]
  · intro found
    exact ⟨entry.name, (table.inStep.listed entry.name).2 (by simp [found]), found⟩

/-- The map has a local under a name iff it is the one of that name in the list. -/
theorem map_eq_some_iff {table : LocalTable} {name : String} {entry : Local} :
    table.map name = some entry ↔ entry ∈ table.toList ∧ entry.name = name := by
  constructor
  · intro found
    have named := table.inStep.named name entry found
    exact ⟨mem_toList.2 (named ▸ found), named⟩
  · rintro ⟨member, rfl⟩
    exact mem_toList.1 member

/-- A name is free iff no local of the list has it. -/
theorem map_eq_none_iff {table : LocalTable} {name : String} :
    table.map name = none ↔ ∀ entry ∈ table.toList, entry.name ≠ name := by
  rw [Option.eq_none_iff_forall_ne_some]
  constructor
  · intro free entry member named
    exact free entry (map_eq_some_iff.2 ⟨member, named⟩)
  · intro free entry found
    exact free entry (map_eq_some_iff.1 found).1 (map_eq_some_iff.1 found).2

/-- The names of the locals stand in their order. -/
theorem names_toList (table : LocalTable) : table.toList.map Local.name = table.order := by
  have own : ∀ name ∈ table.order, (table.map name).map Local.name = some name := by
    intro name listed
    obtain ⟨entry, found⟩ := Option.isSome_iff_exists.1 ((table.inStep.listed name).1 listed)
    rw [found, Option.map_some, table.inStep.named name entry found]
  rw [toList, List.map_filterMap, List.filterMap_congr own, List.filterMap_some]

/-- Other names keep what they have. -/
theorem map_add_of_ne {entry : Local} {name : String} (other : name ≠ entry.name)
    (table : LocalTable) : (table.add entry).map name = table.map name := by
  unfold add
  split
  · exact if_neg other
  · rfl

/-- A local whose name is free is the last of the list. -/
theorem toList_add {table : LocalTable} {entry : Local} (free : table.map entry.name = none) :
    (table.add entry).toList = table.toList ++ [entry] := by
  have unlisted := table.inStep.not_mem_order free
  have others : table.order.filterMap (table.map.insert entry) = table.order.filterMap table.map :=
    List.filterMap_congr fun name listed => by
      have other : name ≠ entry.name := fun same => unlisted (same ▸ listed)
      simp [LocalMap.insert, other]
  rw [toList, add_eq free]
  show (table.order ++ [entry.name]).filterMap (table.map.insert entry) = _
  rw [List.filterMap_append, others]
  simp [toList, LocalMap.insert]

/-- Nothing but the local is added to the list. -/
theorem mem_toList_add {table : LocalTable} {entry other : Local}
    (member : other ∈ (table.add entry).toList) : other ∈ table.toList ∨ other = entry := by
  by_cases free : table.map entry.name = none
  · rw [toList_add free, List.mem_append, List.mem_singleton] at member
    exact member
  · rw [add, dif_neg free] at member
    exact .inl member

/-! ## Going back -/

/-- The second table has more names behind those of the first, and the same locals under those. -/
structure Grows (first second : LocalTable) : Prop where
  order : first.order <+: second.order
  kept : ∀ name ∈ first.order, second.map name = first.map name

namespace Grows

variable {first second third : LocalTable}

/-- Nothing is added. -/
theorem refl (table : LocalTable) : Grows table table :=
  ⟨List.prefix_rfl, fun _ _ => rfl⟩

/-- More is added. -/
theorem trans (former : Grows first second) (later : Grows second third) : Grows first third where
  order := former.order.trans later.order
  kept name listed :=
    (later.kept name (former.order.subset listed)).trans (former.kept name listed)

/-- One more local. -/
theorem add (entry : Local) (table : LocalTable) : Grows table (table.add entry) := by
  by_cases free : table.map entry.name = none
  · have unlisted := table.inStep.not_mem_order free
    refine ⟨?_, fun name listed => map_add_of_ne (fun same => unlisted (same ▸ listed)) table⟩
    rw [add_eq free]
    exact List.prefix_append _ _
  · rw [LocalTable.add, dif_neg free]
    exact refl table

/-- What was added is drained from the order and removed from the map. -/
theorem truncate_eq (grown : Grows first second) : second.truncate first.order.length = first := by
  have order : second.order.take first.order.length = first.order :=
    (List.prefix_iff_eq_take.1 grown.order).symm
  refine ext (fun name => ?_) ((RawLocals.order_truncate _ _).trans order)
  refine (second.inStep.map_truncate _ name).trans ?_
  rw [order]
  split
  · exact grown.kept name ‹_›
  · rename_i unlisted
    have free : first.map name = none := by simpa [first.inStep.listed] using unlisted
    exact free.symm

end Grows

end LocalTable

end QueryFusion.Emit
