import Mathlib.Data.List.Induction
import Mathlib.Logic.Function.Iterate
import QueryFusion.Proofs.Store.Lookup

/-!
# Visiting entries

Puts keep count of the entries, and in each partition the keys stand in the order in which they were
put first. A cursor visits the entries of its partitions in order, each once. Behind the last one it
stays: every further step finds nothing, and no key or value can be read.
-/

namespace QueryFusion

/-! ## Counting -/

namespace EntryMap

variable {map : EntryMap}

/-- The number of entries in all partitions. -/
def total (map : EntryMap) : Nat :=
  map.partitions.flatten.length

/-- Replacing keeps the number of entries. -/
theorem length_replace (key value : Value) (entries : List Entry) :
    (replace key value entries).length = entries.length := by
  have keys := congrArg List.length (keys_replace key value entries)
  rwa [List.length_map, List.length_map] at keys

/-- The total changes by what is added to one partition. -/
theorem length_flatten_set {partitions : List (List Entry)} {id added : Nat} {entries : List Entry}
    (inside : id < partitions.length)
    (grown : entries.length = (partitions.getD id []).length + added) :
    (partitions.set id entries).flatten.length = partitions.flatten.length + added := by
  induction partitions generalizing id with
  | nil => cases inside
  | cons first others step =>
    cases id with
    | zero =>
      rw [List.getD_cons_zero] at grown
      simp only [List.set_cons_zero, List.flatten_cons, List.length_append, grown]
      omega
    | succ id =>
      rw [List.getD_cons_succ] at grown
      have later := step (Nat.lt_of_succ_lt_succ inside) grown
      simp only [List.set_cons_succ, List.flatten_cons, List.length_append, later]
      omega

/-- A put keeps count of the entries. -/
theorem count_put [Hasher] (split : 0 < map.partitionCount) (counted : map.count = map.total)
    (key value : Value) : (map.put key value).2.count = (map.put key value).2.total := by
  have inside : map.partitionOf key < map.partitions.length := map.partitionOf_lt key split
  simp only [put]
  split
  · have same := length_replace key value (map.partition (map.partitionOf key))
    have kept := length_flatten_set inside (same.trans (Nat.add_zero _).symm)
    exact counted.trans kept.symm
  · have grown : (map.partition (map.partitionOf key) ++ [(key, value)]).length =
        (map.partitions.getD (map.partitionOf key) []).length + 1 := List.length_append
    have more := length_flatten_set inside grown
    exact (congrArg (· + 1) counted).trans more.symm

/-- Puts keep count of the entries. -/
theorem count_putAll [Hasher] {entries : List Entry} (split : 0 < map.partitionCount)
    (counted : map.count = map.total) :
    (map.putAll entries).count = (map.putAll entries).total := by
  induction entries generalizing map with
  | nil => exact counted
  | cons entry rest step =>
    exact step (by rwa [partitionCount_put]) (count_put split counted entry.1 entry.2)

/-- A new map has no entries. -/
theorem count_empty (name : String) (count : Nat) :
    (empty name count).count = (empty name count).total := by
  simp [empty, total]

/-! ## Order of the keys -/

/-- The keys behind a put: a key is added unless an equal one is there. -/
theorem keys_putInto (key value : Value) (entries : List Entry) :
    (putInto key value entries).map (·.1) =
      if (entries.map (·.1)).any (key.same ·) then entries.map (·.1)
      else entries.map (·.1) ++ [key] := by
  rw [putInto]
  split
  · rename_i previous found
    have known : (entries.map (·.1)).any (key.same ·) = true := by
      rw [lookup?, Option.map_eq_some_iff] at found
      obtain ⟨entry, found, -⟩ := found
      have equal : entry.1.same key = true := by simpa using List.find?_some found
      rw [Value.same_comm] at equal
      exact List.any_eq_true.2
        ⟨entry.1, List.mem_map_of_mem (List.mem_of_find?_eq_some found), equal⟩
    rw [if_pos known, keys_replace]
  · rename_i missing
    have unknown : (entries.map (·.1)).any (key.same ·) = false := by
      rw [List.any_eq_false, List.forall_mem_map]
      intro entry member
      rw [Value.same_comm, lookup?_eq_none_iff.1 missing entry member]
      exact Bool.false_ne_true
    rw [unknown, List.map_append]
    rfl

/-- One more element is kept unless it equals one that is kept already. -/
theorem eraseDupsBy_concat {α : Type} (equal : α → α → Bool) (items : List α) (last : α) :
    (items ++ [last]).eraseDupsBy equal =
      if (items.eraseDupsBy equal).any (equal last) then items.eraseDupsBy equal
      else items.eraseDupsBy equal ++ [last] := by
  suffices general : ∀ seen : List α, List.eraseDupsBy.loop equal (items ++ [last]) seen =
      if (List.eraseDupsBy.loop equal items seen).any (equal last) then
        List.eraseDupsBy.loop equal items seen
      else List.eraseDupsBy.loop equal items seen ++ [last] from general []
  induction items with
  | nil =>
    intro seen
    simp only [List.nil_append, List.eraseDupsBy.loop, List.any_reverse]
    cases seen.any (equal last) <;> simp
  | cons item rest step =>
    intro seen
    simp only [List.cons_append, List.eraseDupsBy.loop]
    by_cases known : seen.any (equal item) = true
    · simp only [known]
      exact step seen
    · simp only [Bool.eq_false_iff.2 known]
      exact step (item :: seen)

/-- In each partition the keys stand in the order in which they were put first. -/
theorem keys_partition_putAll [Hasher] (name : String) (count : Nat) (entries : List Entry)
    (id : Nat) :
    (((empty name count).putAll entries).partition id).map (·.1) =
      ((entries.map (·.1)).filter fun key =>
        (empty name count).partitionOf key = id).eraseDupsBy Value.same := by
  induction entries using List.reverseRecOn with
  | nil =>
    have none : (empty name count).putAll [] = empty name count := rfl
    rw [none, partition_empty]
    rfl
  | append_singleton rest entry step =>
    have split : 0 < ((empty name count).putAll rest).partitionCount :=
      ((Orderly.empty (fun _ => True) name count).putAll fun _ _ => trivial).split
    have last : (empty name count).putAll (rest ++ [entry]) =
        (((empty name count).putAll rest).put entry.1 entry.2).2 := by
      rw [putAll, List.foldl_append]
      rfl
    rw [last, partition_put split, partitionOf_putAll, List.map_append, List.filter_append]
    by_cases owns : (empty name count).partitionOf entry.1 = id
    · have kept : ([entry].map (·.1)).filter (fun key =>
          (empty name count).partitionOf key = id) = [entry.1] := by simp [owns]
      rw [if_pos owns, keys_putInto, step, kept, eraseDupsBy_concat]
    · have dropped : ([entry].map (·.1)).filter (fun key =>
          (empty name count).partitionOf key = id) = [] := by simp [owns]
      rw [if_neg owns, step, dropped, List.append_nil]

end EntryMap

/-! ## Steps of a cursor -/

namespace Cursor

/-- A cursor that was made and advanced, and nothing else. -/
inductive Reachable : Cursor → Prop
  | start (map : EntryMap) (parts : PartitionSet) : Reachable (.start map parts)
  | advance {cursor : Cursor} (before : Reachable cursor) : Reachable cursor.advance.2

/-- The error of a cursor that stands on no entry. -/
def notPositioned : Error :=
  .internal "map scan iterator is not positioned"

/-- A reachable cursor that fails to read an entry stands on none. -/
theorem Reachable.current_eq {cursor : Cursor} (reachable : cursor.Reachable)
    {error : Error} (failed : cursor.current = .error error) : error = notPositioned := by
  cases reachable with
  | start map parts =>
    cases failed
    rfl
  | @advance cursor before =>
    cases moved : cursor.advance.1 with
    | true =>
      obtain ⟨entry, found, -⟩ := rest_eq_current_cons moved
      rw [found] at failed
      cases failed
    | false =>
      have resting : cursor.advance.2.positioned = false := moved
      simp only [current, resting, Bool.false_eq_true, if_false] at failed
      cases failed
      rfl

/-- The cursor after some steps. -/
def moved (cursor : Cursor) (steps : Nat) : Cursor :=
  (fun cursor => cursor.advance.2)^[steps] cursor

/-- A step leaves the entries behind the first one. -/
theorem rest_advance (cursor : Cursor) : cursor.advance.2.rest = cursor.rest.tail := by
  cases follow : cursor.rest with
  | nil => rw [(advance_of_rest_nil follow).2, List.tail_nil]
  | cons entry entries => rw [(advance_of_rest_cons follow).2.2, List.tail_cons]

/-- Steps leave the entries behind those they pass. -/
theorem rest_moved (cursor : Cursor) (steps : Nat) :
    (cursor.moved steps).rest = cursor.rest.drop steps := by
  induction steps with
  | zero => rfl
  | succ steps step =>
    rw [moved, Function.iterate_succ_apply', rest_advance]
    change (cursor.moved steps).rest.tail = _
    rw [step, List.tail_drop]

/-- What is read of a cursor that stands on one of some entries, or behind them. -/
def reading (entries : List Entry) (index : Nat) : Except Error Entry :=
  match entries[index]? with
  | some entry => .ok entry
  | none => .error notPositioned

/-- A step stands on the first entry that follows, and on none when there is none. -/
theorem current_advance (cursor : Cursor) :
    cursor.advance.2.current = reading cursor.rest 0 := by
  cases follow : cursor.rest with
  | nil =>
    have resting : cursor.advance.2.positioned = false := (advance_of_rest_nil follow).1
    simp only [current, resting, Bool.false_eq_true, if_false]
    rfl
  | cons entry entries => exact (advance_of_rest_cons follow).2.1

/-- The steps of a cursor: each finds the next entry, up to the last one. -/
theorem advance_moved (cursor : Cursor) (steps : Nat) :
    ((cursor.moved steps).advance.1 = true ↔ steps < cursor.rest.length) ∧
      (cursor.moved steps).advance.2.current = reading cursor.rest steps := by
  refine ⟨?_, ?_⟩
  · rw [advance_fst_iff, rest_moved, ne_eq, List.drop_eq_nil_iff, Nat.not_le]
  · rw [current_advance, rest_moved, reading, List.getElem?_drop, Nat.add_zero, reading]

end Cursor

namespace EntryMap

/-- A scan visits every entry of its partitions once, whichever hasher tells the owners. After any
puts the map has counted its entries, each lies in the partition that owns its key, and in each
partition unequal keys stand in the order of their first put. A set of partitions holds the given
ids once and in order. A cursor over such a set finds one entry with each step, partition by
partition, and nothing behind the last one. -/
theorem scan_visits_once [Hasher] (name : String) (count : Nat) (entries : List Entry)
    (ids : List Nat) :
    let map := (empty name count).putAll entries
    let parts := PartitionSet.ofList ids
    let selected := (parts.ids.filter fun id => id < map.partitionCount).flatMap map.partition
    (map.count = map.partitions.flatten.length ∧ ∀ id,
      (∀ entry ∈ map.partition id, map.partitionOf entry.1 = id) ∧
      (map.partition id).Pairwise Distinct ∧
      (map.partition id).map (·.1) = ((entries.map (·.1)).filter fun key =>
        map.partitionOf key = id).eraseDupsBy Value.same) ∧
    (parts.ids.Pairwise (· < ·) ∧ ∀ id,
      (id ∈ parts.ids ↔ id ∈ ids) ∧ (parts.contains id = true ↔ id ∈ ids)) ∧
    ∀ steps, ((((Cursor.start map parts).moved steps).advance.1 = true ↔ steps < selected.length) ∧
      ((Cursor.start map parts).moved steps).advance.2.key =
        (Cursor.reading selected steps).map (·.1) ∧
      ((Cursor.start map parts).moved steps).advance.2.value =
        (Cursor.reading selected steps).map (·.2)) := by
  intro map parts selected
  have orderly : Orderly (fun _ => True) map :=
    (Orderly.empty _ name count).putAll fun _ _ => trivial
  have follow : (Cursor.start map parts).rest = selected := Cursor.rest_start map parts
  refine ⟨⟨?_, fun id => ⟨orderly.owned id, orderly.distinct id, ?_⟩⟩,
    ⟨parts.ascending, fun id => ?_⟩, fun steps => ?_⟩
  · exact count_putAll (partitionCount_empty_pos name count) (count_empty name count)
  · have owners : ∀ key, map.partitionOf key = (empty name count).partitionOf key :=
      partitionOf_putAll _ entries
    simp only [owners]
    exact keys_partition_putAll name count entries id
  · have members := PartitionSet.mem_ofList id ids
    exact ⟨members, (parts.contains_iff id).trans members⟩
  · have visited := (Cursor.start map parts).advance_moved steps
    rw [follow] at visited
    exact ⟨visited.1, by rw [Cursor.key, visited.2], by rw [Cursor.value, visited.2]⟩

end EntryMap

end QueryFusion
