import QueryFusion.Row
import QueryFusion.Store.PartitionSet

/-!
# Partitioned maps

A named map from keys to values. The hash of a key decides which partition owns it; within a
partition entries keep the order of their first insertion, and a second value for an equal key
replaces the first in its place.
-/

namespace QueryFusion

/-- A key with its value. -/
abbrev Entry := Value × Value

/-- A map split into partitions. -/
structure EntryMap where
  name : String
  partitions : List (List Entry)
  /-- Number of entries. -/
  count : Nat
  deriving Inhabited

namespace EntryMap

/-- The number of partitions unless another one is asked for. -/
def defaultPartitionCount : Nat := 271

/-- The map without entries; it has at least one partition. -/
def empty (name : String) (partitionCount : Nat) : EntryMap :=
  ⟨name, List.replicate (max partitionCount 1) [], 0⟩

/-- Number of partitions. -/
def partitionCount (map : EntryMap) : Nat :=
  map.partitions.length

/-- The partition that owns a key. -/
def partitionOf [Hasher] (map : EntryMap) (key : Value) : Nat :=
  key.hash.toNat % map.partitionCount

/-- A new map has a partition. -/
theorem partitionCount_empty_pos (name : String) (count : Nat) :
    0 < (empty name count).partitionCount := by
  simp only [empty, partitionCount, List.length_replicate]
  omega

/-- A map with a partition has one for every key. -/
theorem partitionOf_lt [Hasher] (map : EntryMap) (key : Value) (split : 0 < map.partitionCount) :
    map.partitionOf key < map.partitionCount :=
  Nat.mod_lt _ split

/-- The entries of a partition; there are none in a partition that the map does not have. -/
def partition (map : EntryMap) (id : Nat) : List Entry :=
  map.partitions.getD id []

/-- The value of the first equal key. -/
def lookup? (entries : List Entry) (key : Value) : Option Value :=
  (entries.find? fun entry => entry.1.same key).map (·.2)

/-- Replaces the value of the first equal key. -/
def replace (key value : Value) : List Entry → List Entry
  | [] => []
  | entry :: rest =>
    if entry.1.same key then (entry.1, value) :: rest else entry :: replace key value rest

/-- Sets the value of a key and hands out the previous one. -/
def put [Hasher] (map : EntryMap) (key value : Value) : Option Value × EntryMap :=
  let id := map.partitionOf key
  let entries := map.partition id
  match lookup? entries key with
  | some previous =>
    (some previous, { map with partitions := map.partitions.set id (replace key value entries) })
  | none =>
    (none, { map with
      partitions := map.partitions.set id (entries ++ [(key, value)])
      count := map.count + 1 })

/-- Sets one key after another. -/
def putAll [Hasher] (map : EntryMap) (entries : List Entry) : EntryMap :=
  entries.foldl (fun current entry => (current.put entry.1 entry.2).2) map

/-- The value of a key. -/
def get? [Hasher] (map : EntryMap) (key : Value) : Option Value :=
  lookup? (map.partition (map.partitionOf key)) key

/-- Setting a key hands out what was found under it before. -/
theorem put_fst [Hasher] (map : EntryMap) (key value : Value) :
    (map.put key value).1 = map.get? key := by
  simp only [put, get?]
  split <;> simp_all

/-- Setting a key keeps the number of partitions. -/
theorem partitionCount_put [Hasher] (map : EntryMap) (key value : Value) :
    (map.put key value).2.partitionCount = map.partitionCount := by
  simp only [put]
  split <;> simp [partitionCount]

/-- All partitions of the map. -/
def allPartitions (map : EntryMap) : PartitionSet :=
  .range map.partitionCount

end EntryMap

/-- Maps by name. -/
structure Catalog where
  /-- The maps, the latest registered first. -/
  maps : List EntryMap
  deriving Inhabited

namespace Catalog

/-- The catalog without maps. -/
def empty : Catalog :=
  ⟨[]⟩

/-- Registers a map under its name, in place of an earlier one. -/
def register (catalog : Catalog) (map : EntryMap) : Catalog :=
  ⟨map :: catalog.maps.filter fun other => other.name != map.name⟩

/-- The map of a name that must be registered. -/
def require (catalog : Catalog) (name : String) : Except Error EntryMap :=
  match catalog.maps.find? fun map => map.name == name with
  | some map => .ok map
  | none => .error (.mapNotFound name)

end Catalog

end QueryFusion
