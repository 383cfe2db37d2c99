import QueryFusion.Script.Code

/-!
# The cache of compiled units

Units are kept by name, together with the source they come from. When the cache is full, the unit
that was asked for the longest time ago makes room. The cache is one of a library: in whatever it
keeps the units, it answers as the list of them does, the one used last first.
-/

namespace QueryFusion

/-- A unit with the source that it was compiled from. -/
structure CachedUnit where
  name : String
  source : String
  unit : Script.CompiledUnit
  deriving Inhabited

/-- Units by name. -/
structure UnitCache where
  capacity : Nat
  /-- The units, the one used last first; no two of one name. -/
  entries : List CachedUnit
  deriving Inhabited

namespace UnitCache

/-- The cache without units; it has room for one at least. -/
def empty (capacity : Nat) : UnitCache :=
  ⟨max capacity 1, []⟩

/-- The units of other names. -/
def without (cache : UnitCache) (name : String) : List CachedUnit :=
  cache.entries.filter fun entry => entry.name != name

/-- The unit of a name, which is then the one used last. -/
def get (name : String) (cache : UnitCache) : Option CachedUnit × UnitCache :=
  match cache.entries.find? fun entry => entry.name == name with
  | some entry => (some entry, { cache with entries := entry :: cache.without name })
  | none => (none, cache)

/-- Keeps a unit in place of another one of its name. -/
def put (entry : CachedUnit) (cache : UnitCache) : UnitCache :=
  { cache with entries := (entry :: cache.without entry.name).take cache.capacity }

/-- The cache with all units removed. -/
def clear (cache : UnitCache) : UnitCache :=
  { cache with entries := [] }

/-- A cache never holds more units than it has room for. -/
theorem length_put_le (entry : CachedUnit) (cache : UnitCache) :
    (cache.put entry).entries.length ≤ cache.capacity := by
  simp only [put, List.length_take]
  omega

/-- A unit that was just kept is found again. -/
theorem get_put (entry : CachedUnit) (cache : UnitCache) (room : 0 < cache.capacity) :
    ((cache.put entry).get entry.name).1 = some entry := by
  obtain ⟨others, size⟩ : ∃ others, cache.capacity = others + 1 := ⟨cache.capacity - 1, by omega⟩
  simp [get, put, size]

/-- A cleared cache finds nothing. -/
theorem get_clear (name : String) (cache : UnitCache) : (cache.clear.get name).1 = none := by
  simp [get, clear]

end UnitCache

/-- A library whose caches forget the units used longest ago. A cache of it stands for a list of
units, and every operation does to the cache what it does to the list. -/
class CacheLibrary where
  Store : Type
  new : Nat → Store
  get : String → Store → Option CachedUnit × Store
  put : CachedUnit → Store → Store
  clear : Store → Store
  /-- The units of a cache, the one used last first. -/
  units : Store → UnitCache
  units_new : ∀ capacity, units (new capacity) = .empty capacity
  found : ∀ name store, (get name store).1 = ((units store).get name).1
  units_get : ∀ name store, units (get name store).2 = ((units store).get name).2
  units_put : ∀ entry store, units (put entry store) = (units store).put entry
  units_clear : ∀ store, units (clear store) = (units store).clear

/-- The list of units is such a cache itself, and the one that programs run with. -/
instance : CacheLibrary where
  Store := UnitCache
  new := UnitCache.empty
  get := UnitCache.get
  put := UnitCache.put
  clear := UnitCache.clear
  units := id
  units_new _ := rfl
  found _ _ := rfl
  units_get _ _ := rfl
  units_put _ _ := rfl
  units_clear _ := rfl

namespace CacheLibrary

variable [CacheLibrary]

instance : Inhabited Store :=
  ⟨new 0⟩

/-- The units that a cache keeps. -/
def Store.entries (store : Store) : List CachedUnit :=
  (units store).entries

end CacheLibrary

end QueryFusion
