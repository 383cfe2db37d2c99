import QueryFusion.Proofs.Outcome
import QueryFusion.Proofs.Plan.Building
import QueryFusion.Proofs.Script.Safety
import QueryFusion.Session.Compiler

/-!
# The cache of units cannot be told from compiling again

A compiler is asked for units and is cleared, in any order. The history of these requests says which
source is kept under which name: the one compiled last under it, unless the cache was cleared or the
name made room for another one since. The cache holds exactly those sources, each with the unit that
it compiles to, so that every request is answered as if nothing were kept.
-/

namespace QueryFusion

open Generate (Fragment GeneratedUnit partition)

namespace UnitCache

/-- The names under which units are kept. -/
def names (cache : UnitCache) : List String :=
  cache.entries.map CachedUnit.name

/-- Units of other names are among the units. -/
theorem mem_without {entry : CachedUnit} {name : String} {cache : UnitCache} :
    entry ∈ cache.without name ↔ entry ∈ cache.entries ∧ entry.name ≠ name := by
  simp [without]

/-- Two units of one name are the same one. -/
theorem eq_of_name {cache : UnitCache} (unique : cache.names.Nodup) {left right : CachedUnit}
    (here : left ∈ cache.entries) (there : right ∈ cache.entries) (same : left.name = right.name) :
    left = right :=
  List.inj_on_of_nodup_map unique here there same

/-- Looking for a unit changes the order of the units only. -/
theorem entries_get_perm {cache : UnitCache} (unique : cache.names.Nodup) (name : String) :
    (cache.get name).2.entries.Perm cache.entries := by
  unfold get
  split
  case h_2 => exact .refl _
  case h_1 entry found =>
    have called : entry.name = name := by simpa using List.find?_some found
    have present : entry ∈ cache.entries := List.mem_of_find?_eq_some found
    have order := perm_cons_filter CachedUnit.name unique present
    rw [called] at order
    exact order.symm

/-- A unit is kept in the same way before and after its name was looked for. -/
theorem put_get (entry : CachedUnit) (cache : UnitCache) :
    (cache.get entry.name).2.put entry = cache.put entry := by
  unfold get
  split
  case h_2 => rfl
  case h_1 found kept =>
    have called : found.name = entry.name := by simpa using List.find?_some kept
    simp [put, without, called]

/-- What is found under a name is a unit of that name. -/
theorem get_eq_some {cache : UnitCache} {name : String} {entry : CachedUnit}
    (found : (cache.get name).1 = some entry) : entry ∈ cache.entries ∧ entry.name = name := by
  unfold get at found
  split at found
  case h_2 => cases found
  case h_1 first kept =>
    cases found
    exact ⟨List.mem_of_find?_eq_some kept, by simpa using List.find?_some kept⟩

/-- A unit that is kept is found. -/
theorem get_of_mem {cache : UnitCache} (unique : cache.names.Nodup) {entry : CachedUnit}
    (present : entry ∈ cache.entries) : (cache.get entry.name).1 = some entry := by
  unfold get
  split
  case h_2 missing =>
    have differs := List.find?_eq_none.1 missing entry present
    simp at differs
  case h_1 found kept =>
    have called : found.name = entry.name := by simpa using List.find?_some kept
    rw [eq_of_name unique (List.mem_of_find?_eq_some kept) present called]

/-- A cache with room keeps what is put into it. -/
theorem mem_put_self {cache : UnitCache} (room : 0 < cache.capacity) (entry : CachedUnit) :
    entry ∈ (cache.put entry).entries :=
  (get_eq_some (get_put entry cache room)).1

/-- After a unit was put, the cache holds it and units of other names. -/
theorem mem_of_mem_put {cache : UnitCache} {entry kept : CachedUnit}
    (present : kept ∈ (cache.put entry).entries) :
    kept = entry ∨ kept ∈ cache.entries ∧ kept.name ≠ entry.name := by
  have before : kept ∈ entry :: cache.without entry.name := List.mem_of_mem_take present
  rcases List.mem_cons.1 before with same | other
  · exact .inl same
  · exact .inr (mem_without.1 other)

/-- Putting a unit leaves one unit for each name. -/
theorem names_put_nodup {cache : UnitCache} (unique : cache.names.Nodup) (entry : CachedUnit) :
    (cache.put entry).names.Nodup := by
  have fresh : ∀ other ∈ cache.without entry.name, other.name ≠ entry.name :=
    fun other member => (mem_without.1 member).2
  have whole : ((entry :: cache.without entry.name).map CachedUnit.name).Nodup := by
    rw [List.map_cons, List.nodup_cons]
    constructor
    · intro member
      obtain ⟨other, kept, same⟩ := List.mem_map.1 member
      exact fresh other kept same
    · exact unique.sublist (List.filter_sublist.map CachedUnit.name)
  exact whole.sublist ((List.take_sublist _ _).map CachedUnit.name)

/-- In a full cache without a unit of its name, a unit takes the place of the one used longest
ago. -/
theorem put_of_full {cache : UnitCache} (entry : CachedUnit) (room : 0 < cache.capacity)
    (size : cache.entries.length ≤ cache.capacity)
    (crowded : cache.capacity ≤ (cache.without entry.name).length) :
    cache.entries.length = cache.capacity ∧ (∀ kept ∈ cache.entries, kept.name ≠ entry.name) ∧
      ∃ newer oldest, cache.entries = newer ++ [oldest] ∧
        (cache.put entry).entries = entry :: newer := by
  have whole : cache.without entry.name = cache.entries :=
    List.filter_sublist.eq_of_length_le (Nat.le_trans size crowded)
  rw [whole] at crowded
  have full : cache.entries.length = cache.capacity := by omega
  refine ⟨full, fun kept member => (mem_without.1 (whole ▸ member)).2, ?_⟩
  obtain ⟨newer, oldest, split⟩ : ∃ newer oldest, cache.entries = newer ++ [oldest] := by
    have occupied : cache.entries ≠ [] := by
      intro none
      rw [none] at full
      exact absurd full.symm (Nat.pos_iff_ne_zero.1 room)
    exact ⟨_, _, (List.dropLast_append_getLast occupied).symm⟩
  have count : cache.capacity = newer.length + 1 := by
    rw [← full, split, List.length_append, List.length_singleton]
  refine ⟨newer, oldest, split, ?_⟩
  simp [put, whole, split, count]

/-- Looking for a unit leaves the room as it is. -/
theorem capacity_get (cache : UnitCache) (name : String) :
    (cache.get name).2.capacity = cache.capacity := by
  unfold get
  split <;> rfl

end UnitCache

/-! ## Histories -/

/-- What a request did. -/
inductive CacheEvent
  /-- A unit was found. -/
  | hit (name source : String)
  /-- A unit was compiled and kept, and those of some other names made room. -/
  | compiled (name source : String) (evicted : List String)
  /-- A source could not be compiled. -/
  | failed (name source : String)
  /-- All units were removed. -/
  | cleared
  deriving DecidableEq, Inhabited

/-- The request was for a unit. -/
def CacheEvent.isLookup : CacheEvent → Bool
  | cleared => false
  | _ => true

/-- The source that was compiled last under a name, unless it was cleared or evicted since; the
latest event comes first. -/
def keptSource (name : String) : List CacheEvent → Option String
  | [] => none
  | .cleared :: _ => none
  | .compiled other source evicted :: earlier =>
    if other = name then some source
    else if name ∈ evicted then none
    else keptSource name earlier
  | .hit _ _ :: earlier => keptSource name earlier
  | .failed _ _ :: earlier => keptSource name earlier

namespace Compiler

section AnyLibrary

variable [CacheLibrary]

/-- The units that a compiler keeps, the one used last first. -/
def kept (compiler : Compiler) : UnitCache :=
  CacheLibrary.units compiler.cache

/-- The answer to a request for a unit came from the cache. -/
def Hits (generated : GeneratedUnit) (compiler : Compiler) : Prop :=
  compiler.hits < (compiler.unitFor generated).2.hits

/-- The other names that a request for a unit removes from the cache. -/
def evictedBy (generated : GeneratedUnit) (compiler : Compiler) : List String :=
  compiler.kept.names.filter fun name =>
    name ≠ generated.qualifiedName ∧ name ∉ (compiler.unitFor generated).2.kept.names

instance (generated : GeneratedUnit) (compiler : Compiler) : Decidable (compiler.Hits generated) :=
  inferInstanceAs (Decidable (_ < _))

/-- What a request for a unit does, as seen from the counter of hits, the answer and the names. -/
def eventOf (generated : GeneratedUnit) (compiler : Compiler) : CacheEvent :=
  if compiler.Hits generated then .hit generated.qualifiedName generated.source
  else
    match (compiler.unitFor generated).1 with
    | .ok _ =>
      .compiled generated.qualifiedName generated.source (compiler.evictedBy generated)
    | .error _ => .failed generated.qualifiedName generated.source

/-- The events that lead from a new compiler to this one, the latest first. -/
inductive History (config : Config) : List CacheEvent → Compiler → Prop
  | start : History config [] (.start config)
  | lookup {log : List CacheEvent} {compiler : Compiler} (generated : GeneratedUnit) :
    History config log compiler →
      History config (compiler.eventOf generated :: log) (compiler.unitFor generated).2
  | clear {log : List CacheEvent} {compiler : Compiler} :
    History config log compiler → History config (.cleared :: log) compiler.clear

/-- The units of fragments, all of them compiled anew. -/
def unitsFromScratch : List Fragment → Except Error (List Script.CompiledUnit)
  | [] => .ok []
  | fragment :: rest => do
    let generated ← fragment.generate
    let unit ← generated.compile
    let units ← unitsFromScratch rest
    .ok (unit :: units)

/-- The template of a plan, with all of its units compiled anew. -/
def templateFromScratch (config : Config) (plan : Plan) : Except Error (Option Template) :=
  if config.enabled then do
    let fragments ← partition plan
    if fragments.isEmpty then .ok none
    else do
      let units ← unitsFromScratch fragments
      let template ← Template.ofUnits units config.effectiveBatchSize
      .ok (some template)
  else .ok none

/-! ## The step of a request -/

/-- Looking for a unit changes the order of the units only. -/
theorem entries_asked_perm {compiler : Compiler} (unique : compiler.kept.names.Nodup)
    (name : String) : (CacheLibrary.units (CacheLibrary.get name compiler.cache).2).entries.Perm
      compiler.kept.entries := by
  rw [CacheLibrary.units_get]
  exact UnitCache.entries_get_perm unique name

/-- What a request for a unit can do to a compiler that keeps one unit for each name. -/
theorem unitFor_cases {compiler : Compiler} (unique : compiler.kept.names.Nodup)
    (generated : GeneratedUnit) :
    (∃ entry ∈ compiler.kept.entries, entry.name = generated.qualifiedName ∧
      entry.source = generated.source ∧
      compiler.unitFor generated = (.ok entry.unit, { compiler with
        cache := (CacheLibrary.get generated.qualifiedName compiler.cache).2,
        hits := compiler.hits + 1 })) ∨
    ((∀ entry ∈ compiler.kept.entries, entry.name = generated.qualifiedName →
        entry.source ≠ generated.source) ∧
      ((∃ error, generated.compile = .error error ∧
          compiler.unitFor generated = (.error error, { compiler with
            cache := (CacheLibrary.get generated.qualifiedName compiler.cache).2,
            misses := compiler.misses + 1 })) ∨
        (∃ unit store, generated.compile = .ok unit ∧
          CacheLibrary.units store =
            compiler.kept.put ⟨generated.qualifiedName, generated.source, unit⟩ ∧
          compiler.unitFor generated = (.ok unit, { compiler with
            cache := store, misses := compiler.misses + 1 })))) := by
  have answer : (CacheLibrary.get generated.qualifiedName compiler.cache).1 =
      (compiler.kept.get generated.qualifiedName).1 := CacheLibrary.found _ _
  cases found : (compiler.kept.get generated.qualifiedName).1.filter
      (fun entry => entry.source == generated.source) with
  | some entry =>
    obtain ⟨present, text⟩ := Option.filter_eq_some_iff.1 found
    obtain ⟨member, called⟩ := UnitCache.get_eq_some present
    refine .inl ⟨entry, member, called, by simpa using text, ?_⟩
    simp only [unitFor, answer, found]
  | none =>
    right
    constructor
    · intro entry member called text
      have kept := UnitCache.get_of_mem unique member
      rw [called] at kept
      rw [kept] at found
      simp [text] at found
    · cases outcome : generated.compile with
      | error error =>
        refine .inl ⟨error, rfl, ?_⟩
        simp only [unitFor, answer, found, outcome]
      | ok unit =>
        refine .inr ⟨unit, CacheLibrary.put ⟨generated.qualifiedName, generated.source, unit⟩
          (CacheLibrary.get generated.qualifiedName compiler.cache).2, rfl, ?_, ?_⟩
        · rw [CacheLibrary.units_put, CacheLibrary.units_get]
          exact UnitCache.put_get ⟨generated.qualifiedName, generated.source, unit⟩ compiler.kept
        · simp only [unitFor, answer, found, outcome]

/-- The cache holds what its history says, and as few units as it must. -/
structure Faithful (config : Config) (log : List CacheEvent) (compiler : Compiler) : Prop where
  settings : compiler.config = config
  capacity : compiler.kept.capacity = max config.cacheCapacity 1
  unique : compiler.kept.names.Nodup
  size : compiler.kept.entries.length ≤ compiler.kept.capacity
  compiled : ∀ entry ∈ compiler.kept.entries,
    Script.compile entry.source entry.name = .ok entry.unit
  kept : ∀ name source, keptSource name log = some source ↔
    ∃ entry ∈ compiler.kept.entries, entry.name = name ∧ entry.source = source
  counted : compiler.hits + compiler.misses = log.countP CacheEvent.isLookup

namespace Faithful

variable {config : Config} {log : List CacheEvent} {compiler : Compiler}

/-- A new compiler is faithful to the empty history. -/
theorem start : Faithful config [] (.start config) := by
  have empty : (Compiler.start config).kept = .empty config.cacheCapacity :=
    CacheLibrary.units_new config.cacheCapacity
  constructor
  case settings => rfl
  case capacity => rw [empty]; rfl
  case unique => rw [empty]; exact List.nodup_nil
  case size => rw [empty]; exact Nat.zero_le _
  case compiled => rw [empty]; exact fun _ member => absurd member List.not_mem_nil
  case kept => rw [empty]; simp [keptSource, UnitCache.empty]
  case counted => rfl

/-- A cache has room for a unit at least. -/
theorem room (faithful : Faithful config log compiler) : 0 < compiler.kept.capacity := by
  rw [faithful.capacity]
  omega

/-- A request answers with what compiling the source gives. -/
theorem answer (faithful : Faithful config log compiler) (generated : GeneratedUnit) :
    (compiler.unitFor generated).1 = generated.compile := by
  obtain ⟨entry, member, called, text, step⟩
      | ⟨-, ⟨error, outcome, step⟩ | ⟨unit, _, outcome, stored, step⟩⟩ :=
    unitFor_cases faithful.unique generated
  · rw [step, GeneratedUnit.compile, ← called, ← text]
    exact (faithful.compiled entry member).symm
  · rw [step, outcome]
  · rw [step, outcome]

/-- A request is answered from the cache exactly when its source is the one kept under its name. -/
theorem hits_iff (faithful : Faithful config log compiler) (generated : GeneratedUnit) :
    compiler.Hits generated ↔ keptSource generated.qualifiedName log = some generated.source := by
  rw [faithful.kept]
  obtain ⟨entry, member, called, text, step⟩ | ⟨absent, ⟨_, -, step⟩ | ⟨_, _, -, -, step⟩⟩ :=
    unitFor_cases faithful.unique generated
  · have found : compiler.Hits generated := by
      rw [Hits, step]
      exact Nat.lt_succ_self _
    exact ⟨fun _ => ⟨entry, member, called, text⟩, fun _ => found⟩
  all_goals
    have missed : ¬compiler.Hits generated := by
      rw [Hits, step]
      exact Nat.lt_irrefl _
    refine ⟨fun found => absurd found missed, ?_⟩
    rintro ⟨entry, member, called, text⟩
    exact absurd text (absent entry member called)

/-- Reordering the units of a faithful cache and counting one request keeps it faithful. -/
theorem reordered (faithful : Faithful config log compiler) {event : CacheEvent}
    (lookup : event.isLookup = true)
    (unchanged : ∀ name, keptSource name (event :: log) = keptSource name log) (name : String)
    {hits misses : Nat} (counted : hits + misses = compiler.hits + compiler.misses + 1) :
    Faithful config (event :: log)
      { compiler with
        cache := (CacheLibrary.get name compiler.cache).2, hits := hits, misses := misses } := by
  have order := entries_asked_perm faithful.unique name
  have room : (CacheLibrary.units (CacheLibrary.get name compiler.cache).2).capacity =
      compiler.kept.capacity := by
    rw [CacheLibrary.units_get]
    exact compiler.kept.capacity_get name
  constructor
  case settings => exact faithful.settings
  case capacity => exact room.trans faithful.capacity
  case unique => exact (order.map CachedUnit.name).nodup_iff.2 faithful.unique
  case size =>
    have size := faithful.size
    rw [← order.length_eq, ← room] at size
    exact size
  case compiled => exact fun entry member => faithful.compiled entry (order.mem_iff.1 member)
  case kept =>
    intro other source
    rw [unchanged, faithful.kept]
    exact exists_congr fun entry => and_congr_left fun _ => order.mem_iff.symm
  case counted =>
    show hits + misses = _
    rw [counted, faithful.counted, List.countP_cons_of_pos lookup]

/-- A unit that stays in the cache is one that no request has evicted. -/
theorem stays_iff (faithful : Faithful config log compiler) {generated : GeneratedUnit}
    {unit : Script.CompiledUnit} (step : (compiler.unitFor generated).2.kept =
      compiler.kept.put ⟨generated.qualifiedName, generated.source, unit⟩)
    {name source : String} (other : generated.qualifiedName ≠ name) :
    (∃ entry ∈ (compiler.unitFor generated).2.kept.entries,
        entry.name = name ∧ entry.source = source) ↔
      name ∉ compiler.evictedBy generated ∧
        ∃ entry ∈ compiler.kept.entries, entry.name = name ∧ entry.source = source := by
  have before : ∀ entry ∈ (compiler.unitFor generated).2.kept.entries, entry.name = name →
      entry ∈ compiler.kept.entries := by
    rw [step]
    intro entry member called
    rcases UnitCache.mem_of_mem_put member with same | ⟨earlier, -⟩
    · rw [same] at called
      exact absurd called other
    · exact earlier
  constructor
  · rintro ⟨entry, member, called, text⟩
    refine ⟨?_, entry, before entry member called, called, text⟩
    have present : name ∈ (compiler.unitFor generated).2.kept.names :=
      List.mem_map.2 ⟨entry, member, called⟩
    simp [evictedBy, present]
  · rintro ⟨spared, entry, member, called, text⟩
    have present : name ∈ (compiler.unitFor generated).2.kept.names := by
      by_contra missing
      apply spared
      have known : name ∈ compiler.kept.names := List.mem_map.2 ⟨entry, member, called⟩
      simp [evictedBy, known, missing, other.symm]
    obtain ⟨left, kept, same⟩ := List.mem_map.1 present
    have equal : left = entry :=
      UnitCache.eq_of_name faithful.unique (before left kept same) member (same.trans called.symm)
    exact ⟨left, kept, same, equal ▸ text⟩

/-- A request keeps the cache faithful, whether it hits, compiles or fails. -/
theorem lookup (faithful : Faithful config log compiler) (generated : GeneratedUnit) :
    Faithful config (compiler.eventOf generated :: log) (compiler.unitFor generated).2 := by
  obtain ⟨entry, member, called, text, step⟩
      | ⟨-, ⟨error, outcome, step⟩ | ⟨unit, _, outcome, stored, step⟩⟩ :=
    unitFor_cases faithful.unique generated
  · have event : compiler.eventOf generated =
        .hit generated.qualifiedName generated.source := by
      simp [eventOf, Hits, step]
    rw [event, step]
    exact faithful.reordered rfl (fun _ => rfl) _ (by omega)
  · have event : compiler.eventOf generated =
        .failed generated.qualifiedName generated.source := by
      simp [eventOf, Hits, step]
    rw [event, step]
    exact faithful.reordered rfl (fun _ => rfl) _ (by omega)
  · have event : compiler.eventOf generated = .compiled generated.qualifiedName generated.source
        (compiler.evictedBy generated) := by
      simp [eventOf, Hits, step]
    have after : (compiler.unitFor generated).2.kept =
        compiler.kept.put ⟨generated.qualifiedName, generated.source, unit⟩ := by
      rw [step]
      exact stored
    rw [event]
    constructor
    case settings => rw [step]; exact faithful.settings
    case capacity => rw [after]; exact faithful.capacity
    case unique => rw [after]; exact UnitCache.names_put_nodup faithful.unique _
    case size => rw [after]; exact UnitCache.length_put_le _ _
    case compiled =>
      rw [after]
      intro entry member
      rcases UnitCache.mem_of_mem_put member with same | ⟨earlier, -⟩
      · rw [same]
        exact outcome
      · exact faithful.compiled entry earlier
    case kept =>
      intro name source
      by_cases same : generated.qualifiedName = name
      · rw [keptSource, if_pos same, after]
        constructor
        · intro text
          exact ⟨_, UnitCache.mem_put_self faithful.room _, same, Option.some.inj text⟩
        · rintro ⟨entry, member, called, text⟩
          rcases UnitCache.mem_of_mem_put member with equal | ⟨-, differ⟩
          · rw [← text, equal]
          · exact absurd (called.trans same.symm) differ
      · rw [keptSource, if_neg same, faithful.stays_iff after same, ← faithful.kept]
        by_cases evicted : name ∈ compiler.evictedBy generated
        · simp [evicted]
        · simp [evicted]
    case counted =>
      rw [step, List.countP_cons_of_pos rfl, ← faithful.counted]
      show compiler.hits + (compiler.misses + 1) = _
      omega

/-- A cleared cache is faithful. -/
theorem clear (faithful : Faithful config log compiler) :
    Faithful config (.cleared :: log) compiler.clear := by
  have empty : compiler.clear.kept = compiler.kept.clear := CacheLibrary.units_clear compiler.cache
  constructor
  case settings => exact faithful.settings
  case capacity => rw [empty]; exact faithful.capacity
  case unique => rw [empty]; exact List.nodup_nil
  case size => rw [empty]; exact Nat.zero_le _
  case compiled => rw [empty]; exact fun _ member => absurd member List.not_mem_nil
  case kept => rw [empty]; simp [keptSource, UnitCache.clear]
  case counted =>
    rw [List.countP_cons_of_neg (by simp [CacheEvent.isLookup])]
    exact faithful.counted

/-- A request makes room only in a full cache, and then at the cost of the unit used longest ago. -/
theorem evicted (faithful : Faithful config log compiler) (generated : GeneratedUnit) :
    compiler.evictedBy generated = [] ∨
      compiler.kept.entries.length = compiler.kept.capacity ∧
        ∃ oldest, compiler.kept.entries.getLast? = some oldest ∧
          compiler.evictedBy generated = [oldest.name] := by
  have spared : (∀ name ∈ compiler.kept.names, name ≠ generated.qualifiedName →
      name ∈ (compiler.unitFor generated).2.kept.names) → compiler.evictedBy generated = [] := by
    intro all
    apply List.filter_eq_nil_iff.2
    intro name member
    simpa using all name member
  have order := (entries_asked_perm faithful.unique generated.qualifiedName).map CachedUnit.name
  obtain ⟨_, _, _, _, step⟩ | ⟨-, ⟨_, _, step⟩ | ⟨unit, _, _, stored, step⟩⟩ :=
    unitFor_cases faithful.unique generated
  · refine .inl (spared fun name member _ => ?_)
    rw [step]
    exact order.mem_iff.2 member
  · refine .inl (spared fun name member _ => ?_)
    rw [step]
    exact order.mem_iff.2 member
  · have after : (compiler.unitFor generated).2.kept = compiler.kept.put
        ⟨generated.qualifiedName, generated.source, unit⟩ := by
      rw [step]
      exact stored
    by_cases fits : (compiler.kept.without generated.qualifiedName).length <
        compiler.kept.capacity
    · refine .inl (spared fun name member other => ?_)
      obtain ⟨entry, present, called⟩ := List.mem_map.1 member
      have left : entry ∈ compiler.kept.without generated.qualifiedName :=
        UnitCache.mem_without.2 ⟨present, called ▸ other⟩
      rw [after, UnitCache.names, UnitCache.put, List.take_of_length_le (Nat.succ_le_of_lt fits)]
      exact List.mem_map.2 ⟨entry, List.mem_cons_of_mem _ left, called⟩
    · obtain ⟨full, others, newer, oldest, split, stored⟩ :=
        UnitCache.put_of_full ⟨generated.qualifiedName, generated.source, unit⟩ faithful.room
          faithful.size (Nat.le_of_not_lt fits)
      refine .inr ⟨full, oldest, by simp [split], ?_⟩
      have unique := faithful.unique
      rw [UnitCache.names, split, List.map_append, List.map_singleton, List.nodup_append] at unique
      have fresh : oldest.name ∉ newer.map CachedUnit.name := fun member =>
        unique.2.2 _ member _ (List.mem_singleton_self _) rfl
      have other : oldest.name ≠ generated.qualifiedName := others oldest (by simp [split])
      have newerStay : (newer.map CachedUnit.name).filter (fun name =>
          name ≠ generated.qualifiedName ∧
            name ∉ generated.qualifiedName :: newer.map CachedUnit.name) = [] := by
        apply List.filter_eq_nil_iff.2
        intro name member
        simpa using fun _ => List.mem_map.1 member
      rw [evictedBy, after]
      simp only [UnitCache.names, stored, split, List.map_append, List.map_cons, List.map_nil,
        List.filter_append]
      rw [newerStay]
      simpa [other] using fresh

end Faithful

/-! ## Whole histories -/

variable {config : Config} {log : List CacheEvent} {compiler : Compiler}

/-- Along every history the cache is faithful. -/
theorem History.faithful (history : History config log compiler) :
    Faithful config log compiler := by
  induction history with
  | start => exact .start
  | lookup generated _ step => exact step.lookup generated
  | clear _ step => exact step.clear

/-- The units of fragments are looked up one after the other, and are those of compiling anew. -/
theorem History.unitsFor (fragments : List Fragment) (history : History config log compiler) :
    (compiler.unitsFor fragments).1 = unitsFromScratch fragments ∧
      ∃ events, events.all CacheEvent.isLookup ∧
        History config (events ++ log) (compiler.unitsFor fragments).2 := by
  induction fragments generalizing log compiler with
  | nil => exact ⟨rfl, [], rfl, history⟩
  | cons fragment rest step =>
    cases made : fragment.generate with
    | error error =>
      simp only [Compiler.unitsFor, unitsFromScratch, made, error_bind]
      exact ⟨trivial, [], rfl, history⟩
    | ok generated =>
      have answer := history.faithful.answer generated
      have later := history.lookup generated
      have asked : (compiler.eventOf generated).isLookup = true := by
        unfold eventOf
        split
        · rfl
        · split <;> rfl
      rcases found : compiler.unitFor generated with ⟨outcome, next⟩
      rw [found] at answer later
      simp only [Compiler.unitsFor, unitsFromScratch, made, ok_bind, ← answer, found]
      cases outcome with
      | error error => exact ⟨rfl, [_], by simp [asked], later⟩
      | ok unit =>
        obtain ⟨same, events, lookups, final⟩ := step later
        simp only [ok_bind, ← same]
        rcases ended : next.unitsFor rest with ⟨remaining, last⟩
        rw [ended] at final
        refine ⟨?_, events ++ [compiler.eventOf generated], by simp [lookups, asked], ?_⟩
        · cases remaining with
          | error error => rfl
          | ok units => rfl
        · rw [List.append_assoc]
          cases remaining with
          | error error => exact final
          | ok units => exact final

/-- The template of a plan is the one of compiling its units anew, and its units are looked up. -/
theorem History.tryTemplate (plan : Plan) (history : History config log compiler) :
    (compiler.tryTemplate plan).1 = templateFromScratch config plan ∧
      ∃ events, events.all CacheEvent.isLookup ∧
        History config (events ++ log) (compiler.tryTemplate plan).2 := by
  have settings := history.faithful.settings
  unfold Compiler.tryTemplate templateFromScratch
  rw [settings]
  cases enabled : config.enabled with
  | false => exact ⟨rfl, [], rfl, history⟩
  | true =>
    cases split : partition plan with
    | error error => exact ⟨rfl, [], rfl, history⟩
    | ok fragments =>
      cases fragments with
      | nil => exact ⟨rfl, [], rfl, history⟩
      | cons first rest =>
        obtain ⟨same, events, lookups, final⟩ := history.unitsFor (first :: rest)
        rcases ended : compiler.unitsFor (first :: rest) with ⟨outcome, next⟩
        rw [ended] at same final
        simp only [ok_bind, List.isEmpty_cons, Bool.not_true, ended, ← same]
        cases outcome with
        | error error => exact ⟨rfl, events, lookups, final⟩
        | ok units =>
          refine ⟨?_, events, lookups, final⟩
          cases made : Template.ofUnits units config.effectiveBatchSize with
          | error error => simp [made, Except.map]
          | ok template => simp [made, Except.map]

/-- The cache of a compiler does not show in what the compiler answers. -/
structure Transparent (config : Config) (log : List CacheEvent) (compiler : Compiler) : Prop where
  /-- A unit is the one of compiling its source, and is missing when that fails. -/
  answers : ∀ generated, (compiler.unitFor generated).1 = generated.compile
  /-- A request that fails stores nothing. -/
  failures : ∀ generated error, (compiler.unitFor generated).1 = .error error →
    (compiler.unitFor generated).2.kept.entries.Perm compiler.kept.entries
  /-- Every request for a unit is counted once. -/
  counted : compiler.hits + compiler.misses = log.countP CacheEvent.isLookup
  /-- A unit comes from the cache exactly when its source was compiled under its name, and was
  neither cleared nor replaced nor evicted since. -/
  hits : ∀ generated, compiler.Hits generated ↔
    keptSource generated.qualifiedName log = some generated.source
  /-- Only a full cache evicts, and then the unit used longest ago. -/
  evictions : ∀ generated, compiler.evictedBy generated = [] ∨
    compiler.kept.entries.length = max config.cacheCapacity 1 ∧
      ∃ oldest, compiler.kept.entries.getLast? = some oldest ∧
        compiler.evictedBy generated = [oldest.name]
  /-- The cache is never too large. -/
  bounded : compiler.kept.entries.length ≤ max config.cacheCapacity 1
  /-- The template of a plan is made by looking up units, and is the one of compiling them. -/
  templates : ∀ plan, (compiler.tryTemplate plan).1 = templateFromScratch config plan ∧
    ∃ events, events.all CacheEvent.isLookup ∧
      History config (events ++ log) (compiler.tryTemplate plan).2

/-- After every sequence of requests, the cache does not show, whatever library it comes from. -/
theorem cache_transparent (history : History config log compiler) :
    Transparent config log compiler := by
  have faithful := history.faithful
  constructor
  case answers => exact faithful.answer
  case failures =>
    intro generated error failed
    obtain ⟨_, _, _, _, step⟩ | ⟨-, ⟨_, _, step⟩ | ⟨_, _, _, _, step⟩⟩ :=
      unitFor_cases faithful.unique generated
    · rw [step] at failed
      cases failed
    · rw [step]
      exact entries_asked_perm faithful.unique _
    · rw [step] at failed
      cases failed
  case counted => exact faithful.counted
  case hits => exact faithful.hits_iff
  case evictions =>
    rw [← faithful.capacity]
    exact faithful.evicted
  case bounded =>
    rw [← faithful.capacity]
    exact faithful.size
  case templates => exact fun plan => history.tryTemplate plan

end AnyLibrary

/-- The first unit that a compiler is asked for is the only one that it keeps. -/
theorem unitFor_start (config : Config) {generated : GeneratedUnit} {unit : Script.CompiledUnit}
    (compiled : generated.compile = .ok unit) :
    (start config).unitFor generated = (.ok unit, ⟨config,
      ⟨max config.cacheCapacity 1, [⟨generated.qualifiedName, generated.source, unit⟩]⟩,
        0, 1⟩) := by
  obtain ⟨others, room⟩ : ∃ others, max config.cacheCapacity 1 = others + 1 :=
    ⟨max config.cacheCapacity 1 - 1, by omega⟩
  simp [unitFor, start, CacheLibrary.new, CacheLibrary.get, CacheLibrary.put, UnitCache.empty,
    UnitCache.get, UnitCache.put, UnitCache.without, compiled, room]

/-- A compiler that keeps a single unit. -/
def narrow : Config :=
  { Config.standard with cacheCapacity := 0 }

/-- A source that compiles. -/
def keyReaderUnit : GeneratedUnit :=
  ⟨"U", "m.U", Script.keyReader⟩

/-- A source of the same name that does not compile. -/
def blankUnit : GeneratedUnit :=
  ⟨"U", "m.U", ""⟩

/-- A source that was compiled is still served after another one of its name was refused. -/
theorem cache_transparent_refused : ∃ compiler,
    History narrow [.failed "m.U" "", .compiled "m.U" Script.keyReader []] compiler ∧
      compiler.Hits keyReaderUnit ∧
      (compiler.unitFor keyReaderUnit).1 = keyReaderUnit.compile := by
  obtain ⟨unit, compiled, -⟩ := Script.compile_keyReader
  have served : (start narrow).unitFor keyReaderUnit =
      (.ok unit, ⟨narrow, ⟨1, [⟨"m.U", Script.keyReader, unit⟩]⟩, 0, 1⟩) :=
    unitFor_start narrow compiled
  obtain ⟨error, refused⟩ : ∃ error, blankUnit.compile = .error error := ⟨_, rfl⟩
  have first : (start narrow).eventOf keyReaderUnit = .compiled "m.U" Script.keyReader [] := by
    simp only [eventOf, Hits, evictedBy, served]
    rfl
  have second : ((start narrow).unitFor keyReaderUnit).2.eventOf blankUnit = .failed "m.U" "" := by
    rw [served]
    simp only [eventOf, Hits, unitFor, refused]
    rfl
  have history : History narrow _ _ := (History.start.lookup keyReaderUnit).lookup blankUnit
  rw [first, second] at history
  have transparent := cache_transparent history
  exact ⟨_, history, (transparent.hits keyReaderUnit).2 rfl, transparent.answers keyReaderUnit⟩

end Compiler

end QueryFusion
