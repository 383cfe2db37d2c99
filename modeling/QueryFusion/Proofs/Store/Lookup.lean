import QueryFusion.Store.Cursor

/-!
# Lookup in maps

A map answers for a key with the value that was put last under an equal key. Equality of values is
symmetric and transitive, so it does not matter which of several equal keys an entry carries. Only
the partition depends on the key itself: keys that are equal but encoded differently, such as the
two zeros, may be owned by two partitions, and then each of them has an entry of its own.
-/

namespace QueryFusion

/-! ## Equality of values -/

/-- Equal numbers stand at the same place. -/
theorem Double.equal_iff (left right : Double) :
    left.equal right = true ↔
      left.isNaN = false ∧ right.isNaN = false ∧ left.orderKey = right.orderKey := by
  rw [equal, beq_iff_eq, order]
  cases left.isNaN <;> cases right.isNaN <;> simp

/-- Numeric equality is transitive. -/
theorem Double.equal_trans {left middle right : Double} (first : left.equal middle = true)
    (second : middle.equal right = true) : left.equal right = true := by
  obtain ⟨valued, -, near⟩ := (equal_iff _ _).1 first
  obtain ⟨-, other, far⟩ := (equal_iff _ _).1 second
  exact (equal_iff _ _).2 ⟨valued, other, near.trans far⟩

namespace Value

mutual

/-- Equality does not depend on the side. -/
theorem same_comm (left right : Value) : left.same right = right.same left := by
  cases left <;> cases right <;> simp only [same]
  case object.object _ leftClass leftFields _ rightClass rightFields =>
    rw [sameFields_comm leftFields rightFields, BEq.comm (a := leftClass)]
  case double.double left right => exact Double.equal_comm left right
  all_goals exact BEq.comm

/-- Equality of field lists does not depend on the side. -/
theorem sameFields_comm (left right : List (String × Value)) :
    sameFields left right = sameFields right left := by
  match left, right with
  | [], [] => rfl
  | [], _ :: _ | _ :: _, [] => rfl
  | (leftName, left) :: leftRest, (rightName, right) :: rightRest =>
    rw [sameFields, sameFields, same_comm left right, sameFields_comm leftRest rightRest,
      BEq.comm (a := leftName)]

end

mutual

/-- Equality is transitive. -/
theorem same_trans {left middle right : Value} (first : left.same middle = true)
    (second : middle.same right = true) : left.same right = true := by
  cases left <;> cases middle <;> simp only [same, Bool.false_eq_true] at first <;>
    cases right <;> simp only [same, Bool.false_eq_true] at second <;> simp only [same]
  case double.double.double => exact Double.equal_trans first second
  case object.object.object =>
    rw [Bool.and_eq_true, beq_iff_eq] at first second ⊢
    exact ⟨first.1.trans second.1, sameFields_trans first.2 second.2⟩
  all_goals
    rw [beq_iff_eq] at first second ⊢
    exact first.trans second

/-- Equality of field lists is transitive. -/
theorem sameFields_trans {left middle right : List (String × Value)}
    (first : sameFields left middle = true) (second : sameFields middle right = true) :
    sameFields left right = true := by
  match left, middle, right with
  | [], [], [] => rfl
  | (_, left) :: leftRest, (_, middle) :: middleRest, (_, right) :: rightRest =>
    simp only [sameFields, Bool.and_eq_true, beq_iff_eq] at first second ⊢
    exact ⟨⟨first.1.1.trans second.1.1, same_trans first.1.2 second.1.2⟩,
      sameFields_trans first.2 second.2⟩

end

/-- Equal values are equal to the same values. -/
theorem same_congr {left right : Value} (equal : left.same right = true) (other : Value) :
    other.same left = other.same right := by
  rw [Bool.eq_iff_iff]
  exact ⟨fun same => same_trans same equal, fun same => same_trans same (same_comm _ _ ▸ equal)⟩

/-! ## Encoding -/

mutual

/-- Two values are encoded alike: they differ at most in the identities of their objects. -/
def alike : Value → Value → Bool
  | null, null => true
  | boolean left, boolean right => left == right
  | int left, int right => left == right
  | bigInt left, bigInt right => left == right
  | double left, double right => left == right
  | varchar left, varchar right => left == right
  | object _ leftClass leftFields, object _ rightClass rightFields =>
    leftClass == rightClass && alikeFields leftFields rightFields
  | _, _ => false

/-- Field lists of one encoding. -/
def alikeFields : List (String × Value) → List (String × Value) → Bool
  | [], [] => true
  | (leftName, left) :: leftRest, (rightName, right) :: rightRest =>
    leftName == rightName && alike left right && alikeFields leftRest rightRest
  | _, _ => false

end

section Hash

variable [Hasher]

mutual

/-- The hash follows the encoding. -/
theorem hashInto_alike {left right : Value} (equal : left.alike right = true)
    (state : Hasher.State) : hashInto state left = hashInto state right := by
  cases left <;> cases right <;> simp only [alike, Bool.false_eq_true] at equal
  case null.null => rfl
  case object.object =>
    rw [Bool.and_eq_true, beq_iff_eq] at equal
    rw [hashInto, hashInto, equal.1, hashFields_alike equal.2]
  all_goals
    rw [beq_iff_eq] at equal
    rw [equal]

/-- The hash of field lists follows their encoding. -/
theorem hashFields_alike {left right : List (String × Value)}
    (equal : alikeFields left right = true) (state : Hasher.State) :
    hashFields state left = hashFields state right := by
  match left, right with
  | [], [] => rfl
  | (_, left) :: leftRest, (_, right) :: rightRest =>
    simp only [alikeFields, Bool.and_eq_true, beq_iff_eq] at equal
    rw [hashFields, hashFields, equal.1.1, hashInto_alike equal.1.2, hashFields_alike equal.2]

end

/-- Values of one encoding have one hash. -/
theorem hash_alike {left right : Value} (equal : left.alike right = true) :
    left.hash = right.hash := by
  rw [hash, hash, hashInto_alike equal]

end Hash

end Value

namespace EntryMap

/-! ## Lookup in one partition -/

section Entries

variable {entries : List Entry} {key probe value : Value}

/-- Lookup goes on behind the entries that have no equal key. -/
theorem lookup?_append (first second : List Entry) (probe : Value) :
    lookup? (first ++ second) probe = (lookup? first probe).or (lookup? second probe) := by
  simp only [lookup?, List.find?_append]
  cases first.find? fun entry => entry.1.same probe <;> rfl

/-- Nothing is found exactly when no key is equal. -/
theorem lookup?_eq_none_iff :
    lookup? entries key = none ↔ ∀ entry ∈ entries, entry.1.same key = false := by
  simp [lookup?]

/-- An entry alone is found by the keys equal to its own. -/
theorem lookup?_singleton (entry : Entry) (probe : Value) :
    lookup? [entry] probe = if entry.1.same probe then some entry.2 else none := by
  rw [lookup?, List.find?_singleton]
  cases entry.1.same probe <;> rfl

/-- The first entry is tried before the others. -/
theorem lookup?_cons (entry : Entry) (rest : List Entry) (probe : Value) :
    lookup? (entry :: rest) probe =
      (if entry.1.same probe then some entry.2 else none).or (lookup? rest probe) := by
  rw [← lookup?_singleton, ← lookup?_append, List.singleton_append]

/-- Lookup does not tell equal keys apart. -/
theorem lookup?_congr (equal : key.same probe = true) :
    lookup? entries key = lookup? entries probe := by
  have tests : (fun entry : Entry => entry.1.same key) = fun entry => entry.1.same probe :=
    funext fun entry => Value.same_congr equal entry.1
  rw [lookup?, lookup?, tests]

/-- Where a key is found, replacing puts the new value under it and leaves other keys alone. -/
theorem lookup?_replace (found : (lookup? entries key).isSome = true) :
    lookup? (replace key value entries) probe =
      if key.same probe then some value else lookup? entries probe := by
  induction entries with
  | nil => cases found
  | cons entry rest step =>
    rw [replace, lookup?_cons entry rest]
    by_cases hit : entry.1.same key = true
    · have probes : entry.1.same probe = key.same probe := by
        rw [Value.same_comm, Value.same_congr hit, Value.same_comm]
      rw [if_pos hit, lookup?_cons, probes]
      cases key.same probe <;> rfl
    · rw [lookup?_cons, if_neg hit] at found
      rw [if_neg hit, lookup?_cons, step found]
      by_cases equal : key.same probe = true
      · have misses : entry.1.same probe = false := by
          rw [← Value.same_congr equal]
          exact Bool.eq_false_iff.2 hit
        simp [equal, misses]
      · simp [equal]

/-- An entry put behind others that have no equal key is found under its key. -/
theorem lookup?_behind (missing : lookup? entries key = none) :
    lookup? (entries ++ [(key, value)]) probe =
      if key.same probe then some value else lookup? entries probe := by
  rw [lookup?_append, lookup?_singleton]
  by_cases equal : key.same probe = true
  · simp [equal, ← lookup?_congr equal, missing]
  · simp [equal]

/-- Replacing keeps the keys. -/
theorem keys_replace (key value : Value) (entries : List Entry) :
    (replace key value entries).map (·.1) = entries.map (·.1) := by
  induction entries with
  | nil => rfl
  | cons entry rest step =>
    rw [replace]
    split
    · rfl
    · rw [List.map_cons, step, List.map_cons]

/-- What the partition of a key becomes when the key is put. -/
def putInto (key value : Value) (entries : List Entry) : List Entry :=
  match lookup? entries key with
  | some _ => replace key value entries
  | none => entries ++ [(key, value)]

/-- In its own partition a key is found with the value put under it. -/
theorem lookup?_putInto (entries : List Entry) :
    lookup? (putInto key value entries) probe =
      if key.same probe then some value else lookup? entries probe := by
  rw [putInto]
  split
  · rename_i previous found
    exact lookup?_replace (by rw [found]; rfl)
  · rename_i missing
    exact lookup?_behind missing

end Entries

/-! ## One put -/

section Put

variable [Hasher] {map : EntryMap} {key probe value : Value}

/-- Putting keeps the partition of every key. -/
@[simp] theorem partitionOf_put (map : EntryMap) (key value probe : Value) :
    (map.put key value).2.partitionOf probe = map.partitionOf probe := by
  rw [partitionOf, partitionCount_put, partitionOf]

/-- Putting changes the partition that owns the key and no other. -/
theorem partition_put (split : 0 < map.partitionCount) (id : Nat) :
    (map.put key value).2.partition id =
      if map.partitionOf key = id then putInto key value (map.partition id)
      else map.partition id := by
  have inside : map.partitionOf key < map.partitions.length := map.partitionOf_lt key split
  have changed : (map.put key value).2.partitions =
      map.partitions.set (map.partitionOf key)
        (putInto key value (map.partition (map.partitionOf key))) := by
    simp only [put, putInto]
    cases lookup? (map.partition (map.partitionOf key)) key <;> rfl
  rw [partition, changed, List.getD_eq_getElem?_getD, List.getElem?_set]
  by_cases same : map.partitionOf key = id
  · rw [if_pos same, if_pos inside, if_pos same, same]
    rfl
  · rw [if_neg same, if_neg same, partition, List.getD_eq_getElem?_getD]

/-- After a put the keys equal to the one put have its value, and the others what they had. -/
theorem get?_put (split : 0 < map.partitionCount)
    (owner : key.same probe = true → map.partitionOf key = map.partitionOf probe) :
    (map.put key value).2.get? probe = if key.same probe then some value else map.get? probe := by
  rw [get?, partitionOf_put, partition_put split]
  by_cases equal : key.same probe = true
  · rw [if_pos (owner equal), lookup?_putInto]
    rfl
  · rw [if_neg equal]
    split
    · rw [lookup?_putInto, if_neg equal]
      rfl
    · rfl

end Put

/-! ## Keys of a map -/

/-- Two entries have no equal keys. -/
def Distinct (left right : Entry) : Prop :=
  left.1.same right.1 = false

/-- Every entry lies in the partition that owns its key, and no partition has an entry of two equal
keys. The keys are of a given kind. -/
structure Orderly [Hasher] (kind : Value → Prop) (map : EntryMap) : Prop where
  split : 0 < map.partitionCount
  owned : ∀ id, ∀ entry ∈ map.partition id, map.partitionOf entry.1 = id
  distinct : ∀ id, (map.partition id).Pairwise Distinct
  kinds : ∀ id, ∀ entry ∈ map.partition id, kind entry.1

section Orderly

variable {key value : Value} {entries : List Entry}

/-- Keys alone tell whether entries are distinct. -/
theorem pairwise_distinct_iff :
    entries.Pairwise Distinct ↔
      (entries.map (·.1)).Pairwise fun left right => left.same right = false := by
  rw [List.pairwise_map]
  rfl

/-- Putting adds at most the key that is put. -/
theorem mem_keys_putInto {other : Entry} (member : other ∈ putInto key value entries) :
    other.1 = key ∨ ∃ entry ∈ entries, entry.1 = other.1 := by
  rw [putInto] at member
  split at member
  · have known := List.mem_map_of_mem (f := (·.1)) member
    rw [keys_replace] at known
    obtain ⟨entry, found, same⟩ := List.mem_map.1 known
    exact .inr ⟨entry, found, same⟩
  · rcases List.mem_append.1 member with found | added
    · exact .inr ⟨other, found, rfl⟩
    · exact .inl (congrArg (·.1) (List.mem_singleton.1 added))

/-- Putting a key keeps the entries of its partition distinct. -/
theorem putInto_distinct (distinct : entries.Pairwise Distinct) :
    (putInto key value entries).Pairwise Distinct := by
  rw [putInto]
  split
  · rw [pairwise_distinct_iff, keys_replace]
    exact pairwise_distinct_iff.1 distinct
  · rename_i missing
    refine List.pairwise_append.2 ⟨distinct, List.pairwise_singleton _ _, ?_⟩
    intro entry member other added
    rw [List.mem_singleton.1 added]
    exact lookup?_eq_none_iff.1 missing entry member

/-- No partition of the new map has entries. -/
theorem partition_empty (name : String) (count id : Nat) :
    (empty name count).partition id = [] := by
  rw [partition, List.getD_eq_getElem?_getD, empty, List.getElem?_replicate]
  split <;> rfl

variable [Hasher] {kind : Value → Prop} {map : EntryMap}

/-- The new map is orderly. -/
theorem Orderly.empty (kind : Value → Prop) (name : String) (count : Nat) :
    Orderly kind (empty name count) where
  split := partitionCount_empty_pos name count
  owned id entry member := by
    rw [partition_empty] at member
    cases member
  distinct id := by
    rw [partition_empty]
    exact .nil
  kinds id entry member := by
    rw [partition_empty] at member
    cases member

/-- A put keeps a map orderly. -/
theorem Orderly.put (orderly : Orderly kind map) (proper : kind key) :
    Orderly kind (map.put key value).2 where
  split := by
    rw [partitionCount_put]
    exact orderly.split
  owned id entry member := by
    rw [partitionOf_put]
    rw [partition_put orderly.split] at member
    split at member
    · rename_i owns
      rcases mem_keys_putInto member with same | ⟨known, found, same⟩
      · rw [same, owns]
      · rw [← same, orderly.owned id known found]
    · exact orderly.owned id entry member
  distinct id := by
    rw [partition_put orderly.split]
    split
    · exact putInto_distinct (orderly.distinct id)
    · exact orderly.distinct id
  kinds id entry member := by
    rw [partition_put orderly.split] at member
    split at member
    · rcases mem_keys_putInto member with same | ⟨known, found, same⟩
      · exact same ▸ proper
      · exact same ▸ orderly.kinds id known found
    · exact orderly.kinds id entry member

/-- Puts keep a map orderly. -/
theorem Orderly.putAll (orderly : Orderly kind map) (proper : ∀ entry ∈ entries, kind entry.1) :
    Orderly kind (map.putAll entries) := by
  induction entries generalizing map with
  | nil => exact orderly
  | cons entry rest step =>
    obtain ⟨first, others⟩ := List.forall_mem_cons.1 proper
    exact step (orderly.put first) others

/-- Puts keep the partition of every key. -/
theorem partitionOf_putAll (map : EntryMap) (entries : List Entry) (probe : Value) :
    (map.putAll entries).partitionOf probe = map.partitionOf probe := by
  induction entries generalizing map with
  | nil => rfl
  | cons entry rest step => exact (step _).trans (partitionOf_put map entry.1 entry.2 probe)

end Orderly

/-! ## Any number of puts -/

/-- The value of the last entry with an equal key. -/
def latest? (entries : List Entry) (key : Value) : Option Value :=
  lookup? entries.reverse key

/-- The first entry counts where no later one has an equal key. -/
theorem latest?_cons (entry : Entry) (rest : List Entry) (key : Value) :
    latest? (entry :: rest) key =
      (latest? rest key).or (if entry.1.same key then some entry.2 else none) := by
  rw [latest?, List.reverse_cons, lookup?_append, lookup?_singleton, latest?]

/-- Equal keys of this kind are owned by one partition. -/
def Settled [Hasher] (kind : Value → Prop) (map : EntryMap) : Prop :=
  ∀ left, kind left → ∀ right, kind right → left.same right = true →
    map.partitionOf left = map.partitionOf right

section PutAll

variable [Hasher] {kind : Value → Prop} {map : EntryMap} {entries : List Entry} {probe : Value}

/-- After any puts a key has the value put last, or else what it had before. -/
theorem get?_putAll (split : 0 < map.partitionCount) (settled : Settled kind map)
    (proper : ∀ entry ∈ entries, kind entry.1) (probed : kind probe) :
    (map.putAll entries).get? probe = (latest? entries probe).or (map.get? probe) := by
  induction entries generalizing map with
  | nil => rfl
  | cons entry rest step =>
    obtain ⟨first, others⟩ := List.forall_mem_cons.1 proper
    have still : Settled kind (map.put entry.1 entry.2).2 := by
      intro left leftKind right rightKind equal
      rw [partitionOf_put, partitionOf_put]
      exact settled left leftKind right rightKind equal
    have put : (map.put entry.1 entry.2).2.get? probe =
        if entry.1.same probe then some entry.2 else map.get? probe :=
      get?_put split (settled _ first _ probed)
    calc (map.putAll (entry :: rest)).get? probe
        = (latest? rest probe).or ((map.put entry.1 entry.2).2.get? probe) :=
          step (by rw [partitionCount_put]; exact split) still others
      _ = (latest? (entry :: rest) probe).or (map.get? probe) := by
          rw [put, latest?_cons, Option.or_assoc]
          split <;> rfl

/-- In an orderly map whose equal keys are owned by one partition, no two entries have equal
keys. -/
theorem Orderly.distinct_scan (orderly : Orderly kind map) (settled : Settled kind map)
    (parts : PartitionSet) : (Cursor.start map parts).rest.Pairwise Distinct := by
  rw [Cursor.rest_start, List.flatMap, List.pairwise_flatten]
  refine ⟨?_, ?_⟩
  · intro entries member
    obtain ⟨id, -, rfl⟩ := List.mem_map.1 member
    exact orderly.distinct id
  · rw [List.pairwise_map]
    refine (parts.ascending.filter _).imp fun {lower upper} below left leftIn right rightIn => ?_
    -- Equal keys would be owned by one partition, but these two entries lie in different ones.
    refine Bool.eq_false_iff.2 fun equal => ?_
    have owner := settled _ (orderly.kinds _ _ leftIn) _ (orderly.kinds _ _ rightIn) equal
    rw [orderly.owned _ _ leftIn, orderly.owned _ _ rightIn] at owner
    exact Nat.ne_of_lt below owner

end PutAll

/-- Equal keys are owned by one partition where there is only one, and where equal keys are encoded
alike. -/
theorem settled_empty [Hasher] {kind : Value → Prop} (name : String) {count : Nat}
    (alike : count ≤ 1 ∨
      ∀ left, kind left → ∀ right, kind right → left.same right = true → left.alike right = true) :
    Settled kind (empty name count) := by
  intro left leftKind right rightKind equal
  rcases alike with single | alike
  · have one : (empty name count).partitionCount = 1 := by
      simp only [empty, partitionCount, List.length_replicate]
      omega
    rw [partitionOf, partitionOf, one, Nat.mod_one, Nat.mod_one]
  · rw [partitionOf, partitionOf, Value.hash_alike (alike left leftKind right rightKind equal)]

/-- Under any hasher a map is one over equality of values, as long as equal keys are encoded alike
or there is only one partition: every put hands out the value put last under an equal key, every
lookup finds it, and a scan of all partitions meets no two equal keys. -/
theorem putAll_isMap [Hasher] (name : String) (count : Nat) (kind : Value → Prop)
    (alike : count ≤ 1 ∨
      ∀ left, kind left → ∀ right, kind right → left.same right = true → left.alike right = true)
    (entries : List Entry) (proper : ∀ entry ∈ entries, kind entry.1) :
    (∀ earlier key value later, entries = earlier ++ (key, value) :: later →
      (((empty name count).putAll earlier).put key value).1 = latest? earlier key) ∧
    (∀ key, kind key → ((empty name count).putAll entries).get? key = latest? entries key) ∧
    (Cursor.start ((empty name count).putAll entries)
      ((empty name count).putAll entries).allPartitions).rest.Pairwise Distinct := by
  have split := partitionCount_empty_pos name count
  have settled := settled_empty name alike
  have finds : ∀ puts : List Entry, (∀ entry ∈ puts, kind entry.1) → ∀ key, kind key →
      ((empty name count).putAll puts).get? key = latest? puts key := by
    intro puts proper key probed
    have missing : (empty name count).get? key = none := by
      rw [get?, partition_empty]
      rfl
    rw [get?_putAll split settled proper probed, missing, Option.or_none]
  refine ⟨?_, finds entries proper, ?_⟩
  · rintro earlier key value later rfl
    rw [List.forall_mem_append, List.forall_mem_cons] at proper
    rw [put_fst, finds earlier proper.1 key proper.2.1]
  · refine ((Orderly.empty kind name count).putAll proper).distinct_scan ?_ _
    intro left leftKind right rightKind equal
    rw [partitionOf_putAll, partitionOf_putAll]
    exact settled left leftKind right rightKind equal

/-- Keys of several types: a number, a double, the double without a value, and two copies of one
object. -/
def mixedKeys : List Value :=
  [.int 7, .double ⟨0x3ff8000000000000⟩, .double .nan,
    .object 1 "P" [("a", .double ⟨0x3ff8000000000000⟩)],
    .object 2 "P" [("a", .double ⟨0x3ff8000000000000⟩)]]

/-- The mixed keys are encoded alike where they are equal; the second copy of the object takes the
place of the first, and the double without a value is never found. -/
theorem putAll_isMap_mixedKeys :
    (∀ left ∈ mixedKeys, ∀ right ∈ mixedKeys, left.same right = true → left.alike right = true) ∧
    (∀ entry ∈ mixedKeys.map fun key => (key, Value.int 1), entry.1 ∈ mixedKeys) ∧
    ((empty "m" 3).putAll (mixedKeys.map fun key => (key, .int 1))).get? (.double .nan) = none ∧
    ((empty "m" 3).putAll (mixedKeys.map fun key => (key, .int 1))).get?
      (.object 2 "P" [("a", .double ⟨0x3ff8000000000000⟩)]) = some (.int 1) := by
  have alike : ∀ left ∈ mixedKeys, ∀ right ∈ mixedKeys,
      left.same right = true → left.alike right = true := by decide
  have proper : ∀ entry ∈ mixedKeys.map fun key => (key, Value.int 1), entry.1 ∈ mixedKeys := by
    simp
  obtain ⟨-, found, -⟩ := putAll_isMap "m" 3 (· ∈ mixedKeys) (.inr alike) _ proper
  exact ⟨alike, proper, found _ (by simp [mixedKeys]), found _ (by simp [mixedKeys])⟩

/-- The two zeros are equal keys, but a map of three partitions does not find the one under the
other. -/
theorem zeros_kept_apart :
    (Value.double ⟨0⟩).same (.double ⟨0x8000000000000000⟩) = true ∧
    ((empty "m" 3).put (.double ⟨0⟩) (.int 1)).2.get? (.double ⟨0x8000000000000000⟩) = none :=
  ⟨by decide, rfl⟩

end EntryMap

end QueryFusion
