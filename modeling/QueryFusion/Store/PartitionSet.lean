/-!
# Sets of partitions

Partition ids without repetition in ascending order. The order is part of the type, so that a search
may stop early.
-/

namespace QueryFusion

/-- A set of partition ids. -/
structure PartitionSet where
  /-- The ids in ascending order, each once. -/
  ids : List Nat
  ascending : ids.Pairwise (· < ·)
  deriving DecidableEq

namespace PartitionSet

/-- Puts an id at its place in ascending ids. -/
def insertId (id : Nat) : List Nat → List Nat
  | [] => [id]
  | first :: rest =>
    if id < first then id :: first :: rest
    else if id = first then first :: rest
    else first :: insertId id rest

/-- Exactly the inserted id is new. -/
theorem mem_insertId (id other : Nat) (ids : List Nat) :
    other ∈ insertId id ids ↔ other = id ∨ other ∈ ids := by
  induction ids with
  | nil => simp [insertId]
  | cons first rest step =>
    simp only [insertId]
    split
    · simp
    · split
      · rename_i same
        simp [same]
      · simp only [List.mem_cons, step]
        exact or_left_comm

/-- Inserting keeps ids in ascending order. -/
theorem insertId_ascending (id : Nat) {ids : List Nat} (ascending : ids.Pairwise (· < ·)) :
    (insertId id ids).Pairwise (· < ·) := by
  induction ids with
  | nil => simp [insertId]
  | cons first rest step =>
    have above := (List.pairwise_cons.1 ascending).1
    simp only [insertId]
    split
    · rename_i smaller
      refine List.pairwise_cons.2 ⟨fun other found => ?_, ascending⟩
      rcases List.mem_cons.1 found with rfl | known
      · exact smaller
      · exact Nat.lt_trans smaller (above other known)
    · split
      · exact ascending
      · refine List.pairwise_cons.2 ⟨fun other found => ?_, step ascending.of_cons⟩
        rcases (mem_insertId id other rest).1 found with rfl | known
        · omega
        · exact above other known

/-- The set without ids. -/
def empty : PartitionSet :=
  ⟨[], .nil⟩

instance : Inhabited PartitionSet :=
  ⟨empty⟩

/-- The set with one more id. -/
def insert (id : Nat) (set : PartitionSet) : PartitionSet :=
  ⟨insertId id set.ids, insertId_ascending id set.ascending⟩

/-- The set of the listed ids. -/
def ofList (ids : List Nat) : PartitionSet :=
  ids.foldr insert empty

/-- The ids below a bound. -/
def range (count : Nat) : PartitionSet :=
  ⟨List.range count, List.pairwise_lt_range⟩

/-- The set of a list holds what the list holds. -/
theorem mem_ofList (id : Nat) (ids : List Nat) : id ∈ (ofList ids).ids ↔ id ∈ ids := by
  induction ids with
  | nil => simp [ofList, empty]
  | cons first rest step =>
    rw [List.mem_cons, ← step]
    exact mem_insertId first id _

/-- Membership; the search stops at the first id that is not smaller. -/
def containsId (id : Nat) : List Nat → Bool
  | [] => false
  | first :: rest => if first < id then containsId id rest else first == id

/-- In ascending ids the search finds what is there. -/
theorem containsId_iff (id : Nat) {ids : List Nat} (ascending : ids.Pairwise (· < ·)) :
    containsId id ids = true ↔ id ∈ ids := by
  induction ids with
  | nil => simp [containsId]
  | cons first rest step =>
    have above := (List.pairwise_cons.1 ascending).1 id
    rw [containsId, List.mem_cons]
    split
    · rw [step ascending.of_cons]
      exact ⟨.inr, fun found => found.resolve_left (by omega)⟩
    · rw [beq_iff_eq]
      refine ⟨fun same => .inl same.symm, fun found => found.elim Eq.symm fun known => ?_⟩
      have larger := above known
      omega

/-- The set holds an id. -/
def contains (set : PartitionSet) (id : Nat) : Bool :=
  containsId id set.ids

/-- A set contains exactly its ids. -/
theorem contains_iff (set : PartitionSet) (id : Nat) : set.contains id = true ↔ id ∈ set.ids :=
  containsId_iff id set.ascending

end PartitionSet

end QueryFusion
