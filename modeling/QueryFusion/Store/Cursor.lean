import QueryFusion.Store.EntryMap

/-!
# Cursors over maps

A cursor visits the entries of selected partitions, in ascending order of the partitions. Ids that
the map does not own are skipped. Key and value can be read after a step that found an entry.
-/

namespace QueryFusion

/-- A place in the entries of selected partitions. -/
structure Cursor where
  map : EntryMap
  /-- The partitions not finished yet; the first one is being visited. -/
  pending : List Nat
  /-- Index of the entry in the partition being visited. -/
  index : Nat
  /-- The cursor stands on an entry. -/
  positioned : Bool
  deriving Inhabited

namespace Cursor

/-- A cursor before the first entry. -/
def start (map : EntryMap) (parts : PartitionSet) : Cursor :=
  ⟨map, parts.ids.filter fun id => id < map.partitionCount, 0, false⟩

/-- The first place at or after an index that holds an entry. -/
def seek (map : EntryMap) : List Nat → Nat → List Nat × Nat × Bool
  | [], _ => ([], 0, false)
  | id :: rest, index =>
    if index < (map.partition id).length then (id :: rest, index, true) else seek map rest 0

/-- The entries at or after an index of the first of some partitions. -/
def entriesFrom (map : EntryMap) : List Nat → Nat → List Entry
  | [], _ => []
  | id :: others, index => (map.partition id).drop index ++ others.flatMap map.partition

/-- A partition that is finished leaves the entries of the others. -/
theorem entriesFrom_finished (map : EntryMap) (id : Nat) (others : List Nat) (index : Nat)
    (finished : (map.partition id).length ≤ index) :
    entriesFrom map (id :: others) index = entriesFrom map others 0 := by
  cases others <;> simp [entriesFrom, List.drop_eq_nil_of_le finished]

/-- Seeking skips no entry. -/
theorem entriesFrom_seek (map : EntryMap) (pending : List Nat) (index : Nat) :
    entriesFrom map (seek map pending index).1 (seek map pending index).2.1 =
      entriesFrom map pending index := by
  induction pending generalizing index with
  | nil => rfl
  | cons id others step =>
    rw [seek]
    split
    · rfl
    · rw [step 0, entriesFrom_finished map id others index (by omega)]

/-- Seeking finds a place exactly when an entry follows. -/
theorem seek_found_iff (map : EntryMap) (pending : List Nat) (index : Nat) :
    (seek map pending index).2.2 = true ↔ entriesFrom map pending index ≠ [] := by
  induction pending generalizing index with
  | nil => simp [seek, entriesFrom]
  | cons id others step =>
    rw [seek]
    split
    · simp only [entriesFrom, true_iff, ne_eq, List.append_eq_nil_iff, List.drop_eq_nil_iff]
      omega
    · rw [step 0, entriesFrom_finished map id others index (by omega)]

/-- A place that seeking finds lies inside its partition. -/
theorem seek_inside {map : EntryMap} {pending : List Nat} {index : Nat}
    (found : (seek map pending index).2.2 = true) :
    ∃ id others, (seek map pending index).1 = id :: others ∧
      (seek map pending index).2.1 < (map.partition id).length := by
  induction pending generalizing index with
  | nil => simp [seek] at found
  | cons id others step =>
    rw [seek] at found ⊢
    split
    · rename_i inside
      exact ⟨id, others, rfl, inside⟩
    · rename_i outside
      rw [if_neg outside] at found
      exact step found

/-- Index of the next place to look at. -/
def nextIndex (cursor : Cursor) : Nat :=
  if cursor.positioned then cursor.index + 1 else cursor.index

/-- Moves to the next entry; false when there is none. -/
def advance (cursor : Cursor) : Bool × Cursor :=
  let found := seek cursor.map cursor.pending cursor.nextIndex
  (found.2.2, { cursor with pending := found.1, index := found.2.1, positioned := found.2.2 })

/-- The entries that follow. -/
def rest (cursor : Cursor) : List Entry :=
  entriesFrom cursor.map cursor.pending cursor.nextIndex

/-- The cursor behind the last entry. -/
def finish (cursor : Cursor) : Cursor :=
  { cursor with pending := [], index := 0, positioned := false }

/-- The entry the cursor stands on. -/
def current (cursor : Cursor) : Except Error Entry :=
  if cursor.positioned then
    match cursor.pending with
    | id :: _ =>
      match (cursor.map.partition id)[cursor.index]? with
      | some entry => .ok entry
      | none => .error (.internal "map scan iterator is out of range")
    | [] => .error (.internal "map scan iterator is out of range")
  else .error (.internal "map scan iterator is not positioned")

/-- A new cursor has all entries of its partitions before it. -/
theorem rest_start (map : EntryMap) (parts : PartitionSet) :
    (start map parts).rest =
      (parts.ids.filter fun id => id < map.partitionCount).flatMap map.partition := by
  simp only [rest, start, nextIndex]
  cases parts.ids.filter fun id => id < map.partitionCount <;> simp [entriesFrom]

/-- A step finds an entry exactly when one follows. -/
theorem advance_fst_iff (cursor : Cursor) : cursor.advance.1 = true ↔ cursor.rest ≠ [] :=
  seek_found_iff cursor.map cursor.pending cursor.nextIndex

/-- A step stops at the first entry that follows and leaves the others. -/
theorem rest_eq_current_cons {cursor : Cursor} (moved : cursor.advance.1 = true) :
    ∃ entry, cursor.advance.2.current = .ok entry ∧
      cursor.rest = entry :: cursor.advance.2.rest := by
  obtain ⟨id, others, visited, inside⟩ := seek_inside moved
  have kept := entriesFrom_seek cursor.map cursor.pending cursor.nextIndex
  have positioned : (seek cursor.map cursor.pending cursor.nextIndex).2.2 = true := moved
  have next : cursor.advance.2.nextIndex =
      (seek cursor.map cursor.pending cursor.nextIndex).2.1 + 1 := if_pos positioned
  refine ⟨(cursor.map.partition id)[(seek cursor.map cursor.pending cursor.nextIndex).2.1],
    ?_, ?_⟩
  · simp [current, advance, positioned, visited, inside]
  · rw [rest, ← kept, rest, next]
    change _ = _ :: entriesFrom cursor.map (seek cursor.map cursor.pending cursor.nextIndex).1 _
    rw [visited]
    simp only [entriesFrom, List.drop_eq_getElem_cons inside, List.cons_append]

/-- A cursor that finds no entry leaves none. -/
theorem rest_advance_of_missing {cursor : Cursor} (missing : cursor.advance.1 = false) :
    cursor.advance.2.rest = cursor.rest := by
  have next : cursor.advance.2.nextIndex =
      (seek cursor.map cursor.pending cursor.nextIndex).2.1 := if_neg (ne_true_of_eq_false missing)
  rw [rest, next]
  exact entriesFrom_seek cursor.map cursor.pending cursor.nextIndex

/-- A step behind the last entry finds none and stays there. -/
theorem advance_of_rest_nil {cursor : Cursor} (follow : cursor.rest = []) :
    cursor.advance.1 = false ∧ cursor.advance.2.rest = [] := by
  have missing : cursor.advance.1 = false :=
    Bool.eq_false_iff.2 fun found => (cursor.advance_fst_iff).1 found follow
  exact ⟨missing, (rest_advance_of_missing missing).trans follow⟩

/-- A step finds the first entry that follows and has the others before it. -/
theorem advance_of_rest_cons {cursor : Cursor} {entry : Entry} {entries : List Entry}
    (follow : cursor.rest = entry :: entries) : cursor.advance.1 = true ∧
      cursor.advance.2.current = .ok entry ∧ cursor.advance.2.rest = entries := by
  have found : cursor.advance.1 = true :=
    (cursor.advance_fst_iff).2 (by rw [follow]; exact List.cons_ne_nil _ _)
  obtain ⟨current, stands, split⟩ := rest_eq_current_cons found
  rw [follow] at split
  obtain ⟨rfl, behind⟩ := List.cons.inj split
  exact ⟨found, stands, behind.symm⟩

/-- The key of the current entry. -/
def key (cursor : Cursor) : Except Error Value :=
  cursor.current.map (·.1)

/-- The value of the current entry. -/
def value (cursor : Cursor) : Except Error Value :=
  cursor.current.map (·.2)

end Cursor

end QueryFusion
