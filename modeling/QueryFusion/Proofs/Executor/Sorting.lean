import Mathlib.Data.List.Basic
import Mathlib.Data.List.Induction
import QueryFusion.Proofs.Executor.Interpretation
import QueryFusion.Proofs.Executor.RowOrder

/-!
# Stable sorting

Both ways of sorting put rows in order when their comparisons are a preorder, and neither moves a
row past one that it ties with. Columns of one type without absent numbers are compared by a
preorder, which is the lexicographic order of their values. A sort therefore delivers its input in
that order, ties in the order they came in.
-/

namespace QueryFusion

/-! ## Sorting by a preorder -/

/-- These rows are compared by a preorder. -/
structure Preorders (order : Row → Row → Ordering) (rows : List Row) : Prop where
  swap : ∀ left right, order right left = (order left right).swap
  transitive : TransitiveOn order rows

/-- No row is greater than one behind it. -/
def Ordered (order : Row → Row → Ordering) (rows : List Row) : Prop :=
  rows.Pairwise fun earlier later => order earlier later ≠ .gt

section Sorts

variable {order : Row → Row → Ordering} {row left right : Row} {rows sorted kept : List Row}

/-- Some of the rows are compared by a preorder if all are. -/
theorem Preorders.mono (preorders : Preorders order rows) (inside : kept ⊆ rows) :
    Preorders order kept :=
  ⟨preorders.swap, fun one first two second three third =>
    preorders.transitive one (inside first) two (inside second) three (inside third)⟩

/-- A row that is not less than another one does not stand behind it. -/
theorem Preorders.ne_gt_iff (preorders : Preorders order rows) :
    order left right ≠ .gt ↔ order right left ≠ .lt := by
  rw [preorders.swap left right, Ne, Ne, Ordering.swap_eq_lt]

/-- Rows that stand the wrong way round are in order when the first one is greatest. -/
theorem ordered_reverse_cons :
    Ordered order (row :: rows).reverse ↔
      (∀ earlier ∈ rows, order earlier row ≠ .gt) ∧ Ordered order rows.reverse := by
  rw [Ordered, Ordered, List.pairwise_reverse, List.pairwise_reverse, List.pairwise_cons]

/-- A row is inserted where it belongs. -/
theorem Preorders.insertRow_ordered (preorders : Preorders order (row :: sorted))
    (ordered : Ordered order sorted.reverse) :
    Ordered order (insertRow order row sorted).reverse := by
  induction sorted with
  | nil => exact List.pairwise_singleton _ _
  | cons last rest step =>
    obtain ⟨below, behind⟩ := ordered_reverse_cons.1 ordered
    have inner := step (preorders.mono ((List.sublist_cons_self last rest).cons_cons row).subset)
      behind
    rw [insertRow]
    split
    · rename_i less
      refine ordered_reverse_cons.2 ⟨fun earlier among => ?_, inner⟩
      rcases List.mem_cons.1 ((insertRow_perm order row rest).mem_iff.1 among) with rfl | old
      · rw [less]
        decide
      · exact below earlier old
    · rename_i notLess
      have next : order last row ≠ .gt := preorders.ne_gt_iff.2 notLess
      refine ordered_reverse_cons.2 ⟨fun earlier among => ?_, ordered⟩
      rcases List.mem_cons.1 among with rfl | old
      · exact next
      · exact preorders.transitive earlier (by simp [old]) last (by simp) row (by simp)
          (below earlier old) next

/-- Inserting a row leaves the others in their order. -/
theorem sublist_insertRow (order : Row → Row → Ordering) (row : Row) (sorted : List Row) :
    sorted.Sublist (insertRow order row sorted) := by
  induction sorted with
  | nil => exact List.nil_sublist _
  | cons last rest step =>
    rw [insertRow]
    split
    · exact step.cons_cons last
    · exact List.sublist_cons_self _ _

/-- A row is not inserted past rows that it is not less than. -/
theorem cons_sublist_insertRow (inside : kept.Sublist sorted)
    (apart : ∀ other ∈ kept, order row other ≠ .lt) :
    (row :: kept).Sublist (insertRow order row sorted) := by
  induction sorted with
  | nil =>
    rw [List.sublist_nil.1 inside]
    exact .refl _
  | cons last rest step =>
    rw [insertRow]
    split
    · rename_i less
      -- the row passes the last one, which is therefore not one of those to be kept
      cases inside with
      | cons _ inner => exact (step inner).cons last
      | cons_cons _ inner => exact absurd less (apart last (List.mem_cons_self ..))
    · exact inside.cons_cons row

/-- Sorting by insertion inserts the last row into the others. -/
theorem insertionSort_concat (order : Row → Row → Ordering) (rows : List Row) (row : Row) :
    insertionSort order (rows ++ [row]) =
      (insertRow order row (insertionSort order rows).reverse).reverse := by
  simp only [insertionSort, List.foldl_append, List.foldl_cons, List.foldl_nil,
    List.reverse_reverse]

/-- Sorting by insertion puts rows in order. -/
theorem Preorders.insertionSort_ordered (preorders : Preorders order rows) :
    Ordered order (insertionSort order rows) := by
  induction rows using List.reverseRecOn with
  | nil => exact List.Pairwise.nil
  | append_singleton rows row step =>
    have same := (List.reverse_perm _).trans (insertionSort_perm order rows)
    have inner := step (preorders.mono (List.sublist_append_left ..).subset)
    rw [insertionSort_concat]
    refine Preorders.insertRow_ordered (preorders.mono fun other among => ?_)
      (by rwa [List.reverse_reverse])
    rcases List.mem_cons.1 among with rfl | old
    · exact List.mem_append_right _ (List.mem_cons_self ..)
    · exact List.mem_append_left _ (same.subset old)

/-- Sorting by insertion keeps the order of rows that are not less than those before them. -/
theorem sublist_insertionSort (inside : kept.Sublist rows)
    (apart : kept.Pairwise fun earlier later => order later earlier ≠ .lt) :
    kept.Sublist (insertionSort order rows) := by
  induction rows using List.reverseRecOn generalizing kept with
  | nil => exact inside
  | append_singleton rows row step =>
    rw [insertionSort_concat]
    obtain ⟨first, second, rfl, before, last⟩ := List.sublist_append_iff.1 inside
    obtain ⟨apart, -, behind⟩ := List.pairwise_append.1 apart
    have placed : first.reverse.Sublist (insertionSort order rows).reverse :=
      List.reverse_sublist.2 (step before apart)
    rcases List.sublist_singleton.1 last with rfl | rfl
    · have moved := List.reverse_sublist.2 (placed.trans (sublist_insertRow order row _))
      rwa [List.reverse_reverse, ← List.append_nil first] at moved
    · have last : ∀ other ∈ first.reverse, order row other ≠ .lt := fun other among =>
        behind other (List.mem_reverse.1 among) row (List.mem_cons_self ..)
      have moved := List.reverse_sublist.2 (cons_sublist_insertRow placed last)
      rwa [List.reverse_cons, List.reverse_reverse] at moved

/-- Merging puts rows in order and leaves those alone that are in order already. -/
theorem Preorders.mergeSort_stable (preorders : Preorders order rows) :
    Ordered order (rows.mergeSort fun left right => order left right != .gt) ∧
      ∀ kept, kept.Sublist rows → Ordered order kept →
        kept.Sublist (rows.mergeSort fun left right => order left right != .gt) := by
  -- comparisons are transitive on these rows only, so the rows are sorted together with their
  -- membership
  have lifted : (rows.attach.mergeSort fun left right => order left right != .gt).map Subtype.val =
      rows.mergeSort fun left right => order left right != .gt := by
    rw [List.map_mergeSort (s := fun left right => order left right != .gt) fun _ _ _ _ => rfl,
      List.attach_map_subtype_val]
  have trans : ∀ one two three : { row // row ∈ rows }, (order one two != .gt) = true →
      (order two three != .gt) = true → (order one three != .gt) = true := by
    intro one two three first second
    rw [bne_iff_ne] at first second ⊢
    exact preorders.transitive one one.2 two two.2 three three.2 first second
  have total : ∀ one two : { row // row ∈ rows },
      (order one two != .gt || order two one != .gt) = true := by
    intro one two
    rw [preorders.swap one two]
    cases order one two <;> rfl
  rw [← lifted]
  refine ⟨List.pairwise_map.2 ((List.pairwise_mergeSort trans total rows.attach).imp bne_iff_ne.1),
    fun kept inside ordered => ?_⟩
  rw [← List.attach_map_subtype_val rows] at inside
  obtain ⟨chosen, among, rfl⟩ := List.sublist_map_iff.1 inside
  exact (List.sublist_mergeSort trans total ((List.pairwise_map.1 ordered).imp bne_iff_ne.2)
    among).map _

/-- Sorting puts rows in order. -/
theorem Preorders.sortRows_ordered (preorders : Preorders order rows) :
    Ordered order (sortRows order rows) := by
  rw [sortRows]
  split
  · exact preorders.insertionSort_ordered
  · exact preorders.mergeSort_stable.1

/-- Sorting does not move rows that are in order already. -/
theorem Preorders.sublist_sortRows (preorders : Preorders order rows) (inside : kept.Sublist rows)
    (ordered : Ordered order kept) : kept.Sublist (sortRows order rows) := by
  rw [sortRows]
  split
  · exact sublist_insertionSort inside (ordered.imp preorders.ne_gt_iff.1)
  · exact preorders.mergeSort_stable.2 kept inside ordered

end Sorts

/-- A sort that is stable: rows compared by a preorder are put in order, and rows among them that
stand in order already are not moved. -/
class RowSort.Stable [RowSort] : Prop where
  ordered : ∀ {order : Row → Row → Ordering} {rows : List Row}, Preorders order rows →
    Ordered order (sort order rows)
  kept : ∀ {order : Row → Row → Ordering} {rows kept : List Row}, Preorders order rows →
    kept.Sublist rows → Ordered order kept → kept.Sublist (sort order rows)

/-- The sort that programs run with is stable. -/
instance : RowSort.Stable :=
  ⟨fun preorders => preorders.sortRows_ordered, fun preorders => preorders.sublist_sortRows⟩

/-! ## The order of values -/

/-- A column stands before another one: it is blank and the other one is not, or it holds the
smaller value. -/
def ColumnBefore (left right : Option Value) : Prop :=
  IsBlank left ∧ ¬ IsBlank right ∨
    ∃ smaller larger, left = some smaller ∧ right = some larger ∧
      smaller.order? larger = some (some .lt)

/-- Neither column stands before the other one. -/
def ColumnTies (left right : Option Value) : Prop :=
  ¬ ColumnBefore left right ∧ ¬ ColumnBefore right left

/-- A row stands before another one if it does so in the first column in which they differ: in front
of it where the column ascends, behind it where it descends. A column without a direction
ascends. -/
inductive RowBefore : List Nat → List Bool → Row → Row → Prop
  | ascending {column : Nat} {columns : List Nat} {directions : List Bool} {left right : Row}
      (up : directions.headD true = true) (before : ColumnBefore left[column]? right[column]?) :
      RowBefore (column :: columns) directions left right
  | descending {column : Nat} {columns : List Nat} {directions : List Bool} {left right : Row}
      (down : directions.headD true = false) (behind : ColumnBefore right[column]? left[column]?) :
      RowBefore (column :: columns) directions left right
  | tied {column : Nat} {columns : List Nat} {directions : List Bool} {left right : Row}
      (ties : ColumnTies left[column]? right[column]?)
      (later : RowBefore columns directions.tail left right) :
      RowBefore (column :: columns) directions left right

/-- Two rows tie in all of these columns. -/
def RowTies (columns : List Nat) (left right : Row) : Prop :=
  ∀ column ∈ columns, ColumnTies left[column]? right[column]?

section Values

variable {one two : Option Value} {columns : List Nat} {directions : List Bool} {left right : Row}

/-- A column that holds a value is not blank. -/
theorem not_isBlank {value : Value} (present : value ≠ .null) : ¬ IsBlank (some value) := by
  rintro (missing | null)
  · cases missing
  · exact present (Option.some.inj null)

/-- Comparing two columns tells whether one stands before the other. -/
theorem compareColumns_eq_lt_iff : compareColumns one two = .lt ↔ ColumnBefore one two := by
  rcases blank_or_present one with blank | ⟨value, rfl, present⟩ <;>
    rcases blank_or_present two with blank' | ⟨value', rfl, present'⟩
  · rw [compareColumns_blank blank blank']
    refine ⟨fun never => (by cases never), ?_⟩
    rintro (⟨-, other⟩ | ⟨smaller, larger, rfl, rfl, known⟩)
    · exact absurd blank' other
    · have comparable : smaller.Comparable larger := ⟨_, known⟩
      exact absurd blank (not_isBlank comparable.ne_null)
  · rw [compareColumns_blank_left blank present']
    exact iff_of_true rfl (.inl ⟨blank, not_isBlank present'⟩)
  · rw [compareColumns_blank_right blank' present]
    refine ⟨fun never => (by cases never), ?_⟩
    rintro (⟨other, -⟩ | ⟨smaller, larger, -, rfl, known⟩)
    · exact absurd other (not_isBlank present)
    · have comparable : smaller.Comparable larger := ⟨_, known⟩
      exact absurd blank' (not_isBlank comparable.symm.ne_null)
  · rw [compareColumns_present present present']
    refine ⟨fun less => .inr ⟨value, value', rfl, rfl, ?_⟩, ?_⟩
    · rcases known : value.order? value' with _ | _ | order <;> rw [known] at less
      · cases less
      · cases less
      · exact congrArg (some ∘ some) less
    · rintro (⟨other, -⟩ | ⟨smaller, larger, same, same', known⟩)
      · exact absurd other (not_isBlank present)
      · rw [Option.some.inj same, Option.some.inj same', known]
        rfl

/-- Comparing two columns tells whether one stands behind the other. -/
theorem compareColumns_eq_gt_iff : compareColumns one two = .gt ↔ ColumnBefore two one := by
  rw [← compareColumns_eq_lt_iff, compareColumns_swap one two, Ordering.swap_eq_lt]

/-- Comparing two columns tells whether they tie. -/
theorem compareColumns_eq_eq_iff : compareColumns one two = .eq ↔ ColumnTies one two := by
  rw [ColumnTies, ← compareColumns_eq_lt_iff, ← compareColumns_eq_gt_iff]
  cases compareColumns one two <;> decide

/-- Rows that tie in all columns compare as equal. -/
theorem compareRows_eq_eq (ties : RowTies columns left right) :
    compareRows columns directions left right = .eq := by
  induction columns generalizing directions with
  | nil => rfl
  | cons column columns step =>
    have first := compareColumns_eq_eq_iff.2 (ties column (List.mem_cons_self ..))
    have later : compareRows columns directions.tail left right = .eq :=
      step fun other listed => ties other (List.mem_cons_of_mem _ listed)
    rw [compareRows_cons, first, later]
    cases directions.headD true <;> rfl

/-- Comparing two rows tells whether one stands before the other. -/
theorem compareRows_eq_lt_iff :
    compareRows columns directions left right = .lt ↔ RowBefore columns directions left right := by
  constructor
  · intro less
    induction columns generalizing directions with
    | nil => cases less
    | cons column columns step =>
      rw [compareRows_cons, Ordering.then_eq_lt] at less
      rcases less with first | ⟨tie, later⟩
      · cases direction : directions.headD true with
        | true =>
          rw [direction] at first
          exact .ascending direction (compareColumns_eq_lt_iff.1 first)
        | false =>
          rw [direction] at first
          exact .descending direction (compareColumns_eq_gt_iff.1 (Ordering.swap_eq_lt.1 first))
      · refine .tied (compareColumns_eq_eq_iff.1 ?_) (step later)
        cases direction : directions.headD true with
        | true => rwa [direction] at tie
        | false =>
          rw [direction] at tie
          exact Ordering.swap_eq_eq.1 tie
  · intro before
    induction before with
    | ascending up before =>
      rw [compareRows_cons, up, compareColumns_eq_lt_iff.2 before]
      rfl
    | descending down behind =>
      rw [compareRows_cons, down, compareColumns_eq_gt_iff.2 behind]
      rfl
    | @tied column columns directions left right ties later step =>
      rw [compareRows_cons, compareColumns_eq_eq_iff.2 ties, step]
      cases directions.headD true <;> rfl

end Values

/-! ## Columns of one type -/

/-- The column holds values of one type, apart from nulls, and doubles only that stand for
numbers. -/
def Uniform (column : Nat) (rows : List Row) : Prop :=
  ∃ type, ∀ row ∈ rows, ∀ value, row[column]? = some value → value = .null ∨
    value.dataType = type ∧ ∀ number, value = .double number → number.isNaN = false

/-- A value that can be compared at all can be compared with each one of its type. -/
theorem Value.Comparable.of_dataType {left right other : Value} (comparable : left.Comparable right)
    (same : other.dataType = left.dataType)
    (valued : ∀ number, other = .double number → number.isNaN = false) : left.Comparable other := by
  obtain ⟨order, known⟩ := comparable
  cases left <;> cases right <;> try cases known
  all_goals cases other <;> try cases same
  case double.double.double left right other =>
    have ⟨present, _, _⟩ := Double.order_eq_some_iff.1 (Option.some.inj known)
    exact ⟨_, congrArg some (Double.order_eq_some_iff.2 ⟨present, valued other rfl, rfl⟩)⟩
  all_goals exact ⟨_, rfl⟩

/-- No rows tear a column of one type. -/
theorem Uniform.untorn {column : Nat} {rows : List Row} (uniform : Uniform column rows) :
    Untorn column rows := by
  obtain ⟨type, typed⟩ := uniform
  rintro one first two - three third
    ⟨left, right, other, order, here, -, beyond, known, -, present, apart⟩
  have comparable : left.Comparable right := ⟨order, known⟩
  obtain ⟨kind, -⟩ := (typed one first left here).resolve_left comparable.ne_null
  obtain ⟨kind', valued⟩ := (typed three third other beyond).resolve_left present
  exact apart (comparable.of_dataType (kind'.trans kind.symm) valued)

/-- Rows are compared by a preorder when their columns are not torn. -/
theorem preorders_of_untorn {columns : List Nat} {rows : List Row}
    (untorn : ∀ column ∈ columns, Untorn column rows) (directions : List Bool) :
    Preorders (compareRows columns directions) rows :=
  ⟨compareRows_swap columns directions, fun _ first _ second _ third before after =>
    (compareRows_chains untorn first second third).ne_gt before after⟩

/-! ## Sorted batches -/

/-- With a stable sort of the library, sorting delivers the rows of the input, none of them behind
one that it stands before, and rows that tie in the order they came in. All batches but the last one
are full, and the sort is finished with its last row. -/
theorem sorts_stably [RowSort] [RowSort.Stable] {σ : Type} {source : Supply σ} {upstream : σ}
    {batches : List (List Row)} (input : Delivers source upstream batches none) (id : NodeId)
    (columns : List Nat) (directions : List Bool) {batch : RowBatch} (positive : 0 < batch.capacity)
    (uniform : ∀ column ∈ columns, Uniform column batches.flatten) :
    ∃ enough, ∀ fuel, enough ≤ fuel → ∃ out,
      Delivers (Sorter.supply source fuel) ⟨id, columns, directions, .start upstream, none, batch⟩
        out none ∧
      out.flatten.Perm batches.flatten ∧
      out.flatten.Pairwise (fun earlier later => ¬ RowBefore columns directions later earlier) ∧
      (∀ tied : List Row, tied.Sublist batches.flatten → tied.Pairwise (RowTies columns) →
        tied.Sublist out.flatten) ∧
      (∀ full ∈ out.dropLast, full.length = batch.capacity) ∧
      (∀ part ∈ out, part.length ≤ batch.capacity) ∧
      ([] ∈ out → batches.flatten = []) := by
  refine ⟨batches.length + batches.flatten.length + 3, fun fuel enough => ?_⟩
  obtain ⟨out, delivers, split, closing⟩ :=
    @Sorter.delivers_closing σ source upstream batches fuel _
    ⟨id, columns, directions, .start upstream, none, batch⟩ input rfl rfl (by omega) positive
  have preorders :=
    preorders_of_untorn (fun column listed => (uniform column listed).untorn) directions
  have same := RowSort.perm (compareRows columns directions) batches.flatten
  refine ⟨out, delivers, split.whole ▸ same, ?_, fun tied inside ties => ?_, split.full,
    split.bounded, fun blank => ?_⟩
  · rw [split.whole]
    refine (RowSort.Stable.ordered preorders).imp fun {earlier later} fits before => fits ?_
    rw [compareRows_swap columns directions later earlier, compareRows_eq_lt_iff.2 before,
      Ordering.swap_lt]
  · rw [split.whole]
    refine RowSort.Stable.kept preorders inside (ties.imp fun tie => ?_)
    rw [compareRows_eq_eq tie]
    decide
  · have none := closing blank
    exact List.perm_nil.1 ((none ▸ same).symm)

/-- Four rows in three batches, sorted downwards by a column with a null in batches of two: the rows
that tie come in their order, and the second batch is the last one. -/
theorem sorts_stably_replay : ∃ enough, ∀ fuel, enough ≤ fuel → ∃ out,
    Delivers (Sorter.supply (Executor.supply 1) fuel)
      ⟨0, [0], [false], .start (.replay ⟨0, [[[.int 1, .varchar "a"], [.null, .varchar "b"]], [],
        [[.int 2, .varchar "c"], [.int 1, .varchar "d"]]], none, 0, []⟩), none, ⟨[], 2⟩⟩ out none ∧
    [[.int 1, .varchar "a"], [.int 1, .varchar "d"]].Sublist out.flatten ∧ [] ∉ out := by
  have input : Delivers (Executor.supply 1)
      (.replay ⟨0, [[[.int 1, .varchar "a"], [.null, .varchar "b"]], [],
        [[.int 2, .varchar "c"], [.int 1, .varchar "d"]]], none, 0, []⟩)
      [[[.int 1, .varchar "a"], [.null, .varchar "b"]], [],
        [[.int 2, .varchar "c"], [.int 1, .varchar "d"]]] none :=
    Executor.delivers_replay 0 _ rfl (by decide)
  have uniform : Uniform 0 [[.int 1, .varchar "a"], [.null, .varchar "b"], [.int 2, .varchar "c"],
      [.int 1, .varchar "d"]] := by
    refine ⟨.int, fun row member value found => ?_⟩
    simp only [List.mem_cons, List.not_mem_nil, or_false] at member
    rcases member with rfl | rfl | rfl | rfl <;> cases found <;> simp [Value.dataType]
  obtain ⟨enough, sorts⟩ := sorts_stably input 0 [0] [false]
    (by decide : 0 < (⟨[], 2⟩ : RowBatch).capacity)
    fun column listed => List.mem_singleton.1 listed ▸ uniform
  refine ⟨enough, fun fuel bound => ?_⟩
  obtain ⟨out, delivers, -, -, ties, -, -, closing⟩ := sorts fuel bound
  refine ⟨out, delivers, ties _ (.cons_cons _ (.cons _ (.cons _ (.refl _)))) ?_,
    fun blank => ?_⟩
  · exact List.pairwise_pair.2 fun column listed =>
      List.mem_singleton.1 listed ▸ compareColumns_eq_eq_iff.1 rfl
  · cases closing blank

end QueryFusion
