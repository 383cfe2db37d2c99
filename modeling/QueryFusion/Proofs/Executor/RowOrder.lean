import Mathlib.Order.Compare
import QueryFusion.Executor.Sorter

/-!
# The order of rows

Rows are compared column by column, null and missing values before all others. A comparison turned
around is always reversed. Comparisons are transitive as long as no column is torn, that is, as long
as no value that cannot be compared with two others ties with both while these differ.
-/

namespace QueryFusion

/-! ## Three comparisons -/

/-- How the first of three things compares with the last one, told by how each compares with the one
between: ties are passed on, and so is what both comparisons say. -/
structure Chains (first second whole : Ordering) : Prop where
  left : first = .eq → whole = second
  right : second = .eq → whole = first
  both : first = second → whole = first

namespace Chains

variable {first second whole : Ordering}

/-- Comparisons in an order chain. -/
theorem of_compare {α : Type} [Ord α] [Std.TransOrd α] (one two three : α) :
    Chains (compare one two) (compare two three) (compare one three) := by
  refine ⟨Std.TransCmp.congr_left, fun tie => (Std.TransCmp.congr_right tie).symm, fun same => ?_⟩
  cases known : compare one two with
  | lt => exact Std.TransCmp.lt_trans known (same.symm.trans known)
  | eq => exact (Std.TransCmp.congr_left known).trans (same.symm.trans known)
  | gt => exact Std.TransCmp.gt_trans known (same.symm.trans known)

/-- Comparisons turned around chain when they do. -/
theorem swap (chains : Chains first second whole) :
    Chains first.swap second.swap whole.swap :=
  ⟨fun tie => congrArg _ (chains.left (Ordering.swap_eq_eq.1 tie)),
    fun tie => congrArg _ (chains.right (Ordering.swap_eq_eq.1 tie)),
    fun same => congrArg _ (chains.both (Ordering.swap_inj.1 same))⟩

/-- Comparisons of which others decide the ties chain when both do. -/
theorem refine_ties {first' second' whole' : Ordering} (chains : Chains first second whole)
    (later : Chains first' second' whole') :
    Chains (first.then first') (second.then second') (whole.then whole') := by
  refine ⟨fun tie => ?_, fun tie => ?_, fun same => ?_⟩
  · obtain ⟨one, one'⟩ := Ordering.then_eq_eq.1 tie
    rw [chains.left one, later.left one']
  · obtain ⟨two, two'⟩ := Ordering.then_eq_eq.1 tie
    rw [chains.right two, later.right two']
  · cases first with
    | eq =>
      rw [chains.left rfl]
      cases second with
      | eq => exact later.both same
      | lt | gt => exact same.symm
    | lt =>
      cases second with
      | eq => rw [chains.right rfl]; rfl
      | lt => rw [chains.both rfl]; rfl
      | gt => cases same
    | gt =>
      cases second with
      | eq => rw [chains.right rfl]; rfl
      | lt => cases same
      | gt => rw [chains.both rfl]; rfl

/-- What is not greater twice is not greater. -/
theorem ne_gt (chains : Chains first second whole) (one : first ≠ .gt) (two : second ≠ .gt) :
    whole ≠ .gt := by
  obtain ⟨left, right, both⟩ := chains
  cases first <;> cases second <;> simp_all

end Chains

/-! ## Values of one column -/

/-- Two values of one scalar type, neither of them a double without a value. -/
def Value.Comparable (left right : Value) : Prop :=
  ∃ order, left.order? right = some (some order)

/-- Turning two values around reverses their order, if they have one. -/
theorem Value.order?_swap (left right : Value) :
    right.order? left = (left.order? right).map (Option.map Ordering.swap) := by
  cases left <;> cases right <;> try rfl
  case double.double left right =>
    simp only [order?, Double.order, Bool.or_comm right.isNaN, Option.map_some]
    split
    · rfl
    · rw [Option.map_some, ← Std.OrientedOrd.eq_swap]
  all_goals exact congrArg (some ∘ some) Std.OrientedOrd.eq_swap

/-- Doubles that have an order stand for numbers, and compare as these do. -/
theorem Double.order_eq_some_iff {left right : Double} {order : Ordering} :
    left.order right = some order ↔ left.isNaN = false ∧ right.isNaN = false ∧
      compare left.orderKey right.orderKey = order := by
  unfold Double.order
  cases left.isNaN <;> cases right.isNaN <;> simp

/-- Two values that can be compared with a third one can be compared, and the comparisons chain. -/
theorem Value.order?_chains {one two three : Value} {first second : Ordering}
    (known : one.order? two = some (some first)) (later : two.order? three = some (some second)) :
    ∃ whole, one.order? three = some (some whole) ∧ Chains first second whole := by
  -- only values of one scalar type are left, and those of four types compare by a key at once
  cases one <;> cases two <;> try cases known
  all_goals cases three <;> try cases later
  case double.double.double one two three =>
    obtain ⟨valued, -, rfl⟩ := Double.order_eq_some_iff.1 (Option.some.inj known)
    obtain ⟨-, valued', rfl⟩ := Double.order_eq_some_iff.1 (Option.some.inj later)
    exact ⟨_, congrArg some (Double.order_eq_some_iff.2 ⟨valued, valued', rfl⟩), .of_compare _ _ _⟩
  all_goals exact ⟨_, rfl, .of_compare _ _ _⟩

/-! ## Columns -/

section Columns

variable {one two three : Option Value} {left right : Value}

/-- Null, or not there at all. -/
def IsBlank (value : Option Value) : Prop :=
  value = none ∨ value = some .null

/-- A column that is not blank holds a value. -/
theorem blank_or_present (value : Option Value) :
    IsBlank value ∨ ∃ present, value = some present ∧ present ≠ .null := by
  cases value with
  | none => exact .inl (.inl rfl)
  | some present =>
    by_cases null : present = .null
    · exact .inl (.inr (congrArg some null))
    · exact .inr ⟨present, rfl, null⟩

/-- Blank columns tie. -/
theorem compareColumns_blank (blank : IsBlank one) (blank' : IsBlank two) :
    compareColumns one two = .eq := by
  rcases blank with rfl | rfl <;> rcases blank' with rfl | rfl <;> rfl

/-- A blank column comes first. -/
theorem compareColumns_blank_left (blank : IsBlank one) (present : right ≠ .null) :
    compareColumns one (some right) = .lt := by
  rcases blank with rfl | rfl <;> cases right <;> first | rfl | exact absurd rfl present

/-- A value comes behind a blank column. -/
theorem compareColumns_blank_right (blank : IsBlank two) (present : left ≠ .null) :
    compareColumns (some left) two = .gt := by
  rcases blank with rfl | rfl <;> cases left <;> first | rfl | exact absurd rfl present

/-- Values compare by their order, and tie without one. -/
theorem compareColumns_present (present : left ≠ .null) (present' : right ≠ .null) :
    compareColumns (some left) (some right) = (left.order? right).join.getD .eq := by
  rcases known : left.order? right with _ | _ | order <;>
    simp [compareColumns, present, present', known]

/-- Two columns turned around compare the other way. -/
theorem compareColumns_swap (one two : Option Value) :
    compareColumns two one = (compareColumns one two).swap := by
  rcases blank_or_present one with blank | ⟨left, rfl, present⟩ <;>
    rcases blank_or_present two with blank' | ⟨right, rfl, present'⟩
  · rw [compareColumns_blank blank' blank, compareColumns_blank blank blank', Ordering.swap_eq]
  · rw [compareColumns_blank_right blank present', compareColumns_blank_left blank present',
      Ordering.swap_lt]
  · rw [compareColumns_blank_left blank' present, compareColumns_blank_right blank' present,
      Ordering.swap_gt]
  · rw [compareColumns_present present' present, compareColumns_present present present',
      Value.order?_swap left right]
    rcases left.order? right with _ | _ | order <;> rfl

/-- Two of the values differ, and the third one, which is there, cannot be compared with them. -/
def Torn (one two three : Option Value) : Prop :=
  ∃ left right other order, one = some left ∧ two = some right ∧ three = some other ∧
    left.order? right = some (some order) ∧ order ≠ .eq ∧ other ≠ .null ∧ ¬ left.Comparable other

/-- Values that can be compared stay so when they are turned around. -/
theorem Value.Comparable.symm (comparable : left.Comparable right) : right.Comparable left := by
  obtain ⟨order, known⟩ := comparable
  exact ⟨order.swap, by rw [order?_swap left right, known]; rfl⟩

/-- What can be compared with one value can be compared with all that this one can be compared
with. -/
theorem Value.Comparable.trans {other : Value} (comparable : left.Comparable right)
    (later : right.Comparable other) : left.Comparable other := by
  obtain ⟨order, known⟩ := comparable
  obtain ⟨order', known'⟩ := later
  obtain ⟨whole, found, -⟩ := order?_chains known known'
  exact ⟨whole, found⟩

/-- Values that cannot be compared tie. -/
theorem join_order? (apart : ¬ left.Comparable right) :
    (left.order? right).join.getD .eq = .eq := by
  rcases known : left.order? right with _ | _ | order
  · rfl
  · rfl
  · exact absurd ⟨order, known⟩ apart

/-- The order of two values that are not torn apart by a third one is a tie. -/
theorem tie_of_not_torn {other : Value} (whole : ¬ Torn (some left) (some right) (some other))
    (present : other ≠ .null) (apart : ¬ left.Comparable other) :
    (left.order? right).join.getD .eq = .eq := by
  rcases known : left.order? right with _ | _ | order
  · rfl
  · rfl
  · by_contra differs
    exact whole ⟨left, right, other, order, rfl, rfl, rfl, known, differs, present, apart⟩

/-- Comparisons of three columns chain when none of them tears the others. -/
theorem compareColumns_chains (whole : ¬ Torn one two three) (whole' : ¬ Torn two three one)
    (whole'' : ¬ Torn one three two) :
    Chains (compareColumns one two) (compareColumns two three) (compareColumns one three) := by
  rcases blank_or_present one with blank | ⟨left, rfl, present⟩ <;>
    rcases blank_or_present two with blank' | ⟨right, rfl, present'⟩ <;>
    rcases blank_or_present three with blank'' | ⟨other, rfl, present''⟩
  · rw [compareColumns_blank blank blank', compareColumns_blank blank' blank'',
      compareColumns_blank blank blank'']
    constructor <;> decide
  · rw [compareColumns_blank blank blank', compareColumns_blank_left blank' present'',
      compareColumns_blank_left blank present'']
    constructor <;> decide
  · rw [compareColumns_blank_left blank present', compareColumns_blank_right blank'' present',
      compareColumns_blank blank blank'']
    constructor <;> decide
  · rw [compareColumns_blank_left blank present', compareColumns_blank_left blank present'']
    exact ⟨nofun, fun tie => rfl, fun _ => rfl⟩
  · rw [compareColumns_blank_right blank' present, compareColumns_blank blank' blank'',
      compareColumns_blank_right blank'' present]
    constructor <;> decide
  · rw [compareColumns_blank_right blank' present, compareColumns_blank_left blank' present'']
    constructor <;> nofun
  · rw [compareColumns_blank_right blank'' present', compareColumns_blank_right blank'' present]
    exact ⟨fun _ => rfl, nofun, fun same => same.symm⟩
  · rw [compareColumns_present present present', compareColumns_present present' present'',
      compareColumns_present present present'']
    by_cases first : left.Comparable right
    · by_cases second : right.Comparable other
      · obtain ⟨order, known⟩ := first
        obtain ⟨order', known'⟩ := second
        obtain ⟨order'', found, chains⟩ := Value.order?_chains known known'
        rw [known, known', found]
        exact chains
      · have third : ¬ left.Comparable other := fun known => second (first.symm.trans known)
        rw [tie_of_not_torn whole present'' third, join_order? second, join_order? third]
        constructor <;> decide
    · by_cases second : right.Comparable other
      · have third : ¬ left.Comparable other := fun known => first (known.trans second.symm)
        rw [tie_of_not_torn whole' present fun known => first known.symm, join_order? first,
          join_order? third]
        constructor <;> decide
      · rw [tie_of_not_torn whole'' present' first, join_order? first, join_order? second]
        constructor <;> decide

end Columns

/-! ## Rows -/

section Rows

variable {columns : List Nat} {ascending : List Bool}

/-- A row compares by its first column, with its direction, and ties there by the others. -/
theorem compareRows_cons (column : Nat) (columns : List Nat) (ascending : List Bool)
    (left right : Row) : compareRows (column :: columns) ascending left right =
      (if ascending.headD true then compareColumns left[column]? right[column]?
        else (compareColumns left[column]? right[column]?).swap).then
        (compareRows columns ascending.tail left right) := by
  rw [compareRows]
  generalize (if ascending.headD true then compareColumns left[column]? right[column]?
    else (compareColumns left[column]? right[column]?).swap) = directed
  cases directed <;> rfl

/-- Two rows turned around compare the other way. -/
theorem compareRows_swap (columns : List Nat) (ascending : List Bool) (left right : Row) :
    compareRows columns ascending right left = (compareRows columns ascending left right).swap := by
  induction columns generalizing ascending with
  | nil => rfl
  | cons column columns step =>
    rw [compareRows_cons, compareRows_cons, Ordering.swap_then, step,
      compareColumns_swap left[column]? right[column]?]
    cases ascending.headD true <;> rfl

/-- No three of the rows tear the column. -/
def Untorn (column : Nat) (rows : List Row) : Prop :=
  ∀ one ∈ rows, ∀ two ∈ rows, ∀ three ∈ rows, ¬ Torn one[column]? two[column]? three[column]?

/-- Comparisons of three rows chain when these tear none of the columns. -/
theorem compareRows_chains {rows : List Row} (untorn : ∀ column ∈ columns, Untorn column rows)
    {one two three : Row} (first : one ∈ rows) (second : two ∈ rows) (third : three ∈ rows) :
    Chains (compareRows columns ascending one two) (compareRows columns ascending two three)
      (compareRows columns ascending one three) := by
  induction columns generalizing ascending with
  | nil => exact ⟨fun _ => rfl, fun _ => rfl, fun _ => rfl⟩
  | cons column columns step =>
    have whole := untorn column (List.mem_cons_self ..)
    have chains := compareColumns_chains (whole one first two second three third)
      (whole two second three third one first) (whole one first three third two second)
    rw [compareRows_cons, compareRows_cons, compareRows_cons]
    refine Chains.refine_ties ?_
      (step fun other later => untorn other (List.mem_cons_of_mem _ later))
    cases ascending.headD true with
    | true => exact chains
    | false => exact chains.swap

/-- Among these rows, what does not come behind something that does not come behind a third row does
not come behind that row. -/
def TransitiveOn (order : Row → Row → Ordering) (rows : List Row) : Prop :=
  ∀ one ∈ rows, ∀ two ∈ rows, ∀ three ∈ rows,
    order one two ≠ .gt → order two three ≠ .gt → order one three ≠ .gt

/-- A value that can be compared is not null. -/
theorem Value.Comparable.ne_null {left right : Value} (comparable : left.Comparable right) :
    left ≠ .null := by
  rintro rfl
  obtain ⟨order, known⟩ := comparable
  cases right <;> cases known

/-- Columns that hold incomparable values tie. -/
theorem compareColumns_apart {left right : Value} (present : left ≠ .null)
    (present' : right ≠ .null) (apart : ¬ left.Comparable right) :
    compareColumns (some left) (some right) = .eq := by
  rw [compareColumns_present present present', join_order? apart]

/-- Rows that are compared by one column. -/
theorem compareRows_single (column : Nat) (left right : Row) :
    compareRows [column] [] left right = compareColumns left[column]? right[column]? := by
  rw [compareRows_cons]
  exact Ordering.then_eq

/-- Three rows that tear a column are not compared transitively by it. -/
theorem untorn_of_transitive {column : Nat} {rows : List Row}
    (transitive : TransitiveOn (compareRows [column] []) rows) : Untorn column rows := by
  rintro one first two second three third
    ⟨left, right, other, order, here, there, beyond, known, differs, present, apart⟩
  have comparable : left.Comparable right := ⟨order, known⟩
  have apart' : ¬ right.Comparable other := fun later => apart (comparable.trans later)
  have left_other : compareRows [column] [] one three = .eq := by
    rw [compareRows_single, here, beyond, compareColumns_apart comparable.ne_null present apart]
  have right_other : compareRows [column] [] two three = .eq := by
    rw [compareRows_single, there, beyond, compareColumns_apart comparable.symm.ne_null
      present apart']
  have left_right : compareRows [column] [] one two = order := by
    rw [compareRows_single, here, there,
      compareColumns_present comparable.ne_null comparable.symm.ne_null, known]
    rfl
  -- the third row ties with both, so it would let the greater of them stand before the smaller one
  cases order with
  | eq => exact differs rfl
  | lt =>
    refine transitive two second three third one first ?_ ?_ ?_
    · rw [right_other]
      decide
    · rw [compareRows_swap, left_other]
      decide
    · rw [compareRows_swap, left_right, Ordering.swap_lt]
  | gt =>
    refine transitive one first three third two second ?_ ?_ left_right
    · rw [left_other]
      decide
    · rw [compareRows_swap, right_other]
      decide

/-- Two rows turned around always compare the other way. Comparisons of rows are transitive,
whichever of the columns are chosen and in whatever directions, exactly when the rows tear none of
the columns. -/
theorem compareRows_preorder (columns : List Nat) (rows : List Row) :
    (∀ ascending left right, compareRows columns ascending right left =
      (compareRows columns ascending left right).swap) ∧
    ((∀ column ∈ columns, Untorn column rows) ↔
      ∀ chosen, chosen ⊆ columns → ∀ ascending, TransitiveOn
        (compareRows chosen ascending) rows) := by
  refine ⟨compareRows_swap columns, fun untorn chosen inside ascending => ?_,
    fun transitive column member => ?_⟩
  · intro one first two second three third before after
    exact (compareRows_chains (fun column listed => untorn column (inside listed)) first second
      third).ne_gt before after
  · exact untorn_of_transitive
      (transitive [column] (List.cons_subset.2 ⟨member, List.nil_subset _⟩) [])

/-- Comparing rows is not transitive where a double without a value lies between two numbers: it
ties with both, and the sort leaves the larger number before the smaller one. -/
theorem compareRows_not_transitive : ∃ one two three : Row,
    compareRows [0] [true] one two ≠ .gt ∧ compareRows [0] [true] two three ≠ .gt ∧
      compareRows [0] [true] one three = .gt ∧
      sortRows (compareRows [0] [true]) [one, two, three] = [one, two, three] :=
  ⟨[.double ⟨0x3FF0000000000000⟩], [.double ⟨0x7FF8000000000000⟩], [.double ⟨0⟩], by
    decide, by decide, by decide, rfl⟩

end Rows

end QueryFusion
