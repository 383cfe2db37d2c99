import QueryFusion.Path

/-!
# Texts of field paths

The text of a path is meant to be read as that path. It is, with one exception: below the value a
field may have a name that starts with `__key` or `this`, which is written behind `this.`; the text
of the path leaves `this.` out, and what remains addresses the whole key, the whole value or another
field. Reading is told by rules, one for each form of a text.
-/

namespace QueryFusion

/-- A part without points is split off. -/
theorem segmentsOf_append {first : List Char} (plain : '.' ∉ first) (rest : List Char) :
    segmentsOf (first ++ '.' :: rest) = first :: segmentsOf rest := by
  induction first with
  | nil => simp [segmentsOf]
  | cons c others step =>
    obtain ⟨other, inner⟩ := not_or.1 (mt List.mem_cons.2 plain)
    rw [List.cons_append, segmentsOf, if_neg (Ne.symm other), step inner]

namespace FieldPath

/-- No part of the name is empty. -/
def Whole (name : String) : Prop :=
  ∀ part ∈ segmentsOf name.toList, part ≠ []

/-- The word is the name of the whole key or value. -/
def Reserved (word : String) : Prop :=
  word = keyName ∨ word = valueName

/-- The first part of the name is the name of the whole key or value. -/
def StartsReserved (name : String) : Prop :=
  ∃ word, Reserved word ∧ (name = word ∨ ∃ rest, name = word ++ "." ++ rest)

variable {source name word : String} {path : FieldPath}

/-- The parts of a name below a whole key or value. -/
theorem Reserved.segmentsOf_eq (reserved : Reserved word) (name : String) :
    segmentsOf (word ++ "." ++ name).toList = word.toList :: segmentsOf name.toList := by
  have plain : '.' ∉ word.toList := by
    rcases reserved with rfl | rfl <;> decide
  rw [String.toList_append, String.toList_append, List.append_assoc]
  exact segmentsOf_append plain name.toList

/-- A name below a whole key or value has no empty part when the name has none. -/
theorem Reserved.whole_iff (reserved : Reserved word) (name : String) :
    Whole (word ++ "." ++ name) ↔ Whole name := by
  have proper : word.toList ≠ [] := by
    rcases reserved with rfl | rfl <;> decide
  rw [Whole, reserved.segmentsOf_eq, List.forall_mem_cons]
  exact and_iff_right proper

/-! ## Reading -/

/-- The text is read as the path. -/
inductive Reads : String → FieldPath → Prop
  | key : Reads keyName ⟨true, none⟩
  | value : Reads valueName ⟨false, none⟩
  | ofKey {name : String} (whole : Whole name) : Reads (keyName ++ "." ++ name) ⟨true, some name⟩
  | ofValue {name : String} (whole : Whole name) :
    Reads (valueName ++ "." ++ name) ⟨false, some name⟩
  | plain {name : String} (whole : Whole name) (fresh : ¬ StartsReserved name) :
    Reads name ⟨false, some name⟩

/-- A text that is read has no empty part. -/
theorem Reads.whole (reads : Reads source path) : Whole source := by
  cases reads with
  | key => unfold Whole; decide
  | value => unfold Whole; decide
  | ofKey whole => exact (Reserved.whole_iff (.inl rfl) _).2 whole
  | ofValue whole => exact (Reserved.whole_iff (.inr rfl) _).2 whole
  | plain whole => exact whole

/-- A text without empty parts is read by the form of its first part. -/
theorem parse_eq (whole : Whole source) : parse source =
    if source = keyName then .ok ⟨true, none⟩
    else if source = valueName then .ok ⟨false, none⟩
    else
      match source.toList with
      | '_' :: '_' :: 'k' :: 'e' :: 'y' :: '.' :: rest => .ok ⟨true, some (String.ofList rest)⟩
      | 't' :: 'h' :: 'i' :: 's' :: '.' :: rest => .ok ⟨false, some (String.ofList rest)⟩
      | _ => .ok ⟨false, some source⟩ := by
  have full : (segmentsOf source.toList).any List.isEmpty = false := by
    rw [List.any_eq_false]
    intro part member
    simpa using whole part member
  rw [parse, full]
  rfl

/-- The characters of a name below the whole key. -/
theorem toList_ofKey (name : String) : (keyName ++ "." ++ name).toList =
    '_' :: '_' :: 'k' :: 'e' :: 'y' :: '.' :: name.toList := by
  simp [keyName]

/-- The characters of a name below the whole value. -/
theorem toList_ofValue (name : String) : (valueName ++ "." ++ name).toList =
    't' :: 'h' :: 'i' :: 's' :: '.' :: name.toList := by
  simp [valueName]

/-- A name below a whole key or value is none of these itself. -/
theorem below_ne (word name : String) :
    word ++ "." ++ name ≠ keyName ∧ word ++ "." ++ name ≠ valueName := by
  have apart : ∀ other : String, '.' ∉ other.toList → word ++ "." ++ name ≠ other := by
    rintro other plain rfl
    simp at plain
  exact ⟨apart _ (by decide), apart _ (by decide)⟩

/-- What the rules read is read. -/
theorem Reads.parse_eq (reads : Reads source path) : parse source = .ok path := by
  have whole := reads.whole
  rw [FieldPath.parse_eq whole]
  cases reads with
  | key => rfl
  | value => rfl
  | ofKey =>
    obtain ⟨no_key, no_value⟩ := below_ne keyName _
    rw [if_neg no_key, if_neg no_value, toList_ofKey]
    show Except.ok (FieldPath.mk true (some (String.ofList _))) = _
    rw [String.ofList_toList]
  | ofValue =>
    obtain ⟨no_key, no_value⟩ := below_ne valueName _
    rw [if_neg no_key, if_neg no_value, toList_ofValue]
    show Except.ok (FieldPath.mk false (some (String.ofList _))) = _
    rw [String.ofList_toList]
  | plain _ fresh =>
    rw [if_neg fun same => fresh ⟨keyName, .inl rfl, .inl same⟩,
      if_neg fun same => fresh ⟨valueName, .inr rfl, .inl same⟩]
    split
    · rename_i rest same
      refine absurd ⟨keyName, .inl rfl, .inr ⟨String.ofList rest, ?_⟩⟩ fresh
      rw [← String.toList_inj, toList_ofKey, String.toList_ofList, same]
    · rename_i rest same
      refine absurd ⟨valueName, .inr rfl, .inr ⟨String.ofList rest, ?_⟩⟩ fresh
      rw [← String.toList_inj, toList_ofValue, String.toList_ofList, same]
    · rfl

/-- A text without empty parts is read by one of the rules. -/
theorem exists_reads (whole : Whole source) : ∃ path, Reads source path := by
  by_cases reserved : StartsReserved source
  · obtain ⟨word, rfl | rfl, rfl | ⟨rest, rfl⟩⟩ := reserved
    · exact ⟨_, .key⟩
    · exact ⟨_, .ofKey ((Reserved.whole_iff (.inl rfl) rest).1 whole)⟩
    · exact ⟨_, .value⟩
    · exact ⟨_, .ofValue ((Reserved.whole_iff (.inr rfl) rest).1 whole)⟩
  · exact ⟨_, .plain whole reserved⟩

/-- What is read is read by the rules. -/
theorem reads_of_parse (read : parse source = .ok path) : Reads source path := by
  have whole : Whole source := by
    intro part member
    rw [parse] at read
    split at read
    · cases read
    · rename_i full
      simp only [List.any_eq_true, not_exists, not_and] at full
      simpa using full part member
  obtain ⟨other, reads⟩ := exists_reads whole
  obtain rfl := Except.ok.inj (reads.parse_eq.symm.trans read)
  exact reads

/-! ## Reading again -/

/-- A name that is read as a field of the value of this name does not start with the name of the
whole key or value. -/
theorem Reads.not_startsReserved (reads : Reads name ⟨false, some name⟩) :
    ¬ StartsReserved name := by
  generalize same : (⟨false, some name⟩ : FieldPath) = path at reads
  cases reads with
  | key => cases same
  | value => cases same
  | ofKey => cases same
  | ofValue =>
    have length := congrArg (fun path => (path.below.getD "").toList.length) same
    simp only [Option.getD_some, toList_ofValue, List.length_cons] at length
    omega
  | plain _ fresh => exact fresh

/-- The text of a path is read, and as that path unless its name stood behind `this.` and starts
with the name of the whole key or value. -/
theorem text_read_again (read : parse source = .ok path) :
    ∃ again, parse path.text = .ok again ∧
      (again = path ↔ ¬ ∃ name, source = valueName ++ "." ++ name ∧ StartsReserved name) := by
  have reads := reads_of_parse read
  cases reads with
  | key =>
    refine ⟨_, Reads.key.parse_eq, iff_of_true rfl ?_⟩
    rintro ⟨name, same, -⟩
    exact (below_ne valueName name).1 same.symm
  | value =>
    refine ⟨_, Reads.value.parse_eq, iff_of_true rfl ?_⟩
    rintro ⟨name, same, -⟩
    exact (below_ne valueName name).2 same.symm
  | ofKey whole =>
    refine ⟨_, (Reads.ofKey whole).parse_eq, iff_of_true rfl ?_⟩
    rintro ⟨name, same, -⟩
    rw [← String.toList_inj, toList_ofKey, toList_ofValue] at same
    cases same
  | @ofValue name whole =>
    obtain ⟨again, reads⟩ := exists_reads whole
    refine ⟨again, reads.parse_eq, ?_, ?_⟩
    · rintro rfl ⟨other, same, reserved⟩
      rw [← String.toList_inj, toList_ofValue, toList_ofValue] at same
      simp only [List.cons.injEq, true_and, String.toList_inj] at same
      exact reads.not_startsReserved (same ▸ reserved)
    · intro free
      have fresh : ¬ StartsReserved name := fun reserved => free ⟨name, rfl, reserved⟩
      exact Except.ok.inj (reads.parse_eq.symm.trans (Reads.plain whole fresh).parse_eq)
  | plain whole fresh =>
    refine ⟨_, (Reads.plain whole fresh).parse_eq, iff_of_true rfl ?_⟩
    rintro ⟨name, same, -⟩
    exact fresh ⟨valueName, .inr rfl, .inr ⟨name, same⟩⟩

/-- Reserved names further down are no exception. -/
theorem text_read_again_nested : parse "this.items.__key" = .ok ⟨false, some "items.__key"⟩ ∧
    ∃ again, parse (text ⟨false, some "items.__key"⟩) = .ok again ∧
      (again = ⟨false, some "items.__key"⟩ ↔
        ¬ ∃ name, "this.items.__key" = valueName ++ "." ++ name ∧ StartsReserved name) := by
  have read : parse "this.items.__key" = .ok ⟨false, some "items.__key"⟩ := by rfl
  exact ⟨read, text_read_again read⟩

/-- The text of the field `__key` of the value is read as the whole key. -/
theorem text_read_otherwise : parse "this.__key" = .ok ⟨false, some "__key"⟩ ∧
    parse (text ⟨false, some "__key"⟩) = .ok ⟨true, none⟩ :=
  ⟨rfl, rfl⟩

end FieldPath

end QueryFusion
