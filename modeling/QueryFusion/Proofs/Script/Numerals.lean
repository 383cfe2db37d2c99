import QueryFusion.Proofs.Decimal.ReadBack
import QueryFusion.Proofs.Script.Scanning
import QueryFusion.Script.Parser

/-!
# Numbers in source text

The literal of a double is a numeral: digits, a fraction and a power of ten. The lexer reads it as
one token, and the parser reads the token as the double that was written.
-/

namespace QueryFusion.Script

/-! ## Digits -/

/-- The digits of a number are digits. -/
theorem isDigits_toDigits (number : Nat) : isDigits (Nat.toDigits 10 number) = true := by
  have valid : ∀ c ∈ Nat.toDigits 10 number, c.isDigit = true := fun c inside =>
    Nat.isDigit_of_mem_toDigits (by decide) (by decide) inside
  have someDigit : (Nat.toDigits 10 number).isEmpty = false := by
    rw [List.isEmpty_eq_false_iff]
    exact Nat.toDigits_ne_nil
  rw [isDigits, someDigit, List.all_eq_true.2 valid]
  rfl

/-- Digits stand for the number they were made from. -/
theorem valueOf_toDigits (number : Nat) : Decimal.valueOf (Nat.toDigits 10 number) = number :=
  Nat.ofDigitChars_ten_toDigits

/-- Zeros in front do not count. -/
theorem valueOf_zeros_append (count : Nat) (digits : List Char) :
    Decimal.valueOf (List.replicate count '0' ++ digits) = Decimal.valueOf digits := by
  have zeros : Nat.ofDigitChars 10 (List.replicate count '0') 0 = 0 := by simp
  change Nat.ofDigitChars 10 (List.replicate count '0' ++ digits) 0 = Nat.ofDigitChars 10 digits 0
  rw [Nat.ofDigitChars_append, zeros]

/-- Each zero behind the digits counts ten times. -/
theorem valueOf_append_zeros (digits : List Char) (count : Nat) :
    Decimal.valueOf (digits ++ List.replicate count '0') =
      10 ^ count * Decimal.valueOf digits := by
  change Nat.ofDigitChars 10 (digits ++ List.replicate count '0') 0 = _
  rw [Nat.ofDigitChars_append, Nat.ofDigitChars_replicate_zero]
  rfl

/-- The text of an integer: a minus sign if need be, and digits. -/
theorem toList_toString (number : Int) :
    (toString number).toList = if 0 ≤ number then Nat.toDigits 10 number.toNat
      else '-' :: Nat.toDigits 10 (-number).toNat := by
  rw [Int.toString_eq_repr, Int.repr_eq_if]
  split
  · exact Nat.toList_repr
  · simp

/-! ## Numerals -/

/-- A number with a fraction or a power of ten. -/
structure Numeral where
  whole : List Char
  /-- The digits behind the point; without any there is no point. -/
  fraction : List Char
  power : Option Int
  deriving DecidableEq

namespace Numeral

/-- The fraction as it is written. -/
def fractionText (numeral : Numeral) : List Char :=
  if numeral.fraction = [] then [] else '.' :: numeral.fraction

/-- The power as it is written. -/
def powerText (numeral : Numeral) : List Char :=
  match numeral.power with
  | none => []
  | some power => 'e' :: (toString power).toList

/-- The text of a numeral. -/
def chars (numeral : Numeral) : List Char :=
  numeral.whole ++ (numeral.fractionText ++ numeral.powerText)

/-- The numeral can be told from an integer, and has only digits where they belong. -/
structure Valid (numeral : Numeral) : Prop where
  whole : isDigits numeral.whole = true
  fraction : ∀ c ∈ numeral.fraction, c.isDigit = true
  shown : numeral.fraction ≠ [] ∨ numeral.power.isSome = true

variable {numeral : Numeral}

/-- The fraction of a numeral is one. -/
theorem Valid.isFraction (valid : numeral.Valid) : isFraction numeral.fractionText = true := by
  unfold fractionText
  split
  · rfl
  · rename_i some_place
    have digits := List.all_eq_true.2 valid.fraction
    simp [Script.isFraction, isDigits, some_place, digits]

/-- The first digit of a number is no sign. -/
theorem toDigits_cons (number : Nat) :
    ∃ c rest, Nat.toDigits 10 number = c :: rest ∧ c ≠ '+' ∧ c ≠ '-' := by
  obtain ⟨c, rest, shape, digit⟩ := Spells.digits_cons (isDigits_toDigits number)
  refine ⟨c, rest, shape, ?_, ?_⟩
  · rintro rfl
    revert digit
    decide
  · rintro rfl
    revert digit
    decide

/-- The exponent of a numeral is one. -/
theorem isExponent_powerText (numeral : Numeral) : isExponent numeral.powerText = true := by
  unfold powerText
  split
  · rfl
  · rename_i power same
    rw [toList_toString]
    split
    · have plain : signOf (Nat.toDigits 10 power.toNat) = [] := by
        obtain ⟨c, rest, shape, notPlus, notMinus⟩ := toDigits_cons power.toNat
        rw [shape]
        simp [signOf, notPlus, notMinus]
      simp [isExponent, plain, isDigits_toDigits]
    · simp [isExponent, signOf, isDigits_toDigits]

/-- A numeral is one token. -/
theorem Valid.spells (valid : numeral.Valid) {tail : List Char} (parted : parts tail = true) :
    Spells numeral.chars tail [⟨.float, String.ofList numeral.chars, .first⟩] := by
  have shown : numeral.fractionText ≠ [] ∨ numeral.powerText ≠ [] := by
    rcases valid.shown with some_place | powered
    · left
      simp [fractionText, some_place]
    · right
      obtain ⟨power, same⟩ := Option.isSome_iff_exists.1 powered
      simp [powerText, same]
  have spelled := Spells.float valid.whole valid.isFraction (isExponent_powerText numeral) shown
    parted
  rw [List.append_assoc] at spelled
  exact spelled

/-- The text of a power starts with no digit and no point. -/
theorem powerText_cases (numeral : Numeral) :
    numeral.powerText = [] ∨ ∃ rest, numeral.powerText = 'e' :: rest := by
  unfold powerText
  split
  · exact .inl rfl
  · exact .inr ⟨_, rfl⟩

/-- The power of ten that the text behind the places stands for. -/
def powerOf : List Char → Int
  | 'e' :: '-' :: digits => -(Decimal.valueOf digits : Int)
  | 'e' :: '+' :: digits => Decimal.valueOf digits
  | 'e' :: digits => Decimal.valueOf digits
  | _ => 0

/-- The text of a power is read as the power. -/
theorem powerOf_powerText (numeral : Numeral) :
    powerOf numeral.powerText = numeral.power.getD 0 := by
  unfold powerText
  cases numeral.power with
  | none => rfl
  | some power =>
    simp only [toList_toString, Option.getD_some]
    by_cases above : 0 ≤ power
    · obtain ⟨c, rest, shape, notPlus, notMinus⟩ := toDigits_cons power.toNat
      have value := valueOf_toDigits power.toNat
      rw [if_pos above, shape]
      rw [shape] at value
      unfold powerOf
      split
      · simp_all
      · simp_all
      · simp_all
      · simp_all
    · rw [if_neg above]
      simp only [powerOf, valueOf_toDigits]
      omega

/-- The parser reads a numeral as the double nearest to what it stands for. -/
theorem Valid.doubleOf_eq (valid : numeral.Valid) (negative : Bool) :
    doubleOf negative numeral.chars = Decimal.toDouble negative
      (Decimal.valueOf (numeral.whole ++ numeral.fraction))
      (numeral.power.getD 0 - numeral.fraction.length) := by
  have powerStops : numeral.powerText.takeWhile Char.isDigit = [] := by
    rcases powerText_cases numeral with none | ⟨rest, shape⟩
    · rw [none]
      rfl
    · rw [shape]
      simp
  have fractionStops :
      (numeral.fractionText ++ numeral.powerText).takeWhile Char.isDigit = [] := by
    unfold fractionText
    split
    · exact powerStops
    · simp
  have wholeRead := Spells.takeWhile_digits valid.whole fractionStops
  have fractionRead : (numeral.fraction ++ numeral.powerText).takeWhile Char.isDigit =
      numeral.fraction := by
    rw [List.takeWhile_append_of_pos valid.fraction, powerStops, List.append_nil]
  unfold doubleOf chars
  simp only [wholeRead, List.drop_left]
  by_cases none : numeral.fraction = []
  · have bare : numeral.fractionText = [] := by simp [fractionText, none]
    have unpointed : ∀ rest, numeral.powerText ≠ '.' :: rest := by
      intro rest pointed
      rcases powerText_cases numeral with empty | ⟨digits, shape⟩ <;> simp_all
    rw [bare, List.nil_append]
    split
    · rename_i rest pointed
      exact absurd pointed (unpointed rest)
    · rw [none]
      exact congrArg (fun power => Decimal.toDouble negative
        (Decimal.valueOf (numeral.whole ++ [])) (power - (0 : Nat))) (powerOf_powerText numeral)
  · have pointed : numeral.fractionText = '.' :: numeral.fraction := by simp [fractionText, none]
    rw [pointed, List.cons_append]
    simp only [fractionRead, List.drop_left]
    exact congrArg (fun power => Decimal.toDouble negative
      (Decimal.valueOf (numeral.whole ++ numeral.fraction))
      (power - numeral.fraction.length)) (powerOf_powerText numeral)

/-- The literal of a decimal: with a power of ten when it is large or small, else in its places. -/
def ofDecimal (decimal : Decimal.Scaled) : Numeral :=
  let digits := Nat.toDigits 10 decimal.digits
  let order := decimal.exponent + digits.length - 1
  let places := (-decimal.exponent).toNat
  if Decimal.Layout.literal.usesExponent order then ⟨digits.take 1, digits.drop 1, some order⟩
  else if 0 ≤ decimal.exponent then
    ⟨digits ++ List.replicate decimal.exponent.toNat '0', ['0'], none⟩
  else if places < digits.length then
    ⟨digits.take (digits.length - places), digits.drop (digits.length - places), none⟩
  else ⟨['0'], List.replicate (places - digits.length) '0' ++ digits, none⟩

/-- Part of some digits, which is not empty, consists of digits. -/
theorem isDigits_of_subset {digits part : List Char} (valid : isDigits digits = true)
    (someDigit : part ≠ []) (inside : part ⊆ digits) : isDigits part = true := by
  simp only [isDigits, Bool.and_eq_true, List.all_eq_true] at valid ⊢
  refine ⟨?_, fun c here => valid.2 c (inside here)⟩
  simp [someDigit]

/-- The literal of a decimal is a numeral. -/
theorem ofDecimal_valid (decimal : Decimal.Scaled) : (ofDecimal decimal).Valid := by
  have digits := isDigits_toDigits decimal.digits
  have isDigit : ∀ c ∈ Nat.toDigits 10 decimal.digits, c.isDigit = true := by
    simp only [isDigits, Bool.and_eq_true, List.all_eq_true] at digits
    exact digits.2
  have someDigit : 0 < (Nat.toDigits 10 decimal.digits).length := Nat.length_toDigits_pos
  have zeros : ∀ count, ∀ c ∈ List.replicate count '0', c.isDigit = true := by
    intro count c inside
    rw [(List.mem_replicate.1 inside).2]
    decide
  unfold ofDecimal
  simp only
  split
  · refine ⟨isDigits_of_subset digits ?_ (List.take_subset _ _), fun c inside => ?_, .inr rfl⟩
    · simp [List.take_eq_nil_iff]
    · exact isDigit c (List.mem_of_mem_drop inside)
  · split
    · refine ⟨?_, zeros 1, .inl (List.cons_ne_nil _ _)⟩
      simp only [isDigits, Bool.and_eq_true, List.all_eq_true, List.mem_append]
      refine ⟨by simp, ?_⟩
      rintro c (inside | inside)
      · exact isDigit c inside
      · exact zeros _ c inside
    · split
      · rename_i shorter
        refine ⟨isDigits_of_subset digits ?_ (List.take_subset _ _), fun c inside => ?_, .inl ?_⟩
        · simp only [ne_eq, List.take_eq_nil_iff, Nat.toDigits_ne_nil, or_false]
          omega
        · exact isDigit c (List.mem_of_mem_drop inside)
        · simp only [ne_eq, List.drop_eq_nil_iff]
          omega
      · refine ⟨rfl, fun c inside => ?_, .inl (by simp)⟩
        rcases List.mem_append.1 inside with inside | inside
        · exact zeros _ c inside
        · exact isDigit c inside

/-- The literal of a decimal stands for the decimal. -/
theorem ofDecimal_value (decimal : Decimal.Scaled) :
    (Decimal.valueOf ((ofDecimal decimal).whole ++ (ofDecimal decimal).fraction) : ℚ) *
      10 ^ ((ofDecimal decimal).power.getD 0 - (ofDecimal decimal).fraction.length) =
      decimal.value := by
  have value := valueOf_toDigits decimal.digits
  have someDigit : 0 < (Nat.toDigits 10 decimal.digits).length := Nat.length_toDigits_pos
  unfold ofDecimal Decimal.Scaled.value
  simp only
  split
  · simp only [List.take_append_drop, value, Option.getD_some, List.length_drop]
    congr 2
    omega
  · split
    · rename_i above
      have ten : (10 : ℚ) ≠ 0 := by norm_num
      have last : ['0'] = List.replicate 1 '0' := rfl
      rw [last, List.append_assoc, List.replicate_append_replicate, valueOf_append_zeros, value]
      push_cast
      rw [← zpow_natCast, mul_right_comm, mul_comm, ← zpow_add₀ ten]
      congr 2
      simp
      omega
    · split
      · simp only [List.take_append_drop, value, Option.getD_none, List.length_drop]
        congr 2
        omega
      · have first : ['0'] = List.replicate 1 '0' := rfl
        rw [first, ← List.append_assoc, List.replicate_append_replicate,
          valueOf_zeros_append, value]
        simp only [Option.getD_none, List.length_append, List.length_replicate]
        congr 2
        omega

/-- A finite double is written as its sign and the literal of its shortest decimal. -/
theorem render_literal {number : Double} (finite : number.isFinite = true) :
    (Decimal.Layout.literal.render number).toList =
      (if number.isNegative then ['-'] else []) ++ (ofDecimal (Decimal.shortest number)).chars := by
  have valued : number.isNaN = false := by
    simp only [Double.isFinite, bne_iff_ne] at finite
    simp [Double.isNaN, finite]
  unfold Decimal.Layout.render
  simp only [valued, finite, Bool.not_true, Bool.false_eq_true, if_false, String.toList_ofList]
  congr 1
  unfold ofDecimal chars fractionText powerText
  simp only
  generalize Decimal.shortest number = decimal
  have someDigit : 0 < (Nat.toDigits 10 decimal.digits).length := Nat.length_toDigits_pos
  generalize Nat.toDigits 10 decimal.digits = digits at *
  split
  · obtain ⟨first, rest, rfl⟩ := List.exists_cons_of_length_pos someDigit
    cases rest with
    | nil => rfl
    | cons second rest => simp [Decimal.scientific]
  · unfold Decimal.positional
    split
    · simp [Decimal.Layout.literal]
    · simp only
      split
      · rename_i shorter
        have behind : digits.drop (digits.length - (-decimal.exponent).toNat) ≠ [] := by
          rw [ne_eq, List.drop_eq_nil_iff]
          omega
        simp [behind]
      · have behind : List.replicate ((-decimal.exponent).toNat - digits.length) '0' ++ digits ≠
            [] := by
          rw [ne_eq, List.append_eq_nil_iff, not_and]
          intro _ none
          rw [none] at someDigit
          cases someDigit
        simp only [behind, if_false, List.append_nil]
        simp

/-- The literal of a finite double is read as the double. -/
theorem doubleOf_literal {number : Double} (finite : number.isFinite = true) :
    doubleOf number.isNegative (ofDecimal (Decimal.shortest number)).chars = number := by
  rw [(ofDecimal_valid _).doubleOf_eq]
  by_cases zero : number.magnitude = 0
  · have shortest : Decimal.shortest number = ⟨0, 0⟩ := by simp [Decimal.shortest, zero]
    have numeral : ofDecimal ⟨0, 0⟩ = ⟨['0'], ['0'], none⟩ := by decide
    have digits : Decimal.valueOf ['0', '0'] = 0 := by decide
    rw [shortest, numeral]
    simp only [List.cons_append, List.nil_append, digits, Decimal.toDouble, if_true]
    rw [← zero]
    exact number.ofMagnitude_eq
  · refine Decimal.toDouble_eq finite zero ?_
    rw [ofDecimal_value]
    exact Decimal.shortest_rounds finite zero

end Numeral

end QueryFusion.Script
