import Mathlib.Data.Nat.Cast.Order.Field
import QueryFusion.Decimal.Layout
import QueryFusion.Proofs.Double.Rounding

/-!
# The shortest decimal rounds back

The shortest decimal of a finite double lies in the interval of what rounds to the double, and
seventeen digits are always enough to find one. So the decimal, read as a number, gives the double
back.
-/

namespace QueryFusion.Decimal

open Double (twoTo)

/-! ## Powers of ten -/

/-- A power of ten as a rational. -/
theorem tenTo_cast (exponent : Nat) : ((tenTo exponent : Nat) : ℚ) = 10 ^ (exponent : ℤ) := by
  rw [tenTo, zpow_natCast]
  exact Nat.cast_pow 10 exponent

/-- Powers of ten are positive. -/
theorem tenTo_pos (exponent : Nat) : 0 < tenTo exponent :=
  Nat.pow_pos (by decide)

/-- Powers of two grow with their exponents. -/
theorem twoTo_mono {exponent other : Nat} (below : exponent ≤ other) :
    twoTo exponent ≤ twoTo other :=
  Nat.pow_le_pow_right (by decide) below

/-- The number of digits of a number says between which powers of ten it lies. -/
theorem digitCount_bounds {number : Nat} (nonzero : number ≠ 0) :
    (10 : ℚ) ^ ((digitCount number : ℤ) - 1) ≤ number ∧
    (number : ℚ) < 10 ^ (digitCount number : ℤ) := by
  have someDigit : 0 < digitCount number := Nat.length_toDigits_pos
  have below : number < 10 ^ digitCount number :=
    (Nat.length_toDigits_le_iff (by decide) someDigit).1 (Nat.le_refl _)
  have above : 10 ^ (digitCount number - 1) ≤ number := by
    by_cases single : digitCount number = 1
    · rw [single]
      omega
    · by_contra less
      have shorter := (Nat.length_toDigits_le_iff (by decide) (by omega)).2 (Nat.lt_of_not_le less)
      have same : (Nat.toDigits 10 number).length = digitCount number := rfl
      omega
  have places : (digitCount number : ℤ) - 1 = ((digitCount number - 1 : Nat) : ℤ) := by omega
  rw [places, zpow_natCast, zpow_natCast]
  exact ⟨by exact_mod_cast above, by exact_mod_cast below⟩

/-- The rational that a decimal stands for. -/
def Scaled.value (number : Scaled) : ℚ :=
  number.digits * 10 ^ number.exponent

/-- Zeros at the end do not count. -/
theorem Scaled.trim_value (number : Scaled) (fuel : Nat) :
    (number.trim fuel).value = number.value := by
  induction fuel generalizing number with
  | zero => rfl
  | succ fuel step =>
    unfold Scaled.trim
    split
    · rename_i trailing
      rw [step]
      have whole : 10 * (number.digits / 10) = number.digits := by omega
      have counted : (10 : ℚ) * (number.digits / 10 : Nat) = number.digits := by
        exact_mod_cast whole
      simp only [Scaled.value]
      rw [zpow_add_one₀ (by norm_num), ← counted]
      ring
    · rfl

/-! ## The grid of decimals -/

namespace Interval

/-- The rational lies in the interval. -/
def Holds (interval : Interval) (exact : ℚ) : Prop :=
  if interval.closed then
    interval.low * 2 ^ interval.scale ≤ exact ∧ exact ≤ interval.high * 2 ^ interval.scale
  else interval.low * 2 ^ interval.scale < exact ∧ exact < interval.high * 2 ^ interval.scale

/-- The units of the grid and of the interval, by which both are made integers. -/
theorem units_balance (exponent scale : Int) :
    ((tenTo exponent.toNat * twoTo (-scale).toNat : Nat) : ℚ) * 2 ^ scale =
      ((tenTo (-exponent).toNat * twoTo scale.toNat : Nat) : ℚ) * 10 ^ exponent := by
  rw [Nat.cast_mul, Nat.cast_mul, tenTo_cast, tenTo_cast, Double.twoTo_cast, Double.twoTo_cast]
  have ten : (10 : ℚ) ≠ 0 := by norm_num
  have two : (2 : ℚ) ≠ 0 := by norm_num
  rw [mul_assoc, ← zpow_add₀ two, mul_right_comm, ← zpow_add₀ ten]
  congr 2 <;> omega

variable {interval : Interval} {exponent : Int}

/-- The unit by which the interval is made of integers. -/
theorem valueUnit_pos (exponent scale : Int) :
    (0 : ℚ) < (tenTo (-exponent).toNat * twoTo scale.toNat : Nat) := by
  rw [Nat.cast_mul, tenTo_cast, Double.twoTo_cast]
  positivity

/-- A point of the grid in the unit of the interval. -/
theorem grid_cast (point : Nat) (exponent scale : Int) :
    ((point * (tenTo exponent.toNat * twoTo (-scale).toNat) : Nat) : ℚ) =
      (tenTo (-exponent).toNat * twoTo scale.toNat : Nat) *
      (point * 10 ^ exponent / 2 ^ scale) := by
  have balance := units_balance exponent scale
  have power : (2 : ℚ) ^ scale ≠ 0 := by positivity
  rw [Nat.cast_mul point, mul_div_assoc', eq_div_iff power, mul_assoc, balance]
  ring

/-- A bound lies below a point of the grid. -/
theorem bound_le_iff (bound point : Nat) :
    bound * (tenTo (-exponent).toNat * twoTo interval.scale.toNat) ≤
        point * (tenTo exponent.toNat * twoTo (-interval.scale).toNat) ↔
      (bound : ℚ) * 2 ^ interval.scale ≤ point * 10 ^ exponent := by
  have positive := valueUnit_pos exponent interval.scale
  rw [← @Nat.cast_le ℚ, grid_cast, Nat.cast_mul bound, mul_comm (bound : ℚ),
    mul_le_mul_iff_right₀ positive, le_div_iff₀ (by positivity)]

/-- A point of the grid lies below a bound. -/
theorem le_bound_iff (bound point : Nat) :
    point * (tenTo exponent.toNat * twoTo (-interval.scale).toNat) ≤
        bound * (tenTo (-exponent).toNat * twoTo interval.scale.toNat) ↔
      (point : ℚ) * 10 ^ exponent ≤ bound * 2 ^ interval.scale := by
  have positive := valueUnit_pos exponent interval.scale
  rw [← @Nat.cast_le ℚ, grid_cast, Nat.cast_mul bound, mul_comm (bound : ℚ),
    mul_le_mul_iff_right₀ positive, div_le_iff₀ (by positivity)]

/-- The test for points of the grid. -/
def isInside (interval : Interval) (exponent : Int) (point : Nat) : Bool :=
  let gridUnit := tenTo exponent.toNat * twoTo (-interval.scale).toNat
  let valueUnit := tenTo (-exponent).toNat * twoTo interval.scale.toNat
  if interval.closed then
    interval.low * valueUnit ≤ point * gridUnit && point * gridUnit ≤ interval.high * valueUnit
  else interval.low * valueUnit < point * gridUnit && point * gridUnit < interval.high * valueUnit

/-- A point of the grid is inside when what it stands for is. -/
theorem isInside_iff (point : Nat) :
    interval.isInside exponent point = true ↔ interval.Holds (point * 10 ^ exponent) := by
  unfold isInside Holds
  simp only
  split
  · rw [Bool.and_eq_true, decide_eq_true_eq, decide_eq_true_eq, bound_le_iff, le_bound_iff]
  · rw [Bool.and_eq_true, decide_eq_true_eq, decide_eq_true_eq, ← not_le, ← not_le, le_bound_iff,
      bound_le_iff, not_le, not_le]

/-- The point of the grid at the value or next below it. -/
def pointBelow (interval : Interval) (exponent : Int) : Nat :=
  interval.value * (tenTo (-exponent).toNat * twoTo interval.scale.toNat) /
    (tenTo exponent.toNat * twoTo (-interval.scale).toNat)

/-- A point next to the value is found that lies in the interval, or neither of the two does. -/
theorem nearest?_cases (interval : Interval) (exponent : Int) :
    (∃ digits, interval.nearest? exponent = some digits ∧
      interval.Holds (digits * 10 ^ exponent)) ∨
    interval.nearest? exponent = none ∧
      ¬ interval.Holds (interval.pointBelow exponent * 10 ^ exponent) ∧
      ¬ interval.Holds ((interval.pointBelow exponent + 1 : Nat) * 10 ^ exponent) := by
  simp only [← isInside_iff, Bool.not_eq_true]
  unfold nearest?
  simp only
  split
  · rename_i below above
    split
    · exact .inl ⟨_, rfl, below⟩
    · exact .inl ⟨_, rfl, above⟩
  · rename_i below above
    exact .inl ⟨_, rfl, below⟩
  · rename_i below above
    exact .inl ⟨_, rfl, above⟩
  · rename_i below above
    exact .inr ⟨rfl, below, above⟩

/-- The decimal found lies in the interval. -/
theorem holds_of_nearest? {digits : Nat} (found : interval.nearest? exponent = some digits) :
    interval.Holds (digits * 10 ^ exponent) := by
  rcases interval.nearest?_cases exponent with ⟨same, chosen, holds⟩ | ⟨missing, -⟩
  · rw [chosen] at found
    cases found
    exact holds
  · rw [missing] at found
    cases found

/-- A grid finer than the interval has a point inside, next to the value. -/
theorem nearest?_of_lt (below : interval.low < interval.value)
    (above : interval.value < interval.high)
    (fine : (10 : ℚ) ^ exponent < (interval.high - interval.low) * 2 ^ interval.scale) :
    ∃ digits, interval.nearest? exponent = some digits := by
  have power : (0 : ℚ) < 2 ^ interval.scale := by positivity
  have lower : (interval.low : ℚ) * 2 ^ interval.scale < interval.value * 2 ^ interval.scale :=
    mul_lt_mul_of_pos_right (by exact_mod_cast below) power
  have upper : (interval.value : ℚ) * 2 ^ interval.scale < interval.high * 2 ^ interval.scale :=
    mul_lt_mul_of_pos_right (by exact_mod_cast above) power
  have gridPositive : 0 < tenTo exponent.toNat * twoTo (-interval.scale).toNat :=
    Nat.mul_pos (tenTo_pos _) (Nat.two_pow_pos _)
  obtain ⟨digits, found, -⟩ | ⟨-, first, second⟩ := interval.nearest?_cases exponent
  · exact ⟨digits, found⟩
  exfalso
  generalize pointed : interval.pointBelow exponent = point at first second
  have reached : (point : ℚ) * 10 ^ exponent ≤ interval.value * 2 ^ interval.scale := by
    rw [← le_bound_iff, ← pointed]
    exact Nat.div_mul_le_self _ _
  have passed : (interval.value : ℚ) * 2 ^ interval.scale < (point + 1 : Nat) * 10 ^ exponent := by
    rw [← not_le, ← le_bound_iff, ← pointed, not_le]
    exact Nat.lt_mul_of_div_lt (Nat.lt_succ_self _) gridPositive
  unfold Holds at first second
  push_cast at passed second
  split at first
  · rename_i closed
    rw [if_pos closed] at second
    have left : (point : ℚ) * 10 ^ exponent < interval.low * 2 ^ interval.scale := by
      by_contra inner
      exact first ⟨not_lt.1 inner, by linarith⟩
    have right : (interval.high : ℚ) * 2 ^ interval.scale < (point + 1) * 10 ^ exponent := by
      by_contra inner
      exact second ⟨by linarith, not_lt.1 inner⟩
    linarith
  · rename_i opened
    rw [if_neg opened] at second
    have left : (point : ℚ) * 10 ^ exponent ≤ interval.low * 2 ^ interval.scale := by
      by_contra inner
      exact first ⟨not_le.1 inner, by linarith⟩
    have right : (interval.high : ℚ) * 2 ^ interval.scale ≤ (point + 1) * 10 ^ exponent := by
      by_contra inner
      exact second ⟨by linarith, not_le.1 inner⟩
    linarith

/-- The search finds a decimal in the interval, when there is one within its reach. -/
theorem shortestFrom_holds {order : Int} {count fuel : Nat}
    (found : ∃ last digits, count ≤ last ∧ last < count + fuel ∧
      interval.nearest? (order - last) = some digits) :
    interval.Holds (interval.shortestFrom order count fuel).value := by
  induction fuel generalizing count with
  | zero =>
    obtain ⟨last, digits, least, most, -⟩ := found
    omega
  | succ fuel step =>
    unfold shortestFrom
    simp only
    cases here : interval.nearest? (order - count) with
    | some digits =>
      simp only
      rw [Scaled.trim_value]
      exact holds_of_nearest? here
    | none =>
      obtain ⟨last, digits, least, most, later⟩ := found
      refine step ⟨last, digits, ?_, by omega, later⟩
      have other : last ≠ count := by
        rintro rfl
        rw [here] at later
        cases later
      omega

end Interval

/-! ## Doubles -/

variable {number : Double}

/-- The interval of a double consists of what rounds to it. -/
theorem rounds_of_holds (somePart : 1 ≤ number.significand) {exact : ℚ}
    (holds : (Interval.of number).Holds exact) : number.Rounds exact := by
  have two : (2 : ℚ) ≠ 0 := by norm_num
  have quarter : (2 : ℚ) ^ (number.scale - 2) = 2 ^ number.scale / 4 := by
    rw [zpow_sub₀ two]
    norm_num
  have low : ((Interval.of number).low : ℚ) * 2 ^ (Interval.of number).scale =
      (number.significand - number.gapBelow) * 2 ^ number.scale := by
    simp only [Interval.of, Double.gapBelow, quarter]
    split
    · rw [Nat.cast_sub (by omega)]
      push_cast
      ring
    · rw [Nat.cast_sub (by omega)]
      push_cast
      ring
  have high : ((Interval.of number).high : ℚ) * 2 ^ (Interval.of number).scale =
      (number.significand + 1 / 2) * 2 ^ number.scale := by
    simp only [Interval.of, quarter]
    push_cast
    ring
  unfold Interval.Holds at holds
  rw [low, high] at holds
  split at holds
  · rename_i closed
    have even : number.significand % 2 = 0 := by simpa [Interval.of] using closed
    exact ⟨holds.1, holds.2, fun _ => even, fun _ => even⟩
  · exact ⟨holds.1.le, holds.2.le, fun same => absurd same.symm holds.1.ne,
      fun same => absurd same holds.2.ne⟩

/-- The bounds of the significand and the scale of a finite double. -/
theorem significand_bounds (finite : number.isFinite = true) (nonzero : number.magnitude ≠ 0) :
    1 ≤ number.significand ∧ number.significand < 2 ^ 53 ∧ -1074 ≤ number.scale ∧
      number.scale ≤ 971 ∧
      (number.fraction = 0 ∧ 1 < number.exponentField → number.significand = 2 ^ 52) := by
  obtain ⟨parts, belowTop, smallFraction⟩ := Double.magnitude_eq finite
  have shape := Double.significand_cases number
  refine ⟨?_, ?_, ?_, ?_, ?_⟩ <;> omega

/-- The order of a double is the number of places of its first digit. -/
theorem decimalOrder_le (finite : number.isFinite = true) (nonzero : number.magnitude ≠ 0) :
    (10 : ℚ) ^ ((Interval.of number).decimalOrder - 1) ≤
      (Interval.of number).value * 2 ^ (Interval.of number).scale := by
  obtain ⟨someSignificand, -, leastScale, -, -⟩ := significand_bounds finite nonzero
  have ten : (10 : ℚ) ≠ 0 := by norm_num
  have scaled : (Interval.of number).scale = number.scale - 2 := rfl
  have valued : (Interval.of number).value = 4 * number.significand := rfl
  unfold Interval.decimalOrder
  simp only
  generalize (Interval.of number).scale = scale at *
  generalize (Interval.of number).value = value at *
  -- the whole part of the value, enlarged by four hundred places
  have enlarged : ∀ whole : Nat, whole ≠ 0 →
      (whole : ℚ) ≤ value * 2 ^ scale * 10 ^ (400 : ℤ) →
      (10 : ℚ) ^ ((digitCount whole : ℤ) - 400 - 1) ≤ value * 2 ^ scale := by
    intro whole something bounded
    have least := (digitCount_bounds something).1
    have moved : (10 : ℚ) ^ ((digitCount whole : ℤ) - 400 - 1) * 10 ^ (400 : ℤ) =
        10 ^ ((digitCount whole : ℤ) - 1) := by
      rw [← zpow_add₀ ten]
      congr 1
      omega
    have positive : (0 : ℚ) < 10 ^ (400 : ℤ) := by positivity
    rw [← mul_le_mul_iff_left₀ positive, moved]
    exact least.trans bounded
  have places : ((tenTo 400 : Nat) : ℚ) = 10 ^ (400 : ℤ) := tenTo_cast 400
  have tenPositive := tenTo_pos 400
  split
  · rename_i above
    refine enlarged _ ?_ (le_of_eq ?_)
    · exact (Nat.mul_pos (Nat.mul_pos (by omega) tenPositive) (Nat.two_pow_pos _)).ne'
    · rw [Nat.cast_mul, Nat.cast_mul, places, Double.twoTo_cast, Int.toNat_of_nonneg above]
      ring
  · rename_i below
    have places' : ((twoTo (-scale).toNat : Nat) : ℚ) = (2 ^ scale)⁻¹ := by
      rw [Double.twoTo_cast, Int.toNat_of_nonneg (by omega), zpow_neg]
    have divisor : 0 < twoTo (-scale).toNat := Nat.two_pow_pos _
    refine enlarged _ ?_ ?_
    · have bits : twoTo (-scale).toNat ≤ twoTo 1076 := twoTo_mono (by omega)
      have room : twoTo 1076 ≤ tenTo 400 := by decide +kernel
      have more : tenTo 400 ≤ value * tenTo 400 := Nat.le_mul_of_pos_left _ (by omega)
      exact (Nat.div_pos (by omega) divisor).ne'
    · have rounded : ((value * tenTo 400 / twoTo (-scale).toNat : Nat) : ℚ) ≤
          ((value * tenTo 400 : Nat) : ℚ) / (twoTo (-scale).toNat : Nat) := Nat.cast_div_le
      refine rounded.trans (le_of_eq ?_)
      rw [places', div_inv_eq_mul, Nat.cast_mul, places]
      ring

/-- The shortest decimal of a double rounds to it. -/
theorem shortest_rounds (finite : number.isFinite = true) (nonzero : number.magnitude ≠ 0) :
    number.Rounds (shortest number).value := by
  obtain ⟨someSignificand, smallSignificand, -, -, narrowSignificand⟩ :=
    significand_bounds finite nonzero
  have ten : (10 : ℚ) ≠ 0 := by norm_num
  refine rounds_of_holds someSignificand ?_
  unfold shortest
  rw [if_neg nonzero]
  refine Interval.shortestFrom_holds ?_
  -- seventeen digits: the grid is finer than the interval, which is at least three quarters wide
  have order := decimalOrder_le finite nonzero
  have spread : (10 : ℚ) ^ ((Interval.of number).decimalOrder - (17 : Nat)) * 10 ^ (16 : ℤ) =
      10 ^ ((Interval.of number).decimalOrder - 1) := by
    rw [← zpow_add₀ ten]
    congr 1
    omega
  have power : (0 : ℚ) < 2 ^ (Interval.of number).scale := by positivity
  have width : ((Interval.of number).value : ℚ) / 10 ^ (16 : ℤ) <
      (Interval.of number).high - (Interval.of number).low := by
    simp only [Interval.of]
    rw [Nat.cast_sub (by split <;> omega)]
    split
    · rename_i narrow
      rw [narrowSignificand narrow]
      norm_num
    · have small : (number.significand : ℚ) < 9007199254740992 := by
        exact_mod_cast smallSignificand
      push_cast
      rw [div_lt_iff₀ (by positivity)]
      norm_num
      linarith
  obtain ⟨digits, found⟩ := @Interval.nearest?_of_lt (Interval.of number)
    ((Interval.of number).decimalOrder - (17 : Nat))
    (by simp only [Interval.of]; split <;> omega) (by simp only [Interval.of]; omega) (by
      have fine : (10 : ℚ) ^ ((Interval.of number).decimalOrder - (17 : Nat)) ≤
          (Interval.of number).value / 10 ^ (16 : ℤ) * 2 ^ (Interval.of number).scale := by
        rw [div_mul_eq_mul_div, le_div_iff₀ (by positivity), spread]
        exact order
      exact lt_of_le_of_lt fine (mul_lt_mul_of_pos_right width power))
  exact ⟨17, digits, by decide, by decide, found⟩

/-- A decimal with a magnitude within the format. -/
theorem position_bounds {digits : Nat} {exponent : Int} (nonzero : digits ≠ 0)
    (low : (10 : ℚ) ^ (-330 : ℤ) ≤ digits * 10 ^ exponent)
    (high : (digits : ℚ) * 10 ^ exponent < 10 ^ (310 : ℤ)) :
    ¬310 < (digitCount digits : Int) + exponent ∧ ¬(digitCount digits : Int) + exponent < -330 := by
  have ten : (10 : ℚ) ≠ 0 := by norm_num
  have power : (0 : ℚ) < 10 ^ exponent := by positivity
  obtain ⟨least, most⟩ := digitCount_bounds nonzero
  have above : (10 : ℚ) ^ ((digitCount digits : ℤ) - 1 + exponent) < 10 ^ (310 : ℤ) := by
    rw [zpow_add₀ ten]
    exact lt_of_le_of_lt (mul_le_mul_of_nonneg_right least power.le) high
  have below : (10 : ℚ) ^ (-330 : ℤ) < 10 ^ ((digitCount digits : ℤ) + exponent) := by
    rw [zpow_add₀ ten]
    exact lt_of_le_of_lt low (mul_lt_mul_of_pos_right most power)
  rw [zpow_lt_zpow_iff_right₀ (by norm_num)] at above below
  omega

/-- What rounds to a double has its magnitude. -/
theorem rounds_bounds (finite : number.isFinite = true) (nonzero : number.magnitude ≠ 0)
    {exact : ℚ} (rounds : number.Rounds exact) :
    (10 : ℚ) ^ (-330 : ℤ) ≤ exact ∧ exact < 10 ^ (310 : ℤ) := by
  obtain ⟨someSignificand, smallSignificand, leastScale, greatestScale, -⟩ :=
    significand_bounds finite nonzero
  have two : (2 : ℚ) ≠ 0 := by norm_num
  have somePart : (1 : ℚ) ≤ number.significand := by exact_mod_cast someSignificand
  have small : (number.significand : ℚ) + 1 ≤ 2 ^ (53 : ℤ) := by exact_mod_cast smallSignificand
  have gap : number.gapBelow ≤ 1 / 2 := by
    unfold Double.gapBelow
    split <;> norm_num
  have power : (0 : ℚ) < 2 ^ number.scale := by positivity
  constructor
  · have bits : (2 : ℚ) ^ (-1075 : ℤ) ≤ exact := by
      calc (2 : ℚ) ^ (-1075 : ℤ) = 1 / 2 * 2 ^ (-1074 : ℤ) := by
            rw [show (-1075 : ℤ) = -1074 - 1 by norm_num, zpow_sub_one₀ two]
            ring
        _ ≤ 1 / 2 * 2 ^ number.scale := by
            gcongr
            norm_num
        _ ≤ (number.significand - number.gapBelow) * 2 ^ number.scale := by
            gcongr
            linarith
        _ ≤ exact := rounds.low
    refine le_trans ?_ bits
    rw [zpow_neg, zpow_neg, inv_le_inv₀ (by positivity) (by positivity)]
    have counted : (2 : Nat) ^ 1075 ≤ 10 ^ 330 := by decide +kernel
    exact_mod_cast counted
  · have bits : exact < 2 ^ (1024 : ℤ) := by
      calc exact ≤ (number.significand + 1 / 2) * 2 ^ number.scale := rounds.high
        _ < 2 ^ (53 : ℤ) * 2 ^ number.scale := by
            gcongr
            linarith
        _ ≤ 2 ^ (53 : ℤ) * 2 ^ (971 : ℤ) := by
            gcongr
            norm_num
        _ = 2 ^ (1024 : ℤ) := by
            rw [← zpow_add₀ two]
            norm_num
    refine lt_trans bits ?_
    have counted : (2 : Nat) ^ 1024 < 10 ^ 310 := by decide +kernel
    exact_mod_cast counted

/-- A decimal that rounds to a double is read as that double. -/
theorem toDouble_eq (finite : number.isFinite = true) (nonzero : number.magnitude ≠ 0)
    {digits : Nat} {exponent : Int} (rounds : number.Rounds (digits * 10 ^ exponent)) :
    toDouble number.isNegative digits exponent = number := by
  obtain ⟨low, high⟩ := rounds_bounds finite nonzero rounds
  have something : digits ≠ 0 := by
    rintro rfl
    rw [Nat.cast_zero, zero_mul] at low
    exact absurd low (not_le.2 (by positivity))
  obtain ⟨notLarge, notSmall⟩ := position_bounds something low high
  unfold toDouble
  simp only [something, notLarge, notSmall, if_false]
  split
  · rename_i above
    refine Double.ofRatio_eq finite nonzero Nat.one_pos ?_
    rw [Nat.cast_mul, tenTo_cast, Int.toNat_of_nonneg above, Nat.cast_one, div_one]
    exact rounds
  · rename_i below
    refine Double.ofRatio_eq finite nonzero (tenTo_pos _) ?_
    rw [tenTo_cast, Int.toNat_of_nonneg (by omega), zpow_neg, div_inv_eq_mul]
    exact rounds

end QueryFusion.Decimal
