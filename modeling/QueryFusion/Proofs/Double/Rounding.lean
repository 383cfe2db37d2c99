import Mathlib.Algebra.Order.Field.Power
import Mathlib.Algebra.Order.Field.Rat
import Mathlib.Data.Rat.Cast.Order
import Mathlib.Tactic.FieldSimp
import Mathlib.Tactic.Linarith
import Mathlib.Tactic.Positivity
import Mathlib.Tactic.Ring
import QueryFusion.Double.Nearest

/-!
# Rounding to doubles

Around every finite double lies the interval of the rationals that are nearest to it; the ends
belong to it when the significand is even. Every rational of the interval rounds to the double.
-/

namespace QueryFusion.Double

/-- A power of two as a rational. -/
theorem twoTo_cast (exponent : Nat) : ((twoTo exponent : Nat) : ℚ) = 2 ^ (exponent : ℤ) := by
  rw [twoTo, zpow_natCast]
  exact Nat.cast_pow 2 exponent

/-- A quotient scaled down by a power of two, whatever the sign of its exponent. -/
theorem scaled_cast (numerator denominator : Nat) (scale : Int) :
    (numerator : ℚ) / denominator / 2 ^ scale =
      if 0 ≤ scale then (numerator : ℚ) / ((denominator * twoTo scale.toNat : Nat) : ℚ)
      else ((numerator * twoTo (-scale).toNat : Nat) : ℚ) / denominator := by
  split
  · rename_i above
    rw [Nat.cast_mul, twoTo_cast, Int.toNat_of_nonneg above, div_div]
  · rename_i below
    rw [Nat.cast_mul, twoTo_cast, Int.toNat_of_nonneg (by omega), zpow_neg]
    field_simp

/-! ## Integers -/

/-- The integer nearest to a quotient; an even one at the same distance from two. -/
theorem roundQuotient_eq {numerator denominator nearest : Nat} (positive : 0 < denominator)
    (low : (nearest : ℚ) - 1 / 2 ≤ numerator / denominator)
    (high : (numerator : ℚ) / denominator ≤ nearest + 1 / 2)
    (tie : (numerator : ℚ) / denominator = nearest - 1 / 2 ∨
      (numerator : ℚ) / denominator = nearest + 1 / 2 → nearest % 2 = 0) :
    roundQuotient numerator denominator = nearest := by
  have positive' : (0 : ℚ) < denominator := by exact_mod_cast positive
  have lower : 2 * (denominator * nearest) ≤ 2 * numerator + denominator := by
    rw [le_div_iff₀ positive'] at low
    have scaled : (2 * (denominator * nearest) : ℚ) ≤ 2 * numerator + denominator := by linarith
    exact_mod_cast scaled
  have upper : 2 * numerator ≤ 2 * (denominator * nearest) + denominator := by
    rw [div_le_iff₀ positive'] at high
    have scaled : (2 * numerator : ℚ) ≤ 2 * (denominator * nearest) + denominator := by linarith
    exact_mod_cast scaled
  have lowerTie : 2 * (denominator * nearest) = 2 * numerator + denominator → nearest % 2 = 0 := by
    intro equal
    refine tie (.inl ?_)
    have scaled : (2 * (denominator * nearest) : ℚ) = 2 * numerator + denominator := by
      exact_mod_cast equal
    rw [div_eq_iff positive'.ne']
    linarith
  have upperTie : 2 * numerator = 2 * (denominator * nearest) + denominator → nearest % 2 = 0 := by
    intro equal
    refine tie (.inr ?_)
    have scaled : (2 * numerator : ℚ) = 2 * (denominator * nearest) + denominator := by
      exact_mod_cast equal
    rw [div_eq_iff positive'.ne']
    linarith
  have split := Nat.div_add_mod numerator denominator
  have small := Nat.mod_lt numerator positive
  unfold roundQuotient
  generalize numerator / denominator = quotient at *
  generalize numerator % denominator = rest at *
  have near : quotient = nearest ∨ nearest = quotient + 1 := by
    have above : quotient ≤ nearest := by
      by_contra beyond
      have grown : denominator * (nearest + 1) ≤ denominator * quotient :=
        Nat.mul_le_mul_left _ (by omega)
      rw [Nat.mul_succ] at grown
      omega
    have below : nearest ≤ quotient + 1 := by
      by_contra beyond
      have grown : denominator * (quotient + 1 + 1) ≤ denominator * nearest :=
        Nat.mul_le_mul_left _ (by omega)
      rw [Nat.mul_succ, Nat.mul_succ] at grown
      omega
    omega
  rcases near with rfl | rfl
  · have room : 2 * rest ≤ denominator := by omega
    have even : 2 * rest = denominator → quotient % 2 = 0 := fun equal => upperTie (by omega)
    have down : ¬(denominator < 2 * rest || (2 * rest == denominator && quotient % 2 == 1)) =
        true := by
      simp only [Bool.or_eq_true, decide_eq_true_eq, Bool.and_eq_true, beq_iff_eq]
      omega
    simp [down]
  · rw [Nat.mul_succ] at lower lowerTie
    have room : denominator ≤ 2 * rest := by omega
    have even : 2 * rest = denominator → (quotient + 1) % 2 = 0 :=
      fun equal => lowerTie (by omega)
    have up : (denominator < 2 * rest || (2 * rest == denominator && quotient % 2 == 1)) =
        true := by
      simp only [Bool.or_eq_true, decide_eq_true_eq, Bool.and_eq_true, beq_iff_eq]
      omega
    simp [up]

/-- The binary order of a quotient: it lies between two powers of two. -/
theorem binaryOrder_bounds {numerator denominator : Nat} (some_part : 0 < numerator)
    (positive : 0 < denominator) :
    (2 : ℚ) ^ binaryOrder numerator denominator ≤ numerator / denominator ∧
      (numerator : ℚ) / denominator < 2 ^ (binaryOrder numerator denominator + 1) := by
  have positive' : (0 : ℚ) < denominator := by exact_mod_cast positive
  have numeratorLow : (2 : ℚ) ^ (Nat.log2 numerator : ℤ) ≤ numerator := by
    rw [zpow_natCast]
    exact_mod_cast Nat.log2_self_le some_part.ne'
  have numeratorHigh : (numerator : ℚ) < 2 ^ ((Nat.log2 numerator : ℤ) + 1) := by
    have bound : numerator < 2 ^ (Nat.log2 numerator + 1) := Nat.lt_log2_self
    have same : ((Nat.log2 numerator : ℤ) + 1) = ((Nat.log2 numerator + 1 : Nat) : ℤ) := by simp
    rw [same, zpow_natCast]
    exact_mod_cast bound
  have denominatorLow : (2 : ℚ) ^ (Nat.log2 denominator : ℤ) ≤ denominator := by
    rw [zpow_natCast]
    exact_mod_cast Nat.log2_self_le positive.ne'
  have denominatorHigh : (denominator : ℚ) < 2 ^ ((Nat.log2 denominator : ℤ) + 1) := by
    have bound : denominator < 2 ^ (Nat.log2 denominator + 1) := Nat.lt_log2_self
    have same : ((Nat.log2 denominator : ℤ) + 1) = ((Nat.log2 denominator + 1 : Nat) : ℤ) := by
      simp
    rw [same, zpow_natCast]
    exact_mod_cast bound
  have two : (2 : ℚ) ≠ 0 := by norm_num
  unfold binaryOrder
  generalize estimated : (Nat.log2 numerator : Int) - Nat.log2 denominator = estimate
  -- the test is whether the quotient reaches the estimated power
  have reached : (if 0 ≤ estimate then decide (denominator * twoTo estimate.toNat ≤ numerator)
      else decide (denominator ≤ numerator * twoTo (-estimate).toNat)) = true ↔
      (2 : ℚ) ^ estimate ≤ numerator / denominator := by
    rw [le_div_iff₀ positive']
    split
    · rename_i above
      rw [decide_eq_true_eq, ← @Nat.cast_le ℚ, Nat.cast_mul, twoTo_cast,
        Int.toNat_of_nonneg above, mul_comm]
    · rename_i below
      rw [decide_eq_true_eq, ← @Nat.cast_le ℚ, Nat.cast_mul, twoTo_cast,
        Int.toNat_of_nonneg (by omega), zpow_neg, ← div_eq_mul_inv, le_div_iff₀ (by positivity),
        mul_comm]
  have above : (numerator : ℚ) / denominator < 2 ^ (estimate + 1) := by
    rw [div_lt_iff₀ positive']
    calc (numerator : ℚ) < 2 ^ ((Nat.log2 numerator : ℤ) + 1) := numeratorHigh
      _ = 2 ^ (estimate + 1) * 2 ^ (Nat.log2 denominator : ℤ) := by
        rw [← zpow_add₀ two]
        congr 1
        omega
      _ ≤ 2 ^ (estimate + 1) * denominator := by
        exact mul_le_mul_of_nonneg_left denominatorLow (by positivity)
  have below : (2 : ℚ) ^ (estimate - 1) ≤ numerator / denominator := by
    rw [le_div_iff₀ positive']
    calc (2 : ℚ) ^ (estimate - 1) * denominator
        ≤ 2 ^ (estimate - 1) * 2 ^ ((Nat.log2 denominator : ℤ) + 1) :=
          mul_le_mul_of_nonneg_left denominatorHigh.le (by positivity)
      _ = 2 ^ (Nat.log2 numerator : ℤ) := by
        rw [← zpow_add₀ two]
        congr 1
        omega
      _ ≤ numerator := numeratorLow
  simp only
  by_cases met : (2 : ℚ) ^ estimate ≤ numerator / denominator
  · rw [if_pos (reached.2 met)]
    exact ⟨met, above⟩
  · rw [if_neg fun done => met (reached.1 done)]
    refine ⟨below, ?_⟩
    rw [Int.sub_add_cancel]
    exact lt_of_not_ge met

/-! ## Encodings -/

/-- A double is its sign and its magnitude. -/
theorem ofMagnitude_eq (number : Double) :
    ofMagnitude number.isNegative number.magnitude = number := by
  obtain ⟨bits⟩ := number
  have bound := bits.toNat_lt
  have half : twoTo 63 = 9223372036854775808 := by decide
  simp only [ofMagnitude, isNegative, magnitude, Double.mk.injEq, decide_eq_true_eq, half]
  rw [← UInt64.toNat_inj, UInt64.toNat_ofNat']
  split <;> omega

/-- The parts of the encoding of a finite double. -/
theorem magnitude_eq {number : Double} (finite : number.isFinite = true) :
    number.magnitude = number.exponentField * 2 ^ 52 + number.fraction ∧
      number.exponentField < 2047 ∧ number.fraction < 2 ^ 52 := by
  have below : number.magnitude < twoTo 63 := Nat.mod_lt _ (by decide)
  have half : twoTo 63 = 2 ^ 63 := rfl
  have unit : twoTo 52 = 2 ^ 52 := rfl
  simp only [isFinite, bne_iff_ne, ne_eq] at finite
  simp only [exponentField, fraction, unit, half] at *
  omega

/-- The significand of a double, from the parts of its encoding. -/
theorem significand_cases (number : Double) :
    (number.exponentField = 0 ∧ number.significand = number.fraction ∧ number.scale = -1074) ∨
      (1 ≤ number.exponentField ∧ number.significand = number.fraction + 2 ^ 52 ∧
        number.scale = number.exponentField - 1075) := by
  have unit : twoTo 52 = 2 ^ 52 := rfl
  unfold significand scale
  rw [unit]
  by_cases low : number.exponentField = 0
  · simp [low]
  · right
    rw [if_neg low]
    omega

/-! ## The interval of a double -/

/-- How far below the significand of a double lies what rounds to it: below a power of two the next
double is only half as far away. -/
def gapBelow (number : Double) : ℚ :=
  if number.fraction = 0 ∧ 1 < number.exponentField then 1 / 4 else 1 / 2

/-- The rational lies in the interval of what rounds to the absolute value of the double. -/
structure Rounds (number : Double) (exact : ℚ) : Prop where
  low : (number.significand - number.gapBelow) * 2 ^ number.scale ≤ exact
  high : exact ≤ (number.significand + 1 / 2) * 2 ^ number.scale
  lowTie : exact = (number.significand - number.gapBelow) * 2 ^ number.scale →
    number.significand % 2 = 0
  highTie : exact = (number.significand + 1 / 2) * 2 ^ number.scale → number.significand % 2 = 0

/-- A rational that rounds to a double, measured in units of its significand. -/
theorem Rounds.scaled {number : Double} {exact : ℚ} (rounds : number.Rounds exact) :
    number.significand - number.gapBelow ≤ exact / 2 ^ number.scale ∧
      exact / 2 ^ number.scale ≤ number.significand + 1 / 2 ∧
      (exact / 2 ^ number.scale = number.significand - number.gapBelow ∨
        exact / 2 ^ number.scale = number.significand + 1 / 2 → number.significand % 2 = 0) := by
  have positive : (0 : ℚ) < 2 ^ number.scale := by positivity
  refine ⟨(le_div_iff₀ positive).2 rounds.low, (div_le_iff₀ positive).2 rounds.high, ?_⟩
  rintro (equal | equal)
  · exact rounds.lowTie ((div_eq_iff positive.ne').1 equal)
  · exact rounds.highTie ((div_eq_iff positive.ne').1 equal)

/-- A rational below a power of two has a smaller order. -/
theorem order_lt {order scale : Int} {exact : ℚ} (bits : Nat) (low : (2 : ℚ) ^ order ≤ exact)
    (small : exact / 2 ^ scale < 2 ^ bits) : order < bits + scale := by
  have two : (2 : ℚ) ≠ 0 := by norm_num
  rw [div_lt_iff₀ (by positivity), ← zpow_natCast, ← zpow_add₀ two] at small
  exact (zpow_lt_zpow_iff_right₀ (by norm_num)).1 (lt_of_le_of_lt low small)

/-- A rational not below a power of two has at least its order. -/
theorem le_order {order scale : Int} {exact : ℚ} (bits : Nat) (high : exact < 2 ^ (order + 1))
    (large : (2 : ℚ) ^ bits ≤ exact / 2 ^ scale) : bits + scale ≤ order := by
  have two : (2 : ℚ) ≠ 0 := by norm_num
  rw [le_div_iff₀ (by positivity), ← zpow_natCast, ← zpow_add₀ two] at large
  have between := (zpow_lt_zpow_iff_right₀ (by norm_num)).1 (lt_of_le_of_lt large high)
  omega

/-- The result of rounding with a known scale and significand. -/
theorem ofRatio_of_scale {negative : Bool} {numerator denominator : Nat} {scale : Int}
    (nearest : Nat) (some_part : 0 < numerator) (positive : 0 < denominator)
    (scaled : max (binaryOrder numerator denominator - 52) (-1074) = scale)
    (low : (nearest : ℚ) - 1 / 2 ≤ (numerator : ℚ) / denominator / 2 ^ scale)
    (high : (numerator : ℚ) / denominator / 2 ^ scale ≤ nearest + 1 / 2)
    (tie : (numerator : ℚ) / denominator / 2 ^ scale = nearest - 1 / 2 ∨
      (numerator : ℚ) / denominator / 2 ^ scale = nearest + 1 / 2 → nearest % 2 = 0) :
    ofRatio negative numerator denominator = ofMagnitude negative
      (min (nearest + (scale + 1074).toNat * twoTo 52) (2047 * twoTo 52)) := by
  have powers : ∀ exponent, 0 < twoTo exponent := fun exponent => Nat.two_pow_pos exponent
  unfold ofRatio
  rw [if_neg some_part.ne']
  simp only [scaled]
  rw [scaled_cast] at low high tie
  congr 3
  split
  · rename_i above
    rw [if_pos above] at low high tie
    exact roundQuotient_eq (Nat.mul_pos positive (powers _)) low high tie
  · rename_i below
    rw [if_neg below] at low high tie
    exact roundQuotient_eq positive low high tie

/-- Below a power of two the gap is the smaller one. -/
theorem gapBelow_cases (number : Double) :
    (number.gapBelow = 1 / 4 ∧ number.fraction = 0 ∧ 1 < number.exponentField) ∨
      (number.gapBelow = 1 / 2 ∧ ¬(number.fraction = 0 ∧ 1 < number.exponentField)) := by
  unfold gapBelow
  split
  · rename_i narrow
    exact .inl ⟨rfl, narrow⟩
  · rename_i wide
    exact .inr ⟨rfl, wide⟩

namespace Rounds

variable {number : Double} {numerator denominator : Nat}

/-- What rounds to another double than zero is not zero. -/
theorem numerator_pos (rounds : number.Rounds (numerator / denominator))
    (finite : number.isFinite = true) (nonzero : number.magnitude ≠ 0) : 0 < numerator := by
  obtain ⟨parts, -, -⟩ := magnitude_eq finite
  have shape := significand_cases number
  obtain ⟨low, -, -⟩ := rounds.scaled
  have counted : 1 ≤ number.significand := by omega
  have someSignificand : (1 : ℚ) ≤ number.significand := by exact_mod_cast counted
  rcases Nat.eq_zero_or_pos numerator with rfl | some_part
  · simp only [Nat.cast_zero, zero_div] at low
    rcases number.gapBelow_cases with ⟨same, -⟩ | ⟨same, -⟩ <;> rw [same] at low <;> linarith
  · exact some_part

/-- What rounds to a double has no greater order. -/
theorem binaryOrder_lt (rounds : number.Rounds (numerator / denominator))
    (finite : number.isFinite = true) (some_part : 0 < numerator) (positive : 0 < denominator) :
    binaryOrder numerator denominator < 53 + number.scale := by
  obtain ⟨-, -, smallFraction⟩ := magnitude_eq finite
  have shape := significand_cases number
  obtain ⟨-, high, -⟩ := rounds.scaled
  have counted : number.significand + 1 ≤ 2 ^ 53 := by omega
  have smallSignificand : (number.significand : ℚ) + 1 ≤ 2 ^ 53 := by exact_mod_cast counted
  exact order_lt 53 (binaryOrder_bounds some_part positive).1 (by linarith)

/-- A rational with the scale of the double. -/
theorem ofRatio_aligned (rounds : number.Rounds (numerator / denominator))
    (finite : number.isFinite = true) (nonzero : number.magnitude ≠ 0) (positive : 0 < denominator)
    (aligned : number.exponentField ≤ 1 ∨
      (2 : ℚ) ^ 52 ≤ (numerator : ℚ) / denominator / 2 ^ number.scale) :
    ofRatio number.isNegative numerator denominator = number := by
  obtain ⟨parts, belowTop, smallFraction⟩ := magnitude_eq finite
  obtain ⟨low, high, tie⟩ := rounds.scaled
  have shape := significand_cases number
  have gap := number.gapBelow_cases
  have unit : twoTo 52 = 2 ^ 52 := rfl
  have some_part := rounds.numerator_pos finite nonzero
  have orderSmall := rounds.binaryOrder_lt finite some_part positive
  have scaled : max (binaryOrder numerator denominator - 52) (-1074) = number.scale := by
    rcases aligned with first | large
    · omega
    · have orderLarge := le_order 52 (binaryOrder_bounds some_part positive).2 large
      omega
  rw [ofRatio_of_scale number.significand some_part positive scaled
    (by rcases gap with ⟨same, -⟩ | ⟨same, -⟩ <;> rw [same] at low <;> linarith) high ?_]
  · conv_rhs => rw [← ofMagnitude_eq number]
    congr 1
    rw [unit]
    omega
  · rintro (equal | equal)
    · rcases gap with ⟨same, -⟩ | ⟨same, -⟩
      · rw [same] at low
        linarith
      · exact tie (.inl (by rw [same, equal]))
    · exact tie (.inr equal)

/-- A rational below a double that is a power of two has the next smaller scale. -/
theorem ofRatio_below (rounds : number.Rounds (numerator / denominator))
    (finite : number.isFinite = true) (nonzero : number.magnitude ≠ 0) (positive : 0 < denominator)
    (further : 1 < number.exponentField)
    (small : (numerator : ℚ) / denominator / 2 ^ number.scale < 2 ^ 52) :
    ofRatio number.isNegative numerator denominator = number := by
  obtain ⟨parts, belowTop, smallFraction⟩ := magnitude_eq finite
  obtain ⟨low, high, tie⟩ := rounds.scaled
  have shape := significand_cases number
  have gap := number.gapBelow_cases
  have unit : twoTo 52 = 2 ^ 52 := rfl
  have some_part := rounds.numerator_pos finite nonzero
  obtain ⟨orderLow, orderHigh⟩ := binaryOrder_bounds some_part positive
  have power : number.significand = 2 ^ 52 := by
    have least : 2 ^ 52 ≤ number.significand := by omega
    have most : (number.significand : ℚ) < 2 ^ 52 + 1 := by
      rcases gap with ⟨same, -⟩ | ⟨same, -⟩ <;> rw [same] at low <;> linarith
    have counted : number.significand < 2 ^ 52 + 1 := by exact_mod_cast most
    omega
  have narrow : number.gapBelow = 1 / 4 := by
    rcases gap with ⟨same, -⟩ | ⟨-, wide⟩
    · exact same
    · omega
  rw [narrow, power] at low
  have halved : (numerator : ℚ) / denominator / 2 ^ (number.scale - 1) =
      2 * ((numerator : ℚ) / denominator / 2 ^ number.scale) := by
    rw [zpow_sub_one₀ (by norm_num)]
    field_simp
  push_cast at low
  have orderLarge : 51 + number.scale ≤ binaryOrder numerator denominator :=
    le_order 51 orderHigh (by linarith)
  have orderLess := order_lt 52 orderLow small
  have scaled : max (binaryOrder numerator denominator - 52) (-1074) = number.scale - 1 := by
    omega
  rw [ofRatio_of_scale (2 ^ 53) some_part positive scaled (by rw [halved]; push_cast; linarith)
    (by rw [halved]; push_cast; linarith) fun _ => by norm_num]
  conv_rhs => rw [← ofMagnitude_eq number]
  congr 1
  have field : number.exponentField = (number.scale - 1 + 1074).toNat + 2 := by omega
  have noFraction : number.fraction = 0 := by omega
  have together : 2 ^ 53 + (number.scale - 1 + 1074).toNat * twoTo 52 = number.magnitude := by
    rw [parts, noFraction, field, unit]
    ring
  rw [together, min_eq_left]
  omega

end Rounds

/-- What lies in the interval of a double rounds to it. -/
theorem ofRatio_eq {number : Double} (finite : number.isFinite = true)
    (nonzero : number.magnitude ≠ 0) {numerator denominator : Nat} (positive : 0 < denominator)
    (rounds : number.Rounds (numerator / denominator)) :
    ofRatio number.isNegative numerator denominator = number := by
  by_cases aligned : number.exponentField ≤ 1 ∨
      (2 : ℚ) ^ 52 ≤ (numerator : ℚ) / denominator / 2 ^ number.scale
  · exact rounds.ofRatio_aligned finite nonzero positive aligned
  · rw [not_or, not_le, not_le] at aligned
    exact rounds.ofRatio_below finite nonzero positive aligned.1 aligned.2

end QueryFusion.Double
