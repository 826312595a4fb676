import MeshGauges.Number.Shortest
import MeshGauges.Proofs.Number.Value
import Mathlib.Data.Nat.Cast.Order.Field
import Mathlib.Tactic.Linarith

/-! Where the shortest decimal of a float lies.

The decimal that the search finds is in the rounding interval of the float, so it is less than one unit of
the mantissa away from it, and it has no more than eighteen digits: on the grid of the leading digit the
float has one digit, and each of the seventeen further grids adds one. -/

set_option autoImplicit false

namespace MeshGauges.Number

variable {mantissa coefficient : ℕ} {exponent place : ℤ}

/-! ### The rounding interval -/

theorem binaryFraction_pos (mantissa : ℕ) (exponent : ℤ) : 0 < (binaryFraction mantissa exponent).2 := by
  rw [binaryFraction]
  split
  · exact Nat.one_pos
  · exact Nat.pow_pos (by decide)

theorem binaryFraction_eq (mantissa : ℕ) (exponent : ℤ) :
    ((binaryFraction mantissa exponent).1 : ℚ) / (binaryFraction mantissa exponent).2 =
      mantissa * 2 ^ exponent := by
  rw [binaryFraction]
  split
  · next nonneg =>
      obtain ⟨power, rfl⟩ := Int.eq_ofNat_of_zero_le nonneg
      simp
  · next neg =>
      obtain ⟨power, rfl⟩ : ∃ power : ℕ, exponent = -power := ⟨exponent.natAbs, by omega⟩
      simp [div_eq_mul_inv]

theorem two_zpow_eq (exponent : ℤ) :
    ((binaryFraction 1 exponent).1 : ℚ) / (binaryFraction 1 exponent).2 = 2 ^ exponent := by
  rw [binaryFraction_eq, Nat.cast_one, one_mul]

theorem roundingInterval_denominator (mantissa : ℕ) (exponent : ℤ) :
    ((roundingInterval mantissa exponent).denominator : ℚ) = 4 * (binaryFraction 1 exponent).2 := by
  simp [roundingInterval]

theorem denominator_roundingInterval_pos (mantissa : ℕ) (exponent : ℤ) :
    0 < (roundingInterval mantissa exponent).denominator :=
  Nat.mul_pos (by decide) (binaryFraction_pos 1 exponent)

theorem value_roundingInterval (mantissa : ℕ) (exponent : ℤ) :
    ((roundingInterval mantissa exponent).value : ℚ) / (roundingInterval mantissa exponent).denominator =
      mantissa * 2 ^ exponent := by
  have positive : (0 : ℚ) < (binaryFraction 1 exponent).2 := by exact_mod_cast binaryFraction_pos 1 exponent
  rw [← two_zpow_eq]
  simp only [roundingInterval]
  push_cast
  field_simp

theorem value_roundingInterval_pos (positive : 0 < mantissa) (exponent : ℤ) :
    0 < (roundingInterval mantissa exponent).value := by
  have size := value_roundingInterval mantissa exponent
  by_contra none
  rw [Nat.eq_zero_of_not_pos none, Nat.cast_zero, zero_div] at size
  have positive : (0 : ℚ) < mantissa := by exact_mod_cast positive
  exact absurd size (mul_pos positive (zpow_pos (by norm_num) exponent)).ne

theorem le_lower_roundingInterval (positive : 0 < mantissa) (exponent : ℤ) :
    ((mantissa : ℚ) - 1 / 2) * 2 ^ exponent ≤
      ((roundingInterval mantissa exponent).lower : ℚ) / (roundingInterval mantissa exponent).denominator := by
  have denominator : (0 : ℚ) < (binaryFraction 1 exponent).2 := by
    exact_mod_cast binaryFraction_pos 1 exponent
  have gap : (4 * mantissa - 2 : ℕ) * (binaryFraction 1 exponent).1 ≤
      (roundingInterval mantissa exponent).lower := by
    refine Nat.mul_le_mul_right _ (Nat.sub_le_sub_left ?_ _)
    split <;> decide
  have gap : (4 * mantissa - 2 : ℚ) * (binaryFraction 1 exponent).1 ≤
      (roundingInterval mantissa exponent).lower := by
    have cast : ((4 * mantissa - 2 : ℕ) : ℚ) = 4 * mantissa - 2 := by
      rw [Nat.cast_sub (by omega)]
      push_cast
      rfl
    rw [← cast]
    exact_mod_cast gap
  rw [← two_zpow_eq, roundingInterval_denominator, le_div_iff₀ (by positivity)]
  refine le_trans (le_of_eq ?_) gap
  field_simp
  ring

theorem upper_roundingInterval (mantissa : ℕ) (exponent : ℤ) :
    ((roundingInterval mantissa exponent).upper : ℚ) / (roundingInterval mantissa exponent).denominator =
      ((mantissa : ℚ) + 1 / 2) * 2 ^ exponent := by
  have denominator : (0 : ℚ) < (binaryFraction 1 exponent).2 := by
    exact_mod_cast binaryFraction_pos 1 exponent
  rw [← two_zpow_eq]
  simp only [roundingInterval]
  push_cast
  field_simp
  ring

namespace RoundingInterval

variable {interval : RoundingInterval}

/-- Both sides of the comparison are scaled alike. -/
theorem scaled_eq (interval : RoundingInterval) (coefficient : ℕ) (exponent : ℤ) (numerator : ℕ) :
    ∃ scale : ℚ, 0 < scale ∧
      ((interval.scaled coefficient exponent numerator).1 : ℚ) =
        coefficient * 10 ^ exponent * interval.denominator * scale ∧
      ((interval.scaled coefficient exponent numerator).2 : ℚ) = numerator * scale := by
  rw [scaled]
  split
  · next nonneg =>
      obtain ⟨power, rfl⟩ := Int.eq_ofNat_of_zero_le nonneg
      exact ⟨1, one_pos, by simp, by simp⟩
  · next neg =>
      obtain ⟨power, rfl⟩ : ∃ power : ℕ, exponent = -power := ⟨exponent.natAbs, by omega⟩
      refine ⟨10 ^ power, by positivity, ?_, by simp⟩
      simp only [zpow_neg, zpow_natCast]
      push_cast
      field_simp

theorem within_of_holds (positive : 0 < interval.denominator)
    (held : interval.holds coefficient exponent = true) :
    (interval.lower : ℚ) / interval.denominator ≤ coefficient * 10 ^ exponent ∧
      coefficient * 10 ^ exponent ≤ (interval.upper : ℚ) / interval.denominator := by
  have positive : (0 : ℚ) < interval.denominator := by exact_mod_cast positive
  obtain ⟨lowScale, lowPositive, lowLeft, lowRight⟩ :=
    scaled_eq interval coefficient exponent interval.lower
  obtain ⟨highScale, highPositive, highLeft, highRight⟩ :=
    scaled_eq interval coefficient exponent interval.upper
  have weak : (interval.scaled coefficient exponent interval.lower).2 ≤
        (interval.scaled coefficient exponent interval.lower).1 ∧
      (interval.scaled coefficient exponent interval.upper).1 ≤
        (interval.scaled coefficient exponent interval.upper).2 := by
    simp only [holds] at held
    split at held <;> simp only [Bool.and_eq_true, decide_eq_true_eq] at held <;> omega
  have low : ((interval.scaled coefficient exponent interval.lower).2 : ℚ) ≤
      (interval.scaled coefficient exponent interval.lower).1 := by exact_mod_cast weak.1
  have high : ((interval.scaled coefficient exponent interval.upper).1 : ℚ) ≤
      (interval.scaled coefficient exponent interval.upper).2 := by exact_mod_cast weak.2
  rw [lowLeft, lowRight] at low
  rw [highLeft, highRight] at high
  rw [div_le_iff₀ positive, le_div_iff₀ positive]
  exact ⟨le_of_mul_le_mul_right low lowPositive, le_of_mul_le_mul_right high highPositive⟩

theorem nearest?_eq_some (positive : 0 < interval.denominator)
    (found : interval.nearest? exponent = some (coefficient, place)) :
    interval.holds coefficient place = true ∧ place = exponent ∧
      (coefficient : ℚ) ≤ interval.value / interval.denominator / 10 ^ exponent + 1 := by
  have positive : (0 : ℚ) < interval.denominator := by exact_mod_cast positive
  obtain ⟨scale, scalePositive, left, right⟩ := scaled_eq interval 1 exponent interval.value
  simp only [nearest?] at found
  generalize interval.scaled 1 exponent interval.value = cell at found left right
  have below : ((cell.2 / cell.1 : ℕ) : ℚ) ≤ interval.value / interval.denominator / 10 ^ exponent := by
    have floor : ((cell.2 / cell.1 : ℕ) : ℚ) ≤ (cell.2 : ℚ) / cell.1 := Nat.cast_div_le
    refine floor.trans (le_of_eq ?_)
    rw [left, right]
    field_simp
    norm_num
  split at found
  case isTrue both =>
    simp only [Bool.and_eq_true, decide_eq_true_eq] at both
    split at found <;> cases found
    · exact ⟨both.1.2, rfl, below.trans (le_add_of_nonneg_right zero_le_one)⟩
    · exact ⟨both.2, rfl, by push_cast; linarith⟩
  case isFalse =>
    split at found
    case isTrue low =>
      simp only [Bool.and_eq_true, decide_eq_true_eq] at low
      cases found
      exact ⟨low.2, rfl, below.trans (le_add_of_nonneg_right zero_le_one)⟩
    case isFalse =>
      split at found
      case isTrue high =>
        cases found
        exact ⟨high, rfl, by push_cast; linarith⟩
      case isFalse => cases found

theorem search_eq (interval : RoundingInterval) (leading : ℤ) (tried more : ℕ) :
    interval.search leading tried more = (0, 0) ∨
      ∃ step, step < tried + more ∧
        interval.nearest? (leading - step) = some (interval.search leading tried more) := by
  induction more generalizing tried with
  | zero => exact .inl rfl
  | succ more ih =>
      rw [search]
      split
      · next found hit => exact .inr ⟨tried, by omega, hit⟩
      · obtain none | ⟨step, before, hit⟩ := ih (tried + 1)
        · exact .inl none
        · exact .inr ⟨step, by omega, hit⟩

end RoundingInterval

/-! ### The leading digit -/

theorem lt_pow_leadingExponent {numerator denominator : ℕ} (positive : 0 < numerator)
    (denominatorPositive : 0 < denominator) :
    (numerator : ℚ) / denominator < 10 ^ (leadingExponent numerator denominator + 1) := by
  have denominatorPositive' : (0 : ℚ) < denominator := by exact_mod_cast denominatorPositive
  rw [div_lt_iff₀ denominatorPositive', leadingExponent]
  split
  · have below : numerator < 10 ^ digitCount (numerator / denominator) * denominator :=
      (Nat.div_lt_iff_lt_mul denominatorPositive).mp (lt_pow_digitCount _)
    rw [sub_add_cancel, zpow_natCast]
    exact_mod_cast below
  · next less =>
      -- the quotient of the sides exchanged, rounded up and less one, is below their exact quotient
      generalize whole : (denominator + numerator - 1) / numerator - 1 = quotient
      have product : numerator * ((denominator + numerator - 1) / numerator) ≤ denominator + numerator - 1 :=
        Nat.mul_div_le _ _
      have atLeastTwo : 2 ≤ (denominator + numerator - 1) / numerator := by
        rw [Nat.le_div_iff_mul_le positive]
        omega
      have split : (denominator + numerator - 1) / numerator = quotient + 1 := by omega
      rw [split, Nat.mul_succ] at product
      have exchanged : numerator * 10 ^ (digitCount quotient - 1) < denominator :=
        calc numerator * 10 ^ (digitCount quotient - 1)
            ≤ numerator * quotient := Nat.mul_le_mul_left _ (pow_digitCount_le (by omega))
          _ < denominator := by omega
      have some : 0 < digitCount quotient := Nat.length_toDigits_pos
      have exponent : -(digitCount quotient : ℤ) + 1 = -((digitCount quotient - 1 : ℕ) : ℤ) := by omega
      rw [exponent, zpow_neg, zpow_natCast, inv_mul_eq_div, lt_div_iff₀ (by positivity)]
      exact_mod_cast exchanged

/-- Each grid below the leading digit adds one digit. -/
theorem RoundingInterval.coefficient_le {interval : RoundingInterval} (positive : 0 < interval.denominator)
    (some : 0 < interval.value) {step : ℕ}
    (found : interval.nearest? (leadingExponent interval.value interval.denominator - step) =
      Option.some (coefficient, place)) : coefficient ≤ 10 ^ (step + 1) := by
  obtain ⟨-, -, few⟩ := nearest?_eq_some positive found
  have below := lt_pow_leadingExponent some positive
  have grid : (coefficient : ℚ) < 10 ^ (step + 1) + 1 := by
    refine few.trans_lt (add_lt_add_left ?_ _)
    rw [div_lt_iff₀ (ten_zpow_pos _), ← zpow_natCast, ← zpow_add₀ (by norm_num)]
    refine below.trans_eq ?_
    congr 1
    push_cast
    ring
  have grid : coefficient < 10 ^ (step + 1) + 1 := by exact_mod_cast grid
  exact Nat.lt_succ_iff.mp grid

theorem dropZeros_eq (fuel coefficient : ℕ) (exponent : ℤ) :
    (dropZeros fuel coefficient exponent).1 ≤ coefficient ∧
      ((dropZeros fuel coefficient exponent).1 : ℚ) * 10 ^ (dropZeros fuel coefficient exponent).2 =
        coefficient * 10 ^ exponent := by
  fun_induction dropZeros fuel coefficient exponent with
  | case1 => exact ⟨le_refl _, rfl⟩
  | case2 fuel coefficient exponent divides ih =>
      obtain ⟨less, same⟩ := ih
      refine ⟨less.trans (Nat.div_le_self _ _), same.trans ?_⟩
      simp only [Bool.and_eq_true, decide_eq_true_eq] at divides
      obtain ⟨tens, rfl⟩ := Nat.dvd_of_mod_eq_zero divides.1
      rw [Nat.mul_div_cancel_left _ (by decide), zpow_add_one₀ (by norm_num)]
      push_cast
      ring
  | case3 => exact ⟨le_refl _, rfl⟩

/-! ### The shortest decimal -/

/-- The shortest decimal of a float above zero has no more than eighteen digits and, where one was found,
differs from the float by half a unit of its mantissa at most. -/
theorem shortestDecimal_bounds (negative : Bool) (positive : 0 < mantissa) (exponent : ℤ) :
    (shortestDecimal negative mantissa exponent).coefficient ≤ 10 ^ 18 ∧
      ((shortestDecimal negative mantissa exponent).value ≠ 0 →
        ((mantissa : ℚ) - 1 / 2) * 2 ^ exponent ≤ |(shortestDecimal negative mantissa exponent).value| ∧
        |(shortestDecimal negative mantissa exponent).value| ≤ ((mantissa : ℚ) + 1 / 2) * 2 ^ exponent) := by
  have denominator := denominator_roundingInterval_pos mantissa exponent
  simp only [shortestDecimal, if_neg positive.ne', Decimal.abs_value, Ne, Decimal.value_eq_zero_iff]
  generalize leading : leadingExponent (roundingInterval mantissa exponent).value
    (roundingInterval mantissa exponent).denominator = leadingPlace
  generalize found : (roundingInterval mantissa exponent).search leadingPlace 0 18 = point
  obtain ⟨less, same⟩ := dropZeros_eq 20 point.1 point.2
  rw [same]
  obtain none | ⟨step, before, hit⟩ :=
    RoundingInterval.search_eq (roundingInterval mantissa exponent) leadingPlace 0 18
  · rw [found] at none
    rw [none] at less ⊢
    have zero := Nat.le_zero.mp less
    exact ⟨less.trans (Nat.zero_le _), fun nonzero => absurd zero nonzero⟩
  · rw [found] at hit
    obtain ⟨held, -, -⟩ := RoundingInterval.nearest?_eq_some denominator hit
    obtain ⟨low, high⟩ := RoundingInterval.within_of_holds denominator held
    rw [← leading] at hit
    have few := RoundingInterval.coefficient_le denominator (value_roundingInterval_pos positive exponent) hit
    refine ⟨less.trans (few.trans (Nat.pow_le_pow_right (by decide) before)),
      fun _ => ⟨(le_lower_roundingInterval positive exponent).trans low, ?_⟩⟩
    rw [← upper_roundingInterval]
    exact high

/-- A multiple of the unit of the mantissa that the shortest decimal reaches is not above the float. -/
theorem le_of_le_shortestDecimal {negative : Bool} (positive : 0 < mantissa) {units : ℕ} {bound : ℚ}
    (multiple : bound = units * 2 ^ exponent) (some : 0 < bound)
    (reached : bound ≤ |(shortestDecimal negative mantissa exponent).value|) :
    bound ≤ mantissa * 2 ^ exponent := by
  have nonzero : (shortestDecimal negative mantissa exponent).value ≠ 0 :=
    abs_pos.mp (some.trans_le reached)
  have unit : (0 : ℚ) < 2 ^ exponent := zpow_pos (by norm_num) exponent
  have above := reached.trans ((shortestDecimal_bounds negative positive exponent).2 nonzero).2
  rw [multiple] at above ⊢
  have few : (units : ℚ) ≤ mantissa + 1 / 2 := le_of_mul_le_mul_right above unit
  have few : (units : ℚ) < (mantissa + 1 : ℕ) := by
    push_cast
    linarith
  have few : units ≤ mantissa := Nat.lt_succ_iff.mp (by exact_mod_cast few)
  exact mul_le_mul_of_nonneg_right (by exact_mod_cast few) unit.le

/-- The shortest decimal is at least half of the float. -/
theorem le_two_mul_shortestDecimal {negative : Bool} (positive : 0 < mantissa)
    (nonzero : (shortestDecimal negative mantissa exponent).value ≠ 0) :
    mantissa * 2 ^ exponent ≤ 2 * |(shortestDecimal negative mantissa exponent).value| := by
  have unit : (0 : ℚ) < 2 ^ exponent := zpow_pos (by norm_num) exponent
  have low := ((shortestDecimal_bounds negative positive exponent).2 nonzero).1
  have some : (1 : ℚ) ≤ mantissa := by exact_mod_cast positive
  have half : (mantissa : ℚ) ≤ 2 * (mantissa - 1 / 2) := by linarith
  calc (mantissa : ℚ) * 2 ^ exponent
      ≤ 2 * (mantissa - 1 / 2) * 2 ^ exponent := mul_le_mul_of_nonneg_right half unit.le
    _ ≤ 2 * |(shortestDecimal negative mantissa exponent).value| := by
        rw [mul_assoc]
        exact mul_le_mul_of_nonneg_left low (by norm_num)

theorem coefficient_le_of_shortest? {float : Float} {decimal : Decimal}
    (found : shortest? float = some decimal) : decimal.coefficient ≤ 10 ^ 18 := by
  rw [shortest?] at found
  split at found
  · next negative mantissa exponent _ =>
      obtain rfl := Option.some.inj found
      rcases Nat.eq_zero_or_pos mantissa with rfl | positive
      · exact Nat.zero_le _
      · exact (shortestDecimal_bounds negative positive exponent).1
  · cases found

end MeshGauges.Number
