import MeshGauges.Number.Decimal
import Mathlib.Algebra.Order.Field.Power
import Mathlib.Data.Int.Log
import Mathlib.Data.Rat.Floor
import Mathlib.Tactic.FieldSimp
import Mathlib.Tactic.Ring

/-! What decimals and their arithmetic mean.

A decimal stands for a rational number. The product and the sum of two decimals stand for the exact
product and sum, rounded to 28 significant digits with a half going to the even neighbour. The rounding
is a function of the number alone, so it does not matter which of several coefficients and exponents
represents it. -/

set_option autoImplicit false

namespace MeshGauges.Number

/-! ### Rounding of rationals -/

/-- The nearest integer. Of two that are equally near it is the even one. -/
def nearestInteger (number : ℚ) : ℤ :=
  if Int.fract number < 1 / 2 then ⌊number⌋
  else if 1 / 2 < Int.fract number then ⌊number⌋ + 1
  else if Even ⌊number⌋ then ⌊number⌋ else ⌊number⌋ + 1

/-- The exponent of the last of 28 significant digits. -/
def lastPlace (number : ℚ) : ℤ := Int.log 10 |number| - 27

/-- A number rounded to 28 significant digits. -/
def toPrecision (number : ℚ) : ℚ :=
  nearestInteger (number / 10 ^ lastPlace number) * 10 ^ lastPlace number

/-- The numbers that have no more than 28 significant digits. -/
def IsPrecise (number : ℚ) : Prop :=
  ∃ (coefficient exponent : ℤ), |coefficient| < 10 ^ 28 ∧ number = coefficient * 10 ^ exponent

theorem ten_zpow_pos (exponent : ℤ) : (0 : ℚ) < 10 ^ exponent := zpow_pos (by norm_num) exponent

theorem nearestInteger_intCast (number : ℤ) : nearestInteger number = number := by
  simp [nearestInteger]

theorem nearestInteger_neg (number : ℚ) : nearestInteger (-number) = -nearestInteger number := by
  by_cases whole : Int.fract number = 0
  · obtain ⟨integer, rfl⟩ := Int.fract_eq_zero_iff.mp whole
    rw [← Int.cast_neg, nearestInteger_intCast, nearestInteger_intCast]
  · have fraction : Int.fract (-number) = 1 - Int.fract number := Int.fract_neg whole
    have floor : ⌊-number⌋ = -⌊number⌋ - 1 := by
      have both : Int.fract number + ⌊number⌋ = number := Int.fract_add_floor number
      have mirrored : Int.fract (-number) + ⌊-number⌋ = -number := Int.fract_add_floor (-number)
      have cast : ((⌊-number⌋ : ℤ) : ℚ) = ((-⌊number⌋ - 1 : ℤ) : ℚ) := by
        push_cast
        linarith
      exact_mod_cast cast
    -- a half stays a half, and of the two neighbours the even one stays the even one
    have parity : Even (-⌊number⌋ - 1) ↔ ¬ Even ⌊number⌋ := by grind
    simp only [nearestInteger, fraction, floor, parity]
    split_ifs <;> first | omega | (exfalso; linarith)

theorem nearestInteger_div (numerator : ℕ) {denominator : ℕ} (positive : 0 < denominator) :
    nearestInteger ((numerator : ℚ) / denominator) = divideHalfEven numerator denominator := by
  have positive' : (0 : ℚ) < denominator := by exact_mod_cast positive
  have below : numerator % denominator < denominator := Nat.mod_lt _ positive
  have split : (numerator : ℚ) / denominator =
      (numerator / denominator : ℕ) + (numerator % denominator : ℕ) / denominator := by
    have whole : (numerator : ℚ) =
        denominator * (numerator / denominator : ℕ) + (numerator % denominator : ℕ) := by
      exact_mod_cast (Nat.div_add_mod numerator denominator).symm
    field_simp
    linarith
  have floor : ⌊(numerator : ℚ) / denominator⌋ = (numerator / denominator : ℕ) := by
    rw [Rat.floor_natCast_div_natCast, Int.natCast_div]
  have fraction : Int.fract ((numerator : ℚ) / denominator) =
      (numerator % denominator : ℕ) / denominator := by
    rw [Int.fract, floor, split, Int.cast_natCast, add_sub_cancel_left]
  have less : (numerator % denominator : ℕ) / (denominator : ℚ) < 1 / 2 ↔
      2 * (numerator % denominator) < denominator := by
    rw [div_lt_div_iff₀ positive' (by norm_num), mul_comm, one_mul]
    exact_mod_cast Iff.rfl
  have more : 1 / 2 < (numerator % denominator : ℕ) / (denominator : ℚ) ↔
      denominator < 2 * (numerator % denominator) := by
    rw [div_lt_div_iff₀ (by norm_num) positive', one_mul, mul_comm]
    exact_mod_cast Iff.rfl
  have parity : Even ((numerator / denominator : ℕ) : ℤ) ↔ numerator / denominator % 2 = 0 := by
    rw [Int.even_coe_nat, Nat.even_iff]
  simp only [nearestInteger, divideHalfEven, fraction, floor, less, more, parity]
  split_ifs <;> simp

theorem toPrecision_neg (number : ℚ) : toPrecision (-number) = -toPrecision number := by
  have place : lastPlace (-number) = lastPlace number := by rw [lastPlace, lastPlace, abs_neg]
  rw [toPrecision, toPrecision, place, neg_div, nearestInteger_neg]
  push_cast
  ring

/-- A number that is an integer at its last place is not changed. -/
theorem toPrecision_eq_self {number : ℚ} {coefficient exponent : ℤ}
    (place : lastPlace number ≤ exponent) (equal : number = coefficient * 10 ^ exponent) :
    toPrecision number = number := by
  obtain ⟨more, shift⟩ := Int.le.dest place
  have scaled : number / 10 ^ lastPlace number = ((coefficient * 10 ^ more : ℤ) : ℚ) := by
    rw [div_eq_iff (ten_zpow_pos _).ne']
    push_cast
    rw [mul_assoc, ← zpow_natCast, ← zpow_add₀ (by norm_num), add_comm (more : ℤ), shift]
    exact equal
  rw [toPrecision, scaled, nearestInteger_intCast, ← scaled, div_mul_cancel₀ _ (ten_zpow_pos _).ne']

theorem IsPrecise.toPrecision_eq {number : ℚ} (precise : IsPrecise number) :
    toPrecision number = number := by
  obtain ⟨coefficient, exponent, few, equal⟩ := precise
  by_cases zero : number = 0
  · rw [zero, toPrecision, zero_div]
    simp [nearestInteger]
  · refine toPrecision_eq_self ?_ equal
    have positive : 0 < |number| := abs_pos.mpr zero
    have size : |number| < 10 ^ (28 + exponent) := by
      rw [equal, abs_mul, abs_of_pos (ten_zpow_pos exponent), zpow_add₀ (by norm_num)]
      have few : |(coefficient : ℚ)| < 10 ^ (28 : ℤ) := by exact_mod_cast few
      exact mul_lt_mul_of_pos_right few (ten_zpow_pos exponent)
    have leading : Int.log 10 |number| < 28 + exponent :=
      (Int.lt_zpow_iff_log_lt (by norm_num) positive).mp (by exact_mod_cast size)
    rw [lastPlace]
    omega

theorem IsPrecise.abs {number : ℚ} (precise : IsPrecise number) : IsPrecise |number| := by
  obtain ⟨coefficient, exponent, few, rfl⟩ := precise
  refine ⟨|coefficient|, exponent, by rwa [abs_abs], ?_⟩
  rw [abs_mul, abs_of_pos (ten_zpow_pos exponent), Int.cast_abs]

theorem abs_nearestInteger_le {number : ℚ} {bound : ℕ} (within : |number| ≤ bound) :
    |nearestInteger number| ≤ bound := by
  obtain ⟨lower, upper⟩ := abs_le.mp within
  have floorLower : -(bound : ℤ) ≤ ⌊number⌋ := Int.le_floor.mpr (by push_cast; exact lower)
  have floorUpper : ⌊number⌋ ≤ bound := by
    have : (⌊number⌋ : ℚ) ≤ bound := (Int.floor_le number).trans upper
    exact_mod_cast this
  -- going up by one passes the bound only from the bound itself, where nothing is left to round
  have atBound : ⌊number⌋ = bound → Int.fract number = 0 := by
    intro equal
    have least : (bound : ℚ) ≤ number := by
      have := Int.floor_le number
      rw [equal] at this
      exact_mod_cast this
    rw [le_antisymm upper least]
    exact Int.fract_natCast bound
  rw [abs_le, nearestInteger]
  rcases eq_or_ne ⌊number⌋ (bound : ℤ) with equal | below
  · rw [atBound equal, if_pos (by norm_num)]
    exact ⟨floorLower, floorUpper⟩
  · split_ifs <;> constructor <;> omega

theorem isPrecise_toPrecision (number : ℚ) : IsPrecise (toPrecision number) := by
  have scaled : |number / 10 ^ lastPlace number| ≤ ((10 ^ 28 : ℕ) : ℚ) := by
    rw [abs_div, abs_of_pos (ten_zpow_pos _), div_le_iff₀ (ten_zpow_pos _)]
    have above := (Int.lt_zpow_succ_log_self (b := 10) (by norm_num) |number|).le
    have exponents : Int.log 10 |number| + 1 = 28 + lastPlace number := by
      rw [lastPlace]
      ring
    rw [exponents, Nat.cast_ofNat, zpow_add₀ (by norm_num)] at above
    exact_mod_cast above
  have bounded := abs_nearestInteger_le scaled
  rw [toPrecision]
  rcases lt_or_eq_of_le bounded with few | full
  · exact ⟨_, _, by exact_mod_cast few, rfl⟩
  · -- ten to the 28 has one digit more, and the last one is zero
    have sign : nearestInteger (number / 10 ^ lastPlace number) = 10 * 10 ^ 27 ∨
        nearestInteger (number / 10 ^ lastPlace number) = 10 * -10 ^ 27 := by
      rcases abs_choice (nearestInteger (number / 10 ^ lastPlace number)) with same | opposite
      · left
        rw [same] at full
        simpa using full
      · right
        rw [opposite] at full
        omega
    have shift : ∀ coefficient : ℤ, ((10 * coefficient : ℤ) : ℚ) * 10 ^ lastPlace number =
        coefficient * 10 ^ (lastPlace number + 1) := by
      intro coefficient
      rw [zpow_add_one₀ (by norm_num)]
      push_cast
      ring
    rcases sign with equal | equal
    · exact ⟨10 ^ 27, lastPlace number + 1, by norm_num, by rw [equal, shift]⟩
    · exact ⟨-10 ^ 27, lastPlace number + 1, by norm_num, by rw [equal, shift]⟩

theorem floor_le_nearestInteger (number : ℚ) : ⌊number⌋ ≤ nearestInteger number := by
  rw [nearestInteger]
  split_ifs <;> omega

/-- Rounding to significant digits leaves nothing of zero alone. -/
theorem toPrecision_eq_zero_iff {number : ℚ} : toPrecision number = 0 ↔ number = 0 := by
  constructor
  · intro rounded
    by_contra nonzero
    have size : 0 < |number| := abs_pos.mpr nonzero
    have leading : 1 ≤ |number| / 10 ^ lastPlace number := by
      have most : (10 : ℚ) ^ lastPlace number ≤ 10 ^ Int.log 10 |number| :=
        zpow_le_zpow_right₀ (by norm_num) (by rw [lastPlace]; omega)
      rw [one_le_div (ten_zpow_pos _)]
      exact most.trans (by exact_mod_cast Int.zpow_log_le_self (b := 10) (by norm_num) size)
    have floor : 1 ≤ ⌊|number| / 10 ^ lastPlace number⌋ := Int.le_floor.mpr (by exact_mod_cast leading)
    have positive := floor.trans (floor_le_nearestInteger _)
    have same : nearestInteger (number / 10 ^ lastPlace number) = 0 := by
      rw [toPrecision, mul_eq_zero, or_iff_left (ten_zpow_pos _).ne'] at rounded
      exact_mod_cast rounded
    rcases abs_choice number with equal | opposite
    · rw [equal, same] at positive
      omega
    · rw [opposite, neg_div, nearestInteger_neg, same] at positive
      omega
  · rintro rfl
    simp [toPrecision, nearestInteger]

/-! ### The number of a decimal -/

theorem pow_digitCount_le {value : ℕ} (positive : 0 < value) : 10 ^ (digitCount value - 1) ≤ value := by
  have some : 0 < digitCount value := Nat.length_toDigits_pos
  by_contra! less
  rcases Nat.eq_zero_or_pos (digitCount value - 1) with one | more
  · rw [one] at less
    omega
  · have shorter : digitCount value ≤ digitCount value - 1 :=
      (Nat.length_toDigits_le_iff (by norm_num) more).mpr less
    omega

theorem lt_pow_digitCount (value : ℕ) : value < 10 ^ digitCount value :=
  (Nat.length_toDigits_le_iff (by norm_num) Nat.length_toDigits_pos).mp le_rfl

namespace Decimal

/-- The number that a decimal stands for. -/
def value (decimal : Decimal) : ℚ := decimal.signedCoefficient * 10 ^ decimal.exponent

theorem abs_value (decimal : Decimal) :
    |decimal.value| = decimal.coefficient * 10 ^ decimal.exponent := by
  have size : |(decimal.signedCoefficient : ℚ)| = decimal.coefficient := by
    rw [signedCoefficient]
    split <;> simp
  rw [value, abs_mul, abs_of_pos (ten_zpow_pos _), size]

theorem value_eq_zero_iff {decimal : Decimal} : decimal.value = 0 ↔ decimal.coefficient = 0 := by
  rw [← abs_eq_zero, abs_value, mul_eq_zero, Nat.cast_eq_zero]
  exact or_iff_left (ten_zpow_pos _).ne'

theorem value_of_negative {decimal : Decimal} (negative : decimal.negative = true) :
    decimal.value = -|decimal.value| := by
  rw [abs_value, value, signedCoefficient, negative]
  simp

theorem value_of_not_negative {decimal : Decimal} (positive : decimal.negative = false) :
    decimal.value = |decimal.value| := by
  rw [abs_value, value, signedCoefficient, positive]
  simp

/-- The exponent of the leading digit. -/
theorem log_abs_value {decimal : Decimal} (nonzero : decimal.coefficient ≠ 0) :
    Int.log 10 |decimal.value| = decimal.adjustedExponent := by
  have positive : 0 < decimal.coefficient := Nat.pos_of_ne_zero nonzero
  have some : 0 < digitCount decimal.coefficient := Nat.length_toDigits_pos
  have size : 0 < |decimal.value| := abs_pos.mpr (mt value_eq_zero_iff.mp nonzero)
  rw [adjustedExponent]
  apply le_antisymm
  · have below : |decimal.value| < 10 ^ (decimal.exponent + digitCount decimal.coefficient) := by
      rw [abs_value, zpow_add₀ (by norm_num), mul_comm, zpow_natCast]
      exact mul_lt_mul_of_pos_left (by exact_mod_cast lt_pow_digitCount _) (ten_zpow_pos _)
    have less := (Int.lt_zpow_iff_log_lt (b := 10) (by norm_num) size).mp (by exact_mod_cast below)
    omega
  · refine (Int.zpow_le_iff_le_log (by norm_num) size).mp ?_
    have split : decimal.exponent + digitCount decimal.coefficient - 1 =
        decimal.exponent + (digitCount decimal.coefficient - 1 : ℕ) := by omega
    rw [split, abs_value, Nat.cast_ofNat, zpow_add₀ (by norm_num), mul_comm, zpow_natCast]
    exact mul_le_mul_of_nonneg_right (by exact_mod_cast pow_digitCount_le positive) (ten_zpow_pos _).le

theorem isPrecise_value {decimal : Decimal} (few : decimal.coefficient < 10 ^ 28) :
    IsPrecise decimal.value := by
  refine ⟨decimal.signedCoefficient, decimal.exponent, ?_, rfl⟩
  rw [signedCoefficient]
  split
  · rw [abs_neg, Nat.abs_cast]
    exact_mod_cast few
  · rw [Nat.abs_cast]
    exact_mod_cast few

/-! ### Arithmetic -/

/-- Rounding the coefficient of a decimal rounds its number. -/
theorem value_rounded (decimal : Decimal) : decimal.rounded.value = toPrecision decimal.value := by
  by_cases few : digitCount decimal.coefficient ≤ precision
  · have same : decimal.rounded = decimal := by
      rw [rounded, Nat.sub_eq_zero_of_le few]
      simp [divideHalfEven, Nat.mod_one]
    have less : decimal.coefficient < 10 ^ 28 :=
      (lt_pow_digitCount _).trans_le (Nat.pow_le_pow_right (by norm_num) few)
    rw [same, (isPrecise_value less).toPrecision_eq]
  · -- the digits that are cut off are those behind the last place
    obtain ⟨excess, many⟩ := Nat.exists_eq_add_of_le (not_le.mp few).le
    have nonzero : decimal.coefficient ≠ 0 := by
      intro zero
      rw [zero] at few
      exact few (by decide)
    have cut : digitCount decimal.coefficient - precision = excess := by omega
    have place : lastPlace decimal.value = decimal.exponent + excess := by
      rw [lastPlace, log_abs_value nonzero, adjustedExponent, many, precision]
      push_cast
      ring
    have scaled : decimal.value / 10 ^ (decimal.exponent + excess) =
        decimal.signedCoefficient / (10 ^ excess : ℕ) := by
      rw [value, zpow_add₀ (by norm_num), zpow_natCast]
      push_cast
      field_simp
    have nearest : nearestInteger (decimal.signedCoefficient / (10 ^ excess : ℕ)) =
        decimal.rounded.signedCoefficient := by
      have positive : 0 < 10 ^ excess := Nat.pow_pos (by norm_num)
      have magnitude := nearestInteger_div decimal.coefficient positive
      simp only [signedCoefficient, rounded, cut, Nat.pow_eq]
      split
      · rw [Int.cast_neg, Int.cast_natCast, neg_div, nearestInteger_neg, magnitude]
      · rw [Int.cast_natCast, magnitude]
    rw [toPrecision, place, scaled, nearest, value, rounded, cut]

theorem value_exactProduct (left right : Decimal) :
    (left.exactProduct right).value = left.value * right.value := by
  have product : (left.exactProduct right).signedCoefficient =
      left.signedCoefficient * right.signedCoefficient := by
    obtain ⟨leftNegative, _, _⟩ := left
    obtain ⟨rightNegative, _, _⟩ := right
    cases leftNegative <;> cases rightNegative <;> simp [signedCoefficient, exactProduct]
  rw [value, product, exactProduct, zpow_add₀ (by norm_num), value, value]
  push_cast
  ring

theorem value_exactSum (left right : Decimal) :
    (left.exactSum right).value = left.value + right.value := by
  have total : (left.exactSum right).signedCoefficient =
      left.signedCoefficient * 10 ^ (left.exponent - (left.exactSum right).exponent).toNat +
        right.signedCoefficient * 10 ^ (right.exponent - (left.exactSum right).exponent).toNat := by
    simp only [signedCoefficient, exactSum, Nat.pow_eq]
    push_cast
    grind
  have shift : ∀ exponent, (left.exactSum right).exponent ≤ exponent →
      (10 : ℚ) ^ (exponent - (left.exactSum right).exponent).toNat *
        10 ^ (left.exactSum right).exponent = 10 ^ exponent := by
    intro exponent least
    rw [← zpow_natCast, ← zpow_add₀ (by norm_num), Int.toNat_of_nonneg (by omega), sub_add_cancel]
  rw [value, total]
  push_cast
  rw [add_mul, mul_assoc, mul_assoc, shift _ (min_le_left _ _), shift _ (min_le_right _ _), value, value]

theorem value_mul (left right : Decimal) :
    (left * right).value = toPrecision (left.value * right.value) := by
  rw [← value_exactProduct, ← value_rounded]
  rfl

theorem value_add (left right : Decimal) :
    (left + right).value = toPrecision (left.value + right.value) := by
  rw [← value_exactSum, ← value_rounded]
  rfl

theorem negative_mul (left right : Decimal) : (left * right).negative = (left.negative != right.negative) :=
  rfl

theorem negative_add {left right : Decimal} (leftPositive : left.negative = false)
    (rightPositive : right.negative = false) : (left + right).negative = false := by
  change (left.exactSum right).negative = false
  simp only [exactSum, signedCoefficient, leftPositive, rightPositive, Bool.false_eq_true, if_false]
  split
  · rfl
  · rw [decide_eq_false_iff_not, not_lt]
    positivity

/-! ### Signs -/

/-- Whether the sign of a decimal is that of its number, as it is but for a zero with a minus sign. -/
def SignMatches (decimal : Decimal) : Prop := decimal.negative = decide (decimal.value < 0)

variable {left right : Decimal}

theorem value_neg_of_negative (negative : left.negative = true) (nonzero : left.value ≠ 0) :
    left.value < 0 := by
  rw [value_of_negative negative]
  exact neg_neg_of_pos (abs_pos.mpr nonzero)

theorem value_nonneg_of_not_negative (positive : left.negative = false) : 0 ≤ left.value := by
  rw [value_of_not_negative positive]
  exact abs_nonneg _

theorem signMatches_iff : left.SignMatches ↔ (left.negative = true → left.value ≠ 0) := by
  rw [SignMatches]
  cases negative : left.negative with
  | false =>
      have nonneg := value_nonneg_of_not_negative negative
      simp [nonneg]
  | true =>
      have below := value_neg_of_negative negative
      rw [eq_comm, decide_eq_true_iff]
      exact ⟨fun less _ => less.ne, fun nonzero => below (nonzero rfl)⟩

theorem SignMatches.mul (signed : left.SignMatches) (positive : 0 < right.value) :
    (left * right).SignMatches := by
  rw [signMatches_iff] at signed ⊢
  have noSign : right.negative = false := by
    by_contra negative
    have below := value_neg_of_negative (by simpa using negative) positive.ne'
    exact absurd positive below.not_gt
  intro negative
  rw [negative_mul, noSign, Bool.bne_false] at negative
  rw [value_mul, Ne, toPrecision_eq_zero_iff]
  exact mul_ne_zero (signed negative) positive.ne'

/-- A sum of zero has a minus sign only where both terms have one. -/
theorem negative_add_of_value_eq_zero (zero : (left + right).value = 0) :
    (left + right).negative = (left.negative && right.negative) := by
  rw [value_add, toPrecision_eq_zero_iff, ← value_exactSum, value_eq_zero_iff] at zero
  change (left.exactSum right).negative = _
  simp only [exactSum, Int.natAbs_eq_zero] at zero ⊢
  rw [if_pos zero]

theorem SignMatches.add (first : left.SignMatches) (second : right.SignMatches) :
    (left + right).SignMatches := by
  rw [signMatches_iff] at first second ⊢
  intro negative zero
  rw [negative_add_of_value_eq_zero zero, Bool.and_eq_true] at negative
  rw [value_add, toPrecision_eq_zero_iff] at zero
  have below := add_neg (value_neg_of_negative negative.1 (first negative.1))
    (value_neg_of_negative negative.2 (second negative.2))
  exact absurd zero below.ne

end Decimal
end MeshGauges.Number
