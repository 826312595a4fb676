import MeshGauges.Proofs.Number.Plain

/-! Places of digits.

The multiples of a power of ten are the numbers that have no digit beyond its place. Rounding to 28
significant digits keeps such a number on its grid, and it does not pass a bound that has no more digits
itself (`abs_toPrecision_le`). So the place of the last digit and the size of a decimal bound the length of
its plain numeral (`Decimal.length_numeral_le`). -/

set_option autoImplicit false

namespace MeshGauges.Number

open Text

/-- Whether a number is a multiple of a power of ten. -/
def OnGrid (place : ℤ) (number : ℚ) : Prop := ∃ multiple : ℤ, number = multiple * 10 ^ place

section Grids

variable {place : ℤ} {number : ℚ}

theorem onGrid_zero (place : ℤ) : OnGrid place 0 := ⟨0, by rw [Int.cast_zero, zero_mul]⟩

theorem OnGrid.finer (onGrid : OnGrid place number) {finer : ℤ} (below : finer ≤ place) :
    OnGrid finer number := by
  obtain ⟨multiple, rfl⟩ := onGrid
  obtain ⟨more, rfl⟩ := Int.le.dest below
  refine ⟨multiple * 10 ^ more, ?_⟩
  push_cast
  rw [zpow_add₀ (by norm_num), zpow_natCast, mul_comm ((10 : ℚ) ^ finer), mul_assoc]

theorem OnGrid.add {other : ℚ} (first : OnGrid place number) (second : OnGrid place other) :
    OnGrid place (number + other) := by
  obtain ⟨firstMultiple, rfl⟩ := first
  obtain ⟨secondMultiple, rfl⟩ := second
  exact ⟨firstMultiple + secondMultiple, by rw [Int.cast_add, add_mul]⟩

theorem OnGrid.neg (onGrid : OnGrid place number) : OnGrid place (-number) := by
  obtain ⟨multiple, rfl⟩ := onGrid
  exact ⟨-multiple, by rw [Int.cast_neg, neg_mul]⟩

/-! ### Rounding on a grid -/

theorem onGrid_lastPlace (number : ℚ) : OnGrid (lastPlace number) (toPrecision number) := ⟨_, rfl⟩

/-- Rounding leaves a number on its grid, or puts it on a coarser one. -/
theorem OnGrid.toPrecision (onGrid : OnGrid place number) : OnGrid place (toPrecision number) := by
  rcases le_total (lastPlace number) place with within | beyond
  · obtain ⟨multiple, equal⟩ := onGrid
    exact ⟨multiple, (toPrecision_eq_self within equal).trans equal⟩
  · exact (onGrid_lastPlace number).finer beyond

theorem le_lastPlace (large : (10 : ℚ) ^ (place + 27) ≤ |number|) : place ≤ lastPlace number := by
  have positive : 0 < |number| := (ten_zpow_pos _).trans_le large
  have leading : place + 27 ≤ Int.log 10 |number| :=
    (Int.zpow_le_iff_le_log (by norm_num) positive).mp (by exact_mod_cast large)
  rw [lastPlace]
  omega

theorem onGrid_toPrecision (large : number = 0 ∨ (10 : ℚ) ^ (place + 27) ≤ |number|) :
    OnGrid place (toPrecision number) := by
  rcases large with rfl | large
  · exact (onGrid_zero place).toPrecision
  · exact (onGrid_lastPlace number).finer (le_lastPlace large)

/-- A bound that has no more digits than fit is not passed by rounding. -/
theorem abs_toPrecision_le {bound : ℚ} (within : |number| ≤ bound) (precise : IsPrecise bound) :
    |toPrecision number| ≤ bound := by
  rcases eq_or_ne number 0 with rfl | nonzero
  · rwa [toPrecision_eq_zero_iff.mpr rfl]
  · have positive : 0 < |number| := abs_pos.mpr nonzero
    have place : lastPlace number ≤ lastPlace bound := by
      rw [lastPlace, lastPlace, abs_of_pos (positive.trans_le within)]
      exact Int.sub_le_sub_right (Int.log_mono_right positive within) 27
    -- the bound is on the grid that the number is rounded to
    obtain ⟨multiple, equal⟩ : OnGrid (lastPlace number) bound := by
      have coarse := onGrid_lastPlace bound
      rw [precise.toPrecision_eq] at coarse
      exact coarse.finer place
    rw [equal] at within ⊢
    have nonneg : 0 ≤ multiple := by
      have := pos_of_mul_pos_left (positive.trans_le within) (ten_zpow_pos _).le
      exact_mod_cast this.le
    obtain ⟨multiple, rfl⟩ := Int.eq_ofNat_of_zero_le nonneg
    have scaled : |number / 10 ^ lastPlace number| ≤ multiple := by
      rw [abs_div, abs_of_pos (ten_zpow_pos _), div_le_iff₀ (ten_zpow_pos _)]
      exact_mod_cast within
    have nearest : |(nearestInteger (number / 10 ^ lastPlace number) : ℚ)| ≤ (multiple : ℤ) := by
      exact_mod_cast abs_nearestInteger_le scaled
    rw [toPrecision, abs_mul, abs_of_pos (ten_zpow_pos _)]
    exact mul_le_mul_of_nonneg_right nearest (ten_zpow_pos _).le

/-- Of a precise number on a grid, 28 digits that do not go beyond the grid are all. -/
theorem IsPrecise.exists_of_onGrid (precise : IsPrecise number) (onGrid : OnGrid place number) :
    ∃ coefficient exponent : ℤ, |coefficient| < 10 ^ 28 ∧ place ≤ exponent ∧
      number = coefficient * 10 ^ exponent := by
  obtain ⟨coefficient, exponent, few, rfl⟩ := precise
  rcases le_or_gt place exponent with within | beyond
  · exact ⟨coefficient, exponent, few, within, rfl⟩
  · obtain ⟨multiple, equal⟩ := onGrid
    obtain ⟨more, rfl⟩ := Int.le.dest beyond.le
    refine ⟨multiple, _, ?_, le_rfl, equal⟩
    rw [zpow_add₀ (by norm_num), mul_comm ((10 : ℚ) ^ exponent), ← mul_assoc,
      mul_left_inj' (ten_zpow_pos _).ne', zpow_natCast] at equal
    have whole : coefficient = multiple * 10 ^ more := by exact_mod_cast equal
    have scale : (1 : ℤ) ≤ |10 ^ more| := Int.one_le_abs (pow_ne_zero more (by norm_num))
    rw [whole, abs_mul] at few
    exact (le_mul_of_one_le_right (abs_nonneg _) scale).trans_lt few

end Grids

/-! ### Lengths of plain numerals -/

theorem digitCount_le {number count : ℕ} (some : 0 < count) (few : number < 10 ^ count) :
    digitCount number ≤ count :=
  (Nat.length_toDigits_le_iff (by decide) some).mpr few

theorem Numeral.length_characters_ofParts_le (places number : ℕ) :
    (ofParts places number).characters.length ≤ max (places + 1) (digitCount number) + 1 := by
  obtain ⟨count, split⟩ := Decimal.withoutTrailingZeros_append (lowDigits places number)
  have fraction : (Decimal.withoutTrailingZeros (lowDigits places number)).length ≤ places := by
    have lengths := congrArg List.length split
    rw [length_lowDigits, List.length_append] at lengths
    omega
  have filled := congrArg List.length (replicate_append_toDigits places number)
  simp only [List.length_append, List.length_replicate, length_lowDigits] at filled
  have tail : (ofParts places number).tail.length ≤ places + 1 := by
    simp only [tail, ofParts]
    split
    · exact Nat.zero_le _
    · next found =>
        split at found
        · cases found
        · obtain rfl := Option.some.inj found
          exact Nat.succ_le_succ fraction
  rw [characters, List.length_append]
  simp only [ofParts, digitCount] at *
  omega

/-- A decimal that has no digit beyond some place and is below some power of ten has a short numeral. -/
theorem Decimal.length_numeral_le {decimal : Decimal} {places width : ℕ} (some : 0 < width)
    (precise : IsPrecise decimal.value) (onGrid : OnGrid (-places) decimal.value)
    (small : |decimal.value| < 10 ^ width) :
    decimal.numeral.characters.length ≤ max (places + 1) (max 28 width) + 1 := by
  obtain ⟨coefficient, exponent, few, above, equal⟩ := precise.exists_of_onGrid onGrid
  have few : coefficient.natAbs < 10 ^ 28 := by
    rw [Int.abs_eq_natAbs] at few
    exact_mod_cast few
  have size : |decimal.value| = |(⟨false, coefficient.natAbs, exponent⟩ : Decimal).value| := by
    rw [equal, abs_value, abs_mul, abs_of_pos (ten_zpow_pos _), Nat.cast_natAbs, Int.cast_abs]
  have digits : digitCount (coefficient.natAbs * 10 ^ exponent.toNat) ≤ max 28 width := by
    rcases le_total exponent 0 with below | aboveZero
    · rw [Int.toNat_of_nonpos below, Nat.pow_zero, Nat.mul_one]
      exact (digitCount_le (by norm_num) few).trans (le_max_left _ _)
    · refine (digitCount_le some ?_).trans (le_max_right _ _)
      obtain ⟨zeros, rfl⟩ := Int.eq_ofNat_of_zero_le aboveZero
      rw [size, abs_value, zpow_natCast] at small
      exact_mod_cast small
  have length := Numeral.length_characters_ofParts_le (-exponent).toNat
    (coefficient.natAbs * 10 ^ exponent.toNat)
  rw [numeral_eq_of_abs_value_eq size, numeral]
  dsimp only
  omega

end MeshGauges.Number
