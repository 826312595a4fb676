import MeshGauges.Number.Numeral
import MeshGauges.Proofs.Number.Amount

/-! Arithmetic of floats.

A sum, a difference or a product of floats is the rounded sum, difference or product of the numbers that
they stand for. It is exact where the result is short and not too large, and it is never less than a short
number that the exact result reaches (`Approximates`). Whole numbers become floats in the same way. -/

set_option autoImplicit false

namespace MeshGauges.Number

open Float.Model UnpackedFloat

/-- What an operation makes of its exact result. -/
structure Approximates (value : Float) (number : ℚ) : Prop where
  exact : IsShort |number| → |number| < 2 ^ (1024 : ℤ) → number? value = some number
  reaches : ∀ bound, 0 < bound → IsShort bound → bound ≤ number → Reaches value bound

theorem abs_apply (sign : Sign) (mantissa : ℕ) : |((sign.apply mantissa : ℤ) : ℚ)| = mantissa := by
  cases sign <;> simp [Sign.apply]

theorem apply_one_mul (sign : Sign) (mantissa : ℕ) :
    ((sign.apply 1 : ℤ) : ℚ) * mantissa = sign.apply mantissa := by
  cases sign <;> simp [Sign.apply]

section Range

variable {mantissa : ℕ} {exponent : ℤ}

theorem Canonical.lt (canonical : Canonical mantissa exponent)
    (bounded : exponent ≤ greatestBinaryExponent) : (mantissa : ℚ) * 2 ^ exponent < 2 ^ (1024 : ℤ) := by
  have few : (mantissa : ℚ) < 2 ^ 53 := by exact_mod_cast canonical.few
  calc (mantissa : ℚ) * 2 ^ exponent
      < 2 ^ 53 * 2 ^ exponent := mul_lt_mul_of_pos_right few (zpow_pos (by norm_num) exponent)
    _ ≤ 2 ^ 53 * 2 ^ greatestBinaryExponent := by
        gcongr
        norm_num
    _ = 2 ^ (1024 : ℤ) := by
        rw [greatestBinaryExponent, ← zpow_natCast, ← zpow_add₀ (by norm_num)]
        rfl

theorem Canonical.le_of_overflow (canonical : Canonical mantissa exponent)
    (above : greatestBinaryExponent < exponent) : (2 : ℚ) ^ (1024 : ℤ) ≤ mantissa * 2 ^ exponent := by
  rw [greatestBinaryExponent] at above
  have full : ((2 ^ 52 : ℕ) : ℚ) ≤ mantissa := by
    exact_mod_cast canonical.full (by rw [leastBinaryExponent]; omega)
  calc (2 : ℚ) ^ (1024 : ℤ)
      = (2 ^ 52 : ℕ) * 2 ^ (972 : ℤ) := by
        rw [Nat.cast_pow, Nat.cast_ofNat, ← zpow_natCast, ← zpow_add₀ (by norm_num)]
        rfl
    _ ≤ mantissa * 2 ^ exponent := by
        gcongr
        · norm_num
        · omega

theorem abs_lt_of_number? {value : Float} {number : ℚ} (stands : number? value = some number) :
    |number| < 2 ^ (1024 : ℤ) := by
  have unpacked := standsFor_unpack stands
  generalize value.toModel.unpack = unpacked at unpacked
  cases unpacked with
  | zero sign =>
      rw [abs_zero]
      positivity
  | finite canonical bounded =>
      rw [abs_mul, abs_apply, abs_of_pos (zpow_pos (by norm_num) _)]
      exact canonical.lt bounded

end Range

/-! ### Rounded results -/

theorem Approximates.of_number? {value : Float} {number : ℚ} (stands : number? value = some number) :
    Approximates value number where
  exact _ _ := stands
  reaches _ _ _ reached := .inr ⟨number, stands, reached⟩

/-- Of a result that may be rounded to zero nothing is said. -/
theorem Approximates.of_tiny {value : Float} {number : ℚ} (some : number ≠ 0)
    (tiny : |number| < 2 ^ leastBinaryExponent) : Approximates value number where
  exact short := absurd tiny (short.least_le (abs_pos.mpr some)).not_gt
  reaches _ positive short reached :=
    absurd tiny ((short.least_le positive).trans (reached.trans (le_abs_self number))).not_gt

theorem approximates_pack {sign : Sign} {rounded : ℕ} {place : ℤ} (positive : 0 < rounded)
    {magnitude : ℚ} (size : 0 < magnitude) (rounds : RoundsTo magnitude rounded place) :
    Approximates ⟨Float.Model.pack (.finite sign rounded place positive)⟩
      (((sign.apply 1 : ℤ) : ℚ) * magnitude) := by
  have canonical := rounds.canonical
  have absolute : |((sign.apply 1 : ℤ) : ℚ) * magnitude| = magnitude := by
    rw [abs_mul, abs_of_pos size]
    cases sign <;> simp [Sign.apply]
  constructor
  · intro short bounded
    rw [absolute] at short bounded
    have equal := rounds.exact short
    have fits : place ≤ greatestBinaryExponent := by
      by_contra above
      have large := canonical.le_of_overflow (not_le.mp above)
      rw [equal] at large
      exact absurd bounded large.not_gt
    rw [number?_pack (.finite canonical fits), ← equal, ← mul_assoc, apply_one_mul]
  · intro bound above short reached
    cases sign with
    | negative =>
        simp only [Sign.apply, Int.cast_neg, Int.cast_one, neg_mul, one_mul] at reached
        linarith
    | positive =>
        simp only [Sign.apply, Int.cast_one, one_mul] at reached
        rcases le_or_gt place greatestBinaryExponent with fits | above
        · refine .inr ⟨rounded * 2 ^ place, ?_, rounds.reaches bound short reached⟩
          rw [number?_pack (.finite canonical fits)]
          simp [Sign.apply]
        · left
          rw [IsInfinite, binaryParts_eq, unpack_pack_of_overflow above]
          rfl

section Rounded

variable {mantissa : ℕ} {exponent : ℤ}

private theorem magnitude_pos (positive : 0 < mantissa) (exponent : ℤ) :
    (0 : ℚ) < mantissa * 2 ^ exponent :=
  mul_pos (by exact_mod_cast positive) (zpow_pos (by norm_num) exponent)

private theorem of_tiny_magnitude {value : Float} (sign : Sign) (positive : 0 < mantissa)
    (tiny : (mantissa : ℚ) * 2 ^ exponent < 2 ^ leastBinaryExponent) :
    Approximates value (((sign.apply 1 : ℤ) : ℚ) * (mantissa * 2 ^ exponent)) := by
  have size := magnitude_pos positive exponent
  refine .of_tiny ?_ ?_
  · cases sign <;> simp [Sign.apply, positive.ne', zpow_ne_zero]
  · rw [abs_mul, abs_of_pos size]
    cases sign <;> simpa [Sign.apply] using tiny

theorem approximates_round (sign : Sign) (positive : 0 < mantissa) (exponent : ℤ) :
    Approximates ⟨Float.Model.pack (round Format.binary64 sign mantissa exponent)⟩
      (((sign.apply 1 : ℤ) : ℚ) * (mantissa * 2 ^ exponent)) := by
  rcases lt_or_ge ((mantissa : ℚ) * 2 ^ exponent) (2 ^ leastBinaryExponent) with tiny | regular
  · exact of_tiny_magnitude sign positive tiny
  · obtain ⟨rounded, place, roundedPositive, rounding, rounds⟩ :=
      round_roundsTo sign positive regular
    rw [rounding]
    exact approximates_pack roundedPositive (magnitude_pos positive exponent) rounds

theorem approximates_roundWithAccuracy (sign : Sign) (positive : 0 < mantissa)
    (fits : exponent ≤ roundingExponent mantissa exponent) :
    Approximates ⟨Float.Model.pack (roundWithAccuracy Format.binary64 sign mantissa exponent .exact)⟩
      (((sign.apply 1 : ℤ) : ℚ) * (mantissa * 2 ^ exponent)) := by
  rcases lt_or_ge ((mantissa : ℚ) * 2 ^ exponent) (2 ^ leastBinaryExponent) with tiny | regular
  · exact of_tiny_magnitude sign positive tiny
  · obtain ⟨rounded, place, roundedPositive, rounding, rounds⟩ :=
      roundWithAccuracy_roundsTo sign positive fits regular
    rw [rounding]
    exact approximates_pack roundedPositive (magnitude_pos positive exponent) rounds

end Rounded

theorem approximates_normalize (mantissa exponent : ℤ) (sign : Sign) :
    Approximates ⟨Float.Model.pack (UnpackedFloat.normalize Format.binary64 mantissa exponent sign)⟩
      (mantissa * 2 ^ exponent) := by
  rcases lt_trichotomy mantissa 0 with below | rfl | above
  · obtain ⟨size, rfl⟩ : ∃ size : ℕ, mantissa = -size := ⟨mantissa.natAbs, by omega⟩
    have rounded := approximates_round .negative (by omega : 0 < size) exponent
    rw [UnpackedFloat.normalize, compare_lt_iff_lt.mpr below]
    simp only [neg_neg, Int.toNat_natCast]
    simpa [Sign.apply] using rounded
  · refine .of_number? ?_
    rw [UnpackedFloat.normalize, compare_eq_iff_eq.mpr rfl, Int.cast_zero, zero_mul]
    exact number?_pack (.zero sign)
  · obtain ⟨size, rfl⟩ : ∃ size : ℕ, mantissa = size := ⟨mantissa.natAbs, by omega⟩
    have rounded := approximates_round .positive (by omega : 0 < size) exponent
    rw [UnpackedFloat.normalize, compare_gt_iff_gt.mpr above]
    simp only [Int.toNat_natCast]
    simpa [Sign.apply] using rounded

/-! ### Sums and differences -/

theorem aligned (sign : Sign) (mantissa : ℕ) {exponent lower : ℤ} (ordered : lower ≤ exponent) :
    ((sign.apply (decreaseExponent mantissa exponent lower).1 : ℤ) : ℚ) * 2 ^ lower =
      sign.apply mantissa * 2 ^ exponent := by
  obtain ⟨places, rfl⟩ := Int.le.dest ordered
  have shift : (lower + (places : ℤ) - lower).toNat = places := by omega
  rw [decreaseExponent, shift, Nat.shiftLeft_eq, zpow_add₀ (by norm_num), zpow_natCast]
  cases sign <;>
  · simp only [Sign.apply]
    push_cast
    ring

private theorem approximates_add_unpacked {first second : UnpackedFloat} {left right : ℚ}
    (stands : StandsFor first left) (other : StandsFor second right) :
    Approximates ⟨Float.Model.pack (UnpackedFloat.add Format.binary64 first second)⟩ (left + right) := by
  cases stands with
  | zero sign =>
      rw [zero_add]
      cases other with
      | zero otherSign =>
          refine .of_number? ?_
          cases sign <;> cases otherSign <;> exact number?_pack (.zero _)
      | finite canonical bounded => exact .of_number? (number?_pack (.finite canonical bounded))
  | @finite sign mantissa exponent _ canonical bounded =>
      cases other with
      | zero otherSign =>
          rw [add_zero]
          exact .of_number? (number?_pack (.finite canonical bounded))
      | @finite otherSign otherMantissa otherExponent _ _ _ =>
          rw [← aligned sign mantissa (min_le_left exponent otherExponent),
            ← aligned otherSign otherMantissa (min_le_right exponent otherExponent), ← add_mul,
            ← Int.cast_add]
          exact approximates_normalize _ _ .positive

theorem apply_neg (sign : Sign) (mantissa : ℤ) : (-sign).apply mantissa = -sign.apply mantissa := by
  cases sign with
  | positive => rfl
  | negative => exact (neg_neg mantissa).symm

private theorem StandsFor.neg {unpacked : UnpackedFloat} {number : ℚ}
    (stands : StandsFor unpacked number) : StandsFor unpacked.neg (-number) := by
  cases stands with
  | zero sign =>
      rw [neg_zero]
      exact .zero _
  | @finite sign mantissa exponent positive canonical bounded =>
      have opposite : StandsFor (.finite (-sign) mantissa exponent positive) _ := .finite canonical bounded
      rw [apply_neg, Int.cast_neg, neg_mul] at opposite
      exact opposite

private theorem sub_eq_add_neg_unpacked (first second : UnpackedFloat) :
    UnpackedFloat.sub Format.binary64 first second =
      UnpackedFloat.add Format.binary64 first second.neg := by
  cases first <;> cases second <;>
    simp only [UnpackedFloat.sub, UnpackedFloat.add, UnpackedFloat.neg, apply_neg, sub_eq_add_neg]

variable {first second : Float} {left right : ℚ}

theorem approximates_add (stands : number? first = some left) (other : number? second = some right) :
    Approximates (first + second) (left + right) :=
  approximates_add_unpacked (standsFor_unpack stands) (standsFor_unpack other)

theorem approximates_sub (stands : number? first = some left) (other : number? second = some right) :
    Approximates (first - second) (left - right) := by
  have added := approximates_add_unpacked (standsFor_unpack stands) (standsFor_unpack other).neg
  rw [← sub_eq_add_neg_unpacked, ← sub_eq_add_neg] at added
  exact added

theorem isInfinite_pack : IsInfinite ⟨Float.Model.pack (.infinity .positive)⟩ := rfl

theorem isInfinite_add (stands : number? first = some left) (infinite : IsInfinite second) :
    IsInfinite (first + second) := by
  have unpacked := standsFor_unpack stands
  have sum : IsInfinite ⟨Float.Model.pack
      (UnpackedFloat.add Format.binary64 first.toModel.unpack second.toModel.unpack)⟩ := by
    rw [unpack_of_isInfinite infinite]
    generalize first.toModel.unpack = unpacked at unpacked
    cases unpacked <;> exact isInfinite_pack
  exact sum

theorem isInfinite_sub (infinite : IsInfinite first) (stands : number? second = some right) :
    IsInfinite (first - second) := by
  have unpacked := standsFor_unpack stands
  have difference : IsInfinite ⟨Float.Model.pack
      (UnpackedFloat.sub Format.binary64 first.toModel.unpack second.toModel.unpack)⟩ := by
    rw [unpack_of_isInfinite infinite]
    generalize second.toModel.unpack = unpacked at unpacked
    cases unpacked <;> exact isInfinite_pack
  exact difference

theorem Reaches.add {bound : ℚ} (stands : number? first = some left)
    (reaches : Reaches second (bound - left)) (positive : 0 < bound) (short : IsShort bound) :
    Reaches (first + second) bound := by
  obtain infinite | ⟨right, other, reached⟩ := reaches
  · exact .inl (isInfinite_add stands infinite)
  · exact (approximates_add stands other).reaches bound positive short (by linarith)

theorem Reaches.sub {bound : ℚ} (reaches : Reaches first (bound + right))
    (other : number? second = some right) (positive : 0 < bound) (short : IsShort bound) :
    Reaches (first - second) bound := by
  obtain infinite | ⟨left, stands, reached⟩ := reaches
  · exact .inl (isInfinite_sub infinite other)
  · exact (approximates_sub stands other).reaches bound positive short (by linarith)

/-! ### Products -/

theorem apply_one_mul_mul (sign other : Sign) (left right : ℕ) :
    (((sign * other).apply 1 : ℤ) : ℚ) * (left * right : ℕ) = sign.apply left * other.apply right := by
  have signs : (sign * other).apply 1 = sign.apply 1 * other.apply 1 := by
    cases sign <;> cases other <;> rfl
  rw [signs, ← apply_one_mul sign left, ← apply_one_mul other right]
  push_cast
  ring

/-- A product of mantissas has enough bits, or its exponent is small enough. -/
theorem Canonical.le_roundingExponent {mantissa other : ℕ} {exponent otherExponent : ℤ}
    (canonical : Canonical mantissa exponent) (otherCanonical : Canonical other otherExponent)
    (positive : 0 < mantissa) (otherPositive : 0 < other) :
    exponent + otherExponent ≤ roundingExponent (mantissa * other) (exponent + otherExponent) := by
  have many (full : 2 ^ 52 ≤ mantissa * other) : 52 ≤ (mantissa * other).log2 :=
    (Nat.le_log2 (Nat.mul_pos positive otherPositive).ne').mpr full
  have least := canonical.least
  have otherLeast := otherCanonical.least
  rcases least.lt_or_eq with above | rfl
  · have full := many ((canonical.full above).trans (Nat.le_mul_of_pos_right _ otherPositive))
    rw [roundingExponent]
    omega
  · rcases otherLeast.lt_or_eq with above | rfl
    · have full := many ((otherCanonical.full above).trans (Nat.le_mul_of_pos_left _ positive))
      rw [roundingExponent]
      omega
    · rw [roundingExponent, leastBinaryExponent]
      omega

private theorem approximates_mul_unpacked {first second : UnpackedFloat} {left right : ℚ}
    (stands : StandsFor first left) (other : StandsFor second right) :
    Approximates ⟨Float.Model.pack (UnpackedFloat.mul Format.binary64 first second)⟩ (left * right) := by
  cases stands with
  | zero sign =>
      rw [zero_mul]
      refine .of_number? ?_
      cases other <;> exact number?_pack (.zero _)
  | @finite sign mantissa exponent positive canonical bounded =>
      cases other with
      | zero otherSign =>
          rw [mul_zero]
          exact .of_number? (number?_pack (.zero _))
      | @finite otherSign otherMantissa otherExponent otherPositive otherCanonical _ =>
          have rounded := approximates_roundWithAccuracy (sign * otherSign)
            (Nat.mul_pos positive otherPositive)
            (canonical.le_roundingExponent otherCanonical positive otherPositive)
          rw [← mul_assoc, apply_one_mul_mul, zpow_add₀ (by norm_num), mul_mul_mul_comm] at rounded
          exact rounded

theorem approximates_mul (stands : number? first = some left) (other : number? second = some right) :
    Approximates (first * second) (left * right) :=
  approximates_mul_unpacked (standsFor_unpack stands) (standsFor_unpack other)

/-! ### Whole numbers -/

theorem isShort_natCast {number : ℕ} (few : number < 2 ^ 53) : IsShort (number : ℚ) :=
  ⟨number, 0, few, by decide, by rw [zpow_zero, mul_one]⟩

theorem number?_one : number? 1.0 = some 1 := by
  have parts : binaryParts 1.0 = .finite false (2 ^ 52) (-52) := by rfl
  rw [number?, parts, BinaryParts.number?]
  norm_num [withSign]

theorem number?_two : number? 2.0 = some 2 := by
  have parts : binaryParts 2.0 = .finite false (2 ^ 52) (-51) := by rfl
  rw [number?, parts, BinaryParts.number?]
  norm_num [withSign]

private theorem approximates_toFloat (number : UInt64) :
    Approximates number.toFloat (number.toNat : ℚ) := by
  have rounded := approximates_normalize number.toNat 0 .positive
  rw [zpow_zero, mul_one, Int.cast_natCast] at rounded
  exact rounded

private theorem approximates_ofScientific_of_few {number : ℕ} (few : number < 2 ^ 53) :
    Approximates (Float.ofScientific number false 0) number := by
  have same : Float.ofScientific number false 0 = number.toUInt64.toFloat * 1.0 := by
    rw [Float.ofScientific, dif_pos ⟨few, by decide⟩]
    rfl
  have kept : number.toUInt64.toNat = number := by
    rw [Nat.toUInt64_eq, UInt64.toNat_ofNat']
    exact Nat.mod_eq_of_lt (few.trans (by norm_num))
  have rounded := approximates_toFloat number.toUInt64
  rw [kept] at rounded
  have size : |(number : ℚ)| = number := abs_of_nonneg (Nat.cast_nonneg number)
  have small : (number : ℚ) < 2 ^ (1024 : ℤ) := by
    have few : (number : ℚ) < 2 ^ 53 := by exact_mod_cast few
    rw [← zpow_natCast] at few
    exact few.trans (zpow_lt_zpow_right₀ (by norm_num) (by norm_num))
  have exact := rounded.exact (by rw [size]; exact isShort_natCast few) (by rw [size]; exact small)
  have product := approximates_mul exact number?_one
  rw [mul_one] at product
  rw [same]
  exact product

private theorem approximates_ofScientific_of_many {number : ℕ} (many : 2 ^ 53 ≤ number) :
    Approximates (Float.ofScientific number false 0) number := by
  have positive : 0 < number := by omega
  have shifted : 0 < (number <<< 53) * 10 ^ 0 := by
    rw [Nat.shiftLeft_eq, pow_zero, mul_one]
    exact Nat.mul_pos positive (Nat.two_pow_pos _)
  have same : Float.ofScientific number false 0 =
      ⟨Float.Model.pack (roundWithAccuracy Format.binary64 .positive ((number <<< 53) * 10 ^ 0)
        (-53 + 0) .exact)⟩ := by
    rw [Float.ofScientific, dif_neg (by omega)]
    simp only [Bool.false_eq_true, if_false, Float.Model.ofScientific, UnpackedFloat.ofScientific]
    rw [dif_neg positive.ne', if_neg (by decide), if_neg, if_pos (by decide)]
    · rfl
    · change ¬ (0 : ℤ) < -(2048 + (number.log2 : ℤ))
      omega
  have fits : (-53 + 0 : ℤ) ≤ roundingExponent ((number <<< 53) * 10 ^ 0) (-53 + 0) := by
    rw [pow_zero, mul_one, Nat.shiftLeft_eq, roundingExponent, log2_mul_two_pow positive]
    push_cast
    omega
  have rounded := approximates_roundWithAccuracy .positive shifted fits
  have exact : ((Sign.positive.apply 1 : ℤ) : ℚ) *
      (((number <<< 53) * 10 ^ 0 : ℕ) * 2 ^ (-53 + 0 : ℤ)) = number := by
    have power : ((2 ^ 53 : ℕ) : ℚ) * 2 ^ (-53 + 0 : ℤ) = 1 := by norm_num
    rw [Nat.shiftLeft_eq, pow_zero, mul_one, Nat.cast_mul, mul_assoc, power, Sign.apply, Int.cast_one,
      one_mul, mul_one]
  rw [exact] at rounded
  rw [same]
  exact rounded

theorem approximates_ofScientific (number : ℕ) :
    Approximates (Float.ofScientific number false 0) number := by
  rcases Nat.lt_or_ge number (2 ^ 53) with few | many
  · exact approximates_ofScientific_of_few few
  · exact approximates_ofScientific_of_many many

theorem approximates_nearestFinite? {whole : ℤ} {value : Float} (rounded : nearestFinite? whole = some value)
    (positive : 0 < whole) : Approximates value whole := by
  obtain ⟨number, rfl⟩ : ∃ number : ℕ, whole = number := ⟨whole.natAbs, by omega⟩
  have some : number ≠ 0 := by omega
  simp only [nearestFinite?, Int.natAbs_natCast, if_neg positive.not_gt] at rounded
  have finite : nearestFloat number 0 = value := by
    split at rounded
    · exact Option.some.inj rounded
    · cases rounded
  rw [← finite] at rounded ⊢
  rw [nearestFloat] at rounded ⊢
  have notTiny : ¬ (number = 0 ∨ (0 : ℤ) + digitCount number < -floatExponentBound) := by
    rw [floatExponentBound]
    omega
  simp only [Bool.or_eq_true, decide_eq_true_eq, if_neg notTiny, le_refl, if_true] at rounded ⊢
  by_cases huge : floatExponentBound < (0 : ℤ) + digitCount number
  · rw [if_pos huge] at rounded
    have infinite : binaryParts (1.0 / 0.0) = .infinite false := by rfl
    rw [infinite] at rounded
    cases rounded
  · rw [if_neg huge, Int.toNat_zero, Int.cast_natCast]
    exact approximates_ofScientific number

end MeshGauges.Number
