import MeshGauges.Proofs.Number.Parts
import Mathlib.Algebra.Order.Field.Power
import Mathlib.Algebra.Order.Floor.Semifield
import Mathlib.Data.Rat.Floor

/-! Cutting off the fraction of floats above zero.

Cutting off is monotone: of two finite floats above zero, the one that is not greater has not the greater
whole part. Floats are compared by their exponents first, which is right because a mantissa has all its
bits unless the exponent is the smallest one. -/

set_option autoImplicit false

namespace MeshGauges.Number

open Float.Model UnpackedFloat

theorem unpack_zero : (0.0 : Float).toModel.unpack = .zero .positive := rfl

/-- Floats above zero are infinite or have a sign, a mantissa and an exponent. -/
inductive Positive : UnpackedFloat → Prop where
  | infinity : Positive (.infinity .positive)
  | finite {mantissa : Nat} {exponent : Int} (positive : 0 < mantissa) :
      Positive (.finite .positive mantissa exponent positive)

theorem positive_of_not_le {value : Float} (defined : value.isNaN = false) (above : ¬ value ≤ 0.0) :
    Positive value.toModel.unpack := by
  change value.toModel.unpack.isNaN = false at defined
  rw [le_iff, unpack_zero] at above
  cases unpacked : value.toModel.unpack with
  | notANumber => rw [unpacked] at defined; cases defined
  | infinity sign =>
      cases sign with
      | positive => exact .infinity
      | negative => rw [unpacked] at above; exact absurd rfl above
  | zero sign => rw [unpacked] at above; exact absurd rfl above
  | finite sign mantissa exponent positive =>
      cases sign with
      | positive => exact .finite positive
      | negative => rw [unpacked] at above; exact absurd rfl above

theorem zero_lt_of_positive {value : Float} (positive : Positive value.toModel.unpack) :
    0.0 < value := by
  rw [lt_iff, unpack_zero]
  generalize value.toModel.unpack = unpacked at positive
  cases positive <;> rfl

def wholePart (mantissa : Nat) (exponent : Int) : Nat :=
  (binaryFraction mantissa exponent).1 / (binaryFraction mantissa exponent).2

theorem wholePart_eq_floor (mantissa : Nat) (exponent : Int) :
    wholePart mantissa exponent = ⌊(mantissa : ℚ) * 2 ^ exponent⌋₊ := by
  unfold wholePart binaryFraction
  split
  · rename_i nonneg
    obtain ⟨power, rfl⟩ := Int.eq_ofNat_of_zero_le nonneg
    have cast : (mantissa : ℚ) * 2 ^ (power : Int) = ((mantissa * 2 ^ power : Nat) : ℚ) := by
      push_cast
      rw [zpow_natCast]
    rw [cast, Nat.floor_natCast]
    simp
  · rename_i neg
    obtain ⟨power, rfl⟩ : ∃ power : Nat, exponent = -power := ⟨exponent.natAbs, by omega⟩
    have cast : (mantissa : ℚ) * 2 ^ (-(power : Int)) = (mantissa : ℚ) / ((2 ^ power : Nat) : ℚ) := by
      push_cast
      rw [zpow_neg, zpow_natCast, div_eq_mul_inv]
    rw [cast, Nat.floor_div_eq_div]
    simp

/-- A smaller exponent outweighs the mantissa, which has 53 bits at the most and all of them above the
smallest exponent. -/
theorem magnitude_le {first second : Nat} {firstExponent secondExponent : Int} (few : first < 2 ^ 53)
    (full : firstExponent < secondExponent → 2 ^ 52 ≤ second)
    (ordered : firstExponent < secondExponent ∨ firstExponent = secondExponent ∧ first ≤ second) :
    (first : ℚ) * 2 ^ firstExponent ≤ second * 2 ^ secondExponent := by
  rcases ordered with below | ⟨rfl, le⟩
  · have bounded : (first : ℚ) ≤ 2 ^ 53 := by exact_mod_cast few.le
    have filled : (2 : ℚ) ^ 52 ≤ second := by exact_mod_cast full below
    calc (first : ℚ) * 2 ^ firstExponent
        ≤ 2 ^ 53 * 2 ^ firstExponent := by gcongr
      _ = 2 ^ 52 * 2 ^ (firstExponent + 1) := by rw [zpow_add₀ (by norm_num)]; ring
      _ ≤ 2 ^ 52 * 2 ^ secondExponent := by
          gcongr
          · norm_num
          · omega
      _ ≤ second * 2 ^ secondExponent := by gcongr
  · gcongr

theorem wholePart_mono {first second : Nat} {firstExponent secondExponent : Int} (few : first < 2 ^ 53)
    (full : firstExponent < secondExponent → 2 ^ 52 ≤ second)
    (ordered : firstExponent < secondExponent ∨ firstExponent = secondExponent ∧ first ≤ second) :
    wholePart first firstExponent ≤ wholePart second secondExponent := by
  rw [wholePart_eq_floor, wholePart_eq_floor]
  exact Nat.floor_mono (magnitude_le few full ordered)

theorem ordered_of_not_lt {first second : Nat} {firstExponent secondExponent : Int}
    {firstPositive : 0 < first} {secondPositive : 0 < second}
    (notBelow : UnpackedFloat.lt (.finite .positive second secondExponent secondPositive)
      (.finite .positive first firstExponent firstPositive) ≠ true) :
    firstExponent < secondExponent ∨ firstExponent = secondExponent ∧ first ≤ second := by
  rcases lt_trichotomy firstExponent secondExponent with below | rfl | above
  · exact .inl below
  · refine .inr ⟨rfl, not_lt.mp fun less => notBelow ?_⟩
    simp [UnpackedFloat.lt, UnpackedFloat.compare, Nat.compare_eq_lt.mpr less]
  · refine absurd ?_ notBelow
    simp [UnpackedFloat.lt, UnpackedFloat.compare, compare_lt_iff_lt.mpr above]

theorem truncate?_of_parts {value : Float} {negative : Bool} {mantissa : Nat} {exponent : Int}
    (parts : binaryParts value = .finite negative mantissa exponent) :
    truncate? value = some (withSign negative (wholePart mantissa exponent)) := by
  rw [truncate?, parts]
  rfl

/-- What is not above a float that can be cut off has no greater whole part. -/
theorem truncate?_le_of_not_lt {value limit : Float} {whole : Int}
    (positive : Positive value.toModel.unpack) (cut : truncate? limit = some whole)
    (notBelow : ¬ limit < value) :
    ∃ part, truncate? value = some part ∧ part ≤ whole := by
  have valueParts := binaryParts_eq value
  have limitParts := binaryParts_eq limit
  rw [lt_iff] at notBelow
  generalize value.toModel.unpack = first at positive notBelow valueParts
  generalize limit.toModel.unpack = second at notBelow limitParts
  cases second with
  | notANumber =>
      rw [truncate?, limitParts] at cut
      cases cut
  | infinity sign =>
      rw [truncate?, limitParts] at cut
      cases cut
  | zero sign => cases positive <;> exact absurd rfl notBelow
  | finite sign limitMantissa limitExponent limitPositive =>
      cases sign with
      | negative => cases positive <;> exact absurd rfl notBelow
      | positive =>
          cases positive with
          | infinity => exact absurd rfl notBelow
          | finite mantissaPositive =>
              have few := (mantissa_bounds valueParts).1
              have full := (mantissa_bounds limitParts).2
              have least := least_le_exponent valueParts
              rw [truncate?_of_parts limitParts] at cut
              cases cut
              refine ⟨_, truncate?_of_parts valueParts, ?_⟩
              have ordered := ordered_of_not_lt notBelow
              exact Int.ofNat_le.mpr (wholePart_mono few (fun below => full (by omega)) ordered)

end MeshGauges.Number
