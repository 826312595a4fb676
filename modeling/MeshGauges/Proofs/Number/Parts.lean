import MeshGauges.Number.Binary
import Mathlib

/-! The parts of a float and its logical model.

`binaryParts` takes a float apart by the numbers that its bits make, the model of the core library by bit
vectors. Both give the same parts, so what the model says of an operation can be read off the parts. The
comparisons of floats are those of the model. -/

set_option autoImplicit false

namespace MeshGauges.Number

open Float.Model UnpackedFloat

def partsOf : UnpackedFloat → BinaryParts
  | .infinity sign => .infinite (sign == .negative)
  | .notANumber => .undefined
  | .zero sign => .finite (sign == .negative) 0 leastBinaryExponent
  | .finite sign mantissa exponent _ => .finite (sign == .negative) mantissa exponent

theorem ofBitVec_beq_negative (bit : BitVec 1) :
    (Sign.ofBitVec bit == Sign.negative) = decide (bit = 1#1) := by
  revert bit
  decide

section Bits

variable (bits : BitVec Format.binary64.numBits)

theorem unpackMantissa_toNat :
    (unpackMantissa bits : BitVec 52).toNat = bits.toNat % 2 ^ 52 := by
  simp [unpackMantissa]

theorem unpackExponent_toNat :
    (unpackExponent bits : BitVec 11).toNat = bits.toNat / 2 ^ 52 % 2 ^ 11 := by
  simp [unpackExponent, Nat.shiftRight_eq_div_pow]

theorem unpackSign_eq_one_iff : unpackSign bits = 1#1 ↔ 2 ^ 63 ≤ bits.toNat := by
  have bounded : bits.toNat < 2 ^ 64 := bits.isLt
  have shifted : (unpackSign bits).toNat = bits.toNat / 2 ^ 63 % 2 := by
    simp [unpackSign, Nat.shiftRight_eq_div_pow]
  rw [← BitVec.toNat_inj, shifted]
  change _ = 1 ↔ _
  omega

theorem implicit_append_toNat (fraction : BitVec 52) :
    (1#1 ++ fraction).toNat = 2 ^ 52 + fraction.toNat := by
  rw [BitVec.toNat_append, ← Nat.shiftLeft_add_eq_or_of_lt fraction.isLt]
  rfl

theorem unpackExponent_eq_ones_iff :
    unpackExponent bits = -1#11 ↔ bits.toNat / 2 ^ 52 % 2 ^ 11 = 2047 := by
  rw [← BitVec.toNat_inj, unpackExponent_toNat]
  rfl

theorem unpackExponent_eq_zero_iff :
    unpackExponent bits = 0#11 ↔ bits.toNat / 2 ^ 52 % 2 ^ 11 = 0 := by
  rw [← BitVec.toNat_inj, unpackExponent_toNat]
  rfl

theorem unpackMantissa_eq_zero_iff : unpackMantissa bits = 0#52 ↔ bits.toNat % 2 ^ 52 = 0 := by
  rw [← BitVec.toNat_inj, unpackMantissa_toNat]
  rfl

theorem sign_beq_negative :
    (Sign.ofBitVec (unpackSign bits) == Sign.negative) = decide (2 ^ 63 ≤ bits.toNat) := by
  rw [ofBitVec_beq_negative, decide_eq_decide]
  exact unpackSign_eq_one_iff bits

end Bits

theorem binary64_bias : Format.binary64.exponentBias = 1023 := rfl

theorem binaryParts_eq (value : Float) : binaryParts value = partsOf value.toModel.unpack := by
  have bits : value.toBits.toNat = value.toModel.toBits.toBitVec.toNat := rfl
  simp only [binaryParts, bits, Float.Model.unpack, UnpackedFloat.unpack, Nat.pow_eq]
  generalize value.toModel.toBits.toBitVec = vector
  by_cases ones : vector.toNat / 2 ^ 52 % 2 ^ 11 = 2047
  · rw [if_neg (by omega), if_neg (by omega), if_pos ((unpackExponent_eq_ones_iff vector).mpr ones)]
    by_cases whole : vector.toNat % 2 ^ 52 = 0
    · rw [if_pos whole, if_pos ((unpackMantissa_eq_zero_iff vector).mpr whole), partsOf,
        sign_beq_negative]
    · rw [if_neg whole, if_neg (mt (unpackMantissa_eq_zero_iff vector).mp whole), partsOf]
  · rw [if_neg (mt (unpackExponent_eq_ones_iff vector).mp ones)]
    by_cases zero : vector.toNat / 2 ^ 52 % 2 ^ 11 = 0
    · rw [if_pos zero, if_pos ((unpackExponent_eq_zero_iff vector).mpr zero)]
      by_cases whole : vector.toNat % 2 ^ 52 = 0
      · rw [dif_pos ((unpackMantissa_eq_zero_iff vector).mpr whole), partsOf, sign_beq_negative, whole]
      · rw [dif_neg (mt (unpackMantissa_eq_zero_iff vector).mp whole), partsOf, sign_beq_negative,
          unpackMantissa_toNat, unpackExponent_toNat, zero]
        rfl
    · have normal : vector.toNat / 2 ^ 52 % 2 ^ 11 < 2047 := by omega
      rw [if_neg zero, if_pos normal, if_neg (mt (unpackExponent_eq_zero_iff vector).mp zero), partsOf,
        sign_beq_negative, implicit_append_toNat, unpackMantissa_toNat, unpackExponent_toNat,
        binary64_bias, leastNormalMantissa, leastBinaryExponent, Nat.pow_eq]
      congr 1
      omega

theorem least_le_exponent {value : Float} {negative : Bool} {mantissa : Nat} {exponent : Int}
    (parts : binaryParts value = .finite negative mantissa exponent) :
    leastBinaryExponent ≤ exponent := by
  simp only [binaryParts] at parts
  split at parts
  · cases parts
    exact le_refl _
  · split at parts
    · cases parts
      omega
    · split at parts <;> cases parts

/-- A mantissa has 53 bits, and all of them unless the exponent is the smallest one. -/
theorem mantissa_bounds {value : Float} {negative : Bool} {mantissa : Nat} {exponent : Int}
    (parts : binaryParts value = .finite negative mantissa exponent) :
    mantissa < 2 ^ 53 ∧ (leastBinaryExponent < exponent → 2 ^ 52 ≤ mantissa) := by
  have fraction : value.toBits.toNat % 2 ^ 52 < 2 ^ 52 := Nat.mod_lt _ (by norm_num)
  simp only [binaryParts, Nat.pow_eq] at parts
  split at parts
  · cases parts
    exact ⟨by omega, fun above => absurd above (lt_irrefl _)⟩
  · split at parts
    · cases parts
      rw [leastNormalMantissa, Nat.pow_eq]
      exact ⟨by omega, fun _ => by omega⟩
    · split at parts <;> cases parts

theorem lt_iff (first second : Float) :
    first < second ↔ UnpackedFloat.lt first.toModel.unpack second.toModel.unpack = true := by
  change Float.lt first second = true ↔ _
  rw [Float.lt, decide_eq_true_iff]
  rfl

theorem le_iff (first second : Float) :
    first ≤ second ↔ UnpackedFloat.le first.toModel.unpack second.toModel.unpack = true := by
  change Float.le first second = true ↔ _
  rw [Float.le, decide_eq_true_iff]
  rfl

end MeshGauges.Number
