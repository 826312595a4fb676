import MeshGauges.Proofs.Number.Parts

/-! Where float arithmetic is undefined.

A sum or a difference is undefined only when an operand is or when two infinite ones cancel; rounding
makes nothing undefined. So next to a finite operand the other one decides. What is undefined compares
with nothing. -/

set_option autoImplicit false

namespace MeshGauges.Number

open Float.Model UnpackedFloat

theorem unpack_of_isNaN {value : Float} (undefined : value.isNaN = true) :
    value.toModel.unpack = .notANumber := by
  change value.toModel.unpack.isNaN = true at undefined
  generalize value.toModel.unpack = unpacked at undefined
  cases unpacked with
  | notANumber => rfl
  | _ => cases undefined

theorem binaryParts_of_isNaN {value : Float} (undefined : value.isNaN = true) :
    binaryParts value = .undefined := by
  rw [binaryParts_eq, unpack_of_isNaN undefined]
  rfl

theorem not_lt_of_isNaN {value : Float} (undefined : value.isNaN = true) (other : Float) :
    ¬ other < value := by
  rw [lt_iff, unpack_of_isNaN undefined]
  cases other.toModel.unpack <;> exact Bool.false_ne_true

theorem not_le_of_isNaN {value : Float} (undefined : value.isNaN = true) (other : Float) :
    ¬ value ≤ other := by
  rw [le_iff, unpack_of_isNaN undefined]
  exact Bool.false_ne_true

theorem isNaN_unpack_packComponents {sign : Sign} {exponent : BitVec 11} {fraction : BitVec 52}
    (regular : exponent = -1#11 → fraction = 0#52) :
    (UnpackedFloat.unpack Format.binary64
      (packComponents Format.binary64 sign exponent fraction)).isNaN = false := by
  simp only [UnpackedFloat.unpack, unpackExponent_packComponents, unpackMantissa_packComponents]
  split
  · rename_i ones
    rw [if_pos (regular ones)]
    rfl
  · split
    · split <;> rfl
    · rfl

/-- Packing a float makes nothing undefined that was not so before. -/
theorem isNaN_pack (unpacked : UnpackedFloat) :
    (Float.Model.pack unpacked).isNaN = unpacked.isNaN := by
  change (UnpackedFloat.unpack Format.binary64
    (UnpackedFloat.pack Format.binary64 unpacked)).isNaN = unpacked.isNaN
  cases unpacked with
  | notANumber => rfl
  | infinity sign => exact isNaN_unpack_packComponents fun _ => rfl
  | zero sign => exact isNaN_unpack_packComponents nofun
  | finite sign mantissa exponent positive =>
      simp only [UnpackedFloat.pack]
      split
      · exact isNaN_unpack_packComponents fun _ => rfl
      · rename_i fits
        split
        · refine isNaN_unpack_packComponents fun ones => ?_
          have overflown := congrArg BitVec.toNat ones
          rw [BitVec.toNat_ofNat] at overflown
          change _ = 2047 at overflown
          omega
        · exact isNaN_unpack_packComponents nofun

theorem isNaN_normalize (format : Format) (mantissa exponent : Int) (sign : Sign) :
    (UnpackedFloat.normalize format mantissa exponent sign).isNaN = false := by
  have rounded : ∀ sign mantissa exponent, (UnpackedFloat.round format sign mantissa exponent).isNaN = false := by
    intro sign mantissa exponent
    simp only [UnpackedFloat.round, UnpackedFloat.roundWithAccuracy]
    split <;> rfl
  unfold UnpackedFloat.normalize
  split
  · exact rounded _ _ _
  · rfl
  · exact rounded _ _ _

private theorem isNaN_add_unpacked {first : UnpackedFloat} (finite : first.isFinite = true)
    (second : UnpackedFloat) : (UnpackedFloat.add Format.binary64 first second).isNaN = second.isNaN := by
  cases first with
  | notANumber => cases finite
  | infinity sign => cases finite
  | zero sign =>
      cases second with
      | zero other =>
          simp only [UnpackedFloat.add]
          split <;> rfl
      | _ => rfl
  | finite sign mantissa exponent positive =>
      cases second with
      | finite => exact isNaN_normalize _ _ _ _
      | _ => rfl

private theorem isNaN_sub_unpacked (first : UnpackedFloat) {second : UnpackedFloat}
    (finite : second.isFinite = true) :
    (UnpackedFloat.sub Format.binary64 first second).isNaN = first.isNaN := by
  cases second with
  | notANumber => cases finite
  | infinity sign => cases finite
  | zero sign =>
      cases first with
      | zero other =>
          simp only [UnpackedFloat.sub]
          split <;> rfl
      | _ => rfl
  | finite sign mantissa exponent positive =>
      cases first with
      | finite => exact isNaN_normalize _ _ _ _
      | _ => rfl

theorem isNaN_add {first : Float} (finite : first.isFinite = true) (second : Float) :
    (first + second).isNaN = second.isNaN :=
  (isNaN_pack _).trans (isNaN_add_unpacked finite second.toModel.unpack)

theorem isNaN_sub (first : Float) {second : Float} (finite : second.isFinite = true) :
    (first - second).isNaN = first.isNaN :=
  (isNaN_pack _).trans (isNaN_sub_unpacked first.toModel.unpack finite)

end MeshGauges.Number
