import MeshGauges.Proofs.Number.Rounding
import MeshGauges.Proofs.Number.Shortest
import MeshGauges.Proofs.Number.Truncation

/-! The numbers that floats stand for.

A finite float stands for one rational number, infinity and the undefined value for none. Two floats that
stand for numbers are in the order of the numbers, and cutting off and the comparisons with integers are
those of the numbers. What is known of a large result is often only a bound from below, which infinity
meets as well (`Reaches`). -/

set_option autoImplicit false

namespace MeshGauges.Number

open Float.Model UnpackedFloat

def BinaryParts.number? : BinaryParts → Option ℚ
  | .finite negative mantissa exponent => some (withSign negative mantissa * 2 ^ exponent)
  | _ => none

/-- The number that a float stands for, if it is finite. -/
def number? (value : Float) : Option ℚ := (binaryParts value).number?

def IsInfinite (value : Float) : Prop := binaryParts value = .infinite false

/-- A float is not below a bound: it is infinite, or it stands for a number that is not. -/
def Reaches (value : Float) (bound : ℚ) : Prop :=
  IsInfinite value ∨ ∃ number, number? value = some number ∧ bound ≤ number

theorem Reaches.trans {value : Float} {bound lower : ℚ} (reaches : Reaches value bound)
    (below : lower ≤ bound) : Reaches value lower :=
  reaches.imp_right fun ⟨number, stands, reached⟩ => ⟨number, stands, below.trans reached⟩

/-! ### Unpacked floats -/

/-- The number that an unpacked float stands for; one of this form is packed without a loss. -/
inductive StandsFor : UnpackedFloat → ℚ → Prop where
  | zero (sign : Sign) : StandsFor (.zero sign) 0
  | finite {sign : Sign} {mantissa : ℕ} {exponent : ℤ} {positive : 0 < mantissa} :
      Canonical mantissa exponent → exponent ≤ greatestBinaryExponent →
      StandsFor (.finite sign mantissa exponent positive) (((sign.apply mantissa : ℤ) : ℚ) * 2 ^ exponent)

section Parts

variable {value : Float} {negative : Bool} {mantissa : ℕ} {exponent : ℤ} {number : ℚ}

theorem exponent_le_greatest (parts : binaryParts value = .finite negative mantissa exponent) :
    exponent ≤ greatestBinaryExponent := by
  simp only [binaryParts] at parts
  split at parts
  · cases parts
    decide
  · split at parts
    · cases parts
      rw [leastBinaryExponent, greatestBinaryExponent]
      omega
    · split at parts <;> cases parts

theorem canonical_of_parts (parts : binaryParts value = .finite negative mantissa exponent) :
    Canonical mantissa exponent :=
  ⟨(mantissa_bounds parts).1, least_le_exponent parts, (mantissa_bounds parts).2⟩

theorem withSign_apply (sign : Sign) (mantissa : ℕ) :
    withSign (sign == .negative) mantissa = sign.apply mantissa := by
  cases sign <;> rfl

theorem StandsFor.number?_partsOf {unpacked : UnpackedFloat} (stands : StandsFor unpacked number) :
    (partsOf unpacked).number? = some number := by
  cases stands with
  | zero sign => simp [partsOf, BinaryParts.number?, withSign]
  | finite => rw [partsOf, BinaryParts.number?, withSign_apply]

theorem number?_pack {unpacked : UnpackedFloat} (stands : StandsFor unpacked number) :
    number? ⟨Float.Model.pack unpacked⟩ = some number := by
  have same : (Float.Model.pack unpacked).unpack = unpacked := by
    cases stands with
    | zero sign => cases sign <;> rfl
    | finite canonical bounded => exact unpack_pack canonical bounded
  rw [number?, binaryParts_eq, same, stands.number?_partsOf]

theorem standsFor_unpack (stands : number? value = some number) :
    StandsFor value.toModel.unpack number := by
  have parts := binaryParts_eq value
  rw [number?] at stands
  generalize value.toModel.unpack = unpacked at parts
  cases unpacked with
  | notANumber => rw [parts] at stands; cases stands
  | infinity sign => rw [parts] at stands; cases stands
  | zero sign =>
      rw [parts, (StandsFor.zero sign).number?_partsOf] at stands
      cases stands
      exact .zero sign
  | finite sign mantissa exponent positive =>
      have finite : StandsFor (.finite sign mantissa exponent positive) _ :=
        .finite (canonical_of_parts parts) (exponent_le_greatest parts)
      rw [parts, finite.number?_partsOf] at stands
      cases stands
      exact finite

theorem unpack_of_isInfinite (infinite : IsInfinite value) :
    value.toModel.unpack = .infinity .positive := by
  rw [IsInfinite, binaryParts_eq] at infinite
  generalize value.toModel.unpack = unpacked at infinite
  cases unpacked with
  | infinity sign =>
      cases sign with
      | positive => rfl
      | negative => cases infinite
  | _ => cases infinite

theorem parts_of_number? (stands : number? value = some number) :
    ∃ negative mantissa exponent, binaryParts value = .finite negative mantissa exponent ∧
      number = withSign negative mantissa * 2 ^ exponent := by
  rw [number?] at stands
  generalize binaryParts value = parts at stands
  cases parts with
  | finite negative mantissa exponent =>
      cases stands
      exact ⟨negative, mantissa, exponent, rfl, rfl⟩
  | _ => cases stands

end Parts

/-! ### The order of floats -/

section Order

variable {first second : ℕ} {firstExponent secondExponent : ℤ}

theorem Canonical.lt_of_exponent_lt (left : Canonical first firstExponent)
    (right : Canonical second secondExponent) (below : firstExponent < secondExponent) :
    (first : ℚ) * 2 ^ firstExponent < second * 2 ^ secondExponent := by
  have few : (first : ℚ) < 2 ^ 53 := by exact_mod_cast left.few
  have full : (2 : ℚ) ^ 52 ≤ second := by exact_mod_cast right.full (left.least.trans_lt below)
  calc (first : ℚ) * 2 ^ firstExponent
      < 2 ^ 53 * 2 ^ firstExponent := mul_lt_mul_of_pos_right few (zpow_pos (by norm_num) _)
    _ = 2 ^ 52 * 2 ^ (firstExponent + 1) := by
        rw [zpow_add_one₀ (by norm_num)]
        ring
    _ ≤ second * 2 ^ secondExponent := by
        gcongr
        · norm_num
        · omega

/-- Numbers in canonical form are compared by their exponents first. -/
theorem Canonical.compare_eq (left : Canonical first firstExponent)
    (right : Canonical second secondExponent) :
    (compare firstExponent secondExponent).then (compare first second) =
      compare ((first : ℚ) * 2 ^ firstExponent) (second * 2 ^ secondExponent) := by
  rcases lt_trichotomy firstExponent secondExponent with below | rfl | above
  · rw [compare_lt_iff_lt.mpr below]
    exact (compare_lt_iff_lt.mpr (left.lt_of_exponent_lt right below)).symm
  · rw [compare_eq_iff_eq.mpr rfl, Ordering.eq_then]
    have scale : (0 : ℚ) < 2 ^ firstExponent := zpow_pos (by norm_num) _
    rcases lt_trichotomy first second with less | rfl | greater
    · rw [compare_lt_iff_lt.mpr less]
      exact (compare_lt_iff_lt.mpr (mul_lt_mul_of_pos_right (by exact_mod_cast less) scale)).symm
    · rw [compare_eq_iff_eq.mpr rfl, compare_eq_iff_eq.mpr rfl]
    · rw [compare_gt_iff_gt.mpr greater]
      exact (compare_gt_iff_gt.mpr (mul_lt_mul_of_pos_right (by exact_mod_cast greater) scale)).symm
  · rw [compare_gt_iff_gt.mpr above]
    exact (compare_gt_iff_gt.mpr (right.lt_of_exponent_lt left above)).symm

theorem compare_neg_neg (left right : ℚ) : compare (-left) (-right) = (compare left right).swap := by
  rcases lt_trichotomy left right with less | rfl | greater
  · rw [compare_lt_iff_lt.mpr less, compare_gt_iff_gt.mpr (neg_lt_neg less), Ordering.swap_lt]
  · rw [compare_eq_iff_eq.mpr rfl, compare_eq_iff_eq.mpr rfl, Ordering.swap_eq]
  · rw [compare_gt_iff_gt.mpr greater, compare_lt_iff_lt.mpr (neg_lt_neg greater), Ordering.swap_gt]

theorem StandsFor.compare_eq {first second : UnpackedFloat} {left right : ℚ}
    (stands : StandsFor first left) (other : StandsFor second right) :
    UnpackedFloat.compare first second = some (compare left right) := by
  have size {mantissa : ℕ} (positive : 0 < mantissa) (exponent : ℤ) :
      (0 : ℚ) < mantissa * 2 ^ exponent :=
    mul_pos (by exact_mod_cast positive) (zpow_pos (by norm_num) _)
  cases stands with
  | zero sign =>
      cases other with
      | zero otherSign => rw [compare_eq_iff_eq.mpr rfl]; rfl
      | @finite otherSign mantissa exponent positive =>
          have above := size positive exponent
          cases otherSign with
          | positive => rw [compare_lt_iff_lt.mpr (by simpa [Sign.apply] using above)]; rfl
          | negative => rw [compare_gt_iff_gt.mpr (by simpa [Sign.apply] using above)]; rfl
  | @finite sign mantissa exponent positive canonical =>
      have above := size positive exponent
      cases other with
      | zero otherSign =>
          cases sign with
          | positive => rw [compare_gt_iff_gt.mpr (by simpa [Sign.apply] using above)]; rfl
          | negative => rw [compare_lt_iff_lt.mpr (by simpa [Sign.apply] using above)]; rfl
      | @finite otherSign otherMantissa otherExponent otherPositive otherCanonical =>
          have otherAbove := size otherPositive otherExponent
          have same := canonical.compare_eq otherCanonical
          cases sign <;> cases otherSign <;>
            simp only [Sign.apply, Int.cast_neg, Int.cast_natCast, neg_mul, UnpackedFloat.compare]
          · rw [same, compare_neg_neg]
          · rw [compare_lt_iff_lt.mpr (by linarith)]
          · rw [compare_gt_iff_gt.mpr (by linarith)]
          · rw [same]

theorem StandsFor.compare_infinity {unpacked : UnpackedFloat} {number : ℚ}
    (stands : StandsFor unpacked number) :
    UnpackedFloat.compare unpacked (.infinity .positive) = some .lt := by
  cases stands with
  | zero sign => rfl
  | @finite sign => cases sign <;> rfl

theorem StandsFor.infinity_compare {unpacked : UnpackedFloat} {number : ℚ}
    (stands : StandsFor unpacked number) :
    UnpackedFloat.compare (.infinity .positive) unpacked = some .gt := by
  cases stands with
  | zero sign => rfl
  | @finite sign => cases sign <;> rfl

end Order

section Comparisons

variable {first second : Float} {left right : ℚ}

theorem lt_iff_of_number? (stands : number? first = some left) (other : number? second = some right) :
    first < second ↔ left < right := by
  rw [lt_iff, UnpackedFloat.lt, (standsFor_unpack stands).compare_eq (standsFor_unpack other),
    beq_iff_eq, Option.some.injEq, compare_lt_iff_lt]

theorem le_iff_of_number? (stands : number? first = some left) (other : number? second = some right) :
    first ≤ second ↔ left ≤ right := by
  rw [le_iff, UnpackedFloat.le, (standsFor_unpack stands).compare_eq (standsFor_unpack other),
    Option.any_some, ← compare_le_iff_le, Ordering.isLE_iff_ne_gt]

theorem lt_of_isInfinite (stands : number? first = some left) (infinite : IsInfinite second) :
    first < second := by
  rw [lt_iff, UnpackedFloat.lt, unpack_of_isInfinite infinite, (standsFor_unpack stands).compare_infinity]
  rfl

theorem le_of_isInfinite (stands : number? first = some left) (infinite : IsInfinite second) :
    first ≤ second := by
  rw [le_iff, UnpackedFloat.le, unpack_of_isInfinite infinite, (standsFor_unpack stands).compare_infinity]
  rfl

theorem not_le_of_isInfinite (infinite : IsInfinite first) (other : number? second = some right) :
    ¬ first ≤ second := by
  rw [le_iff, UnpackedFloat.le, unpack_of_isInfinite infinite, (standsFor_unpack other).infinity_compare]
  exact Bool.false_ne_true

theorem not_lt_of_isInfinite (infinite : IsInfinite first) : ¬ first < second := by
  rw [lt_iff, unpack_of_isInfinite infinite]
  cases second.toModel.unpack with
  | infinity sign => cases sign <;> exact Bool.false_ne_true
  | _ => exact Bool.false_ne_true

theorem Reaches.not_le {bound : ℚ} (reaches : Reaches first bound)
    (other : number? second = some right) (above : right < bound) : ¬ first ≤ second := by
  obtain infinite | ⟨number, stands, reached⟩ := reaches
  · exact not_le_of_isInfinite infinite other
  · rw [le_iff_of_number? stands other]
    exact (above.trans_le reached).not_ge

/-- The smaller of two floats stands for the smaller of their numbers. -/
theorem number?_earlier (stands : number? first = some left) (other : number? second = some right) :
    number? (earlier first second) = some (min left right) := by
  rw [earlier]
  split
  · rename_i less
    rw [lt_iff_of_number? other stands] at less
    rw [min_eq_right less.le, other]
  · rename_i notLess
    rw [lt_iff_of_number? other stands, not_lt] at notLess
    rw [min_eq_left notLess, stands]

theorem earlier_of_isInfinite (infinite : IsInfinite second) : earlier first second = first := by
  rw [earlier, if_neg (not_lt_of_isInfinite infinite)]

end Comparisons

theorem number?_zero : number? 0.0 = some 0 := number?_pack (.zero .positive)

/-! ### Whole numbers -/

section Whole

variable {value : Float} {number : ℚ}

theorem truncate?_le (stands : number? value = some number) :
    ∃ whole, truncate? value = some whole ∧ (whole : ℚ) ≤ max 0 number := by
  obtain ⟨negative, mantissa, exponent, parts, rfl⟩ := parts_of_number? stands
  refine ⟨_, truncate?_of_parts parts, ?_⟩
  rw [wholePart_eq_floor]
  have size : (0 : ℚ) ≤ mantissa * 2 ^ exponent := by positivity
  cases negative with
  | true =>
      refine le_max_of_le_left ?_
      simp [withSign]
  | false =>
      refine le_max_of_le_right ?_
      simp only [withSign, Bool.false_eq_true, if_false, Int.cast_natCast]
      exact Nat.floor_le size

theorem isBelow_iff (whole : ℤ) (stands : number? value = some number) :
    isBelow whole value = true ↔ (whole : ℚ) < number := by
  obtain ⟨negative, mantissa, exponent, parts, rfl⟩ := parts_of_number? stands
  have positive : (0 : ℚ) < (binaryFraction mantissa exponent).2 := by
    exact_mod_cast binaryFraction_pos mantissa exponent
  have fraction := (div_eq_iff positive.ne').mp (binaryFraction_eq mantissa exponent)
  have scaled : ((withSign negative (binaryFraction mantissa exponent).1 : ℤ) : ℚ) =
      withSign negative mantissa * 2 ^ exponent * (binaryFraction mantissa exponent).2 := by
    cases negative <;> simp [withSign, fraction]
  simp only [isBelow, parts, decide_eq_true_iff]
  rw [← Int.cast_lt (R := ℚ), scaled, Int.cast_mul, Int.cast_natCast]
  exact mul_lt_mul_iff_of_pos_right positive

theorem isBelow_of_isInfinite (whole : ℤ) (infinite : IsInfinite value) : isBelow whole value = true := by
  rw [isBelow, infinite]
  rfl

end Whole

end MeshGauges.Number
