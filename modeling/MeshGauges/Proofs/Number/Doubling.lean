import MeshGauges.Proofs.Number.Arithmetic

/-! Doubling up to a limit.

A float that is not negative amounts to a number or to infinity, and such floats are in the order of their
amounts. Doubling one is exact unless the result is too large, and then it is infinite. Where a float is
doubled again and again, but never beyond a limit, it makes no difference whether the limit is applied
each time or once at the end (`min_twice_min`). -/

set_option autoImplicit false

namespace MeshGauges.Number

open Float.Model UnpackedFloat

/-- What a float that is not negative amounts to. -/
inductive Amounts (value : Float) : WithTop ℚ → Prop where
  | finite {number : ℚ} : number? value = some number → Amounts value number
  | infinite : IsInfinite value → Amounts value ⊤

namespace Amounts

section Reading

variable {value : Float} {amount : WithTop ℚ} {number : ℚ}

theorem number?_eq (amounts : Amounts value number) : number? value = some number := by
  cases amounts with
  | finite stands => exact stands

theorem isInfinite (amounts : Amounts value ⊤) : IsInfinite value := by
  cases amounts with
  | infinite infinite => exact infinite

theorem number?_of_isInfinite (infinite : IsInfinite value) : number? value = none := by
  rw [number?, infinite]
  rfl

theorem eq_coe (amounts : Amounts value amount) (stands : number? value = some number) :
    amount = number := by
  cases amounts with
  | finite other => rw [Option.some.inj (other.symm.trans stands)]
  | infinite infinite =>
      rw [number?_of_isInfinite infinite] at stands
      cases stands

theorem eq_top (amounts : Amounts value amount) (infinite : IsInfinite value) : amount = ⊤ := by
  cases amounts with
  | finite stands =>
      rw [number?_of_isInfinite infinite] at stands
      cases stands
  | infinite => rfl

end Reading

variable {first second : Float} {left right : WithTop ℚ}

theorem lt_iff (amounts : Amounts first left) (other : Amounts second right) :
    first < second ↔ left < right := by
  cases amounts with
  | finite stands =>
      cases other with
      | finite otherStands => rw [lt_iff_of_number? stands otherStands, WithTop.coe_lt_coe]
      | infinite infinite => exact iff_of_true (lt_of_isInfinite stands infinite) (WithTop.coe_lt_top _)
  | infinite infinite => exact iff_of_false (not_lt_of_isInfinite infinite) not_top_lt

theorem le_iff (amounts : Amounts first left) (other : Amounts second right) :
    first ≤ second ↔ left ≤ right := by
  cases other with
  | finite otherStands =>
      cases amounts with
      | finite stands => rw [le_iff_of_number? stands otherStands, WithTop.coe_le_coe]
      | infinite infinite =>
          exact iff_of_false (not_le_of_isInfinite infinite otherStands) (WithTop.not_top_le_coe _)
  | infinite infinite =>
      refine iff_of_true ?_ le_top
      cases amounts with
      | finite stands => exact le_of_isInfinite stands infinite
      | infinite otherInfinite =>
          rw [Number.le_iff, unpack_of_isInfinite infinite, unpack_of_isInfinite otherInfinite]
          rfl

theorem earlier (amounts : Amounts first left) (other : Amounts second right) :
    Amounts (Number.earlier first second) (min left right) := by
  rw [Number.earlier]
  split
  · rename_i less
    rw [min_eq_right ((other.lt_iff amounts).mp less).le]
    exact other
  · rename_i notLess
    rw [min_eq_left (not_lt.mp (mt (other.lt_iff amounts).mpr notLess))]
    exact amounts

theorem of_parts {value : Float} {negative : Bool} {mantissa : ℕ} {exponent : ℤ}
    (parts : binaryParts value = .finite negative mantissa exponent) : ∃ amount, Amounts value amount := by
  have stands : number? value = some ((withSign negative mantissa : ℚ) * 2 ^ exponent) := by
    rw [number?, parts, BinaryParts.number?]
  exact ⟨_, .finite stands⟩

private theorem not_le_infinity_negative (amounts : Amounts first left) :
    UnpackedFloat.le first.toModel.unpack (.infinity .negative) ≠ true := by
  cases amounts with
  | finite stands =>
      have unpacked := standsFor_unpack stands
      generalize first.toModel.unpack = unpacked at unpacked
      cases unpacked with
      | zero sign => exact Bool.false_ne_true
      | @finite sign => cases sign <;> exact Bool.false_ne_true
  | infinite infinite =>
      rw [unpack_of_isInfinite infinite]
      exact Bool.false_ne_true

/-- A float amounts to something if one that does is not above it. -/
theorem exists_of_le (amounts : Amounts first left) (ordered : first ≤ second) :
    ∃ right, left ≤ right ∧ Amounts second right := by
  have known : ∃ right, Amounts second right := by
    have parts := binaryParts_eq second
    rw [Number.le_iff] at ordered
    generalize second.toModel.unpack = unpacked at parts ordered
    cases unpacked with
    | zero sign => exact of_parts parts
    | finite sign mantissa exponent positive => exact of_parts parts
    | infinity sign =>
        cases sign with
        | positive => exact ⟨⊤, .infinite parts⟩
        | negative => exact absurd ordered amounts.not_le_infinity_negative
    | notANumber =>
        generalize first.toModel.unpack = other at ordered
        cases other <;> cases ordered
  obtain ⟨right, other⟩ := known
  exact ⟨right, (amounts.le_iff other).mp ordered, other⟩

end Amounts

/-! ### Doubling -/

/-- Twice an amount; what is too large for a float is infinite. -/
def twice (amount : WithTop ℚ) : WithTop ℚ :=
  if amount + amount < ((2 ^ 1024 : ℚ) : WithTop ℚ) then amount + amount else ⊤

theorem isInfinite_double {value : Float} (infinite : IsInfinite value) : IsInfinite (value * 2.0) := by
  have product : IsInfinite ⟨Float.Model.pack
      (UnpackedFloat.mul Format.binary64 value.toModel.unpack (2.0 : Float).toModel.unpack)⟩ := by
    rw [unpack_of_isInfinite infinite]
    exact isInfinite_pack
  exact product

/-- Doubling needs no more bits. -/
theorem isShort_mul_two {value : Float} {number : ℚ} (stands : number? value = some number) :
    IsShort |number * 2| := by
  have unpacked := standsFor_unpack stands
  generalize value.toModel.unpack = unpacked at unpacked
  cases unpacked with
  | zero sign => exact ⟨0, 0, by norm_num, by decide, by norm_num⟩
  | @finite sign mantissa exponent _ canonical =>
      refine ⟨mantissa, exponent + 1, canonical.few, canonical.least.trans (by omega), ?_⟩
      rw [mul_assoc, ← zpow_add_one₀ (by norm_num), abs_mul, abs_apply, abs_of_pos (by positivity)]

theorem Amounts.double {value : Float} {amount : WithTop ℚ} (amounts : Amounts value amount)
    (nonneg : 0 ≤ amount) : Amounts (value * 2.0) (twice amount) := by
  cases amounts with
  | infinite infinite => exact .infinite (isInfinite_double infinite)
  | @finite number stands =>
      have approximates := approximates_mul stands number?_two
      have nonneg : 0 ≤ number := WithTop.coe_nonneg.mp nonneg
      rw [twice, ← WithTop.coe_add, ← mul_two]
      split
      · rename_i bounded
        rw [WithTop.coe_lt_coe] at bounded
        refine .finite (approximates.exact (isShort_mul_two stands) ?_)
        rw [abs_of_nonneg (by positivity)]
        exact_mod_cast bounded
      · rename_i large
        rw [WithTop.coe_lt_coe, not_lt] at large
        have reaches := approximates.reaches (2 ^ (1024 : ℤ)) (by positivity)
          (isShort_two_zpow (by decide)) (by exact_mod_cast large)
        obtain infinite | ⟨product, stands, reached⟩ := reaches
        · exact .infinite infinite
        · exact absurd ((le_abs_self product).trans_lt (abs_lt_of_number? stands)) reached.not_gt

/-! ### A limit -/

section Limit

variable {amount limit : WithTop ℚ}

theorem le_twice (nonneg : 0 ≤ amount) : amount ≤ twice amount := by
  rw [twice]
  split
  · exact le_add_of_nonneg_left nonneg
  · exact le_top

/-- It makes no difference whether a limit is applied before doubling and again afterwards. -/
theorem min_twice_min (nonneg : 0 ≤ limit) (amount : WithTop ℚ) (above : 0 ≤ amount) :
    min (twice (min amount limit)) limit = min (twice amount) limit := by
  rcases le_total amount limit with below | beyond
  · rw [min_eq_left below]
  · rw [min_eq_right beyond, min_eq_right (le_twice nonneg), min_eq_right (beyond.trans (le_twice above))]

theorem twice_iterate_nonneg (nonneg : 0 ≤ amount) (times : ℕ) : 0 ≤ twice^[times] amount := by
  induction times with
  | zero => exact nonneg
  | succ times ih =>
      rw [Function.iterate_succ_apply']
      exact ih.trans (le_twice ih)

theorem twice_iterate_le (nonneg : 0 ≤ amount) {few many : ℕ} (ordered : few ≤ many) :
    twice^[few] amount ≤ twice^[many] amount := by
  induction ordered with
  | refl => exact le_rfl
  | step _ ih =>
      rw [Function.iterate_succ_apply']
      exact ih.trans (le_twice (twice_iterate_nonneg nonneg _))

theorem twice_iterate_top (times : ℕ) : twice^[times] ⊤ = ⊤ := by
  refine Function.iterate_fixed ?_ times
  rw [twice, top_add, if_neg not_top_lt]

theorem lt_of_number? {value : Float} {number : ℚ} (stands : number? value = some number) :
    number < 2 ^ 1024 := by
  exact_mod_cast (le_abs_self number).trans_lt (abs_lt_of_number? stands)

theorem twice_iterate_coe {number : ℚ} (nonneg : 0 ≤ number) (small : number < 2 ^ 1024) (times : ℕ) :
    twice^[times] (number : WithTop ℚ) =
      if number * 2 ^ times < 2 ^ 1024 then ((number * 2 ^ times : ℚ) : WithTop ℚ) else ⊤ := by
  induction times with
  | zero => rw [Function.iterate_zero_apply, pow_zero, mul_one, if_pos small]
  | succ times ih =>
      have doubled : number * 2 ^ (times + 1) = number * 2 ^ times + number * 2 ^ times := by ring
      have positive : 0 ≤ number * 2 ^ times := by positivity
      rw [Function.iterate_succ_apply', ih, doubled]
      split_ifs with before after after
      · rw [twice, ← WithTop.coe_add, if_pos (WithTop.coe_lt_coe.mpr after)]
      · rw [twice, ← WithTop.coe_add, if_neg (mt WithTop.coe_lt_coe.mp after)]
      · exact absurd ((le_add_of_nonneg_left positive).trans_lt after) before
      · rw [twice, top_add, if_neg not_top_lt]

end Limit

end MeshGauges.Number
