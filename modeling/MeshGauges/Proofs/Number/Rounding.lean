import MeshGauges.Proofs.Number.Parts

/-! What rounding to a float keeps.

A finite float with a canonical mantissa is packed and unpacked without change (`unpack_pack`), so what is
known of the rounded mantissa is known of the float. Rounding cuts a mantissa at the rounding exponent, and
may carry into one more bit. A number with no more bits than the format has is rounded to itself, and a
number is never rounded below a short number that it reaches (`RoundsTo`). -/

set_option autoImplicit false

namespace MeshGauges.Number

open Float.Model UnpackedFloat

/-- What a finite float is packed from: a mantissa of 53 bits, all of which it has unless the exponent is
the smallest one. -/
structure Canonical (mantissa : ℕ) (exponent : ℤ) : Prop where
  few : mantissa < 2 ^ 53
  least : leastBinaryExponent ≤ exponent
  full : leastBinaryExponent < exponent → 2 ^ 52 ≤ mantissa

def greatestBinaryExponent : ℤ := 971

/-! ### Packing -/

theorem sign_packComponents (sign : Sign) (exponent : BitVec 11) (fraction : BitVec 52) :
    Sign.ofBitVec (unpackSign (packComponents Format.binary64 sign exponent fraction)) = sign := by
  simp only [unpackSign, packComponents, BitVec.extractLsb]
  rw [BitVec.extractLsb'_append_eq_of_le (by decide), BitVec.extractLsb'_append_eq_of_le (by decide)]
  cases sign <;> rfl

variable {sign : Sign} {mantissa : ℕ} {exponent : ℤ} {positive : 0 < mantissa}

theorem log2_eq_of_full (few : mantissa < 2 ^ 53) (full : 2 ^ 52 ≤ mantissa) : mantissa.log2 = 52 :=
  (Nat.log2_eq_iff (by omega)).mpr ⟨full, few⟩

private theorem unpack_pack_normal (canonical : Canonical mantissa exponent) (full : 2 ^ 52 ≤ mantissa)
    (bounded : exponent ≤ greatestBinaryExponent) :
    (Float.Model.pack (.finite sign mantissa exponent positive)).unpack =
      .finite sign mantissa exponent positive := by
  obtain ⟨few, least, -⟩ := canonical
  rw [leastBinaryExponent] at least
  rw [greatestBinaryExponent] at bounded
  have bits := log2_eq_of_full few full
  have biased : (exponent + Format.binary64.exponentBias +
      Format.binary64.mantissaBitsWithoutImplicit).toNat = (exponent + 1075).toNat := by
    rw [binary64_bias]
    change (exponent + (1023 : ℕ) + (52 : ℕ)).toNat = _
    omega
  have packed : UnpackedFloat.pack Format.binary64 (.finite sign mantissa exponent positive) =
      packComponents Format.binary64 sign (BitVec.ofNat 11 (exponent + 1075).toNat)
        (BitVec.ofNat 52 mantissa) := by
    rw [UnpackedFloat.pack]
    simp only [bits, biased]
    rw [if_neg (by change ¬ 2048 ≤ _; omega), if_pos (by decide)]
  have notOnes : BitVec.ofNat 11 (exponent + 1075).toNat ≠ -1#11 := by
    intro same
    have same := congrArg BitVec.toNat same
    rw [BitVec.toNat_ofNat] at same
    change _ = 2047 at same
    omega
  have notZero : BitVec.ofNat 11 (exponent + 1075).toNat ≠ 0#11 := by
    intro same
    have same := congrArg BitVec.toNat same
    rw [BitVec.toNat_ofNat] at same
    change _ = 0 at same
    omega
  have fraction : (1#1 ++ BitVec.ofNat 52 mantissa).toNat = mantissa := by
    rw [implicit_append_toNat, BitVec.toNat_ofNat]
    omega
  have unbiased : ((BitVec.ofNat 11 (exponent + 1075).toNat).toNat : ℤ) -
      (Format.binary64.exponentBias + Format.binary64.mantissaBitsWithoutImplicit : ℕ) = exponent := by
    rw [BitVec.toNat_ofNat, binary64_bias]
    change ((_ : ℕ) : ℤ) - ((1075 : ℕ) : ℤ) = exponent
    omega
  change UnpackedFloat.unpack Format.binary64
    (UnpackedFloat.pack Format.binary64 (.finite sign mantissa exponent positive)) = _
  rw [packed, UnpackedFloat.unpack]
  simp only [unpackMantissa_packComponents, unpackExponent_packComponents, sign_packComponents]
  rw [if_neg notOnes, if_neg notZero]
  simp only [fraction]
  congr 1

private theorem unpack_pack_subnormal (few : mantissa < 2 ^ 52) :
    (Float.Model.pack (.finite sign mantissa leastBinaryExponent positive)).unpack =
      .finite sign mantissa leastBinaryExponent positive := by
  have short : mantissa.log2 < 52 := (Nat.log2_lt positive.ne').mpr few
  have packed : UnpackedFloat.pack Format.binary64 (.finite sign mantissa leastBinaryExponent positive) =
      packComponents Format.binary64 sign 0#11 (BitVec.ofNat 52 mantissa) := by
    rw [UnpackedFloat.pack]
    simp only
    rw [if_neg (by decide), if_neg (by change ¬ _ = 53; omega)]
  have kept : (BitVec.ofNat 52 mantissa).toNat = mantissa := by
    rw [BitVec.toNat_ofNat, Nat.mod_eq_of_lt few]
  have some : BitVec.ofNat 52 mantissa ≠ 0#52 := by
    intro none
    have none := congrArg BitVec.toNat none
    rw [kept] at none
    exact positive.ne' none
  change UnpackedFloat.unpack Format.binary64
    (UnpackedFloat.pack Format.binary64 (.finite sign mantissa leastBinaryExponent positive)) = _
  rw [packed, UnpackedFloat.unpack]
  simp only [unpackMantissa_packComponents, unpackExponent_packComponents, sign_packComponents]
  rw [if_neg (by decide), if_pos trivial, dif_neg some]
  simp only [kept]
  rfl

/-- What is packed is unpacked again, where its exponent is not too large. -/
theorem unpack_pack (canonical : Canonical mantissa exponent)
    (bounded : exponent ≤ greatestBinaryExponent) :
    (Float.Model.pack (.finite sign mantissa exponent positive)).unpack =
      .finite sign mantissa exponent positive := by
  rcases Nat.lt_or_ge mantissa (2 ^ 52) with short | full
  · obtain rfl : exponent = leastBinaryExponent :=
      le_antisymm (not_lt.mp fun above => absurd (canonical.full above) (by omega)) canonical.least
    exact unpack_pack_subnormal short
  · exact unpack_pack_normal canonical full bounded

theorem unpack_pack_of_overflow (above : greatestBinaryExponent < exponent) :
    (Float.Model.pack (.finite sign mantissa exponent positive)).unpack = .infinity sign := by
  rw [greatestBinaryExponent] at above
  have packed : UnpackedFloat.pack Format.binary64 (.finite sign mantissa exponent positive) =
      packComponents Format.binary64 sign (-1#11) 0#52 := by
    rw [UnpackedFloat.pack]
    simp only
    rw [if_pos]
    · rfl
    · rw [binary64_bias]
      change 2048 ≤ (exponent + (1023 : ℕ) + (52 : ℕ)).toNat + 1
      omega
  change UnpackedFloat.unpack Format.binary64
    (UnpackedFloat.pack Format.binary64 (.finite sign mantissa exponent positive)) = _
  rw [packed, UnpackedFloat.unpack]
  simp only [unpackMantissa_packComponents, unpackExponent_packComponents, sign_packComponents]
  rw [if_pos trivial, if_pos trivial]

/-! ### Cutting a mantissa short -/

theorem mantissa_shiftRight (extended : ExtendedMantissa) (places : ℕ) :
    (extended >>> places).mantissa = extended.mantissa / 2 ^ places := by
  induction places with
  | zero => exact (Nat.div_one _).symm
  | succ places ih =>
      change (extended >>> places).mantissa / 2 = _
      rw [ih, Nat.div_div_eq_div_mul, pow_succ]

/-- Zeros that are cut off leave no residue. -/
theorem shiftRight_mul_two_pow (kept places : ℕ) :
    (⟨kept * 2 ^ places, false, false⟩ : ExtendedMantissa) >>> places = ⟨kept, false, false⟩ := by
  induction places generalizing kept with
  | zero =>
      rw [pow_zero, mul_one]
      rfl
  | succ places ih =>
      have shifted := ih (kept * 2)
      rw [mul_assoc, ← pow_succ'] at shifted
      change ExtendedMantissa.shiftRightOne ((⟨_, false, false⟩ : ExtendedMantissa) >>> places) = _
      rw [shifted]
      simp [ExtendedMantissa.shiftRightOne]

theorem roundedMantissa_bounds (extended : ExtendedMantissa) :
    extended.mantissa ≤ extended.roundedMantissa ∧ extended.roundedMantissa ≤ extended.mantissa + 1 := by
  obtain ⟨mantissa, round, sticky⟩ := extended
  cases round <;> cases sticky <;>
    simp only [ExtendedMantissa.roundedMantissa, ExtendedMantissa.accuracy,
      Accuracy.roundToNearestEven] <;> omega

/-- The exponent at which a number with a mantissa and an exponent has the bits of the format. -/
def roundingExponent (mantissa : ℕ) (exponent : ℤ) : ℤ :=
  max (mantissa.log2 + exponent - 52) leastBinaryExponent

theorem targetExponent_eq (mantissa : ℕ) (exponent : ℤ) :
    Format.binary64.targetExponent (totalExponent mantissa exponent) =
      roundingExponent mantissa exponent := by
  have bits : (Format.binary64.mantissaBits : ℤ) = 53 := rfl
  have least : Format.binary64.minExponent = -1074 := rfl
  rw [Format.targetExponent, totalExponent, roundingExponent, bits, least, leastBinaryExponent]
  omega

/-- The mantissa that is left at the rounding exponent, rounded. -/
def roundedAt (mantissa : ℕ) (exponent : ℤ) : ℕ :=
  ((⟨mantissa, false, false⟩ : ExtendedMantissa) >>>
    (roundingExponent mantissa exponent - exponent).toNat).roundedMantissa

section

variable {mantissa : ℕ} {exponent : ℤ}

theorem roundedAt_bounds (mantissa : ℕ) (exponent : ℤ) :
    mantissa / 2 ^ (roundingExponent mantissa exponent - exponent).toNat ≤ roundedAt mantissa exponent ∧
      roundedAt mantissa exponent ≤
        mantissa / 2 ^ (roundingExponent mantissa exponent - exponent).toNat + 1 := by
  have bounds := roundedMantissa_bounds ((⟨mantissa, false, false⟩ : ExtendedMantissa) >>>
    (roundingExponent mantissa exponent - exponent).toNat)
  rw [mantissa_shiftRight] at bounds
  exact bounds

theorem roundedAt_le (mantissa : ℕ) (exponent : ℤ) : roundedAt mantissa exponent ≤ 2 ^ 53 := by
  have upper := (roundedAt_bounds mantissa exponent).2
  have bits : mantissa.log2 + 1 ≤ 53 + (roundingExponent mantissa exponent - exponent).toNat := by
    rw [roundingExponent]
    omega
  have short : mantissa / 2 ^ (roundingExponent mantissa exponent - exponent).toNat < 2 ^ 53 := by
    rw [Nat.div_lt_iff_lt_mul (Nat.two_pow_pos _), ← pow_add]
    exact Nat.lt_log2_self.trans_le (Nat.pow_le_pow_right (by decide) bits)
  omega

/-- Where the exponent leaves room for all bits, all are used. -/
theorem le_roundedAt (positive : 0 < mantissa) (fits : exponent ≤ roundingExponent mantissa exponent)
    (normal : roundingExponent mantissa exponent = mantissa.log2 + exponent - 52) :
    2 ^ 52 ≤ roundedAt mantissa exponent := by
  have lower := (roundedAt_bounds mantissa exponent).1
  have bits : mantissa.log2 = 52 + (roundingExponent mantissa exponent - exponent).toNat := by omega
  have full : 2 ^ 52 ≤ mantissa / 2 ^ (roundingExponent mantissa exponent - exponent).toNat := by
    rw [Nat.le_div_iff_mul_le (Nat.two_pow_pos _), ← pow_add, ← bits]
    exact Nat.log2_self_le positive.ne'
  exact full.trans lower

private theorem shift_of_few (few : mantissa < 2 ^ 53) (least : leastBinaryExponent ≤ exponent) :
    shiftToTargetExponent Format.binary64 mantissa exponent .exact =
      (⟨mantissa, false, false⟩, exponent) := by
  have short : mantissa.log2 ≤ 52 := by
    rcases Nat.eq_zero_or_pos mantissa with rfl | positive
    · decide
    · exact Nat.lt_succ_iff.mp ((Nat.log2_lt positive.ne').mpr few)
  have still : (roundingExponent mantissa exponent - exponent).toNat = 0 := by
    rw [roundingExponent]
    omega
  rw [shiftToTargetExponent, targetExponent_eq, shiftToExponent, still]
  simp only [ExtendedMantissa.ofMantissaAndAccuracy, Nat.cast_zero, add_zero]
  rfl

private theorem shift_of_carry (least : leastBinaryExponent ≤ exponent) :
    shiftToTargetExponent Format.binary64 (2 ^ 53) exponent .exact =
      (⟨2 ^ 52, false, false⟩, exponent + 1) := by
  have one : (roundingExponent (2 ^ 53) exponent - exponent).toNat = 1 := by
    rw [roundingExponent, Nat.log2_two_pow]
    omega
  rw [shiftToTargetExponent, targetExponent_eq, shiftToExponent, one]
  rfl

/-- A number that keeps a bit at its rounding exponent is rounded to a canonical one. -/
theorem roundWithAccuracy_eq (sign : Sign) (positive : 0 < mantissa)
    (fits : exponent ≤ roundingExponent mantissa exponent) (kept : 0 < roundedAt mantissa exponent) :
    ∃ rounded place, ∃ roundedPositive : 0 < rounded,
      roundWithAccuracy Format.binary64 sign mantissa exponent .exact =
        .finite sign rounded place roundedPositive ∧
      Canonical rounded place ∧
      (rounded : ℚ) * 2 ^ place =
        roundedAt mantissa exponent * 2 ^ roundingExponent mantissa exponent := by
  have least : leastBinaryExponent ≤ roundingExponent mantissa exponent := le_max_right _ _
  have first : shiftToTargetExponent Format.binary64 mantissa exponent .exact =
      ((⟨mantissa, false, false⟩ : ExtendedMantissa) >>>
        (roundingExponent mantissa exponent - exponent).toNat, roundingExponent mantissa exponent) := by
    rw [shiftToTargetExponent, targetExponent_eq, shiftToExponent]
    simp only [ExtendedMantissa.ofMantissaAndAccuracy, Prod.mk.injEq, true_and]
    omega
  have rounding : roundWithAccuracy Format.binary64 sign mantissa exponent .exact =
      (let second := shiftToTargetExponent Format.binary64 (roundedAt mantissa exponent)
        (roundingExponent mantissa exponent) .exact
      if none : second.1.mantissa = 0 then .zero sign
      else .finite sign second.1.mantissa second.2 (Nat.pos_of_ne_zero none)) := by
    rw [roundWithAccuracy, first]
    rfl
  rw [rounding]
  rcases (roundedAt_le mantissa exponent).lt_or_eq with few | carry
  · simp only [shift_of_few few least, dif_neg kept.ne']
    refine ⟨_, _, kept, rfl, ⟨few, least, fun above => le_roundedAt positive fits ?_⟩, rfl⟩
    rw [roundingExponent] at above ⊢
    omega
  · rw [carry]
    simp only [shift_of_carry least]
    refine ⟨2 ^ 52, roundingExponent mantissa exponent + 1, by decide, rfl,
      ⟨by decide, by omega, fun _ => le_refl _⟩, ?_⟩
    rw [zpow_add_one₀ (by norm_num)]
    push_cast
    ring

/-! ### What rounding keeps -/

/-- The numbers that need no more bits than a float has. -/
def IsShort (number : ℚ) : Prop :=
  ∃ (bits : ℕ) (place : ℤ), bits < 2 ^ 53 ∧ leastBinaryExponent ≤ place ∧ number = bits * 2 ^ place

/-- What a number is rounded to: itself where it is short, and never less than a short number that it
reaches. -/
structure RoundsTo (number : ℚ) (rounded : ℕ) (place : ℤ) : Prop where
  canonical : Canonical rounded place
  exact : IsShort number → rounded * 2 ^ place = number
  reaches : ∀ bound, IsShort bound → bound ≤ number → bound ≤ rounded * 2 ^ place

theorem two_zpow_log2_le (positive : 0 < mantissa) (exponent : ℤ) :
    (2 : ℚ) ^ (mantissa.log2 + exponent : ℤ) ≤ mantissa * 2 ^ exponent := by
  have leading : ((2 ^ mantissa.log2 : ℕ) : ℚ) ≤ mantissa := by
    exact_mod_cast Nat.log2_self_le positive.ne'
  push_cast at leading
  rw [zpow_add₀ (by norm_num), zpow_natCast]
  gcongr

theorem mul_two_zpow_add (bits places : ℕ) (exponent : ℤ) :
    (bits : ℚ) * 2 ^ (exponent + places) = (bits * 2 ^ places : ℕ) * 2 ^ exponent := by
  rw [zpow_add₀ (by norm_num), zpow_natCast]
  push_cast
  ring

theorem lt_of_two_zpow_lt {power other : ℤ} (less : (2 : ℚ) ^ power < 2 ^ other) : power < other :=
  (zpow_lt_zpow_iff_right₀ (by norm_num)).mp less

/-- A short number has no bits below its rounding exponent. -/
theorem roundedAt_of_isShort (positive : 0 < mantissa)
    (fits : exponent ≤ roundingExponent mantissa exponent)
    (short : IsShort ((mantissa : ℚ) * 2 ^ exponent)) :
    (roundedAt mantissa exponent : ℚ) * 2 ^ roundingExponent mantissa exponent =
      mantissa * 2 ^ exponent := by
  obtain ⟨bits, place, few, least, equal⟩ := short
  have above : roundingExponent mantissa exponent ≤ place := by
    have leading := two_zpow_log2_le positive exponent
    have bounded : (bits : ℚ) * 2 ^ place < 2 ^ (53 + place) := by
      rw [zpow_add₀ (by norm_num)]
      exact mul_lt_mul_of_pos_right (by exact_mod_cast few) (zpow_pos (by norm_num) place)
    rw [equal] at leading
    have less := lt_of_two_zpow_lt (leading.trans_lt bounded)
    rw [roundingExponent]
    omega
  obtain ⟨below, shift⟩ := Int.le.dest fits
  obtain ⟨more, rest⟩ := Int.le.dest above
  have whole : mantissa = bits * 2 ^ more * 2 ^ below := by
    have scaled : (mantissa : ℚ) * 2 ^ exponent = (bits * 2 ^ more * 2 ^ below : ℕ) * 2 ^ exponent := by
      rw [equal, ← rest, mul_two_zpow_add, ← shift, mul_two_zpow_add]
    exact_mod_cast mul_right_cancel₀ (zpow_pos (by norm_num : (0 : ℚ) < 2) exponent).ne' scaled
  have places : (roundingExponent mantissa exponent - exponent).toNat = below := by omega
  have rounded : roundedAt mantissa exponent = bits * 2 ^ more := by
    rw [roundedAt, places]
    conv_lhs => rw [whole, shiftRight_mul_two_pow]
    rfl
  rw [rounded, ← shift, mul_two_zpow_add, ← whole]

/-- A short number that another one reaches is not lost in the rounding. -/
theorem le_roundedAt_of_isShort (positive : 0 < mantissa)
    (fits : exponent ≤ roundingExponent mantissa exponent) {bound : ℚ} (short : IsShort bound)
    (reached : bound ≤ mantissa * 2 ^ exponent) :
    bound ≤ roundedAt mantissa exponent * 2 ^ roundingExponent mantissa exponent := by
  obtain ⟨bits, place, few, least, rfl⟩ := short
  obtain ⟨below, shift⟩ := Int.le.dest fits
  have places : (roundingExponent mantissa exponent - exponent).toNat = below := by omega
  rcases le_or_gt (roundingExponent mantissa exponent) place with coarse | fine
  · obtain ⟨more, rest⟩ := Int.le.dest coarse
    have scaled : ((bits * 2 ^ more * 2 ^ below : ℕ) : ℚ) * 2 ^ exponent ≤ mantissa * 2 ^ exponent := by
      rwa [← mul_two_zpow_add, shift, ← mul_two_zpow_add, rest]
    have whole : bits * 2 ^ more * 2 ^ below ≤ mantissa := by
      exact_mod_cast le_of_mul_le_mul_right scaled (zpow_pos (by norm_num) exponent)
    have kept : bits * 2 ^ more ≤ roundedAt mantissa exponent := by
      refine le_trans ?_ (roundedAt_bounds mantissa exponent).1
      rw [places]
      exact (Nat.le_div_iff_mul_le (Nat.two_pow_pos _)).mpr whole
    calc (bits : ℚ) * 2 ^ place
        = (bits * 2 ^ more : ℕ) * 2 ^ roundingExponent mantissa exponent := by
          rw [← rest, mul_two_zpow_add]
      _ ≤ roundedAt mantissa exponent * 2 ^ roundingExponent mantissa exponent := by gcongr
  · have normal : roundingExponent mantissa exponent = mantissa.log2 + exponent - 52 := by
      rw [roundingExponent] at fine ⊢
      omega
    have full : ((2 ^ 52 : ℕ) : ℚ) ≤ roundedAt mantissa exponent := by
      exact_mod_cast le_roundedAt positive fits normal
    have narrow : (bits : ℚ) ≤ 2 ^ 53 := by exact_mod_cast few.le
    calc (bits : ℚ) * 2 ^ place
        ≤ 2 ^ 53 * 2 ^ place := by gcongr
      _ = (2 ^ 52 : ℕ) * 2 ^ (place + 1) := by
          rw [zpow_add_one₀ (by norm_num)]
          push_cast
          ring
      _ ≤ (2 ^ 52 : ℕ) * 2 ^ roundingExponent mantissa exponent := by
          gcongr
          · norm_num
          · omega
      _ ≤ roundedAt mantissa exponent * 2 ^ roundingExponent mantissa exponent := by gcongr

theorem isShort_two_zpow {power : ℤ} (least : leastBinaryExponent ≤ power) :
    IsShort (2 ^ power) :=
  ⟨1, power, by norm_num, least, by rw [Nat.cast_one, one_mul]⟩

theorem IsShort.least_le {number : ℚ} (short : IsShort number) (positive : 0 < number) :
    2 ^ leastBinaryExponent ≤ number := by
  obtain ⟨bits, place, _, least, rfl⟩ := short
  have some : (1 : ℚ) ≤ bits := by
    have bits_pos : (0 : ℚ) < bits := pos_of_mul_pos_left positive (zpow_pos (by norm_num) _).le
    exact_mod_cast bits_pos
  calc (2 : ℚ) ^ leastBinaryExponent
      ≤ 2 ^ place := zpow_le_zpow_right₀ (by norm_num) least
    _ ≤ bits * 2 ^ place := le_mul_of_one_le_left (zpow_pos (by norm_num) _).le some

theorem roundWithAccuracy_roundsTo (sign : Sign) (positive : 0 < mantissa)
    (fits : exponent ≤ roundingExponent mantissa exponent)
    (regular : 2 ^ leastBinaryExponent ≤ (mantissa : ℚ) * 2 ^ exponent) :
    ∃ rounded place, ∃ roundedPositive : 0 < rounded,
      roundWithAccuracy Format.binary64 sign mantissa exponent .exact =
        .finite sign rounded place roundedPositive ∧
      RoundsTo (mantissa * 2 ^ exponent) rounded place := by
  have some : (0 : ℚ) < roundedAt mantissa exponent * 2 ^ roundingExponent mantissa exponent :=
    (zpow_pos (by norm_num) _).trans_le
      (le_roundedAt_of_isShort positive fits (isShort_two_zpow le_rfl) regular)
  have kept : 0 < roundedAt mantissa exponent := by
    exact_mod_cast pos_of_mul_pos_left some (zpow_pos (by norm_num) _).le
  obtain ⟨rounded, place, roundedPositive, rounding, canonical, equal⟩ :=
    roundWithAccuracy_eq sign positive fits kept
  refine ⟨rounded, place, roundedPositive, rounding, canonical, ?_, ?_⟩
  · intro short
    rw [equal, roundedAt_of_isShort positive fits short]
  · intro bound short reached
    rw [equal]
    exact le_roundedAt_of_isShort positive fits short reached

theorem log2_mul_two_pow (positive : 0 < mantissa) (places : ℕ) :
    (mantissa * 2 ^ places).log2 = mantissa.log2 + places := by
  rw [Nat.log2_eq_iff (Nat.mul_pos positive (Nat.two_pow_pos places)).ne', add_right_comm, pow_add, pow_add]
  exact ⟨Nat.mul_le_mul_right _ (Nat.log2_self_le positive.ne'),
    Nat.mul_lt_mul_of_pos_right Nat.lt_log2_self (Nat.two_pow_pos places)⟩

theorem round_roundsTo (sign : Sign) (positive : 0 < mantissa)
    (regular : 2 ^ leastBinaryExponent ≤ (mantissa : ℚ) * 2 ^ exponent) :
    ∃ rounded place, ∃ roundedPositive : 0 < rounded,
      round Format.binary64 sign mantissa exponent = .finite sign rounded place roundedPositive ∧
      RoundsTo (mantissa * 2 ^ exponent) rounded place := by
  -- first the exponent is brought down to the rounding exponent, which changes neither
  obtain ⟨places, excess⟩ : ∃ places, (exponent - roundingExponent mantissa exponent).toNat = places :=
    ⟨_, rfl⟩
  have bits := log2_mul_two_pow positive places
  have same : roundingExponent (mantissa * 2 ^ places) (exponent - places) =
      roundingExponent mantissa exponent := by
    rw [roundingExponent, roundingExponent, bits]
    push_cast
    congr 1
    ring
  have scaled : ((mantissa * 2 ^ places : ℕ) : ℚ) * 2 ^ (exponent - places) = mantissa * 2 ^ exponent := by
    rw [zpow_sub₀ (by norm_num), zpow_natCast]
    push_cast
    field_simp
  have rounding : round Format.binary64 sign mantissa exponent =
      roundWithAccuracy Format.binary64 sign (mantissa * 2 ^ places) (exponent - places) .exact := by
    rw [UnpackedFloat.round, targetExponent_eq, decreaseExponent, excess]
    simp only [Nat.shiftLeft_eq]
  rw [rounding, ← scaled]
  refine roundWithAccuracy_roundsTo sign (Nat.mul_pos positive (Nat.two_pow_pos _)) ?_ ?_
  · rw [same]
    omega
  · rw [scaled]
    exact regular

end

end MeshGauges.Number
