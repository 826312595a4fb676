import MeshGauges.Proofs.Duration.Parts
import MeshGauges.Proofs.Number.Parts
import MeshGauges.Proofs.Number.Shortest

/-! The seconds of every kind of tree.

Whatever they are read from, seconds have no more than 28 significant digits. A zero loses its sign where a
number is accepted, and no sum or product of accepted numbers is a zero with a minus sign, so the sign of
seconds is that of their number. The one exception is a minus sign in front of a whole text, which is put
on the seconds at the end, on a zero as well. -/

set_option autoImplicit false

namespace MeshGauges.Duration

open MeshGauges.Number MeshGauges.Text

variable {tree : Tree} {number seconds : Decimal}

/-! ### Accepted numbers -/

theorem accept?_eq_some (accepts : accept? number = some seconds) :
    InRange number.value ∧ seconds = accepted number := by
  rw [accept?_eq] at accepts
  split at accepts
  · next inRange => exact ⟨inRange, (Option.some.inj accepts).symm⟩
  · cases accepts

theorem signMatches_of_accept? (accepts : accept? number = some seconds) : seconds.SignMatches := by
  obtain ⟨-, rfl⟩ := accept?_eq_some accepts
  rw [Decimal.signMatches_iff, accepted]
  split
  · exact fun minus => absurd minus Bool.false_ne_true
  · next some =>
      intro _ zero
      exact some (decide_eq_true (Decimal.value_eq_zero_iff.mp zero))

theorem signMatches_of_readNumber? {characters : List Char} (read : readNumber? characters = some seconds) :
    seconds.SignMatches := by
  obtain ⟨_, -, accepts⟩ := Option.bind_eq_some_iff.mp read
  exact signMatches_of_accept? accepts

/-- What a text without a sign is read as: an accepted number, or the sum of its parts. -/
theorem exists_of_unsignedSeconds? {characters : List Char} (read : unsignedSeconds? characters = some seconds) :
    readNumber? characters = some seconds ∨
      ∃ parts, IsWritten characters parts ∧ (∀ part ∈ parts, InRange part.numeral.number) ∧
        seconds.negative = false ∧ seconds.value = total parts := by
  rw [unsignedSeconds?] at read
  split at read
  · exact .inl read
  · obtain ⟨_, split, sums⟩ := Option.bind_eq_some_iff.mp read
    obtain ⟨parts, written, rfl⟩ := parts?_eq_some_iff.mp split
    have inRange := inRange_of_sumParts? sums
    obtain ⟨found, same, positive, value⟩ := unsignedSeconds?_eq_some written inRange
    rw [unsignedSeconds?_of_parts written, sums] at same
    obtain rfl := Option.some.inj same
    exact .inr ⟨parts, written, inRange, positive, value⟩

theorem signMatches_of_unsignedSeconds? {characters : List Char}
    (read : unsignedSeconds? characters = some seconds) : seconds.SignMatches := by
  rcases exists_of_unsignedSeconds? read with number | ⟨_, -, -, positive, -⟩
  · exact signMatches_of_readNumber? number
  · rw [Decimal.signMatches_iff, positive]
    exact fun minus => absurd minus Bool.false_ne_true

/-! ### Digits -/

theorem isPrecise_of_seconds? (read : seconds? tree = some seconds) : IsPrecise seconds.value := by
  cases tree with
  | null => cases read
  | bool => cases read
  | list => cases read
  | integer value =>
      obtain ⟨inRange, rfl⟩ := accept?_eq_some read
      rw [value_accepted]
      refine Decimal.isPrecise_value ?_
      rcases inRange with zero | ⟨-, less⟩
      · rw [Decimal.value_eq_zero_iff.mp zero]
        norm_num
      · rw [Decimal.abs_value, zpow_zero, mul_one] at less
        have less : value.natAbs < 10 ^ 19 := by exact_mod_cast less
        exact less.trans (by norm_num)
  | float value =>
      obtain ⟨decimal, found, accepts⟩ := Option.bind_eq_some_iff.mp read
      obtain ⟨-, rfl⟩ := accept?_eq_some accepts
      rw [value_accepted]
      exact Decimal.isPrecise_value ((coefficient_le_of_shortest? found).trans_lt (by norm_num))
  | text text =>
      obtain ⟨_, -, rfl⟩ := Option.map_eq_some_iff.mp read
      rw [Decimal.value_mul]
      exact isPrecise_toPrecision _
  | object members =>
      obtain ⟨_, -, read⟩ := Option.bind_eq_some_iff.mp read
      obtain ⟨_, -, same⟩ := Option.bind_eq_some_iff.mp read
      obtain rfl := Option.some.inj same
      rw [Decimal.value_add]
      exact isPrecise_toPrecision _

/-! ### Signs -/

/-- Whether a tree is a text with a minus sign in front of a zero. -/
def IsMinusZero (tree : Tree) : Prop :=
  ∃ (text : String) (seconds : Decimal), tree = .text text ∧ hasMinus text = true ∧
    seconds? tree = some seconds ∧ seconds.value = 0

theorem signMatches_of_seconds? (read : seconds? tree = some seconds) (noMinusZero : ¬ IsMinusZero tree) :
    seconds.SignMatches := by
  cases tree with
  | null => cases read
  | bool => cases read
  | list => cases read
  | integer value => exact signMatches_of_accept? read
  | float value =>
      obtain ⟨_, -, accepts⟩ := Option.bind_eq_some_iff.mp read
      exact signMatches_of_accept? accepts
  | text text =>
      rw [Decimal.signMatches_iff]
      intro negative zero
      cases minus : hasMinus text with
      | true => exact noMinusZero ⟨text, seconds, rfl, minus, read, zero⟩
      | false =>
          rw [seconds?, secondsOfText?_eq, minus] at read
          obtain ⟨number, unsigned, rfl⟩ := Option.map_eq_some_iff.mp read
          have signed := Decimal.signMatches_iff.mp (signMatches_of_unsignedSeconds? unsigned)
          rw [value_signFactor_mul, withMinus, if_neg Bool.false_ne_true, toPrecision_eq_zero_iff] at zero
          rw [Decimal.negative_mul, signFactor, Bool.false_bne] at negative
          exact signed negative zero
  | object members =>
      obtain ⟨whole, wholeRead, read⟩ := Option.bind_eq_some_iff.mp read
      obtain ⟨nanos, nanosRead, same⟩ := Option.bind_eq_some_iff.mp read
      obtain rfl := Option.some.inj same
      have unit : 0 < TimeUnit.nanosecond.seconds.value := by
        norm_num [TimeUnit.seconds, Decimal.value, Decimal.signedCoefficient]
      exact (signMatches_of_readNumber? wholeRead).add ((signMatches_of_readNumber? nanosRead).mul unit)

theorem isMinusZero_iff (read : seconds? tree = some seconds) :
    IsMinusZero tree ↔ seconds.negative = true ∧ seconds.value = 0 := by
  refine ⟨fun minusZero => ?_, fun ⟨negative, zero⟩ => ?_⟩
  case refine_2 =>
    by_contra noMinusZero
    exact Decimal.signMatches_iff.mp (signMatches_of_seconds? read noMinusZero) negative zero
  obtain ⟨text, found, rfl, minus, same, zero⟩ := minusZero
  obtain rfl := Option.some.inj (same.symm.trans read)
  refine ⟨?_, zero⟩
  rw [seconds?, secondsOfText?_eq, minus] at read
  obtain ⟨number, unsigned, rfl⟩ := Option.map_eq_some_iff.mp read
  have signed := Decimal.signMatches_iff.mp (signMatches_of_unsignedSeconds? unsigned)
  rw [value_signFactor_mul, withMinus, if_pos rfl, neg_eq_zero, toPrecision_eq_zero_iff] at zero
  have positive : number.negative = false := by
    by_contra negative
    exact signed (by simpa using negative) zero
  rw [Decimal.negative_mul, positive]
  rfl

/-! ### Floats that are integers -/

section Floats

variable {float : Float} {negative : Bool} {mantissa : ℕ} {exponent : ℤ}

theorem natAbs_of_integral? (parts : binaryParts float = .finite negative mantissa exponent) {integer : ℤ}
    (integral : integral? float = some integer) : (integer.natAbs : ℚ) = mantissa * 2 ^ exponent := by
  have positive : ((binaryFraction mantissa exponent).2 : ℚ) ≠ 0 := by
    exact_mod_cast (binaryFraction_pos mantissa exponent).ne'
  rw [← binaryFraction_eq]
  simp only [integral?, parts] at integral
  split at integral
  · next divides =>
      obtain rfl := Option.some.inj integral
      have size : (withSign negative ((binaryFraction mantissa exponent).1 /
          (binaryFraction mantissa exponent).2)).natAbs =
          (binaryFraction mantissa exponent).1 / (binaryFraction mantissa exponent).2 := by
        rw [withSign]
        split
        · rw [Int.natAbs_neg, Int.natAbs_natCast]
        · rw [Int.natAbs_natCast]
      rw [size, Nat.cast_div (Nat.dvd_of_mod_eq_zero divides) positive]
  · cases integral

/-- The bound of the range is a float itself, so no float is on the other side of it than its shortest
decimal. -/
theorem le_of_le_shortestDecimal_of_finite (parts : binaryParts float = .finite negative mantissa exponent)
    (positive : 0 < mantissa)
    (reached : (10 : ℚ) ^ (19 : ℤ) ≤ |(shortestDecimal negative mantissa exponent).value|) :
    (10 : ℚ) ^ (19 : ℤ) ≤ mantissa * 2 ^ exponent := by
  rcases le_or_gt exponent 19 with small | large
  · obtain ⟨more, shift⟩ := Int.le.dest small
    have power : (2 : ℚ) ^ (19 : ℤ) = 2 ^ more * 2 ^ exponent := by
      rw [← shift, zpow_add₀ (by norm_num), zpow_natCast, mul_comm]
    have factors : (10 : ℚ) ^ (19 : ℤ) = 5 ^ 19 * 2 ^ (19 : ℤ) := by norm_num
    have multiple : (10 : ℚ) ^ (19 : ℤ) = (5 ^ 19 * 2 ^ more : ℕ) * 2 ^ exponent := by
      rw [factors, power]
      push_cast
      ring
    exact le_of_le_shortestDecimal positive multiple (by norm_num) reached
  · have above : leastBinaryExponent < exponent := lt_trans (by decide) large
    have normal : ((2 ^ 52 : ℕ) : ℚ) ≤ mantissa := by exact_mod_cast (mantissa_bounds parts).2 above
    have unit : (2 : ℚ) ^ (20 : ℤ) ≤ 2 ^ exponent := zpow_le_zpow_right₀ (by norm_num) large
    calc (10 : ℚ) ^ (19 : ℤ)
        ≤ ((2 ^ 52 : ℕ) : ℚ) * 2 ^ (20 : ℤ) := by norm_num
      _ ≤ mantissa * 2 ^ exponent := mul_le_mul normal unit (by positivity) (by positivity)

/-- A float that is an integer in range has a shortest decimal in range. -/
theorem inRange_shortestDecimal (parts : binaryParts float = .finite negative mantissa exponent)
    {integer : ℤ} (integral : integral? float = some integer) (inRange : InRange integer) :
    InRange (shortestDecimal negative mantissa exponent).value := by
  have size := natAbs_of_integral? parts integral
  have magnitude : |(integer : ℚ)| = integer.natAbs := by rw [Nat.cast_natAbs, Int.cast_abs]
  rcases Nat.eq_zero_or_pos mantissa with rfl | positive
  · exact .inl (Decimal.value_eq_zero_iff.mpr rfl)
  · by_cases nonzero : (shortestDecimal negative mantissa exponent).value = 0
    · exact .inl nonzero
    · have unit : (0 : ℚ) < mantissa * 2 ^ exponent :=
        mul_pos (by exact_mod_cast positive) (zpow_pos (by norm_num) exponent)
      have some : 1 ≤ integer.natAbs := by
        rw [← size] at unit
        exact_mod_cast unit
      have one : (1 : ℚ) ≤ mantissa * 2 ^ exponent := by
        rw [← size]
        exact_mod_cast some
      refine .inr ⟨?_, ?_⟩
      · have half := le_two_mul_shortestDecimal positive nonzero
        norm_num
        linarith
      · by_contra! reached
        have above := le_of_le_shortestDecimal_of_finite parts positive reached
        rw [← size, ← magnitude] at above
        rcases inRange with zero | ⟨-, less⟩
        · rw [zero, abs_zero] at magnitude
          rw [← size, ← magnitude] at one
          exact absurd one (by norm_num)
        · exact absurd less above.not_gt

end Floats
end MeshGauges.Duration
