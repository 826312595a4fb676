import MeshGauges.Proofs.Number.Places
import MeshGauges.Proofs.Rendering.Duration

/-! How long the text of a duration is.

A number in range has its digits behind the place of a nano of a nano only as far as 28 of them reach, and
neither a product with a unit nor a sum leaves that grid. Each part adds less than 10^23 seconds. So a text
of fewer than 10^20 characters, which has no more parts than characters, is below 10^43 seconds, whatever
exponents its numbers are written with. -/

set_option autoImplicit false

namespace MeshGauges

open Number Text

namespace Duration

/-! ### The size of a sum -/

/-- What holds of the sum of so many parts. A billionth of a nanosecond has 28 digits down to the 45th
place, and a number in range is less than 10^23 seconds even as hours. -/
structure Within (count : ℕ) (sum : ℚ) : Prop where
  onGrid : OnGrid (-45) sum
  abs_le : |sum| ≤ count * 10 ^ 23

theorem isPrecise_bound {count : ℕ} (few : count < 10 ^ 28) : IsPrecise (count * 10 ^ 23) :=
  ⟨count, 23, by rw [Nat.abs_cast]; exact_mod_cast few, by norm_cast⟩

theorem Within.zero : Within 0 0 := ⟨onGrid_zero _, by norm_num⟩

theorem Within.mono {count more : ℕ} {sum : ℚ} (within : Within count sum) (le : count ≤ more) :
    Within more sum := by
  refine ⟨within.onGrid, within.abs_le.trans ?_⟩
  gcongr

theorem Within.add {count : ℕ} {sum next : ℚ} (within : Within count sum) (nextWithin : Within 1 next)
    (few : count + 1 < 10 ^ 28) : Within (count + 1) (toPrecision (sum + next)) := by
  refine ⟨(within.onGrid.add nextWithin.onGrid).toPrecision, abs_toPrecision_le ?_ (isPrecise_bound few)⟩
  calc |sum + next|
      ≤ |sum| + |next| := abs_add_le sum next
    _ ≤ count * 10 ^ 23 + (1 : ℕ) * 10 ^ 23 := add_le_add within.abs_le nextWithin.abs_le
    _ = (count + 1 : ℕ) * 10 ^ 23 := by rw [← add_mul, ← Nat.cast_add]

/-- A number in range, as so many of a unit, makes one part. -/
theorem within_toPrecision {number scale : ℚ} (inRange : InRange number)
    (least : (10 : ℚ) ^ (-9 : ℤ) ≤ scale) (greatest : scale ≤ 3600) :
    Within 1 (toPrecision (number * scale)) := by
  have positive : 0 < scale := (ten_zpow_pos _).trans_le least
  have size : |number * scale| = |number| * scale := by rw [abs_mul, abs_of_pos positive]
  rcases inRange with rfl | ⟨lower, upper⟩
  · rw [zero_mul, toPrecision_eq_zero_iff.mpr rfl]
    exact Within.zero.mono (Nat.zero_le 1)
  · refine ⟨onGrid_toPrecision (.inr ?_), abs_toPrecision_le ?_ (isPrecise_bound (by norm_num))⟩
    · calc (10 : ℚ) ^ (-45 + 27 : ℤ)
          = 10 ^ (-9 : ℤ) * 10 ^ (-9 : ℤ) := by rw [← zpow_add₀ (by norm_num)]; rfl
        _ ≤ |number * scale| := size ▸ mul_le_mul lower least (ten_zpow_pos _).le (abs_nonneg _)
    · calc |number * scale|
          ≤ 10 ^ (19 : ℤ) * 3600 := size ▸ mul_le_mul upper.le greatest positive.le (ten_zpow_pos _).le
        _ ≤ (1 : ℕ) * 10 ^ 23 := by norm_num

theorem UnitName.seconds_bounds (name : UnitName) : (10 : ℚ) ^ (-9 : ℤ) ≤ name.seconds ∧ name.seconds ≤ 3600 := by
  cases name <;> norm_num [UnitName.seconds]

theorem Within.addPart {count : ℕ} {sum : ℚ} {part : WrittenPart} (within : Within count sum)
    (inRange : InRange part.numeral.number) (few : count + 1 < 10 ^ 28) :
    Within (count + 1) (addPart sum part) :=
  within.add (within_toPrecision inRange part.name.seconds_bounds.1 part.name.seconds_bounds.2) few

theorem within_total {parts : List WrittenPart} (inRange : ∀ part ∈ parts, InRange part.numeral.number)
    (few : parts.length < 10 ^ 28) : Within parts.length (total parts) := by
  induction parts using List.reverseRecOn with
  | nil => exact Within.zero
  | append_singleton parts last ih =>
      obtain ⟨before, inRange⟩ := List.forall_mem_append.mp inRange
      rw [List.length_append, List.length_singleton] at few ⊢
      rw [total, List.foldl_append]
      exact (ih before (by omega)).addPart (inRange last (List.mem_singleton_self last)) few

/-! ### The seconds of a text -/

theorem length_unsigned_le (text : String) : (unsigned text).length ≤ text.length := by
  have trimmed : (trimWhere isBlank text.toList).length ≤ text.length := by
    rw [← String.length_toList]
    exact (trimWhere_sublist isBlank text.toList).length_le
  have unsignedLength : ∀ characters : List Char, (splitSign characters).2.length ≤ characters.length := by
    intro characters
    unfold splitSign
    split
    · exact Nat.le_succ _
    · exact Nat.le_succ _
    · exact le_rfl
  exact (unsignedLength _).trans trimmed

theorem within_of_unsignedSeconds? {characters : List Char} {number : Decimal}
    (read : unsignedSeconds? characters = some number) (few : characters.length < 10 ^ 28) :
    Within (max 1 characters.length) (toPrecision number.value) := by
  rcases exists_of_unsignedSeconds? read with bare | ⟨parts, written, inRange, -, value⟩
  · obtain ⟨decimal, -, accepts⟩ := Option.bind_eq_some_iff.mp bare
    obtain ⟨inRange, rfl⟩ := accept?_eq_some accepts
    have one : Within 1 (toPrecision (decimal.value * 1)) :=
      within_toPrecision inRange (by norm_num) (by norm_num)
    rw [mul_one, ← value_accepted] at one
    exact one.mono (le_max_left _ _)
  · have count : parts.length ≤ characters.length := by
      rw [written.joined]
      exact length_le_length_flatMap parts
    rw [value, (isPrecise_total parts).toPrecision_eq]
    exact (within_total inRange (count.trans_lt few)).mono (count.trans (le_max_right _ _))

theorem within_of_seconds? {text : String} {seconds : Decimal} (read : seconds? (.text text) = some seconds)
    (few : text.length < 10 ^ 28) : Within (max 1 text.length) seconds.value := by
  rw [seconds?, secondsOfText?_eq] at read
  obtain ⟨number, unsignedRead, rfl⟩ := Option.map_eq_some_iff.mp read
  have length := length_unsigned_le text
  have within := (within_of_unsignedSeconds? unsignedRead (length.trans_lt few)).mono
    (max_le_max_left 1 length)
  rw [value_signFactor_mul]
  cases hasMinus text with
  | false => exact within
  | true => exact ⟨within.onGrid.neg, by rw [withMinus, if_pos rfl, abs_neg]; exact within.abs_le⟩

end Duration

/-! ### The text of the seconds -/

namespace Rendering

open Duration

theorem length_secondsText_le {seconds : Decimal} (precise : IsPrecise seconds.value)
    (onGrid : OnGrid (-45) seconds.value) (small : |seconds.value| < 10 ^ 43) :
    (secondsText seconds).length ≤ 49 := by
  have numeral : seconds.numeral.characters.length ≤ max (45 + 1) (max 28 43) + 1 :=
    Decimal.length_numeral_le (by norm_num) precise onGrid small
  have written : ∀ negative, (signed negative (seconds.numeral.characters ++ ['s'])).length ≤
      1 + (seconds.numeral.characters.length + 1) := by
    intro negative
    cases negative <;> simp [signed]
  rw [← String.length_toList, toList_secondsText]
  exact (written _).trans (by omega)

/-- A text that is no duration is passed through, and one that is has a short text, however long it is
itself and whatever exponents it has. -/
theorem duration_eq_self_or_short {text : String} (few : text.length < 10 ^ 20) :
    (seconds? (.text text) = none ∧ duration (.text text) = text) ∨
      (seconds? (.text text)).isSome = true ∧ (duration (.text text)).length ≤ 64 := by
  cases read : seconds? (.text text) with
  | none => exact .inl ⟨rfl, duration_eq_scalar read⟩
  | some seconds =>
      obtain ⟨onGrid, size⟩ := within_of_seconds? read (few.trans (by norm_num))
      have small : |seconds.value| < 10 ^ 43 := by
        have count : max 1 text.length < 10 ^ 20 := max_lt (by norm_num) few
        refine size.trans_lt ?_
        calc ((max 1 text.length : ℕ) : ℚ) * 10 ^ 23
            < 10 ^ 20 * 10 ^ 23 := by
              gcongr
              exact_mod_cast count
          _ = 10 ^ 43 := by norm_num
      rw [duration_eq_secondsText read]
      have short := length_secondsText_le (isPrecise_of_seconds? read) onGrid small
      exact .inr ⟨rfl, short.trans (by norm_num)⟩

/-- A huge number is passed through as it is written. Two parts that are 40 places apart have a short text. -/
theorem huge_exponent_passed_through :
    "1e99999999".length < 10 ^ 20 ∧ duration (.text "1e99999999") = "1e99999999" ∧
      "9999999999999999999h.1ns".length < 10 ^ 20 ∧
      (duration (.text "9999999999999999999h.1ns")).length ≤ 64 := by
  have unread : ¬ (seconds? (.text "1e99999999")).isSome = true := by decide
  have read : seconds? (.text "9999999999999999999h.1ns") ≠ none := by decide
  have few : "1e99999999".length < 10 ^ 20 := by decide
  have alsoFew : "9999999999999999999h.1ns".length < 10 ^ 20 := by decide
  have passed := (duration_eq_self_or_short few).resolve_right fun short => unread short.1
  have short := (duration_eq_self_or_short alsoFew).resolve_left fun passed => read passed.1
  exact ⟨few, passed.2, alsoFew, short.2⟩

/-- The longest text of a duration. -/
example : duration (.text "-.000000001000000000000000000000000001ns") =
    "-0.000000000000000001000000000000000000000000001s" := by
  decide

end Rendering
end MeshGauges
