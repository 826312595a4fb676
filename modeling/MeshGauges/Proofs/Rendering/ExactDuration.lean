import MeshGauges.Proofs.Duration.Exact
import MeshGauges.Proofs.Rendering.Duration

/-! Texts of durations that are not rounded.

Parts that are whole nanoseconds have one text in every order, and so have all forms of a number of seconds
and nanoseconds, as far as they stay below 10^19 seconds (`exact_at_nanoseconds`). -/

set_option autoImplicit false

namespace MeshGauges

open Number Text

namespace Rendering

open Duration

/-- A text of parts that are whole nanoseconds is read as their exact sum, below 10^19 seconds, and
rendered alike in every order of the parts. All forms of so many seconds and nanoseconds are read as one
number and rendered as one text. -/
theorem exact_at_nanoseconds :
    (∀ (text : String) (parts : List WrittenPart) (seconds : Decimal), IsWritten (unsigned text) parts →
      seconds? (.text text) = some seconds → (∀ part ∈ parts, IsNanoseconds part.seconds) →
      length parts < 10 ^ 19 →
      seconds.value = withMinus (hasMinus text) (length parts) ∧
      ∀ (other : String) (reordered : List WrittenPart), IsWritten (unsigned other) reordered →
        reordered.Perm parts → hasMinus other = hasMinus text →
        (seconds? (.text other)).map Decimal.value = some seconds.value ∧
          duration (.text other) = duration (.text text)) ∧
    (∀ seconds nanos : ℕ, seconds < 10 ^ 19 → nanos < 10 ^ 19 → (seconds + nanos / 10 ^ 9 : ℚ) < 10 ^ 19 →
      ∃ text, IsCanonical text (seconds + nanos / 10 ^ 9) ∧
        ∀ tree, Spells seconds nanos tree → duration tree = text ∧
          (seconds? tree).map Decimal.value = some (seconds + nanos / 10 ^ 9 : ℚ)) := by
  constructor
  · intro text parts seconds written read whole few
    have inRange := inRange_of_seconds? written (by rw [read]; rfl)
    have precise := isPrecise_length whole few
    obtain ⟨found, same, signs, value⟩ := seconds?_of_unsigned (isReadAs_total written inRange whole few) precise
    obtain rfl := Option.some.inj (same.symm.trans read)
    refine ⟨value, fun other reordered otherWritten perm otherMinus => ?_⟩
    have sum := length_eq_of_perm perm
    have otherRead := isReadAs_total otherWritten (fun part member => inRange part (perm.mem_iff.mp member))
      (fun part member => whole part (perm.mem_iff.mp member)) (sum ▸ few)
    rw [sum] at otherRead
    obtain ⟨otherSeconds, otherFound, otherSigns, otherValue⟩ := seconds?_of_unsigned otherRead precise
    have equal : otherSeconds.value = found.value := by rw [otherValue, value, otherMinus]
    rw [duration_eq_secondsText otherFound, duration_eq_secondsText read, otherFound, Option.map_some, equal,
      secondsText_eq_iff equal, otherSigns, signs, otherMinus]
    exact ⟨rfl, rfl⟩
  · intro seconds nanos fewSeconds fewNanos few
    obtain ⟨first, _, firstPositive, firstValue⟩ := Spells.parts.isReadAs fewSeconds fewNanos few
    have signs : first.SignMatches := Decimal.signMatches_iff.mpr fun minus => by
      rw [firstPositive] at minus
      cases minus
    refine ⟨secondsText first, firstValue ▸ isCanonical_secondsText signs, fun tree spells => ?_⟩
    obtain ⟨read, found, positive, value⟩ := spells.isReadAs fewSeconds fewNanos few
    rw [duration_eq_secondsText found, found, Option.map_some, value,
      secondsText_eq_iff (value.trans firstValue.symm), positive, firstPositive]
    exact ⟨rfl, rfl⟩

namespace MinuteAndHalf

def text : String := "-1m.5s"

/-- The parts of the text in the other order, with white space in front. -/
def turned : String := " -.5s1m"

def minute : WrittenPart := ⟨⟨['1'], none⟩, .m⟩

def half : WrittenPart := ⟨⟨[], some ['5']⟩, .s⟩

theorem wellFormed : minute.numeral.IsWellFormed ∧ half.numeral.IsWellFormed :=
  ⟨⟨List.all_eq_true.mp (by decide), nofun⟩, ⟨List.all_eq_true.mp (by decide), nofun⟩⟩

theorem isWritten_text : IsWritten (unsigned text) [minute, half] :=
  ⟨nofun, by simpa using wellFormed, by decide⟩

theorem isWritten_turned : IsWritten (unsigned turned) [half, minute] :=
  ⟨nofun, by simpa using wellFormed.symm, by decide⟩

theorem seconds_eq : minute.seconds = 60 ∧ half.seconds = 1 / 2 := by decide +kernel

theorem isNanoseconds_parts : ∀ part ∈ [minute, half], IsNanoseconds part.seconds := by
  simp only [List.forall_mem_cons, List.not_mem_nil, false_imp_iff, implies_true, and_true, seconds_eq]
  exact ⟨⟨60 * 10 ^ 9, by norm_num⟩, ⟨500000000, by norm_num⟩⟩

theorem length_parts : length [minute, half] = 121 / 2 := by
  simp only [length, List.map_cons, List.map_nil, List.sum_cons, List.sum_nil, seconds_eq]
  norm_num

/-- Two orders of a minute and a half second, and two forms of one nanosecond less than the limit. -/
theorem alike_in_both_orders :
    (∃ seconds, seconds? (.text text) = some seconds ∧ seconds.value = -(121 / 2) ∧
      duration (.text turned) = duration (.text text)) ∧
    ∃ written, IsCanonical written (9999999999999999999 + 999999999 / 10 ^ 9) ∧
      duration (.text "9999999999999999999s999999999ns") = written ∧
      duration (.object [("nanos", .integer 999999999), ("seconds", .integer 9999999999999999999)]) =
        written := by
  have read : ∃ seconds, seconds? (.text text) = some seconds := Option.isSome_iff_exists.mp (by decide)
  obtain ⟨seconds, read⟩ := read
  have few : length [minute, half] < 10 ^ 19 := by
    rw [length_parts]
    norm_num
  obtain ⟨value, orders⟩ :=
    exact_at_nanoseconds.1 text [minute, half] seconds isWritten_text read isNanoseconds_parts few
  obtain ⟨-, same⟩ := orders turned [half, minute] isWritten_turned (.swap _ _ _) (by decide)
  obtain ⟨written, canonical, alike⟩ := exact_at_nanoseconds.2 9999999999999999999 999999999 (by norm_num)
    (by norm_num) (by norm_num)
  refine ⟨⟨seconds, read, ?_, same⟩, written, ?_, (alike _ .parts).1, (alike _ (.object rfl rfl)).1⟩
  · rw [value, length_parts]
    rfl
  · exact_mod_cast canonical

end MinuteAndHalf
end Rendering
end MeshGauges
