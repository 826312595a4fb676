import MeshGauges.Proofs.Duration.Plain
import MeshGauges.Proofs.Duration.Seconds
import MeshGauges.Proofs.Rendering.MemberOrder

/-! Durations as texts.

What is read as a duration is written in plain digits, so durations of one length have one canonical text,
but for a zero with a minus sign (`duration_canonical`). The text is a duration of one part, which is read
as the same seconds and written the same way again. What is no duration is passed through, as a text that
is none either (`duration_idempotent`). -/

set_option autoImplicit false

namespace MeshGauges

open Number Text

/-! ### The canonical text -/

namespace Rendering

/-- The text of a number of seconds: plain digits behind a minus sign, if the number is below zero, and the
name of the unit. -/
def IsCanonical (text : String) (number : ℚ) : Prop :=
  ∃ numeral : Numeral, numeral.IsPlain ∧ numeral.number = |number| ∧
    text.toList = signed (decide (number < 0)) (numeral.characters ++ ['s'])

theorem toList_secondsText (seconds : Decimal) :
    (secondsText seconds).toList = signed seconds.negative (seconds.numeral.characters ++ ['s']) := by
  rw [secondsText, String.toList_append, Decimal.toList_plainText]
  cases seconds.negative <;> rfl

theorem isCanonical_secondsText {seconds : Decimal} (signs : seconds.SignMatches) :
    IsCanonical (secondsText seconds) seconds.value := by
  refine ⟨seconds.numeral, seconds.isPlain_numeral, seconds.number_numeral, ?_⟩
  rw [toList_secondsText, signs]

/-- Equal seconds have one text exactly when they have one sign. -/
theorem secondsText_eq_iff {first second : Decimal} (same : first.value = second.value) :
    secondsText first = secondsText second ↔ first.negative = second.negative := by
  constructor
  · intro texts
    have texts := congrArg String.toList texts
    rw [toList_secondsText, toList_secondsText,
      Decimal.numeral_eq_of_abs_value_eq (congrArg abs same)] at texts
    -- a minus sign makes a text longer
    have lengths := congrArg List.length texts
    revert lengths
    cases first.negative <;> cases second.negative <;> simp [signed]
  · intro signs
    rw [secondsText, secondsText, Decimal.plainText_eq_of_abs_value_eq signs (congrArg abs same)]

theorem not_isCanonical_of_minus {text : String} {number : ℚ} {rest : List Char}
    (begins : text.toList = '-' :: rest) (zero : number = 0) : ¬ IsCanonical text number := by
  rintro ⟨numeral, plain, -, shape⟩
  rw [zero, begins] at shape
  have head := congrArg List.head? shape
  exact (Duration.beginsPlain_append plain ['s'] '-' head.symm).1 (.inr rfl)

section Trees

variable {tree : Tree} {seconds : Decimal}

theorem duration_eq_secondsText (read : Duration.seconds? tree = some seconds) :
    duration tree = secondsText seconds := by
  rw [duration, read]

theorem duration_eq_scalar (unread : Duration.seconds? tree = none) : duration tree = scalar tree := by
  rw [duration, unread]

theorem duration_of_isMinusZero (minusZero : Duration.IsMinusZero tree) : duration tree = "-0s" := by
  have found := minusZero
  obtain ⟨_, seconds, -, -, read, -⟩ := found
  obtain ⟨negative, zero⟩ := (Duration.isMinusZero_iff read).mp minusZero
  have noSeconds : (⟨true, 0, 0⟩ : Decimal).value = 0 := Decimal.value_eq_zero_iff.mpr rfl
  have written : secondsText seconds = secondsText ⟨true, 0, 0⟩ :=
    (secondsText_eq_iff (zero.trans noSeconds.symm)).mpr negative
  rw [duration_eq_secondsText read, written]
  decide

theorem isCanonical_duration_iff (read : Duration.seconds? tree = some seconds) :
    IsCanonical (duration tree) seconds.value ↔ ¬ Duration.IsMinusZero tree := by
  constructor
  · intro canonical minusZero
    have zero := ((Duration.isMinusZero_iff read).mp minusZero).2
    rw [duration_of_isMinusZero minusZero] at canonical
    exact not_isCanonical_of_minus rfl zero canonical
  · intro ordinary
    rw [duration_eq_secondsText read]
    exact isCanonical_secondsText (Duration.signMatches_of_seconds? read ordinary)

theorem duration_eq_iff {other : Tree} {otherSeconds : Decimal}
    (read : Duration.seconds? tree = some seconds) (otherRead : Duration.seconds? other = some otherSeconds)
    (same : seconds.value = otherSeconds.value) :
    duration tree = duration other ↔ (Duration.IsMinusZero tree ↔ Duration.IsMinusZero other) := by
  rw [duration_eq_secondsText read, duration_eq_secondsText otherRead, secondsText_eq_iff same,
    Duration.isMinusZero_iff read, Duration.isMinusZero_iff otherRead, same]
  by_cases zero : otherSeconds.value = 0
  · simp only [zero, and_true]
    exact Bool.eq_iff_iff
  · have signs := Decimal.signMatches_iff.mpr fun _ => same ▸ zero
    have otherSigns := Decimal.signMatches_iff.mpr fun _ => zero
    simp only [zero, and_false, iff_self, iff_true]
    rw [signs, otherSigns, same]

end Trees

/-- Seconds that are equal are written as one canonical text, whatever they are read from, but for a zero
with a minus sign, which keeps the sign. -/
theorem duration_canonical {first second : Tree} {firstSeconds secondSeconds : Decimal}
    (firstRead : Duration.seconds? first = some firstSeconds)
    (secondRead : Duration.seconds? second = some secondSeconds)
    (same : firstSeconds.value = secondSeconds.value) :
    (duration first = duration second ↔ (Duration.IsMinusZero first ↔ Duration.IsMinusZero second)) ∧
    (IsCanonical (duration first) firstSeconds.value ↔ ¬ Duration.IsMinusZero first) ∧
    (Duration.IsMinusZero first → duration first = "-0s") :=
  ⟨duration_eq_iff firstRead secondRead same, isCanonical_duration_iff firstRead, duration_of_isMinusZero⟩

namespace NinetySeconds

def written : Tree := .text "1m30s"

def counted : Tree := .object [("seconds", .integer 90)]

theorem seconds?_written : Duration.seconds? written = some ⟨false, 90, 0⟩ := by decide

theorem seconds?_counted : Duration.seconds? counted = some ⟨false, 90000000000, -9⟩ := by decide

theorem value_eq : (⟨false, 90, 0⟩ : Decimal).value = (⟨false, 90000000000, -9⟩ : Decimal).value := by
  norm_num [Decimal.value, Decimal.signedCoefficient]

theorem not_isMinusZero_written : ¬ Duration.IsMinusZero written := by
  rintro ⟨text, _, same, minus, -⟩
  obtain rfl := Tree.text.inj same
  exact absurd minus (by decide)

theorem not_isMinusZero_counted : ¬ Duration.IsMinusZero counted := by
  rintro ⟨_, _, same, -⟩
  cases same

/-- A text of two parts and an object of one length are written alike. -/
theorem one_text : duration written = duration counted ∧
    IsCanonical (duration written) (⟨false, 90, 0⟩ : Decimal).value := by
  have canonical := duration_canonical seconds?_written seconds?_counted value_eq
  exact ⟨canonical.1.mpr (iff_of_false not_isMinusZero_written not_isMinusZero_counted),
    canonical.2.1.mpr not_isMinusZero_written⟩

end NinetySeconds

/-- Two zeros are equal seconds, but the minus sign of one of them is written. -/
theorem two_texts_of_zero :
    Duration.seconds? (.text "0s") = some ⟨false, 0, 0⟩ ∧
      Duration.seconds? (.text "-0s") = some ⟨true, 0, 0⟩ ∧
      (⟨false, 0, 0⟩ : Decimal).value = (⟨true, 0, 0⟩ : Decimal).value ∧
      duration (.text "0s") ≠ duration (.text "-0s") := by
  have zero : ∀ negative, (⟨negative, 0, 0⟩ : Decimal).value = 0 :=
    fun negative => Decimal.value_eq_zero_iff.mpr rfl
  exact ⟨by decide, by decide, (zero false).trans (zero true).symm, by decide⟩

/-! ### Written twice -/

theorem pairLiterals_head (entries : List (String × String)) :
    ∀ first ∈ (pairLiterals entries).toList.head?, first = '\x7b' := by
  intro first head
  rw [pairLiterals] at head
  cases sorted : sortByName entries with
  | nil =>
      rw [sorted] at head
      cases head
  | cons entry others =>
      rw [sorted, List.map_cons, String.join_cons, pairLiteral] at head
      simp only [String.toList_append, List.append_assoc] at head
      exact (Option.some.inj head).symm

end Rendering

namespace Duration

theorem seconds?_eq_none_of_brace {text : String} {rest : List Char} (begins : text.toList = '\x7b' :: rest) :
    seconds? (.text text) = none := by
  have plain : BeginsPlain text.toList := by
    intro first head
    rw [begins] at head
    obtain rfl := Option.some.inj head
    refine ⟨fun sign => ?_, by decide⟩
    rcases sign with plus | minus
    · exact absurd plus (by decide)
    · exact absurd minus (by decide)
  have unsigned := (trimmed_of_beginsPlain plain).2
  rw [begins, rdropWhile_cons (by decide)] at unsigned
  rw [seconds?, secondsOfText?_eq, unsigned]
  cases bare : endsLikeNumber ('\x7b' :: rest.rdropWhile isBlank) with
  | true =>
      rw [unsignedSeconds?, if_pos bare, readNumber?, readDecimal?_of_opening (.inr rfl), Option.bind_none,
        Option.map_none]
  | false => rw [unsignedSeconds?_eq_none_of_head (by decide) bare, Option.map_none]

end Duration

namespace Rendering

theorem seconds?_pairLiterals_eq_none (entries : List (String × String)) :
    Duration.seconds? (.text (pairLiterals entries)) = none := by
  cases begins : (pairLiterals entries).toList with
  | nil =>
      rw [String.toList_eq_nil_iff.mp begins]
      decide
  | cons first rest =>
      have brace := pairLiterals_head entries first (by rw [begins]; rfl)
      rw [brace] at begins
      exact Duration.seconds?_eq_none_of_brace begins

theorem plainDigits_of_exponent_zero (negative : Bool) (size : ℕ) :
    (⟨negative, size, 0⟩ : Decimal).plainDigits = Nat.toDigits 10 size := by
  rcases Nat.eq_zero_or_pos size with rfl | positive
  · rfl
  · simp [Decimal.plainDigits, positive.ne']

theorem toString_eq_plainText (integer : ℤ) :
    toString integer = Decimal.plainText ⟨integer < 0, integer.natAbs, 0⟩ := by
  rw [Decimal.plainText, plainDigits_of_exponent_zero]
  cases integer with
  | ofNat size =>
      rw [← String.toList_inj, String.toList_ofList]
      exact Nat.toList_repr
  | negSucc before =>
      rw [← String.toList_inj, String.toList_ofList]
      have below : Int.negSucc before < 0 := Int.negSucc_lt_zero before
      change ("-" ++ Nat.repr (before + 1)).toList = _
      rw [String.toList_append, Nat.toList_repr, if_pos (decide_eq_true below)]
      rfl

theorem value_of_integer (integer : ℤ) : (⟨integer < 0, integer.natAbs, 0⟩ : Decimal).value = integer := by
  rw [Decimal.value, Decimal.signedCoefficient, zpow_zero, mul_one]
  rcases lt_or_ge integer 0 with below | above
  · simp [below, abs_of_neg below]
  · simp [above.not_gt, abs_of_nonneg above]

theorem seconds?_labelText_eq_none {float : Float} (unread : Duration.seconds? (.float float) = none) :
    Duration.seconds? (.text (labelText float)) = none := by
  simp only [Duration.seconds?, shortest?] at unread
  rw [labelText]
  cases parts : binaryParts float with
  | undefined =>
      change Duration.seconds? (.text "NaN") = none
      decide
  | infinite negative =>
      change Duration.seconds? (.text (if negative then "-Infinity" else "Infinity")) = none
      cases negative <;> decide
  | finite negative mantissa exponent =>
      rw [parts] at unread
      have outOfRange : ¬ Duration.InRange (shortestDecimal negative mantissa exponent).value := by
        intro inRange
        simp only [Option.bind_some, Duration.accept?_eq, if_pos inRange] at unread
        cases unread
      cases integral : integral? float with
      | none => exact Duration.seconds?_plainText_eq_none outOfRange
      | some integer =>
          simp only [toString_eq_plainText]
          refine Duration.seconds?_plainText_eq_none ?_
          rw [value_of_integer]
          exact fun inRange => outOfRange (Duration.inRange_shortestDecimal parts integral inRange)

/-- What is no duration, and no list, has a scalar text that is no duration. -/
theorem seconds?_scalar_eq_none {tree : Tree} (noList : ∀ items, tree ≠ .list items)
    (unread : Duration.seconds? tree = none) : Duration.seconds? (.text (scalar tree)) = none := by
  cases tree with
  | null => decide
  | bool value => cases value <;> decide
  | integer value =>
      rw [scalar, toString_eq_plainText]
      refine Duration.seconds?_plainText_eq_none fun inRange => ?_
      rw [Duration.seconds?, Duration.accept?_eq, if_pos inRange] at unread
      cases unread
  | float value => exact seconds?_labelText_eq_none unread
  | text value => exact unread
  | list items => exact absurd rfl (noList items)
  | object members => exact seconds?_pairLiterals_eq_none _

theorem seconds?_secondsText {seconds : Decimal} (precise : IsPrecise seconds.value) {again : Decimal}
    (read : Duration.seconds? (.text (secondsText seconds)) = some again) :
    again.negative = seconds.negative ∧ again.value = seconds.value := by
  have begins := toList_secondsText seconds
  have plain := seconds.isPlain_numeral
  have precise : IsPrecise seconds.numeral.number := by
    rw [seconds.number_numeral]
    exact precise.abs
  by_cases inRange : Duration.InRange seconds.numeral.number
  · obtain ⟨found, same, negative, value⟩ := Duration.seconds_of_plain begins plain precise inRange
    obtain rfl := Option.some.inj (same.symm.trans read)
    refine ⟨negative, value.trans ?_⟩
    rw [seconds.number_numeral]
    cases sign : seconds.negative with
    | true => exact (Decimal.value_of_negative sign).symm
    | false => exact (Decimal.value_of_not_negative sign).symm
  · rw [Duration.seconds?_of_plain_eq_none begins plain inRange] at read
    cases read

/-- The text of a duration, or of what was passed through, has itself as its text. -/
theorem duration_idempotent (tree : Tree) (noList : ∀ items, tree ≠ .list items) :
    duration (.text (duration tree)) = duration tree ∧
    ∀ again, Duration.seconds? (.text (duration tree)) = some again →
      ∃ seconds, Duration.seconds? tree = some seconds ∧ seconds.value = again.value := by
  cases read : Duration.seconds? tree with
  | none =>
      have unread := seconds?_scalar_eq_none noList read
      rw [duration_eq_scalar read, duration_eq_scalar unread, unread]
      exact ⟨rfl, nofun⟩
  | some seconds =>
      have precise := Duration.isPrecise_of_seconds? read
      rw [duration_eq_secondsText read]
      cases reread : Duration.seconds? (.text (secondsText seconds)) with
      | none =>
          rw [duration_eq_scalar reread]
          exact ⟨rfl, nofun⟩
      | some again =>
          obtain ⟨signs, same⟩ := seconds?_secondsText precise reread
          rw [duration_eq_secondsText reread]
          refine ⟨(secondsText_eq_iff same).mpr signs, ?_⟩
          rintro _ ⟨⟩
          exact ⟨seconds, rfl, same.symm⟩

/-- The text of an object is a duration of one part. -/
theorem duration_idempotent_seconds_object :
    (∀ items, NinetySeconds.counted ≠ .list items) ∧
      Duration.seconds? (.text (duration NinetySeconds.counted)) = some ⟨false, 90, 0⟩ ∧
      duration (.text (duration NinetySeconds.counted)) = duration NinetySeconds.counted ∧
      ∃ seconds, Duration.seconds? NinetySeconds.counted = some seconds ∧
        seconds.value = (⟨false, 90, 0⟩ : Decimal).value := by
  have noList : ∀ items, NinetySeconds.counted ≠ .list items := nofun
  have read : Duration.seconds? (.text (duration NinetySeconds.counted)) = some ⟨false, 90, 0⟩ := by decide
  obtain ⟨same, understood⟩ := duration_idempotent NinetySeconds.counted noList
  exact ⟨noList, read, same, understood _ read⟩

end Rendering
end MeshGauges
