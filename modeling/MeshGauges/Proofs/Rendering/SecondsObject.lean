import MeshGauges.Proofs.Duration.BareNumber
import MeshGauges.Proofs.Rendering.Duration

/-! Objects as durations.

An object is a duration of so many seconds and nanos, each read from the text of its member. A member that
counts as missing stands for zero, whatever it is and whether or not it is there, so an object that has
neither member is a duration of zero seconds. Any other member that is no number in range makes the object
one that is passed through, as the literals of its members. -/

set_option autoImplicit false

namespace MeshGauges

open Number Text

namespace Duration

/-- The members that the seconds of an object are read from. -/
def measuredMembers : List String := ["seconds", "nanos"]

/-- Whether a tree is of a kind that stands for a number: null, a number or a decimal numeral. -/
inductive IsNumeric : Tree → Prop where
  | null : IsNumeric .null
  | integer (value : ℤ) : IsNumeric (.integer value)
  | float (value : Float) : IsNumeric (.float value)
  | text {text : String} {written : WrittenDecimal} :
      written.IsWrittenIn text.toList → IsNumeric (.text text)

/-- Whether a member does not count as missing and has no text that is a number in range. -/
def Refuses (tree : Tree) : Prop :=
  tree.isVacant = false ∧
    ∀ written : WrittenDecimal, written.IsWrittenIn tree.asText.toList → ¬ InRange written.number

variable {tree : Tree} {members : List (String × Tree)}

theorem memberNumber?_of_isVacant (vacant : tree.isVacant = true) : memberNumber? tree = some .zero := by
  rw [memberNumber?, Tree.orElse, if_pos vacant]
  decide

theorem memberNumber?_eq_none_iff : memberNumber? tree = none ↔ Refuses tree := by
  cases vacant : tree.isVacant with
  | true => simp [memberNumber?_of_isVacant vacant, Refuses, vacant]
  | false =>
      rw [memberNumber?, Tree.orElse, vacant, if_neg Bool.false_ne_true, readNumber?_eq_none_iff]
      exact (and_iff_right vacant).symm

theorem seconds?_object_eq_none_iff :
    seconds? (.object members) = none ↔
      ∃ name ∈ measuredMembers, Refuses ((Tree.object members).member name) := by
  simp only [measuredMembers, List.mem_cons, List.not_mem_nil, or_false, exists_eq_or_imp, exists_eq_left,
    ← memberNumber?_eq_none_iff, seconds?]
  cases memberNumber? ((Tree.object members).member "seconds") with
  | none => simp
  | some seconds => cases memberNumber? ((Tree.object members).member "nanos") <;> simp

/-- What is of another kind than numbers is refused unless it counts as missing. -/
theorem refuses_iff_of_not_isNumeric (foreign : ¬ IsNumeric tree) :
    Refuses tree ↔ tree.isVacant = false := by
  refine ⟨And.left, fun present => ?_⟩
  rw [← memberNumber?_eq_none_iff, memberNumber?, Tree.orElse, present, if_neg Bool.false_ne_true]
  cases tree with
  | null => exact absurd .null foreign
  | integer value => exact absurd (.integer value) foreign
  | float value => exact absurd (.float value) foreign
  | bool value =>
      cases value with
      | true => decide
      | false => cases present
  | text text =>
      rw [readNumber?_eq_none_iff]
      intro written isWritten
      exact absurd (.text isWritten) foreign
  | list items => exact readNumber?_list items
  | object members => exact readNumber?_object members

theorem seconds?_of_vacant_members
    (vacant : ∀ name ∈ measuredMembers, ((Tree.object members).member name).isVacant = true) :
    seconds? (.object members) = some ⟨false, 0, -9⟩ := by
  rw [seconds?, memberNumber?_of_isVacant (vacant "seconds" (by decide)),
    memberNumber?_of_isVacant (vacant "nanos" (by decide))]
  decide

end Duration

namespace Rendering

open Duration

/-- The text of a number of seconds begins with a sign or a digit, and that of an object with a brace. -/
theorem secondsText_ne_pairLiterals (seconds : Decimal) (entries : List (String × String)) :
    secondsText seconds ≠ pairLiterals entries := by
  intro same
  have plain := seconds.isPlain_numeral.isWellFormed
  let part : WrittenPart := ⟨seconds.numeral, .s⟩
  obtain ⟨digit, opens, begins⟩ : ∃ first, (part.characters ++ []).head? = some first ∧
      (isDigit first = true ∨ first = '.') := head?_characters plain []
  have opens : (seconds.numeral.characters ++ ['s']).head? = some digit := by
    rwa [List.append_nil] at opens
  have brace := pairLiterals_head entries
  rw [← same, toList_secondsText] at brace
  cases minus : seconds.negative with
  | true => exact absurd (brace '-' (by rw [minus]; rfl)) (by decide)
  | false =>
      obtain rfl := brace digit (by rwa [minus])
      exact absurd begins (by decide)

/-- How an object is rendered where a duration is expected. -/
structure ObjectRules (members : List (String × Tree)) : Prop where
  refused_iff : seconds? (.object members) = none ↔
    ∃ name ∈ measuredMembers, Refuses ((Tree.object members).member name)
  passed_iff : duration (.object members) = pairs (.object members) ↔
    ∃ name ∈ measuredMembers, Refuses ((Tree.object members).member name)
  /-- What is of another kind than numbers is refused, but for what counts as missing. -/
  foreign : ∀ name ∈ measuredMembers, ¬ IsNumeric ((Tree.object members).member name) →
    (Refuses ((Tree.object members).member name) ↔ ((Tree.object members).member name).isVacant = false)
  /-- Members that count as missing are a duration, be there others or not. -/
  vacant : (∀ name ∈ measuredMembers, ((Tree.object members).member name).isVacant = true) →
    duration (.object members) = "0s"

/-- An object is passed through exactly where one of its two members is refused. -/
theorem objectRules (members : List (String × Tree)) : ObjectRules members := by
  refine ⟨seconds?_object_eq_none_iff, ?_, fun name _ => refuses_iff_of_not_isNumeric, ?_⟩
  · rw [← seconds?_object_eq_none_iff]
    cases read : seconds? (.object members) with
    | none => exact iff_of_true (duration_eq_scalar read) rfl
    | some seconds =>
        rw [duration_eq_secondsText read]
        exact iff_of_false (secondsText_ne_pairLiterals _ _) (Option.some_ne_none _)
  · intro vacant
    rw [duration_eq_secondsText (seconds?_of_vacant_members vacant)]
    decide

/-- An object that has neither member, and one whose member is a truth value, are durations of zero. -/
theorem unrelated_objects_are_zero :
    duration (.object [("a", .text "b")]) = "0s" ∧
      pairs (.object [("a", .text "b")]) = "\x7bkey:a,value:b\x7d" ∧
      ¬ IsNumeric (.bool false) ∧ duration (.object [("seconds", .bool false)]) = "0s" ∧
      pairs (.object [("seconds", .bool false)]) = "\x7bkey:seconds,value:false\x7d" :=
  ⟨by decide, by cbv, nofun, by decide, by cbv⟩

end Rendering
end MeshGauges
