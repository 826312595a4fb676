import MeshGauges.Proofs.Duration.Parts
import MeshGauges.Proofs.Number.Grammar

/-! Bare numbers of seconds.

A bare number is read where it is a decimal numeral of a number in range, and only there. -/

set_option autoImplicit false

namespace MeshGauges.Duration

open MeshGauges.Number

variable {text : List Char}

/-- What is written is accepted where its number is in range. -/
theorem accept?_decimal (written : WrittenDecimal) :
    accept? written.decimal = if InRange written.number then some (accepted written.decimal) else none := by
  rw [accept?_eq, written.value_decimal]

theorem readNumber?_eq_some_iff {seconds : Decimal} :
    readNumber? text = some seconds ↔ ∃ written : WrittenDecimal, written.IsWrittenIn text ∧
      InRange written.number ∧ accepted written.decimal = seconds := by
  rw [readNumber?, Option.bind_eq_some_iff]
  constructor
  · rintro ⟨decimal, read, accepts⟩
    obtain ⟨written, isWritten, rfl⟩ := readDecimal?_eq_some_iff.mp read
    rw [accept?_decimal] at accepts
    split at accepts
    · next inRange => exact ⟨written, isWritten, inRange, Option.some.inj accepts⟩
    · cases accepts
  · rintro ⟨written, isWritten, inRange, rfl⟩
    refine ⟨written.decimal, readDecimal?_eq_some_iff.mpr ⟨written, isWritten, rfl⟩, ?_⟩
    rw [accept?_decimal, if_pos inRange]

theorem readNumber?_eq_none_iff :
    readNumber? text = none ↔
      ∀ written : WrittenDecimal, written.IsWrittenIn text → ¬ InRange written.number := by
  rw [Option.eq_none_iff_forall_ne_some]
  constructor
  · intro unread written isWritten inRange
    exact unread _ (readNumber?_eq_some_iff.mpr ⟨written, isWritten, inRange, rfl⟩)
  · intro refused seconds read
    obtain ⟨written, isWritten, inRange, -⟩ := readNumber?_eq_some_iff.mp read
    exact refused written isWritten inRange

end MeshGauges.Duration
