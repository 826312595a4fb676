import MeshGauges.Proofs.Replica.Course
import MeshGauges.Replica.Script

/-! The stop signal.

A worker shares the signal with everything around it, so it may become set while any question is being
answered. Two things are sure: a look at the signal tells whether it was set, and once set it stays so. -/

set_option autoImplicit false

namespace MeshGauges

variable {σ : Type}

structure StopSignal (around : Surroundings σ) where
  isSet : σ → Prop
  told : ∀ state, (around.stopping state).1 = true ↔ isSet state
  stays : ∀ before after, around.Leads before after → isSet before → isSet after

namespace StopSignal

variable {around : Surroundings σ} (signal : StopSignal around) {state after : σ}

theorem isSet_of_stopping (polled : around.stopping state = (true, after)) : signal.isSet state := by
  rw [← signal.told, polled]

theorem not_isSet_of_stopping (polled : around.stopping state = (false, after)) :
    ¬ signal.isSet state := by
  rw [← signal.told, polled]
  exact Bool.false_ne_true

end StopSignal

/-- The signal of a script, which its entries and the end of it set. -/
def Script.stopSignal : StopSignal Script.surroundings where
  isSet script := script.stopping = true
  told _ := Iff.rfl
  stays before after leads held := by
    cases leads with
    | stopping => exact held
    | clock => exact held
    | list =>
        simp only [surroundings, list]
        split
        · rfl
        · simp [spend, held]
    | watch =>
        simp only [surroundings, watch]
        split
        · rfl
        · simp [spend, held]
    | next =>
        simp only [surroundings, next]
        split
        · exact held
        · simp [held]
    | pause => exact held

theorem Course.isSet_mono (course : Course σ) (signal : StopSignal course.around) {first last : Nat}
    (ordered : first ≤ last) (held : signal.isSet (course.surroundings first)) :
    signal.isSet (course.surroundings last) :=
  course.carries signal.stays ordered held

end MeshGauges
