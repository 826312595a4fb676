import Mathlib.Data.List.Basic

/-! Computations that can be refused.

A sequence of computations succeeds when each of them does, and a fold succeeds when every step does. What
every step keeps, a fold keeps. -/

set_option autoImplicit false

namespace MeshGauges

variable {ε α β : Type}

section Sequence

variable {computation : Except ε α}

theorem bind_eq_ok_iff {next : α → Except ε β} {result : β} :
    computation >>= next = .ok result ↔ ∃ value, computation = .ok value ∧ next value = .ok result := by
  constructor
  · intro succeeded
    cases computation with
    | error => cases succeeded
    | ok value => exact ⟨value, rfl, succeeded⟩
  · rintro ⟨value, rfl, succeeded⟩
    exact succeeded

theorem map_eq_ok_iff {f : α → β} {result : β} :
    computation.map f = .ok result ↔ ∃ value, computation = .ok value ∧ f value = result := by
  cases computation with
  | error => simp [Except.map]
  | ok value => simp [Except.map]

theorem map_injective {f : α → β} {other : Except ε α} (injective : Function.Injective f)
    (same : f <$> computation = f <$> other) : computation = other := by
  cases computation with
  | error =>
      cases other with
      | error => cases same; rfl
      | ok => cases same
  | ok value =>
      cases other with
      | error => cases same
      | ok => exact congrArg _ (injective (Except.ok.inj same))

end Sequence

section Fold

variable {step : β → α → Except ε β} {items seen : List α} {state final : β}

/-- A fold keeps what every step keeps of the state and the items so far. -/
theorem foldlM_keeps {Keeps : β → List α → Prop}
    (keeps : ∀ {state seen item next}, Keeps state seen → step state item = .ok next →
      Keeps next (seen ++ [item]))
    (start : Keeps state seen) (folded : items.foldlM step state = .ok final) :
    Keeps final (seen ++ items) := by
  induction items generalizing state seen with
  | nil =>
      cases folded
      rwa [List.append_nil]
  | cons item rest ih =>
      rw [List.foldlM_cons] at folded
      obtain ⟨next, first, others⟩ := bind_eq_ok_iff.mp folded
      have kept := ih (keeps start first) others
      rwa [List.append_assoc, List.singleton_append] at kept

theorem foldlM_eq_ok (succeeds : ∀ item ∈ items, ∀ state, ∃ next, step state item = .ok next) (state : β) :
    ∃ final, items.foldlM step state = .ok final := by
  induction items generalizing state with
  | nil => exact ⟨state, rfl⟩
  | cons item rest ih =>
      obtain ⟨first, others⟩ := List.forall_mem_cons.mp succeeds
      obtain ⟨next, taken⟩ := first state
      rw [List.foldlM_cons, taken]
      exact ih others next

end Fold
end MeshGauges
