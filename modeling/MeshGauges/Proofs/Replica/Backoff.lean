import MeshGauges.Proofs.Number.Doubling
import MeshGauges.Proofs.Replica.Discipline

/-! The pauses after failures.

A life counts its failures since the last relist that succeeded. Each stage that holds a delay holds the
first pause doubled that many times, but not beyond the limit (`Delays`), whatever failed: a list request,
a stream, or an event. So the pause after a failure is known from the failures before it, no pause is
longer than the limit, and from failure to failure pauses do not get shorter until a relist succeeds. -/

set_option autoImplicit false

namespace MeshGauges

open MeshGauges.Number

variable {σ : Type}

/-- The failures in a row after an activity; a relist starts the count again. -/
def failuresAfter (failures : ℕ) : Activity → ℕ
  | .relisted => 0
  | .failed _ => failures + 1
  | _ => failures

theorem foldl_failuresAfter_reports (failures : ℕ) (journal : Journal) :
    (journal.map Activity.report).foldl failuresAfter failures = failures := by
  induction journal with
  | nil => rfl
  | cons message journal ih => exact ih

theorem le_foldl_failuresAfter {activities : List Activity} (unlisted : .relisted ∉ activities)
    (failures : ℕ) : failures ≤ activities.foldl failuresAfter failures := by
  induction activities generalizing failures with
  | nil => exact le_refl failures
  | cons activity activities ih =>
      rw [List.mem_cons, not_or] at unlisted
      refine le_trans ?_ (ih unlisted.2 _)
      cases activity with
      | relisted => exact absurd rfl unlisted.1
      | failed fault => exact Nat.le_succ failures
      | _ => exact le_refl failures

theorem Watch.Advances.foldl_failuresAfter {timing : Timing} {around : Surroundings σ}
    {situation later : Situation σ} {stage reached : WatchStage} {added : List Activity}
    (advances : Watch.Advances timing around situation stage added later reached) (failures : ℕ) :
    added.foldl failuresAfter failures = failures := by
  cases advances with
  | applied => exact foldl_failuresAfter_reports failures _
  | _ => rfl

/-- A stage holds the first pause, doubled once for each failure, but not beyond a limit. While a watch goes
on there is no failure to count. -/
inductive LifeStage.Delays (first most : WithTop ℚ) : ℕ → LifeStage → Prop where
  | polling {failures : ℕ} {delay : Float} : Amounts delay (min (twice^[failures] first) most) →
      Delays first most failures (.polling delay)
  | listing {failures : ℕ} {delay : Float} : Amounts delay (min (twice^[failures] first) most) →
      Delays first most failures (.listing delay)
  | watching (stage : WatchStage) : Delays first most 0 (.watching stage)
  | backingOff {failures : ℕ} {delay : Float} : Amounts delay (min (twice^[failures] first) most) →
      Delays first most (failures + 1) (.backingOff delay)
  | finished (failures : ℕ) : Delays first most failures .finished

/-- The first pause and the limit amount to something, and the limit is not below the first pause. -/
structure Timing.Paces (timing : Timing) (first most : WithTop ℚ) : Prop where
  initial : Amounts timing.backoffInitial first
  limit : Amounts timing.backoffMax most
  nonneg : 0 ≤ first
  ordered : first ≤ most

namespace Timing.Paces

variable {timing : Timing} {first most : WithTop ℚ}

theorem of_le (nonneg : 0.0 ≤ timing.backoffInitial) (ordered : timing.backoffInitial ≤ timing.backoffMax) :
    ∃ first most, timing.Paces first most := by
  obtain ⟨first, above, initial⟩ := (Amounts.finite number?_zero).exists_of_le nonneg
  obtain ⟨most, bounded, limit⟩ := initial.exists_of_le ordered
  exact ⟨first, most, initial, limit, above, bounded⟩

theorem amounts_zero (paces : timing.Paces first most) :
    Amounts timing.backoffInitial (min (twice^[0] first) most) := by
  rw [Function.iterate_zero_apply, min_eq_left paces.ordered]
  exact paces.initial

theorem amounts_succ (paces : timing.Paces first most) {failures : ℕ} {delay : Float}
    (amounts : Amounts delay (min (twice^[failures] first) most)) :
    Amounts (Life.nextDelay timing delay) (min (twice^[failures + 1] first) most) := by
  have positive := twice_iterate_nonneg paces.nonneg failures
  have above := paces.nonneg.trans paces.ordered
  rw [Function.iterate_succ_apply', ← min_twice_min above _ positive]
  exact (amounts.double (le_min positive above)).earlier paces.limit

end Timing.Paces

theorem Life.Transition.delays {timing : Timing} {around : Surroundings σ} {situation later : Situation σ}
    {stage reached : LifeStage} {added : List Activity} {first most : WithTop ℚ} {failures : ℕ}
    (transition : Transition timing around situation stage added later reached)
    (paces : timing.Paces first most) (held : stage.Delays first most failures) :
    reached.Delays first most (added.foldl failuresAfter failures) := by
  cases transition with
  | stopped => exact .finished _
  | asked =>
      cases held with
      | polling amounts => exact .listing amounts
  | unanswered => exact held
  | relisted => exact .watching _
  | advanced advances =>
      rw [advances.foldl_failuresAfter]
      cases held with
      | watching => exact .watching _
  | returned =>
      cases held with
      | watching => exact .polling paces.amounts_zero
  | failed fails =>
      cases fails with
      | denied =>
          cases held with
          | listing amounts => exact .backingOff amounts
      | malformed =>
          cases held with
          | listing amounts => exact .backingOff amounts
      | watch =>
          cases held with
          | watching => exact .backingOff paces.amounts_zero
  | backedOff =>
      cases held with
      | backingOff amounts => exact .polling (paces.amounts_succ amounts)
  | finished => exact held

/-- A pause is the first one, doubled once for each failure before it, or the limit where that is shorter. A
limit that is infinite leaves it to the floats how far doubling goes. -/
structure Timing.IsWait (timing : Timing) (failures : ℕ) (seconds : Float) : Prop where
  capped : ∀ first most, number? timing.backoffInitial = some first →
    number? timing.backoffMax = some most → number? seconds = some (min (first * 2 ^ failures) most)
  unlimited : ∀ first, number? timing.backoffInitial = some first → IsInfinite timing.backoffMax →
    first * 2 ^ failures < 2 ^ 1024 → number? seconds = some (first * 2 ^ failures)
  infinite : IsInfinite timing.backoffMax →
    (∀ first, number? timing.backoffInitial = some first → 2 ^ 1024 ≤ first * 2 ^ failures) →
    IsInfinite seconds

theorem Timing.Paces.isWait {timing : Timing} {first most : WithTop ℚ} (paces : timing.Paces first most)
    {failures : ℕ} {seconds : Float} (amounts : Amounts seconds (min (twice^[failures] first) most)) :
    timing.IsWait failures seconds := by
  obtain ⟨initial, limit, nonneg, _⟩ := paces
  constructor
  · intro number bound stands bounded
    obtain rfl := initial.eq_coe stands
    obtain rfl := limit.eq_coe bounded
    rw [twice_iterate_coe (WithTop.coe_nonneg.mp nonneg) (lt_of_number? stands)] at amounts
    split at amounts
    · rw [← WithTop.coe_min] at amounts
      exact amounts.number?_eq
    · rename_i large
      rw [min_eq_right le_top] at amounts
      rw [min_eq_right ((lt_of_number? bounded).le.trans (not_lt.mp large))]
      exact amounts.number?_eq
  · intro number stands infinite small
    obtain rfl := initial.eq_coe stands
    obtain rfl := limit.eq_top infinite
    rw [min_eq_left le_top, twice_iterate_coe (WithTop.coe_nonneg.mp nonneg) (lt_of_number? stands),
      if_pos small] at amounts
    exact amounts.number?_eq
  · intro infinite large
    obtain rfl := limit.eq_top infinite
    rw [min_eq_left le_top] at amounts
    cases initial with
    | infinite =>
        rw [twice_iterate_top] at amounts
        exact amounts.isInfinite
    | finite stands =>
        rw [twice_iterate_coe (WithTop.coe_nonneg.mp nonneg) (lt_of_number? stands),
          if_neg (not_lt.mpr (large _ stands))] at amounts
        exact amounts.isInfinite

namespace Course

/-- The failures since the last relist that succeeded, or since the beginning. -/
def failures (course : Course σ) (steps : ℕ) : ℕ := (course.history steps).foldl failuresAfter 0

variable {course : Course σ} {first most : WithTop ℚ} {steps : ℕ}

theorem failures_succ (course : Course σ) (steps : ℕ) :
    course.failures (steps + 1) =
      (course.between steps (steps + 1)).foldl failuresAfter (course.failures steps) := by
  rw [failures, history_succ, List.foldl_append, failures]

theorem delays (paces : course.timing.Paces first most) (steps : ℕ) :
    (course.stage steps).Delays first most (course.failures steps) := by
  induction steps with
  | zero => exact .polling paces.amounts_zero
  | succ steps ih =>
      rw [failures_succ]
      exact (course.transition steps).delays paces ih

theorem failures_of_failsAt (fails : course.FailsAt steps) :
    course.failures (steps + 1) = course.failures steps + 1 := by
  obtain ⟨fault, message, recorded⟩ := between_of_failsAt fails
  rw [failures_succ, recorded]
  rfl

/-- The pause after a failure is determined by the number of failures before it. -/
theorem pause_of_failsAt (paces : course.timing.Paces first most) (fails : course.FailsAt steps) :
    ∃ seconds, course.between (steps + 1) (steps + 2) = [.pause seconds] ∧
      Amounts seconds (min (twice^[course.failures steps] first) most) := by
  obtain ⟨⟨delay, backing⟩, _⟩ := after_failure fails
  have delays := course.delays paces (steps + 1)
  rw [failures_of_failsAt fails, backing] at delays
  cases delays with
  | backingOff amounts => exact ⟨delay, (backing_off backing).2.1, amounts⟩

theorem failures_mono {last : ℕ} (ordered : steps ≤ last)
    (unlisted : ∀ between, steps ≤ between → between < last → ¬ course.Does between .relisted) :
    course.failures steps ≤ course.failures last := by
  induction ordered with
  | refl => exact le_refl _
  | @step last ordered ih =>
      rw [failures_succ]
      exact (ih fun between after before => unlisted between after (Nat.lt_succ_of_lt before)).trans
        (le_foldl_failuresAfter (unlisted last ordered (Nat.lt_succ_self last)) _)

/-- The pauses of a life after its failures: what each amounts to, and how they grow. -/
structure BacksOff (course : Course σ) : Prop where
  waits : ∀ steps, course.FailsAt steps →
    ∃ seconds, course.between (steps + 1) (steps + 2) = [.pause seconds] ∧
      course.timing.IsWait (course.failures steps) seconds ∧ seconds ≤ course.timing.backoffMax
  grows : ∀ sooner later, sooner ≤ later → course.FailsAt sooner → course.FailsAt later →
    (∀ between, sooner < between → between < later → ¬ course.Does between .relisted) →
    ∀ short long, course.between (sooner + 1) (sooner + 2) = [.pause short] →
      course.between (later + 1) (later + 2) = [.pause long] → short ≤ long

theorem backsOff (nonneg : 0.0 ≤ course.timing.backoffInitial)
    (ordered : course.timing.backoffInitial ≤ course.timing.backoffMax) : course.BacksOff := by
  obtain ⟨first, most, paces⟩ := Timing.Paces.of_le nonneg ordered
  constructor
  · intro steps fails
    obtain ⟨seconds, recorded, amounts⟩ := pause_of_failsAt paces fails
    exact ⟨seconds, recorded, paces.isWait amounts, (amounts.le_iff paces.limit).mpr (min_le_right _ _)⟩
  · intro sooner later before fails failsAgain unlisted short long shortPause longPause
    obtain ⟨_, recorded, amounts⟩ := pause_of_failsAt paces fails
    obtain ⟨_, recordedAgain, amountsAgain⟩ := pause_of_failsAt paces failsAgain
    cases recorded.symm.trans shortPause
    cases recordedAgain.symm.trans longPause
    have grown : course.failures sooner ≤ course.failures later := by
      refine failures_mono before fun between after earlier => ?_
      rcases after.lt_or_eq with after | rfl
      · exact unlisted between after earlier
      · exact not_relisted_of_failsAt fails
    refine (amounts.le_iff amountsAgain).mpr (min_le_min_right most ?_)
    exact twice_iterate_le paces.nonneg grown

end Course

/-! The second of two failures in a row is followed by a pause that the limit cuts short. -/

namespace DeniedTwice

def script : Script where
  lists := [{ answer := .error (.unreachable "") }, { answer := .error (.unreachable "") }]
  streams := []

def course : Course Script :=
  .ofNew { backoffInitial := 1.0, backoffMax := 1.5 } Script.surroundings .virtualService "mesh" script

theorem backs_off : 0.0 ≤ course.timing.backoffInitial ∧
    course.timing.backoffInitial ≤ course.timing.backoffMax ∧ course.BacksOff ∧
    course.FailsAt 4 ∧ course.failures 4 = 1 ∧ course.between 5 6 = [.pause 1.5] := by
  have nonneg : (0.0 : Float) ≤ 1.0 := by decide
  have ordered : (1.0 : Float) ≤ 1.5 := by decide
  exact ⟨nonneg, ordered, course.backsOff nonneg ordered, ⟨_, _, _, .denied rfl⟩, rfl, rfl⟩

end DeniedTwice

end MeshGauges
