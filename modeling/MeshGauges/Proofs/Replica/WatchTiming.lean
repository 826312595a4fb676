import MeshGauges.Proofs.Number.Truncation
import MeshGauges.Proofs.Number.Undefined
import MeshGauges.Proofs.Replica.Transition

/-! The times that a watch works out.

Where the clock reads finite times, the deadline of a watch and the time left are numbers exactly when
the resync period is one. Then every request gets a timeout within its limits, and nothing that the
watch works out itself can fail. A period that is no number fails the first time that the time left is
worked out, before any request. -/

set_option autoImplicit false

namespace MeshGauges

open MeshGauges.Number

variable {σ : Type}

theorem wholeSeconds_of_truncate? {value : Float} {whole : Int} (cut : truncate? value = some whole) :
    wholeSeconds value = .ok (max 1 whole) := by
  rw [wholeSeconds, cut]

theorem requestTimeout_of_positive {remaining limit : Float} {whole : Int}
    (defined : remaining.isNaN = false) (above : ¬ remaining ≤ 0.0)
    (cut : truncate? limit = some whole) :
    ∃ seconds, requestTimeout remaining (.float limit) = .ok seconds ∧ 1 ≤ seconds ∧
      seconds ≤ max 1 whole := by
  have positive := positive_of_not_le defined above
  rw [requestTimeout, earlier]
  split
  · exact ⟨_, wholeSeconds_of_truncate? cut, le_max_left _ _, le_refl _⟩
  · rename_i notBelow
    obtain ⟨part, short, bounded⟩ := truncate?_le_of_not_lt positive cut notBelow
    exact ⟨_, wholeSeconds_of_truncate? short, le_max_left _ _, max_le_max_left 1 bounded⟩

theorem requestTimeout_of_isNaN {remaining : Float} (undefined : remaining.isNaN = true)
    (limit : Span) : requestTimeout remaining limit = .error .timeoutUndefined := by
  have parts := binaryParts_of_isNaN undefined
  have unlimited : wholeSeconds remaining = .error .timeoutUndefined := by
    rw [wholeSeconds, truncate?, parts]
  cases limit with
  | whole seconds => rw [requestTimeout, isBelow, parts, if_neg Bool.false_ne_true, unlimited]
  | float seconds => rw [requestTimeout, earlier, if_neg (not_lt_of_isNaN undefined _), unlimited]

namespace WatchStage

def deadline? : WatchStage → Option Float
  | .polling deadline => some deadline
  | .measuring deadline => some deadline
  | .streaming deadline _ _ => some deadline
  | .delivering deadline _ _ => some deadline
  | .pausing deadline _ => some deadline
  | _ => none

/-- A deadline is a number exactly when the period is one. -/
def Agrees (stage : WatchStage) (period : Float) : Prop :=
  ∀ deadline ∈ stage.deadline?, deadline.isNaN = period.isNaN

/-- The stages at which a watch works out a time: its deadline, or the time left and a timeout. -/
inductive ComputesTime : WatchStage → Prop where
  | dating : ComputesTime .dating
  | measuring (deadline : Float) : ComputesTime (.measuring deadline)

end WatchStage

namespace Watch

/-- The next answer of the clock is a finite time. -/
def Ticks (around : Surroundings σ) (situation : Situation σ) : Prop :=
  (around.clock situation.surroundings).1.isFinite = true

theorem Ticks.isFinite {around : Surroundings σ} {situation : Situation σ} {now : Float} {after : σ}
    (ticks : Ticks around situation) (read : around.clock situation.surroundings = (now, after)) :
    now.isFinite = true := by
  rw [Ticks, read] at ticks
  exact ticks

variable {timing : Timing} {around : Surroundings σ} {situation later : Situation σ}
  {stage reached : WatchStage} {added : List Activity} {period limit : Float} {whole : Int}

theorem Advances.agrees (periodic : timing.resyncPeriod = .float period)
    (ticks : Ticks around situation) (agreed : stage.Agrees period)
    (advances : Advances timing around situation stage added later reached) :
    reached.Agrees period := by
  cases advances with
  | dated read rounded =>
      rw [periodic] at rounded
      cases rounded
      intro deadline reached
      cases reached
      exact isNaN_add (ticks.isFinite read) period
  | _ => exact agreed

theorem Advances.history_eq (advances : Advances timing around situation stage added later reached) :
    later.history = situation.history ++ added := by
  cases advances <;> simp

theorem Advances.ne_raised (advances : Advances timing around situation stage added later reached)
    (fault : Fault) : reached ≠ .raised fault := by
  cases advances <;> exact nofun

theorem step_agrees (periodic : timing.resyncPeriod = .float period)
    (ticks : Ticks around situation) (agreed : stage.Agrees period) :
    (step timing around situation stage).2.Agrees period := by
  cases step_outcome timing around situation stage with
  | advances advances => exact advances.agrees periodic ticks agreed
  | returns _ result =>
      rw [result]
      exact nofun
  | raises _ result =>
      rw [result]
      exact nofun

/-- Where the period is a number, the time left makes a timeout whenever there is any. -/
private theorem timeout_of_defined {deadline now : Float} (defined : period.isNaN = false)
    (limited : timing.watchTimeout = .float limit) (cut : truncate? limit = some whole)
    (agreed : (WatchStage.measuring deadline).Agrees period) (finite : now.isFinite = true)
    (left : ¬ deadline - now ≤ 0.0) :
    ∃ seconds, requestTimeout (deadline - now) timing.watchTimeout = .ok seconds ∧ 1 ≤ seconds ∧
      seconds ≤ max 1 whole := by
  have measured : (deadline - now).isNaN = false := by
    rw [isNaN_sub deadline finite, agreed deadline rfl, defined]
  rw [limited]
  exact requestTimeout_of_positive measured left cut

theorem Advances.timeout_bounds (defined : period.isNaN = false)
    (limited : timing.watchTimeout = .float limit) (cut : truncate? limit = some whole)
    (ticks : Ticks around situation) (agreed : stage.Agrees period)
    (advances : Advances timing around situation stage added later reached)
    {space version : String} {seconds : Int} (asked : .watch space version seconds ∈ added) :
    1 ≤ seconds ∧ seconds ≤ max 1 whole := by
  cases advances with
  | opened read left timed =>
      obtain ⟨known, timedKnown, bounds⟩ :=
        timeout_of_defined defined limited cut agreed (ticks.isFinite read) left
      rw [timed] at timedKnown
      cases timedKnown
      cases List.mem_singleton.mp asked
      exact bounds
  | _ => simp at asked

theorem step_ne_raised (periodic : timing.resyncPeriod = .float period)
    (defined : period.isNaN = false) (limited : timing.watchTimeout = .float limit)
    (cut : truncate? limit = some whole) (ticks : Ticks around situation)
    (agreed : stage.Agrees period) (computes : stage.ComputesTime) (fault : Fault) :
    (step timing around situation stage).2 ≠ .raised fault := by
  cases step_outcome timing around situation stage with
  | advances advances => exact advances.ne_raised fault
  | returns _ result =>
      rw [result]
      exact nofun
  | raises raises _ =>
      cases raises with
      | undatable _ unrounded =>
          rw [periodic] at unrounded
          cases unrounded
      | untimed read left timed =>
          obtain ⟨known, timedKnown, _⟩ :=
            timeout_of_defined defined limited cut agreed (ticks.isFinite read) left
          rw [timed] at timedKnown
          cases timedKnown
      | _ => cases computes

/-- Where the period is no number, there is no time left and no timeout, and nothing is asked for. -/
theorem not_watch_of_undefined (undefined : period.isNaN = true) (ticks : Ticks around situation)
    (agreed : stage.Agrees period)
    (advances : Advances timing around situation stage added later reached)
    (space version : String) (seconds : Int) : .watch space version seconds ∉ added := by
  cases advances with
  | @opened deadline now _ _ read left timed =>
      have measured : (deadline - now).isNaN = true := by
        rw [isNaN_sub deadline (ticks.isFinite read), agreed deadline rfl, undefined]
      rw [requestTimeout_of_isNaN measured] at timed
      cases timed
  | _ => simp

theorem step_measuring_of_undefined (undefined : period.isNaN = true)
    (ticks : Ticks around situation) {deadline : Float}
    (agreed : (WatchStage.measuring deadline).Agrees period) :
    (step timing around situation (.measuring deadline)).2 = .raised .timeoutUndefined := by
  cases read : around.clock situation.surroundings with
  | mk now after =>
      have measured : (deadline - now).isNaN = true := by
        rw [isNaN_sub deadline (ticks.isFinite read), agreed deadline rfl, undefined]
      simp only [step, read, openStream]
      rw [if_neg (not_le_of_isNaN measured 0.0), requestTimeout_of_isNaN measured]

theorem run_succ (timing : Timing) (around : Surroundings σ) (steps : Nat) (situation : Situation σ)
    (stage : WatchStage) :
    run timing around (steps + 1) situation stage =
      step timing around (run timing around steps situation stage).1
        (run timing around steps situation stage).2 := by
  induction steps generalizing situation stage with
  | zero => rfl
  | succ steps ih =>
      exact ih (step timing around situation stage).1 (step timing around situation stage).2

/-- The requests that a watch has made from its beginning on all have timeouts of a kind. -/
def Requests (timing : Timing) (around : Surroundings σ) (situation : Situation σ)
    (allowed : Int → Prop) : Prop :=
  ∀ steps, ∃ added, (run timing around steps situation .dating).1.history = situation.history ++ added ∧
    ∀ space version seconds, .watch space version seconds ∈ added → allowed seconds

/-- What a watch works out itself never fails, and its requests have timeouts within limits. -/
structure KeepsTime (timing : Timing) (around : Surroundings σ) (situation : Situation σ)
    (greatest : Int) : Prop where
  computes : ∀ steps fault, (run timing around steps situation .dating).2.ComputesTime →
    (run timing around (steps + 1) situation .dating).2 ≠ .raised fault
  requests : Requests timing around situation fun seconds => 1 ≤ seconds ∧ seconds ≤ greatest

/-- A watch fails as soon as it works out the time left, and makes no request. -/
structure LosesTime (timing : Timing) (around : Surroundings σ) (situation : Situation σ) : Prop where
  raises : ∀ steps deadline, (run timing around steps situation .dating).2 = .measuring deadline →
    (run timing around (steps + 1) situation .dating).2 = .raised .timeoutUndefined
  requests : Requests timing around situation fun _ => False

section Run

variable (periodic : timing.resyncPeriod = .float period)
  (ticks : ∀ steps, Ticks around (run timing around steps situation .dating).1)

include periodic ticks

theorem run_agrees (steps : Nat) : (run timing around steps situation .dating).2.Agrees period := by
  induction steps with
  | zero => exact nofun
  | succ steps ih =>
      rw [run_succ]
      exact step_agrees periodic (ticks steps) ih

theorem requests_of_steps {allowed : Int → Prop}
    (steady : ∀ {situation later : Situation σ} {stage reached : WatchStage} {added : List Activity},
      Ticks around situation → stage.Agrees period →
      Advances timing around situation stage added later reached →
      ∀ space version seconds, .watch space version seconds ∈ added → allowed seconds) :
    Requests timing around situation allowed := by
  intro steps
  induction steps with
  | zero => exact ⟨[], by simp [run], by simp⟩
  | succ steps ih =>
      obtain ⟨before, grown, held⟩ := ih
      have agreed := run_agrees periodic ticks steps
      rw [run_succ]
      cases step_outcome timing around (run timing around steps situation .dating).1
          (run timing around steps situation .dating).2 with
      | advances advances =>
          refine ⟨before ++ _, by rw [advances.history_eq, grown, List.append_assoc], ?_⟩
          intro space version seconds asked
          rcases List.mem_append.mp asked with earlier | last
          · exact held space version seconds earlier
          · exact steady (ticks steps) agreed advances space version seconds last
      | returns _ result =>
          rw [result]
          exact ⟨before, grown, held⟩
      | raises _ result =>
          rw [result]
          exact ⟨before, grown, held⟩

theorem keepsTime (defined : period.isNaN = false) (limited : timing.watchTimeout = .float limit)
    (cut : truncate? limit = some whole) : KeepsTime timing around situation (max 1 whole) where
  computes steps fault computes := by
    rw [run_succ]
    exact step_ne_raised periodic defined limited cut (ticks steps) (run_agrees periodic ticks steps)
      computes fault
  requests := requests_of_steps periodic ticks fun ticks agreed advances _ _ _ asked =>
    advances.timeout_bounds defined limited cut ticks agreed asked

theorem losesTime (undefined : period.isNaN = true) : LosesTime timing around situation where
  raises steps deadline measuring := by
    have agreed := run_agrees periodic ticks steps
    rw [run_succ]
    rw [measuring] at agreed ⊢
    exact step_measuring_of_undefined undefined (ticks steps) agreed
  requests := requests_of_steps periodic ticks fun ticks agreed advances space version seconds asked =>
    not_watch_of_undefined undefined ticks agreed advances space version seconds asked

end Run

end Watch

end MeshGauges
