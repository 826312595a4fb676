import MeshGauges.Proofs.Replica.WatchTiming
import MeshGauges.Proofs.Settings.Loading
import MeshGauges.Replica.Group
import MeshGauges.Settings.Basic

/-! What the resync period of accepted settings does to a watch.

Settings are refused when their period is at most zero. What is not a number compares with nothing, so
it is accepted as well; every other accepted period is above zero and keeps a watch in time. -/

set_option autoImplicit false

namespace MeshGauges.Settings

open MeshGauges.Number

def timing (settings : Settings) : Timing := { resyncPeriod := .float settings.resyncPeriod }

theorem validate_of_load {text? : Setting → Option String} {settings : Settings}
    (accepted : load text? = .ok settings) : settings.validate = .ok () := by
  obtain ⟨read, _, accepted⟩ := bind_eq_ok_iff.mp accepted
  obtain ⟨_, valid, same⟩ := bind_eq_ok_iff.mp accepted
  cases same
  exact valid

theorem not_le_of_validate {settings : Settings} (valid : settings.validate = .ok ()) :
    ¬ settings.resyncPeriod ≤ 0.0 :=
  (validate_eq_ok_iff.mp valid).1

/-- An accepted period is above zero or no number. In the first case every watch computes its deadline,
the time left and its timeouts without a failure and makes its requests for one to sixty seconds; in the
second case every watch fails before it makes a request. -/
theorem watch_of_load {text? : Setting → Option String} {settings : Settings}
    (accepted : load text? = .ok settings) :
    (0.0 < settings.resyncPeriod ↔ settings.resyncPeriod.isNaN = false) ∧
      ∀ {σ : Type} (around : Surroundings σ) (situation : Situation σ),
        (∀ steps, Watch.Ticks around (Watch.run settings.timing around steps situation .dating).1) →
        (0.0 < settings.resyncPeriod → Watch.KeepsTime settings.timing around situation 60) ∧
        (settings.resyncPeriod.isNaN = true → Watch.LosesTime settings.timing around situation) := by
  have above := not_le_of_validate (validate_of_load accepted)
  have positive_iff : 0.0 < settings.resyncPeriod ↔ settings.resyncPeriod.isNaN = false := by
    constructor
    · intro positive
      cases undefined : settings.resyncPeriod.isNaN with
      | false => rfl
      | true => exact absurd positive (not_lt_of_isNaN undefined 0.0)
    · intro defined
      exact zero_lt_of_positive (positive_of_not_le defined above)
  refine ⟨positive_iff, fun around situation ticks => ⟨?_, ?_⟩⟩
  · intro positive
    have sixty : truncate? 60.0 = some 60 := rfl
    exact Watch.keepsTime rfl ticks (positive_iff.mp positive) rfl sixty
  · intro undefined
    exact Watch.losesTime rfl ticks undefined

/-! A watch of a new worker whose streams are empty, under the default settings and under a period that
is no number. -/

namespace IdleWatch

def situation : Situation Bool := ⟨{ kind := .destinationRule, space := "" }, false, []⟩

def undefinedPeriod : SettingSources := { environment := [("RESYNC_PERIOD_SECONDS", "nan")] }

theorem keepsTime_by_default :
    load (fun _ => none) = .ok {} ∧
      Watch.KeepsTime (timing {}) (Group.surroundings none) situation 60 := by
  have accepted : load (fun _ => none) = .ok {} := rfl
  have ticks : ∀ steps, Watch.Ticks (Group.surroundings none)
      (Watch.run (timing {}) (Group.surroundings none) steps situation .dating).1 :=
    fun _ => (rfl : Float.isFinite 0.0 = true)
  have watched := (watch_of_load accepted).2 (Group.surroundings none) situation ticks
  exact ⟨accepted, watched.1 (by decide)⟩

/-- An accepted period need not be above zero, and a watch with it fails. -/
theorem undefined_period_accepted :
    ∃ settings, load undefinedPeriod.resolve = .ok settings ∧ ¬ 0.0 < settings.resyncPeriod ∧
      (Watch.run (timing settings) (Group.surroundings none) 3 situation .dating).2 =
        .raised .timeoutUndefined :=
  ⟨_, rfl, by decide, rfl⟩

end IdleWatch
end MeshGauges.Settings
