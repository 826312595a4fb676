import MeshGauges.Proofs.Replica.Session
import MeshGauges.Replica.Script

/-! How late a watch makes room for the next listing.

A watch is punctual when time passes in streams and pauses alone, no stream outlasts the timeout of its
request, and nobody sets the stop signal. A timeout is whole seconds but at least one, so a stream may
pass the deadline by less than a second; or it ends before the deadline, and the pause after an empty
stream, which is never longer than the time left at the request, passes it by less than that pause.
Both cannot come together, so a watch returns no later than the greater of the two after its deadline. -/

set_option autoImplicit false

namespace MeshGauges

open MeshGauges.Number

variable {σ : Type}

/-- Time passes in streams and pauses only: in a stream no more than its timeout, in a pause exactly as
much as was asked for. The stop signal is never seen. -/
structure Punctual (session : Session σ) (timeline : Timeline session) : Prop where
  still : ∀ steps, ¬ (session.stage steps).InStream → session.activities steps = [] →
    timeline.time (steps + 1) = timeline.time steps
  pauses : ∀ steps seconds length, .pause seconds ∈ session.activities steps →
    number? seconds = some length → timeline.time (steps + 1) = timeline.time steps + length
  streams : ∀ first last seconds, session.Reads first last seconds → ¬ (session.stage last).InStream →
    timeline.time last ≤ timeline.time first + seconds
  unstopped : ∀ steps, ¬ session.Stopping steps

/-- A watch asks in time, with timeouts within their limits, and it is over soon after its deadline. -/
structure ResyncsInTime (session : Session σ) (timeline : Timeline session) (due latest longest : ℚ) :
    Prop where
  requests : ∀ steps seconds, session.Requests steps seconds →
    timeline.time steps < due ∧ 1 ≤ seconds ∧ (seconds : ℚ) ≤ max 1 longest
  computes : ∀ steps deadline fault, session.stage steps = .measuring deadline →
    session.stage (steps + 1) ≠ .raised fault
  returns : ∀ steps, session.stage steps = .returned →
    due ≤ timeline.time steps ∧ timeline.time steps ≤ latest

/-- A watch comes to look at the signal or the clock at once, or from a stream or a pause. -/
theorem Watch.Advances.looking_origin {timing : Timing} {around : Surroundings σ}
    {situation later : Situation σ} {stage reached : WatchStage} {added : List Activity} {deadline : Float}
    (advances : Advances timing around situation stage added later reached)
    (looks : reached = .polling deadline ∨ reached = .measuring deadline) :
    (stage = .dating ∨ ∃ known, stage = .polling known) ∧ added = [] ∨ stage.InStream ∨
      ∃ known remaining, stage = .pausing known remaining ∧
        added = [.pause (earlier timing.backoffInitial remaining)] := by
  cases advances with
  | dated => exact .inl ⟨.inl rfl, rfl⟩
  | continued => exact .inl ⟨.inr ⟨_, rfl⟩, rfl⟩
  | ended => exact .inr (.inl (.streaming _ _ _))
  | paused => exact .inr (.inr ⟨_, _, rfl, rfl⟩)
  | _ => rcases looks with looks | looks <;> cases looks

namespace Timeout

variable {seconds : ℤ} {longest due asked later pause : ℚ}

private theorem spent_le (timeout : Timeout seconds (due - asked) longest) (began : -2 ^ 40 < asked)
    (inTime : asked < due) (spent : later ≤ asked + seconds) (bounded : later < 2 ^ 40) :
    later ≤ due + 1 := by
  rcases lt_or_ge (due - asked) (2 ^ 41) with near | far
  · have fits := timeout.fits near
    rcases max_cases 1 (due - asked) with ⟨equal, _⟩ | ⟨equal, _⟩ <;> linarith
  · linarith

private theorem paused_le (timeout : Timeout seconds (due - asked) longest) (began : -2 ^ 40 < asked)
    (spent : later ≤ asked + seconds) {length : ℚ}
    (short : due - asked < 2 ^ 41 → length = min pause (due - asked))
    (bounded : later + length < 2 ^ 40) : later + length ≤ due + max 1 pause := by
  have least := le_max_left 1 pause
  rcases lt_or_ge (due - asked) (2 ^ 41) with near | far
  · have fits := timeout.fits near
    have first := min_le_left pause (due - asked)
    have rest := min_le_right pause (due - asked)
    have most := le_max_right 1 pause
    rw [short near]
    rcases max_cases 1 (due - asked) with ⟨equal, _⟩ | ⟨equal, _⟩ <;> linarith
  · linarith

end Timeout

namespace Punctual

variable {session : Session σ} {timeline : Timeline session} {period pause longest : ℚ} {steps : ℕ}

section Watch

variable (punctual : Punctual session timeline)
  (periodic : session.timing.resyncPeriod.number? = some period) (positive : 0 < period)
  (ticking : InTicks period) (paused : number? session.timing.backoffInitial = some pause)
  (limited : session.timing.watchTimeout.number? = some longest)

include punctual periodic positive ticking limited

/-- The end of a stream passes the deadline by a second at the most. -/
theorem le_after_stream (steps : ℕ) (inStream : (session.stage steps).InStream)
    (ended : ¬ (session.stage (steps + 1)).InStream) :
    timeline.time (steps + 1) ≤ timeline.due period + 1 := by
  obtain ⟨remaining, known⟩ := inStream.exists_remaining
  obtain ⟨first, seconds, reads, _⟩ := timeline.measures_remaining periodic positive ticking known
  have spent := punctual.streams first (steps + 1) seconds (reads.step inStream) ended
  exact (timeline.timeout periodic positive ticking limited reads.asked).spent_le
    (timeline.lt_time first) (timeline.before_due periodic positive ticking reads.asked) spent
    (timeline.time_lt (steps + 1))

include paused

theorem le_after_pause {deadline remaining : Float}
    (pausing : session.stage steps = .pausing deadline remaining)
    (does : .pause (earlier session.timing.backoffInitial remaining) ∈ session.activities steps) :
    timeline.time (steps + 1) ≤ timeline.due period + max 1 pause := by
  have known : (session.stage steps).remaining? = some remaining := by
    rw [pausing]
    rfl
  have ended : ¬ (session.stage steps).InStream := by
    rw [pausing]
    rintro ⟨⟩
  obtain ⟨first, seconds, reads, measures⟩ := timeline.measures_remaining periodic positive ticking known
  obtain ⟨length, stands, short, _⟩ := measures.earlier paused
  have passed := punctual.pauses steps _ length does stands
  have bounded := timeline.time_lt (steps + 1)
  rw [passed] at bounded ⊢
  exact (timeline.timeout periodic positive ticking limited reads.asked).paused_le
    (timeline.lt_time first) (punctual.streams first steps seconds reads ended) short bounded

/-- Where a watch looks at the signal or the clock, it is not too late yet. -/
theorem le_latest {deadline : Float}
    (looks : session.stage steps = .polling deadline ∨ session.stage steps = .measuring deadline) :
    timeline.time steps ≤ timeline.due period + max 1 pause := by
  have least := le_max_left 1 pause
  induction steps generalizing deadline with
  | zero => rcases looks with looks | looks <;> cases looks
  | succ steps ih =>
      have going : ¬ (session.stage (steps + 1)).Ended := by
        rcases looks with looks | looks <;> rw [looks] <;> rintro ⟨⟩
      rcases (Session.advances_of_not_ended going).looking_origin looks with
        ⟨dating | ⟨known, polling⟩, none⟩ | inStream | ⟨known, remaining, pausing, recorded⟩
      · obtain rfl := Session.eq_zero_of_dating dating
        rw [punctual.still 0 (by rintro ⟨⟩) none, Timeline.due]
        linarith
      · have outside : ¬ (session.stage steps).InStream := by
          rw [polling]
          rintro ⟨⟩
        rw [punctual.still steps outside none]
        exact ih (.inl polling)
      · have ended : ¬ (session.stage (steps + 1)).InStream := by
          rcases looks with looks | looks <;> rw [looks] <;> rintro ⟨⟩
        have passed := punctual.le_after_stream periodic positive ticking limited steps inStream ended
        linarith
      · refine punctual.le_after_pause periodic positive ticking paused limited pausing ?_
        rw [recorded]
        exact List.mem_singleton.mpr rfl

/-- A watch that returns does so between its deadline and the latest time for it. -/
theorem returns (returned : session.stage steps = .returned) :
    timeline.due period ≤ timeline.time steps ∧
      timeline.time steps ≤ timeline.due period + max 1 pause := by
  induction steps with
  | zero => cases returned
  | succ steps ih =>
      have still := punctual.still steps
      cases session.goes steps with
      | advances advances =>
          rw [returned] at advances
          exact absurd .returned advances.not_ended
      | raises _ result _ =>
          rw [result] at returned
          cases returned
      | returns returns _ none =>
          generalize stage : session.stage steps = before at returns ih still
          cases returns with
          | halted polled => exact absurd (Session.stopping_of_polled polled) (punctual.unstopped steps)
          | interrupted polled => exact absurd (Session.stopping_of_polled polled) (punctual.unstopped steps)
          | @expired deadline now _ read late =>
              have left := timeline.measures_left periodic positive ticking stage
              rw [← Session.now_eq read, left.le_zero_iff] at late
              rw [still (by rintro ⟨⟩) none]
              exact ⟨sub_nonpos.mp late,
                punctual.le_latest periodic positive ticking paused limited (.inr stage)⟩
          | returned =>
              rw [still (by rintro ⟨⟩) none]
              exact ih rfl

/-- Time passes in streams no longer than their timeouts, so the watch is over in time. -/
theorem resyncsInTime :
    ResyncsInTime session timeline (timeline.due period) (timeline.due period + max 1 pause) longest where
  requests steps seconds asked := by
    have timeout := timeline.timeout periodic positive ticking limited asked
    exact ⟨timeline.before_due periodic positive ticking asked, timeout.positive, timeout.limited⟩
  computes steps deadline fault measuring :=
    timeline.ne_raised_of_measuring periodic positive ticking limited fault measuring
  returns steps returned := punctual.returns periodic positive ticking paused limited returned

end Watch

end Punctual

/-! A stream that takes all of its timeout and yields nothing is followed by a pause as long as the time
that was left at its request. The watch returns at the latest time for it. -/

namespace LongStream

def script : Script where
  lists := []
  streams := [{ takes := 1.0 }]

def session : Session Script where
  timing := { resyncPeriod := .float 1.0, watchTimeout := .whole 60 }
  around := Script.surroundings
  start := { worker := { kind := .virtualService, space := "mesh" }, surroundings := script }

theorem moment_eq {steps : ℕ} (after : 7 ≤ steps) : session.moment steps = session.moment 7 :=
  Session.moment_eq_of_returned rfl after

def timeline : Timeline session where
  time steps := if steps < 3 then 0 else if steps < 5 then 1 else 2
  shows steps := by
    rcases Nat.lt_or_ge steps 7 with before | after
    · interval_cases steps
      case «3» => exact showsTime_one
      case «4» => exact showsTime_one
      case «5» => exact showsTime_two
      case «6» => exact showsTime_two
      all_goals exact showsTime_zero
    · rw [if_neg (by omega), if_neg (by omega), Session.now, Session.surroundings, Session.situation,
        moment_eq after]
      exact showsTime_two

theorem requests_eq {steps : ℕ} {seconds : ℤ} (asked : session.Requests steps seconds) :
    steps = 2 ∧ seconds = 1 := by
  obtain ⟨deadline, measuring, _, timed, streaming⟩ := asked.opens
  rcases Nat.lt_or_ge steps 7 with before | after
  · interval_cases steps
    case «2» =>
      cases measuring
      exact ⟨rfl, (Except.ok.inj timed).symm⟩
    case «6» => cases streaming
    all_goals cases measuring
  · rw [Session.stage, moment_eq after] at measuring
    cases measuring

/-- The moment at which the stream has ended bounds the moments at which it is read. -/
theorem le_four_of_reads {first last : ℕ} {seconds : ℤ} (reads : session.Reads first last seconds) :
    last ≤ 4 := by
  obtain ⟨rfl, _⟩ := requests_eq reads.asked
  by_contra long
  cases reads.within 4 (by decide) (not_le.mp long)

theorem punctual : Punctual session timeline where
  still steps outside none := by
    rcases Nat.lt_or_ge steps 7 with before | after
    · interval_cases steps
      case «2» => cases none
      case «3» => exact absurd (.streaming _ _ _) outside
      case «4» => cases none
      all_goals rfl
    · simp only [timeline]
      rw [if_neg (by omega), if_neg (by omega), if_neg (by omega), if_neg (by omega)]
  pauses steps seconds length paused stands := by
    rcases Nat.lt_or_ge steps 7 with before | after
    · interval_cases steps
      case «2» => cases List.mem_singleton.mp paused
      case «4» =>
        cases List.mem_singleton.mp paused
        cases number?_one.symm.trans stands
        norm_num [timeline]
      all_goals cases paused
    · rw [Session.activities, Session.history, Session.history, Session.situation, Session.situation,
        moment_eq after, moment_eq (Nat.le_succ_of_le after)] at paused
      cases paused
  streams first last seconds reads _ := by
    have short := le_four_of_reads reads
    have before := reads.before
    obtain ⟨rfl, rfl⟩ := requests_eq reads.asked
    interval_cases last <;> norm_num [timeline]
  unstopped steps := by
    rcases Nat.lt_or_ge steps 7 with before | after
    · interval_cases steps <;> exact Bool.false_ne_true
    · rw [Session.Stopping, Session.surroundings, Session.situation, moment_eq after]
      exact Bool.false_ne_true

theorem returns_at_latest :
    session.stage 7 = .returned ∧ timeline.time 7 = timeline.due 1 + max 1 1 ∧
      ResyncsInTime session timeline (timeline.due 1) (timeline.due 1 + max 1 1) 60 := by
  have latest : timeline.time 7 = timeline.due 1 + max 1 1 := by norm_num [timeline, Timeline.due]
  exact ⟨rfl, latest, punctual.resyncsInTime number?_one one_pos showsTime_one.ticks number?_one rfl⟩

end LongStream

end MeshGauges
