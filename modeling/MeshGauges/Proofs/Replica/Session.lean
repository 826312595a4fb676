import MeshGauges.Proofs.Replica.Remaining

/-! A watch from its beginning on, moment by moment.

A session is one watch in some surroundings. Each of its moments has a stage, and a step from one moment
to the next either goes on or ends the session. Streams are read in stretches of moments that begin with
a request (`Reads`), and what a stage knows of the time left was worked out at that request
(`reads_of_remaining?`). A timeline gives the time that the clock shows at each moment; with it, the
deadline is the time of the first moment and the resync period (`measures_deadline`). -/

set_option autoImplicit false

namespace MeshGauges

open MeshGauges.Number

variable {σ : Type}

namespace WatchStage

/-- The stages between a watch request and the end of its stream. -/
inductive InStream : WatchStage → Prop where
  | streaming (deadline remaining : Float) (received : Bool) :
      InStream (.streaming deadline remaining received)
  | delivering (deadline remaining : Float) (event : Tree) :
      InStream (.delivering deadline remaining event)

/-- The stages at which a watch is over. -/
inductive Ended : WatchStage → Prop where
  | returned : Ended .returned
  | raised (fault : Fault) : Ended (.raised fault)

/-- The time left that a stage remembers from its request. -/
def remaining? : WatchStage → Option Float
  | .streaming _ remaining _ => some remaining
  | .delivering _ remaining _ => some remaining
  | .pausing _ remaining => some remaining
  | _ => none

theorem InStream.exists_remaining {stage : WatchStage} (inStream : stage.InStream) :
    ∃ remaining, stage.remaining? = some remaining := by
  cases inStream <;> exact ⟨_, rfl⟩

theorem Ended.remaining?_eq {stage : WatchStage} (ended : stage.Ended) : stage.remaining? = none := by
  cases ended <;> rfl

theorem Ended.deadline?_eq {stage : WatchStage} (ended : stage.Ended) : stage.deadline? = none := by
  cases ended <;> rfl

end WatchStage

namespace Watch.Advances

variable {timing : Timing} {around : Surroundings σ} {situation later : Situation σ}
  {stage reached : WatchStage} {added : List Activity}

theorem not_ended (advances : Advances timing around situation stage added later reached) :
    ¬ reached.Ended := by
  cases advances <;> rintro ⟨⟩

theorem ne_dating (advances : Advances timing around situation stage added later reached) :
    reached ≠ .dating := by
  cases advances <;> exact WatchStage.noConfusion

theorem opens_of_watch {space version : String} {seconds : ℤ}
    (advances : Advances timing around situation stage added later reached)
    (asks : .watch space version seconds ∈ added) :
    ∃ deadline now after, stage = .measuring deadline ∧
      around.clock situation.surroundings = (now, after) ∧ ¬ deadline - now ≤ 0.0 ∧
      requestTimeout (deadline - now) timing.watchTimeout = .ok seconds ∧
      reached = .streaming deadline (deadline - now) false := by
  cases advances with
  | opened read left timed =>
      cases List.mem_singleton.mp asks
      exact ⟨_, _, _, rfl, read, left, timed, rfl⟩
  | _ => simp at asks

/-- A deadline is the one that was known before, or it has just been set. -/
theorem deadline?_origin {deadline : Float}
    (advances : Advances timing around situation stage added later reached)
    (known : reached.deadline? = some deadline) :
    stage.deadline? = some deadline ∨
      stage = .dating ∧ ∃ now period after, around.clock situation.surroundings = (now, after) ∧
        timing.resyncPeriod.toFloat? = some period ∧ deadline = now + period := by
  cases advances with
  | dated read rounded =>
      cases known
      exact .inr ⟨rfl, _, _, _, read, rounded, rfl⟩
  | _ => exact .inl known

/-- A time left that is remembered was remembered before in the same stream, or it has just been measured. -/
theorem remaining?_origin {remaining : Float}
    (advances : Advances timing around situation stage added later reached)
    (remembers : reached.remaining? = some remaining) :
    stage.InStream ∧ stage.remaining? = some remaining ∨
      ∃ deadline now after space version seconds, stage = .measuring deadline ∧
        around.clock situation.surroundings = (now, after) ∧ remaining = deadline - now ∧
        added = [.watch space version seconds] := by
  cases advances with
  | opened read =>
      cases remembers
      exact .inr ⟨_, _, _, _, _, _, rfl, read, rfl, rfl⟩
  | received => exact .inl ⟨.streaming _ _ _, remembers⟩
  | empty => exact .inl ⟨.streaming _ _ _, remembers⟩
  | applied => exact .inl ⟨.delivering _ _ _, remembers⟩
  | _ => cases remembers

end Watch.Advances

structure Session (σ : Type) where
  timing : Timing
  around : Surroundings σ
  start : Situation σ

namespace Session

def moment (session : Session σ) (steps : ℕ) : Situation σ × WatchStage :=
  Watch.run session.timing session.around steps session.start .dating

def situation (session : Session σ) (steps : ℕ) : Situation σ := (session.moment steps).1

def stage (session : Session σ) (steps : ℕ) : WatchStage := (session.moment steps).2

def surroundings (session : Session σ) (steps : ℕ) : σ := (session.situation steps).surroundings

def history (session : Session σ) (steps : ℕ) : List Activity := (session.situation steps).history

/-- What is done in the step from a moment to the next. -/
def activities (session : Session σ) (steps : ℕ) : List Activity :=
  (session.history (steps + 1)).drop (session.history steps).length

def Requests (session : Session σ) (steps : ℕ) (seconds : ℤ) : Prop :=
  ∃ space version, .watch space version seconds ∈ session.activities steps

/-- The stop signal would be seen at a moment. -/
def Stopping (session : Session σ) (steps : ℕ) : Prop :=
  (session.around.stopping (session.surroundings steps)).1 = true

/-- What the clock shows if it is read at a moment. -/
def now (session : Session σ) (steps : ℕ) : Float :=
  (session.around.clock (session.surroundings steps)).1

/-- What the open stream yields if it is asked at a moment. -/
def item (session : Session σ) (steps : ℕ) : StreamItem :=
  (session.around.next (session.surroundings steps)).1

variable {session : Session σ} {steps : ℕ}

theorem now_eq {now : Float} {after : σ}
    (read : session.around.clock (session.situation steps).surroundings = (now, after)) :
    session.now steps = now := by
  rw [Session.now, surroundings, read]

theorem stopping_of_polled {after : σ}
    (polled : session.around.stopping (session.situation steps).surroundings = (true, after)) :
    session.Stopping steps := by
  rw [Stopping, surroundings, polled]

theorem not_stopping_of_polled {after : σ}
    (polled : session.around.stopping (session.situation steps).surroundings = (false, after)) :
    ¬ session.Stopping steps := by
  rw [Stopping, surroundings, polled]
  exact Bool.false_ne_true

theorem requests_of_activities {space version : String} {seconds : ℤ}
    (recorded : session.activities steps = [.watch space version seconds]) :
    session.Requests steps seconds := by
  refine ⟨space, version, ?_⟩
  rw [recorded]
  exact List.mem_singleton.mpr rfl

theorem moment_succ (session : Session σ) (steps : ℕ) :
    session.moment (steps + 1) =
      Watch.step session.timing session.around (session.situation steps) (session.stage steps) :=
  Watch.run_succ session.timing session.around steps session.start .dating

/-- Nothing changes after a watch has returned. -/
theorem moment_eq_of_returned {first last : ℕ} (returned : session.stage first = .returned)
    (ordered : first ≤ last) : session.moment last = session.moment first := by
  induction ordered with
  | refl => rfl
  | step _ ih =>
      rw [moment_succ, situation, stage, ih]
      change Watch.step _ _ _ (session.stage first) = _
      rw [returned]
      exact Prod.ext rfl returned.symm

/-- A step goes on, or it ends the session and does nothing. -/
inductive Goes (session : Session σ) (steps : ℕ) : Prop where
  | advances :
      Watch.Advances session.timing session.around (session.situation steps) (session.stage steps)
        (session.activities steps) (session.situation (steps + 1)) (session.stage (steps + 1)) →
      Goes session steps
  | returns {after : σ} :
      Watch.Returns session.around (session.situation steps) (session.stage steps) after →
      session.stage (steps + 1) = .returned → session.activities steps = [] → Goes session steps
  | raises {after : σ} {fault : Fault} :
      Watch.Raises session.timing session.around (session.situation steps) (session.stage steps) after
        fault →
      session.stage (steps + 1) = .raised fault → session.activities steps = [] → Goes session steps

theorem goes (session : Session σ) (steps : ℕ) : session.Goes steps := by
  have outcome := Watch.step_outcome session.timing session.around (session.situation steps)
    (session.stage steps)
  rw [← moment_succ] at outcome
  cases outcome with
  | @advances added advances =>
      have grown : session.history (steps + 1) = session.history steps ++ added := advances.history_eq
      have recorded : session.activities steps = added := by
        rw [activities, grown, List.drop_left]
      rw [← recorded] at advances
      exact .advances advances
  | returns returns result =>
      have same : session.history (steps + 1) = session.history steps := by
        rw [history, situation, result]
        rfl
      exact .returns returns (congrArg Prod.snd result) (by rw [activities, same, List.drop_length])
  | raises raises result =>
      have same : session.history (steps + 1) = session.history steps := by
        rw [history, situation, result]
        rfl
      exact .raises raises (congrArg Prod.snd result) (by rw [activities, same, List.drop_length])

theorem advances_of_not_ended (going : ¬ (session.stage (steps + 1)).Ended) :
    Watch.Advances session.timing session.around (session.situation steps) (session.stage steps)
      (session.activities steps) (session.situation (steps + 1)) (session.stage (steps + 1)) := by
  cases session.goes steps with
  | advances advances => exact advances
  | returns _ result _ =>
      rw [result] at going
      exact absurd .returned going
  | raises _ result _ =>
      rw [result] at going
      exact absurd (.raised _) going

/-! ### Requests and their streams -/

/-- A request is made when the time left has been measured; that time is remembered. -/
structure Opens (session : Session σ) (steps : ℕ) (deadline : Float) (seconds : ℤ) : Prop where
  measuring : session.stage steps = .measuring deadline
  left : ¬ deadline - session.now steps ≤ 0.0
  timed : requestTimeout (deadline - session.now steps) session.timing.watchTimeout = .ok seconds
  streaming : session.stage (steps + 1) = .streaming deadline (deadline - session.now steps) false

theorem Requests.opens {seconds : ℤ} (requests : session.Requests steps seconds) :
    ∃ deadline, session.Opens steps deadline seconds := by
  obtain ⟨space, version, asked⟩ := requests
  cases session.goes steps with
  | returns _ _ none =>
      rw [none] at asked
      cases asked
  | raises _ _ none =>
      rw [none] at asked
      cases asked
  | advances advances =>
      obtain ⟨deadline, now, after, measuring, read, left, timed, streaming⟩ := advances.opens_of_watch asked
      rw [← now_eq read] at left timed streaming
      exact ⟨deadline, measuring, left, timed, streaming⟩

/-- A request was made at a moment, and its stream has been read ever since. -/
structure Reads (session : Session σ) (first last : ℕ) (seconds : ℤ) : Prop where
  before : first < last
  asked : session.Requests first seconds
  within : ∀ between, first < between → between < last → (session.stage between).InStream

theorem Reads.step {first last : ℕ} {seconds : ℤ} (reads : session.Reads first last seconds)
    (inStream : (session.stage last).InStream) : session.Reads first (last + 1) seconds where
  before := Nat.lt_succ_of_lt reads.before
  asked := reads.asked
  within between after before := by
    rcases (Nat.lt_succ_iff.mp before).lt_or_eq with earlier | rfl
    · exact reads.within between after earlier
    · exact inStream

/-- What a stage remembers of the time left was worked out at the request whose stream is read. -/
theorem reads_of_remaining? {remaining : Float}
    (remembers : (session.stage steps).remaining? = some remaining) :
    ∃ first deadline seconds, session.Reads first steps seconds ∧
      session.stage first = .measuring deadline ∧ remaining = deadline - session.now first := by
  induction steps with
  | zero => cases remembers
  | succ steps ih =>
      have going : ¬ (session.stage (steps + 1)).Ended := fun ended => by
        rw [ended.remaining?_eq] at remembers
        cases remembers
      rcases (advances_of_not_ended going).remaining?_origin remembers with
        ⟨inStream, known⟩ | ⟨deadline, now, after, space, version, seconds, measuring, read, rfl, recorded⟩
      · obtain ⟨first, deadline, seconds, reads, measured, equal⟩ := ih known
        exact ⟨first, deadline, seconds, reads.step inStream, measured, equal⟩
      · have asked := requests_of_activities recorded
        refine ⟨steps, deadline, seconds, ⟨Nat.lt_succ_self steps, asked, ?_⟩, measuring, ?_⟩
        · intro between after before
          omega
        · rw [now_eq read]

/-! ### The deadline -/

theorem eq_zero_of_dating (dating : session.stage steps = .dating) : steps = 0 := by
  cases steps with
  | zero => rfl
  | succ steps =>
      have going : ¬ (session.stage (steps + 1)).Ended := by
        rw [dating]
        rintro ⟨⟩
      exact absurd dating (advances_of_not_ended going).ne_dating

/-- The deadline is set once, from what the clock shows at the first moment. -/
theorem deadline_eq {deadline : Float} (known : (session.stage steps).deadline? = some deadline) :
    ∃ period, session.timing.resyncPeriod.toFloat? = some period ∧ deadline = session.now 0 + period := by
  induction steps with
  | zero => cases known
  | succ steps ih =>
      have going : ¬ (session.stage (steps + 1)).Ended := fun ended => by
        rw [ended.deadline?_eq] at known
        cases known
      rcases (advances_of_not_ended going).deadline?_origin known with
        before | ⟨dating, now, period, after, read, rounded, rfl⟩
      · exact ih before
      · obtain rfl := eq_zero_of_dating dating
        exact ⟨period, rounded, by rw [now_eq read]⟩

end Session

/-! ### Timelines -/

/-- The times that the clock shows at the moments of a session. -/
structure Timeline (session : Session σ) where
  time : ℕ → ℚ
  shows : ∀ steps, ShowsTime (session.now steps) (time steps)

namespace Timeline

variable {session : Session σ} (timeline : Timeline session) {steps : ℕ} {period : ℚ}

/-- The time at which the next listing is due. -/
def due (timeline : Timeline session) (period : ℚ) : ℚ := timeline.time 0 + period

theorem time_lt (steps : ℕ) : timeline.time steps < 2 ^ 40 :=
  (abs_lt.mp (timeline.shows steps).bounded).2

theorem lt_time (steps : ℕ) : -2 ^ 40 < timeline.time steps :=
  (abs_lt.mp (timeline.shows steps).bounded).1

section Due

variable (periodic : session.timing.resyncPeriod.number? = some period) (positive : 0 < period)
  (ticking : InTicks period)

include periodic positive ticking

theorem measures_deadline {deadline : Float} (known : (session.stage steps).deadline? = some deadline) :
    Measures deadline (timeline.due period) (3 * 2 ^ 40) := by
  obtain ⟨seconds, rounded, rfl⟩ := Session.deadline_eq known
  exact (Measures.of_toFloat? rounded periodic positive ticking).deadline (timeline.shows 0) positive ticking

/-- The time left that is measured at a moment is the one until the deadline. -/
theorem measures_left {deadline : Float} (measuring : session.stage steps = .measuring deadline) :
    Measures (deadline - session.now steps) (timeline.due period - timeline.time steps) (2 ^ 41) := by
  have before := timeline.lt_time 0
  have known : (session.stage steps).deadline? = some deadline := by
    rw [measuring]
    rfl
  have measures := timeline.measures_deadline periodic positive ticking known
  refine measures.remaining ((timeline.shows 0).ticks.add ticking) ?_ (timeline.shows steps)
  rw [due]
  linarith

theorem before_due {seconds : ℤ} (requests : session.Requests steps seconds) :
    timeline.time steps < timeline.due period := by
  obtain ⟨deadline, opens⟩ := requests.opens
  have measures := timeline.measures_left periodic positive ticking opens.measuring
  have left := opens.left
  rw [measures.le_zero_iff, not_le] at left
  exact sub_pos.mp left

/-- The timeout of a request fits the time left. -/
theorem timeout {seconds : ℤ} {longest : ℚ} (limited : session.timing.watchTimeout.number? = some longest)
    (requests : session.Requests steps seconds) :
    Timeout seconds (timeline.due period - timeline.time steps) longest := by
  obtain ⟨deadline, opens⟩ := requests.opens
  have measures := timeline.measures_left periodic positive ticking opens.measuring
  obtain ⟨known, timed, timeout⟩ := measures.requestTimeout_eq_ok limited
  rw [opens.timed] at timed
  cases timed
  exact timeout

include timeline in
/-- A watch works out the timeout of every request that is due. -/
theorem ne_raised_of_measuring {longest : ℚ}
    (limited : session.timing.watchTimeout.number? = some longest) (fault : Fault) {deadline : Float}
    (measuring : session.stage steps = .measuring deadline) :
    session.stage (steps + 1) ≠ .raised fault := by
  have left := timeline.measures_left periodic positive ticking measuring
  obtain ⟨seconds, timed, _⟩ := left.requestTimeout_eq_ok limited
  intro raised
  cases session.goes steps with
  | advances advances => exact advances.ne_raised fault raised
  | returns _ result _ =>
      rw [result] at raised
      cases raised
  | raises raises _ _ =>
      rw [measuring] at raises
      cases raises with
      | untimed read _ failed =>
          rw [Session.now_eq read, failed] at timed
          cases timed

/-- What a stage remembers of the time left is what was left at the request whose stream is read. -/
theorem measures_remaining {remaining : Float} (known : (session.stage steps).remaining? = some remaining) :
    ∃ first seconds, session.Reads first steps seconds ∧
      Measures remaining (timeline.due period - timeline.time first) (2 ^ 41) := by
  obtain ⟨first, deadline, seconds, reads, measuring, rfl⟩ := Session.reads_of_remaining? known
  exact ⟨first, seconds, reads, timeline.measures_left periodic positive ticking measuring⟩

end Due

end Timeline

end MeshGauges
