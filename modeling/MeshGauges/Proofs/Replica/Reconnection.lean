import MeshGauges.Proofs.Replica.Lateness

/-! How often a watch connects in vain.

A stream that yields nothing is followed by a pause: as long as the first pause after a failure, or up to
the deadline. So each such stream either earns the time of a pause or brings the watch to its end, unless
the stop signal does (`Paced`). There are no more of them than pauses fit into the resync period, and a
watch whose streams are finite ends when only finitely many of them yield anything. -/

set_option autoImplicit false

namespace MeshGauges

open MeshGauges.Number

variable {σ : Type}

namespace Session

variable (session : Session σ)

/-- A request is made whose stream yields an event. -/
def Fruitful (steps : ℕ) : Prop :=
  (∃ seconds, session.Requests steps seconds) ∧ ∃ event, session.item (steps + 1) = .event event

/-- A request is made whose stream is over before it has yielded any event. -/
def Barren (steps : ℕ) : Prop :=
  (∃ seconds, session.Requests steps seconds) ∧ ∀ event, session.item (steps + 1) ≠ .event event

open scoped Classical in
/-- How many requests have been made in vain before a moment. -/
noncomputable def barrenCount (steps : ℕ) : ℕ := Nat.count session.Barren steps

end Session

/-- The clock never goes back, and a pause lasts at least as long as was asked for unless the stop signal is
set. -/
structure Unhurried (session : Session σ) (timeline : Timeline session) : Prop where
  monotone : Monotone timeline.time
  pauses : ∀ steps seconds length, .pause seconds ∈ session.activities steps →
    number? seconds = some length →
      session.Stopping (steps + 1) ∨ timeline.time steps + length ≤ timeline.time (steps + 1)

/-- A request was made at a time, and what was left then is remembered. -/
structure Remembers (remaining : Float) (due asked now : ℚ) : Prop where
  measures : Measures remaining (due - asked) (2 ^ 41)
  after : -2 ^ 40 < asked
  before : asked ≤ now

theorem Remembers.later {remaining : Float} {due asked now later : ℚ}
    (remembers : Remembers remaining due asked now) (passed : now ≤ later) :
    Remembers remaining due asked later :=
  ⟨remembers.measures, remembers.after, remembers.before.trans passed⟩

/-- What has been earned for the streams that yielded nothing, a pause for each, has passed by the time of
the next request. -/
inductive Paced (stopped yields : Prop) (due pause earned now : ℚ) : WatchStage → Prop where
  | dating : earned ≤ now → Paced stopped yields due pause earned now .dating
  | polling {deadline : Float} : stopped ∨ due ≤ now ∨ earned ≤ now →
      Paced stopped yields due pause earned now (.polling deadline)
  | measuring {deadline : Float} : due ≤ now ∨ earned ≤ now →
      Paced stopped yields due pause earned now (.measuring deadline)
  | streaming {deadline remaining : Float} {received : Bool} {asked : ℚ} :
      Remembers remaining due asked now → earned ≤ asked + pause →
      (received = true ∨ yields → earned ≤ asked) →
      Paced stopped yields due pause earned now (.streaming deadline remaining received)
  | delivering {deadline remaining : Float} {event : Tree} {asked : ℚ} :
      Remembers remaining due asked now → earned ≤ asked →
      Paced stopped yields due pause earned now (.delivering deadline remaining event)
  | pausing {deadline remaining : Float} {asked : ℚ} :
      Remembers remaining due asked now → earned ≤ asked + pause →
      Paced stopped yields due pause earned now (.pausing deadline remaining)
  | returned : Paced stopped yields due pause earned now .returned
  | raised (fault : Fault) : Paced stopped yields due pause earned now (.raised fault)

namespace Session

variable {session : Session σ} {steps : ℕ}

theorem barrenCount_succ_of_not (fruitful : ¬ session.Barren steps) :
    session.barrenCount (steps + 1) = session.barrenCount steps := by
  rw [barrenCount, Nat.count_succ, if_neg fruitful]
  rfl

theorem barrenCount_succ_of_barren (barren : session.Barren steps) :
    session.barrenCount (steps + 1) = session.barrenCount steps + 1 := by
  rw [barrenCount, Nat.count_succ, if_pos barren]
  rfl

theorem not_barren_of_stage (elsewhere : ∀ deadline, session.stage steps ≠ .measuring deadline) :
    ¬ session.Barren steps := by
  rintro ⟨⟨seconds, asked⟩, _⟩
  obtain ⟨deadline, opens⟩ := asked.opens
  exact elsewhere deadline opens.measuring

/-- The time at which a watch began, and a pause for every request made in vain. -/
noncomputable def earned (session : Session σ) (timeline : Timeline session) (pause : ℚ) (steps : ℕ) : ℚ :=
  timeline.time 0 + session.barrenCount steps * pause

theorem earned_succ_of_not {timeline : Timeline session} {pause : ℚ} (fruitful : ¬ session.Barren steps) :
    session.earned timeline pause (steps + 1) = session.earned timeline pause steps := by
  rw [earned, barrenCount_succ_of_not fruitful, earned]

theorem earned_succ_of_barren {timeline : Timeline session} {pause : ℚ} (barren : session.Barren steps) :
    session.earned timeline pause (steps + 1) = session.earned timeline pause steps + pause := by
  rw [earned, barrenCount_succ_of_barren barren, earned]
  push_cast
  ring

end Session

namespace Unhurried

variable {session : Session σ} {timeline : Timeline session} {period pause : ℚ} {steps : ℕ}

section Watch

variable (unhurried : Unhurried session timeline)
  (periodic : session.timing.resyncPeriod.number? = some period) (positive : 0 < period)
  (ticking : InTicks period) (paused : number? session.timing.backoffInitial = some pause)
  (lasting : 0 < pause)

include unhurried

/-- A pause lasts as long as the first one after a failure, or up to the deadline. -/
theorem after_pause {remaining : Float} {due asked : ℚ}
    (paused : number? session.timing.backoffInitial = some pause)
    (remembers : Remembers remaining due asked (timeline.time steps))
    (does : .pause (earlier session.timing.backoffInitial remaining) ∈ session.activities steps) :
    session.Stopping (steps + 1) ∨ due ≤ timeline.time (steps + 1) ∨
      asked + pause ≤ timeline.time (steps + 1) := by
  obtain ⟨measures, after, before⟩ := remembers
  obtain ⟨length, stands, near, far⟩ := measures.earlier paused
  refine (unhurried.pauses steps _ length does stands).imp_right fun passed => ?_
  rcases lt_or_ge (due - asked) (2 ^ 41) with close | beyond
  · rw [near close] at passed
    rcases min_choice pause (due - asked) with whole | cut
    · rw [whole] at passed
      exact .inr (by linarith)
    · rw [cut] at passed
      exact .inl (by linarith)
  · have least := far beyond
    have bounded := timeline.time_lt (steps + 1)
    rcases min_choice pause (2 ^ 41) with whole | cut
    · rw [whole] at least
      exact .inr (by linarith)
    · rw [cut] at least
      linarith

include periodic positive ticking lasting

/-- What was earned before a request has passed, and a pause is earned for the request if it is in vain. -/
theorem paced_of_requests {seconds : ℤ} (asked : session.Requests steps seconds)
    (known : timeline.due period ≤ timeline.time steps ∨
      session.earned timeline pause steps ≤ timeline.time steps) :
    Paced (session.Stopping (steps + 1)) (∃ event, session.item (steps + 1) = .event event)
      (timeline.due period) pause (session.earned timeline pause (steps + 1)) (timeline.time (steps + 1))
      (session.stage (steps + 1)) := by
  obtain ⟨deadline, opens⟩ := asked.opens
  have inTime := timeline.before_due periodic positive ticking asked
  have measures := timeline.measures_left periodic positive ticking opens.measuring
  have covered := known.resolve_left inTime.not_ge
  rw [opens.streaming]
  refine .streaming ⟨measures, timeline.lt_time steps, unhurried.monotone (Nat.le_succ steps)⟩ ?_ ?_
  · by_cases barren : session.Barren steps
    · rw [Session.earned_succ_of_barren barren]
      linarith
    · rw [Session.earned_succ_of_not barren]
      linarith
  · rintro (heard | ⟨event, yields⟩)
    · cases heard
    · have fruitful : ¬ session.Barren steps := fun barren => barren.2 event yields
      rw [Session.earned_succ_of_not fruitful]
      exact covered

include paused

theorem paced (steps : ℕ) :
    Paced (session.Stopping steps) (∃ event, session.item steps = .event event) (timeline.due period)
      pause (session.earned timeline pause steps) (timeline.time steps) (session.stage steps) := by
  induction steps with
  | zero =>
      refine .dating ?_
      simp [Session.earned, Session.barrenCount]
  | succ steps ih =>
      have passed := unhurried.monotone (Nat.le_succ steps)
      -- a pause is earned by a request only, so all other steps have to show that what was earned has passed
      have same (elsewhere : ∀ deadline, session.stage steps ≠ .measuring deadline) :
          session.earned timeline pause (steps + 1) = session.earned timeline pause steps :=
        Session.earned_succ_of_not (Session.not_barren_of_stage elsewhere)
      cases session.goes steps with
      | returns _ result _ =>
          rw [result]
          exact .returned
      | raises _ result _ =>
          rw [result]
          exact .raised _
      | advances advances =>
          generalize stage : session.stage steps = before at advances ih same
          generalize reached : session.stage (steps + 1) = after at advances
          generalize recorded : session.activities steps = added at advances
          generalize session.situation (steps + 1) = later at advances
          cases advances with
          | dated =>
              cases ih with
              | dating began =>
                  rw [same nofun]
                  exact .polling (.inr (.inr (began.trans passed)))
          | continued polled =>
              have unset := Session.not_stopping_of_polled polled
              cases ih with
              | polling known =>
                  rw [same nofun]
                  exact .measuring ((known.resolve_left unset).imp (·.trans passed) (·.trans passed))
          | opened =>
              have asked := Session.requests_of_activities recorded
              rw [← reached]
              cases ih with
              | measuring known =>
                  exact unhurried.paced_of_requests periodic positive ticking lasting asked known
          | @received _ _ _ event _ yielded =>
              cases ih with
              | streaming remembers _ yields =>
                  rw [same nofun]
                  refine .delivering (remembers.later passed) (yields (.inr ⟨event, ?_⟩))
                  rw [Session.item, Session.surroundings, yielded]
          | ended =>
              cases ih with
              | streaming remembers _ yields =>
                  rw [same nofun]
                  have covered := (yields (.inl rfl)).trans remembers.before
                  exact .polling (.inr (.inr (covered.trans passed)))
          | empty =>
              cases ih with
              | streaming remembers covered _ =>
                  rw [same nofun]
                  exact .pausing (remembers.later passed) covered
          | applied =>
              cases ih with
              | delivering remembers covered =>
                  rw [same nofun]
                  exact .streaming (remembers.later passed) (by linarith) fun _ => covered
          | @paused _ remaining =>
              have does : .pause (earlier session.timing.backoffInitial remaining) ∈
                  session.activities steps := by
                rw [recorded]
                exact List.mem_singleton.mpr rfl
              cases ih with
              | pausing remembers covered =>
                  rw [same nofun]
                  exact .polling ((unhurried.after_pause paused remembers does).imp_right
                    (Or.imp_right covered.trans))

theorem earned_le {seconds : ℤ} (asked : session.Requests steps seconds) :
    session.earned timeline pause steps ≤ timeline.time steps := by
  have inTime := timeline.before_due periodic positive ticking asked
  obtain ⟨deadline, opens⟩ := asked.opens
  have paced := unhurried.paced periodic positive ticking paused lasting steps
  rw [opens.measuring] at paced
  cases paced with
  | measuring known => exact known.resolve_left inTime.not_ge

/-- No more requests are made in vain than pauses fit into the resync period. -/
theorem encard_barren_le : {steps | session.Barren steps}.encard ≤ ⌈period / pause⌉₊ := by
  have few : Set.MapsTo session.barrenCount {steps | session.Barren steps} (Set.Iio ⌈period / pause⌉₊) := by
    rintro steps ⟨⟨seconds, asked⟩, _⟩
    have inTime := timeline.before_due periodic positive ticking asked
    have covered := unhurried.earned_le periodic positive ticking paused lasting asked
    rw [Session.earned] at covered
    rw [Timeline.due] at inTime
    refine Set.mem_Iio.mpr (Nat.lt_ceil.mpr ?_)
    rw [lt_div_iff₀ lasting]
    linarith
  have distinct : Set.InjOn session.barrenCount {steps | session.Barren steps} := by
    intro first (barren : session.Barren first) second (other : session.Barren second) same
    classical exact Nat.count_injective barren other same
  calc {steps | session.Barren steps}.encard
      ≤ (Set.Iio ⌈period / pause⌉₊).encard := Set.encard_le_encard_of_injOn few distinct
    _ = ⌈period / pause⌉₊ := by
        rw [← Finset.coe_Iio, Set.encard_coe_eq_coe_finsetCard, Nat.card_Iio]

end Watch

end Unhurried

/-! ### The end of a watch -/

namespace Watch.Advances

variable {timing : Timing} {around : Surroundings σ} {situation later : Situation σ}
  {stage reached : WatchStage} {added : List Activity} {deadline : Float}

theorem watches_of_measuring
    (advances : Advances timing around situation (.measuring deadline) added later reached) :
    ∃ space version seconds, added = [.watch space version seconds] := by
  cases advances with
  | opened => exact ⟨_, _, _, rfl⟩

theorem measuring_of_polling
    (advances : Advances timing around situation (.polling deadline) added later reached) :
    reached = .measuring deadline := by
  cases advances
  rfl

/-- A watch that is not reading a stream looks at the clock or the signal, or it is about to. -/
theorem looks_of_not_inStream (advances : Advances timing around situation stage added later reached)
    (outside : ¬ stage.InStream) :
    (∃ deadline, stage = .measuring deadline ∨ stage = .polling deadline) ∨
      ∃ deadline, reached = .polling deadline := by
  cases advances with
  | dated => exact .inr ⟨_, rfl⟩
  | continued => exact .inl ⟨_, .inr rfl⟩
  | opened => exact .inl ⟨_, .inl rfl⟩
  | paused => exact .inr ⟨_, rfl⟩
  | received => exact absurd (.streaming _ _ _) outside
  | ended => exact absurd (.streaming _ _ _) outside
  | empty => exact absurd (.streaming _ _ _) outside
  | applied => exact absurd (.delivering _ _ _) outside

end Watch.Advances

namespace Session

variable {session : Session σ} {steps : ℕ}

section Endless

variable (endless : ∀ steps, ¬ (session.stage steps).Ended)

include endless

theorem requests_of_measuring {deadline : Float} (measuring : session.stage steps = .measuring deadline) :
    ∃ seconds, session.Requests steps seconds := by
  have advances := advances_of_not_ended (endless (steps + 1))
  rw [measuring] at advances
  obtain ⟨space, version, seconds, recorded⟩ := advances.watches_of_measuring
  exact ⟨seconds, requests_of_activities recorded⟩

theorem exists_requests_of_polling {deadline : Float} (polling : session.stage steps = .polling deadline) :
    ∃ later ≥ steps, ∃ seconds, session.Requests later seconds := by
  have advances := advances_of_not_ended (endless (steps + 1))
  rw [polling] at advances
  exact ⟨steps + 1, Nat.le_succ steps, requests_of_measuring endless advances.measuring_of_polling⟩

/-- A watch that is not reading a stream makes a request soon. -/
theorem exists_requests_of_not_inStream (outside : ¬ (session.stage steps).InStream) :
    ∃ later ≥ steps, ∃ seconds, session.Requests later seconds := by
  have advances := advances_of_not_ended (endless (steps + 1))
  rcases advances.looks_of_not_inStream outside with ⟨deadline, measuring | polling⟩ | ⟨deadline, polling⟩
  · exact ⟨steps, le_refl steps, requests_of_measuring endless measuring⟩
  · exact exists_requests_of_polling endless polling
  · obtain ⟨later, after, asked⟩ := exists_requests_of_polling endless polling
    exact ⟨later, (Nat.le_succ steps).trans after, asked⟩

end Endless

section Finite

variable (finite : ∀ first seconds, session.Requests first seconds →
  ∃ last > first, ¬ (session.stage last).InStream)

include finite

/-- Where every stream is over at some moment, each moment is followed by one outside of streams. -/
theorem exists_not_inStream (steps : ℕ) : ∃ later ≥ steps, ¬ (session.stage later).InStream := by
  by_cases inStream : (session.stage steps).InStream
  swap
  · exact ⟨steps, le_refl steps, inStream⟩
  obtain ⟨remaining, known⟩ := inStream.exists_remaining
  obtain ⟨first, _, seconds, reads, _⟩ := reads_of_remaining? known
  obtain ⟨last, after, outside⟩ := finite first seconds reads.asked
  exact ⟨last, not_lt.mp fun before => outside (reads.within last after before), outside⟩

/-- A watch with finite streams comes to an end when there are not infinitely many of them. -/
theorem exists_ended (fruitful : {steps | session.Fruitful steps}.Finite)
    (barren : {steps | session.Barren steps}.Finite) : ∃ steps, (session.stage steps).Ended := by
  by_contra none
  have endless : ∀ steps, ¬ (session.stage steps).Ended := not_exists.mp none
  have asked : {steps | ∃ seconds, session.Requests steps seconds} ⊆
      {steps | session.Fruitful steps} ∪ {steps | session.Barren steps} := by
    intro steps asked
    by_cases yields : ∃ event, session.item (steps + 1) = .event event
    · exact .inl ⟨asked, yields⟩
    · exact .inr ⟨asked, not_exists.mp yields⟩
  refine Set.infinite_of_forall_exists_gt (fun steps => ?_) ((fruitful.union barren).subset asked)
  obtain ⟨outside, after, notInStream⟩ := exists_not_inStream finite (steps + 1)
  obtain ⟨later, last, requests⟩ := exists_requests_of_not_inStream endless notInStream
  exact ⟨later, requests, by omega⟩

end Finite

end Session

/-- A watch makes a limited number of requests in vain, and it comes to an end unless a stream has none or
infinitely many streams yield events. -/
structure ConnectsSparingly (session : Session σ) (most : ℕ) : Prop where
  barren : {steps | session.Barren steps}.encard ≤ most
  ends : {steps | session.Fruitful steps}.Finite →
    (∀ first seconds, session.Requests first seconds → ∃ last > first, ¬ (session.stage last).InStream) →
    ∃ steps, (session.stage steps).Ended

theorem Unhurried.connectsSparingly {session : Session σ} {timeline : Timeline session}
    {period pause : ℚ} (unhurried : Unhurried session timeline)
    (periodic : session.timing.resyncPeriod.number? = some period) (positive : 0 < period)
    (ticking : InTicks period) (paused : number? session.timing.backoffInitial = some pause)
    (lasting : 0 < pause) : ConnectsSparingly session ⌈period / pause⌉₊ := by
  have barren := unhurried.encard_barren_le periodic positive ticking paused lasting
  exact ⟨barren, fun fruitful finite =>
    Session.exists_ended finite fruitful (Set.finite_of_encard_le_coe barren)⟩

namespace LongStream

theorem unhurried : Unhurried session timeline where
  monotone first last ordered := by
    simp only [timeline]
    split_ifs <;> first | omega | norm_num
  pauses steps seconds length paused stands :=
    .inr (punctual.pauses steps seconds length paused stands).ge

/-- One request in vain uses up the whole period. -/
theorem connects_once : session.Barren 2 ∧ ConnectsSparingly session ⌈(1 : ℚ) / 1⌉₊ ∧
    ∃ steps, (session.stage steps).Ended := by
  have sparing := unhurried.connectsSparingly number?_one one_pos showsTime_one.ticks number?_one one_pos
  have silent : ∀ event, session.item 3 ≠ .event event := nofun
  have asked : session.Requests 2 1 := Session.requests_of_activities rfl
  have fruitful : {steps | session.Fruitful steps}.Finite := by
    refine Set.finite_empty.subset ?_
    rintro steps ⟨⟨seconds, asked⟩, event, yields⟩
    obtain ⟨rfl, -⟩ := requests_eq asked
    exact silent event yields
  refine ⟨⟨⟨1, asked⟩, silent⟩, sparing, sparing.ends fruitful ?_⟩
  rintro first seconds asked
  obtain ⟨rfl, -⟩ := requests_eq asked
  exact ⟨4, by decide, nofun⟩

end LongStream

end MeshGauges
