import MeshGauges.Proofs.Replica.StopSignal

/-! Phases and the order of requests.

The stage of a life decides the phase of its worker, up to what a listing is for. From that follow the
order of requests (a failure is followed by a listing, and every watch rests on a relist with no failure
since) and the meaning of each phase. -/

set_option autoImplicit false

namespace MeshGauges

variable {σ : Type}

namespace LifeStage

/-- The phases that a worker can be in at a stage of its life. -/
def Admits : LifeStage → Phase → Prop
  | .polling _, phase => phase = .unsynced ∨ phase = .syncing ∨ phase = .synced
  | .listing _, phase => phase = .syncing ∨ phase = .resyncing
  | .watching .returned, _ => False
  | .watching (.raised _), _ => False
  | .watching _, phase => phase = .synced
  | .backingOff _, phase => phase = .syncing
  | .finished, phase => phase = .stopped

theorem Admits.synced {stage : WatchStage} {phase : Phase}
    (admits : Admits (.watching stage) phase) : phase = .synced := by
  cases stage with
  | returned => exact admits.elim
  | raised fault => exact admits.elim
  | _ => exact admits

theorem Admits.stopped_iff {stage : LifeStage} {phase : Phase} (admits : stage.Admits phase) :
    phase = .stopped ↔ stage = .finished := by
  cases stage with
  | polling delay => rcases admits with rfl | rfl | rfl <;> simp
  | listing delay => rcases admits with rfl | rfl <;> simp
  | watching stage =>
      have synced := admits.synced
      subst synced
      simp
  | backingOff delay =>
      cases admits
      simp
  | finished =>
      cases admits
      simp

end LifeStage

namespace Life.Transition

variable {timing : Timing} {around : Surroundings σ} {situation later : Situation σ}
  {stage reached : LifeStage} {added : List Activity}

theorem admits (transition : Transition timing around situation stage added later reached)
    (held : stage.Admits situation.worker.phase) : reached.Admits later.worker.phase := by
  cases transition with
  | stopped => exact rfl
  | asked =>
      change _ = Phase.syncing ∨ _ = Phase.resyncing
      simp only [Worker.beginRelist]
      split
      · exact .inr rfl
      · exact .inl rfl
  | unanswered => exact held
  | relisted => exact rfl
  | advanced advances =>
      have synced := held.synced
      cases advances with
      | applied polled applied =>
          obtain ⟨_, _, phase, _⟩ := Worker.apply_keeps applied
          exact phase.trans synced
      | _ => exact synced
  | returned => exact .inr (.inr held.synced)
  | failed => exact rfl
  | backedOff => exact .inr (.inl held)
  | finished => exact held

theorem syncedOnce_iff (transition : Transition timing around situation stage added later reached) :
    later.worker.syncedOnce = true ↔ situation.worker.syncedOnce = true ∨ .relisted ∈ added := by
  cases transition with
  | relisted => simp [Worker.adopted]
  | asked => simp [Worker.beginRelist]
  | advanced advances =>
      cases advances with
      | applied polled applied =>
          obtain ⟨_, _, _, syncedOnce⟩ := Worker.apply_keeps applied
          simp [syncedOnce]
      | _ => simp
  | _ => simp

/-- A request for a listing is made by a look at the signal that finds it not set, in the phase that
the listing is for. -/
theorem asked_of_list {space : String} {phase : Phase}
    (transition : Transition timing around situation stage added later reached)
    (asks : .list space phase ∈ added) :
    (around.stopping situation.surroundings).1 = false ∧ (∃ delay, stage = .polling delay) ∧
      later.worker.phase = phase ∧
      phase = if situation.worker.phase = .synced then .resyncing else .syncing := by
  cases transition with
  | asked polled =>
      obtain ⟨rfl, rfl⟩ : space = _ ∧ phase = _ := by simpa using asks
      exact ⟨by rw [polled], ⟨_, rfl⟩, rfl, rfl⟩
  | advanced advances => cases advances <;> simp at asks
  | _ => simp at asks

theorem polling_of_backingOff {delay : Float}
    (transition : Transition timing around situation (.backingOff delay) added later reached) :
    reached = .polling (nextDelay timing delay) ∧ added = [.pause delay] ∧
      later.worker = situation.worker := by
  cases transition with
  | failed fails => cases fails
  | backedOff => exact ⟨rfl, rfl, rfl⟩

theorem lists_or_finishes {delay : Float}
    (transition : Transition timing around situation (.polling delay) added later reached) :
    (∃ space phase, .list space phase ∈ added) ∨ reached = .finished := by
  cases transition with
  | stopped => exact .inr rfl
  | asked => exact .inl ⟨_, _, List.mem_singleton_self _⟩
  | failed fails => cases fails

theorem finishes_or_asks {delay : Float}
    (transition : Transition timing around situation (.polling delay) added later reached) :
    (around.stopping situation.surroundings).1 = true ∧ reached = .finished ∨
      (around.stopping situation.surroundings).1 = false ∧ reached = .listing delay := by
  cases transition with
  | stopped polled => exact .inl ⟨congrArg Prod.fst polled, rfl⟩
  | asked polled => exact .inr ⟨congrArg Prod.fst polled, rfl⟩
  | failed fails => cases fails

theorem listing_of_relisted
    (transition : Transition timing around situation stage added later reached)
    (relisted : .relisted ∈ added) : ∃ delay, stage = .listing delay := by
  cases transition with
  | relisted => exact ⟨_, rfl⟩
  | advanced advances => cases advances <;> simp at relisted
  | _ => simp at relisted

theorem fails_of_failed {fault : Fault}
    (transition : Transition timing around situation stage added later reached)
    (failed : .failed fault ∈ added) :
    ∃ after delay, Fails timing around situation stage after delay fault := by
  cases transition with
  | failed fails =>
      obtain rfl : fault = _ := by simpa using failed
      exact ⟨_, _, fails⟩
  | advanced advances => cases advances <;> simp at failed
  | _ => simp at failed

/-- An event that is applied changes the worker as it says. -/
theorem apply_of_applied {event : Tree}
    (transition : Transition timing around situation stage added later reached)
    (applied : .applied event ∈ added) :
    ∃ journal, situation.worker.apply event = .ok (later.worker, journal) := by
  cases transition with
  | advanced advances =>
      cases advances with
      | applied _ changed =>
          obtain rfl : event = _ := by simpa using applied
          exact ⟨_, changed⟩
      | _ => simp at applied
  | _ => simp at applied

theorem watching_origin {watch : WatchStage}
    (transition : Transition timing around situation stage added later (.watching watch)) :
    .relisted ∈ added ∨ ∃ watch, stage = .watching watch := by
  cases transition with
  | relisted => exact .inl List.mem_cons_self
  | advanced advances => exact .inr ⟨_, rfl⟩

theorem listing_origin {delay : Float}
    (transition : Transition timing around situation stage added later (.listing delay)) :
    (∃ space, .list space later.worker.phase ∈ added) ∨
      (∃ delay, stage = .listing delay) ∧ later.worker = situation.worker := by
  cases transition with
  | asked => exact .inl ⟨_, List.mem_singleton_self _⟩
  | unanswered => exact .inr ⟨⟨_, rfl⟩, rfl⟩

theorem finished_origin
    (transition : Transition timing around situation stage added later .finished) :
    stage = .finished ∨ ∃ after, around.stopping situation.surroundings = (true, after) := by
  cases transition with
  | stopped polled => exact .inr ⟨_, polled⟩
  | finished => exact .inl rfl

/-- A life comes back to looking at the signal after a watch that returned or a pause after a failure. -/
theorem polling_origin {delay : Float}
    (transition : Transition timing around situation stage added later (.polling delay)) :
    later.worker = situation.worker ∧
      ((∃ watch after, stage = .watching watch ∧ Watch.Returns around situation watch after) ∨
        ∃ paused, stage = .backingOff paused) := by
  cases transition with
  | returned returns => exact ⟨rfl, .inl ⟨_, _, rfl, returns⟩⟩
  | backedOff => exact ⟨rfl, .inr ⟨_, rfl⟩⟩

end Life.Transition

namespace Course

def FailsAt (course : Course σ) (steps : Nat) : Prop :=
  ∃ after delay fault, Life.Fails course.timing course.around (course.situation steps)
    (course.stage steps) after delay fault

def ListsAt (course : Course σ) (steps : Nat) : Prop :=
  ∃ space phase, course.Does steps (.list space phase)

def WatchesAt (course : Course σ) (steps : Nat) : Prop :=
  ∃ space version seconds, course.Does steps (.watch space version seconds)

def ExpiresAt (course : Course σ) (steps : Nat) : Prop :=
  ∃ deadline, course.stage steps = .watching (.measuring deadline) ∧
    deadline - (course.around.clock (course.surroundings steps)).1 ≤ 0.0

variable {course : Course σ}

theorem after_failure {steps : Nat} (fails : course.FailsAt steps) :
    (∃ delay, course.stage (steps + 1) = .backingOff delay) ∧
      (course.worker (steps + 1)).phase = .syncing := by
  obtain ⟨after, delay, fault, fails⟩ := fails
  have moment := course.moment_succ steps
  rw [Life.step_of_fails fails] at moment
  refine ⟨⟨delay, ?_⟩, ?_⟩
  · rw [stage, moment]
    rfl
  · rw [worker, situation, moment]
    rfl

theorem between_of_failsAt {steps : Nat} (fails : course.FailsAt steps) :
    ∃ fault message, course.between steps (steps + 1) = [.failed fault, .report message] := by
  obtain ⟨after, delay, fault, fails⟩ := fails
  have moment := course.moment_succ steps
  rw [Life.step_of_fails fails] at moment
  have grown : course.history (steps + 1) = course.history steps ++
      [.failed fault, .report (Life.warning (course.worker steps) delay fault)] := by
    rw [history, situation, moment]
    rfl
  exact ⟨fault, _, by rw [between, grown, List.drop_left]⟩

theorem not_relisted_of_failsAt {steps : Nat} (fails : course.FailsAt steps) :
    ¬ course.Does steps .relisted := by
  obtain ⟨fault, message, recorded⟩ := between_of_failsAt fails
  rw [Does, recorded]
  simp

theorem backing_off {steps : Nat} {delay : Float} (backing : course.stage steps = .backingOff delay) :
    course.stage (steps + 1) = .polling (Life.nextDelay course.timing delay) ∧
      course.between steps (steps + 1) = [.pause delay] ∧
      course.worker (steps + 1) = course.worker steps := by
  have transition := course.transition steps
  rw [backing] at transition
  exact transition.polling_of_backingOff

theorem finished_stays {first last : Nat} (ordered : first ≤ last)
    (finished : course.stage first = .finished) : course.moment last = course.moment first := by
  induction ordered with
  | refl => rfl
  | @step last _ ih =>
      have stays : course.stage last = .finished := by
        rw [stage, ih]
        exact finished
      rw [moment_succ, stays, Life.step, ← ih, ← stays]
      rfl

theorem admits (fresh : course.initial.phase = .unsynced) (steps : Nat) :
    (course.stage steps).Admits (course.worker steps).phase := by
  induction steps with
  | zero => exact .inl fresh
  | succ steps ih => exact (course.transition steps).admits ih

theorem phase_of_watching (fresh : course.initial.phase = .unsynced) {steps : Nat} {watch : WatchStage}
    (watching : course.stage steps = .watching watch) : (course.worker steps).phase = .synced := by
  have admits := admits fresh steps
  rw [watching] at admits
  exact admits.synced

theorem measuring_of_watch {steps : Nat} (watches : course.WatchesAt steps) :
    ∃ deadline, course.stage steps = .watching (.measuring deadline) := by
  obtain ⟨space, version, seconds, does⟩ := watches
  exact (course.transition steps).measuring_of_watch does

/-- After a failure the worker pauses and looks at the signal; then it lists or its life ends. -/
theorem list_after_failure {first last : Nat} (fails : course.FailsAt first) (ordered : first < last)
    (requests : course.ListsAt last ∨ course.WatchesAt last)
    (unlisted : ∀ between, first < between → between < last → ¬ course.ListsAt between) :
    course.ListsAt last := by
  rcases requests with lists | watches
  · exact lists
  obtain ⟨deadline, measuring⟩ := measuring_of_watch watches
  obtain ⟨⟨delay, backing⟩, _⟩ := after_failure fails
  have polling := (backing_off backing).1
  rcases Nat.lt_trichotomy last (first + 1 + 1) with early | rfl | late
  · obtain rfl : last = first + 1 := by omega
    rw [backing] at measuring
    cases measuring
  · rw [polling] at measuring
    cases measuring
  · have transition := course.transition (first + 1 + 1)
    rw [polling] at transition
    rcases transition.lists_or_finishes with lists | finished
    · exact absurd lists (unlisted _ (by omega) late)
    · have stays : course.stage last = .finished := by
        rw [stage, finished_stays late finished]
        exact finished
      rw [stays] at measuring
      cases measuring

theorem relist_before_watching {steps : Nat} {watch : WatchStage}
    (watching : course.stage steps = .watching watch) :
    ∃ first < steps, course.Does first .relisted ∧
      ∀ between, first < between → between ≤ steps → ∃ watch, course.stage between = .watching watch := by
  induction steps generalizing watch with
  | zero => cases watching
  | succ steps ih =>
      have transition := course.transition steps
      rw [watching] at transition
      rcases transition.watching_origin with relisted | ⟨earlier, continued⟩
      · refine ⟨steps, Nat.lt_succ_self steps, relisted, ?_⟩
        intro between later earlier
        obtain rfl : between = steps + 1 := by omega
        exact ⟨watch, watching⟩
      · obtain ⟨first, before, relisted, since⟩ := ih continued
        refine ⟨first, by omega, relisted, ?_⟩
        intro between later bounded
        by_cases final : between = steps + 1
        · subst final
          exact ⟨watch, watching⟩
        · exact since between later (by omega)

theorem syncedOnce_iff_relisted (fresh : course.initial.syncedOnce = false) (steps : Nat) :
    (course.worker steps).syncedOnce = true ↔ ∃ first < steps, course.Does first .relisted := by
  induction steps with
  | zero => simp [fresh]
  | succ steps ih =>
      have grown := (course.transition steps).syncedOnce_iff
      change (course.worker (steps + 1)).syncedOnce = true ↔
        (course.worker steps).syncedOnce = true ∨ course.Does steps .relisted at grown
      rw [grown, ih]
      constructor
      · intro relisted
        rcases relisted with ⟨first, before, does⟩ | does
        · exact ⟨first, by omega, does⟩
        · exact ⟨steps, Nat.lt_succ_self steps, does⟩
      · intro relisted
        obtain ⟨first, before, does⟩ := relisted
        by_cases final : first = steps
        · subst final
          exact .inr does
        · exact .inl ⟨first, by omega, does⟩

theorem request_of_listing {last : Nat} {delay : Float}
    (listing : course.stage last = .listing delay) :
    ∃ first < last, (∃ space, course.Does first (.list space (course.worker last).phase)) ∧
      ∀ between, first < between → between ≤ last → ∃ delay, course.stage between = .listing delay := by
  induction last generalizing delay with
  | zero => cases listing
  | succ last ih =>
      have transition := course.transition last
      rw [listing] at transition
      rcases transition.listing_origin with asked | ⟨⟨earlier, awaiting⟩, unchanged⟩
      · refine ⟨last, Nat.lt_succ_self last, asked, ?_⟩
        intro between later bounded
        obtain rfl : between = last + 1 := by omega
        exact ⟨delay, listing⟩
      · obtain ⟨first, before, asked, since⟩ := ih awaiting
        have same : course.worker (last + 1) = course.worker last := unchanged
        rw [same]
        refine ⟨first, by omega, asked, ?_⟩
        intro between later bounded
        by_cases final : between = last + 1
        · subst final
          exact ⟨delay, listing⟩
        · exact since between later (by omega)

theorem isSet_of_finished (signal : StopSignal course.around) {steps : Nat}
    (finished : course.stage steps = .finished) : signal.isSet (course.surroundings steps) := by
  induction steps with
  | zero => cases finished
  | succ steps ih =>
      have transition := course.transition steps
      rw [finished] at transition
      have held : signal.isSet (course.surroundings steps) := by
        rcases transition.finished_origin with finished | ⟨after, polled⟩
        · exact ih finished
        · exact signal.isSet_of_stopping polled
      exact course.isSet_mono signal (Nat.le_succ steps) held

/-- A worker that is about to list is synced exactly when its watch has just come to its deadline. A
watch that ended at the stop signal is not followed by a listing. -/
theorem synced_iff_expired (signal : StopSignal course.around)
    (fresh : course.initial.phase = .unsynced) {steps : Nat} {delay : Float}
    (polling : course.stage steps = .polling delay)
    (unset : ¬ signal.isSet (course.surroundings steps)) :
    (course.worker steps).phase = .synced ↔
      ∃ earlier, steps = earlier + 1 ∧ course.ExpiresAt earlier := by
  cases steps with
  | zero => simp [fresh]
  | succ steps =>
      have transition := course.transition steps
      rw [polling] at transition
      have admits := course.admits fresh steps
      have unsetBefore : ¬ signal.isSet (course.surroundings steps) :=
        fun held => unset (course.isSet_mono signal (Nat.le_succ steps) held)
      obtain ⟨unchanged, origin⟩ := transition.polling_origin
      have same : course.worker (steps + 1) = course.worker steps := unchanged
      rw [same]
      rcases origin with ⟨watch, after, watching, returns⟩ | ⟨paused, backing⟩
      · rw [watching] at admits
        refine iff_of_true admits.synced ⟨steps, rfl, ?_⟩
        cases returns with
        | halted polled => exact absurd (signal.isSet_of_stopping polled) unsetBefore
        | @expired deadline now _ read late =>
            have clock : (course.around.clock (course.surroundings steps)).1 = now :=
              congrArg Prod.fst read
            exact ⟨deadline, watching, by rw [clock]; exact late⟩
        | interrupted polled => exact absurd (signal.isSet_of_stopping polled) unsetBefore
        | returned => exact admits.elim
      · rw [backing] at admits
        refine iff_of_false ?_ ?_
        · intro synced
          rw [synced] at admits
          cases admits
        · intro expired
          obtain ⟨earlier, same, deadline, watching, _⟩ := expired
          cases same
          rw [backing] at watching
          cases watching

/-- The discipline of a worker: the order of its requests and the meaning of its phases. -/
structure Disciplined (course : Course σ) (signal : StopSignal course.around) : Prop where
  /-- The first request after a failure is for a listing. -/
  list_after_failure : ∀ first last, first < last → course.FailsAt first →
    course.ListsAt last ∨ course.WatchesAt last →
    (∀ between, first < between → between < last →
      ¬ (course.ListsAt between ∨ course.WatchesAt between)) →
    course.ListsAt last
  /-- Every watch rests on a relist with no failure since. -/
  relist_before_watch : ∀ last, course.WatchesAt last →
    ∃ first < last, course.Does first .relisted ∧
      ∀ between, first < between → between < last → ¬ course.FailsAt between
  watch_phase : ∀ steps, course.WatchesAt steps → (course.worker steps).phase = .synced
  delivery_phase : ∀ steps deadline remaining event,
    course.stage steps = .watching (.delivering deadline remaining event) →
    (course.worker steps).phase = .synced
  /-- A listing is a resync exactly when the step before found the deadline of a watch passed. -/
  list_phase : ∀ steps space phase, course.Does steps (.list space phase) →
    (phase = .resyncing ↔ ∃ earlier, steps = earlier + 1 ∧ course.ExpiresAt earlier) ∧
      (phase = .resyncing ∨ phase = .syncing)
  /-- The phase of a request for a listing stays until the answer comes. -/
  listing_phase : ∀ last delay, course.stage last = .listing delay →
    ∃ first < last, (∃ space, course.Does first (.list space (course.worker last).phase)) ∧
      ∀ between, first < between → between ≤ last → ∃ delay, course.stage between = .listing delay
  /-- The step after a failure is a pause, with the worker syncing before and after it. -/
  failure_phase : ∀ steps, course.FailsAt steps →
    (∃ delay, course.between (steps + 1) (steps + 2) = [.pause delay]) ∧
      (course.worker (steps + 1)).phase = .syncing ∧ (course.worker (steps + 2)).phase = .syncing
  syncedOnce_iff : ∀ steps, (course.worker steps).syncedOnce = true ↔
    ∃ first < steps, course.Does first .relisted
  stopped_iff : ∀ steps, (course.worker steps).phase = .stopped ↔ course.stage steps = .finished
  /-- A life ends only with the signal set, and nothing happens after its end. -/
  finished_last : ∀ first last, first ≤ last → course.stage first = .finished →
    signal.isSet (course.surroundings first) ∧ course.moment last = course.moment first

theorem relist_before_watch {last : Nat} (watches : course.WatchesAt last) :
    ∃ first < last, course.Does first .relisted ∧
      ∀ between, first < between → between < last → ¬ course.FailsAt between := by
  obtain ⟨deadline, measuring⟩ := measuring_of_watch watches
  obtain ⟨first, before, relisted, since⟩ := relist_before_watching measuring
  refine ⟨first, before, relisted, ?_⟩
  intro between later earlier fails
  obtain ⟨watch, watching⟩ := since (between + 1) (by omega) (by omega)
  obtain ⟨⟨delay, backing⟩, _⟩ := after_failure fails
  rw [backing] at watching
  cases watching

theorem list_phase (signal : StopSignal course.around) (fresh : course.initial.phase = .unsynced)
    {steps : Nat} {space : String} {phase : Phase} (lists : course.Does steps (.list space phase)) :
    (phase = .resyncing ↔ ∃ earlier, steps = earlier + 1 ∧ course.ExpiresAt earlier) ∧
      (phase = .resyncing ∨ phase = .syncing) := by
  obtain ⟨polled, ⟨delay, polling⟩, _, chosen⟩ := (course.transition steps).asked_of_list lists
  have unset : ¬ signal.isSet (course.surroundings steps) := by
    rw [← signal.told]
    exact ne_true_of_eq_false polled
  have chosen : phase = if (course.worker steps).phase = .synced then .resyncing else .syncing := chosen
  rw [← synced_iff_expired signal fresh polling unset, chosen]
  by_cases synced : (course.worker steps).phase = .synced
  · rw [if_pos synced]
    exact ⟨iff_of_true rfl synced, .inl rfl⟩
  · rw [if_neg synced]
    exact ⟨iff_of_false Phase.noConfusion synced, .inr rfl⟩

theorem failure_phase {steps : Nat} (fails : course.FailsAt steps) :
    (∃ delay, course.between (steps + 1) (steps + 2) = [.pause delay]) ∧
      (course.worker (steps + 1)).phase = .syncing ∧
      (course.worker (steps + 2)).phase = .syncing := by
  obtain ⟨⟨delay, backing⟩, syncing⟩ := after_failure fails
  obtain ⟨_, recorded, unchanged⟩ := backing_off backing
  refine ⟨⟨delay, recorded⟩, syncing, ?_⟩
  rw [unchanged]
  exact syncing

/-- The life of every new worker is disciplined, whatever it is answered and whenever it is stopped. -/
theorem ofNew_disciplined (timing : Timing) (around : Surroundings σ) (signal : StopSignal around)
    (kind : ResourceKind) (space : String) (start : σ) :
    Disciplined (ofNew timing around kind space start) signal where
  list_after_failure first last ordered fails requests unrequested :=
    list_after_failure fails ordered requests fun between later earlier lists =>
      unrequested between later earlier (.inl lists)
  relist_before_watch last watches := relist_before_watch watches
  watch_phase steps watches := by
    obtain ⟨deadline, measuring⟩ := measuring_of_watch watches
    exact phase_of_watching rfl measuring
  delivery_phase steps deadline remaining event delivering := phase_of_watching rfl delivering
  list_phase steps space phase lists := list_phase signal rfl lists
  listing_phase last delay listing := request_of_listing listing
  failure_phase steps fails := failure_phase fails
  syncedOnce_iff steps := syncedOnce_iff_relisted rfl steps
  stopped_iff steps := (admits rfl steps).stopped_iff
  finished_last first last ordered finished :=
    ⟨isSet_of_finished signal finished, finished_stays ordered finished⟩

end Course

/-! A stream that breaks at once, and a watch that is still open at its deadline. -/

namespace LostAndExpired

def script : Script where
  lists := [{ answer := .ok ⟨[], "5"⟩ }, { answer := .ok ⟨[], "7"⟩ },
    { answer := .ok ⟨[], "9"⟩, stops := true }]
  streams := [{ items := [⟨false, .failed (.unreachable "")⟩] }, { takes := 400.0 }]

def course : Course Script := .ofNew {} Script.surroundings .virtualService "mesh" script

theorem lists_after_lost_and_expired :
    course.Disciplined Script.stopSignal ∧ course.FailsAt 5 ∧ course.Does 7 (.list "mesh" .syncing) ∧
      course.Does 16 (.list "mesh" .resyncing) ∧ course.ExpiresAt 15 ∧
      (course.worker 21).phase = .stopped := by
  have disciplined : course.Disciplined Script.stopSignal :=
    Course.ofNew_disciplined {} Script.surroundings Script.stopSignal .virtualService "mesh" script
  have lost : course.FailsAt 5 := ⟨_, _, _, .watch (.broken rfl)⟩
  have asked : course.between 7 8 = [.list "mesh" .syncing] := rfl
  have askedAnew : course.between 16 17 = [.list "mesh" .resyncing] := rfl
  have lists : course.Does 7 (.list "mesh" .syncing) := by simp [Course.Does, asked]
  have resyncs : course.Does 16 (.list "mesh" .resyncing) := by simp [Course.Does, askedAnew]
  have expires : course.ExpiresAt 15 := by
    obtain ⟨earlier, next, expires⟩ := (disciplined.list_phase 16 "mesh" .resyncing resyncs).1.mp rfl
    obtain rfl : earlier = 15 := by omega
    exact expires
  have finished : course.stage 21 = .finished := rfl
  exact ⟨disciplined, lost, lists, resyncs, expires, (disciplined.stopped_iff 21).mpr finished⟩

end LostAndExpired
end MeshGauges
