import MeshGauges.Proofs.Replica.StopSignal

/-! The end of a life whose stop signal is set.

Two budgets fall from step to step once the signal is set: the steps up to the end of the life and the
pauses on the way. A list request whose answer is still to come stands outside the first, because nothing
bounds how long it takes. -/

set_option autoImplicit false

namespace MeshGauges

variable {σ : Type}

def Activity.isPause : Activity → Bool
  | .pause _ => true
  | _ => false

namespace LifeStage

/-- The steps that a life can still take when the signal is set and the list request is answered. -/
def stepsLeft : LifeStage → Nat
  | .polling _ => 1
  | .listing _ => 4
  | .watching .dating => 3
  | .watching (.polling _) => 2
  | .watching (.measuring _) => 5
  | .watching (.streaming _ _ _) => 4
  | .watching (.delivering _ _ _) => 2
  | .watching (.pausing _ _) => 3
  | .watching .returned => 2
  | .watching (.raised _) => 3
  | .backingOff _ => 2
  | .finished => 0

/-- The pauses that a life can still make when the signal is set. -/
def pausesLeft : LifeStage → Nat
  | .polling _ => 0
  | .listing _ => 1
  | .watching .dating => 1
  | .watching (.polling _) => 0
  | .watching (.measuring _) => 1
  | .watching (.streaming _ _ _) => 1
  | .watching (.delivering _ _ _) => 0
  | .watching (.pausing _ _) => 1
  | .watching .returned => 0
  | .watching (.raised _) => 1
  | .backingOff _ => 1
  | .finished => 0

theorem stepsLeft_le (stage : LifeStage) : stage.stepsLeft ≤ 5 := by
  cases stage with
  | watching stage => cases stage <;> simp [stepsLeft]
  | _ => simp [stepsLeft]

theorem pausesLeft_le (stage : LifeStage) : stage.pausesLeft ≤ 1 := by
  cases stage with
  | watching stage => cases stage <;> simp [pausesLeft]
  | _ => simp [pausesLeft]

theorem finished_of_stepsLeft {stage : LifeStage} (spent : stage.stepsLeft = 0) :
    stage = .finished := by
  cases stage with
  | watching stage => cases stage <;> cases spent
  | finished => rfl
  | _ => cases spent

def IsListing (stage : LifeStage) : Prop := ∃ delay, stage = .listing delay

end LifeStage

namespace Life.Transition

variable {timing : Timing} {around : Surroundings σ} {situation later : Situation σ}
  {stage reached : LifeStage} {added : List Activity}

theorem stopped_of_finished
    (transition : Transition timing around situation stage added later reached)
    (held : stage = .finished → situation.worker.phase = .stopped) :
    reached = .finished → later.worker.phase = .stopped := by
  intro ended
  cases transition with
  | stopped => rfl
  | finished => exact held rfl
  | _ => cases ended

/-- Only a look at the signal that finds it not set leads to a request for a stream. -/
theorem looked_of_measuring {deadline : Float}
    (transition : Transition timing around situation stage added later (.watching (.measuring deadline))) :
    stage = .watching (.polling deadline) ∧
      ∃ after, around.stopping situation.surroundings = (false, after) := by
  cases transition with
  | advanced advances =>
      cases advances with
      | continued polled => exact ⟨rfl, _, polled⟩

section Stopping

variable (signal : StopSignal around) (stopping : signal.isSet situation.surroundings)
  (transition : Transition timing around situation stage added later reached)

include signal stopping transition

theorem not_list_of_isSet {space : String} {phase : Phase} : .list space phase ∉ added := by
  cases transition with
  | asked polled => exact absurd stopping (signal.not_isSet_of_stopping polled)
  | advanced advances => cases advances <;> simp
  | _ => simp

theorem not_applied_of_isSet {event : Tree} : .applied event ∉ added := by
  cases transition with
  | advanced advances =>
      cases advances with
      | applied polled => exact absurd stopping (signal.not_isSet_of_stopping polled)
      | _ => simp
  | _ => simp

theorem isListing_of_isSet (listing : reached.IsListing) : stage.IsListing := by
  obtain ⟨delay, listing⟩ := listing
  cases transition with
  | asked polled => exact absurd stopping (signal.not_isSet_of_stopping polled)
  | unanswered => exact ⟨_, rfl⟩
  | _ => cases listing

theorem snapshot_of_isSet :
    later.worker.snapshot = situation.worker.snapshot ∨
      stage.IsListing ∧ ∃ listing resources after,
        around.list situation.worker.space situation.surroundings = (some (.ok listing), after) ∧
        Worker.readAll? situation.worker.kind.name listing.objects = some resources ∧
        later.worker.snapshot = .ofList resources := by
  cases transition with
  | relisted answered read => exact .inr ⟨⟨_, rfl⟩, _, _, _, answered, read, rfl⟩
  | advanced advances =>
      cases advances with
      | applied polled => exact absurd stopping (signal.not_isSet_of_stopping polled)
      | _ => exact .inl rfl
  | _ => exact .inl rfl

theorem stepsLeft_of_isSet (answered : ¬ reached.IsListing) :
    reached.stepsLeft ≤ stage.stepsLeft - 1 := by
  cases transition with
  | asked polled => exact absurd stopping (signal.not_isSet_of_stopping polled)
  | unanswered => exact absurd ⟨_, rfl⟩ answered
  | advanced advances =>
      cases advances with
      | continued polled => exact absurd stopping (signal.not_isSet_of_stopping polled)
      | applied polled => exact absurd stopping (signal.not_isSet_of_stopping polled)
      | _ => simp [LifeStage.stepsLeft]
  | returned returns => cases returns <;> simp [LifeStage.stepsLeft]
  | failed fails =>
      cases fails with
      | watch raises =>
          cases raises with
          | refused polled => exact absurd stopping (signal.not_isSet_of_stopping polled)
          | _ => simp [LifeStage.stepsLeft]
      | _ => simp [LifeStage.stepsLeft]
  | _ => simp [LifeStage.stepsLeft]

theorem pausesLeft_of_isSet :
    added.countP Activity.isPause + reached.pausesLeft ≤ stage.pausesLeft := by
  cases transition with
  | asked polled => exact absurd stopping (signal.not_isSet_of_stopping polled)
  | advanced advances =>
      cases advances with
      | continued polled => exact absurd stopping (signal.not_isSet_of_stopping polled)
      | applied polled => exact absurd stopping (signal.not_isSet_of_stopping polled)
      | _ => simp [LifeStage.pausesLeft, Activity.isPause]
  | returned returns => cases returns <;> simp [LifeStage.pausesLeft]
  | failed fails =>
      cases fails with
      | watch raises =>
          cases raises with
          | refused polled => exact absurd stopping (signal.not_isSet_of_stopping polled)
          | _ => simp [LifeStage.pausesLeft, Activity.isPause]
      | _ => simp [LifeStage.pausesLeft, Activity.isPause]
  | _ => simp [LifeStage.pausesLeft, Activity.isPause]

end Stopping

end Life.Transition

namespace Course

/-- The answer to the list request comes, and its objects describe the given resources. -/
def ListedAt (course : Course σ) (steps : Nat) (resources : List Resource) : Prop :=
  ∃ listing after,
    course.around.list (course.worker steps).space (course.surroundings steps) =
      (some (.ok listing), after) ∧
    Worker.readAll? (course.worker steps).kind.name listing.objects = some resources

/-- What a worker does from a moment on at which its signal is set. -/
structure StopsPromptly (course : Course σ) (signal : StopSignal course.around) (first : Nat) :
    Prop where
  no_list : ∀ last ≥ first, ∀ space phase, ¬ course.Does last (.list space phase)
  /-- A stream is requested only in the very next step, and only when the signal became set as the watch
  looked at it and was told that it was not. -/
  no_watch : ∀ last ≥ first, ∀ space version seconds,
    course.Does last (.watch space version seconds) → last = first ∧
      ∃ earlier deadline, first = earlier + 1 ∧
        course.stage earlier = .watching (.polling deadline) ∧
        ¬ signal.isSet (course.surroundings earlier)
  no_event : ∀ last ≥ first, ∀ event, ¬ course.Does last (.applied event)
  /-- The snapshot stays, unless a list request was made before and its answer comes now. -/
  snapshot_eq : ∀ last ≥ first, (course.worker last).snapshot = (course.worker first).snapshot ∨
    ∃ answered resources, first ≤ answered ∧ answered < last ∧
      (∀ between, first ≤ between → between ≤ answered → (course.stage between).IsListing) ∧
      course.ListedAt answered resources ∧ (course.worker last).snapshot = .ofList resources
  one_pause : ∀ last ≥ first, (course.between first last).countP Activity.isPause ≤ 1
  /-- The life ends at most five steps after the last list request is answered. -/
  finishes : ∀ last ≥ first, ¬ (course.stage last).IsListing →
    course.stage (last + 5) = .finished ∧ (course.worker (last + 5)).phase = .stopped

variable {course : Course σ}

theorem stopped_of_finished {steps : Nat} (finished : course.stage steps = .finished) :
    (course.worker steps).phase = .stopped := by
  induction steps with
  | zero => cases finished
  | succ steps ih => exact (course.transition steps).stopped_of_finished ih finished

section Stopping

variable (signal : StopSignal course.around) {first last : Nat}
  (stopping : signal.isSet (course.surroundings first)) (ordered : first ≤ last)

include signal stopping ordered

theorem not_watch_of_isSet {space version : String} {seconds : Int}
    (watches : course.Does last (.watch space version seconds)) :
    last = first ∧ ∃ earlier deadline, first = earlier + 1 ∧
      course.stage earlier = .watching (.polling deadline) ∧
      ¬ signal.isSet (course.surroundings earlier) := by
  obtain ⟨deadline, measuring⟩ := (course.transition last).measuring_of_watch watches
  cases last with
  | zero => cases measuring
  | succ earlier =>
      have transition := course.transition earlier
      rw [measuring] at transition
      obtain ⟨polling, after, polled⟩ := transition.looked_of_measuring
      have unset := signal.not_isSet_of_stopping polled
      have recent : first = earlier + 1 := by
        rcases Nat.lt_or_ge earlier first with later | before
        · omega
        · exact absurd (course.isSet_mono signal before stopping) unset
      exact ⟨recent.symm, earlier, deadline, recent, polling, unset⟩

theorem isListing_since (listing : (course.stage last).IsListing) :
    ∀ between, first ≤ between → between ≤ last → (course.stage between).IsListing := by
  induction ordered with
  | refl =>
      intro between later earlier
      obtain rfl : between = first := by omega
      exact listing
  | @step last ordered ih =>
      have stopping := course.isSet_mono signal ordered stopping
      intro between later earlier
      by_cases final : between = last + 1
      · subst final
        exact listing
      · exact ih ((course.transition last).isListing_of_isSet signal stopping listing) between later
          (by omega)

theorem snapshot_of_isSet :
    (course.worker last).snapshot = (course.worker first).snapshot ∨
      ∃ answered resources, first ≤ answered ∧ answered < last ∧
        (∀ between, first ≤ between → between ≤ answered → (course.stage between).IsListing) ∧
        course.ListedAt answered resources ∧ (course.worker last).snapshot = .ofList resources := by
  induction ordered with
  | refl => exact .inl rfl
  | @step last ordered ih =>
      have stoppingLast := course.isSet_mono signal ordered stopping
      have outcome := (course.transition last).snapshot_of_isSet signal stoppingLast
      change (course.worker (last + 1)).snapshot = (course.worker last).snapshot ∨ _ at outcome
      rcases outcome with unchanged | ⟨listing, answer, resources, after, answered, read, listed⟩
      · rw [unchanged]
        rcases ih with same | ⟨moment, resources, later, earlier, since, listed, published⟩
        · exact .inl same
        · exact .inr ⟨moment, resources, later, by omega, since, listed, published⟩
      · exact .inr ⟨last, resources, ordered, Nat.lt_succ_self last,
          isListing_since signal stopping ordered listing, ⟨answer, after, answered, read⟩, listed⟩

theorem pausesLeft_of_isSet :
    (course.between first last).countP Activity.isPause + (course.stage last).pausesLeft ≤
      (course.stage first).pausesLeft := by
  induction ordered with
  | refl => simp
  | @step last ordered ih =>
      have stopping := course.isSet_mono signal ordered stopping
      have paid := (course.transition last).pausesLeft_of_isSet signal stopping
      rw [Nat.succ_eq_add_one, between_succ course ordered, List.countP_append]
      omega

theorem stepsLeft_of_isSet (answered : ¬ (course.stage first).IsListing) :
    (course.stage last).stepsLeft ≤ (course.stage first).stepsLeft - (last - first) := by
  induction ordered with
  | refl => simp
  | @step last ordered ih =>
      have stoppingLast := course.isSet_mono signal ordered stopping
      have unasked : ¬ (course.stage (last + 1)).IsListing := fun listing =>
        answered (isListing_since signal stopping (Nat.le_succ_of_le ordered) listing first
          (Nat.le_refl first) (Nat.le_succ_of_le ordered))
      have spent := (course.transition last).stepsLeft_of_isSet signal stoppingLast unasked
      rw [Nat.succ_eq_add_one]
      omega

end Stopping

theorem finishes_of_isSet (signal : StopSignal course.around) {first : Nat}
    (stopping : signal.isSet (course.surroundings first))
    (answered : ¬ (course.stage first).IsListing) : course.stage (first + 5) = .finished := by
  have spent := stepsLeft_of_isSet signal stopping (Nat.le_add_right first 5) answered
  have bounded := (course.stage first).stepsLeft_le
  exact LifeStage.finished_of_stepsLeft (by omega)

/-- From any moment on at which the signal is set, a worker starts nothing new and stops. -/
theorem stopsPromptly_of_isSet (course : Course σ) (signal : StopSignal course.around) {first : Nat}
    (stopping : signal.isSet (course.surroundings first)) : course.StopsPromptly signal first where
  no_list last ordered space phase :=
    (course.transition last).not_list_of_isSet signal (course.isSet_mono signal ordered stopping)
  no_watch last ordered space version seconds watches :=
    not_watch_of_isSet signal stopping ordered watches
  no_event last ordered event :=
    (course.transition last).not_applied_of_isSet signal (course.isSet_mono signal ordered stopping)
  snapshot_eq last ordered := snapshot_of_isSet signal stopping ordered
  one_pause last ordered := by
    have paid := pausesLeft_of_isSet signal stopping ordered
    have bounded := (course.stage first).pausesLeft_le
    omega
  finishes last ordered answered := by
    have finished := finishes_of_isSet signal (course.isSet_mono signal ordered stopping) answered
    exact ⟨finished, stopped_of_finished finished⟩

end Course

/-! A stream whose only event comes together with the stop signal. -/

namespace LateEvent

def script : Script where
  lists := [{ answer := .ok ⟨[.object []], "5"⟩ }]
  streams := [{ items := [⟨true, .event (.object [("type", .text "DELETED")])⟩] }]

def course : Course Script := .ofNew {} Script.surroundings .virtualService "mesh" script

theorem stops_before_event :
    (course.surroundings 6).stopping = true ∧ (course.worker 6).phase = .synced ∧
      course.StopsPromptly Script.stopSignal 6 ∧ course.stage 11 = .finished := by
  have stopping : Script.stopSignal.isSet (course.surroundings 6) := rfl
  have stops := course.stopsPromptly_of_isSet Script.stopSignal stopping
  have answered : ¬ (course.stage 6).IsListing := by
    intro listing
    obtain ⟨delay, listing⟩ := listing
    cases listing
  exact ⟨stopping, rfl, stops, (stops.finishes 6 (Nat.le_refl 6) answered).1⟩

end LateEvent
end MeshGauges
