import MeshGauges.Proofs.Replica.Course
import MeshGauges.Proofs.Replica.Reading

/-! What readers of a worker see.

An operation publishes its outcome as a whole or not at all. So between two operations that succeed
readers see what the first of them published, however many fail in between and wherever in a listing or
in an event the defect lies. -/

set_option autoImplicit false

namespace MeshGauges

variable {σ : Type}

namespace Worker

/-- Readers cannot tell the two workers apart: only the phase may differ. -/
structure SameData (left right : Worker) : Prop where
  snapshot : left.snapshot = right.snapshot
  version : left.version = right.version
  syncedOnce : left.syncedOnce = right.syncedOnce

theorem SameData.refl (worker : Worker) : SameData worker worker := ⟨rfl, rfl, rfl⟩

theorem SameData.trans {left middle right : Worker} (first : SameData left middle)
    (second : SameData middle right) : SameData left right :=
  ⟨first.snapshot.trans second.snapshot, first.version.trans second.version,
    first.syncedOnce.trans second.syncedOnce⟩

def Succeeds (worker : Worker) (operation : Operation) : Prop :=
  (worker.perform operation).2.fault = none

/-- Which operations fail, and what they leave. -/
structure KeepsData (worker : Worker) : Prop where
  relist_fails_iff : ∀ answer, ¬ worker.Succeeds (.relist answer) ↔
    (∃ fault, answer = .error fault) ∨ ∃ listing, answer = .ok listing ∧
      ∃ object ∈ listing.objects, Resource.ofObject? worker.kind.name object = none
  relist_keeps : ∀ answer, ¬ worker.Succeeds (.relist answer) →
    SameData (worker.perform (.relist answer)).1 worker
  apply_fails_iff : ∀ event, ¬ worker.Succeeds (.apply event) ↔ Event.IsRefused event
  /-- Events of a type that is not known change nothing either. -/
  apply_keeps : ∀ event,
    ¬ worker.Succeeds (.apply event) ∨ ¬ Event.IsKnownType (event.member "type") →
    (worker.perform (.apply event)).1 = worker

variable {worker : Worker}

theorem perform_relist_of_read {listing : Listing} {resources : List Resource}
    (read : readAll? worker.kind.name listing.objects = some resources) :
    worker.perform (.relist (.ok listing)) =
      (worker.adopted listing.version resources,
        ⟨none, [(worker.adopted listing.version resources).listed]⟩) := by
  simp only [perform, Except.bind, adopt, beginRelist, read, settle, adopted]

theorem perform_relist_of_unread {listing : Listing}
    (unread : readAll? worker.kind.name listing.objects = none) :
    worker.perform (.relist (.ok listing)) = (worker.beginRelist, ⟨some .malformed, []⟩) := by
  simp only [perform, Except.bind, adopt, beginRelist, unread, settle]

theorem perform_apply_of_ok {changed : Worker} {journal : Journal} {event : Tree}
    (applied : worker.apply event = .ok (changed, journal)) :
    worker.perform (.apply event) = (changed, ⟨none, journal⟩) := by
  simp only [perform, applied, settle]

theorem perform_apply_of_error {fault : Fault} {event : Tree}
    (failed : worker.apply event = .error fault) :
    worker.perform (.apply event) = (worker, ⟨some fault, []⟩) := by
  simp only [perform, failed, settle]

theorem not_succeeds_relist_iff {answer : Except Fault Listing} :
    ¬ worker.Succeeds (.relist answer) ↔
      (∃ fault, answer = .error fault) ∨ ∃ listing, answer = .ok listing ∧
        ∃ object ∈ listing.objects, Resource.ofObject? worker.kind.name object = none := by
  cases answer with
  | error fault => simp [Succeeds, perform, Except.bind, settle]
  | ok listing =>
      cases read : readAll? worker.kind.name listing.objects with
      | none =>
          have described := readAll?_eq_none_iff.mp read
          simp only [Succeeds, perform_relist_of_unread read]
          exact iff_of_true (Option.some_ne_none _) (.inr ⟨listing, rfl, described⟩)
      | some resources =>
          simp only [Succeeds, perform_relist_of_read read]
          refine iff_of_false (not_not_intro trivial) ?_
          intro defect
          rcases defect with ⟨fault, denied⟩ | ⟨other, same, described⟩
          · cases denied
          · cases same
            rw [readAll?_eq_none_iff.mpr described] at read
            cases read

theorem sameData_of_not_succeeds {answer : Except Fault Listing}
    (failed : ¬ worker.Succeeds (.relist answer)) :
    SameData (worker.perform (.relist answer)).1 worker := by
  cases answer with
  | error fault => exact ⟨rfl, rfl, rfl⟩
  | ok listing =>
      cases read : readAll? worker.kind.name listing.objects with
      | none =>
          rw [perform_relist_of_unread read]
          exact ⟨rfl, rfl, rfl⟩
      | some resources =>
          rw [Succeeds, perform_relist_of_read read] at failed
          exact absurd rfl failed

theorem not_succeeds_apply_iff {event : Tree} :
    ¬ worker.Succeeds (.apply event) ↔ Event.IsRefused event := by
  have failing : (∃ fault, worker.apply event = .error fault) ↔ _ := apply_eq_error_iff
  rw [← failing]
  cases applied : worker.apply event with
  | error fault => simp [Succeeds, perform_apply_of_error applied]
  | ok changed => simp [Succeeds, perform_apply_of_ok applied]

theorem perform_apply_of_not_succeeds {event : Tree} (failed : ¬ worker.Succeeds (.apply event)) :
    (worker.perform (.apply event)).1 = worker := by
  cases applied : worker.apply event with
  | error fault => rw [perform_apply_of_error applied]
  | ok changed =>
      rw [Succeeds, perform_apply_of_ok applied] at failed
      exact absurd rfl failed

/-- An event of a type that is not known is passed over when it is made of objects; otherwise it is
refused. -/
theorem perform_apply_of_unknown {event : Tree}
    (unknown : ¬ Event.IsKnownType (event.member "type")) :
    (worker.perform (.apply event)).1 = worker := by
  by_cases refused : Event.IsRefused event
  · exact perform_apply_of_not_succeeds (not_succeeds_apply_iff.mpr refused)
  cases isObject : event.members? with
  | none => exact absurd (.notObject isObject) refused
  | some members =>
      cases held : Resource.section? event "object" with
      | none => exact absurd (.object (Resource.section?_eq_none_iff.mp held)) refused
      | some object =>
          have passed : worker.apply event = .ok (worker, _) :=
            apply_of_read (Event.ofTree?_unknown isObject unknown held)
          rw [perform_apply_of_ok passed]

theorem keepsData (worker : Worker) : worker.KeepsData where
  relist_fails_iff _ := not_succeeds_relist_iff
  relist_keeps _ failed := sameData_of_not_succeeds failed
  apply_fails_iff _ := not_succeeds_apply_iff
  apply_keeps _ fruitless := fruitless.elim perform_apply_of_not_succeeds perform_apply_of_unknown

end Worker

namespace Life

/-- The operation that a worker carries out in one step of its life. -/
inductive Attempts (around : Surroundings σ) (situation : Situation σ) :
    LifeStage → Worker.Operation → Prop where
  | relist {delay : Float} {after : σ} {answer : Except Fault Listing} :
      around.list situation.worker.space situation.surroundings = (some answer, after) →
      Attempts around situation (.listing delay) (.relist answer)
  | apply {deadline remaining : Float} {event : Tree} {after : σ} :
      around.stopping situation.surroundings = (false, after) →
      Attempts around situation (.watching (.delivering deadline remaining event)) (.apply event)

theorem Fails.not_succeeds {timing : Timing} {around : Surroundings σ} {situation : Situation σ}
    {stage : LifeStage} {after : σ} {delay : Float} {fault : Fault} {operation : Worker.Operation}
    (fails : Fails timing around situation stage after delay fault)
    (attempts : Attempts around situation stage operation) :
    ¬ situation.worker.Succeeds operation := by
  cases attempts with
  | relist answered =>
      rw [Worker.not_succeeds_relist_iff]
      cases fails with
      | denied denied =>
          rw [answered] at denied
          cases denied
          exact .inl ⟨_, rfl⟩
      | malformed listed member undescribed =>
          rw [answered] at listed
          cases listed
          exact .inr ⟨_, rfl, _, member, undescribed⟩
  | apply polled =>
      cases fails with
      | watch raises =>
          cases raises with
          | refused _ failed =>
              exact Worker.not_succeeds_apply_iff.mpr (Worker.apply_eq_error_iff.mp ⟨_, failed⟩)

/-- A step publishes the outcome of an operation that succeeds, or readers see no difference. -/
theorem Transition.publishes {timing : Timing} {around : Surroundings σ}
    {situation later : Situation σ} {stage reached : LifeStage} {added : List Activity}
    (transition : Transition timing around situation stage added later reached) :
    (∃ operation, Attempts around situation stage operation ∧
      situation.worker.Succeeds operation ∧
      later.worker = (situation.worker.perform operation).1) ∨
    (∀ operation, Attempts around situation stage operation →
      ¬ situation.worker.Succeeds operation) ∧ later.worker.SameData situation.worker := by
  cases transition with
  | stopped => exact .inr ⟨nofun, rfl, rfl, rfl⟩
  | asked => exact .inr ⟨nofun, rfl, rfl, rfl⟩
  | unanswered unanswered =>
      refine .inr ⟨?_, .refl _⟩
      intro operation attempts
      cases attempts with
      | relist answered =>
          rw [unanswered] at answered
          cases answered
  | relisted answered read =>
      have performed := Worker.perform_relist_of_read read
      refine .inl ⟨_, .relist answered, ?_, ?_⟩
      · rw [Worker.Succeeds, performed]
      · rw [performed]
  | advanced advances =>
      cases advances with
      | applied polled applied =>
          have performed := Worker.perform_apply_of_ok applied
          refine .inl ⟨_, .apply polled, ?_, ?_⟩
          · rw [Worker.Succeeds, performed]
          · rw [performed]
      | _ => exact .inr ⟨nofun, .refl _⟩
  | returned returns =>
      refine .inr ⟨?_, .refl _⟩
      intro operation attempts
      cases attempts with
      | apply looked =>
          cases returns with
          | interrupted polled =>
              rw [polled] at looked
              cases looked
  | failed fails => exact .inr ⟨fun _ attempts => fails.not_succeeds attempts, rfl, rfl, rfl⟩
  | backedOff => exact .inr ⟨nofun, .refl _⟩
  | finished => exact .inr ⟨nofun, .refl _⟩

end Life

namespace Course

def SucceedsAt (course : Course σ) (steps : Nat) (operation : Worker.Operation) : Prop :=
  Life.Attempts course.around (course.situation steps) (course.stage steps) operation ∧
    (course.worker steps).Succeeds operation

/-- Readers see what the last operation that succeeded has published, or what was there before any. -/
def ShowsLastGood (course : Course σ) (steps : Nat) : Prop :=
  ∃ first ≤ steps,
    (first = 0 ∨ ∃ earlier operation, first = earlier + 1 ∧ course.SucceedsAt earlier operation ∧
      course.worker first = ((course.worker earlier).perform operation).1) ∧
    (∀ between, first ≤ between → between < steps →
      ∀ operation, ¬ course.SucceedsAt between operation) ∧
    (course.worker steps).SameData (course.worker first)

variable (course : Course σ)

theorem showsLastGood (steps : Nat) : course.ShowsLastGood steps := by
  induction steps with
  | zero =>
      refine ⟨0, Nat.le_refl 0, .inl rfl, ?_, .refl _⟩
      intro between later earlier
      omega
  | succ steps ih =>
      rcases (course.transition steps).publishes with
        ⟨operation, attempts, succeeds, published⟩ | ⟨fruitless, unchanged⟩
      · refine ⟨steps + 1, Nat.le_refl _,
          .inr ⟨steps, operation, rfl, ⟨attempts, succeeds⟩, published⟩, ?_, .refl _⟩
        intro between later earlier
        omega
      · obtain ⟨first, ordered, origin, since, same⟩ := ih
        refine ⟨first, Nat.le_succ_of_le ordered, origin, ?_, .trans unchanged same⟩
        intro between later earlier
        by_cases final : between = steps
        · subst final
          exact fun operation succeeds => fruitless operation succeeds.1 succeeds.2
        · exact since between later (by omega)

/-- A relist or an event that fails leaves the data of every worker as it was, so at every moment of a
life readers see what the last success published. -/
theorem failures_keep_data :
    (∀ worker : Worker, worker.KeepsData) ∧ ∀ steps, course.ShowsLastGood steps :=
  ⟨Worker.keepsData, course.showsLastGood⟩

end Course
end MeshGauges
