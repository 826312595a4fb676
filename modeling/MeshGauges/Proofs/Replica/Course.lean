import MeshGauges.Proofs.Replica.Transition

/-! The course of a worker's life, moment by moment.

A moment is what lies between two steps: the worker, the state of its surroundings, the history up to
there and the stage of the life. `Course.transition` ties neighbouring moments by a transition, so an
invariant of a whole life needs one case for each transition and an induction on the moments. -/

set_option autoImplicit false

namespace MeshGauges

variable {σ : Type}

namespace Life

theorem run_succ (timing : Timing) (around : Surroundings σ) (steps : Nat) (situation : Situation σ)
    (stage : LifeStage) :
    run timing around (steps + 1) situation stage =
      step timing around (run timing around steps situation stage).1
        (run timing around steps situation stage).2 := by
  induction steps generalizing situation stage with
  | zero => rfl
  | succ steps ih =>
      exact ih (step timing around situation stage).1 (step timing around situation stage).2

end Life

/-- All that determines a worker's life: its timing, what it asks, and where both begin. -/
structure Course (σ : Type) where
  timing : Timing
  around : Surroundings σ
  initial : Worker
  start : σ

namespace Course

def ofNew (timing : Timing) (around : Surroundings σ) (kind : ResourceKind) (space : String)
    (start : σ) : Course σ :=
  ⟨timing, around, { kind := kind, space := space }, start⟩

def moment (course : Course σ) (steps : Nat) : Situation σ × LifeStage :=
  Life.live course.timing course.around steps course.initial course.start

def situation (course : Course σ) (steps : Nat) : Situation σ := (course.moment steps).1

def stage (course : Course σ) (steps : Nat) : LifeStage := (course.moment steps).2

def worker (course : Course σ) (steps : Nat) : Worker := (course.situation steps).worker

def surroundings (course : Course σ) (steps : Nat) : σ := (course.situation steps).surroundings

def history (course : Course σ) (steps : Nat) : List Activity := (course.situation steps).history

def between (course : Course σ) (first last : Nat) : List Activity :=
  (course.history last).drop (course.history first).length

/-- What a worker does in the step from a moment to the next. -/
def Does (course : Course σ) (steps : Nat) (activity : Activity) : Prop :=
  activity ∈ course.between steps (steps + 1)

variable (course : Course σ)

@[simp] theorem worker_zero : course.worker 0 = course.initial := rfl

theorem history_zero :
    course.history 0 = [.report (.info ("Starting sync of " ++ course.initial.label))] := rfl

theorem moment_succ (steps : Nat) :
    course.moment (steps + 1) =
      Life.step course.timing course.around (course.situation steps) (course.stage steps) :=
  Life.run_succ course.timing course.around steps
    (Life.begin course.timing course.initial course.start).1
    (Life.begin course.timing course.initial course.start).2

/-- Neighbouring moments are tied by a transition that adds what the worker does between them. -/
theorem transition (steps : Nat) :
    Life.Transition course.timing course.around (course.situation steps) (course.stage steps)
      (course.between steps (steps + 1)) (course.situation (steps + 1)) (course.stage (steps + 1)) := by
  obtain ⟨added, transition⟩ := Life.step_transition course.timing course.around
    (course.situation steps) (course.stage steps)
  rw [← moment_succ] at transition
  have grown : course.history (steps + 1) = course.history steps ++ added := transition.history_eq
  have recorded : course.between steps (steps + 1) = added := by
    rw [between, grown, List.drop_left]
  rw [recorded]
  exact transition

theorem worker_identity (steps : Nat) :
    (course.worker steps).kind = course.initial.kind ∧
      (course.worker steps).space = course.initial.space := by
  induction steps with
  | zero => exact ⟨rfl, rfl⟩
  | succ steps ih =>
      obtain ⟨kind, space⟩ := (course.transition steps).identity_eq
      exact ⟨kind.trans ih.1, space.trans ih.2⟩

theorem history_succ (steps : Nat) :
    course.history (steps + 1) = course.history steps ++ course.between steps (steps + 1) :=
  (course.transition steps).history_eq

theorem history_mono {first last : Nat} (ordered : first ≤ last) :
    course.history first <+: course.history last := by
  induction ordered with
  | refl => exact List.prefix_refl _
  | step _ ih =>
      rw [history_succ]
      exact ih.trans (List.prefix_append _ _)

theorem history_eq_append {first last : Nat} (ordered : first ≤ last) :
    course.history last = course.history first ++ course.between first last :=
  (List.prefix_iff_eq_append.mp (course.history_mono ordered)).symm

@[simp] theorem between_self (steps : Nat) : course.between steps steps = [] := by
  simp [between]

theorem between_succ {first last : Nat} (ordered : first ≤ last) :
    course.between first (last + 1) = course.between first last ++ course.between last (last + 1) := by
  have grown := course.history_succ last
  rw [course.history_eq_append ordered, List.append_assoc] at grown
  rw [between, grown, List.drop_left]

/-- What no question to the surroundings undoes holds from one moment on. -/
theorem carries {kept : σ → Prop}
    (carried : ∀ before after, course.around.Leads before after → kept before → kept after)
    {first last : Nat} (ordered : first ≤ last) (held : kept (course.surroundings first)) :
    kept (course.surroundings last) := by
  induction ordered with
  | refl => exact held
  | step _ ih => exact (course.transition _).carries carried ih

end Course
end MeshGauges
