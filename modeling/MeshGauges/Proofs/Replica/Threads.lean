import Mathlib.Algebra.Order.Group.Defs
import Mathlib.Data.List.Basic
import Mathlib.Logic.Function.Iterate
import Mathlib.Logic.Relation
import MeshGauges.Proofs.Replica.PromptStop
import MeshGauges.Replica.Fleet

/-! Threads beside their owner.

Whatever order the turns of a pool come in, each of its threads only takes steps of its own life and time
does not run backwards. `Pool.Evolves` says so. Every action of the owner lets a pool evolve, so what one
step of one thread preserves holds of all threads at all later times. Times are exact: they are of any
ordered group. -/

set_option autoImplicit false

namespace MeshGauges

variable {σ Time : Type}

namespace Surroundings

/-- A list request for a namespace is never answered, however long one waits. -/
def Unanswered (around : Surroundings σ) (space : String) (state : σ) : Prop :=
  ∀ waited, (around.list space ((fun earlier => (around.list space earlier).2)^[waited] state)).1 = none

theorem unanswered_iff {around : Surroundings σ} {space : String} {state : σ} :
    around.Unanswered space state ↔
      (around.list space state).1 = none ∧ around.Unanswered space (around.list space state).2 := by
  constructor
  · intro unanswered
    exact ⟨unanswered 0, fun waited => unanswered (waited + 1)⟩
  · intro silent waited
    obtain ⟨now, later⟩ := silent
    cases waited with
    | zero => exact now
    | succ waited => exact later waited

/-- The stop signal that others have set already. -/
def sharedSignal (around : Surroundings σ) : StopSignal (around.sharing true) where
  isSet _ := True
  told _ := ⟨fun _ => trivial, fun _ => rfl⟩
  stays _ _ _ _ := trivial

end Surroundings

/-- What a worker is there for: a kind of resource and a namespace. -/
def Worker.post (worker : Worker) : ResourceKind × String := (worker.kind, worker.space)

namespace Thread

/-- A thread is inside a list request that is never answered. -/
structure Hangs (thread : Thread σ) : Prop where
  listing : thread.stage.IsListing
  unanswered : thread.around.Unanswered thread.worker.space thread.situation.surroundings

/-- Nothing more comes of a thread. -/
def Settled (thread : Thread σ) : Prop := thread.stage = .finished ∨ thread.Hangs

def Unasked (thread : Thread σ) : Prop := ∀ space phase, .list space phase ∉ thread.situation.history

/-- A thread that has finished has left its worker stopped. -/
def Orderly (thread : Thread σ) : Prop := thread.stage = .finished → thread.worker.phase = .stopped

variable {thread : Thread σ} {stopping : Bool}

theorem isAlive_eq_false_iff : thread.isAlive = false ↔ thread.stage = .finished := by
  rw [isAlive]
  split <;> simp_all

theorem Hangs.not_finished (hangs : thread.Hangs) : thread.stage ≠ .finished := by
  obtain ⟨delay, listing⟩ := hangs.listing
  rw [listing]
  exact LifeStage.noConfusion

theorem Settled.finished_iff (settled : thread.Settled) : thread.stage = .finished ↔ ¬ thread.Hangs := by
  constructor
  · exact fun finished hangs => hangs.not_finished finished
  · exact fun free => settled.resolve_right free

theorem step_transition (stopping : Bool) (thread : Thread σ) :
    ∃ added, Life.Transition thread.timing (thread.around.sharing stopping) thread.situation thread.stage
      added (thread.step stopping).situation (thread.step stopping).stage :=
  Life.step_transition _ _ _ _

@[simp] theorem step_post : (thread.step stopping).worker.post = thread.worker.post := by
  obtain ⟨added, transition⟩ := thread.step_transition stopping
  exact Prod.ext transition.identity_eq.1 transition.identity_eq.2

theorem step_of_finished (finished : thread.stage = .finished) : thread.step stopping = thread := by
  cases thread
  cases finished
  rfl

theorem finished_step (finished : thread.stage = .finished) : (thread.step stopping).stage = .finished := by
  rw [step_of_finished finished]
  exact finished

theorem Hangs.step (hangs : thread.Hangs) : (thread.step stopping).Hangs := by
  -- A thread that awaits a list does not look at the signal.
  obtain ⟨⟨delay, listing⟩, unanswered⟩ := hangs
  obtain ⟨silent, later⟩ := Surroundings.unanswered_iff.mp unanswered
  have waits : thread.step stopping =
      { thread with
        situation := { thread.situation with
          surroundings :=
            (thread.around.list thread.worker.space thread.situation.surroundings).2 } } := by
    have request : (thread.around.sharing stopping).list thread.situation.worker.space
        thread.situation.surroundings =
          (none, (thread.around.list thread.worker.space thread.situation.surroundings).2) :=
      Prod.ext silent rfl
    simp only [Thread.step, listing, Life.step, request]
  rw [waits]
  exact ⟨⟨delay, listing⟩, later⟩

theorem Hangs.iterate (hangs : thread.Hangs) (steps : Nat) : ((Thread.step stopping)^[steps] thread).Hangs :=
  Function.Iterate.rec Hangs hangs (fun _ => Hangs.step) steps

theorem Settled.step (settled : thread.Settled) : (thread.step stopping).Settled := by
  rcases settled with finished | hangs
  · exact .inl (finished_step finished)
  · exact .inr hangs.step

theorem Orderly.step (orderly : thread.Orderly) : (thread.step stopping).Orderly := by
  obtain ⟨added, transition⟩ := thread.step_transition stopping
  exact transition.stopped_of_finished orderly

theorem Unasked.step (unasked : thread.Unasked) : (thread.step true).Unasked := by
  obtain ⟨added, transition⟩ := thread.step_transition true
  intro space phase asked
  rw [transition.history_eq, List.mem_append] at asked
  rcases asked with before | now
  · exact unasked space phase before
  · exact transition.not_list_of_isSet thread.around.sharedSignal trivial now

section New

variable (timing : Timing) (around : Surroundings σ) (start : σ) (worker : Worker)

@[simp] theorem new_worker : (new timing around start worker).worker = worker := rfl

theorem new_orderly : (new timing around start worker).Orderly := fun finished => by cases finished

theorem new_unasked : (new timing around start worker).Unasked := by
  simp [Unasked, new, Life.begin]

end New

end Thread

def Turn.moves (index : Nat) : Turn Time → Bool
  | .step moved => moved == index
  | .elapse _ => false

namespace Pool

def AllAt (pool : Pool σ Time) (indices : List Nat) (kept : Thread σ → Prop) : Prop :=
  ∀ index ∈ indices, ∀ thread ∈ pool.threads[index]?, kept thread

theorem allAt_cons {pool : Pool σ Time} {index : Nat} {rest : List Nat} {kept : Thread σ → Prop} :
    pool.AllAt (index :: rest) kept ↔
      (∀ thread ∈ pool.threads[index]?, kept thread) ∧ pool.AllAt rest kept :=
  List.forall_mem_cons

theorem allAt_append {pool : Pool σ Time} {first second : List Nat} {kept : Thread σ → Prop} :
    pool.AllAt (first ++ second) kept ↔ pool.AllAt first kept ∧ pool.AllAt second kept :=
  List.forall_mem_append

theorem allAt_range_iff {pool : Pool σ Time} {kept : Thread σ → Prop} :
    pool.AllAt (List.range pool.threads.length) kept ↔ ∀ thread ∈ pool.threads, kept thread := by
  constructor
  · intro all thread member
    obtain ⟨index, found⟩ := List.mem_iff_getElem?.mp member
    have bound := (List.getElem?_eq_some_iff.mp found).1
    exact all index (List.mem_range.mpr bound) thread found
  · intro all index _ thread found
    exact all thread (List.mem_of_getElem? found)

theorem isAlive_eq_false_iff {pool : Pool σ Time} {index : Nat} :
    pool.isAlive index = false ↔ ∀ thread ∈ pool.threads[index]?, thread.stage = .finished := by
  cases found : pool.threads[index]? with
  | none => simp [isAlive, found]
  | some thread => simp [isAlive, found, Thread.isAlive_eq_false_iff]

/-- What can become of a pool beside its owner: time passes, and every thread takes some steps. -/
structure Evolves [LE Time] (earlier later : Pool σ Time) : Prop where
  time_le : earlier.time ≤ later.time
  stopping_eq : later.stopping = earlier.stopping
  threads_eq : ∀ index : Nat, ∃ steps,
    later.threads[index]? = earlier.threads[index]?.map ((Thread.step earlier.stopping)^[steps])

namespace Evolves

section Preorder

variable [Preorder Time] {earlier later last : Pool σ Time} {kept : Thread σ → Prop}

theorem refl (pool : Pool σ Time) : pool.Evolves pool where
  time_le := le_rfl
  stopping_eq := rfl
  threads_eq index := ⟨0, by simp⟩

theorem trans (first : earlier.Evolves later) (second : later.Evolves last) : earlier.Evolves last where
  time_le := first.time_le.trans second.time_le
  stopping_eq := second.stopping_eq.trans first.stopping_eq
  threads_eq index := by
    obtain ⟨before, early⟩ := first.threads_eq index
    obtain ⟨after, late⟩ := second.threads_eq index
    refine ⟨after + before, ?_⟩
    rw [late, early, first.stopping_eq, Option.map_map, Function.iterate_add]

theorem length_eq (evolves : earlier.Evolves later) : later.threads.length = earlier.threads.length := by
  apply Nat.le_antisymm
  · obtain ⟨steps, same⟩ := evolves.threads_eq earlier.threads.length
    rw [← List.getElem?_eq_none_iff, same]
    simp
  · obtain ⟨steps, same⟩ := evolves.threads_eq later.threads.length
    rw [List.getElem?_eq_none le_rfl, eq_comm, Option.map_eq_none_iff, List.getElem?_eq_none_iff] at same
    exact same

theorem posts_eq (evolves : earlier.Evolves later) :
    later.threads.map (·.worker.post) = earlier.threads.map (·.worker.post) := by
  apply List.ext_getElem?
  intro index
  obtain ⟨steps, same⟩ := evolves.threads_eq index
  have unmoved : ∀ thread : Thread σ,
      ((Thread.step earlier.stopping)^[steps] thread).worker.post = thread.worker.post := fun thread =>
    Function.Iterate.rec (fun later : Thread σ => later.worker.post = thread.worker.post) rfl
      (fun _ held => Thread.step_post.trans held) steps
  simp [same, Function.comp_def, unmoved]

/-- What a step of a thread preserves, its pool preserves. -/
theorem allAt (evolves : earlier.Evolves later) {indices : List Nat}
    (step : ∀ thread, kept thread → kept (thread.step earlier.stopping))
    (held : earlier.AllAt indices kept) : later.AllAt indices kept := by
  intro index member thread found
  obtain ⟨steps, same⟩ := evolves.threads_eq index
  rw [same, Option.mem_def, Option.map_eq_some_iff] at found
  obtain ⟨thread, before, rfl⟩ := found
  exact Function.Iterate.rec kept (held index member thread before) step steps

theorem allAt_settled (evolves : earlier.Evolves later) {indices : List Nat}
    (settled : earlier.AllAt indices Thread.Settled) : later.AllAt indices Thread.Settled :=
  evolves.allAt (fun _ => Thread.Settled.step) settled

theorem all (evolves : earlier.Evolves later)
    (step : ∀ thread, kept thread → kept (thread.step earlier.stopping))
    (held : ∀ thread ∈ earlier.threads, kept thread) : ∀ thread ∈ later.threads, kept thread := by
  have kept := evolves.allAt step (allAt_range_iff.mpr held)
  rw [← evolves.length_eq] at kept
  exact allAt_range_iff.mp kept

/-- Threads that have settled have finished for good or never will. -/
theorem allAt_finished_iff (evolves : earlier.Evolves later) {indices : List Nat}
    (settled : earlier.AllAt indices Thread.Settled) :
    later.AllAt indices (·.stage = .finished) ↔ earlier.AllAt indices (·.stage = .finished) := by
  constructor
  · intro finished index member thread found
    rcases settled index member thread found with ended | hangs
    · exact ended
    · obtain ⟨steps, same⟩ := evolves.threads_eq index
      rw [found, Option.map_some] at same
      exact absurd (finished index member _ same) (hangs.iterate steps).not_finished
  · exact evolves.allAt fun _ => Thread.finished_step

end Preorder

end Evolves

section Actions

variable [AddCommGroup Time] [LinearOrder Time] {pace : Pace σ Time} {pool : Pool σ Time}

@[simp] theorem take_stopping (pool : Pool σ Time) (turn : Turn Time) :
    (pool.take turn).stopping = pool.stopping := by
  cases turn <;> rfl

theorem getElem?_take (pool : Pool σ Time) (turn : Turn Time) (index : Nat) :
    (pool.take turn).threads[index]? =
      pool.threads[index]?.map ((Thread.step pool.stopping)^[if turn.moves index then 1 else 0]) := by
  cases turn with
  | step moved => by_cases same : moved = index <;> simp [take, Turn.moves, same]
  | elapse span => simp [take, Turn.moves]

theorem getElem?_takeAll (pool : Pool σ Time) (turns : List (Turn Time)) (index : Nat) :
    (pool.takeAll turns).threads[index]? =
      pool.threads[index]?.map ((Thread.step pool.stopping)^[turns.countP (·.moves index)]) := by
  change (turns.foldl take pool).threads[index]? = _
  induction turns generalizing pool with
  | nil => simp
  | cons turn rest ih =>
      rw [List.foldl_cons, ih, take_stopping, getElem?_take, Option.map_map, ← Function.iterate_add,
        List.countP_cons]

/-- One action of an owner that waits for its threads leads from one pool to another. -/
inductive Leads (pace : Pace σ Time) : Pool σ Time → Pool σ Time → Prop where
  | next (pool : Pool σ Time) : Leads pace pool (pool.next pace)
  | wait (pool : Pool σ Time) (index : Nat) (span : Time) : Leads pace pool (pool.wait pace index span)

def Reaches (pace : Pace σ Time) : Pool σ Time → Pool σ Time → Prop := Relation.ReflTransGen (Leads pace)

theorem reaches_next : Reaches pace pool (pool.next pace) := .single (.next pool)

theorem reaches_wait (index : Nat) (span : Time) : Reaches pace pool (pool.wait pace index span) :=
  .single (.wait pool index span)

theorem reaches_waitAll (deadline : Time) (indices : List Nat) :
    Reaches pace pool (pool.waitAll pace deadline indices) := by
  induction indices generalizing pool with
  | nil => exact .refl
  | cons index rest ih => exact reaches_next.trans ((reaches_wait index _).trans ih)

theorem reaches_anyAlive (indices : List Nat) : Reaches pace pool (pool.anyAlive pace indices).2 := by
  induction indices generalizing pool with
  | nil => exact .refl
  | cons index rest ih =>
      rw [anyAlive]
      split
      · exact reaches_next
      · exact reaches_next.trans ih

variable [IsOrderedAddMonoid Time]

theorem le_time_take (turn : Turn Time) : pool.time ≤ (pool.take turn).time := by
  cases turn with
  | step moved => exact le_rfl
  | elapse span => exact le_add_of_nonneg_right (le_max_right span 0)

theorem takeAll_evolves (turns : List (Turn Time)) : pool.Evolves (pool.takeAll turns) where
  time_le := by
    change pool.time ≤ (turns.foldl take pool).time
    induction turns generalizing pool with
    | nil => exact le_rfl
    | cons turn rest ih => exact (le_time_take turn).trans ih
  stopping_eq := by
    change (turns.foldl take pool).stopping = pool.stopping
    induction turns generalizing pool with
    | nil => rfl
    | cons turn rest ih => exact ih.trans (pool.take_stopping turn)
  threads_eq index := ⟨_, pool.getElem?_takeAll turns index⟩

theorem next_evolves : pool.Evolves (pool.next pace) := takeAll_evolves _

theorem Reaches.evolves {earlier later : Pool σ Time} (reaches : Reaches pace earlier later) :
    earlier.Evolves later := by
  induction reaches with
  | refl => exact .refl earlier
  | tail _ leads ih =>
      cases leads with
      | next => exact ih.trans next_evolves
      | wait => exact ih.trans (takeAll_evolves _)

end Actions

end Pool

namespace Pace

variable [AddCommGroup Time] [LinearOrder Time]

/-- A wait for a thread ends when the thread does or when its time is over. -/
def Waits (pace : Pace σ Time) : Prop :=
  ∀ (pool : Pool σ Time) (index : Nat) (span : Time),
    (pool.wait pace index span).isAlive index = false ∨
      pool.time + span ≤ (pool.wait pace index span).time

/-- From a pool on whose signal is set, a thread that does not hang finishes within a time. -/
def StopsWithin (pace : Pace σ Time) (timeout : Time) (signalled : Pool σ Time) : Prop :=
  ∀ later, Pool.Reaches pace signalled later → signalled.time + timeout ≤ later.time →
    ∀ thread ∈ later.threads, ¬ thread.Hangs → thread.stage = .finished

theorem StopsWithin.settled {pace : Pace σ Time} {timeout : Time} {signalled later : Pool σ Time}
    (stops : pace.StopsWithin timeout signalled) (reached : Pool.Reaches pace signalled later)
    (late : signalled.time + timeout ≤ later.time) : ∀ thread ∈ later.threads, thread.Settled := by
  intro thread member
  by_cases hangs : thread.Hangs
  · exact .inr hangs
  · exact .inl (stops later reached late thread member hangs)

end Pace
end MeshGauges
