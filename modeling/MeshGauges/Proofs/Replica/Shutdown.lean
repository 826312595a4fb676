import Mathlib.Algebra.Order.Group.Int
import Mathlib.Algebra.Ring.Int.Defs
import MeshGauges.Proofs.Replica.Muster
import MeshGauges.Proofs.Replica.Rehearsal

/-! Fleets to the end of their shutdown.

A shutdown waits for every thread until it has finished or the deadline has come, whatever the threads before
it did. A thread that is still there at the deadline hangs, so what the shutdown reports is whether any
thread does. -/

set_option autoImplicit false

namespace MeshGauges

variable {σ Time : Type}

section Join

variable [AddCommGroup Time] [LinearOrder Time] {pace : Pace σ Time} {pool : Pool σ Time}

theorem Crew.reaches_join (crew : Crew σ) (span : Time) :
    Pool.Reaches pace pool (crew.join pace span pool).2 :=
  Pool.reaches_next.trans ((Pool.reaches_waitAll _ _).trans (Pool.reaches_anyAlive _))

theorem Crew.reaches_joinAll (deadline : Time) (stopped : Bool) (crews : List (Crew σ)) :
    Pool.Reaches pace pool (Crew.joinAll pace deadline stopped pool crews).2 := by
  induction crews generalizing pool stopped with
  | nil => exact .refl
  | cons crew rest ih => exact Pool.reaches_next.trans ((crew.reaches_join _).trans (ih _))

variable [IsOrderedAddMonoid Time]

theorem le_add_timeLeft (deadline now : Time) : deadline ≤ now + max (deadline - now) 0 :=
  sub_le_iff_le_add'.mp (le_max_left _ 0)

/-- Asking for settled threads one after the other tells whether all of them have finished. -/
theorem Pool.anyAlive_eq_false_iff {indices : List Nat} (settled : pool.AllAt indices Thread.Settled) :
    (pool.anyAlive pace indices).1 = false ↔
      (pool.anyAlive pace indices).2.AllAt indices (·.stage = .finished) := by
  induction indices generalizing pool with
  | nil => simp [anyAlive, AllAt]
  | cons index rest ih =>
      have asked : (pool.next pace).AllAt (index :: rest) Thread.Settled :=
        next_evolves.allAt_settled settled
      cases alive : (pool.next pace).isAlive index with
      | true =>
          simp only [anyAlive, alive, if_true, Bool.true_eq_false, false_iff, allAt_cons]
          intro finished
          obtain ⟨finished, -⟩ := finished
          rw [← isAlive_eq_false_iff, alive] at finished
          cases finished
      | false =>
          have gone : (pool.next pace).AllAt [index] (·.stage = .finished) :=
            allAt_cons.mpr ⟨isAlive_eq_false_iff.mp alive, List.forall_mem_nil _⟩
          have still : ((pool.next pace).anyAlive pace rest).2.AllAt [index] (·.stage = .finished) :=
            (reaches_anyAlive rest).evolves.allAt (fun _ => Thread.finished_step) gone
          simp only [anyAlive, alive, Bool.false_eq_true, if_false, ih (allAt_cons.mp asked).2, allAt_cons]
          exact ⟨fun others => ⟨(allAt_cons.mp still).1, others⟩, And.right⟩

variable {timeout : Time} {signalled : Pool σ Time} (waits : pace.Waits)
  (stops : pace.StopsWithin timeout signalled) (reached : Pool.Reaches pace signalled pool)

include waits stops reached

/-- A wait up to a deadline by which every thread has settled finds its threads settled. -/
theorem Pool.waitAll_settled {deadline : Time} (late : signalled.time + timeout ≤ deadline)
    (indices : List Nat) : (pool.waitAll pace deadline indices).AllAt indices Thread.Settled := by
  induction indices generalizing pool with
  | nil => exact List.forall_mem_nil _
  | cons index rest ih =>
      let read := pool.next pace
      let waited := read.wait pace index (max (deadline - read.time) 0)
      have there : Reaches pace signalled waited := reached.trans (reaches_next.trans (reaches_wait _ _))
      have settled : waited.AllAt [index] Thread.Settled := by
        refine allAt_cons.mpr ⟨fun thread found => ?_, List.forall_mem_nil _⟩
        -- Either the wait ended with the thread, or the deadline has come and with it all threads have settled.
        rcases waits read index (max (deadline - read.time) 0) with gone | elapsed
        · exact .inl (isAlive_eq_false_iff.mp gone thread found)
        · have due : deadline ≤ waited.time := calc
            deadline ≤ read.time + max (deadline - read.time) 0 := le_add_timeLeft deadline read.time
            _ ≤ waited.time := elapsed
          exact stops.settled there (late.trans due) thread (List.mem_of_getElem? found)
      have others := ih there
      have still : (waited.waitAll pace deadline rest).AllAt [index] Thread.Settled :=
        (reaches_waitAll deadline rest).evolves.allAt_settled settled
      exact allAt_cons.mpr ⟨(allAt_cons.mp still).1, others⟩

namespace Crew

section One

variable {span : Time} (late : signalled.time + timeout ≤ pool.time + span) (crew : Crew σ)

include late

theorem waited_settled :
    ((pool.next pace).waitAll pace ((pool.next pace).time + span) crew.threads).AllAt crew.threads
      Thread.Settled :=
  Pool.waitAll_settled waits stops (reached.trans Pool.reaches_next)
    (late.trans (add_le_add_left Pool.next_evolves.time_le span)) crew.threads

theorem join_settled : (crew.join pace span pool).2.AllAt crew.threads Thread.Settled :=
  (Pool.reaches_anyAlive crew.threads).evolves.allAt_settled (waited_settled waits stops reached late crew)

theorem join_eq_true_iff :
    (crew.join pace span pool).1 = true ↔
      (crew.join pace span pool).2.AllAt crew.threads (·.stage = .finished) := by
  rw [join, Bool.not_eq_true']
  exact Pool.anyAlive_eq_false_iff (waited_settled waits stops reached late crew)

end One

variable {deadline : Time} (late : signalled.time + timeout ≤ deadline)

include late

theorem joinAll_outcome (stopped : Bool) (crews : List (Crew σ)) :
    (joinAll pace deadline stopped pool crews).2.AllAt (crews.flatMap threads) Thread.Settled ∧
      ((joinAll pace deadline stopped pool crews).1 = true ↔ stopped = true ∧
        (joinAll pace deadline stopped pool crews).2.AllAt (crews.flatMap threads) (·.stage = .finished)) := by
  induction crews generalizing pool stopped with
  | nil => simp [joinAll, Pool.AllAt]
  | cons crew rest ih =>
      let read := pool.next pace
      let span := max (deadline - read.time) 0
      let joined := crew.join pace span read
      let ending := joinAll pace deadline (joined.1 && stopped) joined.2 rest
      have begun : Pool.Reaches pace signalled read := reached.trans Pool.reaches_next
      have due : signalled.time + timeout ≤ read.time + span :=
        late.trans (le_add_timeLeft deadline read.time)
      have settled : joined.2.AllAt crew.threads Thread.Settled := join_settled waits stops begun due crew
      have evolves : joined.2.Evolves ending.2 := (reaches_joinAll deadline _ rest).evolves
      obtain ⟨others, told⟩ := ih (begun.trans (crew.reaches_join span)) (joined.1 && stopped)
      -- What one join has found stays as it is while the later crews are joined.
      have one : joined.1 = true ↔ ending.2.AllAt crew.threads (·.stage = .finished) :=
        (join_eq_true_iff waits stops begun due crew).trans (evolves.allAt_finished_iff settled).symm
      change ending.2.AllAt (crew.threads ++ rest.flatMap threads) Thread.Settled ∧
        (ending.1 = true ↔ stopped = true ∧
          ending.2.AllAt (crew.threads ++ rest.flatMap threads) (·.stage = .finished))
      rw [Pool.allAt_append, Pool.allAt_append, told, Bool.and_eq_true, one]
      exact ⟨⟨evolves.allAt_settled settled, others⟩, by tauto⟩

end Crew

end Join

namespace Fleet

section Shutdown

variable [AddCommGroup Time] [LinearOrder Time] {pace : Pace σ Time} (written : Time → String)
  {fleet : Fleet σ Time} {timeout : Time}

theorem reaches_shutdown :
    Pool.Reaches pace (fleet.signalStop pace).pool (fleet.shutdown pace written timeout).fleet.pool :=
  Pool.reaches_next.trans (Crew.reaches_joinAll _ _ _)

variable [IsOrderedAddMonoid Time]

/-- A shutdown leaves the threads of all crews settled, and reports whether all of them have finished. -/
theorem shutdown_outcome (waits : pace.Waits) (stops : pace.StopsWithin timeout (fleet.signalStop pace).pool) :
    (fleet.shutdown pace written timeout).fleet.pool.AllAt (fleet.crews.flatMap Crew.threads) Thread.Settled ∧
      ((fleet.shutdown pace written timeout).stopped = true ↔
        (fleet.shutdown pace written timeout).fleet.pool.AllAt (fleet.crews.flatMap Crew.threads)
          (·.stage = .finished)) := by
  have late : (fleet.signalStop pace).pool.time + timeout ≤
      ((fleet.signalStop pace).pool.next pace).time + timeout :=
    add_le_add_left Pool.next_evolves.time_le timeout
  have joined := Crew.joinAll_outcome waits stops Pool.reaches_next late true fleet.crews
  rw [eq_self, true_and] at joined
  exact joined

end Shutdown

/-- What is sure about new crews that were started together a number of times and then shut down. -/
structure ShutsDown (crews : List (Crew σ)) (stopsFirst : Bool) (starts : Nat) (warning : Message)
    (ending : Ending σ Time) : Prop where
  replicas_eq : ending.fleet.crews.map Crew.replica = crews.map Crew.replica
  /-- If the fleet was started, each worker of each crew has a thread that works for its kind in its
  namespace; otherwise there is no thread. -/
  posts_eq : (ending.fleet.crews.map fun crew => crew.threads.map fun index =>
      ending.fleet.pool.threads[index]?.map (·.worker.post)) =
    crews.map fun crew => if starts = 0 then [] else crew.posts.map some
  /-- No two workers share a thread, and no thread has no worker. -/
  threads_eq : ending.fleet.crews.flatMap Crew.threads = List.range ending.fleet.pool.threads.length
  /-- The workers of a crew are as their threads have left them. -/
  workers_eq : starts ≠ 0 → ∀ crew ∈ ending.fleet.crews,
    (crew.workers ending.fleet.pool).map some =
      crew.threads.map fun index => ending.fleet.pool.threads[index]?.map Thread.worker
  /-- If the signal was set before the first start, no list is asked for. -/
  unasked : stopsFirst = true → ∀ thread ∈ ending.fleet.pool.threads, thread.Unasked
  /-- The shutdown succeeds, and is silent, if and only if no thread hangs. -/
  stopped_iff : ending.stopped = true ↔ ∀ thread ∈ ending.fleet.pool.threads, ¬ thread.Hangs
  journal_eq : ending.journal = if ending.stopped then [] else [warning]
  /-- A thread that does not hang has come to its end, whichever others hang. -/
  finished : ∀ thread ∈ ending.fleet.pool.threads, ¬ thread.Hangs →
    thread.stage = .finished ∧ thread.worker.phase = .stopped
  unstarted : starts = 0 → ∀ crew ∈ ending.fleet.crews, ∀ worker ∈ crew.workers ending.fleet.pool,
    worker.phase = .unsynced ∧ worker.snapshot = .empty

section Whole

variable [AddCommGroup Time] [LinearOrder Time] [IsOrderedAddMonoid Time] (pace : Pace σ Time)
  {crews : List (Crew σ)} (time : Time) (stopsFirst : Bool) (starts : Nat) (written : Time → String)
  (timeout : Time)

section Unmanned

variable (new : ∀ crew ∈ crews, crew.threads = [])

include new

/-- What threads begin with and no step takes away, they have until the signal is set. -/
theorem signalled_keeps {kept : Thread σ → Prop}
    (begins : ∀ crew ∈ crews, ∀ thread ∈ crew.recruits, kept thread)
    (step : ∀ thread, kept thread → kept (thread.step stopsFirst)) :
    ∀ thread ∈ ((begun pace crews time stopsFirst starts).signalStop pace).pool.threads, kept thread := by
  let first := (prepared pace crews time stopsFirst).pool.enlist
    (if starts = 0 then [] else crews.flatMap Crew.recruits)
  have stopping : first.stopping = stopsFirst := prepared_stopping pace crews time stopsFirst
  have recruited : ∀ thread ∈ first.threads, kept thread := by
    intro thread member
    rw [Pool.enlist_threads, prepared_threads, List.nil_append] at member
    split at member
    · cases member
    · obtain ⟨crew, among, member⟩ := List.mem_flatMap.mp member
      exact begins crew among thread member
  exact ((begun_evolves new starts).trans Pool.next_evolves).all (stopping.symm ▸ step) recruited

/-- What threads begin with and no step takes away, they have after the shutdown. A signal that is set before
the first start is set at every step. -/
theorem shutdown_keeps {kept : Thread σ → Prop}
    (begins : ∀ timing around start worker, kept (.new timing around start worker))
    (step : ∀ stopping thread, (stopsFirst = true → stopping = true) → kept thread →
      kept (thread.step stopping)) :
    ∀ thread ∈ ((begun pace crews time stopsFirst starts).shutdown pace written timeout).fleet.pool.threads,
      kept thread := by
  have running : ∀ thread ∈ ((begun pace crews time stopsFirst starts).signalStop pace).pool.threads,
      kept thread :=
    signalled_keeps pace time stopsFirst starts new (fun crew _ => crew.recruits_all begins)
      fun thread => step stopsFirst thread id
  exact (reaches_shutdown written).evolves.all (fun thread => step true thread fun _ => rfl) running

theorem shutdown_posts :
    ((begun pace crews time stopsFirst starts).shutdown pace written timeout).fleet.pool.threads.map
        (·.worker.post) =
      if starts = 0 then [] else crews.flatMap Crew.posts := by
  rw [(reaches_shutdown written).evolves.posts_eq]
  refine ((begun_evolves new starts).trans Pool.next_evolves).posts_eq.trans ?_
  rw [Pool.enlist_threads, prepared_threads, List.nil_append]
  split
  · rfl
  · simp only [List.map_flatMap, Crew.recruits_posts]

theorem shutdown_threads :
    (begun pace crews time stopsFirst starts).crews.flatMap Crew.threads = List.range
      ((begun pace crews time stopsFirst starts).shutdown pace written timeout).fleet.pool.threads.length := by
  have posts := congrArg List.length (shutdown_posts pace time stopsFirst starts written timeout new)
  rw [List.length_map] at posts
  rw [begun_crews new, posts]
  by_cases unstarted : starts = 0
  · simpa [unstarted] using new
  · simp [unstarted, Crew.numbered_threads, List.range_eq_range', List.length_flatMap, Crew.posts,
      Crew.length_recruits]

theorem shutdown_manned :
    ((begun pace crews time stopsFirst starts).crews.map fun crew => crew.threads.map fun index =>
        ((begun pace crews time stopsFirst starts).shutdown pace written timeout).fleet.pool.threads[index]?.map
          (·.worker.post)) =
      crews.map fun crew => if starts = 0 then [] else crew.posts.map some := by
  have posts := shutdown_posts pace time stopsFirst starts written timeout new
  simp only [← List.getElem?_map, posts]
  rw [begun_crews new]
  by_cases unstarted : starts = 0
  · simp only [unstarted, if_true]
    exact List.map_congr_left fun crew member => by rw [new crew member, List.map_nil]
  · simp only [unstarted, if_false]
    exact Crew.numbered_posts [] crews

end Unmanned

/-- However the threads of a fleet take turns, its shutdown brings every thread to its end that does not hang in
a list request, and reports whether there is one that does. -/
theorem shutsDown_of_isNew (new : ∀ crew ∈ crews, crew.IsNew) (waits : pace.Waits)
    (stops : pace.StopsWithin timeout ((begun pace crews time stopsFirst starts).signalStop pace).pool) :
    ShutsDown crews stopsFirst starts (unstoppedWarning (written timeout))
      ((begun pace crews time stopsFirst starts).shutdown pace written timeout) := by
  have unmanned : ∀ crew ∈ crews, crew.threads = [] := fun crew member => (new crew member).threads_eq
  let ending := (begun pace crews time stopsFirst starts).shutdown pace written timeout
  have crews_eq : ending.fleet.crews = if starts = 0 then crews else Crew.numbered 0 crews :=
    begun_crews unmanned starts
  have threads_eq : ending.fleet.crews.flatMap Crew.threads = List.range ending.fleet.pool.threads.length :=
    shutdown_threads pace time stopsFirst starts written timeout unmanned
  obtain ⟨settled, told⟩ := shutdown_outcome written waits stops
  change ending.fleet.pool.AllAt (ending.fleet.crews.flatMap Crew.threads) _ at settled
  change _ ↔ ending.fleet.pool.AllAt (ending.fleet.crews.flatMap Crew.threads) _ at told
  rw [threads_eq, Pool.allAt_range_iff] at settled told
  have orderly : ∀ thread ∈ ending.fleet.pool.threads, thread.Orderly :=
    shutdown_keeps pace time stopsFirst starts written timeout unmanned Thread.new_orderly
      fun _ _ _ => Thread.Orderly.step
  constructor
  case replicas_eq =>
    rw [crews_eq]
    split
    · rfl
    · exact Crew.numbered_replicas 0 crews
  case posts_eq => exact shutdown_manned pace time stopsFirst starts written timeout unmanned
  case threads_eq => exact threads_eq
  case workers_eq =>
    intro started crew member
    have present : ∀ index ∈ crew.threads, index < ending.fleet.pool.threads.length := by
      intro index belongs
      rw [← List.mem_range, ← threads_eq]
      exact List.mem_flatMap.mpr ⟨crew, member, belongs⟩
    rw [crews_eq, if_neg started] at member
    exact Crew.workers_of_manned (Crew.numbered_isManned 0 crews crew member) present
  case unasked =>
    intro early
    exact shutdown_keeps pace time stopsFirst starts written timeout unmanned Thread.new_unasked
      fun stopping thread set unasked => set early ▸ unasked.step
  case stopped_iff =>
    exact told.trans (forall₂_congr fun thread member => (settled thread member).finished_iff)
  case journal_eq => rfl
  case finished =>
    intro thread member free
    have finished := (settled thread member).finished_iff.mpr free
    exact ⟨finished, orderly thread member finished⟩
  case unstarted =>
    intro never crew member worker remaining
    rw [crews_eq, if_pos never] at member
    obtain ⟨⟨spaces, made⟩, idle⟩ := new crew member
    rw [Crew.workers_of_unmanned idle, made] at remaining
    obtain ⟨space, -, rfl⟩ := List.mem_map.mp remaining
    exact ⟨rfl, rfl⟩

end Whole

end Fleet

/-! A group whose first worker hangs in its list request. -/

namespace MixedGroup

def crews : List (Crew Bool) :=
  [Group.crew (.ofNamespaces .virtualService ["hung"]) fun _ => none,
    Group.crew (.ofNamespaces .destinationRule ["mesh", "denied"]) fun space =>
      some (if space = "mesh" then .ok ⟨[], "1"⟩ else .error .malformed)]

def fleet : Fleet Bool ℤ := .begun Group.rehearsal crews 0 false 2

def ending : Fleet.Ending Bool ℤ := fleet.shutdown Group.rehearsal toString 5

theorem others_stopped_beside_hung :
    Fleet.ShutsDown crews false 2 (Fleet.unstoppedWarning (toString (5 : ℤ))) ending ∧
      ending.stopped = false ∧
      ending.fleet.pool.threads.map (·.worker.phase) = [.syncing, .stopped, .stopped] := by
  have new : ∀ crew ∈ crews, crew.IsNew := by
    rw [crews, List.forall_mem_cons, List.forall_mem_singleton]
    exact ⟨⟨⟨_, rfl⟩, rfl⟩, ⟨_, rfl⟩, rfl⟩
  have recruits : ∀ crew ∈ crews, ∀ thread ∈ crew.recruits, thread.Steady := by
    rw [crews, List.forall_mem_cons, List.forall_mem_singleton]
    exact ⟨Group.crew_steady _ _, Group.crew_steady _ _⟩
  have steady : ∀ thread ∈ (fleet.signalStop Group.rehearsal).pool.threads, thread.Steady :=
    Fleet.signalled_keeps Group.rehearsal 0 false 2 (fun crew member => (new crew member).threads_eq) recruits
      fun _ held => held
  have stops : Group.rehearsal.StopsWithin 5 (fleet.signalStop Group.rehearsal).pool :=
    Group.rehearsal_stopsWithin (by decide) rfl steady
  have shuts : Fleet.ShutsDown crews false 2 (Fleet.unstoppedWarning (toString (5 : ℤ))) ending :=
    Fleet.shutsDown_of_isNew Group.rehearsal 0 false 2 toString 5 new Group.rehearsal_waits stops
  exact ⟨shuts, by decide +kernel, by decide +kernel⟩

end MixedGroup
end MeshGauges
