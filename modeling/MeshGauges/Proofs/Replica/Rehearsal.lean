import MeshGauges.Proofs.Replica.Threads
import MeshGauges.Replica.Group

/-! Rehearsals.

In a rehearsal every thread takes enough steps before each action of the owner to come to its end, once the
stop signal is set and unless its list request is never answered. So a rehearsal waits for its threads as it
should, and after one action nothing more comes of any of them. -/

set_option autoImplicit false

namespace MeshGauges

variable {σ Time : Type}

/-- A list request whose answer is awaited for another step has not been answered. -/
theorem Life.Transition.list_eq_none {timing : Timing} {around : Surroundings σ}
    {situation later : Situation σ} {stage reached : LifeStage} {added : List Activity}
    (transition : Life.Transition timing around situation stage added later reached)
    (asking : stage.IsListing) (waiting : reached.IsListing) :
    (around.list situation.worker.space situation.surroundings).1 = none := by
  obtain ⟨delay, rfl⟩ := asking
  obtain ⟨delay, rfl⟩ := waiting
  cases transition with
  | unanswered silent => rw [silent]

namespace Thread

/-- The list requests of a thread are all answered in the same way, or never. -/
def Steady (thread : Thread σ) : Prop :=
  ∃ behavior : ListBehavior, ∀ space state, (thread.around.list space state).1 = behavior

variable {thread : Thread σ}

theorem finished_of_stepsLeft {steps : Nat} (answered : ¬ thread.stage.IsListing)
    (enough : thread.stage.stepsLeft ≤ steps) :
    ((step true)^[steps] thread).stage = .finished := by
  induction steps generalizing thread with
  | zero => exact LifeStage.finished_of_stepsLeft (Nat.le_zero.mp enough)
  | succ steps ih =>
      obtain ⟨added, transition⟩ := thread.step_transition true
      have unasked : ¬ (thread.step true).stage.IsListing := fun listing =>
        answered (transition.isListing_of_isSet thread.around.sharedSignal trivial listing)
      have spent := transition.stepsLeft_of_isSet thread.around.sharedSignal trivial unasked
      exact ih unasked (by omega)

theorem Steady.hangs_of_isListing (steady : thread.Steady) (asking : thread.stage.IsListing)
    (waiting : (thread.step true).stage.IsListing) : thread.Hangs := by
  obtain ⟨behavior, answers⟩ := steady
  obtain ⟨added, transition⟩ := thread.step_transition true
  have silent : behavior = none := (answers _ _).symm.trans (transition.list_eq_none asking waiting)
  exact ⟨asking, fun _ => (answers _ _).trans silent⟩

/-- A thread that is told to stop settles within six steps. -/
theorem Steady.settled (steady : thread.Steady) {steps : Nat} (enough : 6 ≤ steps) :
    ((step true)^[steps] thread).Settled := by
  obtain ⟨more, rfl⟩ := Nat.exists_eq_add_of_le enough
  rw [show 6 + more = 5 + more + 1 by omega, Function.iterate_succ_apply]
  by_cases waiting : (thread.step true).stage.IsListing
  · obtain ⟨added, transition⟩ := thread.step_transition true
    have asking := transition.isListing_of_isSet thread.around.sharedSignal trivial waiting
    have hangs := steady.hangs_of_isListing asking waiting
    exact .inr (hangs.step.iterate _)
  · have bounded := (thread.step true).stage.stepsLeft_le
    exact .inl (finished_of_stepsLeft waiting (by omega))

end Thread

namespace Group

theorem crew_steady (replica : Replica) (behavior : String → ListBehavior) :
    ∀ thread ∈ (crew replica behavior).recruits, thread.Steady := by
  intro thread member
  obtain ⟨index, bound, rfl⟩ := List.mem_mapIdx.mp member
  exact ⟨_, fun _ _ => rfl⟩

/-- While a pool settles, each of its threads takes all of its steps. -/
theorem settlingSteps_le_countP {pool : Pool σ Time} {index : Nat} (present : index < pool.threads.length) :
    settlingSteps ≤ (settling pool).countP (·.moves index) := by
  let own : List (Turn Time) := List.replicate settlingSteps (.step index)
  have among : own.Sublist (settling pool) := by
    rw [settling, List.flatMap_def]
    exact List.sublist_flatten_of_mem (List.mem_map_of_mem (List.mem_range.mpr present))
  calc settlingSteps = own.countP (·.moves index) := by rw [List.countP_replicate]; simp [Turn.moves]
    _ ≤ (settling pool).countP (·.moves index) := among.countP_le

variable [AddCommGroup Time] [LinearOrder Time]

theorem wait_rehearsal (pool : Pool σ Time) (index : Nat) (span : Time) :
    pool.wait rehearsal index span =
      if (pool.takeAll (settling pool)).isAlive index then pool.takeAll (settling pool ++ [.elapse span])
      else pool.takeAll (settling pool) := by
  rw [Pool.wait, ← apply_ite pool.takeAll]
  rfl

/-- Every action of the owner of a rehearsal begins with the settling of all threads. -/
theorem leads_rehearsal {before after : Pool σ Time} (leads : Pool.Leads rehearsal before after) :
    ∃ rest, after = before.takeAll (settling before ++ rest) := by
  cases leads with
  | next => exact ⟨[], by rw [List.append_nil]; rfl⟩
  | wait index span =>
      rw [wait_rehearsal]
      split
      · exact ⟨_, rfl⟩
      · exact ⟨[], by rw [List.append_nil]⟩

variable [IsOrderedAddMonoid Time]

theorem rehearsal_waits : (rehearsal : Pace σ Time).Waits := by
  intro pool index span
  rw [wait_rehearsal]
  split
  · right
    have waited : (pool.takeAll (settling pool ++ [.elapse span])).time =
        (pool.takeAll (settling pool)).time + max span 0 := by
      simp [Pool.takeAll, Pool.take]
    rw [waited]
    exact add_le_add (Pool.takeAll_evolves (settling pool)).time_le (le_max_left span 0)
  · next gone => exact .inl (Bool.eq_false_iff.mpr gone)

theorem rehearsal_stopsWithin {timeout : Time} (positive : 0 < timeout) {signalled : Pool σ Time}
    (stopping : signalled.stopping = true) (steady : ∀ thread ∈ signalled.threads, thread.Steady) :
    rehearsal.StopsWithin timeout signalled := by
  intro later reached late thread member free
  rcases Relation.ReflTransGen.cases_tail reached with same | ⟨before, reached, leads⟩
  · rw [← same] at late
    exact absurd late (not_le_of_gt (lt_add_of_pos_right _ positive))
  · have evolves := Pool.Reaches.evolves reached
    have steady : ∀ thread ∈ before.threads, thread.Steady := evolves.all (fun _ held => held) steady
    obtain ⟨rest, rfl⟩ := leads_rehearsal leads
    obtain ⟨index, found⟩ := List.mem_iff_getElem?.mp member
    rw [Pool.getElem?_takeAll, Option.map_eq_some_iff] at found
    obtain ⟨thread, there, rfl⟩ := found
    rw [evolves.stopping_eq, stopping] at free ⊢
    have taken := settlingSteps_le_countP (List.getElem?_eq_some_iff.mp there).1
    have enough : 6 ≤ (settling before ++ rest).countP (·.moves index) := by
      rw [List.countP_append]
      exact Nat.le_add_right_of_le ((by decide : 6 ≤ settlingSteps).trans taken)
    exact ((steady thread (List.mem_of_getElem? there)).settled enough).finished_iff.mpr free

end Group

end MeshGauges
