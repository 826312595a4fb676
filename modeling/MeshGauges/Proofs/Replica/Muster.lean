import Mathlib.Algebra.Order.Group.Basic
import MeshGauges.Proofs.Replica.Threads

/-! The start of a fleet.

A start gives every worker of every crew one thread, in order, and a second start gives none. While the crews
start one after the other, the threads that are there already run; what becomes of them is as if all had been
there from the first. -/

set_option autoImplicit false

namespace MeshGauges

variable {σ Time : Type}

namespace Pool

def enlist (pool : Pool σ Time) (threads : List (Thread σ)) : Pool σ Time :=
  { pool with threads := pool.threads ++ threads }

@[simp] theorem enlist_threads (pool : Pool σ Time) (threads : List (Thread σ)) :
    (pool.enlist threads).threads = pool.threads ++ threads := rfl

@[simp] theorem enlist_nil (pool : Pool σ Time) : pool.enlist [] = pool := by
  simp [enlist]

@[simp] theorem enlist_enlist (pool : Pool σ Time) (first second : List (Thread σ)) :
    (pool.enlist first).enlist second = pool.enlist (first ++ second) := by
  simp [enlist]

theorem Evolves.enlist [Preorder Time] {earlier later : Pool σ Time} (evolves : earlier.Evolves later)
    (threads : List (Thread σ)) : (earlier.enlist threads).Evolves (later.enlist threads) where
  time_le := evolves.time_le
  stopping_eq := evolves.stopping_eq
  threads_eq index := by
    rw [enlist_threads, enlist_threads]
    by_cases old : index < earlier.threads.length
    · rw [List.getElem?_append_left old, List.getElem?_append_left (evolves.length_eq ▸ old)]
      exact evolves.threads_eq index
    · rw [Nat.not_lt] at old
      rw [List.getElem?_append_right old, List.getElem?_append_right (evolves.length_eq ▸ old),
        evolves.length_eq]
      exact ⟨0, by simp⟩

variable [AddCommGroup Time] [LinearOrder Time] [IsOrderedAddMonoid Time] (pace : Pace σ Time)

theorem startAll_evolves (pool : Pool σ Time) (threads : List (Thread σ)) :
    (pool.enlist threads).Evolves (pool.startAll pace threads).2 := by
  induction threads generalizing pool with
  | nil => simpa [startAll] using Evolves.refl pool
  | cons thread rest ih =>
      -- The threads still to be started take no steps, so it does not matter that they are there already.
      have waited : (pool.enlist (thread :: rest)).Evolves ((pool.next pace).enlist (thread :: rest)) :=
        next_evolves.enlist (thread :: rest)
      refine waited.trans ?_
      rw [← List.singleton_append, ← enlist_enlist]
      exact ih ((pool.next pace).enlist [thread])

theorem startAll_handles (pool : Pool σ Time) (threads : List (Thread σ)) :
    (pool.startAll pace threads).1 = List.range' pool.threads.length threads.length := by
  induction threads generalizing pool with
  | nil => rfl
  | cons thread rest ih =>
      have waited : (pool.next pace).threads.length = pool.threads.length := next_evolves.length_eq
      have others := ih ((pool.next pace).enlist [thread])
      rw [enlist_threads, List.length_append, waited, List.length_singleton] at others
      rw [List.length_cons, List.range'_succ, ← others, ← waited]
      rfl

end Pool

namespace Crew

/-- Crews with threads that are numbered in order from a number on, one for each worker. -/
def numbered (first : Nat) : List (Crew σ) → List (Crew σ)
  | [] => []
  | crew :: rest =>
      { crew with threads := List.range' first crew.recruits.length } ::
        numbered (first + crew.recruits.length) rest

/-- A crew as it is made: for a list of namespaces, and not started. -/
structure IsNew (crew : Crew σ) : Prop where
  replica_eq : ∃ spaces, crew.replica = .ofNamespaces crew.replica.kind spaces
  threads_eq : crew.threads = []

def IsManned (crew : Crew σ) : Prop := crew.threads.length = crew.replica.workers.length

def posts (crew : Crew σ) : List (ResourceKind × String) := crew.replica.workers.map Worker.post

theorem recruits_posts (crew : Crew σ) : crew.recruits.map (·.worker.post) = crew.posts := by
  apply List.ext_getElem?
  simp [recruits, posts, Function.comp_def]

theorem recruits_all {kept : Thread σ → Prop}
    (new : ∀ timing around start worker, kept (.new timing around start worker)) (crew : Crew σ) :
    ∀ thread ∈ crew.recruits, kept thread := by
  intro thread member
  obtain ⟨index, bound, rfl⟩ := List.mem_mapIdx.mp member
  exact new _ _ _ _

theorem length_recruits (crew : Crew σ) : crew.recruits.length = crew.replica.workers.length :=
  List.length_mapIdx

theorem workers_of_unmanned {crew : Crew σ} (unmanned : crew.threads = []) (pool : Pool σ Time) :
    crew.workers pool = crew.replica.workers := by
  apply List.ext_getElem?
  simp [workers, unmanned]

/-- The workers of a crew whose threads are all there are those of its threads. -/
theorem workers_of_manned {crew : Crew σ} {pool : Pool σ Time} (manned : crew.IsManned)
    (present : ∀ index ∈ crew.threads, index < pool.threads.length) :
    (crew.workers pool).map some = crew.threads.map fun index => pool.threads[index]?.map Thread.worker := by
  apply List.ext_getElem
  · simp [workers, manned.symm]
  · intro index _ bound
    rw [List.length_map] at bound
    have there := present crew.threads[index] (List.getElem_mem bound)
    simp [workers, bound, there]

theorem numbered_isManned (first : Nat) (crews : List (Crew σ)) :
    ∀ crew ∈ numbered first crews, crew.IsManned := by
  induction crews generalizing first with
  | nil => simp [numbered]
  | cons crew rest ih =>
      rw [numbered, List.forall_mem_cons]
      refine ⟨?_, ih _⟩
      rw [IsManned, List.length_range', length_recruits]

theorem numbered_replicas (first : Nat) (crews : List (Crew σ)) :
    (numbered first crews).map Crew.replica = crews.map Crew.replica := by
  induction crews generalizing first with
  | nil => rfl
  | cons crew rest ih => exact congrArg (crew.replica :: ·) (ih _)

theorem numbered_threads (first : Nat) (crews : List (Crew σ)) :
    (numbered first crews).flatMap Crew.threads =
      List.range' first (crews.flatMap Crew.recruits).length := by
  induction crews generalizing first with
  | nil => rfl
  | cons crew rest ih =>
      rw [numbered, List.flatMap_cons, ih, List.flatMap_cons, List.length_append]
      exact List.range'_append_1

/-- The threads of numbered crews are found where the posts of their workers stand. -/
theorem numbered_posts (before : List (ResourceKind × String)) (crews : List (Crew σ)) :
    (numbered before.length crews).map (fun crew => crew.threads.map fun index =>
        (before ++ crews.flatMap posts)[index]?) =
      crews.map fun crew => crew.posts.map some := by
  induction crews generalizing before with
  | nil => rfl
  | cons crew rest ih =>
      have same : crew.posts.length = crew.recruits.length := by rw [← recruits_posts, List.length_map]
      have others := ih (before ++ crew.posts)
      rw [List.length_append, same, List.append_assoc] at others
      rw [numbered, List.map_cons, List.map_cons, List.flatMap_cons, others]
      congr 1
      apply List.ext_getElem?
      intro index
      by_cases bound : index < crew.posts.length
      · simp [← same, bound, List.getElem?_append_right, List.getElem?_append_left]
      · simp [← same, bound]

section Start

variable [AddCommGroup Time] [LinearOrder Time] {pace : Pace σ Time}

theorem startAll_of_isManned {crews : List (Crew σ)} (manned : ∀ crew ∈ crews, crew.IsManned)
    (pool : Pool σ Time) : Crew.startAll pace pool crews = (crews, pool) := by
  induction crews generalizing pool with
  | nil => rfl
  | cons crew rest ih =>
      rw [List.forall_mem_cons] at manned
      have unchanged : crew.start pace pool = (crew, pool) := by
        rw [start]
        split
        · next none =>
            have threads := List.isEmpty_iff.mp none
            have recruits : crew.recruits = [] := by
              rw [← List.length_eq_zero_iff, length_recruits, ← manned.1, threads, List.length_nil]
            rw [recruits, Pool.startAll, ← threads]
        · rfl
      simp only [startAll, unchanged, ih manned.2]

variable [IsOrderedAddMonoid Time] {crews : List (Crew σ)} (new : ∀ crew ∈ crews, crew.threads = [])
  (pool : Pool σ Time)

include new

theorem startAll_crews : (Crew.startAll pace pool crews).1 = numbered pool.threads.length crews := by
  induction crews generalizing pool with
  | nil => rfl
  | cons crew rest ih =>
      rw [List.forall_mem_cons] at new
      have length := (pool.startAll_evolves pace crew.recruits).length_eq
      rw [Pool.enlist_threads, List.length_append] at length
      simp only [startAll, start, new.1, List.isEmpty_nil, if_true, ih new.2, numbered,
        Pool.startAll_handles, length]

theorem startAll_evolves :
    (pool.enlist (crews.flatMap Crew.recruits)).Evolves (Crew.startAll pace pool crews).2 := by
  induction crews generalizing pool with
  | nil => simpa [startAll] using Pool.Evolves.refl pool
  | cons crew rest ih =>
      rw [List.forall_mem_cons] at new
      have first := (pool.startAll_evolves pace crew.recruits).enlist (rest.flatMap Crew.recruits)
      rw [Pool.enlist_enlist] at first
      have others := ih new.2 (pool.startAll pace crew.recruits).2
      simp only [startAll, start, new.1, List.isEmpty_nil, if_true, List.flatMap_cons]
      exact first.trans others

end Start

end Crew

namespace Fleet

section Begin

variable [AddCommGroup Time] [LinearOrder Time] (pace : Pace σ Time) (crews : List (Crew σ)) (time : Time)
  (stopsFirst : Bool)

def prepared : Fleet σ Time :=
  let fleet : Fleet σ Time := { crews := crews, pool := { time := time } }
  if stopsFirst then fleet.signalStop pace else fleet

/-- A fleet after a number of starts, before which the signal was set or not. -/
def begun (starts : Nat) : Fleet σ Time := (Fleet.start pace)^[starts] (prepared pace crews time stopsFirst)

@[simp] theorem prepared_crews : (prepared pace crews time stopsFirst).crews = crews := by
  cases stopsFirst <;> rfl

@[simp] theorem prepared_stopping : (prepared pace crews time stopsFirst).pool.stopping = stopsFirst := by
  cases stopsFirst <;> rfl

variable [IsOrderedAddMonoid Time]

@[simp] theorem prepared_threads : (prepared pace crews time stopsFirst).pool.threads = [] := by
  cases stopsFirst with
  | false => rfl
  | true =>
      apply List.eq_nil_of_length_eq_zero
      exact Pool.next_evolves.length_eq

variable {pace crews time stopsFirst} {fleet : Fleet σ Time}

section Start

variable (new : ∀ crew ∈ fleet.crews, crew.threads = [])

include new

theorem start_crews : (fleet.start pace).crews = Crew.numbered fleet.pool.threads.length fleet.crews :=
  Crew.startAll_crews new fleet.pool

theorem start_evolves :
    (fleet.pool.enlist (fleet.crews.flatMap Crew.recruits)).Evolves (fleet.start pace).pool :=
  Crew.startAll_evolves new fleet.pool

/-- A fleet that was started starts no more threads, however often it is started again. -/
theorem iterate_start (starts : Nat) : (Fleet.start pace)^[starts + 1] fleet = fleet.start pace := by
  have manned : ∀ crew ∈ (fleet.start pace).crews, crew.IsManned := by
    rw [start_crews new]
    exact Crew.numbered_isManned _ _
  have again : (fleet.start pace).start pace = fleet.start pace := by
    rw [start, Crew.startAll_of_isManned manned]
  rw [Function.iterate_succ_apply]
  exact Function.iterate_fixed again starts

end Start

variable (new : ∀ crew ∈ crews, crew.threads = [])

include new

theorem begun_crews (starts : Nat) :
    (begun pace crews time stopsFirst starts).crews = if starts = 0 then crews else Crew.numbered 0 crews := by
  cases starts with
  | zero => simp [begun]
  | succ starts =>
      have unstarted : ∀ crew ∈ (prepared pace crews time stopsFirst).crews, crew.threads = [] := by
        simpa using new
      rw [begun, iterate_start unstarted, start_crews unstarted]
      simp

/-- The pool of a fleet that was started grew out of the threads that its crews recruited. -/
theorem begun_evolves (starts : Nat) :
    ((prepared pace crews time stopsFirst).pool.enlist
        (if starts = 0 then [] else crews.flatMap Crew.recruits)).Evolves
      (begun pace crews time stopsFirst starts).pool := by
  cases starts with
  | zero =>
      rw [if_pos rfl, Pool.enlist_nil]
      exact .refl _
  | succ starts =>
      have unstarted : ∀ crew ∈ (prepared pace crews time stopsFirst).crews, crew.threads = [] := by
        simpa using new
      rw [begun, iterate_start unstarted]
      simpa using start_evolves unstarted

end Begin

end Fleet
end MeshGauges
