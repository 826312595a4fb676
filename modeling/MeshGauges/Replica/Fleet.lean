import MeshGauges.Replica.Pool

/-! Fleets: replicas whose workers are started and shut down together.

A crew is a replica with the threads that were started for its workers. It starts once; starting it again
changes nothing. All crews of a fleet are in one pool, so they share the stop signal. A shutdown sets the
signal and waits for one crew after the other, up to a deadline that they share. It reports whether every
thread was gone in time. -/

set_option autoImplicit false

namespace MeshGauges

variable {σ Time : Type}

structure Crew (σ : Type) where
  replica : Replica
  timing : Timing := {}
  /-- What surrounds the worker of an index, and the state that its surroundings start from. -/
  meets : Nat → Worker → Surroundings σ × σ
  /-- The threads that were started for the workers, as indices into the pool. -/
  threads : List Nat := []

namespace Crew

/-- The threads that a crew starts, one for each worker. -/
def recruits (crew : Crew σ) : List (Thread σ) :=
  crew.replica.workers.mapIdx fun index worker =>
    let (around, start) := crew.meets index worker
    .new crew.timing around start worker

/-- The workers as their threads have left them; a worker without a thread is as it was made. -/
def workers (crew : Crew σ) (pool : Pool σ Time) : List Worker :=
  crew.replica.workers.mapIdx fun index worker =>
    ((crew.threads[index]?.bind fun thread => pool.threads[thread]?).map Thread.worker).getD worker

variable [Zero Time] [Add Time] [Max Time] (pace : Pace σ Time)

def start (crew : Crew σ) (pool : Pool σ Time) : Crew σ × Pool σ Time :=
  if crew.threads.isEmpty then
    let (threads, later) := pool.startAll pace crew.recruits
    ({ crew with threads := threads }, later)
  else (crew, pool)

/-- Wait for the threads of a crew, for a time at the most, and tell whether all of them are gone. -/
def join [Sub Time] (crew : Crew σ) (timeout : Time) (pool : Pool σ Time) : Bool × Pool σ Time :=
  let (now, read) := pool.clock pace
  let (alive, later) := (read.waitAll pace (now + timeout) crew.threads).anyAlive pace crew.threads
  (!alive, later)

/-- Start one crew after the other. -/
def startAll (pool : Pool σ Time) : List (Crew σ) → List (Crew σ) × Pool σ Time
  | [] => ([], pool)
  | crew :: rest =>
      let (started, later) := crew.start pace pool
      let (others, last) := startAll later rest
      (started :: others, last)

/-- Join one crew after the other, each up to the deadline, and tell whether all threads of all of them were
gone. A crew that was not gone in time keeps no later one from being joined. -/
def joinAll [Sub Time] (deadline : Time) (stopped : Bool) (pool : Pool σ Time) :
    List (Crew σ) → Bool × Pool σ Time
  | [] => (stopped, pool)
  | crew :: rest =>
      let (now, read) := pool.clock pace
      let (joined, later) := crew.join pace (max (deadline - now) 0) read
      joinAll deadline (joined && stopped) later rest

end Crew

structure Fleet (σ Time : Type) where
  crews : List (Crew σ)
  pool : Pool σ Time

namespace Fleet

/-- What a shutdown reports, and the fleet after it. -/
structure Ending (σ Time : Type) where
  stopped : Bool
  journal : Journal
  fleet : Fleet σ Time

def unstoppedWarning (seconds : String) : Message :=
  .warning ("Some mirror workers did not stop within " ++ seconds ++ "s")

variable [Zero Time] [Add Time] [Max Time] (pace : Pace σ Time)

def signalStop (fleet : Fleet σ Time) : Fleet σ Time :=
  { fleet with pool := fleet.pool.signalStop pace }

def start (fleet : Fleet σ Time) : Fleet σ Time :=
  let (crews, pool) := Crew.startAll pace fleet.pool fleet.crews
  ⟨crews, pool⟩

/-- Set the stop signal and wait for all threads, for a time at the most. -/
def shutdown [Sub Time] (written : Time → String) (fleet : Fleet σ Time) (timeout : Time) : Ending σ Time :=
  let signalled := fleet.signalStop pace
  let (now, read) := signalled.pool.clock pace
  let (stopped, pool) := Crew.joinAll pace (now + timeout) true read fleet.crews
  { stopped := stopped
    journal := if stopped then [] else [unstoppedWarning (written timeout)]
    fleet := { fleet with pool := pool } }

end Fleet
end MeshGauges
