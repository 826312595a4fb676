import MeshGauges.Replica.Fleet

/-! Groups: fleets that are rehearsed.

The cluster of a group answers each list request of a worker the same way, or never, and its streams are
empty. Beside the owner of the group every thread settles before anything else is done, so a worker whose
list request is answered has synced before the group is shut down and stops as soon as it is told to. -/

set_option autoImplicit false

namespace MeshGauges

/-- What the cluster does with the list requests of a worker: answer each the same, or never answer. -/
abbrev ListBehavior := Option (Except Fault Listing)

namespace Group

/-- The surroundings of a started worker: its streams are empty, and the stop signal comes at its first
pause at the latest. -/
def surroundings (behavior : ListBehavior) : Surroundings Bool where
  stopping signal := (signal, signal)
  clock signal := (0.0, signal)
  list _ signal := (behavior, signal)
  watch _ _ _ signal := signal
  next signal := (.ended, signal)
  pause _ _ := true

/-- Enough steps for a worker to list, watch, pause and see the stop signal. -/
def settlingSteps : Nat := 16

/-- Every thread takes its steps. -/
def settling {σ Time : Type} (pool : Pool σ Time) : List (Turn Time) :=
  (List.range pool.threads.length).flatMap fun index => List.replicate settlingSteps (.step index)

/-- Threads settle at once, and a wait for one that is still alive then takes all of its time. -/
def rehearsal {σ Time : Type} [Zero Time] [Add Time] [Max Time] : Pace σ Time where
  before := settling
  waiting index span pool :=
    if (pool.takeAll (settling pool)).isAlive index then settling pool ++ [.elapse span] else settling pool

def crew (replica : Replica) (behavior : String → ListBehavior) : Crew Bool where
  replica := replica
  meets _ worker := (surroundings (behavior worker.space), false)

end Group

/-- Replicas with what each one's cluster answers, and the fleet that they make up. -/
structure Group where
  replicas : List (Replica × (String → ListBehavior))
  fleet : Fleet Bool Float :=
    { crews := replicas.map fun (replica, behavior) => Group.crew replica behavior
      pool := { time := 0.0 } }

namespace Group

def start (group : Group) : Group := { group with fleet := group.fleet.start rehearsal }

def signalStop (group : Group) : Group := { group with fleet := group.fleet.signalStop rehearsal }

structure Ending where
  stopped : Bool
  journal : Journal
  replicas : List Replica
  /-- The names of the threads of each replica, in order. -/
  threads : List (List String)

/-- Set the stop signal and wait for the workers, for a time at the most. -/
def shutdown (group : Group) (timeout : Float) : Ending :=
  let ending := group.fleet.shutdown rehearsal Number.onePlaceText timeout
  let pool := ending.fleet.pool
  { stopped := ending.stopped
    journal := ending.journal
    replicas := ending.fleet.crews.map fun crew => { crew.replica with workers := crew.workers pool }
    threads := ending.fleet.crews.map fun crew =>
      ((crew.threads.filterMap fun thread => pool.threads[thread]?).map Thread.name).mergeSort
        fun first second => first ≤ second }

end Group
end MeshGauges
