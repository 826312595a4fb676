import MeshGauges.Number.Written
import MeshGauges.Replica.Watch

/-! The life of a worker: list, watch, and list again until it is stopped.

After a failure the worker pauses, longer from failure to failure up to a limit; a relist that succeeds
takes the pause back to its beginning. Like a watch, a life is a step machine over its surroundings. -/

set_option autoImplicit false

namespace MeshGauges

open MeshGauges.Number

/-- Where a life stands. The delay is the pause after the next failure. -/
inductive LifeStage where
  | polling (delay : Float)
  | listing (delay : Float)
  | watching (stage : WatchStage)
  | backingOff (delay : Float)
  | finished
  deriving Repr

namespace Life

variable {σ : Type}

/-- The pause after a failure that follows one with the given pause. -/
def nextDelay (timing : Timing) (delay : Float) : Float :=
  earlier (delay * 2.0) timing.backoffMax

def warning (worker : Worker) (delay : Float) (fault : Fault) : Message :=
  .warning ("Sync of " ++ worker.label ++ " failed, retrying in " ++ onePlaceText delay ++ "s: " ++
    fault.message)

def giveUp (situation : Situation σ) (delay : Float) (fault : Fault) : Situation σ × LifeStage :=
  let failed := { situation with worker := { situation.worker with phase := .syncing } }
  (failed.record [.failed fault, .report (warning situation.worker delay fault)], .backingOff delay)

def finish (situation : Situation σ) : Situation σ × LifeStage :=
  let stopped := { situation with worker := { situation.worker with phase := .stopped } }
  (stopped.reportAll [.info ("Stopped sync of " ++ situation.worker.label)], .finished)

def beginListing (situation : Situation σ) (delay : Float) : Situation σ × LifeStage :=
  let worker := situation.worker.beginRelist
  ({ situation with worker := worker }.record [.list worker.space worker.phase], .listing delay)

def takeOver (situation : Situation σ) (delay : Float) (answer : Except Fault Listing) :
    Situation σ × LifeStage :=
  match answer.bind situation.worker.adopt with
  | .error fault => giveUp situation delay fault
  | .ok (worker, journal) =>
      (({ situation with worker := worker }.record [.relisted]).reportAll journal, .watching .dating)

def afterWatch (timing : Timing) (situation : Situation σ) : WatchStage → Situation σ × LifeStage
  | .returned => (situation, .polling timing.backoffInitial)
  | .raised fault => giveUp situation timing.backoffInitial fault
  | stage => (situation, .watching stage)

def step (timing : Timing) (around : Surroundings σ) (situation : Situation σ) :
    LifeStage → Situation σ × LifeStage
  | .polling delay =>
      let (stopping, after) := around.stopping situation.surroundings
      let later := { situation with surroundings := after }
      if stopping then finish later else beginListing later delay
  | .listing delay =>
      let (answer?, after) := around.list situation.worker.space situation.surroundings
      let later := { situation with surroundings := after }
      match answer? with
      | none => (later, .listing delay)
      | some answer => takeOver later delay answer
  | .watching stage =>
      let (later, reached) := Watch.step timing around situation stage
      afterWatch timing later reached
  | .backingOff delay =>
      ({ situation with
          surroundings := around.pause delay situation.surroundings
          history := situation.history ++ [.pause delay] },
        .polling (nextDelay timing delay))
  | .finished => (situation, .finished)

def run (timing : Timing) (around : Surroundings σ) :
    Nat → Situation σ → LifeStage → Situation σ × LifeStage
  | 0, situation, stage => (situation, stage)
  | steps + 1, situation, stage =>
      let (later, reached) := step timing around situation stage
      run timing around steps later reached

def begin (timing : Timing) (worker : Worker) (surroundings : σ) : Situation σ × LifeStage :=
  ({ worker := worker
     surroundings := surroundings
     history := [.report (.info ("Starting sync of " ++ worker.label))] },
    .polling timing.backoffInitial)

def live (timing : Timing) (around : Surroundings σ) (steps : Nat) (worker : Worker)
    (surroundings : σ) : Situation σ × LifeStage :=
  let (situation, stage) := begin timing worker surroundings
  run timing around steps situation stage

end Life
end MeshGauges
