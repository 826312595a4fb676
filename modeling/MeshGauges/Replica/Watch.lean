import MeshGauges.Replica.Timing
import MeshGauges.Replica.Worker

/-! Watching until the next listing is due.

A watch is a step machine. Each step asks the surroundings one thing (the clock, the stop signal, the
next item of a stream, a pause), so every order in which time passes and the signal is set is a run of
it. `Surroundings` says nothing about how the answers come about. -/

set_option autoImplicit false

namespace MeshGauges

open MeshGauges.Number

/-- What a stream yields when it is asked for its next item. -/
inductive StreamItem where
  | event (event : Tree)
  | ended
  | failed (fault : Fault)
  deriving Repr

/-- Everything that a worker asks for. A list request that is never answered has no answer. -/
structure Surroundings (σ : Type) where
  stopping : σ → Bool × σ
  clock : σ → Float × σ
  list : String → σ → Option (Except Fault Listing) × σ
  watch : String → String → Int → σ → σ
  next : σ → StreamItem × σ
  pause : Float → σ → σ

inductive Activity where
  /-- A list request for a namespace, with the phase at that moment. -/
  | list (space : String) (phase : Phase)
  | relisted
  /-- A watch request for a namespace from a version, with its timeout. -/
  | watch (space version : String) (timeout : Int)
  | applied (event : Tree)
  | failed (fault : Fault)
  | pause (seconds : Float)
  | report (message : Message)
  deriving Repr

structure Situation (σ : Type) where
  worker : Worker
  surroundings : σ
  history : List Activity := []

namespace Situation

variable {σ : Type}

def record (situation : Situation σ) (activities : List Activity) : Situation σ :=
  { situation with history := situation.history ++ activities }

def reportAll (situation : Situation σ) (journal : Journal) : Situation σ :=
  situation.record (journal.map .report)

end Situation

inductive WatchStage where
  /-- The deadline is to be set. -/
  | dating
  /-- The stop signal is to be looked at. -/
  | polling (deadline : Float)
  /-- The time left is to be measured. -/
  | measuring (deadline : Float)
  /-- The next item of a stream is awaited. -/
  | streaming (deadline remaining : Float) (received : Bool)
  /-- An event came; the stop signal is to be looked at once more. -/
  | delivering (deadline remaining : Float) (event : Tree)
  /-- A stream yielded nothing; a pause is due. -/
  | pausing (deadline remaining : Float)
  | returned
  | raised (fault : Fault)
  deriving Repr

namespace Watch

variable {σ : Type}

def openStream (timing : Timing) (around : Surroundings σ) (situation : Situation σ)
    (deadline remaining : Float) : Situation σ × WatchStage :=
  if remaining ≤ 0.0 then (situation, .returned)
  else match requestTimeout remaining timing.watchTimeout with
    | .error fault => (situation, .raised fault)
    | .ok seconds =>
        let worker := situation.worker
        ({ situation with
            surroundings := around.watch worker.space worker.version seconds situation.surroundings
            history := situation.history ++ [.watch worker.space worker.version seconds] },
          .streaming deadline remaining false)

def deliver (situation : Situation σ) (deadline remaining : Float) (event : Tree) :
    Situation σ × WatchStage :=
  match situation.worker.apply event with
  | .error fault => (situation, .raised fault)
  | .ok (worker, journal) =>
      (({ situation with worker := worker }.record [.applied event]).reportAll journal,
        .streaming deadline remaining true)

def step (timing : Timing) (around : Surroundings σ) (situation : Situation σ) :
    WatchStage → Situation σ × WatchStage
  | .dating =>
      let (now, after) := around.clock situation.surroundings
      ({ situation with surroundings := after },
        match timing.resyncPeriod.toFloat? with
        | some period => .polling (now + period)
        | none => .raised .periodTooLarge)
  | .polling deadline =>
      let (stopping, after) := around.stopping situation.surroundings
      ({ situation with surroundings := after }, if stopping then .returned else .measuring deadline)
  | .measuring deadline =>
      let (now, after) := around.clock situation.surroundings
      openStream timing around { situation with surroundings := after } deadline (deadline - now)
  | .streaming deadline remaining received =>
      let (item, after) := around.next situation.surroundings
      let later := { situation with surroundings := after }
      match item with
      | .event event => (later, .delivering deadline remaining event)
      | .failed fault => (later, .raised fault)
      | .ended => (later, if received then .polling deadline else .pausing deadline remaining)
  | .delivering deadline remaining event =>
      let (stopping, after) := around.stopping situation.surroundings
      let later := { situation with surroundings := after }
      if stopping then (later, .returned) else deliver later deadline remaining event
  | .pausing deadline remaining =>
      let seconds := earlier timing.backoffInitial remaining
      ({ situation with
          surroundings := around.pause seconds situation.surroundings
          history := situation.history ++ [.pause seconds] },
        .polling deadline)
  | .returned => (situation, .returned)
  | .raised fault => (situation, .raised fault)

def run (timing : Timing) (around : Surroundings σ) :
    Nat → Situation σ → WatchStage → Situation σ × WatchStage
  | 0, situation, stage => (situation, stage)
  | steps + 1, situation, stage =>
      let (later, reached) := step timing around situation stage
      run timing around steps later reached

end Watch
end MeshGauges
