import MeshGauges.Replica.Basic
import MeshGauges.Replica.Cycle

/-! Pools: the threads that live beside their owner.

A pool holds the threads that its owner has started, the one stop signal that they share and the time.
Between two actions of the owner, and while it waits for a thread, the threads take steps of their lives
and time passes, in any order; a pace says in which. The owner can start a thread, set the signal, read the
clock, wait for a thread for a while and ask whether a thread is alive. -/

set_option autoImplicit false

namespace MeshGauges

variable {σ Time : Type}

/-- The surroundings of a worker whose stop signal is shared with others. -/
def Surroundings.sharing (around : Surroundings σ) (stopping : Bool) : Surroundings σ :=
  { around with stopping := fun state => (stopping, state) }

/-- A thread that carries out a worker's life, as far as it has come. -/
structure Thread (σ : Type) where
  name : String
  timing : Timing
  around : Surroundings σ
  situation : Situation σ
  stage : LifeStage

namespace Thread

def new (timing : Timing) (around : Surroundings σ) (start : σ) (worker : Worker) : Thread σ :=
  let (situation, stage) := Life.begin timing worker start
  ⟨Replica.threadName worker, timing, around, situation, stage⟩

def worker (thread : Thread σ) : Worker := thread.situation.worker

def step (stopping : Bool) (thread : Thread σ) : Thread σ :=
  let (situation, stage) :=
    Life.step thread.timing (thread.around.sharing stopping) thread.situation thread.stage
  { thread with situation := situation, stage := stage }

def isAlive (thread : Thread σ) : Bool :=
  match thread.stage with
  | .finished => false
  | _ => true

end Thread

/-- What can happen beside the owner of a pool. -/
inductive Turn (Time : Type) where
  | step (index : Nat)
  | elapse (span : Time)

structure Pool (σ Time : Type) where
  time : Time
  stopping : Bool := false
  /-- The threads in the order in which they were started. -/
  threads : List (Thread σ) := []
  /-- How often the owner has acted. -/
  actions : Nat := 0

/-- What happens beside the owner of a pool before each of its actions, and while it waits for a thread for
at most a span. -/
structure Pace (σ Time : Type) where
  before : Pool σ Time → List (Turn Time)
  waiting : Nat → Time → Pool σ Time → List (Turn Time)

namespace Pool

/-- Whether the thread of an index lives. -/
def isAlive (pool : Pool σ Time) (index : Nat) : Bool :=
  pool.threads[index]?.any Thread.isAlive

variable [Zero Time] [Add Time] [Max Time]

def take (pool : Pool σ Time) : Turn Time → Pool σ Time
  | .step index => { pool with threads := pool.threads.modify index (Thread.step pool.stopping) }
  | .elapse span => { pool with time := pool.time + max span 0 }

def takeAll (pool : Pool σ Time) (turns : List (Turn Time)) : Pool σ Time :=
  { turns.foldl take pool with actions := pool.actions + 1 }

/-- The pool at the owner's next action. -/
def next (pace : Pace σ Time) (pool : Pool σ Time) : Pool σ Time :=
  pool.takeAll (pace.before pool)

def clock (pace : Pace σ Time) (pool : Pool σ Time) : Time × Pool σ Time :=
  ((pool.next pace).time, pool.next pace)

def signalStop (pace : Pace σ Time) (pool : Pool σ Time) : Pool σ Time :=
  { pool.next pace with stopping := true }

/-- Start a thread; the result tells its index. -/
def start (pace : Pace σ Time) (pool : Pool σ Time) (thread : Thread σ) : Nat × Pool σ Time :=
  let later := pool.next pace
  (later.threads.length, { later with threads := later.threads ++ [thread] })

/-- Start threads one after the other. -/
def startAll (pace : Pace σ Time) (pool : Pool σ Time) : List (Thread σ) → List Nat × Pool σ Time
  | [] => ([], pool)
  | thread :: rest =>
      let (index, started) := pool.start pace thread
      let (others, later) := started.startAll pace rest
      (index :: others, later)

/-- Wait until a thread has finished, for a span at the most. -/
def wait (pace : Pace σ Time) (pool : Pool σ Time) (index : Nat) (span : Time) : Pool σ Time :=
  pool.takeAll (pace.waiting index span pool)

/-- Ask for one thread after the other whether it lives, up to the first that does. -/
def anyAlive (pace : Pace σ Time) (pool : Pool σ Time) : List Nat → Bool × Pool σ Time
  | [] => (false, pool)
  | index :: rest =>
      let asked := pool.next pace
      if asked.isAlive index then (true, asked) else asked.anyAlive pace rest

/-- Wait for threads one after the other, up to a deadline that they share. -/
def waitAll [Sub Time] (pace : Pace σ Time) (deadline : Time) (pool : Pool σ Time) : List Nat → Pool σ Time
  | [] => pool
  | index :: rest =>
      let (now, read) := pool.clock pace
      (read.wait pace index (max (deadline - now) 0)).waitAll pace deadline rest

end Pool
end MeshGauges
