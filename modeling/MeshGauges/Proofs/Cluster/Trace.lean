import MeshGauges.Cluster.Source
import MeshGauges.Proofs.Replica.Course

/-! What passes between a worker and the client of a cluster.

A client is traced by a client that does the same and notes every request, every item that a stream yields,
and every closing of a stream that ended or failed. (A stream that its worker leaves is let go of by no step
of the worker, and its closing is not noted.) Tracing changes nothing: a life in traced surroundings shows
the same worker, history and stage at each moment as the life that is not traced (`moment_traced`). -/

set_option autoImplicit false

namespace MeshGauges

variable {σ τ : Type}

/-! ### Surroundings seen through a view -/

/-- Surroundings that answer like others do, as far as a view of their states shows. -/
structure Surroundings.ViewedAs (around : Surroundings τ) (plain : Surroundings σ) (view : τ → σ) :
    Prop where
  stopping : ∀ state, plain.stopping (view state) = Prod.map id view (around.stopping state)
  clock : ∀ state, plain.clock (view state) = Prod.map id view (around.clock state)
  list : ∀ space state, plain.list space (view state) = Prod.map id view (around.list space state)
  watch : ∀ space version seconds state,
    plain.watch space version seconds (view state) = view (around.watch space version seconds state)
  next : ∀ state, plain.next (view state) = Prod.map id view (around.next state)
  pause : ∀ seconds state, plain.pause seconds (view state) = view (around.pause seconds state)

def Situation.view (situation : Situation τ) (view : τ → σ) : Situation σ :=
  ⟨situation.worker, view situation.surroundings, situation.history⟩

namespace Surroundings.ViewedAs

variable {around : Surroundings τ} {plain : Surroundings σ} {view : τ → σ}

theorem openStream (viewed : around.ViewedAs plain view) (timing : Timing) (situation : Situation τ)
    (deadline remaining : Float) :
    Watch.openStream timing plain (situation.view view) deadline remaining =
      Prod.map (·.view view) id (Watch.openStream timing around situation deadline remaining) := by
  unfold Watch.openStream
  split
  · rfl
  · cases requestTimeout remaining timing.watchTimeout with
    | error fault => rfl
    | ok seconds =>
        simp only [Situation.view, viewed.watch]
        rfl

theorem deliver (view : τ → σ) (situation : Situation τ) (deadline remaining : Float) (event : Tree) :
    Watch.deliver (situation.view view) deadline remaining event =
      Prod.map (·.view view) id (Watch.deliver situation deadline remaining event) := by
  unfold Watch.deliver
  simp only [Situation.view]
  cases situation.worker.apply event <;> rfl

theorem watch_step (viewed : around.ViewedAs plain view) (timing : Timing) (situation : Situation τ)
    (stage : WatchStage) :
    Watch.step timing plain (situation.view view) stage =
      Prod.map (·.view view) id (Watch.step timing around situation stage) := by
  have stopping : plain.stopping (situation.view view).surroundings = _ := viewed.stopping _
  have clock : plain.clock (situation.view view).surroundings = _ := viewed.clock _
  have next : plain.next (situation.view view).surroundings = _ := viewed.next _
  have pause seconds : plain.pause seconds (situation.view view).surroundings = _ := viewed.pause _ _
  cases stage with
  | dating =>
      simp only [Watch.step, clock]
      rfl
  | polling deadline =>
      simp only [Watch.step, stopping]
      rfl
  | measuring deadline =>
      simp only [Watch.step, clock]
      exact viewed.openStream timing ⟨_, (around.clock situation.surroundings).2, _⟩ deadline _
  | streaming deadline remaining received =>
      cases yielded : around.next situation.surroundings with
      | mk item after =>
          rw [yielded] at next
          simp only [Watch.step, next, yielded]
          cases item <;> rfl
  | delivering deadline remaining event =>
      cases polled : around.stopping situation.surroundings with
      | mk seen after =>
          rw [polled] at stopping
          simp only [Watch.step, stopping, polled]
          cases seen with
          | true => rfl
          | false => exact deliver view ⟨_, after, _⟩ deadline remaining event
  | pausing deadline remaining =>
      simp only [Watch.step, pause]
      rfl
  | returned => rfl
  | raised fault => rfl

private theorem takeOver (view : τ → σ) (situation : Situation τ) (delay : Float)
    (answer : Except Fault Listing) :
    Life.takeOver (situation.view view) delay answer =
      Prod.map (·.view view) id (Life.takeOver situation delay answer) := by
  unfold Life.takeOver
  rw [Situation.view]
  cases answer.bind situation.worker.adopt <;> rfl

private theorem afterWatch (view : τ → σ) (timing : Timing) (situation : Situation τ) (stage : WatchStage) :
    Life.afterWatch timing (situation.view view) stage =
      Prod.map (·.view view) id (Life.afterWatch timing situation stage) := by
  cases stage <;> rfl

theorem life_step (viewed : around.ViewedAs plain view) (timing : Timing) (situation : Situation τ)
    (stage : LifeStage) :
    Life.step timing plain (situation.view view) stage =
      Prod.map (·.view view) id (Life.step timing around situation stage) := by
  have stopping : plain.stopping (situation.view view).surroundings = _ := viewed.stopping _
  have pause seconds : plain.pause seconds (situation.view view).surroundings = _ := viewed.pause _ _
  cases stage with
  | polling delay =>
      cases polled : around.stopping situation.surroundings with
      | mk seen after =>
          rw [polled] at stopping
          simp only [Life.step, stopping, polled]
          cases seen <;> rfl
  | listing delay =>
      have list : plain.list (situation.view view).worker.space (situation.view view).surroundings = _ :=
        viewed.list situation.worker.space situation.surroundings
      cases answered : around.list situation.worker.space situation.surroundings with
      | mk answer? after =>
          rw [answered] at list
          simp only [Life.step, list, answered]
          cases answer? with
          | none => rfl
          | some answer => exact takeOver view ⟨_, after, _⟩ delay answer
  | watching stage =>
      simp only [Life.step, viewed.watch_step]
      exact afterWatch view timing _ _
  | backingOff delay =>
      simp only [Life.step, pause]
      rfl
  | finished => rfl

theorem life_run (viewed : around.ViewedAs plain view) (timing : Timing) (steps : Nat)
    (situation : Situation τ) (stage : LifeStage) :
    Life.run timing plain steps (situation.view view) stage =
      Prod.map (·.view view) id (Life.run timing around steps situation stage) := by
  induction steps generalizing situation stage with
  | zero => rfl
  | succ steps ih =>
      rw [Life.run, viewed.life_step]
      exact ih _ _

end Surroundings.ViewedAs

/-! ### Traced clients -/

namespace Cluster

/-- What passes between a worker and the client of a cluster. -/
inductive Exchange where
  | listed (call : Call)
  | opened (request : WatchRequest)
  | delivered (event : Tree)
  | ended
  /-- The stream fails; the fault is the one that the client raises. -/
  | failed (fault : Fault)
  /-- The stream is closed because it ended or failed. -/
  | closed
  deriving Repr

def Exchange.ofItem : StreamItem → Exchange
  | .event event => .delivered event
  | .ended => .ended
  | .failed fault => .failed fault

/-- The state of a client and what has passed up to it. -/
structure Traced (σ : Type) where
  state : σ
  exchanges : List Exchange := []

namespace Traced

def note (traced : Traced σ) (exchange : Exchange) (after : σ) : Traced σ :=
  ⟨after, traced.exchanges ++ [exchange]⟩

def carry (traced : Traced σ) (after : σ) : Traced σ := ⟨after, traced.exchanges⟩

end Traced

namespace Client

def traced (client : Client σ) : Client (Traced σ) where
  list call traced :=
    let (answer, after) := client.list call traced.state
    (answer, traced.note (.listed call) after)
  openStream request traced := traced.note (.opened request) (client.openStream request traced.state)
  next traced :=
    let (item, after) := client.next traced.state
    (item, traced.note (.ofItem item) after)
  closeStream traced := traced.note .closed (client.closeStream traced.state)

def Process.traced (process : Process σ) : Process (Traced σ) where
  stopping traced :=
    let (seen, after) := process.stopping traced.state
    (seen, traced.carry after)
  clock traced :=
    let (now, after) := process.clock traced.state
    (now, traced.carry after)
  pause seconds traced := traced.carry (process.pause seconds traced.state)

variable (client : Client σ) (process : Process σ) (kind : ResourceKind)

theorem traced_viewedAs : (client.traced.surroundings process.traced kind).ViewedAs
    (client.surroundings process kind) Traced.state where
  stopping _ := rfl
  clock _ := rfl
  list _ _ := rfl
  watch _ _ _ _ := rfl
  next traced := by
    cases yielded : client.next traced.state with
    | mk item after =>
        simp only [surroundings, nextItem, Client.traced, yielded]
        cases item <;> rfl
  pause _ _ := rfl

/-- The life of a new worker on a client. -/
def course (timing : Timing) (space : String) (start : σ) : Course σ :=
  .ofNew timing (client.surroundings process kind) kind space start

def tracedCourse (timing : Timing) (space : String) (start : σ) : Course (Traced σ) :=
  client.traced.course process.traced kind timing space ⟨start, []⟩

/-- Tracing changes nothing. -/
theorem moment_traced (timing : Timing) (space : String) (start : σ) (steps : Nat) :
    (client.course process kind timing space start).moment steps =
      Prod.map (·.view Traced.state) id
        ((client.tracedCourse process kind timing space start).moment steps) := by
  have same := (client.traced_viewedAs process kind).life_run timing steps
    (Life.begin timing { kind := kind, space := space } (Traced.mk start [])).1
    (.polling timing.backoffInitial)
  exact same

section Notes

variable {client} {process} {kind} {before after : Traced σ}

theorem exchanges_of_stopping {seen : Bool}
    (polled : (client.traced.surroundings process.traced kind).stopping before = (seen, after)) :
    after.exchanges = before.exchanges := by
  cases polled
  rfl

theorem exchanges_of_clock {now : Float}
    (read : (client.traced.surroundings process.traced kind).clock before = (now, after)) :
    after.exchanges = before.exchanges := by
  cases read
  rfl

theorem exchanges_of_list {space : String} {answer : Option (Except Fault Listing)}
    (answered : (client.traced.surroundings process.traced kind).list space before = (answer, after)) :
    after.exchanges = before.exchanges ++ [.listed (call kind space)] := by
  cases answered
  rfl

/-- What is noted when a stream is asked for an item: the item, and a closing if it is the last one. A
failure is noted as the client raises it. -/
inductive Notes (kind : ResourceKind) : StreamItem → List Exchange → Prop where
  | event (event : Tree) : Notes kind (.event event) [.delivered event]
  | ended : Notes kind .ended [.ended, .closed]
  | failed (fault : Fault) : Notes kind (.failed (streamFault kind fault)) [.failed fault, .closed]

theorem exchanges_of_next {item : StreamItem}
    (yielded : (client.traced.surroundings process.traced kind).next before = (item, after)) :
    ∃ noted, Notes kind item noted ∧ after.exchanges = before.exchanges ++ noted := by
  cases raised : client.next before.state with
  | mk raw later =>
      simp only [surroundings, nextItem, Client.traced, raised] at yielded
      cases raw with
      | event event =>
          cases yielded
          exact ⟨_, .event event, rfl⟩
      | ended =>
          cases yielded
          exact ⟨_, .ended, by simp [Traced.note, Exchange.ofItem]⟩
      | failed fault =>
          cases yielded
          exact ⟨_, .failed fault, by simp [Traced.note, Exchange.ofItem]⟩

end Notes

end Client

end Cluster

end MeshGauges
