import MeshGauges.Proofs.Cluster.Trace
import MeshGauges.Proofs.Replica.Discipline

/-! Recovery from watches that end or fail.

On a traced client, every step of a worker is one of eight passages (`Passes`): it leaves the client alone,
asks for a listing, or opens, reads or leaves a stream. From these cases follows by induction what has passed
on the stream that was opened last (`Follows`): the worker applies what the stream delivers, event by event,
and a stream that ends or fails is closed once. After a failure the worker goes back to listing its own
scope before it watches again. -/

set_option autoImplicit false

namespace MeshGauges

open Cluster

variable {σ : Type}

/-! ### Passages -/

/-- What a worker has of the cluster at a stage of its life. -/
inductive Hold where
  | nothing
  /-- A request for a listing. -/
  | listing
  | stream
  /-- An event of a stream that is not applied yet. -/
  | event (event : Tree)

/-- Nothing of a stream. -/
inductive Hold.Aside : Hold → Prop where
  | nothing : Aside .nothing
  | listing : Aside .listing

def LifeStage.hold : LifeStage → Hold
  | .listing _ => .listing
  | .watching (.streaming _ _ _) => .stream
  | .watching (.delivering _ _ event) => .event event
  | _ => .nothing

/-- An activity that neither opens a stream nor applies one of its events. -/
def Activity.Aside : Activity → Prop
  | .watch _ _ _ => False
  | .applied _ => False
  | _ => True

namespace Cluster

/-- The call that answers for a scope: all namespaces, or one. -/
inductive InScope (kind : ResourceKind) : String → Call → Prop where
  | everywhere :
      InScope kind Settings.everyNamespace
        ⟨"list_cluster_custom_object", [kind.group, kind.version, kind.plural]⟩
  | within {space : String} : space ≠ Settings.everyNamespace →
      InScope kind space
        ⟨"list_namespaced_custom_object", [kind.group, kind.version, space, kind.plural]⟩

theorem call_inScope (kind : ResourceKind) (space : String) : InScope kind space (call kind space) := by
  unfold call
  split
  · rename_i everywhere
    subst everywhere
    exact .everywhere
  · rename_i named
    exact .within named

/-- What a worker is told when its stream fails: that the watch expired, if the version is gone, and else
what the client raised. -/
inductive ToldAs (kind : ResourceKind) : Fault → Fault → Prop where
  | gone (reason : String) :
      ToldAs kind (.rejected 410 reason) (.expired ("watch of " ++ kind.plural ++ " expired: " ++ reason))
  | other {fault : Fault} : (∀ reason, fault ≠ .rejected 410 reason) → ToldAs kind fault fault

theorem streamFault_toldAs (kind : ResourceKind) (fault : Fault) :
    ToldAs kind fault (streamFault kind fault) := by
  cases fault with
  | rejected status reason =>
      rw [streamFault]
      split
      · rename_i gone
        subst gone
        exact .gone reason
      · rename_i other
        refine .other fun reason same => other ?_
        cases same
        rfl
  | _ => exact .other fun reason same => by cases same

/-- A request, if it is one, is made in a scope. -/
def Exchange.Within (kind : ResourceKind) (space : String) : Exchange → Prop
  | .listed call => InScope kind space call
  | .opened request => InScope kind space request.call
  | _ => True

/-- An event is not applied: the stop signal is seen, or the worker cannot apply it. -/
def Declines (around : Surroundings σ) (situation : Situation σ) (event : Tree) : Prop :=
  (around.stopping situation.surroundings).1 = true ∨ ∃ fault, situation.worker.apply event = .error fault

/-- What one step does, and what passes between the worker and its client meanwhile. -/
inductive Passes (kind : ResourceKind) (around : Surroundings σ) (situation : Situation σ) :
    Hold → List Activity → List Exchange → Hold → Prop where
  | rests {added : List Activity} {reached : Hold} : reached.Aside → (∀ activity ∈ added, activity.Aside) →
      Passes kind around situation .nothing added [] reached
  | lists {added : List Activity} {reached : Hold} : reached.Aside → (∀ activity ∈ added, activity.Aside) →
      Passes kind around situation .listing added [.listed (call kind situation.worker.space)] reached
  | opens (seconds : Int) :
      Passes kind around situation .nothing
        [.watch situation.worker.space situation.worker.version seconds]
        [.opened (.of kind situation.worker.space situation.worker.version seconds)] .stream
  | receives (event : Tree) : Passes kind around situation .stream [] [.delivered event] (.event event)
  | ends : Passes kind around situation .stream [] [.ended, .closed] .nothing
  | breaks {raised told : Fault} (message : Message) : ToldAs kind raised told →
      Passes kind around situation .stream [.failed told, .report message] [.failed raised, .closed] .nothing
  | applies {event : Tree} (journal : Journal) : ¬ Declines around situation event →
      Passes kind around situation (.event event) (.applied event :: journal.map .report) [] .stream
  | leaves {event : Tree} {added : List Activity} : Declines around situation event →
      (∀ activity ∈ added, activity.Aside) → Passes kind around situation (.event event) added [] .nothing

namespace Passes

variable {kind : ResourceKind} {around : Surroundings σ} {situation : Situation σ} {hold reached : Hold}
  {added : List Activity} {noted : List Exchange}

theorem noted_of_nothing (passes : Passes kind around situation .nothing added noted reached)
    (unopened : ∀ space version seconds, .watch space version seconds ∉ added) : noted = [] := by
  cases passes with
  | rests => rfl
  | opens seconds => exact absurd (List.mem_singleton_self _) (unopened _ _ _)

theorem noted_of_listing (passes : Passes kind around situation .listing added noted reached) :
    noted = [.listed (call kind situation.worker.space)] := by
  cases passes
  rfl

theorem opens_of_opened {request : WatchRequest}
    (passes : Passes kind around situation hold added noted reached) (opened : .opened request ∈ noted) :
    ∃ seconds, request = .of kind situation.worker.space situation.worker.version seconds ∧
      .watch situation.worker.space situation.worker.version seconds ∈ added := by
  cases passes with
  | opens seconds =>
      obtain rfl : request = _ := by simpa using opened
      exact ⟨seconds, rfl, List.mem_singleton_self _⟩
  | _ => simp at opened

theorem breaks_of_failed {raised : Fault} (passes : Passes kind around situation hold added noted reached)
    (failed : .failed raised ∈ noted) : ∃ told, ToldAs kind raised told ∧ .failed told ∈ added := by
  cases passes with
  | @breaks _ told message toldAs =>
      obtain rfl : raised = _ := by simpa using failed
      exact ⟨told, toldAs, List.mem_cons_self⟩
  | _ => simp at failed

theorem applied_iff {event : Tree} (passes : Passes kind around situation hold added noted reached) :
    .applied event ∈ added ↔ hold = .event event ∧ ¬ Declines around situation event := by
  have unapplied (aside : ∀ activity ∈ added, activity.Aside) : .applied event ∉ added := aside _
  cases passes with
  | rests _ aside => simp [unapplied aside]
  | lists _ aside => simp [unapplied aside]
  | applies journal takes =>
      constructor
      · intro applied
        obtain rfl : event = _ := by simpa using applied
        exact ⟨rfl, takes⟩
      · rintro ⟨⟨⟩, _⟩
        exact List.mem_cons_self
  | leaves declines aside =>
      refine iff_of_false (unapplied aside) ?_
      rintro ⟨⟨⟩, takes⟩
      exact takes declines
  | _ => simp

theorem within (passes : Passes kind around situation hold added noted reached) :
    ∀ exchange ∈ noted, exchange.Within kind situation.worker.space := by
  have asked := call_inScope kind situation.worker.space
  cases passes with
  | lists => simpa [Exchange.Within] using asked
  | opens seconds => simpa [Exchange.Within, WatchRequest.of] using asked
  | _ => simp [Exchange.Within]

end Passes

end Cluster

/-! ### Steps on a traced client -/

section Steps

variable {client : Client σ} {process : Client.Process σ} {kind : ResourceKind} {timing : Timing}
  {situation : Situation (Traced σ)}

theorem Watch.Advances.passes {later : Situation (Traced σ)} {stage reached : WatchStage}
    {added : List Activity}
    (advances : Advances timing (client.traced.surroundings process.traced kind) situation stage added later
      reached) :
    ∃ noted, later.surroundings.exchanges = situation.surroundings.exchanges ++ noted ∧
      Passes kind (client.traced.surroundings process.traced kind) situation
        (LifeStage.watching stage).hold added noted (LifeStage.watching reached).hold := by
  have none : ∀ activity ∈ ([] : List Activity), activity.Aside := by simp
  cases advances with
  | dated read =>
      refine ⟨[], ?_, .rests .nothing none⟩
      simp [Client.exchanges_of_clock read]
  | continued polled =>
      refine ⟨[], ?_, .rests .nothing none⟩
      simp [Client.exchanges_of_stopping polled]
  | @opened deadline now seconds after read left timed =>
      refine ⟨[.opened _], ?_, .opens seconds⟩
      rw [← Client.exchanges_of_clock read]
      rfl
  | received yielded =>
      obtain ⟨noted, notes, grown⟩ := Client.exchanges_of_next yielded
      cases notes with
      | event => exact ⟨_, grown, .receives _⟩
  | ended yielded =>
      obtain ⟨noted, notes, grown⟩ := Client.exchanges_of_next yielded
      cases notes with
      | ended => exact ⟨_, grown, .ends⟩
  | empty yielded =>
      obtain ⟨noted, notes, grown⟩ := Client.exchanges_of_next yielded
      cases notes with
      | ended => exact ⟨_, grown, .ends⟩
  | applied polled applied =>
      refine ⟨[], ?_, .applies _ ?_⟩
      · simp [Client.exchanges_of_stopping polled]
      · simp [Declines, polled, applied]
  | paused =>
      refine ⟨[], (List.append_nil _).symm, .rests .nothing ?_⟩
      simp [Activity.Aside]

theorem Watch.Returns.passes {stage : WatchStage} {after : Traced σ}
    (returns : Returns (client.traced.surroundings process.traced kind) situation stage after) :
    ∃ noted, after.exchanges = situation.surroundings.exchanges ++ noted ∧
      Passes kind (client.traced.surroundings process.traced kind) situation
        (LifeStage.watching stage).hold [] noted .nothing := by
  have none : ∀ activity ∈ ([] : List Activity), activity.Aside := by simp
  refine ⟨[], ?_, ?_⟩
  · rw [List.append_nil]
    cases returns with
    | halted polled => exact Client.exchanges_of_stopping polled
    | expired read => exact Client.exchanges_of_clock read
    | interrupted polled => exact Client.exchanges_of_stopping polled
    | returned => rfl
  · cases returns with
    | interrupted polled => exact .leaves (.inl (congrArg Prod.fst polled)) none
    | _ => exact .rests .nothing none

theorem Watch.Raises.passes {stage : WatchStage} {after : Traced σ} {fault : Fault}
    (raises : Raises timing (client.traced.surroundings process.traced kind) situation stage after fault)
    (message : Message) :
    ∃ noted, after.exchanges = situation.surroundings.exchanges ++ noted ∧
      Passes kind (client.traced.surroundings process.traced kind) situation
        (LifeStage.watching stage).hold [.failed fault, .report message] noted .nothing := by
  have aside : ∀ activity ∈ [Activity.failed fault, .report message], activity.Aside := by
    simp [Activity.Aside]
  cases raises with
  | undatable read =>
      refine ⟨[], ?_, .rests .nothing aside⟩
      simp [Client.exchanges_of_clock read]
  | untimed read =>
      refine ⟨[], ?_, .rests .nothing aside⟩
      simp [Client.exchanges_of_clock read]
  | broken yielded =>
      obtain ⟨noted, notes, grown⟩ := Client.exchanges_of_next yielded
      cases notes with
      | failed raised => exact ⟨_, grown, .breaks message (streamFault_toldAs kind raised)⟩
  | refused polled refused =>
      refine ⟨[], ?_, .leaves (.inr ⟨_, refused⟩) aside⟩
      simp [Client.exchanges_of_stopping polled]
  | raised => exact ⟨[], (List.append_nil _).symm, .rests .nothing aside⟩

theorem Life.Transition.passes {later : Situation (Traced σ)} {stage reached : LifeStage}
    {added : List Activity}
    (transition : Transition timing (client.traced.surroundings process.traced kind) situation stage added
      later reached) :
    ∃ noted, later.surroundings.exchanges = situation.surroundings.exchanges ++ noted ∧
      Passes kind (client.traced.surroundings process.traced kind) situation stage.hold added noted
        reached.hold := by
  cases transition with
  | stopped polled =>
      refine ⟨[], ?_, .rests .nothing (by simp [Activity.Aside])⟩
      simp [Client.exchanges_of_stopping polled]
  | asked polled =>
      refine ⟨[], ?_, .rests .listing (by simp [Activity.Aside])⟩
      simp [Client.exchanges_of_stopping polled]
  | unanswered answered =>
      exact ⟨_, Client.exchanges_of_list answered, .lists .listing (by simp)⟩
  | relisted answered =>
      exact ⟨_, Client.exchanges_of_list answered, .lists .nothing (by simp [Activity.Aside])⟩
  | advanced advances => exact advances.passes
  | returned returns => exact returns.passes
  | failed fails =>
      cases fails with
      | denied answered =>
          exact ⟨_, Client.exchanges_of_list answered, .lists .nothing (by simp [Activity.Aside])⟩
      | malformed answered =>
          exact ⟨_, Client.exchanges_of_list answered, .lists .nothing (by simp [Activity.Aside])⟩
      | watch raises => exact raises.passes _
  | backedOff =>
      exact ⟨[], (List.append_nil _).symm, .rests .nothing (by simp [Activity.Aside])⟩
  | finished => exact ⟨[], (List.append_nil _).symm, .rests .nothing (by simp)⟩

end Steps

/-! ### The stream that was opened last -/

namespace Cluster

/-- What has passed on the stream that was opened last, after an exchange. Listings pass on no stream. -/
def streamAfter : Option (List Exchange) → Exchange → Option (List Exchange)
  | _, .opened _ => some []
  | stream?, .listed _ => stream?
  | stream?, exchange => stream?.map (· ++ [exchange])

/-- The events that were applied since a stream was opened, after an activity. -/
def appliedAfter : List Tree → Activity → List Tree
  | _, .watch _ _ _ => []
  | events, .applied event => events ++ [event]
  | events, _ => events

theorem foldl_appliedAfter_of_aside {added : List Activity} (aside : ∀ activity ∈ added, activity.Aside)
    (events : List Tree) : added.foldl appliedAfter events = events := by
  induction added generalizing events with
  | nil => rfl
  | cons activity rest ih =>
      have first := aside activity List.mem_cons_self
      have unchanged : appliedAfter events activity = events := by
        cases activity with
        | watch => exact first.elim
        | applied => exact first.elim
        | _ => rfl
      rw [List.foldl_cons, unchanged]
      exact ih (fun activity member => aside activity (List.mem_cons_of_mem _ member)) events

/-- A stream ends or fails, and is closed. -/
inductive Closing : List Exchange → Prop where
  | ended : Closing [.ended, .closed]
  | failed (raised : Fault) : Closing [.failed raised, .closed]

/-- A stream that is asked for its next item delivers an event or is closed. -/
theorem Passes.delivers_or_closes {kind : ResourceKind} {around : Surroundings σ} {situation : Situation σ}
    {reached : Hold} {added : List Activity} {noted : List Exchange}
    (passes : Passes kind around situation .stream added noted reached) :
    (∃ event, noted = [.delivered event]) ∨ Closing noted := by
  cases passes with
  | receives event => exact .inl ⟨event, rfl⟩
  | ends => exact .inr .ended
  | breaks => exact .inr (.failed _)

/-- What has passed on the stream that was opened last, next to the events that the worker applied since:
the same events in the same order, and then one that is in hand, or a closing, or one that is withheld. -/
inductive Follows (withheld : Tree → Prop) : Hold → List Tree → Option (List Exchange) → Prop where
  | unopened {hold : Hold} {events : List Tree} : hold.Aside → Follows withheld hold events none
  | reading (events : List Tree) : Follows withheld .stream events (some (events.map .delivered))
  | holding (events : List Tree) (event : Tree) :
      Follows withheld (.event event) events (some ((events ++ [event]).map .delivered))
  | closed {hold : Hold} {closing : List Exchange} (events : List Tree) : hold.Aside → Closing closing →
      Follows withheld hold events (some (events.map .delivered ++ closing))
  | left {hold : Hold} {event : Tree} (events : List Tree) : hold.Aside → withheld event →
      Follows withheld hold events (some ((events ++ [event]).map .delivered))

namespace Follows

variable {withheld kept : Tree → Prop} {hold reached : Hold} {events : List Tree}
  {stream? : Option (List Exchange)}

theorem rest (follows : Follows withheld hold events stream?) (before : hold.Aside) (after : reached.Aside)
    (keeps : ∀ event, withheld event → kept event) : Follows kept reached events stream? := by
  cases follows with
  | unopened => exact .unopened after
  | reading => cases before
  | holding => cases before
  | closed events _ closing => exact .closed events after closing
  | left events _ held => exact .left events after (keeps _ held)

theorem eq_of_stream (follows : Follows withheld .stream events stream?) :
    stream? = some (events.map .delivered) := by
  cases follows with
  | reading => rfl
  | unopened before => cases before
  | closed _ before => cases before
  | left _ before => cases before

theorem eq_of_event {event : Tree} (follows : Follows withheld (.event event) events stream?) :
    stream? = some ((events ++ [event]).map .delivered) := by
  cases follows with
  | holding => rfl
  | unopened before => cases before
  | closed _ before => cases before
  | left _ before => cases before

theorem step {kind : ResourceKind} {around : Surroundings σ} {situation : Situation σ}
    {added : List Activity} {noted : List Exchange} (follows : Follows withheld hold events stream?)
    (passes : Passes kind around situation hold added noted reached)
    (keeps : (∀ activity ∈ added, activity.Aside) → ∀ event, withheld event → kept event)
    (leaves : ∀ event, hold = .event event → Declines around situation event → kept event) :
    Follows kept reached (added.foldl appliedAfter events) (noted.foldl streamAfter stream?) := by
  cases passes with
  | rests after aside =>
      rw [foldl_appliedAfter_of_aside aside]
      exact follows.rest .nothing after (keeps aside)
  | lists after aside =>
      rw [foldl_appliedAfter_of_aside aside]
      exact follows.rest .listing after (keeps aside)
  -- an opening starts both lists anew, whatever became of the stream before it
  | opens seconds => exact .reading []
  | receives event =>
      have passed : [.delivered event].foldl streamAfter stream? =
          some ((events ++ [event]).map .delivered) := by
        simp [follows.eq_of_stream, streamAfter]
      rw [passed]
      exact .holding events event
  | ends =>
      have passed : [.ended, .closed].foldl streamAfter stream? =
          some (events.map .delivered ++ [.ended, .closed]) := by
        simp [follows.eq_of_stream, streamAfter]
      rw [passed]
      exact .closed events .nothing .ended
  | @breaks raised told message toldAs =>
      have passed : [.failed raised, .closed].foldl streamAfter stream? =
          some (events.map .delivered ++ [.failed raised, .closed]) := by
        simp [follows.eq_of_stream, streamAfter]
      rw [passed]
      exact .closed events .nothing (.failed raised)
  | @applies event journal =>
      have reports : ∀ activity ∈ journal.map .report, Activity.Aside activity := by
        simp [Activity.Aside]
      rw [List.foldl_cons, foldl_appliedAfter_of_aside reports, follows.eq_of_event]
      exact .reading (events ++ [event])
  | leaves declines aside =>
      rw [foldl_appliedAfter_of_aside aside, follows.eq_of_event]
      exact .left events .nothing (leaves _ rfl declines)

end Follows

end Cluster

/-! ### Lives on a traced client -/

namespace Course

def exchanges (course : Course (Traced σ)) (steps : Nat) : List Exchange :=
  (course.surroundings steps).exchanges

/-- What passes in the step from a moment to the next. -/
def noted (course : Course (Traced σ)) (steps : Nat) : List Exchange :=
  (course.exchanges (steps + 1)).drop (course.exchanges steps).length

/-- What has passed on the stream that was opened last. -/
def stream? (course : Course (Traced σ)) (steps : Nat) : Option (List Exchange) :=
  (course.exchanges steps).foldl streamAfter none

/-- The events that were applied since that stream was opened. -/
def applied (course : Course σ) (steps : Nat) : List Tree := (course.history steps).foldl appliedAfter []

/-- A look at the stop signal would find it set. -/
def Stopping (course : Course σ) (steps : Nat) : Prop :=
  (course.around.stopping (course.surroundings steps)).1 = true

/-- A stream was left with an event that was declined, and none was opened since. -/
def Withholds (course : Course σ) (last : Nat) (event : Tree) : Prop :=
  ∃ first < last, (course.stage first).hold = .event event ∧
    Declines course.around (course.situation first) event ∧
    ∀ between, first < between → between < last → ¬ course.WatchesAt between

theorem not_watchesAt_of_aside {course : Course σ} {steps : Nat}
    (aside : ∀ activity ∈ course.between steps (steps + 1), activity.Aside) : ¬ course.WatchesAt steps := by
  intro watches
  obtain ⟨space, version, seconds, does⟩ := watches
  exact aside _ does

theorem Withholds.step {course : Course σ} {steps : Nat} {event : Tree}
    (withholds : course.Withholds steps event) (unopened : ¬ course.WatchesAt steps) :
    course.Withholds (steps + 1) event := by
  obtain ⟨first, before, held, declines, since⟩ := withholds
  refine ⟨first, by omega, held, declines, ?_⟩
  intro between after earlier
  rcases Nat.lt_succ_iff_lt_or_eq.mp earlier with earlier | rfl
  · exact since between after earlier
  · exact unopened

/-- A life in which everything that passes between a worker of a scope and its client is noted. -/
structure Traces (course : Course (Traced σ)) (client : Client σ) (process : Client.Process σ)
    (kind : ResourceKind) (space : String) : Prop where
  around : course.around = client.traced.surroundings process.traced kind
  space : course.initial.space = space
  fresh : course.start.exchanges = []

/-- A worker of a scope recovers from watches that end or fail, however its client behaves. -/
structure Recovers (course : Course (Traced σ)) (kind : ResourceKind) (space : String) : Prop where
  /-- What is applied is what the stream delivers, and a stream that is over was closed once. -/
  follows : ∀ steps, Follows (course.Withholds steps) (course.stage steps).hold (course.applied steps)
    (course.stream? steps)
  delivers : ∀ steps, (course.stage steps).hold = .stream →
    (∃ event, course.noted steps = [.delivered event]) ∨ Closing (course.noted steps)
  applied_iff : ∀ steps event, course.Does steps (.applied event) ↔
    (course.stage steps).hold = .event event ∧ ¬ Declines course.around (course.situation steps) event
  applies : ∀ steps event, course.Does steps (.applied event) →
    ∃ journal, (course.worker steps).apply event = .ok (course.worker (steps + 1), journal)
  fails : ∀ steps raised, .failed raised ∈ course.noted steps →
    course.FailsAt steps ∧ ∃ told, ToldAs kind raised told ∧ course.Does steps (.failed told)
  opens : ∀ steps request, .opened request ∈ course.noted steps →
    ∃ seconds, request = .of kind space (course.worker steps).version seconds ∧
      course.Does steps (.watch space (course.worker steps).version seconds)
  within : ∀ steps, ∀ exchange ∈ course.exchanges steps, exchange.Within kind space
  /-- After a failure and a pause the signal is looked at. If it is not set, the next request is for a
  listing. -/
  list_after_failure : ∀ steps, course.FailsAt steps → ¬ course.Stopping (steps + 2) →
    course.exchanges (steps + 4) = course.exchanges (steps + 1) ++ [.listed (call kind space)]
  silent_after_stop : ∀ steps last, course.FailsAt steps → course.Stopping (steps + 2) → steps < last →
    course.exchanges last = course.exchanges (steps + 1)
  /-- Between a failure and the next watch a listing succeeds. -/
  relist_before_watch : ∀ first last, course.FailsAt first → first < last → course.WatchesAt last →
    ∃ between, first < between ∧ between < last ∧ course.Does between .relisted ∧
      course.noted between = [.listed (call kind space)]

namespace Traces

variable {course : Course (Traced σ)} {client : Client σ} {process : Client.Process σ} {kind : ResourceKind}
  {space : String} {steps : Nat}

theorem space_eq (traces : course.Traces client process kind space) (steps : Nat) :
    (course.worker steps).space = space :=
  (course.worker_identity steps).2.trans traces.space

theorem passes_noted (traces : course.Traces client process kind space) (steps : Nat) :
    course.exchanges (steps + 1) = course.exchanges steps ++ course.noted steps ∧
      Passes kind course.around (course.situation steps) (course.stage steps).hold
        (course.between steps (steps + 1)) (course.noted steps) (course.stage (steps + 1)).hold := by
  have transition := course.transition steps
  rw [traces.around] at transition ⊢
  obtain ⟨noted, grown, passes⟩ := transition.passes
  have grown : course.exchanges (steps + 1) = course.exchanges steps ++ noted := grown
  have recorded : course.noted steps = noted := by rw [Course.noted, grown, List.drop_left]
  rw [recorded]
  exact ⟨grown, passes⟩

theorem exchanges_succ (traces : course.Traces client process kind space) (steps : Nat) :
    course.exchanges (steps + 1) = course.exchanges steps ++ course.noted steps :=
  (traces.passes_noted steps).1

theorem passes (traces : course.Traces client process kind space) (steps : Nat) :
    Passes kind course.around (course.situation steps) (course.stage steps).hold
      (course.between steps (steps + 1)) (course.noted steps) (course.stage (steps + 1)).hold :=
  (traces.passes_noted steps).2

theorem follows (traces : course.Traces client process kind space) (steps : Nat) :
    Follows (course.Withholds steps) (course.stage steps).hold (course.applied steps)
      (course.stream? steps) := by
  induction steps with
  | zero =>
      have empty : course.stream? 0 = none := by
        change course.start.exchanges.foldl streamAfter none = none
        rw [traces.fresh]
        rfl
      rw [empty]
      exact .unopened .nothing
  | succ steps ih =>
      rw [stream?, traces.exchanges_succ, List.foldl_append, applied, history_succ, List.foldl_append]
      refine ih.step (traces.passes steps) ?_ ?_
      · intro aside event withholds
        exact withholds.step (not_watchesAt_of_aside aside)
      · intro event held declines
        exact ⟨steps, Nat.lt_succ_self steps, held, declines, by omega⟩

theorem within (traces : course.Traces client process kind space) (steps : Nat) :
    ∀ exchange ∈ course.exchanges steps, exchange.Within kind space := by
  induction steps with
  | zero =>
      change ∀ exchange ∈ course.start.exchanges, _
      simp [traces.fresh]
  | succ steps ih =>
      have noted := (traces.passes steps).within
      change ∀ exchange ∈ course.noted steps, exchange.Within kind (course.worker steps).space at noted
      rw [traces.space_eq] at noted
      rw [traces.exchanges_succ]
      intro exchange member
      rcases List.mem_append.mp member with earlier | now
      · exact ih exchange earlier
      · exact noted exchange now

theorem noted_of_listing {delay : Float} (traces : course.Traces client process kind space)
    (listing : course.stage steps = .listing delay) : course.noted steps = [.listed (call kind space)] := by
  have passes := traces.passes steps
  rw [listing] at passes
  have noted := passes.noted_of_listing
  change course.noted steps = [.listed (call kind (course.worker steps).space)] at noted
  rw [noted, traces.space_eq]

/-- Nothing passes while a worker pauses after a failure or looks at the signal. -/
theorem exchanges_of_nothing (traces : course.Traces client process kind space)
    (nothing : (course.stage steps).hold = .nothing)
    (unopened : ∀ deadline, course.stage steps ≠ .watching (.measuring deadline)) :
    course.exchanges (steps + 1) = course.exchanges steps := by
  have passes := traces.passes steps
  rw [nothing] at passes
  have silent : course.noted steps = [] := by
    refine passes.noted_of_nothing fun space version seconds does => ?_
    obtain ⟨deadline, measuring⟩ := measuring_of_watch ⟨space, version, seconds, does⟩
    exact unopened deadline measuring
  rw [traces.exchanges_succ, silent, List.append_nil]

/-- A failure is followed by a pause and a look at the signal, and nothing passes meanwhile. -/
theorem after_failure (traces : course.Traces client process kind space) (fails : course.FailsAt steps) :
    ∃ delay, course.stage (steps + 2) = .polling delay ∧
      course.exchanges (steps + 2) = course.exchanges (steps + 1) ∧
      course.exchanges (steps + 3) = course.exchanges (steps + 1) := by
  obtain ⟨⟨delay, backing⟩, _⟩ := Course.after_failure fails
  have polling := (backing_off backing).1
  have paused : course.exchanges (steps + 2) = course.exchanges (steps + 1) := by
    refine traces.exchanges_of_nothing ?_ ?_ <;> simp [backing, LifeStage.hold]
  have polled : course.exchanges (steps + 3) = course.exchanges (steps + 2) := by
    refine traces.exchanges_of_nothing ?_ ?_ <;> simp [polling, LifeStage.hold]
  exact ⟨_, polling, paused, polled.trans paused⟩

theorem list_after_failure (traces : course.Traces client process kind space) (fails : course.FailsAt steps)
    (unset : ¬ course.Stopping (steps + 2)) :
    course.exchanges (steps + 4) = course.exchanges (steps + 1) ++ [.listed (call kind space)] := by
  obtain ⟨delay, polling, _, silent⟩ := traces.after_failure fails
  have transition := course.transition (steps + 2)
  rw [polling] at transition
  rcases transition.finishes_or_asks with ⟨seen, _⟩ | ⟨_, listing⟩
  · exact absurd seen unset
  · rw [traces.exchanges_succ, traces.noted_of_listing listing, silent]

theorem silent_after_stop {last : Nat} (traces : course.Traces client process kind space)
    (fails : course.FailsAt steps) (set : course.Stopping (steps + 2)) (later : steps < last) :
    course.exchanges last = course.exchanges (steps + 1) := by
  obtain ⟨delay, polling, paused, polled⟩ := traces.after_failure fails
  have transition := course.transition (steps + 2)
  rw [polling] at transition
  rcases transition.finishes_or_asks with ⟨_, finished⟩ | ⟨unseen, _⟩
  · obtain rfl | rfl | after : last = steps + 1 ∨ last = steps + 2 ∨ steps + 3 ≤ last := by omega
    · rfl
    · exact paused
    · rw [exchanges, surroundings, situation, finished_stays after finished]
      exact polled
  · exact absurd (unseen.symm.trans set) Bool.false_ne_true

/-- A listing that succeeds lies between a failure and the next watch. -/
theorem relist_before_watch {first last : Nat} (traces : course.Traces client process kind space)
    (fails : course.FailsAt first) (ordered : first < last) (watches : course.WatchesAt last) :
    ∃ between, first < between ∧ between < last ∧ course.Does between .relisted ∧
      course.noted between = [.listed (call kind space)] := by
  obtain ⟨between, before, relisted, unfailed⟩ := Course.relist_before_watch watches
  have after : first < between := by
    rcases Nat.lt_trichotomy first between with after | rfl | early
    · exact after
    · exact absurd relisted (not_relisted_of_failsAt fails)
    · exact absurd fails (unfailed first early ordered)
  obtain ⟨delay, listing⟩ := (course.transition between).listing_of_relisted relisted
  exact ⟨between, after, before, relisted, traces.noted_of_listing listing⟩

theorem toRecovers (traces : course.Traces client process kind space) : course.Recovers kind space where
  follows := traces.follows
  delivers steps reading := by
    have passes := traces.passes steps
    rw [reading] at passes
    exact passes.delivers_or_closes
  applied_iff steps event := (traces.passes steps).applied_iff
  applies steps event does := (course.transition steps).apply_of_applied does
  fails steps raised failed := by
    obtain ⟨told, toldAs, does⟩ := (traces.passes steps).breaks_of_failed failed
    obtain ⟨after, delay, fails⟩ := (course.transition steps).fails_of_failed does
    exact ⟨⟨after, delay, told, fails⟩, told, toldAs, does⟩
  opens steps request opened := by
    have opens := (traces.passes steps).opens_of_opened opened
    change ∃ seconds, request = .of kind (course.worker steps).space (course.worker steps).version seconds ∧
      course.Does steps (.watch (course.worker steps).space (course.worker steps).version seconds) at opens
    rw [traces.space_eq] at opens
    exact opens
  within := traces.within
  list_after_failure steps fails unset := traces.list_after_failure fails unset
  silent_after_stop steps last fails set later := traces.silent_after_stop fails set later
  relist_before_watch first last fails ordered watches := traces.relist_before_watch fails ordered watches

end Traces

end Course

/-- A worker on any client recovers from watches that end or fail; noting what passes changes nothing of its
life. -/
theorem Cluster.Client.recovers (client : Client σ) (process : Process σ) (kind : ResourceKind)
    (timing : Timing) (space : String) (start : σ) :
    (∀ steps, (client.course process kind timing space start).moment steps =
      Prod.map (·.view Traced.state) id
        ((client.tracedCourse process kind timing space start).moment steps)) ∧
      (client.tracedCourse process kind timing space start).Recovers kind space := by
  have traces : (client.tracedCourse process kind timing space start).Traces client process kind space :=
    ⟨rfl, rfl, rfl⟩
  exact ⟨client.moment_traced process kind timing space start, traces.toRecovers⟩

/-! A stream delivers one event and is then refused because the version is gone. -/

namespace GoneVersion

def client : Client (List StreamItem) where
  list _ items := (some (.ok (.object [("metadata", .object [("resourceVersion", .text "5")])])), items)
  openStream _ items := items
  next
    | [] => (.ended, [])
    | item :: rest => (item, rest)
  closeStream items := items

def process : Client.Process (List StreamItem) where
  stopping items := (false, items)
  clock items := (0.0, items)
  pause _ items := items

def event : Tree := .object [("type", .text "BOOKMARK")]

def course : Course (Traced (List StreamItem)) :=
  client.tracedCourse process .virtualService {} "mesh" [.event event, .failed (.rejected 410 "too old")]

example : course.exchanges 11 =
    [.listed (call .virtualService "mesh"), .opened (.of .virtualService "mesh" "5" 60), .delivered event,
      .failed (.rejected 410 "too old"), .closed, .listed (call .virtualService "mesh")] := rfl

end GoneVersion

end MeshGauges
