import MeshGauges.Replica.Cycle

/-! What one step of a worker can do.

The relations below list the outcomes of a step together with the answers of the surroundings that lead
to them. A step of a watch goes on, returns or raises a fault; a step of a life is one of nine
transitions, each of which names the activities that it adds to the history. Everything that holds along
a life is read off from these cases, and no later proof opens the step functions again. -/

set_option autoImplicit false

namespace MeshGauges

open MeshGauges.Number

variable {σ : Type}

/-- One question to the surroundings leads them from one state to another. -/
inductive Surroundings.Leads (around : Surroundings σ) : σ → σ → Prop where
  | stopping (state : σ) : Leads around state (around.stopping state).2
  | clock (state : σ) : Leads around state (around.clock state).2
  | list (space : String) (state : σ) : Leads around state (around.list space state).2
  | watch (space version : String) (seconds : Int) (state : σ) :
      Leads around state (around.watch space version seconds state)
  | next (state : σ) : Leads around state (around.next state).2
  | pause (seconds : Float) (state : σ) : Leads around state (around.pause seconds state)

namespace Surroundings.Leads

variable {around : Surroundings σ} {state after : σ}

theorem of_stopping {stopping : Bool} (polled : around.stopping state = (stopping, after)) :
    around.Leads state after := by
  simpa only [polled] using (.stopping state : around.Leads state _)

theorem of_clock {now : Float} (read : around.clock state = (now, after)) :
    around.Leads state after := by
  simpa only [read] using (.clock state : around.Leads state _)

theorem of_list {space : String} {answer : Option (Except Fault Listing)}
    (answered : around.list space state = (answer, after)) : around.Leads state after := by
  simpa only [answered] using (.list space state : around.Leads state _)

theorem of_next {item : StreamItem} (yielded : around.next state = (item, after)) :
    around.Leads state after := by
  simpa only [yielded] using (.next state : around.Leads state _)

end Surroundings.Leads

namespace Watch

inductive Advances (timing : Timing) (around : Surroundings σ) (situation : Situation σ) :
    WatchStage → List Activity → Situation σ → WatchStage → Prop where
  | dated {now period : Float} {after : σ} :
      around.clock situation.surroundings = (now, after) →
      timing.resyncPeriod.toFloat? = some period →
      Advances timing around situation .dating []
        { situation with surroundings := after } (.polling (now + period))
  | continued {deadline : Float} {after : σ} :
      around.stopping situation.surroundings = (false, after) →
      Advances timing around situation (.polling deadline) []
        { situation with surroundings := after } (.measuring deadline)
  | opened {deadline now : Float} {seconds : Int} {after : σ} :
      around.clock situation.surroundings = (now, after) →
      ¬ deadline - now ≤ 0.0 →
      requestTimeout (deadline - now) timing.watchTimeout = .ok seconds →
      Advances timing around situation (.measuring deadline)
        [.watch situation.worker.space situation.worker.version seconds]
        { situation with
          surroundings := around.watch situation.worker.space situation.worker.version seconds after
          history := situation.history ++
            [.watch situation.worker.space situation.worker.version seconds] }
        (.streaming deadline (deadline - now) false)
  | received {deadline remaining : Float} {heard : Bool} {event : Tree} {after : σ} :
      around.next situation.surroundings = (.event event, after) →
      Advances timing around situation (.streaming deadline remaining heard) []
        { situation with surroundings := after } (.delivering deadline remaining event)
  | ended {deadline remaining : Float} {after : σ} :
      around.next situation.surroundings = (.ended, after) →
      Advances timing around situation (.streaming deadline remaining true) []
        { situation with surroundings := after } (.polling deadline)
  | empty {deadline remaining : Float} {after : σ} :
      around.next situation.surroundings = (.ended, after) →
      Advances timing around situation (.streaming deadline remaining false) []
        { situation with surroundings := after } (.pausing deadline remaining)
  | applied {deadline remaining : Float} {event : Tree} {worker : Worker} {journal : Journal}
      {after : σ} :
      around.stopping situation.surroundings = (false, after) →
      situation.worker.apply event = .ok (worker, journal) →
      Advances timing around situation (.delivering deadline remaining event)
        (.applied event :: journal.map .report)
        { situation with
          worker := worker
          surroundings := after
          history := situation.history ++ .applied event :: journal.map .report }
        (.streaming deadline remaining true)
  | paused {deadline remaining : Float} :
      Advances timing around situation (.pausing deadline remaining)
        [.pause (earlier timing.backoffInitial remaining)]
        { situation with
          surroundings := around.pause (earlier timing.backoffInitial remaining) situation.surroundings
          history := situation.history ++ [.pause (earlier timing.backoffInitial remaining)] }
        (.polling deadline)

/-- A watch returns: it sees the stop signal, or its deadline has come. -/
inductive Returns (around : Surroundings σ) (situation : Situation σ) : WatchStage → σ → Prop where
  | halted {deadline : Float} {after : σ} :
      around.stopping situation.surroundings = (true, after) →
      Returns around situation (.polling deadline) after
  | expired {deadline now : Float} {after : σ} :
      around.clock situation.surroundings = (now, after) →
      deadline - now ≤ 0.0 →
      Returns around situation (.measuring deadline) after
  | interrupted {deadline remaining : Float} {event : Tree} {after : σ} :
      around.stopping situation.surroundings = (true, after) →
      Returns around situation (.delivering deadline remaining event) after
  | returned : Returns around situation .returned situation.surroundings

/-- A watch raises a fault: its deadline or a timeout cannot be worked out, its stream fails, or an
event cannot be applied. -/
inductive Raises (timing : Timing) (around : Surroundings σ) (situation : Situation σ) :
    WatchStage → σ → Fault → Prop where
  | undatable {now : Float} {after : σ} :
      around.clock situation.surroundings = (now, after) →
      timing.resyncPeriod.toFloat? = none →
      Raises timing around situation .dating after .periodTooLarge
  | untimed {deadline now : Float} {after : σ} {fault : Fault} :
      around.clock situation.surroundings = (now, after) →
      ¬ deadline - now ≤ 0.0 →
      requestTimeout (deadline - now) timing.watchTimeout = .error fault →
      Raises timing around situation (.measuring deadline) after fault
  | broken {deadline remaining : Float} {heard : Bool} {after : σ} {fault : Fault} :
      around.next situation.surroundings = (.failed fault, after) →
      Raises timing around situation (.streaming deadline remaining heard) after fault
  | refused {deadline remaining : Float} {event : Tree} {after : σ} {fault : Fault} :
      around.stopping situation.surroundings = (false, after) →
      situation.worker.apply event = .error fault →
      Raises timing around situation (.delivering deadline remaining event) after fault
  | raised {fault : Fault} : Raises timing around situation (.raised fault) situation.surroundings fault

section Carried

variable {timing : Timing} {around : Surroundings σ} {situation : Situation σ}
  {stage : WatchStage} {kept : σ → Prop}
  (carried : ∀ before after, around.Leads before after → kept before → kept after)
  (held : kept situation.surroundings)

include carried held

theorem Advances.carries {later : Situation σ} {reached : WatchStage} {added : List Activity}
    (advances : Advances timing around situation stage added later reached) :
    kept later.surroundings := by
  cases advances with
  | dated read => exact carried _ _ (.of_clock read) held
  | continued polled => exact carried _ _ (.of_stopping polled) held
  | opened read => exact carried _ _ (.watch _ _ _ _) (carried _ _ (.of_clock read) held)
  | received yielded => exact carried _ _ (.of_next yielded) held
  | ended yielded => exact carried _ _ (.of_next yielded) held
  | empty yielded => exact carried _ _ (.of_next yielded) held
  | applied polled => exact carried _ _ (.of_stopping polled) held
  | paused => exact carried _ _ (.pause _ _) held

theorem Returns.carries {after : σ} (returns : Returns around situation stage after) :
    kept after := by
  cases returns with
  | halted polled => exact carried _ _ (.of_stopping polled) held
  | expired read => exact carried _ _ (.of_clock read) held
  | interrupted polled => exact carried _ _ (.of_stopping polled) held
  | returned => exact held

theorem Raises.carries {after : σ} {fault : Fault}
    (raises : Raises timing around situation stage after fault) : kept after := by
  cases raises with
  | undatable read => exact carried _ _ (.of_clock read) held
  | untimed read => exact carried _ _ (.of_clock read) held
  | broken yielded => exact carried _ _ (.of_next yielded) held
  | refused polled => exact carried _ _ (.of_stopping polled) held
  | raised => exact held

end Carried

inductive Outcome (timing : Timing) (around : Surroundings σ) (situation : Situation σ)
    (stage : WatchStage) (result : Situation σ × WatchStage) : Prop where
  | advances {added : List Activity} :
      Advances timing around situation stage added result.1 result.2 →
      Outcome timing around situation stage result
  | returns {after : σ} :
      Returns around situation stage after →
      result = ({ situation with surroundings := after }, .returned) →
      Outcome timing around situation stage result
  | raises {after : σ} {fault : Fault} :
      Raises timing around situation stage after fault →
      result = ({ situation with surroundings := after }, .raised fault) →
      Outcome timing around situation stage result

private theorem openStream_outcome {timing : Timing} {around : Surroundings σ}
    {situation : Situation σ} {deadline now : Float} {after : σ}
    (read : around.clock situation.surroundings = (now, after)) :
    Outcome timing around situation (.measuring deadline)
      (openStream timing around { situation with surroundings := after } deadline (deadline - now)) := by
  unfold openStream
  by_cases late : deadline - now ≤ 0.0
  · rw [if_pos late]
    exact .returns (.expired read late) rfl
  · rw [if_neg late]
    cases timed : requestTimeout (deadline - now) timing.watchTimeout with
    | error fault => exact .raises (.untimed read late timed) rfl
    | ok seconds => exact .advances (.opened read late timed)

private theorem deliver_outcome {timing : Timing} {around : Surroundings σ}
    {situation : Situation σ} {deadline remaining : Float} {event : Tree} {after : σ}
    (polled : around.stopping situation.surroundings = (false, after)) :
    Outcome timing around situation (.delivering deadline remaining event)
      (deliver { situation with surroundings := after } deadline remaining event) := by
  unfold deliver
  cases applied : situation.worker.apply event with
  | error fault => exact .raises (.refused polled applied) rfl
  | ok changed =>
      obtain ⟨worker, journal⟩ := changed
      simp only [Situation.reportAll, Situation.record, List.append_assoc, List.singleton_append]
      exact .advances (.applied polled applied)

theorem step_outcome (timing : Timing) (around : Surroundings σ) (situation : Situation σ)
    (stage : WatchStage) :
    Outcome timing around situation stage (step timing around situation stage) := by
  cases stage with
  | dating =>
      cases read : around.clock situation.surroundings with
      | mk now after =>
          cases rounded : timing.resyncPeriod.toFloat? with
          | none => exact .raises (.undatable read rounded) (by simp only [step, read, rounded])
          | some period =>
              simp only [step, read, rounded]
              exact .advances (.dated read rounded)
  | polling deadline =>
      cases polled : around.stopping situation.surroundings with
      | mk stopping after =>
          simp only [step, polled]
          cases stopping with
          | true => exact .returns (.halted polled) rfl
          | false => exact .advances (.continued polled)
  | measuring deadline =>
      cases read : around.clock situation.surroundings with
      | mk now after =>
          simp only [step, read]
          exact openStream_outcome read
  | streaming deadline remaining received =>
      cases yielded : around.next situation.surroundings with
      | mk item after =>
          simp only [step, yielded]
          cases item with
          | event event => exact .advances (.received yielded)
          | failed fault => exact .raises (.broken yielded) rfl
          | ended =>
              cases received with
              | true => exact .advances (.ended yielded)
              | false => exact .advances (.empty yielded)
  | delivering deadline remaining event =>
      cases polled : around.stopping situation.surroundings with
      | mk stopping after =>
          simp only [step, polled]
          cases stopping with
          | true => exact .returns (.interrupted polled) rfl
          | false => exact deliver_outcome polled
  | pausing deadline remaining => exact .advances .paused
  | returned => exact .returns .returned rfl
  | raised fault => exact .raises .raised rfl

end Watch

namespace Worker

def adopted (worker : Worker) (version : String) (resources : List Resource) : Worker :=
  { worker with
    phase := .synced
    syncedOnce := true
    version := version
    snapshot := .ofList resources }

theorem readAll?_eq_none_iff {kind : String} {objects : List Tree} :
    readAll? kind objects = none ↔ ∃ object ∈ objects, Resource.ofObject? kind object = none := by
  induction objects with
  | nil => simp [readAll?]
  | cons object rest ih =>
      simp only [readAll?, List.mem_cons, exists_eq_or_imp, ← ih]
      cases described : Resource.ofObject? kind object with
      | none => simp
      | some resource =>
          cases others : readAll? kind rest <;> simp

theorem readAll?_eq_some_iff {kind : String} {objects : List Tree} {resources : List Resource} :
    readAll? kind objects = some resources ↔
      objects.map (Resource.ofObject? kind) = resources.map some := by
  induction objects generalizing resources with
  | nil =>
      cases resources with
      | nil => simp [readAll?]
      | cons resource others => simp [readAll?]
  | cons object rest ih =>
      cases described : Resource.ofObject? kind object with
      | none => cases resources <;> simp [readAll?, described]
      | some resource =>
          cases resources with
          | nil => cases others : readAll? kind rest <;> simp [readAll?, described, others]
          | cons first others =>
              simp only [List.map_cons, described, List.cons.injEq, Option.some.injEq, ← ih]
              cases read : readAll? kind rest <;> simp [readAll?, described, read]

/-- A listing is refused exactly when one of its objects, wherever it stands, describes no resource. -/
theorem adopt_eq_error_iff {worker : Worker} {listing : Listing} {fault : Fault} :
    worker.adopt listing = .error fault ↔
      fault = .malformed ∧
        ∃ object ∈ listing.objects, Resource.ofObject? worker.kind.name object = none := by
  rw [← readAll?_eq_none_iff, adopt]
  cases readAll? worker.kind.name listing.objects with
  | none => simp [eq_comm]
  | some resources => simp

theorem adopt_eq_ok_iff {worker changed : Worker} {listing : Listing} {journal : Journal} :
    worker.adopt listing = .ok (changed, journal) ↔
      ∃ resources, readAll? worker.kind.name listing.objects = some resources ∧
        changed = worker.adopted listing.version resources ∧ journal = [changed.listed] := by
  rw [adopt]
  cases readAll? worker.kind.name listing.objects with
  | none => simp
  | some resources =>
      simp only [Except.ok.injEq, Prod.mk.injEq, Option.some.injEq, exists_eq_left', adopted]
      constructor
      · intro taken
        obtain ⟨rfl, rfl⟩ := taken
        exact ⟨rfl, rfl⟩
      · intro taken
        obtain ⟨rfl, rfl⟩ := taken
        exact ⟨rfl, rfl⟩

theorem apply_keeps {worker changed : Worker} {event : Tree} {journal : Journal}
    (applied : worker.apply event = .ok (changed, journal)) :
    changed.kind = worker.kind ∧ changed.space = worker.space ∧ changed.phase = worker.phase ∧
      changed.syncedOnce = worker.syncedOnce := by
  rw [apply] at applied
  cases read : Event.ofTree? worker.kind.name event with
  | none =>
      rw [read] at applied
      cases applied
  | some event =>
      rw [read] at applied
      cases event with
      | failure text => cases applied
      | _ =>
          cases applied
          exact ⟨rfl, rfl, rfl, rfl⟩

end Worker

namespace Life

/-- A cycle fails: the list request is denied, one of the objects listed describes no resource, or the
watch raises a fault. The relation names the state of the surroundings afterwards and the pause that
follows. -/
inductive Fails (timing : Timing) (around : Surroundings σ) (situation : Situation σ) :
    LifeStage → σ → Float → Fault → Prop where
  | denied {delay : Float} {after : σ} {fault : Fault} :
      around.list situation.worker.space situation.surroundings = (some (.error fault), after) →
      Fails timing around situation (.listing delay) after delay fault
  | malformed {delay : Float} {after : σ} {listing : Listing} {object : Tree} :
      around.list situation.worker.space situation.surroundings = (some (.ok listing), after) →
      object ∈ listing.objects →
      Resource.ofObject? situation.worker.kind.name object = none →
      Fails timing around situation (.listing delay) after delay .malformed
  | watch {stage : WatchStage} {after : σ} {fault : Fault} :
      Watch.Raises timing around situation stage after fault →
      Fails timing around situation (.watching stage) after timing.backoffInitial fault

/-- Everything that one step of a life can do, with the activities that it adds to the history. -/
inductive Transition (timing : Timing) (around : Surroundings σ) (situation : Situation σ) :
    LifeStage → List Activity → Situation σ → LifeStage → Prop where
  | stopped {delay : Float} {after : σ} :
      around.stopping situation.surroundings = (true, after) →
      Transition timing around situation (.polling delay)
        [.report (.info ("Stopped sync of " ++ situation.worker.label))]
        { worker := { situation.worker with phase := .stopped }
          surroundings := after
          history := situation.history ++
            [.report (.info ("Stopped sync of " ++ situation.worker.label))] }
        .finished
  | asked {delay : Float} {after : σ} :
      around.stopping situation.surroundings = (false, after) →
      Transition timing around situation (.polling delay)
        [.list situation.worker.space situation.worker.beginRelist.phase]
        { worker := situation.worker.beginRelist
          surroundings := after
          history := situation.history ++
            [.list situation.worker.space situation.worker.beginRelist.phase] }
        (.listing delay)
  | unanswered {delay : Float} {after : σ} :
      around.list situation.worker.space situation.surroundings = (none, after) →
      Transition timing around situation (.listing delay) []
        { situation with surroundings := after } (.listing delay)
  | relisted {delay : Float} {after : σ} {listing : Listing} {resources : List Resource} :
      around.list situation.worker.space situation.surroundings = (some (.ok listing), after) →
      Worker.readAll? situation.worker.kind.name listing.objects = some resources →
      Transition timing around situation (.listing delay)
        [.relisted, .report (situation.worker.adopted listing.version resources).listed]
        { worker := situation.worker.adopted listing.version resources
          surroundings := after
          history := situation.history ++
            [.relisted, .report (situation.worker.adopted listing.version resources).listed] }
        (.watching .dating)
  | advanced {stage reached : WatchStage} {added : List Activity} {later : Situation σ} :
      Watch.Advances timing around situation stage added later reached →
      Transition timing around situation (.watching stage) added later (.watching reached)
  | returned {stage : WatchStage} {after : σ} :
      Watch.Returns around situation stage after →
      Transition timing around situation (.watching stage) []
        { situation with surroundings := after } (.polling timing.backoffInitial)
  | failed {stage : LifeStage} {after : σ} {delay : Float} {fault : Fault} :
      Fails timing around situation stage after delay fault →
      Transition timing around situation stage
        [.failed fault, .report (warning situation.worker delay fault)]
        { worker := { situation.worker with phase := .syncing }
          surroundings := after
          history := situation.history ++
            [.failed fault, .report (warning situation.worker delay fault)] }
        (.backingOff delay)
  | backedOff {delay : Float} :
      Transition timing around situation (.backingOff delay) [.pause delay]
        { situation with
          surroundings := around.pause delay situation.surroundings
          history := situation.history ++ [.pause delay] }
        (.polling (nextDelay timing delay))
  | finished : Transition timing around situation .finished [] situation .finished

private theorem afterWatch_advances {timing : Timing} {around : Surroundings σ}
    {situation later : Situation σ} {stage reached : WatchStage} {added : List Activity}
    (advances : Watch.Advances timing around situation stage added later reached) :
    afterWatch timing later reached = (later, .watching reached) := by
  cases advances <;> rfl

private theorem takeOver_transition {timing : Timing} {around : Surroundings σ}
    {situation : Situation σ} {delay : Float} {after : σ} {answer : Except Fault Listing}
    (answered : around.list situation.worker.space situation.surroundings = (some answer, after)) :
    ∃ added, Transition timing around situation (.listing delay) added
      (takeOver { situation with surroundings := after } delay answer).1
      (takeOver { situation with surroundings := after } delay answer).2 := by
  cases answer with
  | error fault => exact ⟨_, .failed (.denied answered)⟩
  | ok listing =>
      cases taken : situation.worker.adopt listing with
      | error fault =>
          obtain ⟨rfl, object, member, undescribed⟩ := Worker.adopt_eq_error_iff.mp taken
          simp only [takeOver, Except.bind, taken]
          exact ⟨_, .failed (.malformed answered member undescribed)⟩
      | ok changed =>
          obtain ⟨worker, journal⟩ := changed
          obtain ⟨resources, read, rfl, rfl⟩ := Worker.adopt_eq_ok_iff.mp taken
          simp only [takeOver, Except.bind, taken, Situation.reportAll, Situation.record,
            List.map_cons, List.map_nil, List.append_assoc, List.singleton_append]
          exact ⟨_, .relisted answered read⟩

theorem step_transition (timing : Timing) (around : Surroundings σ) (situation : Situation σ)
    (stage : LifeStage) :
    ∃ added, Transition timing around situation stage added
      (step timing around situation stage).1 (step timing around situation stage).2 := by
  cases stage with
  | polling delay =>
      cases polled : around.stopping situation.surroundings with
      | mk stopping after =>
          simp only [step, polled]
          cases stopping with
          | true => exact ⟨_, .stopped polled⟩
          | false => exact ⟨_, .asked polled⟩
  | listing delay =>
      cases answered : around.list situation.worker.space situation.surroundings with
      | mk answer? after =>
          simp only [step, answered]
          cases answer? with
          | none => exact ⟨_, .unanswered answered⟩
          | some answer => exact takeOver_transition answered
  | watching stage =>
      simp only [step]
      cases Watch.step_outcome timing around situation stage with
      | advances advances =>
          rw [afterWatch_advances advances]
          exact ⟨_, .advanced advances⟩
      | returns returns result =>
          simp only [result, afterWatch]
          exact ⟨_, .returned returns⟩
      | raises raises result =>
          simp only [result, afterWatch]
          exact ⟨_, .failed (.watch raises)⟩
  | backingOff delay => exact ⟨_, .backedOff⟩
  | finished => exact ⟨_, .finished⟩

private theorem step_of_raises {timing : Timing} {around : Surroundings σ} {situation : Situation σ}
    {stage : WatchStage} {after : σ} {fault : Fault}
    (raises : Watch.Raises timing around situation stage after fault) :
    Watch.step timing around situation stage =
      ({ situation with surroundings := after }, .raised fault) := by
  cases raises with
  | undatable read rounded => simp only [Watch.step, read, rounded]
  | untimed read late timed =>
      simp only [Watch.step, read, Watch.openStream]
      rw [if_neg late]
      simp only [timed]
  | broken yielded => simp only [Watch.step, yielded]
  | refused polled applied => simp [Watch.step, polled, Watch.deliver, applied]
  | raised => rfl

/-- What the surroundings answer decides that a cycle fails: no other transition can take its place. -/
theorem step_of_fails {timing : Timing} {around : Surroundings σ} {situation : Situation σ}
    {stage : LifeStage} {after : σ} {delay : Float} {fault : Fault}
    (fails : Fails timing around situation stage after delay fault) :
    step timing around situation stage =
      giveUp { situation with surroundings := after } delay fault := by
  cases fails with
  | denied answered => simp only [step, answered, takeOver, Except.bind]
  | @malformed _ _ listing object answered member undescribed =>
      have refused : situation.worker.adopt listing = .error .malformed :=
        Worker.adopt_eq_error_iff.mpr ⟨rfl, object, member, undescribed⟩
      simp only [step, answered, takeOver, Except.bind, refused]
  | watch raises => simp only [step, step_of_raises raises, afterWatch]

namespace Transition

variable {timing : Timing} {around : Surroundings σ} {situation later : Situation σ}
  {stage reached : LifeStage} {added : List Activity}

theorem history_eq (transition : Transition timing around situation stage added later reached) :
    later.history = situation.history ++ added := by
  cases transition with
  | advanced advances => cases advances <;> simp
  | _ => simp

theorem identity_eq (transition : Transition timing around situation stage added later reached) :
    later.worker.kind = situation.worker.kind ∧ later.worker.space = situation.worker.space := by
  cases transition with
  | advanced advances =>
      cases advances with
      | applied polled applied =>
          obtain ⟨kind, space, _⟩ := Worker.apply_keeps applied
          exact ⟨kind, space⟩
      | _ => exact ⟨rfl, rfl⟩
  | _ => exact ⟨rfl, rfl⟩

theorem measuring_of_watch {space version : String} {seconds : Int}
    (transition : Transition timing around situation stage added later reached)
    (watches : .watch space version seconds ∈ added) :
    ∃ deadline, stage = .watching (.measuring deadline) := by
  cases transition with
  | advanced advances =>
      cases advances with
      | opened => exact ⟨_, rfl⟩
      | _ => simp at watches
  | _ => simp at watches

/-- What no question to the surroundings undoes, no step undoes. -/
theorem carries {kept : σ → Prop}
    (carried : ∀ before after, around.Leads before after → kept before → kept after)
    (transition : Transition timing around situation stage added later reached)
    (held : kept situation.surroundings) : kept later.surroundings := by
  cases transition with
  | stopped polled => exact carried _ _ (.of_stopping polled) held
  | asked polled => exact carried _ _ (.of_stopping polled) held
  | unanswered answered => exact carried _ _ (.of_list answered) held
  | relisted answered => exact carried _ _ (.of_list answered) held
  | advanced advances => exact advances.carries carried held
  | returned returns => exact returns.carries carried held
  | failed fails =>
      cases fails with
      | denied answered => exact carried _ _ (.of_list answered) held
      | malformed answered => exact carried _ _ (.of_list answered) held
      | watch raises => exact raises.carries carried held
  | backedOff => exact carried _ _ (.pause _ _) held
  | finished => exact held

end Transition

end Life
end MeshGauges
