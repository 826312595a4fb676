import MeshGauges.Proofs.Replica.Replay
import MeshGauges.Replica.Basic

/-! Workers of one replica, in any order of their steps.

A step of a replica is a relist or an event of one of its workers; readers may list it at any point. A
worker shares nothing with its neighbours, so after any steps in any order it is what it would be had it
carried out its own operations alone (`workers_after`), and its next step reports what it would report
alone. Readers see the workers one after the other, in the order of the namespaces. -/

set_option autoImplicit false

namespace MeshGauges

namespace Worker

variable {worker : Worker}

theorem performAll_append (worker : Worker) (earlier later : List Operation) :
    worker.performAll (earlier ++ later) = (worker.performAll earlier).performAll later :=
  List.foldl_append

/-- An operation sets the mark of a first success exactly when it is a relist that succeeds. -/
theorem syncedOnce_perform_iff (operation : Operation) :
    (worker.perform operation).1.syncedOnce = true ↔
      worker.syncedOnce = true ∨ operation.isRelist = true ∧ worker.Succeeds operation := by
  cases operation with
  | apply event =>
      have kept : (worker.perform (.apply event)).1.syncedOnce = worker.syncedOnce := by
        cases applied : worker.apply event with
        | error fault => rw [perform_apply_of_error applied]
        | ok outcome =>
            obtain ⟨changed, journal⟩ := outcome
            rw [perform_apply_of_ok applied]
            exact (apply_keeps applied).2.2.2
      rw [kept, Operation.isRelist]
      simp
  | relist answer =>
      by_cases succeeds : worker.Succeeds (.relist answer)
      · obtain ⟨listing, same⟩ := Operation.eq_relist_of_succeeds rfl succeeds
        cases same
        cases read : readAll? worker.kind.name listing.objects with
        | none =>
            rw [Succeeds, perform_relist_of_unread read] at succeeds
            cases succeeds
        | some resources =>
            rw [perform_relist_of_read read]
            exact iff_of_true rfl (.inr ⟨rfl, succeeds⟩)
      · rw [(sameData_of_not_succeeds succeeds).syncedOnce]
        exact ⟨.inl, fun synced => synced.resolve_right fun relisted => succeeds relisted.2⟩

/-- Some relist among the operations succeeds at its place. -/
def HasRelisted (worker : Worker) (operations : List Operation) : Prop :=
  ∃ earlier answer, earlier ++ [.relist answer] <+: operations ∧
    (worker.performAll earlier).Succeeds (.relist answer)

theorem hasRelisted_concat_iff {operations : List Operation} {operation : Operation} :
    worker.HasRelisted (operations ++ [operation]) ↔
      worker.HasRelisted operations ∨
        operation.isRelist = true ∧ (worker.performAll operations).Succeeds operation := by
  constructor
  · rintro ⟨earlier, answer, within, succeeds⟩
    rcases List.prefix_concat_iff.mp within with last | within
    · obtain ⟨rfl, same⟩ := List.append_inj' last rfl
      cases same
      exact .inr ⟨rfl, succeeds⟩
    · exact .inl ⟨earlier, answer, within, succeeds⟩
  · rintro (⟨earlier, answer, within, succeeds⟩ | ⟨relisted, succeeds⟩)
    · exact ⟨earlier, answer, within.trans (List.prefix_append _ _), succeeds⟩
    · obtain ⟨listing, rfl⟩ := Operation.eq_relist_of_succeeds relisted succeeds
      exact ⟨operations, .ok listing, List.prefix_rfl, succeeds⟩

theorem syncedOnce_performAll_iff (operations : List Operation) :
    (worker.performAll operations).syncedOnce = true ↔
      worker.syncedOnce = true ∨ worker.HasRelisted operations := by
  induction operations using List.reverseRecOn with
  | nil => simp [performAll, HasRelisted]
  | append_singleton operations operation ih =>
      rw [performAll_concat, syncedOnce_perform_iff, ih, hasRelisted_concat_iff, or_assoc]

end Worker

namespace Replica

/-- What happens to a replica: a worker carries out an operation, or a reader asks for the resources. -/
inductive Action where
  | perform (index : Nat) (operation : Worker.Operation)
  | read

inductive Reply where
  /-- The report of the worker, if there is one of that index. -/
  | report (report : Option Worker.Report)
  | resources (resources : List Resource)

def act (replica : Replica) : Action → Replica × Reply
  | .perform index operation =>
      let (changed, report) := replica.perform index operation
      (changed, .report report)
  | .read => (replica, .resources replica.resources)

def after (replica : Replica) (actions : List Action) : Replica :=
  actions.foldl (fun replica action => (replica.act action).1) replica

def Action.operation? (index : Nat) : Action → Option Worker.Operation
  | .perform other operation => if other = index then some operation else none
  | .read => none

/-- The operations of the worker of an index, in the order in which they came. -/
def operationsOf (index : Nat) (actions : List Action) : List Worker.Operation :=
  actions.filterMap (Action.operation? index)

theorem operationsOf_cons (index : Nat) (action : Action) (later : List Action) :
    operationsOf index (action :: later) = (action.operation? index).toList ++ operationsOf index later := by
  rw [operationsOf, List.filterMap_cons]
  cases action.operation? index <;> rfl

variable (replica : Replica)

/-- An action changes the worker that carries it out and no other one. -/
theorem workers_act (action : Action) :
    (replica.act action).1.workers = replica.workers.mapIdx fun index worker =>
      worker.performAll (action.operation? index).toList := by
  refine List.ext_getElem? fun index => ?_
  rw [List.getElem?_mapIdx]
  cases action with
  | read => exact Option.map_id'.symm
  | perform acting operation =>
      rw [act, perform]
      by_cases own : acting = index
      · subst own
        cases found : replica.workers[acting]? with
        | none => simp [found]
        | some worker =>
            obtain ⟨within, _⟩ := List.getElem?_eq_some_iff.mp found
            simp [within, Action.operation?, Worker.performAll]
      · have idle : (Action.perform acting operation).operation? index = none := if_neg own
        cases found : replica.workers[acting]? with
        | none => simp [idle, Worker.performAll]
        | some worker => simp [idle, Worker.performAll, List.getElem?_set_ne own]

theorem workers_after (actions : List Action) :
    (replica.after actions).workers = replica.workers.mapIdx fun index worker =>
      worker.performAll (operationsOf index actions) := by
  induction actions generalizing replica with
  | nil => exact (List.mapIdx_eq_iff.mpr fun _ => Option.map_id'.symm).symm
  | cons action later ih =>
      rw [after, List.foldl_cons, ← after, ih, workers_act, List.mapIdx_mapIdx]
      congr 1
      funext index worker
      rw [Function.comp, operationsOf_cons, Worker.performAll_append]

theorem kind_act (action : Action) : (replica.act action).1.kind = replica.kind := by
  cases action with
  | read => rfl
  | perform acting operation =>
      rw [act, perform]
      cases replica.workers[acting]? <;> rfl

theorem kind_after (actions : List Action) : (replica.after actions).kind = replica.kind := by
  induction actions generalizing replica with
  | nil => rfl
  | cons action later ih => exact (ih _).trans (replica.kind_act action)

/-- A worker of a new replica, alone with its own operations among the actions. -/
def alone (kind : ResourceKind) (space : String) (index : Nat) (actions : List Action) : Worker :=
  Worker.performAll { kind := kind, space := space } (operationsOf index actions)

theorem after_ofNamespaces (kind : ResourceKind) (spaces : List String) (actions : List Action) :
    (ofNamespaces kind spaces).after actions =
      ⟨kind, spaces.mapIdx fun index space => alone kind space index actions⟩ := by
  have workers : ((ofNamespaces kind spaces).after actions).workers =
      spaces.mapIdx fun index space => alone kind space index actions := by
    rw [workers_after, ofNamespaces]
    refine List.ext_getElem? fun index => ?_
    rw [List.getElem?_mapIdx, List.getElem?_mapIdx, List.getElem?_map, Option.map_map]
    rfl
  rw [← workers]
  exact congrArg (fun kind => Replica.mk kind _) (kind_after (ofNamespaces kind spaces) actions)

theorem syncedOnce_alone_iff (kind : ResourceKind) (space : String) (index : Nat) (actions : List Action) :
    (alone kind space index actions).syncedOnce = true ↔
      Worker.HasRelisted { kind := kind, space := space } (operationsOf index actions) := by
  rw [alone, Worker.syncedOnce_performAll_iff]
  simp

theorem hasSynced_after_iff (kind : ResourceKind) (spaces : List String) (actions : List Action) :
    ((ofNamespaces kind spaces).after actions).hasSynced = true ↔
      ∀ index space, spaces[index]? = some space →
        Worker.HasRelisted { kind := kind, space := space } (operationsOf index actions) := by
  rw [after_ofNamespaces, hasSynced, List.all_eq_true]
  constructor
  · intro all index space found
    refine (syncedOnce_alone_iff kind space index actions).mp (all _ (List.mem_of_getElem? (i := index) ?_))
    simp [found]
  · intro relisted worker member
    obtain ⟨index, found⟩ := List.mem_iff_getElem?.mp member
    rw [List.getElem?_mapIdx, Option.map_eq_some_iff] at found
    obtain ⟨space, found, rfl⟩ := found
    exact (syncedOnce_alone_iff kind space index actions).mpr (relisted index space found)

/-- However the steps of the workers of a replica come between each other, and wherever readers come in
between, at every moment each worker is as it would be alone, its next operation reports what it would
report alone, readers see the resources of the workers in the order of the namespaces, and the replica
has synced exactly when some relist of every worker has succeeded. -/
theorem workers_independent (kind : ResourceKind) (spaces : List String) (actions : List Action) :
    let replica := (ofNamespaces kind spaces).after actions
    let lone := spaces.mapIdx fun index space => alone kind space index actions
    replica = ⟨kind, lone⟩ ∧
      (∀ index worker, lone[index]? = some worker → ∀ operation,
        (replica.act (.perform index operation)).2 = .report (some (worker.perform operation).2)) ∧
      replica.act .read = (replica, .resources (lone.flatMap Worker.resources)) ∧
      (replica.hasSynced = true ↔ ∀ index space, spaces[index]? = some space →
        Worker.HasRelisted { kind := kind, space := space } (operationsOf index actions)) := by
  intro replica lone
  have same : replica = ⟨kind, lone⟩ := after_ofNamespaces kind spaces actions
  refine ⟨same, ?_, ?_, hasSynced_after_iff kind spaces actions⟩
  · intro index worker found operation
    rw [same, act, perform]
    simp only [found]
  · rw [same]
    rfl

/-- One worker is denied its listing before the other one has listed a rule. -/
example :
    ((ofNamespaces .mixerRule ["mesh", "edge"]).after
      [.perform 0 (.relist (.error (.unreachable "refused"))), .read,
       .perform 1 (.relist (.ok ⟨[.object [("metadata", .object [("name", .text "quota")])]], "4"⟩))]
      ).workers.map (fun worker => (worker.phase, worker.version, worker.resources.map Resource.name)) =
      [(.syncing, "", []), (.synced, "4", ["quota"])] :=
  rfl

end Replica
end MeshGauges
