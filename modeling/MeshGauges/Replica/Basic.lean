import MeshGauges.Replica.Worker

/-! Replicas: one kind of resource across namespaces, with a worker for each. -/

set_option autoImplicit false

namespace MeshGauges

structure Replica where
  kind : ResourceKind
  workers : List Worker

namespace Replica

def ofNamespaces (kind : ResourceKind) (spaces : List String) : Replica :=
  ⟨kind, spaces.map fun space => { kind := kind, space := space }⟩

def resources (replica : Replica) : List Resource :=
  replica.workers.flatMap Worker.resources

def phases (replica : Replica) : List (String × Phase) :=
  replica.workers.map fun worker => (worker.space, worker.phase)

def hasSynced (replica : Replica) : Bool :=
  replica.workers.all Worker.syncedOnce

/-- Let one worker carry out an operation; there is no report when there is no such worker. -/
def perform (replica : Replica) (index : Nat) (operation : Worker.Operation) :
    Replica × Option Worker.Report :=
  match replica.workers[index]? with
  | none => (replica, none)
  | some worker =>
      let (changed, report) := worker.perform operation
      ({ replica with workers := replica.workers.set index changed }, some report)

def threadName (worker : Worker) : String :=
  "mirror-" ++ worker.kind.name ++ "-" ++ (if worker.space = "" then "all" else worker.space)

end Replica

/-- What the cluster answers to list requests, by namespace. A namespace that is not there has no
objects and no version. -/
abbrev Listings := List (String × Except Fault Listing)

def Listings.answer (listings : Listings) (space : String) : Except Fault Listing :=
  (List.lookup space listings).getD (.ok ⟨[], ""⟩)

def Listings.replace (listings : Listings) (space : String) (answer : Except Fault Listing) : Listings :=
  (space, answer) :: listings

end MeshGauges
