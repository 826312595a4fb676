import MeshGauges.Journal
import MeshGauges.Replica.Event
import MeshGauges.Replica.Fault
import MeshGauges.Replica.Snapshot
import MeshGauges.Settings.Namespaces

/-! Workers: each keeps the resources of one kind in one namespace.

A worker changes by two operations. A relist takes over everything that the cluster lists, and an event
changes one resource. Both either succeed as a whole or leave the snapshot, the version and the record of
success as they were; a relist moves the phase before it asks. -/

set_option autoImplicit false

namespace MeshGauges

inductive Phase where
  | unsynced | syncing | synced | resyncing | stopped
  deriving Repr, DecidableEq

def Phase.name : Phase → String
  | .unsynced => "unsynced"
  | .syncing => "syncing"
  | .synced => "synced"
  | .resyncing => "resyncing"
  | .stopped => "stopped"

/-- What the cluster answers to a list request: objects and the version they are of. -/
structure Listing where
  objects : List Tree
  version : String
  deriving Repr, Inhabited

/-- The state of a worker. An empty space stands for every namespace. -/
structure Worker where
  kind : ResourceKind
  space : String
  phase : Phase := .unsynced
  syncedOnce : Bool := false
  version : String := ""
  snapshot : Snapshot := .empty

namespace Worker

def label (worker : Worker) : String :=
  worker.kind.name ++ "/" ++ Settings.describeNamespaces [worker.space]

def resources (worker : Worker) : List Resource := worker.snapshot.resources

def beginRelist (worker : Worker) : Worker :=
  { worker with phase := if worker.phase = .synced then .resyncing else .syncing }

def readAll? (kind : String) : List Tree → Option (List Resource)
  | [] => some []
  | object :: rest => do
      let resource ← Resource.ofObject? kind object
      let others ← readAll? kind rest
      return resource :: others

def listed (worker : Worker) : Message :=
  .debug ("Listed " ++ toString worker.snapshot.size ++ " " ++ worker.label ++ " resources")

/-- Take over a listing, unless one of its objects is malformed. -/
def adopt (worker : Worker) (listing : Listing) : Except Fault (Worker × Journal) :=
  match readAll? worker.kind.name listing.objects with
  | none => .error .malformed
  | some resources =>
      let adopted : Worker :=
        { worker with
          phase := .synced
          syncedOnce := true
          version := listing.version
          snapshot := .ofList resources }
      .ok (adopted, [adopted.listed])

/-- The version that an event leads to; one that is missing changes nothing. -/
def advance (worker : Worker) (version : String) : String :=
  if version = "" then worker.version else version

def applyEvent (worker : Worker) : Event → Except Fault (Worker × Journal)
  | .put resource =>
      .ok ({ worker with
        snapshot := worker.snapshot.put resource
        version := worker.advance resource.version }, [])
  | .remove resource =>
      .ok ({ worker with
        snapshot := worker.snapshot.erase resource.key
        version := worker.advance resource.version }, [])
  | .bookmark version => .ok ({ worker with version := worker.advance version }, [])
  | .failure text => .error (.expired ("watch of " ++ worker.label ++ " failed: " ++ text))
  | .unknown type => .ok (worker, [.debug ("Ignoring " ++ type ++ " event for " ++ worker.label)])

def apply (worker : Worker) (event : Tree) : Except Fault (Worker × Journal) :=
  match Event.ofTree? worker.kind.name event with
  | none => .error .malformed
  | some read => worker.applyEvent read

/-- The two ways in which a worker changes, with what the cluster contributes. -/
inductive Operation where
  | relist (answer : Except Fault Listing)
  | apply (event : Tree)

structure Report where
  fault : Option Fault
  journal : Journal
  deriving Repr

def settle (stay : Worker) : Except Fault (Worker × Journal) → Worker × Report
  | .ok (changed, journal) => (changed, ⟨none, journal⟩)
  | .error fault => (stay, ⟨some fault, []⟩)

def perform (worker : Worker) : Operation → Worker × Report
  | .relist answer => settle worker.beginRelist (answer.bind worker.beginRelist.adopt)
  | .apply event => settle worker (worker.apply event)

end Worker
end MeshGauges
