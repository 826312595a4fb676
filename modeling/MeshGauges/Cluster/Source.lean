import MeshGauges.Replica.Watch

/-! The cluster as a source of listings and events.

Requests go to all namespaces or to one. A stream of a watch is closed exactly once: when it ends, when
it fails, or when its reader leaves it. An answer that the version is too old becomes a fault of the
watch, so that the worker lists again. -/

set_option autoImplicit false

namespace MeshGauges.Cluster

structure Call where
  method : String
  arguments : List String
  deriving Repr, DecidableEq

def call (kind : ResourceKind) (space : String) : Call :=
  if space = Settings.everyNamespace then
    ⟨"list_cluster_custom_object", [kind.group, kind.version, kind.plural]⟩
  else ⟨"list_namespaced_custom_object", [kind.group, kind.version, space, kind.plural]⟩

structure Response where
  items : Tree
  version : String
  deriving Repr

/-- Read a response. Items that are missing are none; they are not looked at any further. -/
def Response.ofTree? (tree : Tree) : Option Response := do
  let _ ← tree.members?
  let metadata ← Resource.section? tree "metadata"
  return ⟨(tree.member "items").orElse (.list []), Resource.field metadata "resourceVersion"⟩

/-- The objects that are met when items are gone through: names and characters are texts. -/
def Response.objects (response : Response) : List Tree :=
  match response.items with
  | .list items => items
  | .object members => members.map fun entry => .text entry.1
  | .text value => value.toList.map fun character => .text (String.ofList [character])
  | _ => [.null]

def Response.listing (response : Response) : Listing :=
  ⟨response.objects, response.version⟩

/-- How long a request may take beyond the timeout of its watch. -/
def requestAllowance : Int := 10

structure WatchRequest where
  call : Call
  timeout : Int
  version : Option String
  deriving Repr, DecidableEq

def WatchRequest.of (kind : ResourceKind) (space version : String) (timeout : Int) : WatchRequest :=
  ⟨Cluster.call kind space, timeout, if version = "" then none else some version⟩

def WatchRequest.requestTimeout (request : WatchRequest) : Int :=
  request.timeout + requestAllowance

def goneStatus : Int := 410

/-- The fault that a failed stream of a kind amounts to. -/
def streamFault (kind : ResourceKind) : Fault → Fault
  | .rejected status reason =>
      if status = goneStatus then .expired ("watch of " ++ kind.plural ++ " expired: " ++ reason)
      else .rejected status reason
  | other => other

structure Client (σ : Type) where
  list : Call → σ → Option (Except Fault Tree) × σ
  openStream : WatchRequest → σ → σ
  next : σ → StreamItem × σ
  closeStream : σ → σ

namespace Client

variable {σ : Type}

def listing (answer : Except Fault Tree) : Except Fault Listing :=
  answer.bind fun tree =>
    match Response.ofTree? tree with
    | some response => .ok response.listing
    | none => .error .malformed

def nextItem (client : Client σ) (kind : ResourceKind) (state : σ) : StreamItem × σ :=
  match client.next state with
  | (.event event, after) => (.event event, after)
  | (.ended, after) => (.ended, client.closeStream after)
  | (.failed fault, after) => (.failed (streamFault kind fault), client.closeStream after)

/-- The stop signal and the clock, which a client has nothing to do with. -/
structure Process (σ : Type) where
  stopping : σ → Bool × σ
  clock : σ → Float × σ
  pause : Float → σ → σ

def surroundings (client : Client σ) (process : Process σ) (kind : ResourceKind) : Surroundings σ where
  stopping := process.stopping
  clock := process.clock
  pause := process.pause
  list space state :=
    let (answer?, after) := client.list (call kind space) state
    (answer?.map listing, after)
  watch space version timeout state := client.openStream (.of kind space version timeout) state
  next := client.nextItem kind

end Client

/-- A stream that yields given events and then ends or fails. It counts what was delivered, and keeps
the count at each closing. -/
structure EventStream where
  pending : List Tree
  failure : Option Fault := none
  delivered : Nat := 0
  closings : List Nat := []

namespace EventStream

def next (stream : EventStream) : StreamItem × EventStream :=
  match stream.pending with
  | event :: rest => (.event event, { stream with pending := rest, delivered := stream.delivered + 1 })
  | [] =>
      match stream.failure with
      | some fault => (.failed fault, stream)
      | none => (.ended, stream)

def close (stream : EventStream) : EventStream :=
  { stream with closings := stream.closings ++ [stream.delivered] }

def client : Client EventStream where
  list _ stream := (none, stream)
  openStream _ stream := stream
  next := EventStream.next
  closeStream := EventStream.close

structure Reading where
  events : List Tree
  fault : Option Fault
  closings : List Nat

/-- Read a stream of a kind; a reader with a limit leaves after that many events. -/
def read (kind : ResourceKind) (limit : Option Nat) : Nat → List Tree → EventStream → Reading
  | 0, events, stream => ⟨events, none, stream.closings⟩
  | steps + 1, events, stream =>
      match client.nextItem kind stream with
      | (.ended, after) => ⟨events, none, after.closings⟩
      | (.failed fault, after) => ⟨events, some fault, after.closings⟩
      | (.event event, after) =>
          if limit = some (events.length + 1) then ⟨events ++ [event], none, after.close.closings⟩
          else read kind limit steps (events ++ [event]) after

def readAll (kind : ResourceKind) (limit : Option Nat) (stream : EventStream) : Reading :=
  read kind limit (stream.pending.length + 1) [] stream

end EventStream
end MeshGauges.Cluster
