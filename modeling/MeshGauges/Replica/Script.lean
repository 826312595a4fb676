import MeshGauges.Replica.Cycle

/-! Scripted surroundings: a finite rehearsal of what a cluster answers.

Each list request and each watch request takes one entry of a script, which may take time and may set
the stop signal. A script without entries sets the signal and answers with nothing. Pauses let exactly
their time pass. A life in such surroundings ends, because every cycle uses up an entry. -/

set_option autoImplicit false

namespace MeshGauges

structure ListEntry where
  takes : Float := 0.0
  stops : Bool := false
  answer : Except Fault Listing := .ok ⟨[], ""⟩

/-- One item of a scripted stream; the stop signal may be set just before it comes. -/
structure ScriptedItem where
  stops : Bool
  item : StreamItem

structure StreamEntry where
  takes : Float := 0.0
  stops : Bool := false
  items : List ScriptedItem := []

/-- A script, the clock, the stop signal and what is left of the open stream. -/
structure Script where
  lists : List ListEntry
  streams : List StreamEntry
  time : Float := 0.0
  stopping : Bool := false
  current : List ScriptedItem := []

namespace Script

/-- Let the time of an entry pass and set the stop signal if the entry does. -/
def spend (script : Script) (takes : Float) (stops : Bool) : Script :=
  { script with time := script.time + takes, stopping := script.stopping || stops }

def list (script : Script) : Option (Except Fault Listing) × Script :=
  match script.lists with
  | [] => (some (.ok ⟨[], ""⟩), { script with stopping := true })
  | entry :: rest => (some entry.answer, { script with lists := rest }.spend entry.takes entry.stops)

def watch (script : Script) : Script :=
  match script.streams with
  | [] => { script with stopping := true, current := [] }
  | entry :: rest =>
      { script with streams := rest, current := entry.items }.spend entry.takes entry.stops

def next (script : Script) : StreamItem × Script :=
  match script.current with
  | [] => (.ended, script)
  | scripted :: rest =>
      (scripted.item, { script with current := rest, stopping := script.stopping || scripted.stops })

def surroundings : Surroundings Script where
  stopping script := (script.stopping, script)
  clock script := (script.time, script)
  list _ script := script.list
  watch _ _ _ script := script.watch
  next script := script.next
  pause seconds script := { script with time := script.time + seconds }

def steps (script : Script) : Nat :=
  let items := (script.streams.map fun entry => entry.items.length).foldl (· + ·) 0
  16 * (script.lists.length + script.streams.length + items + 4)

end Script
end MeshGauges
