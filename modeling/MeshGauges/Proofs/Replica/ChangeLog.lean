import MeshGauges.Proofs.Replica.Course
import MeshGauges.Proofs.Replica.Reading
import MeshGauges.Proofs.Replica.SnapshotView
import Mathlib.Data.List.Induction
import Mathlib.Tactic.WLOG

/-! The cluster side of a namespace: an append-only log of changes.

Each change puts or deletes one object and has a version of its own. A prefix of the log leads to a state
of the objects and is named by the version of its last change. `ChangeFeed` says what it is for
surroundings to answer list and watch requests from such a log; it leaves open when the log grows, which
prefix a listing shows, how a stream ends and where it fails. -/

set_option autoImplicit false

namespace MeshGauges

abbrev Objects := ResourceKey → Option Resource

/-- One change: an object is put, or the object of a key is deleted. The resource is the one that the
object of the change describes, so it carries the version of the change. -/
inductive Change where
  | put (resource : Resource)
  | delete (resource : Resource)

namespace Change

def resource : Change → Resource
  | .put resource => resource
  | .delete resource => resource

def version (change : Change) : String := change.resource.version

def left : Change → Option Resource
  | .put resource => some resource
  | .delete _ => none

def act (change : Change) (objects : Objects) : Objects :=
  fun key => if key = change.resource.key then change.left else objects key

end Change

def stateAfter (changes : List Change) : Objects :=
  changes.foldl (fun objects change => change.act objects) fun _ => none

/-- The version of the last change; a log without changes has a version as well. -/
def versionAfter (origin : String) (changes : List Change) : String :=
  (changes.getLast?.map Change.version).getD origin

/-- Every change has a version of its own, which is not empty. -/
structure WellVersioned (origin : String) (changes : List Change) : Prop where
  distinct : (origin :: changes.map Change.version).Nodup
  named : ∀ change ∈ changes, change.version ≠ ""

@[simp] theorem stateAfter_concat (changes : List Change) (change : Change) :
    stateAfter (changes ++ [change]) = change.act (stateAfter changes) := by
  simp [stateAfter]

@[simp] theorem versionAfter_concat (origin : String) (changes : List Change) (change : Change) :
    versionAfter origin (changes ++ [change]) = change.version := by
  simp [versionAfter]

theorem versionAfter_mem (origin : String) (changes : List Change) :
    versionAfter origin changes ∈ origin :: changes.map Change.version := by
  rcases List.eq_nil_or_concat changes with rfl | ⟨earlier, change, rfl⟩
  · exact List.mem_cons_self
  · simp [versionAfter]

/-- Every object stands under its own key. -/
theorem key_of_stateAfter {changes : List Change} {key : ResourceKey} {resource : Resource}
    (held : stateAfter changes key = some resource) : resource.key = key := by
  induction changes using List.reverseRecOn with
  | nil => cases held
  | append_singleton changes change ih =>
      rw [stateAfter_concat, Change.act] at held
      split at held
      · rename_i same
        cases change with
        | put put =>
            cases held
            exact same.symm
        | delete deleted => cases held
      · exact ih held

/-- A version names at most one prefix of a log. -/
theorem WellVersioned.prefix_unique {origin : String} {log first second : List Change}
    (wellVersioned : WellVersioned origin log) (firstPrefix : first <+: log)
    (secondPrefix : second <+: log)
    (same : versionAfter origin first = versionAfter origin second) : first = second := by
  wlog shorter : first <+: second generalizing first second
  · have reversed := (List.prefix_or_prefix_of_prefix firstPrefix secondPrefix).resolve_left shorter
    exact (this secondPrefix firstPrefix same.symm reversed).symm
  obtain ⟨added, rfl⟩ := shorter
  rcases List.eq_nil_or_concat added with rfl | ⟨between, change, rfl⟩
  · simp
  -- The longer prefix ends with a change whose version stands among those of the shorter one.
  · have held := versionAfter_mem origin first
    rw [same, List.concat_eq_append, ← List.append_assoc, versionAfter_concat] at held
    have distinct := wellVersioned.distinct.sublist ((secondPrefix.sublist.map Change.version).cons_cons origin)
    rw [List.concat_eq_append, List.map_append, ← List.cons_append, List.nodup_append] at distinct
    exact absurd rfl (distinct.2.2 _ held change.version (by simp))

end MeshGauges
