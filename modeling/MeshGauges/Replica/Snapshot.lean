import MeshGauges.Resource

/-! Snapshots: the resources that a worker last saw.

A snapshot holds at most one resource of each key, in the order in which the keys came in. Replacing a
resource keeps its place; one that is erased and put again goes last. -/

set_option autoImplicit false

namespace MeshGauges

structure Snapshot where
  resources : List Resource
  distinct : (resources.map Resource.key).Nodup

namespace Snapshot

/-- Put a resource among others: in place of the one with its key, else at the end. -/
def replaceOrAppend (resource : Resource) (resources : List Resource) : List Resource :=
  if resource.key ∈ resources.map Resource.key then
    resources.map fun other => if other.key = resource.key then resource else other
  else resources ++ [resource]

def without (key : ResourceKey) (resources : List Resource) : List Resource :=
  resources.filter fun other => other.key ≠ key

theorem map_key_replace (resource : Resource) (resources : List Resource) :
    (resources.map fun other => if other.key = resource.key then resource else other).map Resource.key =
      resources.map Resource.key := by
  rw [List.map_map]
  apply List.map_congr_left
  intro other _
  by_cases same : other.key = resource.key
  · simp [same]
  · simp [same]

theorem nodup_replaceOrAppend (resource : Resource) {resources : List Resource}
    (distinct : (resources.map Resource.key).Nodup) :
    ((replaceOrAppend resource resources).map Resource.key).Nodup := by
  unfold replaceOrAppend
  split
  · rw [map_key_replace]
    exact distinct
  · rename_i absent
    rw [List.map_append, List.nodup_append]
    refine ⟨distinct, by simp, ?_⟩
    intro key present other single same
    simp at single
    subst single
    exact absent (same ▸ present)

theorem nodup_without (key : ResourceKey) {resources : List Resource}
    (distinct : (resources.map Resource.key).Nodup) :
    ((without key resources).map Resource.key).Nodup :=
  distinct.sublist (List.Sublist.map Resource.key List.filter_sublist)

def empty : Snapshot := ⟨[], by simp⟩

def put (snapshot : Snapshot) (resource : Resource) : Snapshot :=
  ⟨replaceOrAppend resource snapshot.resources, nodup_replaceOrAppend resource snapshot.distinct⟩

def erase (snapshot : Snapshot) (key : ResourceKey) : Snapshot :=
  ⟨without key snapshot.resources, nodup_without key snapshot.distinct⟩

/-- The snapshot of a listing: its resources put one after the other. -/
def ofList (resources : List Resource) : Snapshot :=
  resources.foldl put empty

def size (snapshot : Snapshot) : Nat := snapshot.resources.length

def get? (snapshot : Snapshot) (key : ResourceKey) : Option Resource :=
  snapshot.resources.find? fun resource => resource.key = key

end Snapshot
end MeshGauges
