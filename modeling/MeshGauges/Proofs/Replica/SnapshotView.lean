import MeshGauges.Replica.Snapshot
import Mathlib.Data.List.Nodup

/-! A snapshot as a map from keys to resources.

`get?` is the view: two snapshots that agree under every key hold the same resources. Each operation has
one equation through the view. -/

set_option autoImplicit false

namespace MeshGauges.Snapshot

/-- The keys are distinct, so the first resource of a key is the only one. -/
theorem get?_eq_some_iff {snapshot : Snapshot} {key : ResourceKey} {resource : Resource} :
    snapshot.get? key = some resource ↔ resource ∈ snapshot.resources ∧ resource.key = key := by
  unfold get?
  constructor
  · intro found
    exact ⟨List.mem_of_find?_eq_some found, by simpa using List.find?_some found⟩
  · intro held
    obtain ⟨member, rfl⟩ := held
    cases found : snapshot.resources.find? fun other => other.key = resource.key with
    | none =>
        have absent := List.find?_eq_none.mp found resource member
        simp at absent
    | some other =>
        have same : other.key = resource.key := by simpa using List.find?_some found
        have equal : other = resource :=
          List.inj_on_of_nodup_map snapshot.distinct (List.mem_of_find?_eq_some found) member same
        rw [equal]

theorem resources_put (snapshot : Snapshot) (resource : Resource) :
    (snapshot.put resource).resources = replaceOrAppend resource snapshot.resources := rfl

theorem resources_erase (snapshot : Snapshot) (key : ResourceKey) :
    (snapshot.erase key).resources = without key snapshot.resources := rfl

theorem mem_without {key : ResourceKey} {resource : Resource} {resources : List Resource} :
    resource ∈ without key resources ↔ resource ∈ resources ∧ resource.key ≠ key := by
  simp [without]

theorem mem_replaceOrAppend {resource other : Resource} {resources : List Resource} :
    other ∈ replaceOrAppend resource resources ↔
      other = resource ∨ other ∈ resources ∧ other.key ≠ resource.key := by
  unfold replaceOrAppend
  split
  · rename_i present
    obtain ⟨replaced, member, same⟩ := List.mem_map.mp present
    rw [List.mem_map]
    constructor
    · intro replacement
      obtain ⟨held, heldMember, rfl⟩ := replacement
      by_cases named : held.key = resource.key
      · simp [named]
      · simp [named, heldMember]
    · intro member
      rcases member with rfl | ⟨heldMember, different⟩
      · exact ⟨replaced, member, by simp [same]⟩
      · exact ⟨other, heldMember, by simp [different]⟩
  · rename_i absent
    rw [List.mem_append, List.mem_singleton]
    constructor
    · intro member
      rcases member with member | rfl
      · exact .inr ⟨member, fun same => absent (List.mem_map.mpr ⟨other, member, same⟩)⟩
      · exact .inl rfl
    · intro member
      rcases member with rfl | ⟨member, _⟩
      · exact .inr rfl
      · exact .inl member

theorem get?_put (snapshot : Snapshot) (resource : Resource) (key : ResourceKey) :
    (snapshot.put resource).get? key =
      if key = resource.key then some resource else snapshot.get? key := by
  apply Option.ext
  intro other
  rw [get?_eq_some_iff, resources_put, mem_replaceOrAppend]
  by_cases same : key = resource.key
  · rw [if_pos same, Option.some.injEq]
    subst same
    constructor
    · intro held
      rcases held with ⟨rfl | ⟨_, different⟩, named⟩
      · rfl
      · exact absurd named different
    · intro equal
      subst equal
      exact ⟨.inl rfl, rfl⟩
  · rw [if_neg same, get?_eq_some_iff]
    constructor
    · intro held
      rcases held with ⟨rfl | ⟨member, _⟩, named⟩
      · exact absurd named.symm same
      · exact ⟨member, named⟩
    · intro held
      obtain ⟨member, rfl⟩ := held
      exact ⟨.inr ⟨member, same⟩, rfl⟩

theorem get?_erase (snapshot : Snapshot) (erased key : ResourceKey) :
    (snapshot.erase erased).get? key = if key = erased then none else snapshot.get? key := by
  apply Option.ext
  intro other
  rw [get?_eq_some_iff, resources_erase, mem_without]
  by_cases same : key = erased
  · rw [if_pos same]
    subst same
    simp only [reduceCtorEq, iff_false]
    intro held
    obtain ⟨⟨_, different⟩, named⟩ := held
    exact different named
  · rw [if_neg same, get?_eq_some_iff]
    constructor
    · intro held
      obtain ⟨⟨member, _⟩, named⟩ := held
      exact ⟨member, named⟩
    · intro held
      obtain ⟨member, rfl⟩ := held
      exact ⟨⟨member, same⟩, rfl⟩

/-- Putting resources whose keys are new and distinct appends them. -/
theorem resources_foldl_put {resources : List Resource} {snapshot : Snapshot}
    (distinct : ((snapshot.resources ++ resources).map Resource.key).Nodup) :
    (resources.foldl put snapshot).resources = snapshot.resources ++ resources := by
  induction resources generalizing snapshot with
  | nil => simp
  | cons resource rest ih =>
      have absent : resource.key ∉ snapshot.resources.map Resource.key := by
        rw [List.map_append, List.map_cons, List.nodup_append] at distinct
        intro present
        exact distinct.2.2 _ present _ List.mem_cons_self rfl
      have appended : (snapshot.put resource).resources = snapshot.resources ++ [resource] := by
        rw [resources_put, replaceOrAppend, if_neg absent]
      rw [List.foldl_cons, ih (by simpa [appended] using distinct), appended,
        List.append_assoc, List.singleton_append]

theorem resources_ofList {resources : List Resource}
    (distinct : (resources.map Resource.key).Nodup) : (ofList resources).resources = resources :=
  resources_foldl_put distinct

end MeshGauges.Snapshot
