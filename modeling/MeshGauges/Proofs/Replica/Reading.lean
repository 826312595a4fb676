import MeshGauges.Replica.Worker

/-! How objects and events are read.

A value that counts as missing is read as an object without members; any other value that is no object
is foreign, and what it is a part of is refused. The equations for events say, type by type, what an
event with a readable object is read as. -/

set_option autoImplicit false

namespace MeshGauges

namespace Tree

/-- A value that stands where an object is needed, is not missing, and is no object. -/
def IsForeign (tree : Tree) : Prop :=
  tree.isVacant = false ∧ tree.members? = none

theorem eq_object_of_member {tree : Tree} {name : String} (present : tree.member name ≠ .null) :
    ∃ members, tree = .object members := by
  cases tree with
  | object members => exact ⟨members, rfl⟩
  | _ => exact absurd rfl present

theorem members?_of_member {tree : Tree} {name value : String}
    (held : tree.member name = .text value) : ∃ members, tree.members? = some members := by
  obtain ⟨members, rfl⟩ := eq_object_of_member (by simp [held] : tree.member name ≠ .null)
  exact ⟨members, rfl⟩

theorem orElse_object (members : List (String × Tree)) :
    (Tree.object members).orElse (.object []) = .object members := by
  cases members <;> rfl

theorem member_of_isVacant {tree : Tree} (vacant : tree.isVacant = true) (name : String) :
    tree.member name = .null := by
  cases tree with
  | object members =>
      cases members with
      | nil => rfl
      | cons head tail => cases vacant
  | _ => rfl

theorem member_orElse (tree : Tree) (name : String) :
    (tree.orElse (.object [])).member name = tree.member name := by
  unfold orElse
  cases vacant : tree.isVacant with
  | true => exact (member_of_isVacant vacant name).symm
  | false => rfl

theorem members?_orElse_eq_none_iff {tree : Tree} :
    (tree.orElse (.object [])).members? = none ↔ tree.IsForeign := by
  unfold orElse IsForeign
  cases tree.isVacant <;> simp [members?]

end Tree

namespace Resource

theorem section?_eq_none_iff {object : Tree} {name : String} :
    Resource.section? object name = none ↔ (object.member name).IsForeign := by
  rw [← Tree.members?_orElse_eq_none_iff, section?, Option.map_eq_none_iff]

theorem section?_eq_some {object found : Tree} {name : String}
    (held : section? object name = some found) :
    found = (object.member name).orElse (.object []) := by
  obtain ⟨_, _, rfl⟩ := Option.map_eq_some_iff.mp held
  rfl

theorem eq_object_of_section? {object found : Tree} {name : String}
    (held : section? object name = some found) : ∃ members, found = .object members := by
  obtain ⟨members, isObject, rfl⟩ := Option.map_eq_some_iff.mp held
  cases read : (object.member name).orElse (.object []) with
  | object members => exact ⟨members, rfl⟩
  | _ =>
      rw [read] at isObject
      cases isObject

theorem section?_of_members {object : Tree} {name : String} {members : List (String × Tree)}
    (held : object.member name = .object members) :
    Resource.section? object name = some (.object members) := by
  rw [section?, held, Tree.orElse_object]
  rfl

/-- A cluster object describes a resource exactly when it and its metadata are objects. -/
theorem ofObject?_eq_none_iff {kind : String} {object : Tree} :
    ofObject? kind object = none ↔
      object.members? = none ∨ (object.member "metadata").IsForeign := by
  rw [← section?_eq_none_iff, ofObject?]
  cases object.members? with
  | none => simp
  | some members => cases section? object "metadata" <;> simp

theorem field_of_text {metadata : Tree} {name value : String}
    (held : metadata.member name = .text value) : field metadata name = value := by
  by_cases empty : value = ""
  · subst empty
    rw [field, held]
    rfl
  · have present : (Tree.text value).isVacant = false := by simpa [Tree.isVacant] using empty
    rw [field, held, Tree.orElse, present]
    rfl

/-- An object that is there and describes no resource has foreign metadata. -/
theorem isForeign_metadata {kind name : String} {object found : Tree}
    (held : section? object name = some found) (undescribed : ofObject? kind found = none) :
    ((object.member name).member "metadata").IsForeign := by
  obtain ⟨members, isObject⟩ := eq_object_of_section? held
  rw [← Tree.member_orElse, ← section?_eq_some held]
  rcases ofObject?_eq_none_iff.mp undescribed with notObject | foreign
  · rw [isObject] at notObject
    cases notObject
  · exact foreign

theorem section?_eq_none_of_isForeign {name inner : String} {object found : Tree}
    (held : section? object name = some found)
    (foreign : ((object.member name).member inner).IsForeign) : section? found inner = none := by
  rw [section?_eq_none_iff, section?_eq_some held, Tree.member_orElse]
  exact foreign

theorem members?_of_ofObject? {kind : String} {object : Tree} {resource : Resource}
    (described : ofObject? kind object = some resource) :
    ∃ members, object = .object members := by
  cases object with
  | object members => exact ⟨members, rfl⟩
  | _ => cases described

end Resource

namespace Event

variable {kind : String} {tree object : Tree}

theorem ofTree?_of_section?_none (absent : Resource.section? tree "object" = none) :
    ofTree? kind tree = none := by
  cases isObject : tree.members? <;> simp [ofTree?, isObject, absent]

theorem ofTree?_error {members : List (String × Tree)} (failing : tree.member "type" = .text "ERROR")
    (found : Resource.section? tree "object" = some (.object members)) :
    ofTree? kind tree = some (.failure (failureText members)) := by
  obtain ⟨_, isObject⟩ := Tree.members?_of_member failing
  have members? : (Tree.object members).members? = some members := rfl
  simp [ofTree?, isObject, found, failing, members?]

theorem ofTree?_bookmark (marking : tree.member "type" = .text "BOOKMARK")
    (found : Resource.section? tree "object" = some object) :
    ofTree? kind tree = (Resource.section? object "metadata").map fun metadata =>
      .bookmark (Resource.field metadata "resourceVersion") := by
  obtain ⟨_, isObject⟩ := Tree.members?_of_member marking
  simp [ofTree?, isObject, found, marking]

theorem ofTree?_bookmark_of_lookup {version : String}
    (marking : tree.member "type" = .text "BOOKMARK")
    (carried : tree.lookup ["object", "metadata", "resourceVersion"] = .text version) :
    ofTree? kind tree = some (.bookmark version) := by
  simp only [Tree.lookup_cons, Tree.lookup_nil] at carried
  obtain ⟨inner, isMetadata⟩ := Tree.eq_object_of_member
    (by simp [carried] : ((tree.member "object").member "metadata").member "resourceVersion" ≠ .null)
  obtain ⟨outer, isObject⟩ := Tree.eq_object_of_member
    (by simp [isMetadata] : (tree.member "object").member "metadata" ≠ .null)
  rw [isObject] at isMetadata
  rw [isObject, isMetadata] at carried
  rw [ofTree?_bookmark marking (Resource.section?_of_members isObject),
    Resource.section?_of_members isMetadata, Option.map_some, Resource.field_of_text carried]

theorem ofTree?_put
    (putting : tree.member "type" = .text "ADDED" ∨ tree.member "type" = .text "MODIFIED")
    (found : Resource.section? tree "object" = some object) :
    ofTree? kind tree = (Resource.ofObject? kind object).map .put := by
  rcases putting with putting | putting
  all_goals
    obtain ⟨_, isObject⟩ := Tree.members?_of_member putting
    simp [ofTree?, isObject, found, putting]

theorem ofTree?_remove (removing : tree.member "type" = .text "DELETED")
    (found : Resource.section? tree "object" = some object) :
    ofTree? kind tree = (Resource.ofObject? kind object).map .remove := by
  obtain ⟨_, isObject⟩ := Tree.members?_of_member removing
  simp [ofTree?, isObject, found, removing]

/-- The types of events that say something; any other type is passed over. -/
def IsKnownType (type : Tree) : Prop :=
  type = .text "ADDED" ∨ type = .text "MODIFIED" ∨ type = .text "DELETED" ∨
    type = .text "BOOKMARK" ∨ type = .text "ERROR"

theorem ofTree?_unknown {members : List (String × Tree)} (isObject : tree.members? = some members)
    (unknown : ¬ IsKnownType (tree.member "type"))
    (found : Resource.section? tree "object" = some object) :
    ofTree? kind tree = some (.unknown (tree.member "type").asText) := by
  simp only [IsKnownType, not_or] at unknown
  obtain ⟨added, modified, deleted, marking, failing⟩ := unknown
  simp only [ofTree?, isObject, found, Option.bind_eq_bind, Option.bind_some]

/-- The events that cannot be applied: failures, and those that are not made of objects as far as they
are read. -/
inductive IsRefused (event : Tree) : Prop where
  | failure : event.member "type" = .text "ERROR" → IsRefused event
  | notObject : event.members? = none → IsRefused event
  | object : (event.member "object").IsForeign → IsRefused event
  | metadata :
      event.member "type" = .text "ADDED" ∨ event.member "type" = .text "MODIFIED" ∨
        event.member "type" = .text "DELETED" ∨ event.member "type" = .text "BOOKMARK" →
      ((event.member "object").member "metadata").IsForeign → IsRefused event

end Event

namespace Worker

theorem apply_of_read {worker : Worker} {event : Tree} {read : Event}
    (readable : Event.ofTree? worker.kind.name event = some read) :
    worker.apply event = worker.applyEvent read := by
  rw [apply, readable]

theorem apply_of_unread {worker : Worker} {event : Tree}
    (unreadable : Event.ofTree? worker.kind.name event = none) :
    worker.apply event = .error .malformed := by
  rw [apply, unreadable]

private theorem apply_error_of_refused {worker : Worker} {event : Tree}
    (refused : Event.IsRefused event) : ∃ fault, worker.apply event = .error fault := by
  cases held : Resource.section? event "object" with
  | none => exact ⟨_, apply_of_unread (Event.ofTree?_of_section?_none held)⟩
  | some found =>
      cases refused with
      | failure failing =>
          obtain ⟨members, rfl⟩ := Resource.eq_object_of_section? held
          exact ⟨_, apply_of_read (Event.ofTree?_error failing held)⟩
      | notObject notObject =>
          exact ⟨_, apply_of_unread (by simp [Event.ofTree?, notObject])⟩
      | object foreign =>
          rw [Resource.section?_eq_none_iff.mpr foreign] at held
          cases held
      | metadata typed foreign =>
          have absent := Resource.section?_eq_none_of_isForeign held foreign
          have undescribed : Resource.ofObject? worker.kind.name found = none :=
            Resource.ofObject?_eq_none_iff.mpr (.inr (Resource.section?_eq_none_iff.mp absent))
          refine ⟨_, apply_of_unread ?_⟩
          rcases typed with adding | modifying | removing | marking
          · rw [Event.ofTree?_put (.inl adding) held, undescribed]
            rfl
          · rw [Event.ofTree?_put (.inr modifying) held, undescribed]
            rfl
          · rw [Event.ofTree?_remove removing held, undescribed]
            rfl
          · rw [Event.ofTree?_bookmark marking held, absent]
            rfl

private theorem undescribed_of_apply_error {worker : Worker} {event found : Tree} {fault : Fault}
    {reading : Resource → Event}
    (read : Event.ofTree? worker.kind.name event =
      (Resource.ofObject? worker.kind.name found).map reading)
    (usable : ∀ resource, ∃ changed, worker.applyEvent (reading resource) = .ok changed)
    (failed : worker.apply event = .error fault) :
    Resource.ofObject? worker.kind.name found = none := by
  cases described : Resource.ofObject? worker.kind.name found with
  | none => rfl
  | some resource =>
      rw [described] at read
      obtain ⟨changed, applied⟩ := usable resource
      rw [apply_of_read read, applied] at failed
      cases failed

private theorem refused_of_apply_error {worker : Worker} {event : Tree} {fault : Fault}
    (failed : worker.apply event = .error fault) : Event.IsRefused event := by
  cases isObject : event.members? with
  | none => exact .notObject isObject
  | some members =>
      cases held : Resource.section? event "object" with
      | none => exact .object (Resource.section?_eq_none_iff.mp held)
      | some found =>
          by_cases known : Event.IsKnownType (event.member "type")
          · rcases known with adding | modifying | removing | marking | failing
            · have undescribed := undescribed_of_apply_error
                (Event.ofTree?_put (.inl adding) held) (fun _ => ⟨_, rfl⟩) failed
              exact .metadata (.inl adding) (Resource.isForeign_metadata held undescribed)
            · have undescribed := undescribed_of_apply_error
                (Event.ofTree?_put (.inr modifying) held) (fun _ => ⟨_, rfl⟩) failed
              exact .metadata (.inr (.inl modifying)) (Resource.isForeign_metadata held undescribed)
            · have undescribed := undescribed_of_apply_error
                (Event.ofTree?_remove removing held) (fun _ => ⟨_, rfl⟩) failed
              exact .metadata (.inr (.inr (.inl removing)))
                (Resource.isForeign_metadata held undescribed)
            · cases metadata : Resource.section? found "metadata" with
              | none =>
                  have foreign := Resource.section?_eq_none_iff.mp metadata
                  rw [Resource.section?_eq_some held, Tree.member_orElse] at foreign
                  exact .metadata (.inr (.inr (.inr marking))) foreign
              | some read =>
                  have bookmark : Event.ofTree? worker.kind.name event = _ :=
                    Event.ofTree?_bookmark marking held
                  rw [metadata] at bookmark
                  rw [apply_of_read bookmark] at failed
                  cases failed
            · exact .failure failing
          · rw [apply_of_read (Event.ofTree?_unknown isObject known held)] at failed
            cases failed

theorem apply_eq_error_iff {worker : Worker} {event : Tree} :
    (∃ fault, worker.apply event = .error fault) ↔ Event.IsRefused event :=
  ⟨fun ⟨_, failed⟩ => refused_of_apply_error failed, apply_error_of_refused⟩

end Worker
end MeshGauges
