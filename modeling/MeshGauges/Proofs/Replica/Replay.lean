import MeshGauges.Proofs.Replica.Publication
import MeshGauges.Proofs.Replica.Recency

/-! A worker shows what its history says since the last listing.

A relist or an event that succeeds mentions changes: a listing puts every object that it has, one after
the other, and an event puts or deletes one. The snapshot of a worker holds, for each key, the resource
that the last mention since the last relist has put there, in the order in which the keys have entered,
and the version is the last that came with a listing or with an event. -/

set_option autoImplicit false

namespace MeshGauges

open Change

namespace Snapshot

variable {snapshot : Snapshot} {changes : List Change}

def follow (snapshot : Snapshot) : Change → Snapshot
  | .put resource => snapshot.put resource
  | .delete resource => snapshot.erase resource.key

/-- A snapshot holds what a history leaves: for each key the resource that stands there once and no other
resource, and the keys in the order in which they have entered. -/
structure Reflects (snapshot : Snapshot) (changes : List Change) : Prop where
  held : ∀ key, snapshot.resources.filter (fun resource => resource.key = key) =
    (standing? changes key).toList
  ordered : (snapshot.resources.map Resource.key).Pairwise (EntersBefore changes)

private theorem filter_key_eq {resources : List Resource}
    (distinct : (resources.map Resource.key).Nodup) (key : ResourceKey) :
    resources.filter (fun resource => resource.key = key) =
      (resources.find? fun resource => resource.key = key).toList := by
  induction resources with
  | nil => rfl
  | cons resource rest ih =>
      rw [List.map_cons, List.nodup_cons] at distinct
      by_cases same : resource.key = key
      · have others : rest.filter (fun other => other.key = key) = [] := by
          rw [List.filter_eq_nil_iff]
          intro other member named
          have named : other.key = key := by simpa using named
          exact distinct.1 (List.mem_map.mpr ⟨other, member, named.trans same.symm⟩)
        simp [same, others]
      · simp [same, ih distinct.2]

theorem filter_key_eq_get? (snapshot : Snapshot) (key : ResourceKey) :
    snapshot.resources.filter (fun resource => resource.key = key) = (snapshot.get? key).toList :=
  filter_key_eq snapshot.distinct key

theorem reflects_iff :
    snapshot.Reflects changes ↔ (∀ key, snapshot.get? key = standing? changes key) ∧
      (snapshot.resources.map Resource.key).Pairwise (EntersBefore changes) := by
  constructor
  · intro reflects
    refine ⟨fun key => Option.ext fun resource => ?_, reflects.ordered⟩
    rw [← Option.mem_toList, ← Option.mem_toList, ← filter_key_eq_get?, reflects.held]
  · intro ⟨viewed, ordered⟩
    refine ⟨fun key => ?_, ordered⟩
    rw [filter_key_eq_get?, viewed]

theorem reflects_empty : empty.Reflects [] :=
  reflects_iff.mpr ⟨fun _ => rfl, .nil⟩

theorem get?_follow (snapshot : Snapshot) (change : Change) (key : ResourceKey) :
    (snapshot.follow change).get? key =
      if key = change.resource.key then change.left else snapshot.get? key := by
  cases change with
  | put resource => exact get?_put snapshot resource key
  | delete resource => exact get?_erase snapshot resource.key key

/-- A change leaves the keys that stay in their order; a key that is new goes last. -/
theorem keys_follow (snapshot : Snapshot) (change : Change) :
    ((snapshot.follow change).resources.map Resource.key).Sublist
        (snapshot.resources.map Resource.key) ∨
      (snapshot.follow change).resources.map Resource.key =
        snapshot.resources.map Resource.key ++ [change.resource.key] ∧
      snapshot.get? change.resource.key = none ∧ change.left ≠ none := by
  cases change with
  | delete resource => exact .inl (List.filter_sublist.map Resource.key)
  | put resource =>
      by_cases present : resource.key ∈ snapshot.resources.map Resource.key
      · left
        rw [follow, resources_put, replaceOrAppend, if_pos present, map_key_replace]
      · right
        refine ⟨?_, ?_, Option.some_ne_none _⟩
        · rw [follow, resources_put, replaceOrAppend, if_neg present, List.map_append]
          rfl
        · rw [Option.eq_none_iff_forall_ne_some]
          intro other found
          obtain ⟨member, named⟩ := get?_eq_some_iff.mp found
          exact present (List.mem_map.mpr ⟨other, member, named⟩)

theorem get?_ne_none_of_mem {key : ResourceKey} (member : key ∈ snapshot.resources.map Resource.key) :
    snapshot.get? key ≠ none := by
  obtain ⟨resource, held, named⟩ := List.mem_map.mp member
  rw [get?_eq_some_iff.mpr ⟨held, named⟩]
  exact Option.some_ne_none _

theorem Reflects.follow (reflects : snapshot.Reflects changes) (change : Change) :
    (snapshot.follow change).Reflects (changes ++ [change]) := by
  obtain ⟨viewed, ordered⟩ := reflects_iff.mp reflects
  have viewedAfter : ∀ key, (snapshot.follow change).get? key =
      standing? (changes ++ [change]) key := by
    intro key
    rw [get?_follow, standing?_concat, viewed]
  refine reflects_iff.mpr ⟨viewedAfter, ?_⟩
  have stands : ∀ key ∈ snapshot.resources.map Resource.key, standing? changes key ≠ none := by
    intro key member
    rw [← viewed]
    exact get?_ne_none_of_mem member
  have kept : (snapshot.resources.map Resource.key).Pairwise (EntersBefore (changes ++ [change])) :=
    ordered.imp_of_mem fun first second before =>
      before.concat (stands _ first) (stands _ second) change
  rcases keys_follow snapshot change with staying | ⟨appended, absent, put⟩
  · exact kept.sublist staying
  · rw [appended, List.pairwise_append]
    refine ⟨kept, List.pairwise_singleton _ _, ?_⟩
    intro key member entering last
    obtain rfl := List.mem_singleton.mp last
    refine entersBefore_concat (stands key member) (by rw [← viewed, absent]) ?_
    rw [standing?_concat, if_pos rfl]
    exact put

theorem Reflects.foldl_follow (reflects : snapshot.Reflects changes) (later : List Change) :
    (later.foldl Snapshot.follow snapshot).Reflects (changes ++ later) := by
  induction later generalizing snapshot changes with
  | nil => simpa using reflects
  | cons change rest ih => simpa using ih (reflects.follow change)

theorem ofList_eq_foldl (resources : List Resource) :
    ofList resources = (resources.map Change.put).foldl Snapshot.follow empty := by
  rw [List.foldl_map]
  rfl

end Snapshot

namespace Resource

theorem field_orElse (metadata : Tree) (name : String) :
    field (metadata.orElse (.object [])) name = field metadata name := by
  rw [field, field, Tree.member_orElse]

theorem version_of_ofObject? {kind : String} {object : Tree} {resource : Resource}
    (described : ofObject? kind object = some resource) :
    resource.version = field (object.member "metadata") "resourceVersion" := by
  rw [ofObject?] at described
  obtain ⟨_, _, described⟩ := Option.bind_eq_some_iff.mp described
  obtain ⟨metadata, held, described⟩ := Option.bind_eq_some_iff.mp described
  cases described
  change field metadata "resourceVersion" = _
  rw [section?_eq_some held, field_orElse]

end Resource

namespace Event

/-- The object of an event; one that counts as missing has no members. -/
def object (event : Tree) : Tree := (event.member "object").orElse (.object [])

/-- The change that an event mentions: what its object describes is put or deleted. -/
def change? (kind : String) (event : Tree) : Option Change :=
  match event.member "type" with
  | .text "ADDED" => (Resource.ofObject? kind (object event)).map .put
  | .text "MODIFIED" => (Resource.ofObject? kind (object event)).map .put
  | .text "DELETED" => (Resource.ofObject? kind (object event)).map .delete
  | _ => none

def versionedTypes : List String := ["ADDED", "MODIFIED", "DELETED", "BOOKMARK"]

/-- The version that comes with an event, unless it is empty. -/
def version? (event : Tree) : Option String :=
  match event.member "type" with
  | .text type =>
      let version := Resource.field ((object event).member "metadata") "resourceVersion"
      if type ∈ versionedTypes ∧ version ≠ "" then some version else none
  | _ => none

variable {kind : String} {event : Tree}

theorem change?_of_put
    (putting : event.member "type" = .text "ADDED" ∨ event.member "type" = .text "MODIFIED") :
    change? kind event = (Resource.ofObject? kind (object event)).map .put := by
  rcases putting with putting | putting
  all_goals simp [change?, putting]

theorem change?_of_remove (removing : event.member "type" = .text "DELETED") :
    change? kind event = (Resource.ofObject? kind (object event)).map .delete := by
  simp [change?, removing]

theorem change?_of_bookmark (marking : event.member "type" = .text "BOOKMARK") :
    change? kind event = none := by
  simp [change?, marking]

theorem change?_of_unknown (unknown : ¬ IsKnownType (event.member "type")) :
    change? kind event = none := by
  simp only [IsKnownType, not_or] at unknown
  obtain ⟨added, modified, deleted, _, _⟩ := unknown
  simp only [change?]

theorem version?_of_unknown (unknown : ¬ IsKnownType (event.member "type")) :
    version? event = none := by
  cases typed : event.member "type" with
  | text type =>
      have other : type ∉ versionedTypes := by
        intro versioned
        rw [typed] at unknown
        simp only [IsKnownType, Tree.text.injEq] at unknown
        simp only [versionedTypes, List.mem_cons, List.not_mem_nil, or_false] at versioned
        tauto
      simp [version?, typed, other]
  | _ => simp [version?, typed]

theorem getD_version? {type : String} (typed : event.member "type" = .text type)
    (versioned : type ∈ versionedTypes) (worker : Worker) :
    (version? event).getD worker.version =
      worker.advance (Resource.field ((object event).member "metadata") "resourceVersion") := by
  by_cases empty : Resource.field ((object event).member "metadata") "resourceVersion" = ""
  · simp [version?, typed, empty, Worker.advance]
  · simp [version?, typed, versioned, empty, Worker.advance]

end Event

namespace Worker

/-- The changes that an operation mentions: all that is listed, or what an event says. -/
def Operation.changes (kind : String) : Operation → List Change
  | .relist (.ok listing) => (listing.objects.filterMap (Resource.ofObject? kind)).map .put
  | .relist (.error _) => []
  | .apply event => (Event.change? kind event).toList

/-- The versions that an operation comes with: that of a listing, or that of an event. -/
def Operation.versions : Operation → List String
  | .relist (.ok listing) => [listing.version]
  | .relist (.error _) => []
  | .apply event => (Event.version? event).toList

def Operation.isRelist : Operation → Bool
  | .relist _ => true
  | .apply _ => false

/-- The operations from the last relist on; all of them where there is none. -/
def sinceRelist : List Operation → List Operation
  | [] => []
  | operation :: later =>
      if later.any Operation.isRelist then sinceRelist later else operation :: later

def performAll (worker : Worker) (operations : List Operation) : Worker :=
  operations.foldl (fun worker operation => (worker.perform operation).1) worker

def AllSucceed (worker : Worker) : List Operation → Prop
  | [] => True
  | operation :: later =>
      worker.Succeeds operation ∧ AllSucceed (worker.perform operation).1 later

theorem Operation.eq_relist_of_succeeds {worker : Worker} {operation : Operation}
    (relisted : operation.isRelist = true) (succeeds : worker.Succeeds operation) :
    ∃ listing, operation = .relist (.ok listing) := by
  cases operation with
  | apply event => cases relisted
  | relist answer =>
      cases answer with
      | error fault => cases succeeds
      | ok listing => exact ⟨listing, rfl⟩

theorem Operation.getD_versions_apply (event : Tree) (version : String) :
    (Operation.apply event).versions.getLast?.getD version = (Event.version? event).getD version := by
  rw [versions]
  cases Event.version? event <;> rfl

variable {worker : Worker}

theorem readAll?_filterMap {kind : String} {objects : List Tree} {resources : List Resource}
    (read : readAll? kind objects = some resources) :
    objects.filterMap (Resource.ofObject? kind) = resources :=
  calc objects.filterMap (Resource.ofObject? kind)
      = (objects.map (Resource.ofObject? kind)).filterMap id := by
        rw [List.filterMap_map, Function.id_comp]
    _ = (resources.map some).filterMap id := by rw [readAll?_eq_some_iff.mp read]
    _ = resources := List.filterMap_map.trans List.filterMap_some

/-- What is left of a worker when an operation succeeds: the changes that it mentions are followed, by a
relist from nothing on, and its last version is taken over. -/
structure Follows (worker : Worker) (operation : Operation) (changed : Worker) : Prop where
  kind : changed.kind = worker.kind
  snapshot : changed.snapshot = (operation.changes worker.kind.name).foldl Snapshot.follow
    (if operation.isRelist then .empty else worker.snapshot)
  version : changed.version = operation.versions.getLast?.getD worker.version

theorem follows_relist {listing : Listing} (succeeds : worker.Succeeds (.relist (.ok listing))) :
    worker.Follows (.relist (.ok listing)) (worker.perform (.relist (.ok listing))).1 := by
  cases read : readAll? worker.kind.name listing.objects with
  | none =>
      rw [Succeeds, perform_relist_of_unread read] at succeeds
      cases succeeds
  | some resources =>
      rw [perform_relist_of_read read]
      refine ⟨rfl, ?_, rfl⟩
      rw [Operation.changes, readAll?_filterMap read]
      exact Snapshot.ofList_eq_foldl resources

private theorem described_of_succeeds {event object : Tree} {reading : Resource → Event}
    (read : Event.ofTree? worker.kind.name event =
      (Resource.ofObject? worker.kind.name object).map reading)
    (succeeds : worker.Succeeds (.apply event)) :
    ∃ resource, Resource.ofObject? worker.kind.name object = some resource ∧
      worker.apply event = worker.applyEvent (reading resource) := by
  cases described : Resource.ofObject? worker.kind.name object with
  | none =>
      rw [described] at read
      rw [Succeeds, perform_apply_of_error (apply_of_unread read)] at succeeds
      cases succeeds
  | some resource =>
      rw [described] at read
      exact ⟨resource, rfl, apply_of_read read⟩

private theorem follows_of_change {event : Tree} {resource : Resource} {type : String}
    (change : Change) (typed : event.member "type" = .text type) (versioned : type ∈ Event.versionedTypes)
    (described : Resource.ofObject? worker.kind.name (Event.object event) = some resource)
    (mentioned : Event.change? worker.kind.name event = some change)
    (applied : worker.apply event = .ok ({ worker with
      snapshot := worker.snapshot.follow change
      version := worker.advance resource.version }, [])) :
    worker.Follows (.apply event) (worker.perform (.apply event)).1 := by
  rw [perform_apply_of_ok applied]
  refine ⟨rfl, ?_, ?_⟩
  · rw [Operation.changes, mentioned]
    rfl
  · rw [Operation.getD_versions_apply, Event.getD_version? typed versioned,
      Resource.version_of_ofObject? described]

theorem follows_apply {event : Tree} (succeeds : worker.Succeeds (.apply event)) :
    worker.Follows (.apply event) (worker.perform (.apply event)).1 := by
  by_cases known : Event.IsKnownType (event.member "type")
  case neg =>
    rw [perform_apply_of_unknown known]
    refine ⟨rfl, ?_, ?_⟩
    · rw [Operation.changes, Event.change?_of_unknown known]
      rfl
    · rw [Operation.getD_versions_apply, Event.version?_of_unknown known]
      rfl
  have accepted : ¬ Event.IsRefused event := fun refused =>
    not_succeeds_apply_iff.mpr refused succeeds
  cases held : Resource.section? event "object" with
  | none => exact absurd (.object (Resource.section?_eq_none_iff.mp held)) accepted
  | some found =>
      obtain rfl : found = Event.object event := Resource.section?_eq_some held
      rcases known with adding | modifying | removing | marking | failing
      · obtain ⟨resource, described, applied⟩ :=
          described_of_succeeds (Event.ofTree?_put (.inl adding) held) succeeds
        exact follows_of_change (.put resource) adding (by decide) described
          (by rw [Event.change?_of_put (.inl adding), described]; rfl) applied
      · obtain ⟨resource, described, applied⟩ :=
          described_of_succeeds (Event.ofTree?_put (.inr modifying) held) succeeds
        exact follows_of_change (.put resource) modifying (by decide) described
          (by rw [Event.change?_of_put (.inr modifying), described]; rfl) applied
      · obtain ⟨resource, described, applied⟩ :=
          described_of_succeeds (Event.ofTree?_remove removing held) succeeds
        exact follows_of_change (.delete resource) removing (by decide) described
          (by rw [Event.change?_of_remove removing, described]; rfl) applied
      · cases metadata : Resource.section? (Event.object event) "metadata" with
        | none =>
            have foreign := Resource.section?_eq_none_iff.mp metadata
            rw [Event.object, Tree.member_orElse] at foreign
            exact absurd (.metadata (.inr (.inr (.inr marking))) foreign) accepted
        | some found =>
            have read : Event.ofTree? worker.kind.name event = _ := Event.ofTree?_bookmark marking held
            rw [metadata, Option.map_some] at read
            rw [perform_apply_of_ok (apply_of_read read)]
            refine ⟨rfl, ?_, ?_⟩
            · rw [Operation.changes, Event.change?_of_bookmark marking]
              rfl
            · rw [Operation.getD_versions_apply, Event.getD_version? marking (by decide),
                Resource.section?_eq_some metadata, Resource.field_orElse]
      · exact absurd (.failure failing) accepted

theorem follows_perform {operation : Operation} (succeeds : worker.Succeeds operation) :
    worker.Follows operation (worker.perform operation).1 := by
  cases operation with
  | relist answer =>
      obtain ⟨listing, same⟩ := Operation.eq_relist_of_succeeds rfl succeeds
      cases same
      exact follows_relist succeeds
  | apply event => exact follows_apply succeeds

theorem sinceRelist_concat (operations : List Operation) (operation : Operation) :
    sinceRelist (operations ++ [operation]) =
      if operation.isRelist then [operation] else sinceRelist operations ++ [operation] := by
  induction operations with
  | nil => cases operation <;> rfl
  | cons first later ih =>
      rw [List.cons_append, sinceRelist, sinceRelist, ih, List.any_append]
      cases relisted : operation.isRelist with
      | true => simp [relisted]
      | false =>
          cases before : later.any Operation.isRelist with
          | true => simp
          | false => simp [relisted]

theorem performAll_concat (worker : Worker) (operations : List Operation) (operation : Operation) :
    worker.performAll (operations ++ [operation]) =
      ((worker.performAll operations).perform operation).1 := by
  simp [performAll]

theorem allSucceed_concat {worker : Worker} {operations : List Operation} {operation : Operation} :
    worker.AllSucceed (operations ++ [operation]) ↔
      worker.AllSucceed operations ∧ (worker.performAll operations).Succeeds operation := by
  induction operations generalizing worker with
  | nil => simp [AllSucceed, performAll]
  | cons first later ih =>
      rw [List.cons_append, AllSucceed, AllSucceed, ih, and_assoc]
      rfl

/-- A worker shows what operations say: its snapshot holds what the changes that they mention leave, and
its version is the last that came with them. -/
structure Replays (worker : Worker) (operations : List Operation) : Prop where
  snapshot : worker.snapshot.Reflects (operations.flatMap (Operation.changes worker.kind.name))
  version : worker.version = (operations.flatMap Operation.versions).getLast?.getD ""

/-- What an operation that succeeds says is added to what a worker shows, or begins it anew. -/
theorem Replays.perform {operations : List Operation} {operation : Operation}
    (replays : worker.Replays operations) (succeeds : worker.Succeeds operation) :
    (worker.perform operation).1.Replays
      (if operation.isRelist then [operation] else operations ++ [operation]) := by
  obtain ⟨kind, snapshot, version⟩ := follows_perform succeeds
  cases relisted : operation.isRelist with
  | true =>
      obtain ⟨listing, rfl⟩ := Operation.eq_relist_of_succeeds relisted succeeds
      refine ⟨?_, version⟩
      rw [kind, snapshot, if_pos relisted, if_pos rfl, List.flatMap_singleton]
      exact Snapshot.reflects_empty.foldl_follow _
  | false =>
      rw [if_neg Bool.false_ne_true]
      constructor
      · rw [kind, snapshot, relisted, if_neg Bool.false_ne_true, List.flatMap_append,
          List.flatMap_singleton]
        exact replays.snapshot.foldl_follow _
      · rw [version, replays.version, List.flatMap_append, List.flatMap_singleton,
          List.getLast?_append, Option.getD_or]

/-- However listings and events come one after the other, a worker shows what they say since the last
listing: for each key the resource that was mentioned last, unless it was mentioned as deleted; the keys
in the order in which they have entered; and the version that came last. -/
theorem replays_since_relist (kind : ResourceKind) (space : String) (operations : List Operation)
    (succeed : AllSucceed { kind := kind, space := space } operations) :
    (performAll { kind := kind, space := space } operations).Replays (sinceRelist operations) := by
  induction operations using List.reverseRecOn with
  | nil => exact ⟨Snapshot.reflects_empty, rfl⟩
  | append_singleton operations operation ih =>
      obtain ⟨before, succeeds⟩ := allSucceed_concat.mp succeed
      rw [performAll_concat, sinceRelist_concat]
      exact (ih before).perform succeeds

end Worker

/-! A listing that has one object twice; the object is deleted and added again. -/

namespace Readdition

def object (name version : String) : Tree :=
  .object [("metadata", .object
    [("namespace", .text "mesh"), ("name", .text name), ("resourceVersion", .text version)])]

def event (type : String) (object : Tree) : Tree :=
  .object [("type", .text type), ("object", object)]

def operations : List Worker.Operation :=
  [.relist (.ok ⟨[object "reviews" "1", object "ratings" "2", object "reviews" "3"], "4"⟩),
   .apply (event "DELETED" (object "reviews" "5")),
   .apply (event "ADDED" (object "reviews" "6")),
   .apply (event "BOOKMARK" (object "" "7"))]

def worker : Worker := { kind := .virtualService, space := "mesh" }

theorem replays_readdition :
    worker.AllSucceed operations ∧
      (worker.performAll operations).resources.map Resource.name = ["ratings", "reviews"] ∧
      (worker.performAll operations).version = "7" ∧
      (worker.performAll operations).Replays (Worker.sinceRelist operations) := by
  have succeed : worker.AllSucceed operations := ⟨rfl, rfl, rfl, rfl, trivial⟩
  exact ⟨succeed, rfl, rfl, Worker.replays_since_relist .virtualService "mesh" operations succeed⟩

end Readdition
end MeshGauges
