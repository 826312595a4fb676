import MeshGauges.Proofs.Replica.ChangeLog
import Mathlib.Data.Option.Basic

/-! No change is lost and none is applied twice.

A worker that lists and watches a change log holds, from its first relist on, exactly the objects of one
prefix of the log, and its version names that prefix. The invariant ties the snapshot and the version to
the prefix at every stage; while a stream is open, it also ties the prefix to what the stream has come
to, so that the next change that the stream yields is the one that follows. -/

set_option autoImplicit false

namespace MeshGauges

variable {σ : Type}

/-- A listing of what changes lead to: each object once, in any order, and the version of the last. -/
structure Lists (kind origin : String) (changes : List Change) (listing : Listing) : Prop where
  version : listing.version = versionAfter origin changes
  objects : ∃ resources : List Resource,
    listing.objects.map (Resource.ofObject? kind) = resources.map some ∧
      (resources.map Resource.key).Nodup ∧
      ∀ resource, resource ∈ resources ↔ stateAfter changes resource.key = some resource

/-- What a stream that has come to some changes may yield next, and what it has come to then: the change
that follows, a bookmark with the version of the last one, or a failure. -/
inductive Yields (kind origin : String) (changes : List Change) (event : Tree) :
    List Change → Prop where
  | put {resource : Resource} :
      event.member "type" = .text "ADDED" ∨ event.member "type" = .text "MODIFIED" →
      Resource.ofObject? kind (event.member "object") = some resource →
      Yields kind origin changes event (changes ++ [.put resource])
  | delete {resource : Resource} :
      event.member "type" = .text "DELETED" →
      Resource.ofObject? kind (event.member "object") = some resource →
      Yields kind origin changes event (changes ++ [.delete resource])
  | bookmark :
      event.member "type" = .text "BOOKMARK" →
      event.lookup ["object", "metadata", "resourceVersion"] = .text (versionAfter origin changes) →
      Yields kind origin changes event changes
  | failure : event.member "type" = .text "ERROR" → Yields kind origin changes event changes

/-- Surroundings that answer for a namespace from a log of changes. The log only grows; every listing
shows one of its prefixes; a stream opened at the version of a prefix goes on from there, change by
change, and may end or fail at any point. -/
structure ChangeFeed (around : Surroundings σ) (kind space : String) where
  origin : String
  log : σ → List Change
  /-- The changes up to where the open stream has come. -/
  covered : σ → List Change
  wellVersioned : ∀ state, WellVersioned origin (log state)
  grows : ∀ before after, around.Leads before after → log before <+: log after
  lists : ∀ {state after : σ} {listing : Listing},
    around.list space state = (some (.ok listing), after) →
    ∃ changes, changes <+: log after ∧ Lists kind origin changes listing
  opens : ∀ {state : σ} {changes : List Change} (seconds : Int), changes <+: log state →
    covered (around.watch space (versionAfter origin changes) seconds state) = changes
  yields : ∀ {state after : σ} {event : Tree}, around.next state = (.event event, after) →
    Yields kind origin (covered state) event (covered after) ∧ covered after <+: log after
  waits : ∀ state, covered (around.stopping state).2 = covered state

/-- A worker shows changes: its version is that of the last, and its snapshot is what they lead to. -/
structure Shows (origin : String) (changes : List Change) (worker : Worker) : Prop where
  version : worker.version = versionAfter origin changes
  objects : ∀ key, worker.snapshot.get? key = stateAfter changes key

theorem Shows.adopted {kind origin : String} {changes : List Change} {listing : Listing}
    {resources : List Resource} (lists : Lists kind origin changes listing)
    (read : Worker.readAll? kind listing.objects = some resources) (worker : Worker) :
    Shows origin changes (worker.adopted listing.version resources) := by
  refine ⟨lists.version, ?_⟩
  obtain ⟨listed, described, distinct, held⟩ := lists.objects
  have same : listed = resources := by
    have mapped := described.symm.trans (Worker.readAll?_eq_some_iff.mp read)
    exact List.map_injective_iff.mpr (Option.some_injective _) mapped
  subst same
  intro key
  apply Option.ext
  intro resource
  change (Snapshot.ofList listed).get? key = some resource ↔ _
  rw [Snapshot.get?_eq_some_iff, Snapshot.resources_ofList distinct, held]
  constructor
  · intro found
    obtain ⟨found, rfl⟩ := found
    exact found
  · intro found
    have named := key_of_stateAfter found
    subst named
    exact ⟨found, rfl⟩

/-- An event that a stream may yield next takes a worker to what the stream has come to then. -/
theorem Yields.shows {origin : String} {changes covered : List Change} {event : Tree}
    {worker changed : Worker} {journal : Journal}
    (yields : Yields worker.kind.name origin changes event covered)
    (named : ∀ change ∈ covered, change.version ≠ "")
    (shows : Shows origin changes worker)
    (applied : worker.apply event = .ok (changed, journal)) : Shows origin covered changed := by
  cases yields with
  | @put resource putting described =>
      obtain ⟨members, isObject⟩ := Resource.members?_of_ofObject? described
      have read : Event.ofTree? worker.kind.name event = some (.put resource) := by
        rw [Event.ofTree?_put putting (Resource.section?_of_members isObject), ← isObject, described]
        rfl
      have advanced : resource.version ≠ "" := named (.put resource) (by simp)
      rw [Worker.apply_of_read read] at applied
      cases applied
      constructor
      · rw [versionAfter_concat, Worker.advance, if_neg advanced]
        rfl
      · intro key
        rw [Snapshot.get?_put, stateAfter_concat, shows.objects]
        rfl
  | @delete resource removing described =>
      obtain ⟨members, isObject⟩ := Resource.members?_of_ofObject? described
      have read : Event.ofTree? worker.kind.name event = some (.remove resource) := by
        rw [Event.ofTree?_remove removing (Resource.section?_of_members isObject), ← isObject,
          described]
        rfl
      have advanced : resource.version ≠ "" := named (.delete resource) (by simp)
      rw [Worker.apply_of_read read] at applied
      cases applied
      constructor
      · rw [versionAfter_concat, Worker.advance, if_neg advanced]
        rfl
      · intro key
        rw [Snapshot.get?_erase, stateAfter_concat, shows.objects]
        rfl
  | bookmark marking carried =>
      have read : Event.ofTree? worker.kind.name event =
          some (.bookmark (versionAfter origin changes)) :=
        Event.ofTree?_bookmark_of_lookup marking carried
      rw [Worker.apply_of_read read] at applied
      cases applied
      constructor
      · rw [Worker.advance, shows.version, ite_self]
      · exact shows.objects
  | failure failing =>
      obtain ⟨fault, failed⟩ := Worker.apply_eq_error_iff.mpr (.failure failing)
      rw [failed] at applied
      cases applied

namespace ChangeFeed

variable {timing : Timing} {around : Surroundings σ} {kind space : String}
  (feed : ChangeFeed around kind space)

/-- The worker shows a prefix of the log. -/
def Current (situation : Situation σ) (changes : List Change) : Prop :=
  changes <+: feed.log situation.surroundings ∧ Shows feed.origin changes situation.worker

/-- What ties a worker to the log at each stage. An event that is to be delivered counts as covered by
the stream and is not yet shown. -/
def Standing (situation : Situation σ) : LifeStage → Prop
  | .watching (.streaming _ _ _) => feed.Current situation (feed.covered situation.surroundings)
  | .watching (.delivering _ _ event) =>
      feed.covered situation.surroundings <+: feed.log situation.surroundings ∧
        ∃ changes, feed.Current situation changes ∧
          Yields kind feed.origin changes event (feed.covered situation.surroundings)
  | .watching _ => ∃ changes, feed.Current situation changes
  | _ => .relisted ∈ situation.history → ∃ changes, feed.Current situation changes

variable {feed} {situation later : Situation σ} {changes : List Change}

theorem Current.carried (current : feed.Current situation changes)
    (grown : feed.log situation.surroundings <+: feed.log later.surroundings)
    (version : later.worker.version = situation.worker.version)
    (snapshot : later.worker.snapshot = situation.worker.snapshot) :
    feed.Current later changes := by
  obtain ⟨shown, shows⟩ := current
  refine ⟨shown.trans grown, ?_, ?_⟩
  · rw [version]
    exact shows.version
  · rw [snapshot]
    exact shows.objects

theorem Standing.of_watching {stage : WatchStage} (standing : feed.Standing situation (.watching stage)) :
    ∃ changes, feed.Current situation changes := by
  cases stage with
  | streaming deadline remaining heard => exact ⟨_, standing⟩
  | delivering deadline remaining event =>
      obtain ⟨_, changes, current, _⟩ := standing
      exact ⟨changes, current⟩
  | _ => exact standing

theorem Standing.current {stage : LifeStage} (standing : feed.Standing situation stage)
    (relisted : .relisted ∈ situation.history) : ∃ changes, feed.Current situation changes := by
  cases stage with
  | watching stage => exact standing.of_watching
  | _ => exact standing relisted

/-- A step outside a watch that neither relists nor touches the version and the snapshot. -/
theorem Standing.carried {stage reached : LifeStage} (standing : feed.Standing situation stage)
    (outside : ∀ stage, reached ≠ .watching stage)
    (grown : feed.log situation.surroundings <+: feed.log later.surroundings)
    (version : later.worker.version = situation.worker.version)
    (snapshot : later.worker.snapshot = situation.worker.snapshot)
    (recorded : .relisted ∈ later.history → .relisted ∈ situation.history) :
    feed.Standing later reached := by
  have held : .relisted ∈ later.history → ∃ changes, feed.Current later changes := by
    intro relisted
    obtain ⟨changes, current⟩ := standing.current (recorded relisted)
    exact ⟨changes, current.carried grown version snapshot⟩
  cases reached with
  | watching stage => exact absurd rfl (outside stage)
  | _ => exact held

private theorem Standing.advanced {stage reached : WatchStage} {added : List Activity}
    (ofKind : situation.worker.kind.name = kind) (ofSpace : situation.worker.space = space)
    (standing : feed.Standing situation (.watching stage))
    (advances : Watch.Advances timing around situation stage added later reached)
    (grown : feed.log situation.surroundings <+: feed.log later.surroundings) :
    feed.Standing later (.watching reached) := by
  subst ofKind ofSpace
  obtain ⟨changes, current⟩ := standing.of_watching
  cases advances with
  | dated read => exact ⟨changes, current.carried grown rfl rfl⟩
  | continued polled => exact ⟨changes, current.carried grown rfl rfl⟩
  | @opened deadline now seconds after read late timed =>
      have shown := current.1.trans (feed.grows _ _ (.of_clock read))
      have covered := feed.opens seconds shown
      rw [← current.2.version] at covered
      change feed.Current _ (feed.covered (around.watch _ _ seconds after))
      rw [covered]
      exact current.carried grown rfl rfl
  | received yielded =>
      obtain ⟨yields, covered⟩ := feed.yields yielded
      exact ⟨covered, _, Current.carried standing grown rfl rfl, yields⟩
  | ended yielded => exact ⟨changes, current.carried grown rfl rfl⟩
  | empty yielded => exact ⟨changes, current.carried grown rfl rfl⟩
  | applied polled applied =>
      obtain ⟨covered, delivered, ⟨shown, shows⟩, yields⟩ := standing
      have kept := feed.waits situation.surroundings
      rw [polled] at kept
      have named : ∀ change ∈ feed.covered situation.surroundings, change.version ≠ "" :=
        fun change member =>
          (feed.wellVersioned situation.surroundings).named change (covered.subset member)
      refine ⟨?_, ?_⟩
      · rw [kept]
        exact covered.trans grown
      · rw [kept]
        exact yields.shows named shows applied
  | paused => exact ⟨changes, current.carried grown rfl rfl⟩

theorem Standing.step {stage reached : LifeStage} {added : List Activity}
    (ofKind : situation.worker.kind.name = kind) (ofSpace : situation.worker.space = space)
    (standing : feed.Standing situation stage)
    (transition : Life.Transition timing around situation stage added later reached) :
    feed.Standing later reached := by
  have carried : ∀ before after, around.Leads before after →
      feed.log situation.surroundings <+: feed.log before →
      feed.log situation.surroundings <+: feed.log after :=
    fun before after leads held => held.trans (feed.grows before after leads)
  have grown := transition.carries carried (List.prefix_refl _)
  cases transition with
  | stopped polled => exact standing.carried (by simp) grown rfl rfl (by simp)
  | asked polled => exact standing.carried (by simp) grown rfl rfl (by simp)
  | unanswered answered => exact standing.carried (by simp) grown rfl rfl id
  | relisted answered read =>
      rw [ofSpace] at answered
      rw [ofKind] at read
      obtain ⟨changes, shown, lists⟩ := feed.lists answered
      exact ⟨changes, shown, .adopted lists read _⟩
  | advanced advances => exact standing.advanced ofKind ofSpace advances grown
  | returned returns => exact standing.carried (by simp) grown rfl rfl id
  | failed fails => exact standing.carried (by simp) grown rfl rfl (by simp)
  | backedOff => exact standing.carried (by simp) grown rfl rfl (by simp)
  | finished => exact standing

end ChangeFeed

namespace Course

theorem standing (course : Course σ)
    (feed : ChangeFeed course.around course.initial.kind.name course.initial.space) (steps : Nat) :
    feed.Standing (course.situation steps) (course.stage steps) := by
  induction steps with
  | zero =>
      intro begun
      change .relisted ∈ course.history 0 at begun
      simp [history_zero] at begun
  | succ steps ih =>
      obtain ⟨kind, space⟩ := course.worker_identity steps
      exact ih.step (congrArg ResourceKind.name kind) space (course.transition steps)

/-- From the first relist on, and whatever happens to its requests, a worker shows exactly one prefix of
the log: its version names that prefix and no other, and under every key its snapshot holds what the
prefix leads to. -/
theorem shows_named_prefix (course : Course σ)
    (feed : ChangeFeed course.around course.initial.kind.name course.initial.space)
    (steps : Nat) (relisted : .relisted ∈ course.history steps) :
    ∃ changes, changes <+: feed.log (course.surroundings steps) ∧
      versionAfter feed.origin changes = (course.worker steps).version ∧
      (∀ other, other <+: feed.log (course.surroundings steps) →
        versionAfter feed.origin other = (course.worker steps).version → other = changes) ∧
      ∀ key, (course.worker steps).snapshot.get? key = stateAfter changes key := by
  obtain ⟨changes, shown, shows⟩ := (course.standing feed steps).current relisted
  refine ⟨changes, shown, shows.version.symm, ?_, shows.objects⟩
  intro other otherShown named
  exact (feed.wellVersioned _).prefix_unique otherShown shown (named.trans shows.version)

end Course

/-! A namespace in which one object is put, a second one is put, and the first is deleted. -/

namespace ThreeChanges

def resource (name version : String) : Resource :=
  ⟨"virtual_service", "mesh", name, .object [("hosts", .list [.text name])], version⟩

def object (resource : Resource) : Tree :=
  .object [
    ("metadata", .object [("namespace", .text resource.space), ("name", .text resource.name),
      ("resourceVersion", .text resource.version)]),
    ("spec", resource.spec)]

def log : List Change :=
  [.put (resource "reviews" "5"), .put (resource "ratings" "6"), .delete (resource "reviews" "7")]

def event : Change → Tree
  | .put resource => .object [("type", .text "ADDED"), ("object", object resource)]
  | .delete resource => .object [("type", .text "DELETED"), ("object", object resource)]

/-- The state counts the changes that the open stream has come to. Every listing shows the first. -/
def surroundings : Surroundings Nat where
  stopping count := (false, count)
  clock count := (0.0, count)
  list _ count := (some (.ok ⟨[object (resource "reviews" "5")], "5"⟩), count)
  watch _ version _ _ :=
    if version = "5" then 1 else if version = "6" then 2 else if version = "7" then 3 else 0
  next count :=
    match log[count]? with
    | none => (.ended, count)
    | some change => (.event (event change), count + 1)
  pause _ count := count

def course : Course Nat :=
  ⟨{}, surroundings, { kind := .virtualService, space := "mesh" }, 0⟩

private theorem lists_first :
    Lists "virtual_service" "0" (log.take 1) ⟨[object (resource "reviews" "5")], "5"⟩ := by
  refine ⟨rfl, [resource "reviews" "5"], rfl, by simp, ?_⟩
  intro held
  have after : stateAfter (log.take 1) held.key =
      if held.key = (resource "reviews" "5").key then some (resource "reviews" "5") else none := rfl
  rw [List.mem_singleton, after]
  constructor
  · intro same
    subst same
    rfl
  · intro found
    split at found
    · exact (Option.some.inj found).symm
    · cases found

private theorem opens_at {changes : List Change} (shown : changes <+: log) :
    log.take (surroundings.watch "mesh" (versionAfter "0" changes) 60 0) = changes := by
  have taken := List.prefix_iff_eq_take.mp shown
  have bounded : changes.length ≤ 3 := shown.length_le
  rw [taken]
  generalize changes.length = count at bounded
  match count, bounded with
  | 0, _ => rfl
  | 1, _ => rfl
  | 2, _ => rfl
  | 3, _ => rfl

def feed : ChangeFeed surroundings "virtual_service" "mesh" where
  origin := "0"
  log _ := log
  covered count := log.take count
  wellVersioned _ := ⟨by decide, by decide⟩
  grows _ _ _ := List.prefix_refl _
  lists answered := by
    cases answered
    exact ⟨_, List.take_prefix 1 log, lists_first⟩
  opens _ shown := opens_at shown
  yields {count after event} yielded := by
    refine ⟨?_, List.take_prefix _ _⟩
    match count with
    | 0 =>
        cases yielded
        exact .put (.inl rfl) rfl
    | 1 =>
        cases yielded
        exact .put (.inl rfl) rfl
    | 2 =>
        cases yielded
        exact .delete rfl rfl
    | count + 3 => cases yielded
  waits _ := rfl

theorem shows_all_changes :
    .relisted ∈ course.history 9 ∧ (course.worker 9).version = "7" ∧
      ∃ changes, changes <+: log ∧ versionAfter "0" changes = (course.worker 9).version ∧
        (∀ other, other <+: log → versionAfter "0" other = (course.worker 9).version →
          other = changes) ∧
        ∀ key, (course.worker 9).snapshot.get? key = stateAfter changes key := by
  have relisted : .relisted ∈ course.history 9 := List.mem_of_getElem? (i := 2) rfl
  exact ⟨relisted, rfl, course.shows_named_prefix feed 9 relisted⟩

end ThreeChanges
end MeshGauges
