import MeshGauges.Exporter
import MeshGauges.Proofs.Scrape.Grouping
import MeshGauges.Proofs.Settings.Refusal
import Mathlib.Data.List.Flatten
import Mathlib.Data.List.Perm.Subperm

/-! Scrapes of an exporter as it is built.

The families of the catalog have distinct names, and a selection takes each collector once, however
often and in whatever order it is named. What a collector is made of never changes afterwards. So every
scrape of an exporter serves each enabled family once and repeats no sample, whatever its replicas hold,
also when several of their workers hold the same object. -/

set_option autoImplicit false

namespace MeshGauges

namespace Catalog

/-- The collectors that names enable: each once, in the order of first mention, or all of them. -/
def enabled (wanted : List String) : List String :=
  if wanted = [] then names else wanted.eraseDups

/-- The families of the collector of a name, in the order of its schema. -/
def familiesOf (name : String) : List Family :=
  match entry? name with
  | none => []
  | some entry => entry.schema.metricFamilies

theorem nodup_names : names.Nodup := by decide

theorem nodup_family_names :
    ((entries.flatMap fun entry => entry.schema.metricFamilies).map Family.name).Nodup := by
  decide +kernel

theorem entry?_name {entry : CatalogEntry} (listed : entry ∈ entries) : entry? entry.name = some entry := by
  simp only [entries, List.mem_cons, List.not_mem_nil, or_false] at listed
  rcases listed with rfl | rfl | rfl <;> rfl

theorem mem_of_entry?_eq_some {name : String} {entry : CatalogEntry} (found : entry? name = some entry) :
    entry ∈ entries ∧ entry.name = name := by
  refine ⟨List.mem_of_find?_eq_some found, ?_⟩
  simpa using List.find?_some found

structure Selects (selected : List CatalogEntry) (mentioned : List String) : Prop where
  names : selected.map CatalogEntry.name = mentioned.eraseDups
  listed : selected ⊆ entries

variable {selected after : List CatalogEntry} {mentioned wanted : List String} {name : String}

theorem Selects.addCollector (selects : Selects selected mentioned)
    (added : addCollector selected name = .ok after) : Selects after (mentioned ++ [name]) := by
  have present_iff : (selected.any fun other => other.name == name) ↔ name ∈ mentioned := by
    rw [← List.mem_eraseDups, ← selects.names]
    simp
  rw [Catalog.addCollector] at added
  cases found : entry? name with
  | none =>
      rw [found] at added
      cases added
  | some entry =>
      obtain ⟨listed, named⟩ := mem_of_entry?_eq_some found
      simp only [found, present_iff] at added
      by_cases present : name ∈ mentioned
      · rw [if_pos present, Except.ok.injEq] at added
        subst added
        refine ⟨?_, selects.listed⟩
        rw [eraseDups_concat, if_pos present, selects.names]
      · rw [if_neg present, Except.ok.injEq] at added
        subst added
        refine ⟨?_, List.append_subset.mpr ⟨selects.listed, by simpa using listed⟩⟩
        rw [eraseDups_concat, if_neg present, List.map_append, selects.names, List.map_singleton, named]

theorem Selects.foldlM_addCollector (selects : Selects selected mentioned)
    (added : wanted.foldlM Catalog.addCollector selected = .ok after) :
    Selects after (mentioned ++ wanted) :=
  foldlM_keeps Selects.addCollector selects added

theorem selects_of_select (accepted : select wanted = .ok selected) :
    selected.map CatalogEntry.name = enabled wanted ∧ selected ⊆ entries := by
  obtain ⟨found, named, accepted⟩ := bind_eq_ok_iff.mp accepted
  have same : (if found.isEmpty then entries else found) = selected := Except.ok.inj accepted
  have selects : Selects found ([] ++ wanted) :=
    Selects.foldlM_addCollector ⟨rfl, List.nil_subset _⟩ named
  rw [List.nil_append] at selects
  by_cases none : wanted = []
  · subst none
    cases named
    obtain rfl := same
    exact ⟨rfl, List.Subset.refl _⟩
  · have some : found ≠ [] := by
      rintro rfl
      exact none (eraseDups_eq_nil_iff.mp selects.names.symm)
    rw [if_neg (by simpa using some)] at same
    subst same
    rw [enabled, if_neg none]
    exact ⟨selects.names, selects.listed⟩

theorem mem_names_iff : name ∈ names ↔ ∃ entry, entry? name = some entry := by
  constructor
  · intro member
    obtain ⟨entry, listed, rfl⟩ := List.mem_map.mp member
    exact ⟨entry, entry?_name listed⟩
  · rintro ⟨entry, found⟩
    obtain ⟨listed, rfl⟩ := mem_of_entry?_eq_some found
    exact List.mem_map_of_mem listed

theorem addCollector_eq_ok (known : name ∈ names) (selected : List CatalogEntry) :
    ∃ after, Catalog.addCollector selected name = .ok after := by
  obtain ⟨entry, found⟩ := mem_names_iff.mp known
  rw [Catalog.addCollector, found]
  dsimp only
  split
  · exact ⟨selected, rfl⟩
  · exact ⟨selected ++ [entry], rfl⟩

/-- A selection is accepted when every name in it is that of a collector. -/
theorem select_eq_ok_iff : (∃ selected, select wanted = .ok selected) ↔ ∀ name ∈ wanted, name ∈ names := by
  constructor
  · rintro ⟨selected, accepted⟩ name member
    obtain ⟨named, listed⟩ := selects_of_select accepted
    have present : name ∈ selected.map CatalogEntry.name := by
      rw [named, enabled, if_neg (List.ne_nil_of_mem member), List.mem_eraseDups]
      exact member
    exact List.map_subset _ listed present
  · intro known
    obtain ⟨selected, found⟩ := foldlM_eq_ok (fun name member => addCollector_eq_ok (known name member)) []
    rw [select, found]
    exact ⟨_, rfl⟩

theorem nodup_enabled (wanted : List String) : (enabled wanted).Nodup := by
  rw [enabled]
  split
  · exact nodup_names
  · exact nodup_eraseDups wanted

theorem enabled_ne_nil (wanted : List String) : enabled wanted ≠ [] := by
  rw [enabled]
  split
  · decide
  · next some => exact mt eraseDups_eq_nil_iff.mp some

theorem flatMap_familiesOf (listed : selected ⊆ entries) :
    (selected.map CatalogEntry.name).flatMap familiesOf =
      selected.flatMap fun entry => entry.schema.metricFamilies := by
  rw [List.flatMap_map]
  refine List.flatMap_congr fun entry member => ?_
  rw [familiesOf, entry?_name (listed member)]

/-- Whatever is selected from the catalog without repetition has families of distinct names. -/
theorem nodup_family_names_of_subset (distinct : (selected.map CatalogEntry.name).Nodup)
    (listed : selected ⊆ entries) :
    ((selected.flatMap fun entry => entry.schema.metricFamilies).map Family.name).Nodup := by
  obtain ⟨ordered, reordered, within⟩ := List.subperm_of_subset distinct.of_map listed
  have apart := nodup_family_names.sublist ((within.flatMap _).map _)
  exact ((reordered.flatMap_right _).map _).nodup_iff.mp apart

end Catalog

namespace Exporter

theorem makeup_supplied (exporter : Exporter) :
    exporter.supplied.makeup = exporter.coordinator.makeup := by
  rw [supplied]
  generalize exporter.coordinator = coordinator
  induction exporter.replicas generalizing coordinator with
  | nil => rfl
  | cons entry rest ih =>
      rw [List.foldl_cons, ih]
      exact coordinator.makeup_updateSupply entry.1 _

inductive Operation where
  | perform (kind : String) (index : Nat) (operation : Worker.Operation)
  | relistAll (listings : String → Listings)
  | scrape
  | expose

def step (exporter : Exporter) : Operation → Exporter
  | .perform kind index operation => (exporter.perform kind index operation).1
  | .relistAll listings => (exporter.relistAll listings).1
  | .scrape => exporter.scrape.1
  | .expose => exporter.expose.1

def run (exporter : Exporter) (operations : List Operation) : Exporter :=
  operations.foldl step exporter

def withWorkers (exporter : Exporter) (workers : String → List Worker) : Exporter :=
  { exporter with
    replicas := exporter.replicas.map fun (name, replica) =>
      (name, { replica with workers := workers name }) }

theorem makeup_step (exporter : Exporter) (operation : Operation) :
    (exporter.step operation).coordinator.makeup = exporter.coordinator.makeup := by
  cases operation with
  | perform kind index operation => rfl
  | relistAll listings => rfl
  | scrape => exact exporter.makeup_supplied
  | expose => exact exporter.makeup_supplied

theorem makeup_run (exporter : Exporter) (operations : List Operation) :
    (exporter.run operations).coordinator.makeup = exporter.coordinator.makeup := by
  induction operations generalizing exporter with
  | nil => rfl
  | cons operation later ih => exact (ih (exporter.step operation)).trans (exporter.makeup_step operation)

theorem build_of_select {settings : Settings} {selected : List CatalogEntry}
    (accepted : Catalog.select settings.collectors = .ok selected) :
    ∃ built journal, build settings = .ok (built, journal) ∧
      built.coordinator.makeup = selected.map fun entry => (entry.name, entry.schema) := by
  rw [build, accepted]
  refine ⟨_, _, rfl, ?_⟩
  simp [Coordinator.makeup, Function.comp_def]

/-- Every selection that is accepted leads to an exporter, and every scrape of that exporter serves the
enabled families once, in the order of selection and of the schemas. -/
theorem serves_once_of_select {settings : Settings} {selected : List CatalogEntry}
    (accepted : Catalog.select settings.collectors = .ok selected) :
    ∃ built journal, build settings = .ok (built, journal) ∧
      ∀ (workers : String → List Worker) (operations : List Operation),
        ((built.withWorkers workers).run operations).supplied.names =
            Catalog.enabled settings.collectors ∧
          ((built.withWorkers workers).run operations).supplied.ServesOnce
            ((Catalog.enabled settings.collectors).flatMap Catalog.familiesOf) := by
  obtain ⟨built, journal, succeeds, made⟩ := build_of_select accepted
  obtain ⟨named, listed⟩ := Catalog.selects_of_select accepted
  refine ⟨built, journal, succeeds, fun workers operations => ?_⟩
  have makeup : ((built.withWorkers workers).run operations).supplied.makeup =
      selected.map fun entry => (entry.name, entry.schema) := by
    rw [makeup_supplied, makeup_run]
    exact made
  have families : ((built.withWorkers workers).run operations).supplied.families =
      selected.flatMap fun entry => entry.schema.metricFamilies := by
    rw [Coordinator.families_eq_makeup, makeup, List.flatMap_map]
  constructor
  · rw [Coordinator.names_eq_makeup, makeup, List.map_map]
    exact named
  · rw [← named, Catalog.flatMap_familiesOf listed, ← families]
    refine Coordinator.servesOnce_of_nodup ?_
    rw [families]
    exact Catalog.nodup_family_names_of_subset (named ▸ Catalog.nodup_enabled _) listed

end Exporter

/-! A rule that two workers of one replica hold, in an exporter whose collector is named twice. -/

namespace SharedRule

def rule : Resource := ⟨"rule", "mesh", "quota", .object [], "1"⟩

def workers (_ : String) : List Worker :=
  ["mesh", "edge"].map fun space =>
    { kind := .mixerRule, space := space, snapshot := .ofList [rule] }

def settings : Settings := { collectors := ["rules", "rules"], namespaces := ["mesh", "edge"] }

theorem serves_rule_once :
    ∃ built journal, Exporter.build settings = .ok (built, journal) ∧
      (built.withWorkers workers).supplied.scrape.2.rows.map Row.labels = [["quota", "mesh"]] ∧
      (built.withWorkers workers).supplied.names = ["rules"] ∧
      (built.withWorkers workers).supplied.ServesOnce (Catalog.familiesOf "rules") := by
  have accepted : Catalog.select settings.collectors =
      .ok [⟨"rules", .mixerRule, MixerRule.schema⟩] := rfl
  obtain ⟨built, journal, succeeds, serves⟩ := Exporter.serves_once_of_select accepted
  obtain ⟨named, once⟩ := serves workers []
  refine ⟨built, journal, succeeds, ?_, named, once⟩
  cases succeeds
  rfl

end SharedRule
end MeshGauges
