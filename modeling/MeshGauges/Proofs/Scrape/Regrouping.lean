import MeshGauges.Proofs.Scrape.Production

/-! Rows under the families of any registered collectors.

Rows are put under a family by the name of that family alone, and the families of a scrape are those of
every registered collector. A row is therefore served once for each collector that declares its family:
none is ever lost, and the rows that are served are the rows of the scrape exactly where no family of a
row is declared by two collectors. Names keep collectors apart, but two names may stand for one kind of
resource, and then every row of that kind is repeated (`SharedKind`). -/

set_option autoImplicit false

namespace MeshGauges

namespace Exposition

theorem count_rowsOf (rows : List Row) (family : Family) (row : Row) :
    (rowsOf rows family).count row = if family.name = row.family.name then rows.count row else 0 := by
  by_cases named : family.name = row.family.name
  · rw [if_pos named, rowsOf, List.count_filter (by simp [named])]
  · rw [if_neg named, List.count_eq_zero]
    exact fun member => named (mem_rowsOf_iff.mp member).2.symm

theorem count_flatMap_rowsOf (families : List Family) (rows : List Row) (row : Row) :
    (families.flatMap (rowsOf rows)).count row =
      (families.map Family.name).count row.family.name * rows.count row := by
  induction families with
  | nil => simp
  | cons family rest ih =>
      rw [List.flatMap_cons, List.count_append, count_rowsOf, ih, List.map_cons, List.count_cons]
      by_cases named : family.name = row.family.name
      · simp [named, Nat.add_mul, Nat.add_comm]
      · simp [named]

end Exposition

namespace Catalog

def schemas : List ResourceSchema := entries.map CatalogEntry.schema

variable {schema other : ResourceSchema} {family : Family}

theorem mem_schemas_iff : schema ∈ schemas ↔
    schema = DestinationRule.schema ∨ schema = MixerRule.schema ∨ schema = VirtualService.schema := by
  simp [schemas, entries]

theorem nodup_family_names_of_mem_schemas (listed : schema ∈ schemas) :
    (schema.metricFamilies.map Family.name).Nodup := by
  obtain ⟨entry, entryListed, rfl⟩ := List.mem_map.mp listed
  have single : [entry] ⊆ entries := by simpa using entryListed
  have alone : ([entry].map CatalogEntry.name).Nodup := List.nodup_singleton entry.name
  simpa using nodup_family_names_of_subset alone single

theorem eq_of_family_name_eq {declared : Family} (listed : schema ∈ schemas)
    (member : family ∈ schema.metricFamilies) (otherListed : other ∈ schemas)
    (otherMember : declared ∈ other.metricFamilies) (named : declared.name = family.name) :
    declared = family := by
  obtain ⟨entry, entryListed, rfl⟩ := List.mem_map.mp listed
  obtain ⟨otherEntry, otherEntryListed, rfl⟩ := List.mem_map.mp otherListed
  exact List.inj_on_of_nodup_map nodup_family_names
    (List.mem_flatMap.mpr ⟨otherEntry, otherEntryListed, otherMember⟩)
    (List.mem_flatMap.mpr ⟨entry, entryListed, member⟩) named

theorem count_family_name (listed : schema ∈ schemas) (member : family ∈ schema.metricFamilies)
    (otherListed : other ∈ schemas) :
    (other.metricFamilies.map Family.name).count family.name =
      if family ∈ other.metricFamilies then 1 else 0 := by
  rw [(nodup_family_names_of_mem_schemas otherListed).count]
  refine if_congr ⟨fun named => ?_, List.mem_map_of_mem⟩ rfl rfl
  obtain ⟨declared, otherMember, named⟩ := List.mem_map.mp named
  rwa [← eq_of_family_name_eq listed member otherListed otherMember named]

theorem kind_eq_of_mem_metricFamilies (listed : schema ∈ schemas) (otherListed : other ∈ schemas)
    (member : family ∈ schema.metricFamilies) (otherMember : family ∈ other.metricFamilies) :
    schema.kind = other.kind := by
  have apart : ∀ entry ∈ entries, ∀ otherEntry ∈ entries, ∀ family ∈ entry.schema.metricFamilies,
      family ∈ otherEntry.schema.metricFamilies → entry.schema.kind = otherEntry.schema.kind := by
    decide +kernel
  obtain ⟨entry, entryListed, rfl⟩ := List.mem_map.mp listed
  obtain ⟨otherEntry, otherEntryListed, rfl⟩ := List.mem_map.mp otherListed
  exact apart entry entryListed otherEntry otherEntryListed family member otherMember

end Catalog

namespace Coordinator

def served (coordinator : Coordinator) : List Row := coordinator.collect.2.flatMap Prod.snd

def declarers (coordinator : Coordinator) (family : Family) : Nat :=
  coordinator.collectors.countP fun collector => family ∈ collector.families

def Catalogued (coordinator : Coordinator) : Prop :=
  ∀ collector ∈ coordinator.collectors, collector.schema ∈ Catalog.schemas

variable {coordinator : Coordinator}

theorem count_family_name_flatMap {collectors : List Collector} {schema : ResourceSchema} {family : Family}
    (catalogued : ∀ collector ∈ collectors, collector.schema ∈ Catalog.schemas)
    (listed : schema ∈ Catalog.schemas) (member : family ∈ schema.metricFamilies) :
    ((collectors.flatMap Collector.families).map Family.name).count family.name =
      collectors.countP fun collector => family ∈ collector.families := by
  induction collectors with
  | nil => rfl
  | cons collector rest ih =>
      have single : (collector.families.map Family.name).count family.name =
          if family ∈ collector.families then 1 else 0 :=
        Catalog.count_family_name listed member (catalogued collector (by simp))
      have later := ih fun other later => catalogued other (List.mem_cons_of_mem _ later)
      rw [List.flatMap_cons, List.map_append, List.count_append, single, later, List.countP_cons,
        Nat.add_comm]
      simp

theorem catalogued_iff : coordinator.Catalogued ↔ ∀ entry ∈ coordinator.makeup, entry.2 ∈ Catalog.schemas := by
  simp [Catalogued, makeup]

theorem Catalogued.perform (catalogued : coordinator.Catalogued) {operation : Operation}
    (registered : ∀ collector, operation = .register collector → collector.schema ∈ Catalog.schemas) :
    (coordinator.perform operation).Catalogued := by
  cases operation with
  | register collector =>
      by_cases taken : collector.name ∈ coordinator.names
      · simpa [Coordinator.perform, Coordinator.register, taken] using catalogued
      · intro other member
        simp only [Coordinator.perform, Coordinator.register, taken, if_false, List.mem_append,
          List.mem_singleton] at member
        rcases member with earlier | rfl
        · exact catalogued other earlier
        · exact registered other rfl
  | replaceResources name resources =>
      rw [catalogued_iff] at catalogued ⊢
      rwa [Coordinator.perform, replaceResources, makeup_updateSupply]
  | setFault name fault =>
      rw [catalogued_iff] at catalogued ⊢
      rwa [Coordinator.perform, setFault, makeup_updateSupply]
  | scrape => exact catalogued
  | collect => exact catalogued

theorem Catalogued.run (catalogued : coordinator.Catalogued) {operations : List Operation}
    (registered : ∀ collector, .register collector ∈ operations → collector.schema ∈ Catalog.schemas) :
    (coordinator.run operations).Catalogued := by
  induction operations generalizing coordinator with
  | nil => exact catalogued
  | cons operation later ih =>
      refine ih (catalogued.perform ?_) ?_
      · rintro collector rfl
        exact registered collector (by simp)
      · exact fun collector member => registered collector (List.mem_cons_of_mem _ member)

theorem Catalogued.count_family_name (catalogued : coordinator.Catalogued) {family : Family}
    (declared : family ∈ coordinator.families) :
    (coordinator.families.map Family.name).count family.name = coordinator.declarers family := by
  obtain ⟨declarer, registered, declared⟩ := List.mem_flatMap.mp declared
  exact count_family_name_flatMap catalogued (catalogued declarer registered) declared

theorem one_le_declarers {row : Row} (member : row ∈ coordinator.scrape.2.rows) :
    1 ≤ coordinator.declarers row.family := by
  obtain ⟨collector, registered, declared⟩ := List.mem_flatMap.mp (family_mem_of_mem_rows member)
  exact List.countP_pos_iff.mpr ⟨collector, registered, by simpa using declared⟩

theorem Catalogued.declarers_le_one (catalogued : coordinator.Catalogued) (family : Family)
    (distinct : (coordinator.collectors.map Collector.resource).Nodup) :
    coordinator.declarers family ≤ 1 := by
  rcases Nat.eq_zero_or_pos (coordinator.declarers family) with none | some
  · exact none ▸ Nat.zero_le 1
  · obtain ⟨declarer, registered, declared⟩ := List.countP_pos_iff.mp some
    have declared : family ∈ declarer.families := by simpa using declared
    -- whoever declares the family has the kind of this declarer, and kinds are distinct
    calc coordinator.declarers family
        ≤ coordinator.collectors.countP (fun collector => collector.resource = declarer.resource) := by
          refine List.countP_mono_left fun collector member also => ?_
          have also : family ∈ collector.families := by simpa using also
          exact decide_eq_true (Catalog.kind_eq_of_mem_metricFamilies (catalogued collector member)
            (catalogued declarer registered) also declared)
      _ = (coordinator.collectors.map Collector.resource).count declarer.resource := by
          rw [List.count, List.countP_map]
          rfl
      _ ≤ 1 := List.nodup_iff_count_le_one.mp distinct _

/-- What is served of the rows of a scrape. Nothing is lost, and a row is repeated for every further
collector that declares its family; so the rows are served as they are exactly where every family of a
row has one collector, which is the case where no two collectors share a kind. -/
structure Regroups (coordinator : Coordinator) : Prop where
  kept : coordinator.scrape.2.rows.Subperm coordinator.served
  copies : ∀ row, coordinator.served.count row =
    coordinator.declarers row.family * coordinator.scrape.2.rows.count row
  perm_iff : coordinator.served.Perm coordinator.scrape.2.rows ↔
    ∀ row ∈ coordinator.scrape.2.rows, coordinator.declarers row.family = 1
  perm_of_nodup : (coordinator.collectors.map Collector.resource).Nodup →
    coordinator.served.Perm coordinator.scrape.2.rows

theorem Catalogued.count_served (catalogued : coordinator.Catalogued) (row : Row) :
    coordinator.served.count row =
      coordinator.declarers row.family * coordinator.scrape.2.rows.count row := by
  rw [served, collect_rows, Exposition.count_flatMap_rowsOf]
  by_cases member : row ∈ coordinator.scrape.2.rows
  · rw [catalogued.count_family_name (family_mem_of_mem_rows member)]
  · rw [List.count_eq_zero.mpr member, Nat.mul_zero, Nat.mul_zero]

theorem Catalogued.served_perm_iff (catalogued : coordinator.Catalogued) :
    coordinator.served.Perm coordinator.scrape.2.rows ↔
      ∀ row ∈ coordinator.scrape.2.rows, coordinator.declarers row.family = 1 := by
  rw [List.perm_iff_count]
  refine forall_congr' fun row => ?_
  rw [catalogued.count_served]
  by_cases member : row ∈ coordinator.scrape.2.rows
  · have positive := List.count_pos_iff.mpr member
    rw [Nat.mul_eq_right (Nat.ne_of_gt positive)]
    simp [member]
  · simp [member, List.count_eq_zero.mpr member]

theorem Catalogued.regroups (catalogued : coordinator.Catalogued) : coordinator.Regroups where
  kept := by
    rw [List.subperm_ext_iff]
    intro row member
    rw [catalogued.count_served]
    exact Nat.le_mul_of_pos_left _ (one_le_declarers member)
  copies := catalogued.count_served
  perm_iff := catalogued.served_perm_iff
  perm_of_nodup distinct := by
    refine catalogued.served_perm_iff.mpr fun row member => ?_
    exact Nat.le_antisymm (catalogued.declarers_le_one row.family distinct) (one_le_declarers member)

/-- However collectors of the catalog are registered, supplied and broken, a scrape serves its rows once
for each collector that declares their family. -/
theorem regroups_after (operations : List Operation)
    (registered : ∀ collector, .register collector ∈ operations → collector.schema ∈ Catalog.schemas) :
    (({} : Coordinator).run operations).Regroups := by
  have catalogued : ({} : Coordinator).Catalogued := fun _ member => absurd member List.not_mem_nil
  exact (catalogued.run registered).regroups

end Coordinator

/-! A rule beside a destination rule, and a second collector for the kind of the first. -/

namespace SharedKind

open Coordinator

def quota : Resource := ⟨"rule", "mesh", "quota", .object [], "1"⟩

def reviews : Resource := ⟨"destination_rule", "mesh", "reviews", .object [("host", .text "reviews")], "2"⟩

def apart : List Operation :=
  [.register ⟨"rules", MixerRule.schema, { resources := [quota] }⟩,
   .register ⟨"destinationrules", DestinationRule.schema, { resources := [reviews] }⟩,
   .setFault "rules" (some "lost"), .collect, .setFault "rules" none]

/-- A collector that has no resources of its own, beside another one of its kind. -/
def shared : List Operation :=
  [.register ⟨"rules", MixerRule.schema, { resources := [quota] }⟩,
   .register ⟨"spare", MixerRule.schema, {}⟩]

theorem serves_kinds_apart :
    (({} : Coordinator).run apart).names = ["rules", "destinationrules"] ∧
      (({} : Coordinator).run apart).scrape.2.rows.map Row.labels =
        [["quota", "mesh"], ["reviews.mesh", "mesh"], ["reviews.mesh", "reviews"]] ∧
      (({} : Coordinator).run apart).served.Perm (({} : Coordinator).run apart).scrape.2.rows := by
  refine ⟨rfl, rfl, (regroups_after apart ?_).perm_of_nodup (by decide)⟩
  intro collector member
  simp only [apart, List.mem_cons, Operation.register.injEq, reduceCtorEq, List.not_mem_nil, or_false]
    at member
  rcases member with rfl | rfl
  · exact Catalog.mem_schemas_iff.mpr (.inr (.inl rfl))
  · exact Catalog.mem_schemas_iff.mpr (.inl rfl)

/-- Both registrations succeed, and the row of the first collector is served twice. -/
theorem repeats_row_of_shared_kind :
    (({} : Coordinator).run shared).names = ["rules", "spare"] ∧
      (({} : Coordinator).run shared).scrape.2.rows.map Row.labels = [["quota", "mesh"]] ∧
      (({} : Coordinator).run shared).served.map Row.labels = [["quota", "mesh"], ["quota", "mesh"]] ∧
      ¬ (({} : Coordinator).run shared).served.Perm (({} : Coordinator).run shared).scrape.2.rows := by
  refine ⟨rfl, rfl, rfl, fun same => ?_⟩
  have lengths := same.length_eq
  exact absurd lengths (by decide)

end SharedKind
end MeshGauges
