import MeshGauges.Proofs.Scrape.Accounting
import MeshGauges.Proofs.Schema.Expansion

/-! Rows under their families.

Where the families of a coordinator have distinct names, a scrape repeats nothing: every row is put
under its own family and nowhere else, and no two samples have both the family's name and the label
texts in common. -/

set_option autoImplicit false

namespace MeshGauges

theorem ResourceSchema.family_mem_of_mem_extract {schema : ResourceSchema} {resource : Resource} {row : Row}
    (member : row ∈ schema.extract resource) : row.family ∈ schema.metricFamilies := by
  obtain ⟨family, declared, member⟩ := List.mem_flatMap.mp member
  rw [FamilySchema.family_of_mem_rows member]
  exact List.mem_map_of_mem declared

namespace Collector

variable {collector : Collector} {collectors : List Collector} {row : Row}

theorem family_mem_of_mem_fullRows (member : row ∈ collector.fullRows) :
    row.family ∈ collector.families := by
  have extracted := (keepFirst_sublist [] _).subset member
  obtain ⟨resource, _, extracted⟩ := List.mem_flatMap.mp extracted
  exact ResourceSchema.family_mem_of_mem_extract extracted

theorem nodup_identities_fullRows (collector : Collector) :
    (collector.fullRows.map Row.identity).Nodup :=
  nodup_identities_keepFirst _

theorem family_mem_of_mem_workingRows (member : row ∈ workingRows collectors) :
    row.family ∈ collectors.flatMap Collector.families := by
  obtain ⟨collector, working, member⟩ := List.mem_flatMap.mp member
  exact List.mem_flatMap.mpr
    ⟨collector, (List.mem_filter.mp working).1, family_mem_of_mem_fullRows member⟩

/-- Rows of two collectors differ in the name of the family, rows of one collector in their identity. -/
theorem nodup_identities_workingRows
    (distinct : ((collectors.flatMap Collector.families).map Family.name).Nodup) :
    ((workingRows collectors).map Row.identity).Nodup := by
  induction collectors with
  | nil => exact List.nodup_nil
  | cons collector rest ih =>
      rw [List.flatMap_cons, List.map_append] at distinct
      obtain ⟨_, later, apart⟩ := List.nodup_append.mp distinct
      rw [workingRows_cons, List.map_append, List.nodup_append]
      refine ⟨?_, ih later, ?_⟩
      · split
        · exact nodup_identities_fullRows collector
        · exact List.nodup_nil
      · intro first here second there same
        obtain ⟨row, member, rfl⟩ := List.mem_map.mp here
        obtain ⟨other, otherMember, rfl⟩ := List.mem_map.mp there
        have own : row.family ∈ collector.families := by
          split at member
          · exact family_mem_of_mem_fullRows member
          · cases member
        have foreign := family_mem_of_mem_workingRows otherMember
        exact apart _ (List.mem_map_of_mem own) _ (List.mem_map_of_mem foreign) (congrArg Prod.fst same)

end Collector

namespace Exposition

variable {families : List Family} {rows : List Row}

theorem mem_rowsOf_iff {family : Family} {row : Row} :
    row ∈ rowsOf rows family ↔ row ∈ rows ∧ row.family.name = family.name := by
  simp [rowsOf]

/-- Putting rows under families of distinct names neither loses nor repeats a row. -/
theorem flatMap_rowsOf_perm (distinct : (families.map Family.name).Nodup)
    (covered : ∀ row ∈ rows, row.family ∈ families) : (families.flatMap (rowsOf rows)).Perm rows := by
  induction families generalizing rows with
  | nil =>
      have empty : rows = [] := List.eq_nil_iff_forall_not_mem.mpr fun row member => by
        simpa using covered row member
      rw [empty]
      exact .nil
  | cons family rest ih =>
      obtain ⟨absent, distinct⟩ := List.nodup_cons.mp distinct
      -- the families after the first find their rows among those that are not under the first
      have others : rest.flatMap (rowsOf rows) =
          rest.flatMap (rowsOf (rows.filter fun row => !(row.family.name == family.name))) := by
        refine List.flatMap_congr fun other member => ?_
        rw [rowsOf, rowsOf, List.filter_filter]
        refine List.filter_congr fun row _ => ?_
        by_cases named : row.family.name = other.name
        · have apart : other.name ≠ family.name := by
            rintro same
            exact absent (same ▸ List.mem_map_of_mem member)
          simp [named, apart]
        · simp [named]
      rw [List.flatMap_cons, others]
      refine (List.Perm.append_left _ (ih distinct ?_)).trans (List.filter_append_perm _ rows)
      intro row member
      obtain ⟨held, apart⟩ := List.mem_filter.mp member
      rcases List.mem_cons.mp (covered row held) with same | later
      · simp [same] at apart
      · exact later

end Exposition

namespace Coordinator

open Collector

/-- What a scrape is served as: the name of the family and the label texts, for each row under it. -/
def samples (coordinator : Coordinator) : List (String × List String) :=
  coordinator.collect.2.flatMap fun entry => entry.2.map fun row => (entry.1.name, row.labels)

/-- A scrape serves each of some families once and in this order, with every row under its own family
and nowhere else, and repeats no sample. -/
structure ServesOnce (coordinator : Coordinator) (families : List Family) : Prop where
  listed : coordinator.collect.2.map Prod.fst = families
  distinct : (families.map Family.name).Nodup
  placed : (coordinator.collect.2.flatMap Prod.snd).Perm coordinator.scrape.2.rows
  once : ∀ row ∈ coordinator.scrape.2.rows, (coordinator.collect.2.flatMap Prod.snd).count row = 1
  own : ∀ entry ∈ coordinator.collect.2, ∀ row,
    row ∈ entry.2 ↔ row ∈ coordinator.scrape.2.rows ∧ row.family = entry.1
  samples : coordinator.samples.Nodup

variable {coordinator : Coordinator}

theorem family_mem_of_mem_rows {row : Row} (member : row ∈ coordinator.scrape.2.rows) :
    row.family ∈ coordinator.families := by
  rw [rows_scrape] at member
  exact family_mem_of_mem_workingRows member

theorem collect_families (coordinator : Coordinator) :
    coordinator.collect.2.map Prod.fst = coordinator.families := by
  simp [collect, Exposition.grouped, Function.comp_def]

theorem collect_rows (coordinator : Coordinator) :
    coordinator.collect.2.flatMap Prod.snd =
      coordinator.families.flatMap (Exposition.rowsOf coordinator.scrape.2.rows) := by
  simp [collect, Exposition.grouped, List.flatMap_map]

theorem samples_eq (coordinator : Coordinator) :
    coordinator.samples = (coordinator.collect.2.flatMap Prod.snd).map Row.identity := by
  rw [samples, List.map_flatMap]
  refine List.flatMap_congr fun entry member => ?_
  obtain ⟨family, _, rfl⟩ := List.mem_map.mp member
  refine List.map_congr_left fun row under => ?_
  rw [Row.identity, (Exposition.mem_rowsOf_iff.mp under).2]

theorem servesOnce_of_nodup (distinct : (coordinator.families.map Family.name).Nodup) :
    coordinator.ServesOnce coordinator.families := by
  have placed : (coordinator.collect.2.flatMap Prod.snd).Perm coordinator.scrape.2.rows := by
    rw [collect_rows]
    exact Exposition.flatMap_rowsOf_perm distinct fun row => family_mem_of_mem_rows
  have identities : (coordinator.scrape.2.rows.map Row.identity).Nodup := by
    rw [rows_scrape]
    exact nodup_identities_workingRows distinct
  refine ⟨collect_families coordinator, distinct, placed, ?_, ?_, ?_⟩
  · intro row member
    rw [placed.count_eq]
    exact List.count_eq_one_of_mem identities.of_map member
  · intro entry member row
    obtain ⟨family, declared, rfl⟩ := List.mem_map.mp member
    rw [Exposition.mem_rowsOf_iff]
    refine and_congr_right fun held => ⟨fun named => ?_, congrArg Family.name⟩
    exact List.inj_on_of_nodup_map distinct (family_mem_of_mem_rows held) declared named
  · rw [samples_eq, (placed.map Row.identity).nodup_iff]
    exact identities

end Coordinator
end MeshGauges
