import MeshGauges.Catalog
import MeshGauges.Proofs.Schema.Thinning

/-! Fields that are joined into one label.

Lists of plain values and maps of pairs are joined, so whatever stands in such a field, and whether it is
there at all, the family has the same number of rows: no joined field stands above what decides about
rows. -/

set_option autoImplicit false

namespace MeshGauges

def Form.joins : Form → Bool
  | .joined | .pairs | .headerMatches => true
  | .scalar | .duration => false

def LabelSource.joinedPaths (places : Places) : LabelSource → List Path
  | .value scope paths form => if form.joins then paths.filterMap (places.along scope) else []
  | .loadBalancer .. | .instanceReference .. => []

def FamilySchema.joinedPaths (schema : FamilySchema) : List Path :=
  schema.labels.flatMap fun label => label.source.joinedPaths (schema.fanOut.foldl Places.bind .start)

/-- The fields that some family of a schema joins and that are no list of this family's own fan-out. -/
def ResourceSchema.joinedBeside (schema : ResourceSchema) (family : FamilySchema) : List Path :=
  (schema.families.flatMap FamilySchema.joinedPaths).filter fun path =>
    path ∉ fanOutPaths family.fanOut .start

namespace FamilySchema

variable {schema : FamilySchema} {removed : Path}

theorem length_rows_without (resource : Resource)
    (unreached : ∀ path ∈ schema.decisivePaths, ¬ removed <+: path) :
    (schema.rows (.ofResource { resource with spec := resource.spec.without removed })).length =
      (schema.rows (.ofResource resource)).length := by
  have thinned := thinned_ofResource removed resource
  rw [length_rows, length_rows, isPresent_of_thinned thinned unreached,
    thinned.length_expand fun path member => unreached path (List.mem_append_right _ member)]

theorem length_rows_withoutAll (resource : Resource) {hidden : List Path}
    (unreached : ∀ removed ∈ hidden, ∀ path ∈ schema.decisivePaths, ¬ removed <+: path) :
    (schema.rows (.ofResource { resource with spec := resource.spec.withoutAll hidden })).length =
      (schema.rows (.ofResource resource)).length := by
  induction hidden generalizing resource with
  | nil => rfl
  | cons removed others ih =>
      have later := ih { resource with spec := resource.spec.without removed }
        fun other member => unreached other (List.mem_cons_of_mem _ member)
      exact later.trans (length_rows_without resource (unreached removed List.mem_cons_self))

end FamilySchema

/-- In the catalog nothing that is joined stands above a list that is fanned out, or above a section. -/
theorem Catalog.joined_unreached {entry : CatalogEntry} (listed : entry ∈ Catalog.entries)
    {family : FamilySchema} (member : family ∈ entry.schema.families) :
    ∀ removed ∈ entry.schema.joinedBeside family, ∀ path ∈ family.decisivePaths, ¬ removed <+: path := by
  have unreached : ∀ entry ∈ Catalog.entries, ∀ family ∈ entry.schema.families,
      ∀ removed ∈ entry.schema.joinedBeside family, ∀ path ∈ family.decisivePaths, ¬ removed <+: path := by
    decide +kernel
  exact unreached entry listed family member

/-- Specs that agree apart from joined fields have the same number of rows in a family. -/
theorem Catalog.length_rows_of_joined {entry : CatalogEntry} (listed : entry ∈ Catalog.entries)
    {family : FamilySchema} (member : family ∈ entry.schema.families) (resource : Resource) {spec : Tree}
    (agree : spec.withoutAll (entry.schema.joinedBeside family) =
      resource.spec.withoutAll (entry.schema.joinedBeside family)) :
    (family.rows (.ofResource { resource with spec := spec })).length =
      (family.rows (.ofResource resource)).length := by
  have unreached := joined_unreached listed member
  -- both are counted by the spec that is left when the joined fields are removed
  have other := FamilySchema.length_rows_withoutAll { resource with spec := spec } unreached
  have own := FamilySchema.length_rows_withoutAll resource unreached
  simp only [agree] at other
  exact other.symm.trans own

example : DestinationRule.schema.joinedBeside DestinationRule.subset =
    [["trafficPolicy", "tls", "subjectAltNames"],
     ["trafficPolicy", "portLevelSettings", "tls", "subjectAltNames"], ["subsets", "labels"]] := by
  decide +kernel

example : MixerRule.schema.joinedBeside MixerRule.actions = [["actions", "instances"]] ∧
    MixerRule.schema.joinedBeside MixerRule.instanceInfo = [] := by
  decide +kernel

end MeshGauges
