import MeshGauges.Proofs.Schema.Expansion
import MeshGauges.Proofs.Scrape.Distinct
import MeshGauges.Schema.DestinationRule
import MeshGauges.Schema.VirtualService

/-! Rows of different resources.

Every row of a destination rule begins with its qualified name, every row of a virtual service with its
name and namespace. Where a namespace has no dot, the last dot of a qualified name ends the name, so the
resources of a list that have different keys have no identity of a row in common. Leaving out repeated
rows is then a matter of each resource alone. -/

set_option autoImplicit false

namespace MeshGauges

/-! ### Qualified names -/

theorem append_cons_inj_of_not_mem {α : Type} {first second before after : List α} {mark : α}
    (before_free : mark ∉ before) (after_free : mark ∉ after)
    (same : first ++ mark :: before = second ++ mark :: after) : first = second ∧ before = after := by
  -- were one of the firsts longer, its mark would stand in what follows the other's
  rcases List.append_eq_append_iff.mp same with ⟨between, rfl, rest⟩ | ⟨between, rfl, rest⟩
  · cases between with
    | nil => simpa using rest
    | cons head between =>
        have held : mark ∈ before := by
          rw [(List.cons.inj rest).2]
          simp
        exact absurd held before_free
  · cases between with
    | nil => simpa [eq_comm] using rest
    | cons head between =>
        have held : mark ∈ after := by
          rw [(List.cons.inj rest).2]
          simp
        exact absurd held after_free

namespace Resource

/-- The namespace of a resource has no dot, as those of a cluster. -/
def HasPlainSpace (resource : Resource) : Prop := '.' ∉ resource.space.toList

theorem key_eq_of_qualifiedName_eq {resource other : Resource} (plain : resource.HasPlainSpace)
    (otherPlain : other.HasPlainSpace) (same : resource.qualifiedName = other.qualifiedName) :
    resource.key = other.key := by
  have characters : resource.name.toList ++ '.' :: resource.space.toList =
      other.name.toList ++ '.' :: other.space.toList := by
    simpa [qualifiedName, String.toList_append] using congrArg String.toList same
  obtain ⟨names, spaces⟩ := append_cons_inj_of_not_mem plain otherPlain characters
  rw [key, key, String.toList_inj.mp names, String.toList_inj.mp spaces]

end Resource

/-! ### The labels that rows begin with -/

def Label.showsResource (label : Label) : Bool :=
  match label.source with
  | .value scope _ _ => scope == "resource"
  | .loadBalancer .. | .instanceReference .. => false

def marks (leading : List Label) (resource : Resource) : List String :=
  leading.map fun label => label.source.text (.ofResource resource)

/-- Every family of a schema has some labels about the resource first. -/
def ResourceSchema.LeadsWith (schema : ResourceSchema) (leading : List Label) : Prop :=
  (∀ label ∈ leading, label.showsResource) ∧
    ∀ family ∈ schema.families, leading <+: family.labels ∧ ∀ step ∈ family.fanOut, step.scope ≠ "resource"

theorem DestinationRule.schema_leadsWith : DestinationRule.schema.LeadsWith [DestinationRule.identity] := by
  unfold ResourceSchema.LeadsWith
  decide +kernel

theorem VirtualService.schema_leadsWith : VirtualService.schema.LeadsWith VirtualService.identity := by
  unfold ResourceSchema.LeadsWith
  decide +kernel

variable {schema : ResourceSchema} {leading : List Label} {resource other : Resource} {row : Row}

theorem text_of_showsResource {label : Label} {scopes later : Scopes} (shows : label.showsResource)
    (same : later.root "resource" = scopes.root "resource") :
    label.source.text later = label.source.text scopes := by
  cases source : label.source with
  | value scope paths form =>
      have named : scope = "resource" := by simpa [Label.showsResource, source] using shows
      rw [LabelSource.text, LabelSource.text, named, same]
  | loadBalancer scope policy facet => simp [Label.showsResource, source] at shows
  | instanceReference scope facet => simp [Label.showsResource, source] at shows

theorem ResourceSchema.LeadsWith.marks_prefix (leads : schema.LeadsWith leading)
    (member : row ∈ schema.extract resource) : marks leading resource <+: row.labels := by
  obtain ⟨shows, families⟩ := leads
  obtain ⟨family, declared, member⟩ := List.mem_flatMap.mp member
  obtain ⟨begins, free⟩ := families family declared
  rw [FamilySchema.rows] at member
  split at member
  · obtain ⟨leaf, reached, rfl⟩ := List.mem_map.mp member
    -- the fan-out binds scopes of its own, so a leaf still shows the resource it started from
    have same := root_of_mem_expand reached free
    have unchanged : marks leading resource = leading.map fun label => label.source.text leaf :=
      List.map_congr_left fun label listed => (text_of_showsResource (shows label listed) same).symm
    rw [unchanged]
    exact begins.map _
  · cases member

theorem ResourceSchema.LeadsWith.marks_eq (leads : schema.LeadsWith leading) {later : Row}
    (member : row ∈ schema.extract resource) (otherMember : later ∈ schema.extract other)
    (same : row.identity = later.identity) : marks leading resource = marks leading other := by
  have first := leads.marks_prefix member
  have second := leads.marks_prefix otherMember
  have labels : row.labels = later.labels := congrArg Prod.snd same
  rw [labels] at first
  exact (List.prefix_of_prefix_length_le first second (by simp [marks])).eq_of_length (by simp [marks])

/-! ### Lists of resources -/

namespace ResourceSchema

/-- The rows of one resource, each identity once. -/
def distinctRows (schema : ResourceSchema) (resource : Resource) : List Row :=
  (schema.extract resource).eraseDupsBy Row.sameIdentity

def RowsApart (schema : ResourceSchema) (resource other : Resource) : Prop :=
  ∀ row ∈ schema.extract resource, ∀ later ∈ schema.extract other, row.identity ≠ later.identity

/-- A collection is made of the rows of each resource on its own. -/
structure KeepsApart (schema : ResourceSchema) (resources : List Resource) : Prop where
  collected : ∀ name, Collector.collect ⟨name, schema, { resources := resources }⟩ =
    .ok ⟨resources.length, resources.flatMap schema.distinctRows⟩
  disjoint : resources.Pairwise schema.RowsApart
  removal : ∀ before resource after, resources = before ++ resource :: after →
    (Collector.collectFrom schema (before ++ after)).rows =
        before.flatMap schema.distinctRows ++ after.flatMap schema.distinctRows ∧
      (Collector.collectFrom schema resources).rows =
        before.flatMap schema.distinctRows ++ schema.distinctRows resource ++
          after.flatMap schema.distinctRows

variable {resources : List Resource}

theorem rows_collectFrom (disjoint : resources.Pairwise schema.RowsApart) :
    (Collector.collectFrom schema resources).rows = resources.flatMap schema.distinctRows := by
  rw [Collector.collectFrom, keepFirst_flatMap disjoint]
  refine List.flatMap_congr fun resource _ => ?_
  rw [keepFirst_eq_eraseDupsBy, distinctRows]
  simp

theorem LeadsWith.keepsApart (leads : schema.LeadsWith leading)
    (apart : resources.Pairwise fun resource other => marks leading resource ≠ marks leading other) :
    schema.KeepsApart resources := by
  have disjoint : resources.Pairwise schema.RowsApart := apart.imp fun different _ member _ otherMember same =>
    different (leads.marks_eq member otherMember same)
  refine ⟨fun name => ?_, disjoint, ?_⟩
  · rw [← rows_collectFrom disjoint]
    rfl
  · rintro before resource after rfl
    have rest : (before ++ after).Sublist (before ++ resource :: after) :=
      (List.sublist_cons_self resource after).append_left before
    rw [rows_collectFrom disjoint, rows_collectFrom (disjoint.sublist rest)]
    simp

end ResourceSchema

theorem VirtualService.keepsApart {resources : List Resource} (distinct : (resources.map Resource.key).Nodup) :
    VirtualService.schema.KeepsApart resources := by
  refine schema_leadsWith.keepsApart ((List.pairwise_map.mp distinct).imp ?_)
  intro resource other different same
  have texts : [resource.name, resource.space] = [other.name, other.space] := same
  obtain ⟨names, spaces⟩ : resource.name = other.name ∧ resource.space = other.space := by simpa using texts
  exact different (by rw [Resource.key, Resource.key, names, spaces])

theorem DestinationRule.keepsApart {resources : List Resource} (distinct : (resources.map Resource.key).Nodup)
    (plain : ∀ resource ∈ resources, resource.HasPlainSpace) :
    DestinationRule.schema.KeepsApart resources := by
  refine schema_leadsWith.keepsApart ((List.pairwise_map.mp distinct).imp_of_mem ?_)
  intro resource other member otherMember different same
  have names : resource.qualifiedName = other.qualifiedName := List.head_eq_of_cons_eq same
  exact different (Resource.key_eq_of_qualifiedName_eq (plain _ member) (plain _ otherMember) names)

/-- Resources with different keys do not take rows from each other. -/
theorem keepsApart_of_distinct_keys {resources : List Resource} (distinct : (resources.map Resource.key).Nodup)
    (plain : ∀ resource ∈ resources, resource.HasPlainSpace) :
    DestinationRule.schema.KeepsApart resources ∧ VirtualService.schema.KeepsApart resources :=
  ⟨DestinationRule.keepsApart distinct plain, VirtualService.keepsApart distinct⟩

/-! Names with dots, of which one begins like the qualified name of the other resource. -/

namespace DottedNames

def versioned : Resource :=
  ⟨"destination_rule", "mesh", "reviews.v1", .object [("subsets", .list [.null, .null])], "1"⟩

def plain : Resource := ⟨"destination_rule", "v1", "reviews", .object [], "2"⟩

theorem keepsApart_of_dotted_names :
    ([versioned, plain].map Resource.key).Nodup ∧
      DestinationRule.schema.KeepsApart [versioned, plain] ∧
      VirtualService.schema.KeepsApart [versioned, plain] ∧
      (DestinationRule.schema.extract versioned).length = 4 ∧
      ([versioned, plain].flatMap DestinationRule.schema.distinctRows).map Row.labels =
        [["reviews.v1.mesh", "mesh"], ["reviews.v1.mesh", ""], ["reviews.v1.mesh", "", ""],
         ["reviews.v1", "v1"], ["reviews.v1", ""]] := by
  have distinct : ([versioned, plain].map Resource.key).Nodup := by decide
  have spaces : ∀ resource ∈ [versioned, plain], resource.HasPlainSpace := by
    intro resource member
    simp only [List.mem_cons, List.not_mem_nil, or_false] at member
    rcases member with rfl | rfl
    · exact (by decide : '.' ∉ "mesh".toList)
    · exact (by decide : '.' ∉ "v1".toList)
  obtain ⟨destinationRules, virtualServices⟩ := keepsApart_of_distinct_keys distinct spaces
  exact ⟨distinct, destinationRules, virtualServices, rfl, by decide⟩

/-- Where a namespace has a dot the host `a.b.c` belongs to two rules, and the later row of it is left out. -/
example :
    (Collector.collectFrom DestinationRule.schema
        [⟨"destination_rule", "b.c", "a", .object [], "1"⟩,
         ⟨"destination_rule", "c", "a.b", .object [], "1"⟩]).rows.map Row.labels =
      [["a.b.c", "b.c"], ["a.b.c", ""], ["a.b.c", "c"]] := by
  decide

end DottedNames
end MeshGauges
