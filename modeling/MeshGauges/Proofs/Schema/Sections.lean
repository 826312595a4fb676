import MeshGauges.Proofs.Schema.Thinning
import MeshGauges.Schema.DestinationRule
import MeshGauges.Schema.VirtualService

/-! Sections of a spec and the families that show them.

What a row depends on can be read off its family: the gates and lists that decide whether there is such a
row, and the trees that its labels read. A member that stands beside all of these is ignored, so specs
that differ in it alone have the same rows in the family (`FamilySchema.rows_of_changedAt`). Each section
of a destination rule, and of a route of a virtual service, is ignored by every family but the one that
shows it (`Catalog.sections_confined`). -/

set_option autoImplicit false

namespace MeshGauges

/-- Whether neither of two paths leads along the other. -/
def Path.Apart (first second : Path) : Prop := ¬ first <+: second ∧ ¬ second <+: first

instance (first second : Path) : Decidable (first.Apart second) := inferInstanceAs (Decidable (_ ∧ _))

theorem Tree.lookupFirst_congr {tree other : Tree} {paths : List Path}
    (same : ∀ path ∈ paths, other.lookup path = tree.lookup path) :
    other.lookupFirst paths = tree.lookupFirst paths := by
  induction paths with
  | nil => rfl
  | cons path others ih =>
      obtain ⟨first, remaining⟩ := List.forall_mem_cons.mp same
      rw [lookupFirst, lookupFirst, first, ih remaining]

/-! ### What labels read -/

namespace LabelSource

/-- The paths that a label reads, each with its scope. -/
def readings : LabelSource → List (String × Path)
  | .value scope paths _ => paths.map (scope, ·)
  | .loadBalancer scope policy _ => [(scope, policy ++ ["loadBalancer"])]
  | .instanceReference scope _ => [(scope, []), ("resource", ["namespace"])]

/-- The places in a spec that a label reads. -/
def shownPaths (places : Places) (source : LabelSource) : List Path :=
  source.readings.filterMap fun (scope, path) => places.along scope path

/-- Scopes that are alike where a label reads them give it the same text. -/
theorem text_of_readings (source : LabelSource) {before after : Scopes}
    (same : ∀ scope path, (scope, path) ∈ source.readings → after.read scope path = before.read scope path) :
    source.text after = source.text before := by
  cases source with
  | value scope paths form =>
      have found : (after.root scope).lookupFirst paths = (before.root scope).lookupFirst paths :=
        Tree.lookupFirst_congr fun path member => same scope path (List.mem_map_of_mem member)
      rw [text, text, found]
  | loadBalancer scope policy facet =>
      rw [text, text, same scope _ (List.mem_singleton_self _)]
  | instanceReference scope facet =>
      have reference : after.root scope = before.root scope := same scope [] List.mem_cons_self
      have space := same "resource" ["namespace"] (List.mem_cons_of_mem _ (List.mem_singleton_self _))
      rw [text, text, reference, space]

end LabelSource

section Thinned

variable {removed : Path} {places : Places} {before after : Scopes}

theorem Thinned.read_eq (thinned : Thinned removed places before after) {scope : String} {path : Path}
    (apart : ∀ place ∈ places.along scope path, removed.Apart place) :
    after.read scope path = before.read scope path := by
  have read := thinned.read scope path fun place member => (apart place member).1
  have whole : leftover removed (places.along scope path) = [] := by
    cases along : places.along scope path with
    | none => rfl
    | some place => exact Path.beyond_eq_nil (apart place along).2
  rw [read, whole, Tree.without_nil]

theorem LabelSource.text_of_thinned (source : LabelSource) (thinned : Thinned removed places before after)
    (apart : ∀ path ∈ source.shownPaths places, removed.Apart path) :
    source.text after = source.text before :=
  source.text_of_readings fun scope path member => thinned.read_eq fun place along =>
    apart place (List.mem_filterMap.mpr ⟨(scope, path), member, along⟩)

end Thinned

/-! ### What families read -/

namespace FamilySchema

variable {schema : FamilySchema} {removed : Path}

/-- The places in a spec that the labels of a family read. -/
def shownPaths (schema : FamilySchema) : List Path :=
  schema.labels.flatMap fun label => label.source.shownPaths (schema.fanOut.foldl Places.bind .start)

/-- Whether a member is ignored: nothing that decides about rows stands in it, and no label shows it, or
anything in it, or a tree that it is a part of. -/
def Ignores (schema : FamilySchema) (removed : Path) : Prop :=
  (∀ path ∈ schema.decisivePaths, ¬ removed <+: path) ∧ ∀ path ∈ schema.shownPaths, removed.Apart path

instance (schema : FamilySchema) (removed : Path) : Decidable (schema.Ignores removed) :=
  inferInstanceAs (Decidable (_ ∧ _))

theorem row_of_thinned {before after : Scopes} (ignores : schema.Ignores removed)
    (thinned : Thinned removed (schema.fanOut.foldl Places.bind .start) before after) :
    schema.row after = schema.row before :=
  schema.row_congr fun label member => label.source.text_of_thinned thinned fun path shown =>
    ignores.2 path (List.mem_flatMap.mpr ⟨label, member, shown⟩)

theorem rows_without (ignores : schema.Ignores removed) (resource : Resource) :
    schema.rows (.ofResource { resource with spec := resource.spec.without removed }) =
      schema.rows (.ofResource resource) := by
  have thinned := thinned_ofResource removed resource
  have leaves := thinned.forall₂_expand fun path member => ignores.1 path (List.mem_append_right _ member)
  exact schema.rows_congr (isPresent_of_thinned thinned ignores.1) leaves fun _ _ leaf =>
    row_of_thinned ignores leaf

/-- Specs that differ in an ignored member alone have the same rows. -/
theorem rows_of_changedAt (ignores : schema.Ignores removed) {resource : Resource} {spec : Tree}
    (changed : resource.spec.ChangedAt removed spec) :
    schema.rows (.ofResource { resource with spec := spec }) = schema.rows (.ofResource resource) := by
  have own := rows_without ignores resource
  have other := rows_without ignores { resource with spec := spec }
  -- without the member both are the same spec
  simp only [changed.without_eq] at other
  exact other.symm.trans own

end FamilySchema

/-! ### Sections -/

namespace ResourceSchema

variable {schema : ResourceSchema} {path : Path}

/-- The rows of a resource but for those of one family. -/
def rowsBeside (schema : ResourceSchema) (family : FamilySchema) (resource : Resource) : List Row :=
  (schema.extract resource).filter fun row => row.family ≠ family.family

/-- Whether a change of the member at a path changes the rows of no family but one. -/
def Confines (schema : ResourceSchema) (path : Path) (family : FamilySchema) : Prop :=
  ∀ (resource : Resource) (spec : Tree), resource.spec.ChangedAt path spec →
    schema.rowsBeside family { resource with spec := spec } = schema.rowsBeside family resource

/-- Whether a path that leads to the member of that name, or goes on in it, is read by some family. -/
def Names (schema : ResourceSchema) (parent : Path) (name : String) : Prop :=
  ∃ family ∈ schema.families, ∃ path ∈ family.decisivePaths ++ family.shownPaths, parent ++ [name] <+: path

instance (schema : ResourceSchema) (parent : Path) (name : String) : Decidable (schema.Names parent name) :=
  inferInstanceAs (Decidable (∃ _ ∈ _, ∃ _ ∈ _, _))

theorem rowsBeside_eq (schema : ResourceSchema) (family : FamilySchema) (resource : Resource) :
    schema.rowsBeside family resource =
      (schema.families.filter fun other => other.family ≠ family.family).flatMap fun other =>
        other.rows (.ofResource resource) := by
  rw [rowsBeside, extract]
  exact FamilySchema.filter_flatMap schema.families (fun other => other ≠ family.family) _

theorem confines_of_ignores {family : FamilySchema}
    (ignores : ∀ other ∈ schema.families, other.family ≠ family.family → other.Ignores path) :
    schema.Confines path family := by
  intro resource spec changed
  rw [rowsBeside_eq, rowsBeside_eq]
  refine List.flatMap_congr fun other member => ?_
  obtain ⟨listed, apart⟩ := List.mem_filter.mp member
  exact FamilySchema.rows_of_changedAt (ignores other listed (by simpa using apart)) changed

/-- A member that no path names is ignored by every family, unless a label shows its parent. -/
theorem extract_of_not_names {parent : Path} {name : String} (unnamed : ¬ schema.Names parent name)
    (parentHidden : ∀ family ∈ schema.families, ∀ path ∈ family.shownPaths, ¬ path <+: parent)
    {resource : Resource} {spec : Tree} (changed : resource.spec.ChangedAt (parent ++ [name]) spec) :
    schema.extract { resource with spec := spec } = schema.extract resource := by
  refine List.flatMap_congr fun family listed => FamilySchema.rows_of_changedAt ⟨?_, ?_⟩ changed
  · intro path decides along
    exact unnamed ⟨family, listed, path, List.mem_append_left _ decides, along⟩
  · intro path shown
    have beside : ¬ parent ++ [name] <+: path := fun along =>
      unnamed ⟨family, listed, path, List.mem_append_right _ shown, along⟩
    refine ⟨beside, fun along => ?_⟩
    rcases List.prefix_concat_iff.mp along with same | above
    · exact beside (same ▸ List.prefix_rfl)
    · exact parentHidden family listed path shown above

end ResourceSchema

/-- A part of a spec, and the family that shows it. -/
structure SpecSection where
  path : Path
  family : FamilySchema

namespace DestinationRule

def sections : List SpecSection :=
  [⟨["host"], host⟩, ⟨["subsets"], subset⟩,
   ⟨trafficPolicy ++ ["loadBalancer"], loadBalancer⟩,
   ⟨trafficPolicy ++ ["connectionPool"], connectionPool⟩,
   ⟨trafficPolicy ++ ["outlierDetection"], outlierDetection⟩,
   ⟨trafficPolicy ++ ["tls"], transportSecurity⟩,
   ⟨trafficPolicy ++ ["portLevelSettings"], portLevelSettings⟩]

end DestinationRule

namespace VirtualService

/-- The members of a route that the policy of the route is made of. -/
def policyMembers : List String :=
  ["timeout", "retries", "redirect", "rewrite", "mirror", "websocketUpgrade", "websocket_upgrade"]

def routeSections (protocol : String) (matchInfo routeInfo : FamilySchema) : List SpecSection :=
  ⟨[protocol, "match"], matchInfo⟩ :: ⟨[protocol, "route"], routeInfo⟩ ::
    policyMembers.map fun name => ⟨[protocol, name], httpRoutePolicy⟩

def sections : List SpecSection :=
  routeSections "http" httpMatch httpRoute ++ routeSections "tcp" tcpMatch tcpRoute

end VirtualService

namespace Catalog

/-- A change of a section changes the rows of its own family alone, and a change of a member that no
schema path names, in the spec or in the traffic policy of a destination rule, changes no row. -/
theorem sections_confined :
    (∀ part ∈ DestinationRule.sections, DestinationRule.schema.Confines part.path part.family) ∧
    (∀ parent ∈ [[], DestinationRule.trafficPolicy], ∀ name, ¬ DestinationRule.schema.Names parent name →
      ∀ (resource : Resource) (spec : Tree), resource.spec.ChangedAt (parent ++ [name]) spec →
        DestinationRule.schema.extract { resource with spec := spec } =
          DestinationRule.schema.extract resource) ∧
    (∀ part ∈ VirtualService.sections, VirtualService.schema.Confines part.path part.family) := by
  refine ⟨fun part member => ?policy, fun parent member name unnamed resource spec changed => ?unnamed,
    fun part member => ?route⟩
  case policy =>
    have ignores : ∀ part ∈ DestinationRule.sections, ∀ other ∈ DestinationRule.schema.families,
        other.family ≠ part.family.family → other.Ignores part.path := by decide +kernel
    exact ResourceSchema.confines_of_ignores (ignores part member)
  case unnamed =>
    have hidden : ∀ parent ∈ [[], DestinationRule.trafficPolicy],
        ∀ family ∈ DestinationRule.schema.families, ∀ path ∈ family.shownPaths, ¬ path <+: parent := by
      decide +kernel
    exact ResourceSchema.extract_of_not_names unnamed (hidden parent member) changed
  case route =>
    have ignores : ∀ part ∈ VirtualService.sections, ∀ other ∈ VirtualService.schema.families,
        other.family ≠ part.family.family → other.Ignores part.path := by decide +kernel
    exact ResourceSchema.confines_of_ignores (ignores part member)

namespace ChangedSections

def mutualTls : Tree := .object [("mode", .text "MUTUAL")]

def random : Tree := .object [("simple", .text "RANDOM")]

def secured : Tree := .object
  [("host", .text "reviews"), ("trafficPolicy", .object [("tls", mutualTls), ("loadBalancer", random)])]

def unsecured : Tree := .object
  [("host", .text "reviews"), ("trafficPolicy", .object [("loadBalancer", random)])]

def exported : Tree := .object
  [("host", .text "reviews"), ("exportTo", .list [.text "mesh"]),
   ("trafficPolicy", .object [("tls", mutualTls), ("loadBalancer", random)])]

def rule (spec : Tree) : Resource := ⟨"destination_rule", "mesh", "reviews", spec, "1"⟩

def matching (ports : List Int) : Tree := .object
  [("timeout", .text "2s"), ("match", .list (ports.map fun port => .object [("port", .integer port)]))]

def routed : Tree := .object [("http", .list [matching [80], matching [81]])]

def rerouted : Tree := .object [("http", .list [matching [80], matching [82, 83]])]

def service (spec : Tree) : Resource := ⟨"virtual_service", "mesh", "reviews", spec, "1"⟩

/-- Transport security is taken away, a member is added that nothing reads, and the second of two routes
gets another match. -/
theorem others_unchanged :
    (secured.ChangedAt ["trafficPolicy", "tls"] unsecured ∧
      DestinationRule.schema.rowsBeside DestinationRule.transportSecurity (rule unsecured) =
        DestinationRule.schema.rowsBeside DestinationRule.transportSecurity (rule secured) ∧
      (DestinationRule.schema.extract (rule secured)).length =
        (DestinationRule.schema.extract (rule unsecured)).length + 1) ∧
    (¬ DestinationRule.schema.Names [] "exportTo" ∧ secured.ChangedAt ["exportTo"] exported ∧
      DestinationRule.schema.extract (rule exported) = DestinationRule.schema.extract (rule secured)) ∧
    (routed.ChangedAt ["http", "match"] rerouted ∧
      VirtualService.schema.rowsBeside VirtualService.httpMatch (service rerouted) =
        VirtualService.schema.rowsBeside VirtualService.httpMatch (service routed) ∧
      (VirtualService.schema.extract (service rerouted)).length =
        (VirtualService.schema.extract (service routed)).length + 1) := by
  have taken : secured.ChangedAt ["trafficPolicy", "tls"] unsecured :=
    .inside [("host", _)] [] (.member (some mutualTls) none [] [("loadBalancer", random)])
  have added : secured.ChangedAt ["exportTo"] exported :=
    .member none (some (.list [.text "mesh"])) [("host", _)] [("trafficPolicy", _)]
  have unnamed : ¬ DestinationRule.schema.Names [] "exportTo" := by decide +kernel
  have rewritten : routed.ChangedAt ["http", "match"] rerouted :=
    .inside [] [] (.item [matching [80]] [] (.member (some _) (some _) [("timeout", _)] []))
  have security : ⟨["trafficPolicy", "tls"], DestinationRule.transportSecurity⟩ ∈ DestinationRule.sections := by
    simp [DestinationRule.sections, DestinationRule.trafficPolicy]
  have matchInfo : ⟨["http", "match"], VirtualService.httpMatch⟩ ∈ VirtualService.sections :=
    List.mem_cons_self
  exact ⟨⟨taken, sections_confined.1 _ security (rule secured) unsecured taken, by decide⟩,
    ⟨unnamed, added, sections_confined.2.1 [] List.mem_cons_self "exportTo" unnamed (rule secured) exported added⟩,
    ⟨rewritten, sections_confined.2.2 _ matchInfo (service routed) rerouted rewritten, by decide⟩⟩

end ChangedSections
end Catalog
end MeshGauges
