import MeshGauges.Proofs.Replica.Reading
import MeshGauges.Proofs.Schema.JoinedFields

/-! How many rows an object has.

The number of rows of each family is read off the spec of the object by the shape of the family alone:
one row for what every object has, one for a section that is there, one for each element of a list, and
one for each element of the lists inside the elements of a list. Shapes that the schema does not expect
are counted by the same rule, so there is no spec without a number. -/

set_option autoImplicit false

namespace MeshGauges

namespace DestinationRule

def counts (spec : Tree) : List (Family × Nat) :=
  let policy := spec.member "trafficPolicy"
  [(info.family, 1), (host.family, 1),
   (loadBalancer.family, (policy.member "loadBalancer").presence),
   (connectionPool.family, (policy.member "connectionPool").presence),
   (outlierDetection.family, (policy.member "outlierDetection").presence),
   (transportSecurity.family, (policy.member "tls").presence),
   (portLevelSettings.family, (policy.member "portLevelSettings").elementCount),
   (subset.family, (spec.member "subsets").elementCount)]

theorem length_rows_portLevelSettings (resource : Resource) :
    (portLevelSettings.rows (.ofResource resource)).length =
      ((resource.spec.member "trafficPolicy").member "portLevelSettings").elementCount := by
  rw [portLevelSettings.length_rows_of_gated_list resource rfl rfl]
  exact Tree.presence_mul_elementCount_member _ _

theorem map_family_extract (resource : Resource) :
    (schema.extract resource).map Row.family = familiesOf (counts resource.spec) := by
  rw [ResourceSchema.map_family_extract]
  refine congrArg familiesOf ?_
  simp only [schema, List.map_cons, List.map_nil,
    info.length_rows_of_plain resource rfl rfl, host.length_rows_of_plain resource rfl rfl,
    loadBalancer.length_rows_of_section resource rfl rfl,
    connectionPool.length_rows_of_section resource rfl rfl,
    outlierDetection.length_rows_of_section resource rfl rfl,
    transportSecurity.length_rows_of_section resource rfl rfl,
    length_rows_portLevelSettings, subset.length_rows_of_list resource rfl rfl]
  rfl

end DestinationRule

namespace VirtualService

def counts (spec : Tree) : List (Family × Nat) :=
  let http := spec.member "http"
  let tcp := spec.member "tcp"
  [(info.family, 1),
   (host.family, (spec.member "hosts").elementCount),
   (gateway.family, (spec.member "gateways").elementCount),
   (httpMatch.family, http.innerCount "match"), (httpRoute.family, http.innerCount "route"),
   (httpRoutePolicy.family, http.elementCount),
   (tcpMatch.family, tcp.innerCount "match"), (tcpRoute.family, tcp.innerCount "route")]

theorem map_family_extract (resource : Resource) :
    (schema.extract resource).map Row.family = familiesOf (counts resource.spec) := by
  rw [ResourceSchema.map_family_extract]
  refine congrArg familiesOf ?_
  simp only [schema, List.map_cons, List.map_nil,
    info.length_rows_of_plain resource rfl rfl, host.length_rows_of_list resource rfl rfl,
    gateway.length_rows_of_list resource rfl rfl,
    httpMatch.length_rows_of_inner_list resource rfl rfl,
    httpRoute.length_rows_of_inner_list resource rfl rfl,
    httpRoutePolicy.length_rows_of_list resource rfl rfl,
    tcpMatch.length_rows_of_inner_list resource rfl rfl,
    tcpRoute.length_rows_of_inner_list resource rfl rfl]
  rfl

end VirtualService

namespace MixerRule

def counts (spec : Tree) : List (Family × Nat) :=
  let actions := spec.member "actions"
  [(info.family, 1), (MixerRule.actions.family, actions.elementCount),
   (instanceInfo.family, actions.innerCount "instances")]

theorem map_family_extract (resource : Resource) :
    (schema.extract resource).map Row.family = familiesOf (counts resource.spec) := by
  rw [ResourceSchema.map_family_extract]
  refine congrArg familiesOf ?_
  simp only [schema, List.map_cons, List.map_nil,
    info.length_rows_of_plain resource rfl rfl, actions.length_rows_of_list resource rfl rfl,
    instanceInfo.length_rows_of_inner_list resource rfl rfl]
  rfl

end MixerRule

namespace Resource

variable {kind : String} {object : Tree} {resource : Resource}

theorem spec_of_ofObject? (described : ofObject? kind object = some resource) :
    resource.spec = (object.member "spec").orElse (.object []) := by
  rw [ofObject?] at described
  obtain ⟨_, _, described⟩ := Option.bind_eq_some_iff.mp described
  obtain ⟨_, _, described⟩ := Option.bind_eq_some_iff.mp described
  cases described
  rfl

/-- An object that describes a resource has the rows that its spec counts, in the order of the schema,
and what stands in a field that is joined changes none of the counts. -/
theorem extract_counted (described : ofObject? kind object = some resource) :
    (DestinationRule.schema.extract resource).map Row.family =
        familiesOf (DestinationRule.counts (object.member "spec")) ∧
      (VirtualService.schema.extract resource).map Row.family =
        familiesOf (VirtualService.counts (object.member "spec")) ∧
      (MixerRule.schema.extract resource).map Row.family =
        familiesOf (MixerRule.counts (object.member "spec")) ∧
      ∀ entry ∈ Catalog.entries, ∀ family ∈ entry.schema.families, ∀ spec : Tree,
        spec.withoutAll (entry.schema.joinedBeside family) =
          resource.spec.withoutAll (entry.schema.joinedBeside family) →
        (family.rows (.ofResource { resource with spec := spec })).length =
          (family.rows (.ofResource resource)).length := by
  -- a spec that counts as missing has no members, like the empty one that stands for it
  have members := Tree.member_orElse (object.member "spec")
  rw [← spec_of_ofObject? described] at members
  refine ⟨?_, ?_, ?_, ?_⟩
  · rw [DestinationRule.map_family_extract, DestinationRule.counts, members, members]
    rfl
  · simp only [VirtualService.map_family_extract, VirtualService.counts, members]
  · simp only [MixerRule.map_family_extract, MixerRule.counts, members]
  · intro entry listed family member spec agree
    exact Catalog.length_rows_of_joined listed member resource agree

end Resource

/-! An object whose lists are single values or hold nulls, and whose sections are partly empty. -/

namespace OddShapes

def routes : Tree :=
  .list [.object [("match", .list [.object [], .text "any"]), ("route", .object [])], .null, .text "all"]

def object : Tree := .object [("spec", .object
  [("trafficPolicy", .object
      [("loadBalancer", .object []), ("tls", .null),
       ("portLevelSettings", .list [.null, .object [("tls", .object [("subjectAltNames", .list [])])]])]),
   ("subsets", .text "stable"), ("hosts", .list []), ("gateways", .bool false), ("http", routes)])]

theorem extract_counted_of_odd_shapes :
    ∃ resource, Resource.ofObject? "destination_rule" object = some resource ∧
      (DestinationRule.schema.extract resource).map Row.family =
        [DestinationRule.info.family, DestinationRule.host.family, DestinationRule.loadBalancer.family,
         DestinationRule.portLevelSettings.family, DestinationRule.portLevelSettings.family,
         DestinationRule.subset.family] ∧
      (VirtualService.schema.extract resource).map Row.family =
        [VirtualService.info.family, VirtualService.gateway.family, VirtualService.httpMatch.family,
         VirtualService.httpMatch.family, VirtualService.httpRoute.family,
         VirtualService.httpRoutePolicy.family, VirtualService.httpRoutePolicy.family,
         VirtualService.httpRoutePolicy.family] ∧
      (MixerRule.schema.extract resource).map Row.family = [MixerRule.info.family] := by
  have described : ∃ resource, Resource.ofObject? "destination_rule" object = some resource := ⟨_, rfl⟩
  obtain ⟨resource, described⟩ := described
  obtain ⟨destinationRule, virtualService, mixerRule, _⟩ := Resource.extract_counted described
  exact ⟨resource, described, destinationRule, virtualService, mixerRule⟩

end OddShapes
end MeshGauges
