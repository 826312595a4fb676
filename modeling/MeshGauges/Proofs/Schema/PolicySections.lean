import MeshGauges.Proofs.Schema.Expansion
import MeshGauges.Schema.DestinationRule

/-! The sections of a traffic policy, at the top level and for a port.

A policy shows the same texts wherever it stands: a section's labels read nothing but the policy that
they are built for (`map_text_sources`). The row of a port has the labels of all four sections one after
the other, and each of them is the row that the section would have at the top level. -/

set_option autoImplicit false

namespace MeshGauges

namespace DestinationRule

inductive PolicySection where
  | loadBalancer | connectionPool | outlierDetection | transportSecurity
  deriving Repr, DecidableEq

namespace PolicySection

def name : PolicySection → String
  | .loadBalancer => "loadBalancer"
  | .connectionPool => "connectionPool"
  | .outlierDetection => "outlierDetection"
  | .transportSecurity => "tls"

def family : PolicySection → FamilySchema
  | .loadBalancer => DestinationRule.loadBalancer
  | .connectionPool => DestinationRule.connectionPool
  | .outlierDetection => DestinationRule.outlierDetection
  | .transportSecurity => DestinationRule.transportSecurity

def labels (scope : String) (policy : Path) : PolicySection → List Label
  | .loadBalancer => loadBalancerLabels scope policy "consistent_hash_minimum_ring_size"
  | .connectionPool => connectionPoolLabels scope policy
  | .outlierDetection => outlierLabels scope policy
  | .transportSecurity => securityLabels scope policy

def sources (scope : String) (policy : Path) (part : PolicySection) : List LabelSource :=
  (part.labels scope policy).map Label.source

def texts (part : PolicySection) (policy : Tree) : List String :=
  (part.sources "policy" []).map fun source => source.text [("policy", policy)]

/-- The column in the rows of ports at which the section begins. -/
def column : PolicySection → Nat
  | .loadBalancer => 3
  | .connectionPool => 6
  | .outlierDetection => 12
  | .transportSecurity => 16

def width : PolicySection → Nat
  | .loadBalancer => 3
  | .connectionPool => 6
  | .outlierDetection => 4
  | .transportSecurity => 6

def slice {α : Type} (part : PolicySection) (columns : List α) : List α :=
  (columns.drop part.column).take part.width

theorem slice_map {α β : Type} (part : PolicySection) (change : α → β) (columns : List α) :
    part.slice (columns.map change) = (part.slice columns).map change := by
  rw [slice, slice, ← List.map_drop, ← List.map_take]

theorem slice_sources (part : PolicySection) :
    part.slice (portLevelSettings.labels.map Label.source) = part.sources "port_policy" [] := by
  cases part <;> rfl

theorem family_labels (part : PolicySection) : part.family.labels = identity :: part.labels "spec" trafficPolicy := by
  cases part <;> rfl

/-- Labels of a section read the policy that they are built for, and nothing else. -/
theorem map_text_sources (part : PolicySection) (scope : String) (path : Path) (scopes : Scopes) :
    (part.sources scope path).map (fun source => source.text scopes) = part.texts (scopes.read scope path) := by
  cases part <;>
    simp [texts, sources, labels, loadBalancerLabels, connectionPoolLabels, outlierLabels, outlierLabel,
      securityLabels, Label.of, LabelSource.text, Scopes.read, Scopes.root, Tree.lookupFirst, Tree.lookup_append]

theorem texts_of_absent (part : PolicySection) {policy : Tree} (absent : policy.member part.name = .null) :
    part.texts policy = List.replicate part.width "" := by
  have shown : ∀ form : Form, form.text .null = "" := fun form => by cases form <;> rfl
  have unbalanced : ∀ facet : LoadBalancer.Facet, facet.text .null = "" := fun facet => by cases facet <;> rfl
  cases part <;> rw [name] at absent <;>
    simp [texts, sources, labels, loadBalancerLabels, connectionPoolLabels, outlierLabels, outlierLabel,
      securityLabels, Label.of, LabelSource.text, Scopes.read, Scopes.root, Tree.lookupFirst, absent, shown,
      unbalanced, width, List.replicate, Tree.isNull]

end PolicySection

open PolicySection

variable {resource top port : Resource} {policy : Tree}

theorem labels_row_section (part : PolicySection) (resource : Resource) :
    (part.family.row (.ofResource resource)).labels =
      resource.qualifiedName :: part.texts (resource.spec.member "trafficPolicy") := by
  have read : (Scopes.ofResource resource).read "spec" trafficPolicy = resource.spec.member "trafficPolicy" := rfl
  rw [← read, ← map_text_sources, sources, List.map_map]
  change part.family.labels.map _ = _
  rw [family_labels, List.map_cons]
  rfl

theorem rows_section (part : PolicySection) (resource : Resource) :
    part.family.rows (.ofResource resource) =
      if ((resource.spec.member "trafficPolicy").member part.name).isNull then []
      else [part.family.row (.ofResource resource)] := by
  have gated : part.family.requires = [("spec", ["trafficPolicy", part.name])] := by cases part <;> rfl
  have flat : part.family.fanOut = [] := by cases part <;> rfl
  exact part.family.rows_of_section resource gated flat

def portRow (port : Resource) (policy : Tree) : Row :=
  portLevelSettings.row ((Scopes.ofResource port).bind "port_policy" policy)

theorem rows_portLevelSettings
    (listed : (port.spec.member "trafficPolicy").member "portLevelSettings" = .list [policy]) :
    portLevelSettings.rows (.ofResource port) = [portRow port policy] := by
  have present : (port.spec.lookup trafficPolicy).isNull = false := by
    refine Tree.isNull_eq_false_iff.mpr fun (absent : port.spec.member "trafficPolicy" = .null) => ?_
    rw [absent] at listed
    cases listed
  have found : port.spec.lookup (trafficPolicy ++ ["portLevelSettings"]) = .list [policy] := listed
  rw [portLevelSettings.rows_of_gated_list port rfl rfl present, found]
  rfl

theorem slice_labels_portRow (part : PolicySection) (port : Resource) (policy : Tree) :
    part.slice (portRow port policy).labels = part.texts policy := by
  have read : ((Scopes.ofResource port).bind "port_policy" policy).read "port_policy" [] = policy :=
    Scopes.read_bind_self _ _ _ _
  have labels : (portRow port policy).labels = (portLevelSettings.labels.map Label.source).map
      fun source => source.text ((Scopes.ofResource port).bind "port_policy" policy) := by
    rw [List.map_map]
    rfl
  rw [labels, slice_map, slice_sources, map_text_sources, read]

theorem filter_extract {family : FamilySchema} (declared : family ∈ schema.families) (resource : Resource) :
    (schema.extract resource).filter (fun row => row.family = family.family) =
      family.rows (.ofResource resource) := by
  have distinct : (schema.families.map FamilySchema.family).Nodup := by decide +kernel
  exact FamilySchema.filter_flatMap_rows distinct declared _

/-- A policy shows the same texts, section by section, at the top level of one rule and for the only port
of another. A section that it lacks has no row there and empty texts here. -/
theorem sections_agree (own : top.spec.member "trafficPolicy" = policy)
    (listed : (port.spec.member "trafficPolicy").member "portLevelSettings" = .list [policy]) :
    ∃ row, (schema.extract port).filter (fun other => other.family = portLevelSettings.family) = [row] ∧
      row.labels.head? = some port.qualifiedName ∧
      ∀ part : PolicySection,
        (policy.member part.name ≠ .null → ∃ single,
          (schema.extract top).filter (fun other => other.family = part.family.family) = [single] ∧
            single.labels = top.qualifiedName :: part.slice row.labels) ∧
        (policy.member part.name = .null →
          (schema.extract top).filter (fun other => other.family = part.family.family) = [] ∧
            part.slice row.labels = List.replicate part.width "") := by
  have settings : portLevelSettings ∈ schema.families := by simp [schema]
  refine ⟨portRow port policy, ?_, rfl, fun part => ?_⟩
  · rw [filter_extract settings, rows_portLevelSettings listed]
  have declared : part.family ∈ schema.families := by cases part <;> simp [schema, PolicySection.family]
  rw [filter_extract declared, rows_section, own, slice_labels_portRow]
  constructor
  · intro present
    refine ⟨part.family.row (.ofResource top), ?_, ?_⟩
    · rw [Tree.isNull_eq_false_iff.mpr present, if_neg Bool.false_ne_true]
    · rw [labels_row_section, own]
  · intro absent
    rw [absent]
    exact ⟨rfl, part.texts_of_absent absent⟩

end DestinationRule

/-! A policy whose sections are spelled in older and newer ways, partly null or no objects at all. -/

namespace SpelledPolicy

open DestinationRule

def policy : Tree := .object
  [("loadBalancer", .object [("consistent_hash", .object [("httpHeaderName", .text "user")])]),
   ("connectionPool", .text "none"), ("tls", .null),
   ("outlierDetection", .object [("consecutiveErrors", .text "5"), ("http", .object [])])]

def top : Resource := ⟨"destination_rule", "mesh", "reviews", .object [("trafficPolicy", policy)], "1"⟩

def port : Resource :=
  ⟨"destination_rule", "mesh", "reviews",
    .object [("trafficPolicy", .object [("portLevelSettings", .list [policy])])], "1"⟩

theorem sections_agree_of_spelled_policy :
    ∃ row, (schema.extract port).filter (fun other => other.family = portLevelSettings.family) = [row] ∧
      ((schema.extract top).filter fun other => other.family = outlierDetection.family).map Row.labels =
        ["reviews.mesh" :: PolicySection.outlierDetection.slice row.labels] ∧
      ((schema.extract top).filter fun other => other.family = loadBalancer.family).map Row.labels =
        ["reviews.mesh" :: PolicySection.loadBalancer.slice row.labels] ∧
      ((schema.extract top).filter fun other => other.family = transportSecurity.family) = [] ∧
      PolicySection.transportSecurity.slice row.labels = ["", "", "", "", "", ""] := by
  have own : top.spec.member "trafficPolicy" = policy := rfl
  have listed : (port.spec.member "trafficPolicy").member "portLevelSettings" = .list [policy] := rfl
  obtain ⟨row, only, _, sections⟩ := sections_agree own listed
  have shown (part : PolicySection) (present : (policy.member part.name).isNull = false) :
      ((schema.extract top).filter fun other => other.family = part.family.family).map Row.labels =
        ["reviews.mesh" :: part.slice row.labels] := by
    obtain ⟨single, found, labels⟩ := (sections part).1 (Tree.isNull_eq_false_iff.mp present)
    rw [found, List.map_singleton, labels]
    rfl
  obtain ⟨none, empty⟩ := (sections .transportSecurity).2 rfl
  exact ⟨row, only, shown .outlierDetection rfl, shown .loadBalancer rfl, none, empty⟩

end SpelledPolicy
end MeshGauges
