import MeshGauges.Proofs.Schema.Expansion
import MeshGauges.Proofs.Scrape.Distinct
import MeshGauges.Schema.MixerRule

/-! The instances that rules refer to.

A reference is resolved in the namespace of the rule that holds it. In a collection there is one row for
each resolved reference, where it is mentioned first: so a text that resolves differently in several
namespaces has a row for each, and texts that resolve to one reference share its row. -/

set_option autoImplicit false

namespace MeshGauges

namespace InstanceReference

/-- The labels of the instance that is referred to. -/
def labels (reference : InstanceReference) : List String := [reference.name, reference.kind, reference.space]

theorem labels_injective : Function.Injective labels := by
  rintro ⟨name, kind, space⟩ ⟨otherName, otherKind, otherSpace⟩ same
  simpa [labels] using same

end InstanceReference

namespace MixerRule

/-- The texts of all references in a rule: of every instance of every action, in order. -/
def references (rule : Resource) : List String :=
  (rule.spec.member "actions").elements.flatMap fun action =>
    (action.member "instances").elements.map Rendering.scalar

/-- The references in a rule, each resolved in the namespace of the rule. -/
def resolved (rule : Resource) : List InstanceReference :=
  (references rule).map fun text => InstanceReference.read text rule.space

/-- The namespaces that a text resolves to in the rules that hold it. -/
def spacesOf (rules : List Resource) (text : String) : List String :=
  (rules.filter fun rule => text ∈ references rule).map fun rule => (InstanceReference.read text rule.space).space

def instanceRows (collection : Collection) : List Row :=
  collection.rows.filter fun row => row.family.name = "istio_mixer_instance_info"

theorem mem_resolved_iff {rule : Resource} {reference : InstanceReference} :
    reference ∈ resolved rule ↔ ∃ text ∈ references rule, InstanceReference.read text rule.space = reference :=
  List.mem_map

theorem mem_spacesOf_iff {rules : List Resource} {text space : String} :
    space ∈ spacesOf rules text ↔
      ∃ rule ∈ rules, text ∈ references rule ∧ (InstanceReference.read text rule.space).space = space := by
  simp [spacesOf, and_assoc]

theorem expand_instanceInfo (rule : Resource) :
    expand instanceInfo.fanOut (.ofResource rule) =
      (rule.spec.member "actions").elements.flatMap fun action =>
        (action.member "instances").elements.map fun element =>
          ((Scopes.ofResource rule).bind "action" action).bind "instance" element :=
  List.flatMap_congr fun _ _ => expand_single ⟨"instance", "action", ["instances"]⟩ _

theorem labels_row_instanceInfo (rule : Resource) (action element : Tree) :
    (instanceInfo.row (((Scopes.ofResource rule).bind "action" action).bind "instance" element)).labels =
      (InstanceReference.read (Rendering.scalar element) rule.space).labels := rfl

theorem map_labels_rows (rule : Resource) :
    (instanceInfo.rows (.ofResource rule)).map Row.labels = (resolved rule).map InstanceReference.labels := by
  have present : instanceInfo.isPresent (.ofResource rule) = true := rfl
  rw [FamilySchema.rows, if_pos present, expand_instanceInfo, resolved, references]
  simp only [List.map_flatMap, List.map_map, Function.comp_def, labels_row_instanceInfo]

theorem map_identity_rows (rule : Resource) :
    (instanceInfo.rows (.ofResource rule)).map Row.identity =
      (resolved rule).map fun reference => ("istio_mixer_instance_info", reference.labels) := by
  have identity : ∀ row ∈ instanceInfo.rows (.ofResource rule),
      row.identity = ("istio_mixer_instance_info", row.labels) := fun row member => by
    rw [Row.identity, FamilySchema.family_of_mem_rows member]
    rfl
  have labels := congrArg (List.map fun texts => ("istio_mixer_instance_info", texts)) (map_labels_rows rule)
  rw [List.map_map, List.map_map] at labels
  exact (List.map_congr_left identity).trans labels

/-- The rows of all rules in the family of instances. -/
theorem filter_flatMap_extract (rules : List Resource) :
    (rules.flatMap schema.extract).filter (fun row => row.family.name = "istio_mixer_instance_info") =
      rules.flatMap fun rule => instanceInfo.rows (.ofResource rule) := by
  rw [List.filter_flatMap]
  refine List.flatMap_congr fun rule _ => ?_
  have only : schema.families.filter (fun family => family.family.name = "istio_mixer_instance_info") =
      [instanceInfo] := rfl
  have picked := FamilySchema.filter_flatMap schema.families
    (fun family => family.name = "istio_mixer_instance_info") (.ofResource rule)
  rwa [only, List.flatMap_singleton] at picked

theorem map_labels_instanceRows (rules : List Resource) :
    (instanceRows (Collector.collectFrom schema rules)).map Row.labels =
      (rules.flatMap resolved).eraseDups.map InstanceReference.labels := by
  have picked : instanceRows (Collector.collectFrom schema rules) =
      keepFirst [] (rules.flatMap fun rule => instanceInfo.rows (.ofResource rule)) := by
    rw [← filter_flatMap_extract]
    exact filter_keepFirst (fun identity => identity.1 = "istio_mixer_instance_info") [] _
  have identities : (rules.flatMap fun rule => instanceInfo.rows (.ofResource rule)).map Row.identity =
      (rules.flatMap resolved).map fun reference => ("istio_mixer_instance_info", reference.labels) := by
    rw [List.map_flatMap, List.map_flatMap]
    exact List.flatMap_congr fun rule _ => map_identity_rows rule
  have labels : Row.labels = Prod.snd ∘ Row.identity := rfl
  rw [picked, labels, ← List.map_map, identities_keepFirst, identities, eraseDups_map, List.map_map]
  · rfl
  · intro reference other same
    exact InstanceReference.labels_injective (congrArg Prod.snd same)

/-- The labels that a text gives rise to in the rules that hold it. -/
theorem mem_labels_of_spacesOf {rules : List Resource} {text : String} {labels : List String} :
    labels ∈ (spacesOf rules text).eraseDups.map (fun space => { InstanceReference.read text "" with space }.labels) ↔
      ∃ rule ∈ rules, text ∈ references rule ∧ labels = (InstanceReference.read text rule.space).labels := by
  simp only [List.mem_map, List.mem_eraseDups, mem_spacesOf_iff]
  constructor
  · rintro ⟨_, ⟨rule, listed, holds, rfl⟩, rfl⟩
    exact ⟨rule, listed, holds, rfl⟩
  · rintro ⟨rule, listed, holds, rfl⟩
    exact ⟨_, ⟨rule, listed, holds, rfl⟩, rfl⟩

/-- However its texts and rules are, a collection has one row for each resolved reference, in the order of
first mention: a text has one row for each namespace that it resolves to. -/
theorem collect_instance_rows (name : String) (rules : List Resource) :
    ∃ collection, Collector.collect ⟨name, schema, { resources := rules }⟩ = .ok collection ∧
      (instanceRows collection).Nodup ∧
      (instanceRows collection).map Row.labels =
        (rules.flatMap resolved).eraseDups.map InstanceReference.labels ∧
      (∀ reference, ((instanceRows collection).map Row.labels).count reference.labels =
        if reference ∈ rules.flatMap resolved then 1 else 0) ∧
      ∀ text, List.Perm
        (((instanceRows collection).map Row.labels).filter fun labels =>
          ∃ rule ∈ rules, text ∈ references rule ∧ labels = (InstanceReference.read text rule.space).labels)
        ((spacesOf rules text).eraseDups.map fun space => { InstanceReference.read text "" with space }.labels) := by
  have rows := map_labels_instanceRows rules
  have distinct : ((instanceRows (Collector.collectFrom schema rules)).map Row.labels).Nodup := by
    rw [rows]
    exact (nodup_eraseDups _).map InstanceReference.labels_injective
  refine ⟨_, rfl, distinct.of_map, rows, fun reference => ?_, fun text => ?_⟩
  · rw [distinct.count, rows]
    simp only [List.mem_map_of_injective InstanceReference.labels_injective, List.mem_eraseDups]
  · have distinctSpaces : ((spacesOf rules text).eraseDups.map fun space =>
        { InstanceReference.read text "" with space }.labels).Nodup := by
      refine (nodup_eraseDups _).map fun space other same => ?_
      exact congrArg InstanceReference.space (InstanceReference.labels_injective same)
    refine (List.perm_ext_iff_of_nodup (distinct.filter _) distinctSpaces).mpr fun labels => ?_
    rw [mem_labels_of_spacesOf, List.mem_filter, decide_eq_true_iff, and_iff_right_iff_imp]
    -- what a rule refers to is resolved, so it has a row
    rintro ⟨rule, listed, holds, rfl⟩
    rw [rows, List.mem_map_of_injective InstanceReference.labels_injective, List.mem_eraseDups]
    exact List.mem_flatMap.mpr ⟨rule, listed, mem_resolved_iff.mpr ⟨text, holds, rfl⟩⟩

def referring (space : String) (texts : List String) : Resource :=
  let instances := Tree.list (texts.map Tree.text)
  ⟨"rule", space, "r", .object [("actions", .object [("instances", instances)])], "1"⟩

/-! One text that resolves in two namespaces, and another one that resolves to the same instance. -/

example : (instanceRows (Collector.collectFrom schema
    [referring "a" ["count..", "count.unknown.b"], referring "b" ["count"], referring "a" ["count"]])).map Row.labels =
      [["count", "unknown", "a"], ["count", "unknown", "b"]] := by
  decide +kernel

end MixerRule
end MeshGauges
