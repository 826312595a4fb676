import MeshGauges.Schema.Rows
import Mathlib.Algebra.Ring.Nat
import Mathlib.Data.List.Flatten
import Mathlib.Data.List.Forall2
import Mathlib.Data.List.Nodup

/-! The rows of a family, counted.

A family that has rows has one for each way of choosing an element at every step of its fan-out, so how
many there are is read off the trees of the steps. The labels have no part in it. -/

set_option autoImplicit false

namespace MeshGauges

namespace Tree

/-- How many elements a tree holds where a list is expected: none when it is null, as many as it has
items when it is a list, and one otherwise. -/
def elementCount : Tree → Nat
  | .null => 0
  | .list items => items.length
  | _ => 1

def presence (tree : Tree) : Nat := if tree.isNull then 0 else 1

theorem isNull_eq_false_iff {tree : Tree} : tree.isNull = false ↔ tree ≠ .null := by
  cases tree <;> simp [isNull]

theorem length_elements (tree : Tree) : tree.elements.length = tree.elementCount := by
  cases tree <;> rfl

/-- The elements of the lists of one name inside the elements of a tree, all together. -/
def innerCount (tree : Tree) (listed : String) : Nat :=
  (tree.elements.map fun element => (element.member listed).elementCount).sum

/-- An absent tree has no elements in any member, so it makes no difference that it has to be there. -/
theorem presence_mul_elementCount_member (tree : Tree) (name : String) :
    tree.presence * (tree.member name).elementCount = (tree.member name).elementCount := by
  cases tree with
  | null => rfl
  | _ => exact Nat.one_mul _

end Tree

namespace Scopes

variable (scopes : Scopes) (name : String) (tree : Tree)

@[simp] theorem root_bind_self : (scopes.bind name tree).root name = tree := by
  simp [bind, root]

theorem root_bind_of_ne {other : String} (apart : other ≠ name) :
    (scopes.bind name tree).root other = scopes.root other := by
  have passed : (other == name) = false := by simpa using apart
  rw [bind, root, List.lookup_cons, passed, root]

@[simp] theorem read_bind_self (path : Path) : (scopes.bind name tree).read name path = tree.lookup path := by
  rw [read, root_bind_self]

@[simp] theorem read_spec_ofResource (resource : Resource) (path : Path) :
    (ofResource resource).read "spec" path = resource.spec.lookup path := rfl

/-- Only one scope of a resource depends on its spec. -/
theorem root_ofResource_of_ne (resource : Resource) (spec : Tree) {name : String} (apart : name ≠ "spec") :
    (ofResource { resource with spec := spec }).root name = (ofResource resource).root name := by
  have passed : (name == "spec") = false := by simpa using apart
  simp [root, ofResource, List.lookup_cons, passed, Resource.qualifiedName]

end Scopes

variable {steps : List FanOut} {scopes leaf : Scopes} {name : String}

theorem length_expand_cons (step : FanOut) (rest : List FanOut) (scopes : Scopes) :
    (expand (step :: rest) scopes).length =
      ((scopes.read step.source step.path).elements.map fun element =>
        (expand rest (scopes.bind step.scope element)).length).sum := by
  rw [expand_cons, List.length_flatMap]

theorem expand_single (step : FanOut) (scopes : Scopes) :
    expand [step] scopes =
      (scopes.read step.source step.path).elements.map fun element => scopes.bind step.scope element := by
  rw [expand_cons, List.map_eq_flatMap]
  rfl

theorem length_expand_single (step : FanOut) (scopes : Scopes) :
    (expand [step] scopes).length = (scopes.read step.source step.path).elementCount := by
  rw [expand_single, List.length_map, Tree.length_elements]

theorem length_expand_pair {outer inner : FanOut} (nested : inner.source = outer.scope) (scopes : Scopes) :
    (expand [outer, inner] scopes).length =
      ((scopes.read outer.source outer.path).elements.map fun element =>
        (element.lookup inner.path).elementCount).sum := by
  rw [length_expand_cons]
  refine congrArg List.sum (List.map_congr_left fun element _ => ?_)
  rw [length_expand_single, nested, Scopes.read_bind_self]

theorem root_of_mem_expand (reached : leaf ∈ expand steps scopes) (free : ∀ step ∈ steps, step.scope ≠ name) :
    leaf.root name = scopes.root name := by
  induction steps generalizing scopes with
  | nil =>
      rw [expand_nil, List.mem_singleton] at reached
      rw [reached]
  | cons step rest ih =>
      obtain ⟨element, _, reached⟩ := List.mem_flatMap.mp reached
      rw [ih reached fun later member => free later (List.mem_cons_of_mem _ member)]
      exact Scopes.root_bind_of_ne _ _ _ (free step (by simp)).symm

namespace FamilySchema

variable (schema : FamilySchema)

theorem family_of_mem_rows {schema : FamilySchema} {scopes : Scopes} {row : Row}
    (member : row ∈ schema.rows scopes) : row.family = schema.family := by
  rw [rows] at member
  split at member
  · obtain ⟨_, _, rfl⟩ := List.mem_map.mp member
    rfl
  · cases member

theorem map_family_rows (scopes : Scopes) :
    (schema.rows scopes).map Row.family = List.replicate (schema.rows scopes).length schema.family := by
  rw [List.eq_replicate_iff]
  refine ⟨List.length_map _, fun family carried => ?_⟩
  obtain ⟨row, member, rfl⟩ := List.mem_map.mp carried
  exact family_of_mem_rows member

theorem length_rows (scopes : Scopes) :
    (schema.rows scopes).length =
      if schema.isPresent scopes then (expand schema.fanOut scopes).length else 0 := by
  rw [rows]
  split
  · exact List.length_map _
  · rfl

/-! ### Families in other scopes -/

section Congruence

variable {before after : Scopes}

theorem isPresent_congr (same : ∀ scope path, (scope, path) ∈ schema.requires →
    (after.read scope path).isNull = (before.read scope path).isNull) :
    schema.isPresent after = schema.isPresent before := by
  rw [Bool.eq_iff_iff, isPresent, isPresent, List.all_eq_true, List.all_eq_true]
  refine forall₂_congr fun gate required => ?_
  obtain ⟨scope, path⟩ := gate
  simp only [same scope path required]

theorem row_congr (same : ∀ label ∈ schema.labels, label.source.text after = label.source.text before) :
    schema.row after = schema.row before := by
  have labels : (schema.labels.map fun label => label.source.text after) =
      schema.labels.map fun label => label.source.text before := List.map_congr_left same
  simp only [row, labels]

/-- Scopes that fan out one by one to such as have the same row have the same rows. -/
theorem rows_congr {related : Scopes → Scopes → Prop}
    (present : schema.isPresent after = schema.isPresent before)
    (leaves : List.Forall₂ related (expand schema.fanOut before) (expand schema.fanOut after))
    (same : ∀ leaf other, related leaf other → schema.row other = schema.row leaf) :
    schema.rows after = schema.rows before := by
  have rows : (expand schema.fanOut before).map schema.row = (expand schema.fanOut after).map schema.row := by
    rw [← List.forall₂_eq_eq_eq, List.forall₂_map_left_iff, List.forall₂_map_right_iff]
    exact leaves.imp fun leaf other counterpart => (same leaf other counterpart).symm
  rw [FamilySchema.rows, FamilySchema.rows, present, rows]

end Congruence

/-! ### The rows of a resource, by the shape of the family -/

variable {path : Path} (resource : Resource)

theorem length_rows_of_plain (ungated : schema.requires = []) (flat : schema.fanOut = []) :
    (schema.rows (.ofResource resource)).length = 1 := by
  rw [length_rows, isPresent, ungated, flat]
  rfl

theorem rows_of_section (gated : schema.requires = [("spec", path)]) (flat : schema.fanOut = []) :
    schema.rows (.ofResource resource) =
      if (resource.spec.lookup path).isNull then [] else [schema.row (.ofResource resource)] := by
  rw [rows, isPresent, gated, flat]
  cases absent : (resource.spec.lookup path).isNull <;> simp [absent]

theorem length_rows_of_section (gated : schema.requires = [("spec", path)]) (flat : schema.fanOut = []) :
    (schema.rows (.ofResource resource)).length = (resource.spec.lookup path).presence := by
  rw [rows_of_section schema resource gated flat, Tree.presence]
  split <;> rfl

variable {scope inner listed : String}

theorem length_rows_of_list (ungated : schema.requires = []) (fanned : schema.fanOut = [⟨scope, "spec", path⟩]) :
    (schema.rows (.ofResource resource)).length = (resource.spec.lookup path).elementCount := by
  rw [length_rows, isPresent, ungated, fanned, length_expand_single]
  rfl

theorem rows_of_gated_list {gate : Path} (gated : schema.requires = [("spec", gate)])
    (fanned : schema.fanOut = [⟨scope, "spec", path⟩]) (present : (resource.spec.lookup gate).isNull = false) :
    schema.rows (.ofResource resource) = (resource.spec.lookup path).elements.map fun element =>
      schema.row ((Scopes.ofResource resource).bind scope element) := by
  rw [rows, isPresent, gated, fanned, expand_single, List.map_map]
  simp [present]

theorem length_rows_of_gated_list {gate : Path} (gated : schema.requires = [("spec", gate)])
    (fanned : schema.fanOut = [⟨scope, "spec", path⟩]) :
    (schema.rows (.ofResource resource)).length =
      (resource.spec.lookup gate).presence * (resource.spec.lookup path).elementCount := by
  rw [length_rows, isPresent, gated, fanned, length_expand_single, Tree.presence]
  cases absent : (resource.spec.lookup gate).isNull <;> simp [absent]

theorem length_rows_of_inner_list (ungated : schema.requires = [])
    (fanned : schema.fanOut = [⟨scope, "spec", path⟩, ⟨inner, scope, [listed]⟩]) :
    (schema.rows (.ofResource resource)).length = (resource.spec.lookup path).innerCount listed := by
  rw [length_rows, isPresent, ungated, fanned, length_expand_pair rfl]
  rfl

end FamilySchema

theorem FamilySchema.filter_rows (schema : FamilySchema) (keeps : Family → Bool) (scopes : Scopes) :
    (schema.rows scopes).filter (fun row => keeps row.family) =
      if keeps schema.family then schema.rows scopes else [] := by
  split
  · next kept =>
      refine List.filter_eq_self.mpr fun row member => ?_
      rwa [family_of_mem_rows member]
  · next dropped =>
      refine List.filter_eq_nil_iff.mpr fun row member => ?_
      rwa [family_of_mem_rows member]

/-- Rows are kept by their families. -/
theorem FamilySchema.filter_flatMap (families : List FamilySchema) (keeps : Family → Bool) (scopes : Scopes) :
    (families.flatMap fun family => family.rows scopes).filter (fun row => keeps row.family) =
      (families.filter fun family => keeps family.family).flatMap fun family => family.rows scopes := by
  induction families with
  | nil => rfl
  | cons first rest ih =>
      rw [List.flatMap_cons, List.filter_append, filter_rows, ih, List.filter_cons]
      split <;> rfl

theorem FamilySchema.filter_flatMap_rows {families : List FamilySchema} {family : FamilySchema}
    (distinct : (families.map FamilySchema.family).Nodup) (member : family ∈ families) (scopes : Scopes) :
    (families.flatMap fun other => other.rows scopes).filter (fun row => row.family = family.family) =
      family.rows scopes := by
  -- what is kept is the family itself, and there is one of it
  have only : families.filter (fun other => other.family = family.family) = [family] := by
    have kept : ∀ other ∈ families.filter (fun other => other.family = family.family), other = family := by
      intro other listed
      obtain ⟨listed, same⟩ := List.mem_filter.mp listed
      exact List.inj_on_of_nodup_map distinct listed member (by simpa using same)
    have copies := List.eq_replicate_of_mem kept
    have few := (distinct.of_map _).filter fun other => decide (other.family = family.family)
    have some : family ∈ families.filter (fun other => other.family = family.family) :=
      List.mem_filter.mpr ⟨member, by simp⟩
    rw [copies, List.nodup_replicate] at few
    rw [copies, le_antisymm few (List.length_pos_of_mem some), List.replicate_one]
  rw [filter_flatMap families (fun other => other = family.family), only, List.flatMap_singleton]

/-- Each family as often as it has rows, in order. -/
def familiesOf (counts : List (Family × Nat)) : List Family :=
  counts.flatMap fun (family, count) => List.replicate count family

theorem ResourceSchema.map_family_extract (schema : ResourceSchema) (resource : Resource) :
    (schema.extract resource).map Row.family = familiesOf (schema.families.map fun family =>
      (family.family, (family.rows (.ofResource resource)).length)) := by
  rw [extract, List.map_flatMap, familiesOf, List.flatMap_map]
  exact List.flatMap_congr fun family _ => family.map_family_rows _

end MeshGauges
