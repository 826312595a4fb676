import MeshGauges.Catalog
import MeshGauges.Proofs.Schema.Edit
import MeshGauges.Proofs.Schema.Sections

/-! Single elements.

Where a list is expected, a value that is no list counts as a list of it alone. So a fanned out list of one
element can be replaced by this element: it is fanned out to the same scope, it has to be present as much
as the list, and a label that joins the list shows the same text (`Unwrapped`). A family treats both alike
unless one of its labels reads through the list, which the catalog's families never do. -/

set_option autoImplicit false

namespace MeshGauges

namespace Tree

/-- Whether a tree counts as one element where a list is expected. -/
def isSingle : Tree → Bool
  | .null | .list _ => false
  | _ => true

/-- A list of one element becomes this element, in the member of that name. -/
inductive Unwraps (name : String) : Tree → Tree → Prop where
  | member {single : Tree} (front back : List (String × Tree)) : single.isSingle →
      Unwraps name (.object (front ++ (name, .list [single]) :: back))
        (.object (front ++ (name, single) :: back))

/-- The trees are one tree, or a list of one element and this element. -/
inductive Unwrapped (tree other : Tree) : Prop where
  | kept (same : other = tree)
  | unwrapped (list : tree = .list [other]) (single : other.isSingle)

variable {name : String} {tree other : Tree}

theorem elements_of_isSingle (single : tree.isSingle) : tree.elements = [tree] := by
  cases tree with
  | null => cases single
  | list => cases single
  | _ => rfl

theorem isNull_of_isSingle (single : tree.isSingle) : tree.isNull = false := by
  cases tree with
  | null => cases single
  | _ => rfl

theorem Unwrapped.decidesAlike (unwrapped : Unwrapped tree other) : tree.DecidesAlike other := by
  rcases unwrapped with same | ⟨list, single⟩
  · rw [same]
    exact ⟨rfl, rfl⟩
  · rw [list]
    exact ⟨elements_of_isSingle single, isNull_of_isSingle single⟩

theorem Unwraps.member_eq (unwraps : Unwraps name tree other) : Unwrapped (tree.member name) (other.member name) := by
  obtain @⟨single, front, back, isSingle⟩ := unwraps
  rcases member_swap front back (.list [single]) single name with same | ⟨before, after⟩
  · exact .kept same
  · rw [before, after]
    exact .unwrapped rfl isSingle

theorem Unwraps.lookup_of_ne (unwraps : Unwraps name tree other) {asked : String} (apart : asked ≠ name)
    (rest : Path) : other.lookup (asked :: rest) = tree.lookup (asked :: rest) := by
  obtain ⟨front, back, _⟩ := unwraps
  rw [lookup_cons, lookup_cons, member_swap_of_ne front back _ _ apart]

end Tree

open MeshGauges.Tree

/-! ### Labels that show a list of one element as its element -/

def Form.inlinesSingle : Form → Bool
  | .scalar | .joined | .pairs => true
  | .headerMatches | .duration => false

theorem Rendering.scalar_list_single (tree : Tree) : Rendering.scalar (.list [tree]) = Rendering.scalar tree := by
  rw [Rendering.scalar, Rendering.scalars, Rendering.scalars]
  rfl

theorem Form.text_of_unwrapped {form : Form} (inlines : form.inlinesSingle) {tree other : Tree}
    (unwrapped : Unwrapped tree other) : form.text other = form.text tree := by
  rcases unwrapped with same | ⟨rfl, single⟩
  · rw [same]
  · have list := Rendering.scalar_list_single other
    cases form with
    | scalar => exact list.symm
    | joined => cases other <;> exact list.symm
    | pairs => cases other <;> exact list.symm
    | headerMatches => cases inlines
    | duration => cases inlines

namespace LabelSource

def inlinesSingle : LabelSource → Bool
  | .value _ _ form => form.inlinesSingle
  | .loadBalancer .. | .instanceReference .. => false

/-- Whether a label has one text for a list of one element and for the element: it shows no tree that the
list is a part of, reads nothing through the list, and where it shows the list it shows the element alike. -/
def TreatsAlike (source : LabelSource) (places : Places) (parent : Path) (name : String) : Prop :=
  ∀ reading ∈ source.readings,
    (∀ reached ∈ places.along reading.1 reading.2, ¬ reached <+: parent) ∧
    ∀ inner ∈ places.beyond? parent reading.1 reading.2,
      inner.1 = name → inner.2 = [] ∧ source.inlinesSingle

instance (source : LabelSource) (places : Places) (parent : Path) (name : String) :
    Decidable (source.TreatsAlike places parent name) := inferInstanceAs (Decidable (∀ _ ∈ _, _ ∧ _))

end LabelSource

section

variable {parent : Path} {name : String} {places : Places} {before after : Scopes}

theorem Edited.read_unwrapped (edited : Edited (Unwraps name) parent places before after) {scope : String} {path : Path}
    (below : ∀ reached ∈ places.along scope path, ¬ reached <+: parent)
    (ends : ∀ inner ∈ places.beyond? parent scope path, inner.1 = name → inner.2 = []) :
    Unwrapped (before.read scope path) (after.read scope path) := by
  rcases edited.read scope path with (same | ⟨reached, rest, here, way, _⟩) |
    ⟨asked, rest, members, others, further, unwraps, read, readAfter⟩
  · exact .kept same
  · exact absurd ⟨rest, way⟩ (below reached here)
  · rw [read, readAfter]
    by_cases named : asked = name
    · have last : rest = [] := ends (asked, rest) further named
      rw [named, last]
      exact unwraps.member_eq
    · exact .kept (unwraps.lookup_of_ne named rest)

theorem LabelSource.text_of_unwraps {source : LabelSource} (alike : source.TreatsAlike places parent name)
    (edited : Edited (Unwraps name) parent places before after) : source.text after = source.text before := by
  by_cases inlines : source.inlinesSingle
  -- such a label shows what it finds, be it the list or the element
  · cases source with
    | value scope paths form =>
        have found : Unwrapped ((before.root scope).lookupFirst paths) ((after.root scope).lookupFirst paths) := by
          refine lookupFirst_related (.kept rfl) (fun _ _ found => found.decidesAlike.isNull) fun path member => ?_
          obtain ⟨below, ends⟩ := alike (scope, path) (List.mem_map_of_mem member)
          exact edited.read_unwrapped below fun inner further named => (ends inner further named).1
        exact form.text_of_unwrapped inlines found
    | loadBalancer => cases inlines
    | instanceReference => cases inlines
  -- any other does not come to the list
  · refine source.text_of_readings fun scope path member => ?_
    obtain ⟨below, ends⟩ := alike (scope, path) member
    refine edited.read_eq below fun asked rest further members others unwraps => ?_
    have beside : asked ≠ name := fun named => inlines (ends (asked, rest) further named).2
    exact unwraps.lookup_of_ne beside rest

namespace FamilySchema

variable {schema : FamilySchema}

def TreatsAlike (schema : FamilySchema) (parent : Path) (name : String) : Prop :=
  (∀ inner ∈ schema.decisiveWithin parent, inner.1 = name → inner.2 = []) ∧
    ∀ label ∈ schema.labels, label.source.TreatsAlike (schema.fanOut.foldl Places.bind .start) parent name

instance (schema : FamilySchema) (parent : Path) (name : String) : Decidable (schema.TreatsAlike parent name) :=
  inferInstanceAs (Decidable (_ ∧ _))

theorem TreatsAlike.overlooks (alike : schema.TreatsAlike parent name) : schema.Overlooks (Unwraps name) parent := by
  obtain ⟨decides, labels⟩ := alike
  refine ⟨fun inner within members others unwraps => ?_, fun label listed before after edited => ?_⟩
  · by_cases named : inner.1 = name
    · rw [decides inner within named, named]
      exact unwraps.member_eq.decidesAlike
    · have same : Unwrapped _ _ := .kept (unwraps.lookup_of_ne named inner.2)
      exact same.decidesAlike
  · exact LabelSource.text_of_unwraps (labels label listed) edited

end FamilySchema

end

/-! ### The lists of the catalog -/

namespace ResourceSchema

/-- Where the lists stand in a spec that some family fans out. -/
def fanOutPlaces (schema : ResourceSchema) : List Path :=
  schema.families.flatMap fun family => fanOutPaths family.fanOut .start

/-- A fanned out list of one element, at one place in a spec, becomes this element. -/
def Unwraps (schema : ResourceSchema) (spec other : Tree) : Prop :=
  ∃ parent name, parent ++ [name] ∈ schema.fanOutPlaces ∧ EditedAt (Tree.Unwraps name) parent spec other

end ResourceSchema

example : DestinationRule.schema.fanOutPlaces = [["trafficPolicy", "portLevelSettings"], ["subsets"]] ∧
    VirtualService.schema.fanOutPlaces.dedup =
      [["hosts"], ["gateways"], ["http", "match"], ["http", "route"], ["http"],
       ["tcp", "match"], ["tcp"], ["tcp", "route"]] ∧
    MixerRule.schema.fanOutPlaces.dedup = [["actions"], ["actions", "instances"]] := by
  decide +kernel

namespace Catalog

theorem treatsAlike {entry : CatalogEntry} (listed : entry ∈ entries) {parent : Path} {name : String}
    (place : parent ++ [name] ∈ entry.schema.fanOutPlaces) {family : FamilySchema}
    (member : family ∈ entry.schema.families) : family.TreatsAlike parent name := by
  have alike : ∀ entry ∈ entries, ∀ place ∈ entry.schema.fanOutPlaces, ∀ name ∈ place.getLast?,
      ∀ family ∈ entry.schema.families, family.TreatsAlike place.dropLast name := by
    decide +kernel
  have treated := alike entry listed _ place name (by simp) family member
  rwa [List.dropLast_concat] at treated

/-- Any number of fanned out lists of one element, also inside of each other, can be replaced by their
elements: every family has the same rows. -/
theorem extract_of_unwraps {entry : CatalogEntry} (listed : entry ∈ entries) {resource : Resource} {spec : Tree}
    (unwrapped : Relation.ReflTransGen entry.schema.Unwraps resource.spec spec) :
    entry.schema.extract { resource with spec := spec } = entry.schema.extract resource := by
  refine ResourceSchema.extract_of_reflTransGen (fun resource spec unwraps => ?_) unwrapped
  obtain ⟨parent, name, place, edited⟩ := unwraps
  exact ResourceSchema.extract_of_editedAt (fun _ member => (treatsAlike listed place member).overlooks) edited

/-! A rule with one action that has one instance, written with lists and without. -/

namespace SoleAction

def action (instances : Tree) : Tree := .object [("handler", .text "stdio"), ("instances", instances)]

def inLists : Tree := .object [("actions", .list [action (.list [.text "requests.metric"])])]

def inOneList : Tree := .object [("actions", .list [action (.text "requests.metric")])]

def bare : Tree := .object [("actions", action (.text "requests.metric"))]

def rule (spec : Tree) : Resource := ⟨"rule", "mesh", "quota", spec, "1"⟩

theorem extract_of_sole_action :
    Relation.ReflTransGen MixerRule.schema.Unwraps inLists bare ∧
      (MixerRule.schema.extract (rule inLists)).map Row.labels =
        [["quota", "mesh"], ["quota.mesh", "", "stdio", "requests.metric"], ["requests", "metric", "mesh"]] ∧
      MixerRule.schema.extract (rule bare) = MixerRule.schema.extract (rule inLists) := by
  have listed : ⟨"rules", .mixerRule, MixerRule.schema⟩ ∈ entries := by simp [entries]
  have sole : MixerRule.schema.Unwraps inLists inOneList := by
    refine ⟨["actions"], "instances", by decide +kernel, ?_⟩
    exact .inside [] [] (.item [] [] (.here (.member [("handler", .text "stdio")] [] rfl)))
  have last : MixerRule.schema.Unwraps inOneList bare :=
    ⟨[], "actions", by decide +kernel, .here (.member [] [] rfl)⟩
  have unwrapped : Relation.ReflTransGen MixerRule.schema.Unwraps (rule inLists).spec bare :=
    .tail (.single sole) last
  exact ⟨unwrapped, by decide, extract_of_unwraps listed unwrapped⟩

end SoleAction
end Catalog
end MeshGauges
