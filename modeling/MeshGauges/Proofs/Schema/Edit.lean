import MeshGauges.Proofs.Schema.Thinning
import MeshGauges.Proofs.Tree.Edit
import Mathlib.Logic.Relation

/-! Rows of an edited spec.

Where a spec is edited at a place, a scope that stands above that place is bound to an edited tree, and
any other scope to the same tree as before, as long as no fan-out that goes on beyond the place can tell
the edit (`Edited.forall₂_expand`). A family whose gates, fan-outs and labels all overlook an edit has the
same rows before and after it (`FamilySchema.rows_of_editedAt`). -/

set_option autoImplicit false

namespace MeshGauges

open MeshGauges.Tree

/-- Trees that stand at a place of the spec, where the spec was edited at another: they are one tree, or
the edit lies further along. -/
inductive EditedFrom (edit : Tree → Tree → Prop) (place : Path) (reached? : Option Path) (tree other : Tree) : Prop where
  | kept (same : other = tree)
  | above (reached rest : Path) (here : reached? = some reached) (way : reached ++ rest = place)
      (edited : EditedAt edit rest tree other)

/-- Trees that were read along a path from inside of an object before and after its edit. -/
inductive ReadInside (edit : Tree → Tree → Prop) (inner? : Option (String × Path)) (tree other : Tree) : Prop where
  | inside (name : String) (rest : Path) (members others : List (String × Tree))
      (further : inner? = some (name, rest)) (edited : edit (.object members) (.object others))
      (before : tree = (Tree.object members).lookup (name :: rest))
      (after : other = (Tree.object others).lookup (name :: rest))

namespace Places

/-- How a path, read from a scope, goes on beyond a place that it leads to: the next name and the rest. A
scope that was fanned out to from there, or stands elsewhere, does not lead to the place any more. -/
def beyond? (places : Places) (place : Path) (scope : String) (path : Path) : Option (String × Path) :=
  (places.place? scope).bind fun walked =>
    let way := place.drop walked.length
    if walked ++ way = place ∧ way <+: path then
      match path.drop way.length with
      | [] => none
      | name :: rest => some (name, rest)
    else none

theorem beyond?_eq_some {places : Places} {scope name : String} {walked way rest : Path}
    (here : places.place? scope = some walked) :
    places.beyond? (walked ++ way) scope (way ++ name :: rest) = some (name, rest) := by
  simp [beyond?, here]

theorem along_of_beyond? {places : Places} {place path rest : Path} {scope name : String}
    (further : places.beyond? place scope path = some (name, rest)) :
    places.along scope path = some (place ++ name :: rest) := by
  obtain ⟨walked, here, further⟩ := Option.bind_eq_some_iff.mp further
  dsimp only at further
  split at further
  · next within =>
      obtain ⟨way, ⟨after, rfl⟩⟩ := within
      rw [List.drop_left] at further
      cases after with
      | nil => cases further
      | cons next after =>
          cases further
          rw [along, here, Option.map_some, ← List.append_assoc, way]
  · cases further

end Places

/-- What the steps of a fan-out read inside of the object at a place. -/
def fanOutWithin (place : Path) : List FanOut → Places → List (String × Path)
  | [], _ => []
  | step :: rest, places =>
      (places.beyond? place step.source step.path).toList ++ fanOutWithin place rest (places.bind step)

/-- What decides about rows inside of the object at a place. -/
def FamilySchema.decisiveWithin (schema : FamilySchema) (place : Path) : List (String × Path) :=
  schema.requires.filterMap (fun (scope, path) => Places.start.beyond? place scope path) ++
    fanOutWithin place schema.fanOut .start

/-- Scopes of an edited spec: each is bound to the tree that it was bound to before, or to an edited one. -/
def Edited (edit : Tree → Tree → Prop) (place : Path) (places : Places) (before after : Scopes) : Prop :=
  ∀ scope, EditedFrom edit place (places.place? scope) (before.root scope) (after.root scope)

/-- Trees that decide alike about rows, where they are fanned out and where they have to be present. -/
structure Tree.DecidesAlike (tree other : Tree) : Prop where
  elements : other.elements = tree.elements
  isNull : other.isNull = tree.isNull

/-- Whether an edit leaves what is read inside of an object as decisive as it was. -/
def KeepsDecisions (edit : Tree → Tree → Prop) (inner : String × Path) : Prop :=
  ∀ members others, edit (.object members) (.object others) →
    ((Tree.object members).lookup (inner.1 :: inner.2)).DecidesAlike
      ((Tree.object others).lookup (inner.1 :: inner.2))

section

variable {edit : Tree → Tree → Prop} {place : Path} {places : Places} {before after : Scopes}

theorem edited_ofResource {resource : Resource} {spec : Tree} (edited : EditedAt edit place resource.spec spec) :
    Edited edit place .start (.ofResource resource) (.ofResource { resource with spec := spec }) := by
  intro scope
  by_cases asked : scope = "spec"
  · subst asked
    exact .above [] place rfl rfl edited
  · exact .kept (Scopes.root_ofResource_of_ne resource spec asked)

theorem Edited.bind (edited : Edited edit place places before after) (step : FanOut) {element other : Tree}
    (bound : EditedFrom edit place (places.along step.source step.path) element other) :
    Edited edit place (places.bind step) (before.bind step.scope element) (after.bind step.scope other) := by
  intro scope
  by_cases same : scope = step.scope
  · subst same
    rw [Scopes.root_bind_self, Scopes.root_bind_self, Places.place?_bind_self]
    exact bound
  · rw [Scopes.root_bind_of_ne _ _ _ same, Scopes.root_bind_of_ne _ _ _ same,
      Places.place?_bind_of_ne _ same]
    exact edited scope

theorem Edited.read (edited : Edited edit place places before after) (scope : String) (path : Path) :
    EditedFrom edit place (places.along scope path) (before.read scope path) (after.read scope path) ∨
      ReadInside edit (places.beyond? place scope path) (before.read scope path) (after.read scope path) := by
  rw [Scopes.read, Scopes.read]
  rcases edited scope with same | ⟨reached, rest, here, way, changed⟩
  · rw [same]
    exact .inl (.kept rfl)
  -- the reading ends on the way to the edit, goes on beyond it, or leads elsewhere
  by_cases within : path <+: rest
  · obtain ⟨remaining, rfl⟩ := within
    refine .inl ?_
    rcases changed.lookup_append with same | deeper
    · exact .kept same
    · have along : places.along scope path = some (reached ++ path) := by rw [Places.along, here, Option.map_some]
      exact .above (reached ++ path) remaining along (by rw [List.append_assoc, way]) deeper
  by_cases beyond : rest <+: path
  · obtain ⟨inner, rfl⟩ := beyond
    have further : inner ≠ [] := fun none => within (by simp [none])
    rcases changed.lookup_beyond further with same | ⟨members, others, changed, tree, other⟩
    · exact .inl (.kept same)
    · obtain ⟨name, inner, rfl⟩ := List.exists_cons_of_ne_nil further
      subst way
      exact .inr (.inside name inner members others (Places.beyond?_eq_some here) changed tree other)
  · exact .inl (.kept (changed.lookup_of_apart beyond within))

/-- What ends neither on the way to the edit nor where the edited object shows it is read as before. -/
theorem Edited.read_eq (edited : Edited edit place places before after) {scope : String} {path : Path}
    (below : ∀ reached ∈ places.along scope path, ¬ reached <+: place)
    (alike : ∀ name rest, places.beyond? place scope path = some (name, rest) →
      ∀ members others, edit (.object members) (.object others) →
        (Tree.object others).lookup (name :: rest) = (Tree.object members).lookup (name :: rest)) :
    after.read scope path = before.read scope path := by
  rcases edited.read scope path with (same | ⟨reached, rest, here, way, _⟩) |
    ⟨name, inner, members, others, further, changed, tree, other⟩
  · exact same
  · exact absurd ⟨rest, way⟩ (below reached here)
  · rw [tree, other, alike name inner further members others changed]

/-- What ends on the way to the edit is read as before, or edited further along. -/
theorem Edited.read_above (edited : Edited edit place places before after) {scope : String} {path reached rest : Path}
    (here : places.along scope path = some reached) (way : reached ++ rest = place) :
    after.read scope path = before.read scope path ∨
      EditedAt edit rest (before.read scope path) (after.read scope path) := by
  rcases edited.read scope path with (same | ⟨stopped, remaining, stop, onward, changed⟩) |
    ⟨name, inner, _, _, further, _, _, _⟩
  · exact .inl same
  · cases here.symm.trans stop
    cases List.append_cancel_left (way.trans onward.symm)
    exact .inr changed
  · -- that would lead beyond the place
    have beyond := Places.along_of_beyond? further
    rw [here, ← way] at beyond
    simp at beyond

theorem Edited.elements (edited : Edited edit place places before after) (step : FanOut)
    (keeps : ∀ inner ∈ places.beyond? place step.source step.path, KeepsDecisions edit inner) :
    List.Forall₂ (EditedFrom edit place (places.along step.source step.path))
      (before.read step.source step.path).elements (after.read step.source step.path).elements := by
  rcases edited.read step.source step.path with (same | ⟨reached, rest, here, way, changed⟩) |
    ⟨name, inner, members, others, further, changed, tree, other⟩
  · rw [same]
    exact List.forall₂_same.mpr fun _ _ => .kept rfl
  · refine changed.elements.imp fun element other bound => ?_
    rcases bound with same | deeper
    · exact .kept same
    · exact .above reached rest here way deeper
  · rw [tree, other, (keeps _ further members others changed).elements]
    exact List.forall₂_same.mpr fun _ _ => .kept rfl

theorem Edited.forall₂_expand (edited : Edited edit place places before after) {steps : List FanOut}
    (keeps : ∀ inner ∈ fanOutWithin place steps places, KeepsDecisions edit inner) :
    List.Forall₂ (Edited edit place (steps.foldl Places.bind places)) (expand steps before) (expand steps after) := by
  induction steps generalizing places before after with
  | nil => exact .cons edited .nil
  | cons step rest ih =>
      rw [expand_cons, expand_cons]
      have elements := edited.elements step fun inner further =>
        keeps inner (by simp [fanOutWithin, Option.mem_def.mp further])
      refine List.rel_flatMap elements fun element other bound => ?_
      exact ih (edited.bind step bound) fun inner member => keeps inner (by simp [fanOutWithin, member])

namespace FamilySchema

variable {schema : FamilySchema}

/-- Whether a family has the same rows whatever an edit at a place has done: what decides about rows there
decides alike, and every label shows the same text. -/
structure Overlooks (schema : FamilySchema) (edit : Tree → Tree → Prop) (place : Path) : Prop where
  decides : ∀ inner ∈ schema.decisiveWithin place, KeepsDecisions edit inner
  shows : ∀ label ∈ schema.labels, ∀ before after,
    Edited edit place (schema.fanOut.foldl Places.bind .start) before after →
      label.source.text after = label.source.text before

theorem isPresent_of_edited (overlooks : schema.Overlooks edit place) (edited : Edited edit place .start before after) :
    schema.isPresent after = schema.isPresent before := by
  refine schema.isPresent_congr fun scope path required => ?_
  rcases edited.read scope path with (same | ⟨_, _, _, _, changed⟩) |
    ⟨name, inner, members, others, further, changed, tree, other⟩
  · rw [same]
  · exact changed.isNull_eq
  · have decides : (name, inner) ∈ schema.decisiveWithin place :=
      List.mem_append_left _ (List.mem_filterMap.mpr ⟨(scope, path), required, further⟩)
    rw [tree, other, (overlooks.decides _ decides members others changed).isNull]

theorem rows_of_editedAt (overlooks : schema.Overlooks edit place) {resource : Resource} {spec : Tree}
    (edited : EditedAt edit place resource.spec spec) :
    schema.rows (.ofResource { resource with spec := spec }) = schema.rows (.ofResource resource) := by
  have scopes := edited_ofResource edited
  have leaves := scopes.forall₂_expand fun inner member =>
    overlooks.decides inner (List.mem_append_right _ member)
  refine schema.rows_congr (isPresent_of_edited overlooks scopes) leaves fun before after edited => ?_
  exact schema.row_congr fun label member => overlooks.shows label member before after edited

end FamilySchema

theorem ResourceSchema.extract_of_editedAt {schema : ResourceSchema}
    (overlooks : ∀ family ∈ schema.families, family.Overlooks edit place) {resource : Resource} {spec : Tree}
    (edited : EditedAt edit place resource.spec spec) :
    schema.extract { resource with spec := spec } = schema.extract resource :=
  List.flatMap_congr fun family member => FamilySchema.rows_of_editedAt (overlooks family member) edited

/-- Changes that leave the rows of every resource as they are do so in any number. -/
theorem ResourceSchema.extract_of_reflTransGen {schema : ResourceSchema} {changes : Tree → Tree → Prop}
    (leaves : ∀ (resource : Resource) (spec : Tree), changes resource.spec spec →
      schema.extract { resource with spec := spec } = schema.extract resource)
    {resource : Resource} {spec : Tree} (changed : Relation.ReflTransGen changes resource.spec spec) :
    schema.extract { resource with spec := spec } = schema.extract resource := by
  induction changed with
  | refl => rfl
  | @tail between spec _ last ih => exact (leaves { resource with spec := between } spec last).trans ih

end

end MeshGauges
