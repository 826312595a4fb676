import MeshGauges.Proofs.Schema.Expansion
import MeshGauges.Proofs.Tree.Removal
import Mathlib.Data.List.Forall2

/-! Scopes of a spec that members were removed from.

A scope of a fan-out stands at a place in the spec, which is the path that its steps have walked. Removing
members along a path then removes them from every element a scope is bound to (`Thinned`), and as long as
that path is not one of those that decide about rows, each step of the fan-out has as many elements as
before (`Thinned.forall₂_expand`). -/

set_option autoImplicit false

namespace MeshGauges

/-- Where in a spec the tree of a scope stands. A scope outside of the spec has no place. -/
abbrev Places := List (String × Option Path)

namespace Places

def place? (places : Places) (scope : String) : Option Path := (List.lookup scope places).join

def along (places : Places) (scope : String) (path : Path) : Option Path :=
  (places.place? scope).map (· ++ path)

def bind (places : Places) (step : FanOut) : Places :=
  (step.scope, places.along step.source step.path) :: places

def start : Places := [("spec", some [])]

theorem place?_bind_self (places : Places) (step : FanOut) :
    (places.bind step).place? step.scope = places.along step.source step.path := by
  simp [bind, place?]

theorem place?_bind_of_ne (places : Places) {step : FanOut} {scope : String} (apart : scope ≠ step.scope) :
    (places.bind step).place? scope = places.place? scope := by
  have passed : (scope == step.scope) = false := by simpa using apart
  rw [bind, place?, List.lookup_cons, passed, place?]

end Places

def fanOutPaths : List FanOut → Places → List Path
  | [], _ => []
  | step :: rest, places =>
      (places.along step.source step.path).toList ++ fanOutPaths rest (places.bind step)

namespace FamilySchema

variable (schema : FamilySchema)

/-- The paths that decide about rows: those of required sections and those of fanned out lists. -/
def decisivePaths : List Path :=
  schema.requires.filterMap (fun (scope, path) => Places.start.along scope path) ++
    fanOutPaths schema.fanOut .start

end FamilySchema

/-! ### Scopes of a thinned spec -/

def leftover (removed : Path) (place? : Option Path) : Path := (place?.map removed.beyond).getD []

/-- Scopes whose trees lack what lies on a path of the spec, each from its own place on. -/
def Thinned (removed : Path) (places : Places) (before after : Scopes) : Prop :=
  ∀ scope, after.root scope = (before.root scope).without (leftover removed (places.place? scope))

variable {removed : Path} {places : Places} {before after : Scopes}

theorem thinned_ofResource (removed : Path) (resource : Resource) :
    Thinned removed .start (.ofResource resource)
      (.ofResource { resource with spec := resource.spec.without removed }) := by
  intro scope
  by_cases spec : scope = "spec"
  · subst spec
    have whole : leftover removed (Places.start.place? "spec") = removed := by
      simp [leftover, Places.start, Places.place?, Path.beyond]
    rw [whole]
    rfl
  · have passed : (scope == "spec") = false := by simpa using spec
    have outside : Places.start.place? scope = none := by
      simp [Places.place?, Places.start, List.lookup_cons, passed]
    rw [outside, Scopes.root_ofResource_of_ne resource _ spec]
    exact (Tree.without_nil _).symm

/-- What is read past no decisive path is as before, less what is left to remove from it. -/
theorem Thinned.read (thinned : Thinned removed places before after) (scope : String) (path : Path)
    (unreached : ∀ place ∈ places.along scope path, ¬ removed <+: place) :
    after.read scope path = (before.read scope path).without (leftover removed (places.along scope path)) := by
  rw [Scopes.read, thinned scope, Scopes.read, Places.along]
  cases found : places.place? scope with
  | none => simp [leftover]
  | some place =>
      have unreached : ¬ removed <+: place ++ path := unreached _ (by simp [Places.along, found])
      simp only [leftover, Option.map_some, Option.getD_some]
      -- either the removed path goes on from the place, or it leads past it and the tree is whole
      by_cases within : place <+: removed
      · obtain ⟨rest, rfl⟩ := within
        rw [List.prefix_append_right_inj] at unreached
        have remaining : Path.beyond (place ++ rest) place = rest := by
          simpa using Path.beyond_append_append place rest []
        rw [remaining, Tree.lookup_without unreached, Path.beyond_append_append]
      · have further : ¬ place ++ path <+: removed := fun reached =>
          within ((List.prefix_append place path).trans reached)
        rw [Path.beyond_eq_nil within, Path.beyond_eq_nil further, Tree.without_nil, Tree.without_nil]

theorem Thinned.bind (thinned : Thinned removed places before after) (step : FanOut) (element : Tree) :
    Thinned removed (places.bind step) (before.bind step.scope element)
      (after.bind step.scope
        (element.without (leftover removed (places.along step.source step.path)))) := by
  intro scope
  by_cases bound : scope = step.scope
  · subst bound
    rw [Scopes.root_bind_self, Scopes.root_bind_self, Places.place?_bind_self]
  · rw [Scopes.root_bind_of_ne _ _ _ bound, Scopes.root_bind_of_ne _ _ _ bound,
      Places.place?_bind_of_ne _ bound]
    exact thinned scope

/-- Fanned out past no decisive path, thinned scopes are as many as before, each thinned from the places
of its fan-out on. -/
theorem Thinned.forall₂_expand (thinned : Thinned removed places before after) {steps : List FanOut}
    (unreached : ∀ path ∈ fanOutPaths steps places, ¬ removed <+: path) :
    List.Forall₂ (Thinned removed (steps.foldl Places.bind places)) (expand steps before) (expand steps after) := by
  induction steps generalizing places before after with
  | nil => exact .cons thinned .nil
  | cons step rest ih =>
      have elements : (after.read step.source step.path).elements =
          (before.read step.source step.path).elements.map
            (Tree.without (leftover removed (places.along step.source step.path))) := by
        rw [thinned.read step.source step.path fun place member =>
            unreached place (by simp [fanOutPaths, Option.mem_def.mp member]),
          Tree.elements_without]
      rw [expand_cons, expand_cons, elements, List.flatMap_map]
      -- an element is thinned from its own place on, so the rest of the fan-out starts thinned again
      refine List.rel_flatMap (List.forall₂_same.mpr fun element _ => rfl) ?_
      rintro element _ rfl
      exact ih (thinned.bind step element) fun path member => unreached path (by simp [fanOutPaths, member])

theorem Thinned.length_expand (thinned : Thinned removed places before after) {steps : List FanOut}
    (unreached : ∀ path ∈ fanOutPaths steps places, ¬ removed <+: path) :
    (expand steps after).length = (expand steps before).length :=
  (thinned.forall₂_expand unreached).length_eq.symm

namespace FamilySchema

variable {schema : FamilySchema}

theorem isPresent_of_thinned (thinned : Thinned removed .start before after)
    (unreached : ∀ path ∈ schema.decisivePaths, ¬ removed <+: path) :
    schema.isPresent after = schema.isPresent before := by
  refine schema.isPresent_congr fun scope path required => ?_
  have read := thinned.read scope path fun place member =>
    unreached place (List.mem_append_left _ (List.mem_filterMap.mpr ⟨_, required, member⟩))
  rw [read, Tree.isNull_without]

end FamilySchema
end MeshGauges
