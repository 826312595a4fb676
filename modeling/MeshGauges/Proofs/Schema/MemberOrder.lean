import MeshGauges.Catalog
import MeshGauges.Proofs.Rendering.MemberOrder
import MeshGauges.Proofs.Schema.Expansion

/-! Rows of resources that differ in the order of members.

Scopes are reordered when the trees that they bind are. A fan-out binds reordered elements in the same
order, and a label shows the same text of either, so the rows of a resource are the same rows in the same
order however the members of its objects stand. -/

set_option autoImplicit false

namespace MeshGauges

theorem Form.text_of_reordered (form : Form) {tree other : Tree} (reordered : tree.Reordered other) :
    form.text tree = form.text other := by
  -- a list that is joined by commas and a map of pairs show what the scalar rendering shows
  have joined : ∀ tree : Tree, Rendering.joined "," tree = Rendering.scalar tree := fun tree => by
    cases tree <;> rfl
  have pairs : ∀ tree : Tree, Rendering.pairs tree = Rendering.scalar tree := fun tree => by
    cases tree <;> rfl
  cases form with
  | scalar => exact reordered.scalar_eq
  | joined => exact (joined tree).trans (reordered.scalar_eq.trans (joined other).symm)
  | pairs => exact (pairs tree).trans (reordered.scalar_eq.trans (pairs other).symm)
  | headerMatches => exact reordered.headerMatches_eq
  | duration => exact reordered.duration_eq

namespace Scopes

/-- The scopes bind the same names to trees that differ in the order of members only. -/
def Reordered (scopes others : Scopes) : Prop :=
  ∀ name, (scopes.root name).Reordered (others.root name)

variable {scopes others : Scopes}

theorem Reordered.read (reordered : scopes.Reordered others) (name : String) (path : Path) :
    (scopes.read name path).Reordered (others.read name path) :=
  (reordered name).lookup path

theorem Reordered.bind (reordered : scopes.Reordered others) (name : String) {tree other : Tree}
    (bound : tree.Reordered other) : (scopes.bind name tree).Reordered (others.bind name other) := by
  intro asked
  by_cases same : asked = name
  · subst same
    rw [root_bind_self, root_bind_self]
    exact bound
  · rw [root_bind_of_ne _ _ _ same, root_bind_of_ne _ _ _ same]
    exact reordered asked

theorem reordered_ofResource {resource other : Resource} (kind : resource.kind = other.kind)
    (space : resource.space = other.space) (name : resource.name = other.name)
    (spec : resource.spec.Reordered other.spec) :
    (ofResource resource).Reordered (ofResource other) := by
  intro asked
  have identity : resource.qualifiedName = other.qualifiedName := by
    rw [Resource.qualifiedName, Resource.qualifiedName, space, name]
  rw [ofResource, ofResource, kind, space, name, identity]
  by_cases resourceAsked : asked = "resource"
  · subst resourceAsked
    exact .same _
  by_cases specAsked : asked = "spec"
  · subst specAsked
    exact spec
  · have passed : (asked == "resource") = false ∧ (asked == "spec") = false := by
      simp [resourceAsked, specAsked]
    simp only [root, List.lookup_cons, passed.1, passed.2]
    exact .same _

end Scopes

variable {scopes others : Scopes}

theorem LabelSource.text_of_reordered (source : LabelSource) (reordered : scopes.Reordered others) :
    source.text scopes = source.text others := by
  cases source with
  | value scope paths form => exact form.text_of_reordered ((reordered scope).lookupFirst paths)
  | loadBalancer scope policy facet => exact (reordered.read scope _).facet_eq facet
  | instanceReference scope facet =>
      simp only [LabelSource.text, (reordered scope).scalar_eq, (reordered.read "resource" _).scalar_eq]

theorem expand_of_reordered (steps : List FanOut) (reordered : scopes.Reordered others) :
    List.Forall₂ Scopes.Reordered (expand steps scopes) (expand steps others) := by
  induction steps generalizing scopes others with
  | nil => exact .cons reordered .nil
  | cons step rest ih =>
      rw [expand_cons, expand_cons]
      have elements := (reordered.read step.source step.path).elements
      refine List.rel_flatMap elements ?_
      intro element other bound
      exact ih (reordered.bind step.scope bound)

namespace FamilySchema

variable (schema : FamilySchema)

theorem isPresent_of_reordered (reordered : scopes.Reordered others) :
    schema.isPresent others = schema.isPresent scopes :=
  schema.isPresent_congr fun scope path _ => (reordered.read scope path).isNull_eq.symm

theorem rows_of_reordered (reordered : scopes.Reordered others) : schema.rows scopes = schema.rows others := by
  have leaves := expand_of_reordered schema.fanOut reordered
  refine (schema.rows_congr (schema.isPresent_of_reordered reordered) leaves fun _ _ leaf => ?_).symm
  exact schema.row_congr fun label _ => (label.source.text_of_reordered leaf).symm

end FamilySchema

/-- Resources of one identity whose specs differ only in the order of the members of objects have the
same rows in the same order, under every schema. -/
theorem ResourceSchema.extract_of_reordered (schema : ResourceSchema) {resource other : Resource}
    (kind : resource.kind = other.kind) (space : resource.space = other.space)
    (name : resource.name = other.name) (spec : resource.spec.Reordered other.spec) :
    schema.extract resource = schema.extract other := by
  have reordered := Scopes.reordered_ofResource kind space name spec
  exact List.flatMap_congr fun family _ => family.rows_of_reordered reordered

/-! A virtual service written twice: the members of a route, of the header matches of its match and of
one of these matches stand in another order. -/

namespace ReorderedRoute

open MeshGauges.Tree

def userMatch : Tree := .object [("exact", .text "ann"), ("prefix", .text "a")]

def otherUserMatch : Tree := .object [("prefix", .text "a"), ("exact", .text "ann")]

def headers : Tree := .object [("user", userMatch), ("agent", .object [("regex", .text "curl.*")])]

def otherHeaders : Tree :=
  .object [("agent", .object [("regex", .text "curl.*")]), ("user", otherUserMatch)]

def timeout : Tree := .object [("seconds", .integer 1), ("nanos", .integer 500000000)]

def otherTimeout : Tree := .object [("nanos", .integer 500000000), ("seconds", .integer 1)]

def route : Tree := .object
  [("timeout", timeout), ("match", .list [.object [("headers", headers)]])]

def otherRoute : Tree := .object
  [("match", .list [.object [("headers", otherHeaders)]]), ("timeout", otherTimeout)]

def spec : Tree := .object [("http", .list [route])]

def otherSpec : Tree := .object [("http", .list [otherRoute])]

def service : Resource := ⟨"virtual_service", "mesh", "reviews", spec, "1"⟩

def otherService : Resource := ⟨"virtual_service", "mesh", "reviews", otherSpec, "2"⟩

theorem headers_reordered : headers.Reordered otherHeaders := by
  have users : userMatch.Reordered otherUserMatch :=
    .object (by decide) (.swap _ _ _) rfl (.cons (.same _) (.cons (.same _) .nil))
  exact .object (by decide) (.swap _ _ _) rfl (.cons (.same _) (.cons users .nil))

theorem spec_reordered : spec.Reordered otherSpec := by
  have times : timeout.Reordered otherTimeout :=
    .object (by decide) (.swap _ _ _) rfl (.cons (.same _) (.cons (.same _) .nil))
  have only : Reordered (.object [("headers", headers)]) (.object [("headers", otherHeaders)]) :=
    .object (by decide) (.refl _) rfl (.cons headers_reordered .nil)
  have routes : route.Reordered otherRoute :=
    .object (by decide) (.swap _ _ _) rfl (.cons (.list (.cons only .nil)) (.cons times .nil))
  exact .object (by decide) (.refl _) rfl (.cons (.list (.cons routes .nil)) .nil)

theorem extract_of_reordered_route :
    spec.Reordered otherSpec ∧ (VirtualService.schema.extract service).length = 3 ∧
      VirtualService.schema.extract service = VirtualService.schema.extract otherService :=
  ⟨spec_reordered, rfl,
    ResourceSchema.extract_of_reordered VirtualService.schema rfl rfl rfl spec_reordered⟩

end ReorderedRoute
end MeshGauges
