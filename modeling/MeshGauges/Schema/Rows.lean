import MeshGauges.Schema.Basic

/-! The rows of a resource.

A family has no row unless all its required sections are present. Otherwise it has one row for each way
of choosing an element at every fan-out step, in the order of the elements, the first step outermost. -/

set_option autoImplicit false

namespace MeshGauges

/-- The scopes reached by binding every fan-out step to each of its elements in turn. -/
def expand : List FanOut → Scopes → List Scopes
  | [], scopes => [scopes]
  | step :: rest, scopes =>
      (scopes.read step.source step.path).elements.flatMap fun element =>
        expand rest (scopes.bind step.scope element)

namespace FamilySchema

def isPresent (schema : FamilySchema) (scopes : Scopes) : Bool :=
  schema.requires.all fun (scope, path) => !(scopes.read scope path).isNull

def row (schema : FamilySchema) (scopes : Scopes) : Row :=
  ⟨schema.family, schema.labels.map fun label => label.source.text scopes, by simp [family]⟩

def rows (schema : FamilySchema) (scopes : Scopes) : List Row :=
  if schema.isPresent scopes then (expand schema.fanOut scopes).map schema.row else []

end FamilySchema

def ResourceSchema.extract (schema : ResourceSchema) (resource : Resource) : List Row :=
  schema.families.flatMap fun family => family.rows (Scopes.ofResource resource)

@[simp] theorem expand_nil (scopes : Scopes) : expand [] scopes = [scopes] := rfl

theorem expand_cons (step : FanOut) (rest : List FanOut) (scopes : Scopes) :
    expand (step :: rest) scopes =
      (scopes.read step.source step.path).elements.flatMap fun element =>
        expand rest (scopes.bind step.scope element) := rfl

end MeshGauges
