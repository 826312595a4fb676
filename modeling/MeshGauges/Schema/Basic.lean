import MeshGauges.InstanceReference
import MeshGauges.LoadBalancer
import MeshGauges.Metric
import MeshGauges.Resource

/-! Schemas: how resources of one kind flatten to rows.

A schema lists the families of a kind. Each family names the sections that have to be present, the lists
that it has one row for each element of, and its labels. Labels read named scopes: the identity of the
resource, its spec, and the elements that the row was fanned out to. Schemas are data, so what a label
can read is visible in its source. -/

set_option autoImplicit false

namespace MeshGauges

inductive Form where
  | scalar | joined | pairs | headerMatches | duration
  deriving Repr, DecidableEq

/-- The text of a tree in a form; joined lists have commas. -/
def Form.text : Form → Tree → String
  | .scalar => Rendering.scalar
  | .joined => Rendering.joined ","
  | .pairs => Rendering.pairs
  | .headerMatches => Rendering.headerMatches
  | .duration => Rendering.duration

/-- Trees by scope name. The binding at the head hides earlier ones of its name. -/
abbrev Scopes := List (String × Tree)

namespace Scopes

/-- The tree that a scope name stands for; null when it stands for none. -/
def root (scopes : Scopes) (name : String) : Tree :=
  (List.lookup name scopes).getD .null

def read (scopes : Scopes) (name : String) (path : Path) : Tree :=
  (scopes.root name).lookup path

def bind (scopes : Scopes) (name : String) (tree : Tree) : Scopes :=
  (name, tree) :: scopes

/-- The scopes that every family of a resource starts from. -/
def ofResource (resource : Resource) : Scopes :=
  [("resource", .object
      [("kind", .text resource.kind), ("name", .text resource.name),
       ("namespace", .text resource.space), ("id", .text resource.qualifiedName)]),
   ("spec", resource.spec)]

end Scopes

inductive LabelSource where
  /-- The first present value along alternative paths from a scope, in a form. -/
  | value (scope : String) (paths : List Path) (form : Form)
  /-- A facet of the load balancer in the section at a path from a scope. -/
  | loadBalancer (scope : String) (policy : Path) (facet : LoadBalancer.Facet)
  /-- A facet of the instance that the scope of that name refers to, in the rule's namespace. -/
  | instanceReference (scope : String) (facet : InstanceReference.Facet)
  deriving Repr, DecidableEq

def LabelSource.text (source : LabelSource) (scopes : Scopes) : String :=
  match source with
  | .value scope paths form => form.text ((scopes.root scope).lookupFirst paths)
  | .loadBalancer scope policy facet => facet.text (scopes.read scope (policy ++ ["loadBalancer"]))
  | .instanceReference scope facet =>
      (InstanceReference.read (Rendering.scalar (scopes.root scope))
        (Rendering.scalar (scopes.read "resource" ["namespace"]))).facet facet

structure Label where
  name : String
  source : LabelSource
  deriving Repr, DecidableEq

namespace Label

/-- A label that shows what is found at a path, or at one of its aliases, in a form. -/
def of (form : Form) (name scope : String) (path : Path) (aliases : List Path := []) : Label :=
  ⟨name, .value scope (path :: aliases) form⟩

def resourceName (name : String) : Label := .of .scalar name "resource" ["name"]

def resourceSpace (name : String := "namespace") : Label := .of .scalar name "resource" ["namespace"]

def resourceId (name : String) : Label := .of .scalar name "resource" ["id"]

end Label

/-- One step of a fan-out: bind a scope to each element of the list at a path from another scope. -/
structure FanOut where
  scope : String
  source : String
  path : Path
  deriving Repr, DecidableEq

structure FamilySchema where
  name : String
  documentation : String
  labels : List Label
  requires : List (String × Path) := []
  fanOut : List FanOut := []
  distinct : (labels.map Label.name).Nodup := by decide

namespace FamilySchema

def family (schema : FamilySchema) : Family :=
  ⟨schema.name, schema.documentation, schema.labels.map Label.name⟩

structure RepeatedLabel where
  family : String
  labelNames : List String
  deriving Repr, DecidableEq

def RepeatedLabel.message (error : RepeatedLabel) : String :=
  "Duplicate label names in " ++ error.family ++ ": " ++
    (Tree.list (error.labelNames.map Tree.text)).literal

/-- A family schema from its parts, refused when a label name repeats. -/
def ofParts (name documentation : String) (labels : List Label) (requires : List (String × Path))
    (fanOut : List FanOut) : Except RepeatedLabel FamilySchema :=
  if distinct : (labels.map Label.name).Nodup then
    .ok { name, documentation, labels, requires, fanOut, distinct }
  else .error ⟨name, labels.map Label.name⟩

end FamilySchema

structure ResourceSchema where
  kind : String
  families : List FamilySchema

def ResourceSchema.metricFamilies (schema : ResourceSchema) : List Family :=
  schema.families.map FamilySchema.family

end MeshGauges
