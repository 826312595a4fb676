import MeshGauges.Tree.Literal

/-! Resources: cluster objects as the replicas hold them. -/

set_option autoImplicit false

namespace MeshGauges

/-- Where the objects of one kind are found in the cluster's interface. -/
structure ResourceKind where
  name : String
  group : String
  version : String
  plural : String
  deriving Repr, DecidableEq

namespace ResourceKind

def destinationRule : ResourceKind :=
  ⟨"destination_rule", "networking.istio.io", "v1alpha3", "destinationrules"⟩

def virtualService : ResourceKind :=
  ⟨"virtual_service", "networking.istio.io", "v1alpha3", "virtualservices"⟩

def mixerRule : ResourceKind :=
  ⟨"rule", "config.istio.io", "v1alpha2", "rules"⟩

end ResourceKind

/-- A namespace and a name, which tell the objects of one kind apart. -/
abbrev ResourceKey := String × String

/-- One cluster object: its identity, its spec tree and the version it was seen at. -/
structure Resource where
  kind : String
  space : String
  name : String
  spec : Tree
  version : String
  deriving Repr, Inhabited

namespace Resource

/-- A member of an object as an object: one that is missing has no members, another value refuses. -/
def section? (object : Tree) (name : String) : Option Tree :=
  let found := (object.member name).orElse (.object [])
  found.members?.map fun _ => found

def field (metadata : Tree) (name : String) : String :=
  ((metadata.member name).orElse (.text "")).asText

/-- The resource that a cluster object describes. An object whose metadata is not an object, and a tree
that is no object at all, describe none. -/
def ofObject? (kind : String) (object : Tree) : Option Resource := do
  let _ ← object.members?
  let metadata ← section? object "metadata"
  return {
    kind := kind
    space := field metadata "namespace"
    name := field metadata "name"
    spec := (object.member "spec").orElse (.object [])
    version := field metadata "resourceVersion" }

def key (resource : Resource) : ResourceKey :=
  (resource.space, resource.name)

def qualifiedName (resource : Resource) : String :=
  resource.name ++ "." ++ resource.space

end Resource
end MeshGauges
