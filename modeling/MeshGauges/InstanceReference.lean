/-! References to mixer instances.

A reference is written name.kind.namespace. Only the first two dots separate fields, so further dots
belong to the namespace. A missing or empty kind is unknown, and a missing or empty namespace is that of
the rule which holds the reference. -/

set_option autoImplicit false

namespace MeshGauges

structure InstanceReference where
  name : String
  kind : String
  space : String
  deriving Repr, DecidableEq

namespace InstanceReference

def unknownKind : String := "unknown"

/-- Split at the first dot; nothing follows when there is none. -/
def splitAtDot (characters : List Char) : List Char × List Char :=
  (characters.takeWhile (· ≠ '.'), (characters.dropWhile (· ≠ '.')).drop 1)

def orWhenEmpty (characters : List Char) (alternative : String) : String :=
  if characters.isEmpty then alternative else String.ofList characters

def read (reference ruleSpace : String) : InstanceReference :=
  let (name, afterName) := splitAtDot reference.toList
  let (kind, space) := splitAtDot afterName
  ⟨String.ofList name, orWhenEmpty kind unknownKind, orWhenEmpty space ruleSpace⟩

inductive Facet where
  | name | kind | space
  deriving Repr, DecidableEq

def facet (instanceReference : InstanceReference) : Facet → String
  | .name => instanceReference.name
  | .kind => instanceReference.kind
  | .space => instanceReference.space

end InstanceReference
end MeshGauges
