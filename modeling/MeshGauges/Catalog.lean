import MeshGauges.Schema.DestinationRule
import MeshGauges.Schema.MixerRule
import MeshGauges.Schema.Rows
import MeshGauges.Schema.VirtualService
import MeshGauges.Settings.Error

/-! The collectors that can be enabled. -/

set_option autoImplicit false

namespace MeshGauges

/-- What a collector is made of: a name, a kind of resource and its schema. -/
structure CatalogEntry where
  name : String
  kind : ResourceKind
  schema : ResourceSchema

namespace Catalog

def entries : List CatalogEntry :=
  [⟨"destinationrules", .destinationRule, DestinationRule.schema⟩,
   ⟨"rules", .mixerRule, MixerRule.schema⟩,
   ⟨"virtualservices", .virtualService, VirtualService.schema⟩]

def names : List String := entries.map CatalogEntry.name

def entry? (name : String) : Option CatalogEntry :=
  entries.find? fun entry => entry.name == name

def schemaOfKind? (kind : String) : Option ResourceSchema :=
  (entries.find? fun entry => entry.kind.name == kind).map CatalogEntry.schema

def addCollector (selected : List CatalogEntry) (name : String) :
    Except SettingsError (List CatalogEntry) :=
  match entry? name with
  | none => .error (.unknownCollector name names)
  | some entry =>
      if selected.any fun other => other.name == name then .ok selected else .ok (selected ++ [entry])

/-- The collectors that names select, in the order of their first mention; no name selects all. -/
def select (wanted : List String) : Except SettingsError (List CatalogEntry) := do
  let selected ← wanted.foldlM addCollector []
  return if selected.isEmpty then entries else selected

end Catalog
end MeshGauges
