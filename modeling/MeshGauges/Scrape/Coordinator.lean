import MeshGauges.Journal
import MeshGauges.Schema.Rows
import MeshGauges.Scrape.Telemetry
import MeshGauges.Text.Quoted

/-! Scrapes: the rows of all collectors.

A collector flattens the resources of one kind and keeps the first of several rows with one identity.
A scrape asks every collector in the order of registration. One that fails is counted and left out, and
the others are not affected. -/

set_option autoImplicit false

namespace MeshGauges

/-- Where a collector gets its resources from. While it is broken it yields a fault instead. -/
structure Supply where
  resources : List Resource := []
  fault : Option String := none

def Supply.list (supply : Supply) : Except String (List Resource) :=
  match supply.fault with
  | some text => .error text
  | none => .ok supply.resources

structure Collector where
  name : String
  schema : ResourceSchema
  supply : Supply

structure Collection where
  count : Nat
  rows : List Row

/-- Leave out rows whose identity was seen before, or comes earlier. -/
def keepFirst : List (String × List String) → List Row → List Row
  | _, [] => []
  | seen, row :: rest =>
      if row.identity ∈ seen then keepFirst seen rest
      else row :: keepFirst (row.identity :: seen) rest

namespace Collector

def resource (collector : Collector) : String := collector.schema.kind

def families (collector : Collector) : List Family := collector.schema.metricFamilies

/-- The number of resources and their rows, each identity once. -/
def collectFrom (schema : ResourceSchema) (resources : List Resource) : Collection :=
  ⟨resources.length, keepFirst [] (resources.flatMap schema.extract)⟩

def collect (collector : Collector) : Except String Collection :=
  collector.supply.list.map (collectFrom collector.schema)

end Collector

/-- The registered collectors and the tallies of their scrapes. -/
structure Coordinator where
  collectors : List Collector := []
  telemetry : Telemetry := []

structure NameTaken where
  name : String
  deriving Repr, DecidableEq

def NameTaken.message (error : NameTaken) : String :=
  "Collector " ++ Text.quote error.name ++ " is already registered"

structure Scrape where
  rows : List Row
  journal : Journal

namespace Coordinator

def names (coordinator : Coordinator) : List String :=
  coordinator.collectors.map Collector.name

def families (coordinator : Coordinator) : List Family :=
  coordinator.collectors.flatMap Collector.families

def find? (coordinator : Coordinator) (name : String) : Option Collector :=
  coordinator.collectors.find? fun collector => collector.name == name

def register (coordinator : Coordinator) (collector : Collector) : Except NameTaken Coordinator :=
  if collector.name ∈ coordinator.names then .error ⟨collector.name⟩
  else .ok { coordinator with collectors := coordinator.collectors ++ [collector] }

def updateSupply (coordinator : Coordinator) (name : String) (change : Supply → Supply) : Coordinator :=
  { coordinator with
    collectors := coordinator.collectors.map fun collector =>
      if collector.name = name then { collector with supply := change collector.supply } else collector }

def replaceResources (coordinator : Coordinator) (name : String) (resources : List Resource) : Coordinator :=
  coordinator.updateSupply name fun supply => { supply with resources := resources }

def setFault (coordinator : Coordinator) (name : String) (fault : Option String) : Coordinator :=
  coordinator.updateSupply name fun supply => { supply with fault := fault }

def failureReport (collector : Collector) : Message :=
  .error ("Scrape of " ++ collector.resource ++ " failed")

def countCollection (telemetry : Telemetry) (collector : Collector) : Telemetry :=
  match collector.collect with
  | .ok collection => telemetry.recordSuccess collector.resource collection.count
  | .error _ => telemetry.recordFailure collector.resource

/-- The rows that a collector contributes; none when it fails. -/
def contribution (collector : Collector) : List Row :=
  match collector.collect with
  | .ok collection => collection.rows
  | .error _ => []

/-- The report that a collector causes; none unless it fails. -/
def complaint (collector : Collector) : Journal :=
  match collector.collect with
  | .ok _ => []
  | .error _ => [failureReport collector]

def scrape (coordinator : Coordinator) : Coordinator × Scrape :=
  ({ coordinator with telemetry := coordinator.collectors.foldl countCollection coordinator.telemetry },
    { rows := coordinator.collectors.flatMap contribution
      journal := coordinator.collectors.flatMap complaint })

end Coordinator
end MeshGauges
