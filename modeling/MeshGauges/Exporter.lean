import MeshGauges.Catalog
import MeshGauges.Replica.Group
import MeshGauges.Scrape.Exposition
import MeshGauges.Settings.Basic

/-! The exporter: replicas, their collectors and two endpoints.

For every enabled collector there is a replica of its kind. A scrape takes the resources that the
replicas hold at that moment. The run begins with the replicas, then serves the exporter's own counters
and last the rows; a signal ends it. -/

set_option autoImplicit false

namespace MeshGauges

structure Exporter where
  settings : Settings
  replicas : List (String × Replica)
  coordinator : Coordinator

namespace Exporter

def build (settings : Settings) : Except SettingsError (Exporter × Journal) := do
  let selected ← Catalog.select settings.collectors
  let exporter : Exporter := {
    settings := settings
    replicas := selected.map fun entry =>
      (entry.name, Replica.ofNamespaces entry.kind settings.namespaces)
    coordinator := {
      collectors := selected.map fun entry => ⟨entry.name, entry.schema, {}⟩ } }
  return (exporter,
    [.info ("Active collectors: " ++ String.intercalate "," exporter.coordinator.names),
     .info ("Using " ++ Settings.describeNamespaces settings.namespaces)])

def kinds (exporter : Exporter) : List ResourceKind :=
  exporter.replicas.map fun entry => entry.2.kind

/-- Let the collectors find what the replicas hold. -/
def supplied (exporter : Exporter) : Coordinator :=
  exporter.replicas.foldl
    (fun coordinator (name, replica) => coordinator.replaceResources name replica.resources)
    exporter.coordinator

def scrape (exporter : Exporter) : Exporter × Scrape :=
  let (coordinator, scrape) := exporter.supplied.scrape
  ({ exporter with coordinator := coordinator }, scrape)

def expose (exporter : Exporter) : Exporter × String × Journal :=
  let (coordinator, text, journal) := exporter.supplied.expose
  ({ exporter with coordinator := coordinator }, text, journal)

def perform (exporter : Exporter) (kind : String) (index : Nat) (operation : Worker.Operation) :
    Exporter × Option Worker.Report :=
  let changed := exporter.replicas.map fun (name, replica) =>
    if replica.kind.name = kind then
      let (after, report) := replica.perform index operation
      ((name, after), report)
    else ((name, replica), none)
  ({ exporter with replicas := changed.map Prod.fst }, changed.findSome? Prod.snd)

def relistAll (listings : String → Listings) (exporter : Exporter) : Exporter × List Worker.Report :=
  let relisted := exporter.replicas.map fun (name, replica) =>
    let outcomes := replica.workers.map fun worker =>
      worker.perform (.relist ((listings replica.kind.name).answer worker.space))
    ((name, { replica with workers := outcomes.map Prod.fst }), outcomes.map Prod.snd)
  ({ exporter with replicas := relisted.map Prod.fst }, relisted.flatMap Prod.snd)

structure Served where
  endpoint : Endpoint
  host : String
  port : Int
  deriving Repr, DecidableEq

def served (settings : Settings) : List Served :=
  [⟨.telemetry, settings.telemetryHost, settings.telemetryPort⟩,
   ⟨.metrics, settings.metricsHost, settings.metricsPort⟩]

def serverTitle : Endpoint → String
  | .telemetry => "istio-state-metrics self metrics server"
  | .metrics => "metrics server"

def servedReport (server : Served) : Message :=
  .info ("Starting " ++ serverTitle server.endpoint ++ ": " ++ server.host ++ ":" ++ toString server.port)

inductive StopSignal where
  | interrupt | terminate
  deriving Repr, DecidableEq

def StopSignal.number : StopSignal → Nat
  | .interrupt => 2
  | .terminate => 15

def StopSignal.name : StopSignal → String
  | .interrupt => "SIGINT"
  | .terminate => "SIGTERM"

def stopSignals : List StopSignal := [.interrupt, .terminate]

def runJournal (settings : Settings) (signal : StopSignal) : Journal :=
  (served settings).map servedReport ++
    [.info ("Received " ++ signal.name ++ ", shutting down."), .info "Shutting down mirrors"]

def shutdownGrace : Float := 5.0

/-- The exporter after a run in which every worker could sync before the signal came. -/
def afterRun (exporter : Exporter) (listings : String → Listings) : Exporter :=
  let group : Group := {
    replicas := exporter.replicas.map fun (_, replica) =>
      (replica, fun space => some ((listings replica.kind.name).answer space)) }
  let ending := group.start.shutdown shutdownGrace
  { exporter with replicas := (exporter.replicas.map Prod.fst).zip ending.replicas }

end Exporter
end MeshGauges
