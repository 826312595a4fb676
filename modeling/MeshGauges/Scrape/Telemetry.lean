import MeshGauges.Number.Written

/-! What the program counts about its own scrapes.

For every kind of resource there is a tally of failed and successful collections and of the resources
seen. A kind has series only from its first collection on, and series about resources only from its
first success on. -/

set_option autoImplicit false

namespace MeshGauges

structure Tally where
  failures : Nat := 0
  successes : Nat := 0
  resources : Nat := 0
  deriving Repr, DecidableEq

/-- The tallies of the kinds that were collected, by kind. -/
abbrev Telemetry := List (String × Tally)

namespace Telemetry

/-- The tally of a kind; one without collections has counted nothing. -/
def tally (telemetry : Telemetry) (kind : String) : Tally :=
  (List.lookup kind telemetry).getD {}

def update (change : Tally → Tally) (kind : String) : Telemetry → Telemetry
  | [] => [(kind, change {})]
  | (other, tally) :: rest =>
      if other = kind then (other, change tally) :: rest else (other, tally) :: update change kind rest

def recordSuccess (telemetry : Telemetry) (kind : String) (count : Nat) : Telemetry :=
  telemetry.update
    (fun tally => { tally with successes := tally.successes + 1, resources := tally.resources + count })
    kind

def recordFailure (telemetry : Telemetry) (kind : String) : Telemetry :=
  telemetry.update (fun tally => { tally with failures := tally.failures + 1 }) kind

structure Series where
  name : String
  kind : String
  value : Nat
  deriving Repr, DecidableEq

def errorSeries : String := "istio_state_metrics_scrape_error_total"
def countSeries : String := "istio_state_metrics_resources_per_scrape_count"
def sumSeries : String := "istio_state_metrics_resources_per_scrape_sum"

def seriesOf (kind : String) (tally : Tally) : List Series :=
  (if tally.successes = 0 then []
   else [⟨countSeries, kind, tally.successes⟩, ⟨sumSeries, kind, tally.resources⟩]) ++
    [⟨errorSeries, kind, tally.failures⟩]

/-- The order of series: by name, then by kind. -/
def Series.precedes (first second : Series) : Bool :=
  first.name < second.name || (first.name == second.name && first.kind ≤ second.kind)

def series (telemetry : Telemetry) : List Series :=
  (telemetry.flatMap fun (kind, tally) => seriesOf kind tally).mergeSort Series.precedes

def Series.valueText (series : Series) : String :=
  Number.floatText (Float.ofNat series.value)

end Telemetry
end MeshGauges
