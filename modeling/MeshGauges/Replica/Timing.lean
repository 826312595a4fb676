import MeshGauges.Number.Binary
import MeshGauges.Number.Numeral
import MeshGauges.Replica.Fault

/-! The timing of a worker.

Times are floats, in seconds. The two bounds of a watch are spans, which may also be whole numbers of any
size: a whole number is compared with a float exactly, and it is rounded only where it is added to one. -/

set_option autoImplicit false

namespace MeshGauges

open MeshGauges.Number

inductive Span where
  | whole (seconds : Int)
  | float (seconds : Float)
  deriving Repr

/-- A span as a float; a whole number that is too large to be rounded to one has none. -/
def Span.toFloat? : Span → Option Float
  | .whole seconds => nearestFinite? seconds
  | .float seconds => some seconds

/-- The timing of a worker: when it lists again, how long one watch request lasts at most, and how its
pauses grow from failure to failure. -/
structure Timing where
  resyncPeriod : Span := .float 300.0
  watchTimeout : Span := .float 60.0
  backoffInitial : Float := 1.0
  backoffMax : Float := 30.0
  deriving Repr

def wholeSeconds (seconds : Float) : Except Fault Int :=
  match truncate? seconds with
  | some whole => .ok (max 1 whole)
  | none => .error (match binaryParts seconds with
      | .undefined => .timeoutUndefined
      | _ => .timeoutInfinite)

/-- The timeout of a watch request: the shorter of the time left and the longest timeout, in whole
seconds, and at least one. -/
def requestTimeout (remaining : Float) : Span → Except Fault Int
  | .whole limit => if isBelow limit remaining then .ok (max 1 limit) else wholeSeconds remaining
  | .float limit => wholeSeconds (earlier remaining limit)

end MeshGauges
