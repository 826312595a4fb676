import MeshGauges.Number.Written

/-! Gauge families and their rows.

A family declares its label names; a row of it has exactly one text for each. Every row has the value
one: what a row says is in its labels. -/

set_option autoImplicit false

namespace MeshGauges

/-- A declared gauge: name, help text and label names in order. -/
structure Family where
  name : String
  documentation : String
  labelNames : List String
  deriving Repr, DecidableEq

structure Row where
  family : Family
  labels : List String
  arity : labels.length = family.labelNames.length
  deriving DecidableEq

def gaugeValue : Float := 1.0

structure ArityError where
  family : String
  expected : Nat
  given : Nat
  deriving Repr, DecidableEq

def ArityError.message (error : ArityError) : String :=
  error.family ++ " expects " ++ toString error.expected ++ " label values, got " ++ toString error.given

namespace Row

/-- What tells two samples of a scrape apart: the family's name and the label texts. -/
def identity (row : Row) : String × List String :=
  (row.family.name, row.labels)

def pairs (row : Row) : List (String × String) :=
  row.family.labelNames.zip row.labels

def ofLabels (family : Family) (labels : List String) : Except ArityError Row :=
  if arity : labels.length = family.labelNames.length then .ok ⟨family, labels, arity⟩
  else .error ⟨family.name, family.labelNames.length, labels.length⟩

end Row
end MeshGauges
