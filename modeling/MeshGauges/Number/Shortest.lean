import MeshGauges.Number.Binary
import MeshGauges.Number.Decimal

/-! The shortest decimal that reads back as a given float.

The reals that round to a float form an interval, which holds its ends when the mantissa is even. For
one digit, two digits and so on, the two neighbours of the float on that decimal grid are tried; the
first grid with a point in the interval wins, and of two such points the nearer one. -/

set_option autoImplicit false

namespace MeshGauges.Number

/-- The reals that round to one positive float, over a common denominator. -/
structure RoundingInterval where
  lower : Nat
  value : Nat
  upper : Nat
  denominator : Nat
  closed : Bool

/-- The interval of a positive float. Below the first float of a binade the gap is half as wide. -/
def roundingInterval (mantissa : Nat) (exponent : Int) : RoundingInterval :=
  let narrow := mantissa = leastNormalMantissa ∧ leastBinaryExponent < exponent
  let unit := binaryFraction 1 exponent
  { lower := (4 * mantissa - if narrow then 1 else 2) * unit.1
    value := 4 * mantissa * unit.1
    upper := (4 * mantissa + 2) * unit.1
    denominator := 4 * unit.2
    closed := mantissa % 2 = 0 }

def leadingExponent (numerator denominator : Nat) : Int :=
  if denominator ≤ numerator then (digitCount (numerator / denominator) : Int) - 1
  else -(digitCount ((denominator + numerator - 1) / numerator - 1) : Int)

namespace RoundingInterval

/-- The two sides of the comparison of a decimal with a numerator over the common denominator. -/
def scaled (interval : RoundingInterval) (coefficient : Nat) (exponent : Int) (numerator : Nat) : Nat × Nat :=
  if 0 ≤ exponent then (coefficient * Nat.pow 10 exponent.toNat * interval.denominator, numerator)
  else (coefficient * interval.denominator, numerator * Nat.pow 10 (-exponent).toNat)

def holds (interval : RoundingInterval) (coefficient : Nat) (exponent : Int) : Bool :=
  let low := interval.scaled coefficient exponent interval.lower
  let high := interval.scaled coefficient exponent interval.upper
  if interval.closed then low.2 ≤ low.1 && high.1 ≤ high.2 else low.2 < low.1 && high.1 < high.2

/-- The point of one decimal grid that lies in the interval nearest to the float. -/
def nearest? (interval : RoundingInterval) (exponent : Int) : Option (Nat × Int) :=
  let cell := interval.scaled 1 exponent interval.value
  let below := cell.2 / cell.1
  let remainder := 2 * (cell.2 % cell.1)
  let lowFits := decide (0 < below) && interval.holds below exponent
  let highFits := interval.holds (below + 1) exponent
  if lowFits && highFits then
    if remainder < cell.1 || (remainder = cell.1 && below % 2 = 0) then some (below, exponent)
    else some (below + 1, exponent)
  else if lowFits then some (below, exponent)
  else if highFits then some (below + 1, exponent)
  else none

/-- Try grids of more and more digits, down from the leading exponent. -/
def search (interval : RoundingInterval) (leading : Int) : Nat → Nat → Nat × Int
  | _, 0 => (0, 0)
  | tried, more + 1 =>
      match interval.nearest? (leading - tried) with
      | some found => found
      | none => search interval leading (tried + 1) more

end RoundingInterval

def dropZeros : Nat → Nat → Int → Nat × Int
  | 0, coefficient, exponent => (coefficient, exponent)
  | fuel + 1, coefficient, exponent =>
      if coefficient % 10 = 0 && coefficient ≠ 0 then dropZeros fuel (coefficient / 10) (exponent + 1)
      else (coefficient, exponent)

/-- The shortest decimal of a mantissa and an exponent of two; seventeen digits always suffice. -/
def shortestDecimal (negative : Bool) (mantissa : Nat) (exponent : Int) : Decimal :=
  if mantissa = 0 then ⟨negative, 0, 0⟩
  else
    let interval := roundingInterval mantissa exponent
    let leading := leadingExponent interval.value interval.denominator
    let found := interval.search leading 0 18
    let short := dropZeros 20 found.1 found.2
    ⟨negative, short.1, short.2⟩

def shortest? (value : Float) : Option Decimal :=
  match binaryParts value with
  | .finite negative mantissa exponent => some (shortestDecimal negative mantissa exponent)
  | _ => none

end MeshGauges.Number
