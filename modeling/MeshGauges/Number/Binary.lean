/-! Binary floating-point numbers taken apart.

A 64-bit float is not a number, infinite, or a sign with a mantissa and an exponent of two. The exact
texts, the truncation and the comparisons with decimal texts are computed on these parts. -/

set_option autoImplicit false

namespace MeshGauges.Number

/-- What a float stands for: a finite one is the mantissa times two to the exponent. -/
inductive BinaryParts where
  | undefined
  | infinite (negative : Bool)
  | finite (negative : Bool) (mantissa : Nat) (exponent : Int)
  deriving Repr, DecidableEq

/-- The smallest exponent of two, which subnormal floats have. -/
def leastBinaryExponent : Int := -1074

def leastNormalMantissa : Nat := Nat.pow 2 52

def binaryParts (value : Float) : BinaryParts :=
  let bits := value.toBits.toNat
  let negative := decide (Nat.pow 2 63 ≤ bits)
  let field := bits / Nat.pow 2 52 % Nat.pow 2 11
  let fraction := bits % Nat.pow 2 52
  if field = 0 then .finite negative fraction leastBinaryExponent
  else if field < 2047 then
    .finite negative (leastNormalMantissa + fraction) (leastBinaryExponent + (field - 1 : Nat))
  else if fraction = 0 then .infinite negative
  else .undefined

def binaryFraction (mantissa : Nat) (exponent : Int) : Nat × Nat :=
  if 0 ≤ exponent then (mantissa * Nat.pow 2 exponent.toNat, 1)
  else (mantissa, Nat.pow 2 (-exponent).toNat)

def withSign (negative : Bool) (magnitude : Nat) : Int :=
  if negative then -(magnitude : Int) else magnitude

/-- The integer left when the fraction of a finite float is cut off. -/
def truncate? (value : Float) : Option Int :=
  match binaryParts value with
  | .finite negative mantissa exponent =>
      let fraction := binaryFraction mantissa exponent
      some (withSign negative (fraction.1 / fraction.2))
  | _ => none

def integral? (value : Float) : Option Int :=
  match binaryParts value with
  | .finite negative mantissa exponent =>
      let fraction := binaryFraction mantissa exponent
      if fraction.1 % fraction.2 = 0 then some (withSign negative (fraction.1 / fraction.2)) else none
  | _ => none

/-- Whether an integer is below a float; their exact values are compared. -/
def isBelow (value : Int) (bound : Float) : Bool :=
  match binaryParts bound with
  | .undefined => false
  | .infinite negative => !negative
  | .finite negative mantissa exponent =>
      let fraction := binaryFraction mantissa exponent
      value * (fraction.2 : Int) < withSign negative fraction.1

/-- The smaller of two floats; the first stays unless the second is strictly smaller. -/
def earlier (first second : Float) : Float :=
  if second < first then second else first

end MeshGauges.Number
