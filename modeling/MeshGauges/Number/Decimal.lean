/-! Decimal numbers with 28 significant digits.

A decimal is a sign, a coefficient and an exponent of ten; zero keeps its sign. Products and sums are
computed exactly and then rounded to 28 significant digits, ties to the even neighbour. The plain text
of a decimal has no exponent and no superfluous zeros, so it depends only on the sign and the value. -/

set_option autoImplicit false

namespace MeshGauges.Number

/-- The decimal number coefficient times ten to the exponent, with a sign that zero also carries. -/
structure Decimal where
  negative : Bool
  coefficient : Nat
  exponent : Int
  deriving Repr, DecidableEq

def digitCount (value : Nat) : Nat :=
  (Nat.toDigits 10 value).length

/-- The quotient rounded to the nearest natural number, a half to the even one. -/
def divideHalfEven (numerator denominator : Nat) : Nat :=
  let quotient := numerator / denominator
  let doubled := 2 * (numerator % denominator)
  if doubled < denominator then quotient
  else if denominator < doubled then quotient + 1
  else if quotient % 2 = 0 then quotient
  else quotient + 1

namespace Decimal

def precision : Nat := 28

def zero : Decimal := ⟨false, 0, 0⟩

def ofNat (value : Nat) : Decimal := ⟨false, value, 0⟩

def signedCoefficient (value : Decimal) : Int :=
  if value.negative then -(value.coefficient : Int) else value.coefficient

def adjustedExponent (value : Decimal) : Int :=
  value.exponent + digitCount value.coefficient - 1

def isZero (value : Decimal) : Bool :=
  value.coefficient = 0

def rounded (value : Decimal) : Decimal :=
  let excess := digitCount value.coefficient - precision
  { negative := value.negative
    coefficient := divideHalfEven value.coefficient (Nat.pow 10 excess)
    exponent := value.exponent + excess }

def exactProduct (left right : Decimal) : Decimal :=
  { negative := left.negative != right.negative
    coefficient := left.coefficient * right.coefficient
    exponent := left.exponent + right.exponent }

/-- The exact sum. A sum of zero is negative only when both terms are. -/
def exactSum (left right : Decimal) : Decimal :=
  let exponent := min left.exponent right.exponent
  let total := left.signedCoefficient * Nat.pow 10 (left.exponent - exponent).toNat +
    right.signedCoefficient * Nat.pow 10 (right.exponent - exponent).toNat
  { negative := if total = 0 then left.negative && right.negative else total < 0
    coefficient := total.natAbs
    exponent := exponent }

def mul (left right : Decimal) : Decimal := (left.exactProduct right).rounded

def add (left right : Decimal) : Decimal := (left.exactSum right).rounded

instance : Mul Decimal := ⟨mul⟩
instance : Add Decimal := ⟨add⟩

def withoutTrailingZeros (digits : List Char) : List Char :=
  (digits.reverse.dropWhile (· = '0')).reverse

/-- The digits of the absolute value, without exponent and without superfluous zeros. -/
def plainDigits (value : Decimal) : List Char :=
  let digits := Nat.toDigits 10 value.coefficient
  if 0 ≤ value.exponent then
    if value.coefficient = 0 then ['0'] else digits ++ List.replicate value.exponent.toNat '0'
  else
    let places := (-value.exponent).toNat
    let filled := List.replicate (places + 1 - digits.length) '0' ++ digits
    let whole := filled.take (filled.length - places)
    let fraction := withoutTrailingZeros (filled.drop (filled.length - places))
    if fraction.isEmpty then whole else whole ++ '.' :: fraction

def plainText (value : Decimal) : String :=
  String.ofList (if value.negative then '-' :: value.plainDigits else value.plainDigits)

end Decimal
end MeshGauges.Number
