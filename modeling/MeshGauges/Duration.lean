import MeshGauges.Number.Numeral
import MeshGauges.Number.Written
import MeshGauges.Tree.Literal

/-! Durations in seconds.

A duration is a text of parts, each a number and a unit (1m30s), or a bare number of seconds, or an
object with seconds and nanos. Numbers whose leading digit lies outside 10^-9 to 10^18 are refused.
Seconds are decimals: every product and every sum is rounded to 28 digits. -/

set_option autoImplicit false

namespace MeshGauges

open MeshGauges.Number MeshGauges.Text

namespace Duration

inductive TimeUnit where
  | nanosecond | microsecond | millisecond | second | minute | hour
  deriving Repr, DecidableEq

def TimeUnit.seconds : TimeUnit → Decimal
  | .nanosecond => ⟨false, 1, -9⟩
  | .microsecond => ⟨false, 1, -6⟩
  | .millisecond => ⟨false, 1, -3⟩
  | .second => ⟨false, 1, 0⟩
  | .minute => ⟨false, 60, 0⟩
  | .hour => ⟨false, 3600, 0⟩

/-- The unit at the head of a text, and what follows it. A unit of two letters wins over one letter. -/
def takeUnit? : List Char → Option (TimeUnit × List Char)
  | 'n' :: 's' :: rest => some (.nanosecond, rest)
  | 'u' :: 's' :: rest => some (.microsecond, rest)
  | 'µ' :: 's' :: rest => some (.microsecond, rest)
  | 'm' :: 's' :: rest => some (.millisecond, rest)
  | 's' :: rest => some (.second, rest)
  | 'm' :: rest => some (.minute, rest)
  | 'h' :: rest => some (.hour, rest)
  | _ => none

/-- The exponents that the leading digit of an accepted number may have. -/
def leastLeadingExponent : Int := -9
def greatestLeadingExponent : Int := 18

/-- A number in the accepted range. A zero loses its sign and its exponent. -/
def accept? (number : Decimal) : Option Decimal :=
  if number.isZero then some .zero
  else if leastLeadingExponent ≤ number.adjustedExponent &&
      number.adjustedExponent ≤ greatestLeadingExponent then some number
  else none

def readNumber? (characters : List Char) : Option Decimal :=
  (readDecimal? characters).bind accept?

structure Part where
  digits : List Nat
  exponent : Int
  unit : TimeUnit
  deriving Repr, DecidableEq

def Part.number (part : Part) : Decimal :=
  ⟨false, digitsValue part.digits, part.exponent⟩

def takePart? (characters : List Char) : Option (Part × List Char) :=
  let (whole, afterWhole) := takeDigits characters
  let (fraction, afterFraction) := takeFraction afterWhole
  if whole.isEmpty && fraction.isEmpty then none
  else (takeUnit? afterFraction).map fun (unit, rest) =>
    (⟨whole ++ fraction, -(fraction.length : Int), unit⟩, rest)

/-- Cut a whole text into parts. The fuel bounds their number; the text's length is enough. -/
def splitParts? : Nat → List Char → Option (List Part)
  | _, [] => some []
  | 0, _ => none
  | fuel + 1, characters =>
      match takePart? characters with
      | none => none
      | some (part, rest) => (splitParts? fuel rest).map (part :: ·)

def parts? (characters : List Char) : Option (List Part) :=
  if characters.isEmpty then none else splitParts? characters.length characters

def sumParts? : Decimal → List Part → Option Decimal
  | total, [] => some total
  | total, part :: rest =>
      (accept? part.number).bind fun number => sumParts? (total + number * part.unit.seconds) rest

def signFactor (negative : Bool) : Decimal := ⟨negative, 1, 0⟩

def endsLikeNumber (characters : List Char) : Bool :=
  match characters.getLast? with
  | some last => isDigit last || last = '.'
  | none => false

def unsignedSeconds? (characters : List Char) : Option Decimal :=
  if endsLikeNumber characters then readNumber? characters
  else (parts? characters).bind (sumParts? .zero)

/-- The seconds of a duration text: white space around it, then one optional sign. -/
def secondsOfText? (text : String) : Option Decimal :=
  let (negative, rest) := splitSign (trimWhere isBlank text.toList)
  (unsignedSeconds? rest).map (signFactor negative * ·)

/-- The number that a member of a seconds-and-nanos object stands for; one that is missing is zero. -/
def memberNumber? (tree : Tree) : Option Decimal :=
  readNumber? (tree.orElse (.integer 0)).asText.toList

def seconds? : Tree → Option Decimal
  | .integer value => accept? ⟨value < 0, value.natAbs, 0⟩
  | .float value => (shortest? value).bind accept?
  | .text value => secondsOfText? value
  | .object members => do
      let seconds ← memberNumber? ((Tree.object members).member "seconds")
      let nanos ← memberNumber? ((Tree.object members).member "nanos")
      return seconds + nanos * TimeUnit.nanosecond.seconds
  | _ => none

end Duration
end MeshGauges
