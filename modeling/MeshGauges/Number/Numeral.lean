import MeshGauges.Number.Binary
import MeshGauges.Number.Decimal
import MeshGauges.Text.Blank
import MeshGauges.Text.Digit

/-! Reading numerals.

A numeral has a sign, decimal digits of any script, and, unless it is whole, a point and an exponent.
Decimal numerals may hold underscores anywhere; whole and floating ones only between two digits. -/

set_option autoImplicit false

namespace MeshGauges.Number

open MeshGauges.Text

/-- An unsigned numeral: its digits without the point, and the exponent of its last digit. -/
structure Scanned where
  digits : List Nat
  exponent : Int
  deriving Repr, DecidableEq

def splitSign : List Char → Bool × List Char
  | '-' :: rest => (true, rest)
  | '+' :: rest => (false, rest)
  | characters => (false, characters)

def scanExponent? (characters : List Char) : Option Int :=
  let (negative, rest) := splitSign characters
  match takeDigits rest with
  | ([], _) => none
  | (digits, []) => some (if negative then -(digitsValue digits : Int) else digitsValue digits)
  | _ => none

def takeFraction : List Char → List Nat × List Char
  | '.' :: rest => takeDigits rest
  | characters => ([], characters)

def scanNumeral? (characters : List Char) : Option Scanned :=
  let (whole, afterWhole) := takeDigits characters
  let (fraction, afterFraction) := takeFraction afterWhole
  if whole.isEmpty && fraction.isEmpty then none
  else match afterFraction with
    | [] => some ⟨whole ++ fraction, -(fraction.length : Int)⟩
    | mark :: rest =>
        if mark = 'e' || mark = 'E' then
          (scanExponent? rest).map fun exponent => ⟨whole ++ fraction, exponent - fraction.length⟩
        else none

/-- The largest exponent that the leading digit of a decimal numeral may have. -/
def greatestDecimalExponent : Int := 999999999999999999

def leastDecimalExponent : Int := -1999999999999999997

/-- Read a finite decimal numeral. White space around it and underscores in it are ignored. -/
def readDecimal? (characters : List Char) : Option Decimal :=
  let (negative, rest) := splitSign ((trimWhere isBlank characters).filter (· ≠ '_'))
  match scanNumeral? rest with
  | none => none
  | some scanned =>
      let value : Decimal := ⟨negative, digitsValue scanned.digits, scanned.exponent⟩
      if value.adjustedExponent ≤ greatestDecimalExponent && leastDecimalExponent ≤ value.exponent then
        some value
      else none

/-- Remove underscores, each of which has to stand between two digits. -/
def dropSeparators? : List Char → Option (List Char)
  | [] => some []
  | '_' :: _ => none
  | character :: '_' :: next :: rest =>
      if isDigit character && isDigit next then
        (dropSeparators? (next :: rest)).map (character :: ·)
      else none
  | character :: rest => (dropSeparators? rest).map (character :: ·)

def greatestIntegerLength : Nat := 4300

def readInteger? (text : String) : Option Int :=
  let (negative, rest) := splitSign (trimWhere isNumeralBlank text.toList)
  match dropSeparators? rest with
  | none => none
  | some characters =>
      match takeDigits characters with
      | ([], _) => none
      | (digits, []) =>
          if digits.length ≤ greatestIntegerLength then
            some (if negative then -(digitsValue digits : Int) else digitsValue digits)
          else none
      | _ => none

/-- The exponents of the leading digit outside of which a float is zero or infinite for certain. -/
def floatExponentBound : Int := 400

def nearestFloat (coefficient : Nat) (exponent : Int) : Float :=
  let adjusted := exponent + digitCount coefficient
  if coefficient = 0 || adjusted < -floatExponentBound then 0.0
  else if floatExponentBound < adjusted then 1.0 / 0.0
  else if 0 ≤ exponent then Float.ofScientific coefficient false exponent.toNat
  else Float.ofScientific coefficient true (-exponent).toNat

def nearestFinite? (value : Int) : Option Float :=
  let magnitude := nearestFloat value.natAbs 0
  match binaryParts magnitude with
  | .finite .. => some (if value < 0 then -magnitude else magnitude)
  | _ => none

def asciiSmall (character : Char) : Char :=
  if 'A' ≤ character && character ≤ 'Z' then Char.ofNat (character.toNat + 32) else character

/-- Read a floating numeral, which may also be a name of infinity or of the undefined value. -/
def readFloat? (text : String) : Option Float :=
  let (negative, rest) := splitSign (trimWhere isNumeralBlank text.toList)
  let magnitude? : Option Float :=
    match dropSeparators? rest with
    | none => none
    | some characters =>
        let name := String.ofList (characters.map asciiSmall)
        if name = "inf" || name = "infinity" then some (1.0 / 0.0)
        else if name = "nan" then some (0.0 / 0.0)
        else (scanNumeral? characters).map fun scanned =>
          nearestFloat (digitsValue scanned.digits) scanned.exponent
  magnitude?.map fun magnitude => if negative then -magnitude else magnitude

end MeshGauges.Number
