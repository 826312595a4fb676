import MeshGauges.Number.Shortest

/-! The texts of floats.

Three forms are in use: the exact form of settings and clocks (`floatText`), the plain form of labels
(`labelText`), and one decimal place for delays in messages (`onePlaceText`). -/

set_option autoImplicit false

namespace MeshGauges.Number

structure FloatLayout where
  /-- The exponents of the leading digit that are written positionally. -/
  leastPositional : Int
  greatestPositional : Int
  exponentWidth : Nat
  undefinedText : String
  infiniteText : String

/-- Positional from 0.0001 to below 10^16; otherwise a signed exponent of at least two digits. -/
def exactLayout : FloatLayout := ⟨-4, 15, 2, "nan", "inf"⟩

def signed (negative : Bool) (digits : List Char) : List Char :=
  if negative then '-' :: digits else digits

def positionalDigits (value : Decimal) : List Char :=
  let digits := value.plainDigits
  if digits.contains '.' then digits else digits ++ ['.', '0']

def scientificDigits (layout : FloatLayout) (value : Decimal) : List Char :=
  let digits := Nat.toDigits 10 value.coefficient
  let exponent := value.adjustedExponent
  let exponentDigits := Nat.toDigits 10 exponent.natAbs
  let mantissa := match digits with
    | first :: second :: rest => first :: '.' :: second :: rest
    | few => few
  mantissa ++ 'e' :: (if exponent < 0 then '-' else '+') ::
    (List.replicate (layout.exponentWidth - exponentDigits.length) '0' ++ exponentDigits)

def layoutDigits (layout : FloatLayout) (value : Decimal) : List Char :=
  if value.isZero || (layout.leastPositional ≤ value.adjustedExponent &&
      value.adjustedExponent ≤ layout.greatestPositional) then positionalDigits value
  else scientificDigits layout value

/-- The exact text of a float: its shortest decimal in the exact layout. -/
def floatText (value : Float) : String :=
  match binaryParts value with
  | .undefined => exactLayout.undefinedText
  | .infinite negative => String.ofList (signed negative exactLayout.infiniteText.toList)
  | .finite negative mantissa exponent =>
      String.ofList (signed negative
        (layoutDigits exactLayout (shortestDecimal negative mantissa exponent)))

/-- The text of a float in a label: an integer's digits, else the shortest decimal without exponent. -/
def labelText (value : Float) : String :=
  match binaryParts value with
  | .undefined => "NaN"
  | .infinite negative => if negative then "-Infinity" else "Infinity"
  | .finite negative mantissa exponent =>
      match integral? value with
      | some integer => toString integer
      | none => (shortestDecimal negative mantissa exponent).plainText

/-- A float rounded to one decimal place, a tie to the even tenth. -/
def onePlaceText (value : Float) : String :=
  match binaryParts value with
  | .undefined => "nan"
  | .infinite negative => if negative then "-inf" else "inf"
  | .finite negative mantissa exponent =>
      let fraction := binaryFraction mantissa exponent
      let tenths := divideHalfEven (10 * fraction.1) fraction.2
      String.ofList (signed negative
        (Nat.toDigits 10 (tenths / 10) ++ '.' :: Nat.toDigits 10 (tenths % 10)))

end MeshGauges.Number
