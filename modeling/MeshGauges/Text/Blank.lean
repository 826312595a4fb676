/-! White space of texts that people type.

Two sets are in use. `isBlank` is the full set that trimming removes; `isNumeralBlank` leaves out the
four information separators, which the readers of whole and floating numerals refuse. -/

set_option autoImplicit false

namespace MeshGauges.Text

/-- The white space characters: the ASCII controls and separators, the space, and the Unicode ones. -/
def isBlank (character : Char) : Bool :=
  let point := character.toNat
  (9 ≤ point && point ≤ 13) || (28 ≤ point && point ≤ 32) || point == 0x85 || point == 0xA0 ||
    point == 0x1680 || (0x2000 ≤ point && point ≤ 0x200A) || point == 0x2028 || point == 0x2029 ||
    point == 0x202F || point == 0x205F || point == 0x3000

/-- White space that may surround a whole or floating numeral: all but the information separators. -/
def isNumeralBlank (character : Char) : Bool :=
  isBlank character && !(28 ≤ character.toNat && character.toNat ≤ 31)

/-- Remove the characters of a class from both ends. -/
def trimWhere (discards : Char → Bool) (characters : List Char) : List Char :=
  ((characters.dropWhile discards).reverse.dropWhile discards).reverse

def trim (text : String) : String :=
  String.ofList (trimWhere isBlank text.toList)

end MeshGauges.Text
