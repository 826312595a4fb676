import MeshGauges.Text.Printable

/-! Quoted texts, as diagnostics show them.

A text stands between apostrophes, or between quotation marks when it holds an apostrophe and no
quotation mark. The mark itself, the backslash and every character that is not printable are escaped. -/

set_option autoImplicit false

namespace MeshGauges.Text

/-- A number in lower-case hexadecimal, filled with zeros to a width. -/
def hexadecimal (width value : Nat) : List Char :=
  let digits := Nat.toDigits 16 value
  List.replicate (width - digits.length) '0' ++ digits

def escapeCharacter (mark character : Char) : List Char :=
  if character = mark || character = '\\' then ['\\', character]
  else if character = '\n' then ['\\', 'n']
  else if character = '\r' then ['\\', 'r']
  else if character = '\t' then ['\\', 't']
  else if isPrintable character then [character]
  else if character.toNat < 0x100 then '\\' :: 'x' :: hexadecimal 2 character.toNat
  else if character.toNat < 0x10000 then '\\' :: 'u' :: hexadecimal 4 character.toNat
  else '\\' :: 'U' :: hexadecimal 8 character.toNat

def quotationMark (characters : List Char) : Char :=
  if characters.contains '\'' && !characters.contains '"' then '"' else '\''

def quote (text : String) : String :=
  let mark := quotationMark text.toList
  String.ofList (mark :: text.toList.flatMap (escapeCharacter mark) ++ [mark])

end MeshGauges.Text
