import MeshGauges.Text.Blank

/-! Comma-separated options. -/

set_option autoImplicit false

namespace MeshGauges.Settings

open MeshGauges.Text

/-- The pieces of a text between its commas; there is one more of them than there are commas. -/
def splitAtCommas : List Char → List (List Char)
  | [] => [[]]
  | character :: rest =>
      if character = ',' then [] :: splitAtCommas rest
      else match splitAtCommas rest with
        | [] => [[character]]
        | piece :: others => (character :: piece) :: others

/-- The items of a comma-separated text: trimmed, without blank ones. -/
def items (text : String) : List String :=
  (((splitAtCommas text.toList).map (trimWhere isBlank)).filter fun item => !item.isEmpty).map
    String.ofList

def optionalItems (text? : Option String) : List String :=
  (text?.map items).getD []

end MeshGauges.Settings
