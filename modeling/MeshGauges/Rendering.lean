import MeshGauges.Duration

/-! Label values as text.

Each label of a row shows one tree. Scalars show themselves, lists are joined, objects become literals
of their members in the order of the names. A rendering that is given another shape than its own falls
back to the scalar one, so every tree has a text. -/

set_option autoImplicit false

namespace MeshGauges.Rendering

open MeshGauges.Number

def sortByName (entries : List (String × String)) : List (String × String) :=
  entries.mergeSort fun first second => first.1 ≤ second.1

def pairLiteral (entry : String × String) : String :=
  "\x7bkey:" ++ entry.1 ++ ",value:" ++ entry.2 ++ "\x7d"

def pairLiterals (entries : List (String × String)) : String :=
  String.join ((sortByName entries).map pairLiteral)

mutual

/-- The text of any tree; null has an empty one. -/
def scalar : Tree → String
  | .null => ""
  | .bool value => if value then "true" else "false"
  | .integer value => toString value
  | .float value => labelText value
  | .text value => value
  | .list items => String.intercalate "," (scalars items)
  | .object members => pairLiterals (memberScalars members)

def scalars : List Tree → List String
  | [] => []
  | item :: rest => scalar item :: scalars rest

def memberScalars : List (String × Tree) → List (String × String)
  | [] => []
  | (name, value) :: rest => (name, scalar value) :: memberScalars rest

end

def joined (separator : String) : Tree → String
  | .list items => String.intercalate separator (scalars items)
  | other => scalar other

def pairs : Tree → String
  | .object members => pairLiterals (memberScalars members)
  | other => scalar other

/-- The three ways of matching a text: in full, by its beginning, by a pattern. -/
structure StringMatch where
  exact : String
  leading : String
  pattern : String
  deriving Repr, DecidableEq

/-- The string match that a tree describes; absent parts are empty. -/
def stringMatch (tree : Tree) : StringMatch :=
  ⟨scalar (tree.member "exact"), scalar (tree.member "prefix"), scalar (tree.member "regex")⟩

def headerLiteral (entry : String × Tree) : String :=
  let found := stringMatch entry.2
  "\x7bheader:" ++ entry.1 ++ ",value:" ++ found.exact ++ "," ++ found.leading ++ "," ++
    found.pattern ++ "\x7d"

def headerMatches : Tree → String
  | .object members =>
      String.join ((members.mergeSort fun first second => first.1 ≤ second.1).map headerLiteral)
  | other => scalar other

def secondsText (seconds : Decimal) : String :=
  seconds.plainText ++ "s"

/-- A duration in seconds; a tree that is no duration shows as a scalar. -/
def duration (tree : Tree) : String :=
  match Duration.seconds? tree with
  | some seconds => secondsText seconds
  | none => scalar tree

end MeshGauges.Rendering
