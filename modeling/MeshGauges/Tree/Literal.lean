import MeshGauges.Number.Written
import MeshGauges.Text.Quoted
import MeshGauges.Tree.Basic

/-! Trees as texts in names, versions and diagnostics.

`literal` shows a tree so that its shape can be told; `asText` is the same except that a text stands for
itself. Labels use the renderings of another module. -/

set_option autoImplicit false

namespace MeshGauges.Tree

open MeshGauges.Number MeshGauges.Text

mutual

/-- A tree with its texts quoted, its lists in brackets and its objects in braces. -/
def literal : Tree → String
  | .null => "None"
  | .bool value => if value then "True" else "False"
  | .integer value => toString value
  | .float value => floatText value
  | .text value => quote value
  | .list items => "[" ++ String.intercalate ", " (literals items) ++ "]"
  | .object members => "\x7b" ++ String.intercalate ", " (memberLiterals members) ++ "\x7d"

def literals : List Tree → List String
  | [] => []
  | item :: rest => literal item :: literals rest

def memberLiterals : List (String × Tree) → List String
  | [] => []
  | (name, value) :: rest => (quote name ++ ": " ++ literal value) :: memberLiterals rest

end

def asText : Tree → String
  | .text value => value
  | other => other.literal

end MeshGauges.Tree
