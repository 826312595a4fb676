import MeshGauges.Settings.Basic
import MeshGauges.Text.Blank

/-! The environment file: one variable a line.

A line is a name, an equals sign and a value. Blank lines, comments and lines without an equals sign say
nothing. A value may stand between quotation marks; without them a comment may follow it. -/

set_option autoImplicit false

namespace MeshGauges.Settings

open MeshGauges.Text

def lines : List Char → List (List Char)
  | [] => [[]]
  | character :: rest =>
      if character = '\n' then [] :: lines rest
      else match lines rest with
        | [] => [[character]]
        | line :: others => (character :: line) :: others

def withoutComment : List Char → List Char
  | [] => []
  | first :: second :: rest =>
      if isBlank first && second = '#' then [] else first :: withoutComment (second :: rest)
  | [last] => [last]

def lineValue (characters : List Char) : List Char :=
  match trimWhere isBlank characters with
  | [] => []
  | mark :: rest =>
      if (mark = '"' || mark = '\'') && rest.contains mark then rest.takeWhile (· ≠ mark)
      else trimWhere isBlank (withoutComment (mark :: rest))

/-- The name before an equals sign, without the word that a shell needs. -/
def lineName (characters : List Char) : List Char :=
  let name := trimWhere isBlank characters
  if "export ".toList.isPrefixOf name then trimWhere isBlank (name.drop 7) else name

def lineVariable? (line : List Char) : Option (String × String) :=
  let trimmed := trimWhere isBlank line
  if trimmed.head? = some '#' || !trimmed.contains '=' then none
  else some (String.ofList (lineName (trimmed.takeWhile (· ≠ '='))),
    String.ofList (lineValue ((trimmed.dropWhile (· ≠ '=')).drop 1)))

/-- The variables that an environment file sets; the last line of a name is the first to be found. -/
def variablesOfFile (text : String) : Variables :=
  ((lines text.toList).filterMap lineVariable?).reverse

end MeshGauges.Settings
