import MeshGauges.Scrape.Coordinator

/-! The text that a scrape is served as.

Every family of every collector has a help line, a type line and one line for each row of its name.
Labels are written in the order of their names. -/

set_option autoImplicit false

namespace MeshGauges.Exposition

def rowsOf (rows : List Row) (family : Family) : List Row :=
  rows.filter fun row => row.family.name == family.name

def grouped (families : List Family) (rows : List Row) : List (Family × List Row) :=
  families.map fun family => (family, rowsOf rows family)

/-- A character of a help text: backslashes and line feeds are escaped. -/
def escapeHelp (character : Char) : List Char :=
  if character = '\\' then ['\\', '\\'] else if character = '\n' then ['\\', 'n'] else [character]

/-- A character of a label value: quotation marks are escaped too. -/
def escapeValue (character : Char) : List Char :=
  if character = '"' then ['\\', '"'] else escapeHelp character

def escaped (escape : Char → List Char) (text : String) : String :=
  String.ofList (text.toList.flatMap escape)

def labelText (label : String × String) : String :=
  label.1 ++ "=\"" ++ escaped escapeValue label.2 ++ "\""

def labelsText (row : Row) : String :=
  let ordered := row.pairs.mergeSort fun first second => first.1 ≤ second.1
  if ordered.isEmpty then ""
  else "\x7b" ++ String.intercalate "," (ordered.map labelText) ++ "\x7d"

def rowLine (family : Family) (row : Row) : String :=
  family.name ++ labelsText row ++ " " ++ Number.floatText gaugeValue ++ "\n"

def familyText (entry : Family × List Row) : String :=
  "# HELP " ++ entry.1.name ++ " " ++ escaped escapeHelp entry.1.documentation ++ "\n" ++
    "# TYPE " ++ entry.1.name ++ " gauge\n" ++ String.join (entry.2.map (rowLine entry.1))

def text (entries : List (Family × List Row)) : String :=
  String.join (entries.map familyText)

end Exposition

namespace Coordinator

def collect (coordinator : Coordinator) : Coordinator × List (Family × List Row) :=
  (coordinator.scrape.1, Exposition.grouped coordinator.families coordinator.scrape.2.rows)

/-- What is served is the text of what is collected. -/
def expose (coordinator : Coordinator) : Coordinator × String × Journal :=
  let (after, entries) := coordinator.collect
  (after, Exposition.text entries, coordinator.scrape.2.journal)

end Coordinator

end MeshGauges
