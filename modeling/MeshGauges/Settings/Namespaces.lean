import MeshGauges.Settings.Error

/-! Selections of namespaces.

A selection is the empty name alone, which stands for every namespace, or a list of namespace names. -/

set_option autoImplicit false

namespace MeshGauges.Settings

def everyNamespace : String := ""

/-- How every namespace is asked for. -/
def everyNamespaceToken : String := "*"

def tokenOf (name : String) : String :=
  if name = everyNamespace then everyNamespaceToken else name

/-- Small ASCII letters and digits, which a label begins and ends with. -/
def isLabelEnd (character : Char) : Bool :=
  ('a' ≤ character && character ≤ 'z') || ('0' ≤ character && character ≤ '9')

def isLabelCharacter (character : Char) : Bool :=
  isLabelEnd character || character = '-'

def isLabel (characters : List Char) : Bool :=
  characters.all isLabelCharacter && characters.head?.any isLabelEnd && characters.getLast?.any isLabelEnd

def greatestNameLength : Nat := 63

def dropFinalLineFeed (characters : List Char) : List Char :=
  if characters.getLast? = some '\n' then characters.dropLast else characters

/-- Whether a text is accepted as a namespace name: a label within the length, where one line feed may
follow the label. -/
def isNamespaceName (text : String) : Bool :=
  text.toList.length ≤ greatestNameLength && isLabel (dropFinalLineFeed text.toList)

/-- Add one token to a selection. A name is added once; the token for every namespace is added always. -/
def addNamespace (selected : List String) (token : String) : Except SettingsError (List String) :=
  if token = everyNamespaceToken then .ok (selected ++ [everyNamespace])
  else if !isNamespaceName token then .error (.invalidNamespace token)
  else if selected.contains token then .ok selected
  else .ok (selected ++ [token])

/-- Check a selection as a whole: nothing means every namespace, which excludes all others. -/
def completeSelection (selected : List String) : Except SettingsError (List String) :=
  if selected.isEmpty then .ok [everyNamespace]
  else if selected.contains everyNamespace && decide (1 < selected.length) then
    .error .everyNamespaceAndOthers
  else .ok selected

def selectNamespaces (tokens : List String) : Except SettingsError (List String) := do
  completeSelection (← tokens.foldlM addNamespace [])

def describeNamespaces (selected : List String) : String :=
  if selected = [everyNamespace] then "all namespaces" else String.intercalate "," selected

end MeshGauges.Settings
