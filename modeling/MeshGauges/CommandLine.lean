import MeshGauges.Catalog
import MeshGauges.Journal
import MeshGauges.Settings.Basic
import MeshGauges.Text.Quoted

/-! The command line: flags that override settings.

Every argument is first told apart as a flag or a word; an abbreviation that several flags match is
refused there. Then the flags take their values from left to right, and what no flag took is refused at
the end. Numbers are checked and written anew, so their settings hold a normal form. -/

set_option autoImplicit false

namespace MeshGauges.CommandLine

open MeshGauges.Number MeshGauges.Text

inductive Flag where
  | help
  | override (target : Setting)
  deriving Repr, DecidableEq

def settingSpelling : Setting → String
  | .apiserver => "--apiserver"
  | .kubeconfig => "--kubeconfig"
  | .metricsPort => "--port"
  | .metricsHost => "--host"
  | .telemetryPort => "--telemetry-port"
  | .telemetryHost => "--telemetry-host"
  | .collectors => "--collectors"
  | .namespaces => "--namespace"
  | .resyncPeriod => "--resync-period"
  | .logLevel => "--log-level"

def spellings : List (String × Flag) :=
  [("-h", .help), ("--help", .help)] ++
    Setting.all.map fun target => (settingSpelling target, .override target)

def Flag.name : Flag → String
  | .help => "-h/--help"
  | .override target => settingSpelling target

inductive CommandError where
  | ambiguous (argument : String) (matching : List String)
  | missingValue (flag : Flag)
  | unwantedValue (flag : Flag) (text : String)
  | invalidValue (flag : Flag) (form text : String)
  | unrecognized (arguments : List String)
  | settings (error : SettingsError)
  deriving Repr, DecidableEq

def CommandError.message : CommandError → String
  | .ambiguous argument matching =>
      "ambiguous option: " ++ argument ++ " could match " ++ String.intercalate ", " matching
  | .missingValue flag => "argument " ++ flag.name ++ ": expected one argument"
  | .unwantedValue flag text =>
      "argument " ++ flag.name ++ ": ignored explicit argument " ++ quote text
  | .invalidValue flag form text =>
      "argument " ++ flag.name ++ ": invalid " ++ form ++ " value: " ++ quote text
  | .unrecognized arguments => "unrecognized arguments: " ++ String.intercalate " " arguments
  | .settings error => error.message

/-- A value written in the same argument as its flag, after an equals sign or directly. -/
abbrev Attached := List Char

inductive Token where
  | word
  | flag (flag : Flag) (short : Bool) (attached : Option Attached)
  | unknownFlag
  deriving Repr, DecidableEq

/-- Whether an argument is a negative number, which is a value and not a flag. -/
def isNegativeNumber (characters : List Char) : Bool :=
  match Settings.dropFinalLineFeed characters with
  | '-' :: rest =>
      let (whole, afterWhole) := takeDigits rest
      match afterWhole with
      | [] => !whole.isEmpty
      | '.' :: fraction =>
          let (places, afterPlaces) := takeDigits fraction
          !places.isEmpty && afterPlaces.isEmpty
      | _ => false
  | _ => false

def attachedValue? (characters : List Char) : Option Attached :=
  if characters.contains '=' then some ((characters.dropWhile (· ≠ '=')).drop 1) else none

def exactFlag? (spelling : List Char) : Option Flag :=
  spellings.lookup (String.ofList spelling)

def isShort (spelling : List Char) : Bool :=
  match spelling with
  | '-' :: second :: _ => second ≠ '-'
  | _ => false

def abbreviated (characters : List Char) : List (String × Token) :=
  if isShort characters then
    (spellings.filter fun entry => entry.1.toList = characters.take 2).map fun entry =>
      (entry.1, .flag entry.2 true (some (characters.drop 2)))
  else
    let name := characters.takeWhile (· ≠ '=')
    (spellings.filter fun entry => name.isPrefixOf entry.1.toList).map fun entry =>
      (entry.1, .flag entry.2 false (attachedValue? characters))

def classify (argument : String) : Except CommandError Token :=
  let characters := argument.toList
  if characters.head? ≠ some '-' || characters.length = 1 then .ok .word
  else match exactFlag? characters with
    | some flag => .ok (.flag flag (isShort characters) none)
    | none =>
        match attachedValue? characters, exactFlag? (characters.takeWhile (· ≠ '=')) with
        | some attached, some flag => .ok (.flag flag (isShort characters) (some attached))
        | _, _ =>
            match abbreviated characters with
            | [(_, token)] => .ok token
            | [] =>
                if isNegativeNumber characters || characters.contains ' ' then .ok .word
                else .ok .unknownFlag
            | several => .error (.ambiguous argument (several.map Prod.fst))

/-- Tell what every argument is. After two dashes there are only words. -/
def classifyAll : List String → Except CommandError (List (String × Token))
  | [] => .ok []
  | argument :: rest =>
      if argument = "--" then
        .ok ((argument, .unknownFlag) :: rest.map fun word => (word, .word))
      else do
        let token ← classify argument
        let others ← classifyAll rest
        return (argument, token) :: others

def settingText (target : Setting) (text : String) : Except CommandError String :=
  match target with
  | .metricsPort | .telemetryPort =>
      match readInteger? text with
      | some value => .ok (toString value)
      | none => .error (.invalidValue (.override target) "int" text)
  | .resyncPeriod =>
      match readFloat? text with
      | some value => .ok (floatText value)
      | none => .error (.invalidValue (.override target) "float" text)
  | _ => .ok text

/-- Accept what is attached to the short help flag: that flag again, any number of times. The first
character that is another one is unwanted, with all that follows it; so is an empty text. -/
def attachedToHelp : Attached → Except CommandError Unit
  | ['h'] => .ok ()
  | 'h' :: rest => attachedToHelp rest
  | unwanted => .error (.unwantedValue .help (String.ofList unwanted))

/-- The text that a setting takes from a value attached to its flag. Two dashes are no value; the setting
then takes the text of an empty list, whatever its form. -/
def attachedText (target : Setting) (value : Attached) : Except CommandError String :=
  if value = ['-', '-'] then .ok "[]" else settingText target (String.ofList value)

inductive Request where
  | help
  | run (overrides : Variables)
  deriving Repr, DecidableEq

/-- Let the flags take their values. A later value of a setting is put before an earlier one, where it
is found first. -/
def consume (overrides : Variables) (extras : List String) :
    List (String × Token) → Except CommandError Request
  | [] => if extras.isEmpty then .ok (.run overrides) else .error (.unrecognized extras)
  | (_, .flag .help short attached) :: _ =>
      match attached with
      | none => .ok .help
      | some value =>
          if short then (attachedToHelp value).map fun _ => .help
          else .error (.unwantedValue .help (String.ofList value))
  | (_, .flag (.override target) _ (some value)) :: rest => do
      let text ← attachedText target value
      consume ((target.variableName, text) :: overrides) extras rest
  | (_, .flag (.override target) _ none) :: (word, .word) :: rest => do
      let text ← settingText target word
      consume ((target.variableName, text) :: overrides) extras rest
  | (_, .flag (.override target) _ none) :: _ => .error (.missingValue (.override target))
  | (argument, _) :: rest => consume overrides (extras ++ [argument]) rest

def read (arguments : List String) : Except CommandError Request := do
  consume [] [] (← classifyAll arguments)

def loadSettings (sources : SettingSources) : Except SettingsError Settings := do
  let settings ← Settings.load sources.resolve
  let selected ← Catalog.select settings.collectors
  return { settings with collectors := selected.map CatalogEntry.name }

inductive Outcome where
  | showHelp
  | refuse (error : CommandError)
  | start (settings : Settings)
  deriving Repr

def decideOutcome (arguments : List String) (environment environmentFile : Variables) : Outcome :=
  match read arguments with
  | .error error => .refuse error
  | .ok .help => .showHelp
  | .ok (.run overrides) =>
      match loadSettings ⟨overrides, environment, environmentFile⟩ with
      | .error error => .refuse (.settings error)
      | .ok settings => .start settings

def programName : String := "istio-state-metrics"

def errorText (error : CommandError) : String :=
  programName ++ ": error: " ++ error.message

def helpLines : List String :=
  ("usage: " ++ programName ++ " [flag value] ...") ::
    Setting.all.map fun target => "  " ++ settingSpelling target ++ " " ++ target.variableName

def settingLines (settings : Settings) : List String :=
  Setting.all.map fun target => target.variableName ++ "=" ++ settings.text target

def refusedCode : Nat := 2

def messageLayout : String := "%(asctime)s %(levelname)s %(name)s: %(message)s"

def asciiCapital (character : Char) : Char :=
  if 'a' ≤ character && character ≤ 'z' then Char.ofNat (character.toNat - 32)
  else if character = 'ı' then 'I'
  else if character = 'ſ' then 'S'
  else character

/-- The rank of a log level by its name in capitals; a name that is none has the rank of INFO. Not covered are
BASIC_FORMAT and _STYLES, names under which a log keeps other things than levels and with which it does not
start: here they count as names of no level. -/
def levelRank (name : String) : Nat :=
  match String.ofList (name.toList.map asciiCapital) with
  | "CRITICAL" | "FATAL" => 50
  | "ERROR" => 40
  | "WARN" | "WARNING" => 30
  | "DEBUG" => 10
  | "NOTSET" => 0
  | _ => 20

def interrupted : Message := .info "Received interrupt, shutting down."

end MeshGauges.CommandLine
