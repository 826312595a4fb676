import MeshGauges.Number.Numeral
import MeshGauges.Number.Written
import MeshGauges.Settings.Items
import MeshGauges.Settings.Namespaces

/-! The settings of a run.

There are ten settings. Each is a text that comes from the flags, the environment or the environment
file, in this order; where none has it the default holds. `load` depends on the three sources only
through the resolved texts. -/

set_option autoImplicit false

namespace MeshGauges

inductive Setting where
  | apiserver | kubeconfig | metricsPort | metricsHost | telemetryPort | telemetryHost
  | collectors | namespaces | resyncPeriod | logLevel
  deriving Repr, DecidableEq

namespace Setting

def all : List Setting :=
  [.apiserver, .kubeconfig, .metricsPort, .metricsHost, .telemetryPort, .telemetryHost, .collectors,
   .namespaces, .resyncPeriod, .logLevel]

def variableName : Setting → String
  | .apiserver => "APISERVER"
  | .kubeconfig => "KUBECONFIG"
  | .metricsPort => "METRICS_PORT"
  | .metricsHost => "METRICS_HOST"
  | .telemetryPort => "TELEMETRY_PORT"
  | .telemetryHost => "TELEMETRY_HOST"
  | .collectors => "COLLECTORS"
  | .namespaces => "NAMESPACES"
  | .resyncPeriod => "RESYNC_PERIOD_SECONDS"
  | .logLevel => "LOG_LEVEL"

end Setting

abbrev Variables := List (String × String)

/-- Where settings come from; an earlier source hides a later one. -/
structure SettingSources where
  overrides : Variables := []
  environment : Variables := []
  environmentFile : Variables := []

def SettingSources.resolve (sources : SettingSources) (setting : Setting) : Option String :=
  (sources.overrides.lookup setting.variableName).or
    ((sources.environment.lookup setting.variableName).or
      (sources.environmentFile.lookup setting.variableName))

/-- The settings as the program uses them. No collectors means all of them. -/
structure Settings where
  metricsHost : String := "0.0.0.0"
  metricsPort : Int := 9090
  telemetryHost : String := "0.0.0.0"
  telemetryPort : Int := 9093
  collectors : List String := []
  namespaces : List String := [Settings.everyNamespace]
  kubeconfig : Option String := none
  apiserver : Option String := none
  resyncPeriod : Float := 300.0
  logLevel : String := "INFO"
  deriving Repr

namespace Settings

open MeshGauges.Number

def integerOf (setting : Setting) (text? : Option String) (default : Int) : Except SettingsError Int :=
  match text? with
  | none => .ok default
  | some text =>
      match readInteger? text with
      | some value => .ok value
      | none => .error (.invalidInteger setting.variableName text)

def floatOf (setting : Setting) (text? : Option String) (default : Float) : Except SettingsError Float :=
  match text? with
  | none => .ok default
  | some text =>
      match readFloat? text with
      | some value => .ok value
      | none => .error (.invalidFloat setting.variableName text)

def nonEmpty (text? : Option String) : Option String :=
  text?.filter (· ≠ "")

def ofTexts (text? : Setting → Option String) : Except SettingsError Settings := do
  let metricsPort ← integerOf .metricsPort (text? .metricsPort) 9090
  let telemetryPort ← integerOf .telemetryPort (text? .telemetryPort) 9093
  let namespaces ← selectNamespaces (optionalItems (text? .namespaces))
  let resyncPeriod ← floatOf .resyncPeriod (text? .resyncPeriod) 300.0
  return {
    metricsHost := (text? .metricsHost).getD "0.0.0.0"
    metricsPort := metricsPort
    telemetryHost := (text? .telemetryHost).getD "0.0.0.0"
    telemetryPort := telemetryPort
    collectors := optionalItems (text? .collectors)
    namespaces := namespaces
    kubeconfig := nonEmpty (text? .kubeconfig)
    apiserver := nonEmpty (text? .apiserver)
    resyncPeriod := resyncPeriod
    logLevel := (text? .logLevel).getD "INFO" }

def isPort (port : Int) : Bool :=
  0 < port && port < 65536

def validate (settings : Settings) : Except SettingsError Unit :=
  if settings.resyncPeriod ≤ 0.0 then .error .periodNotPositive
  else if !isPort settings.metricsPort then .error (.invalidPort .metrics settings.metricsPort)
  else if !isPort settings.telemetryPort then .error (.invalidPort .telemetry settings.telemetryPort)
  else .ok ()

/-- The text of a setting as it holds for a run. -/
def text (settings : Settings) : Setting → String
  | .apiserver => settings.apiserver.getD ""
  | .kubeconfig => settings.kubeconfig.getD ""
  | .metricsPort => toString settings.metricsPort
  | .metricsHost => settings.metricsHost
  | .telemetryPort => toString settings.telemetryPort
  | .telemetryHost => settings.telemetryHost
  | .collectors => String.intercalate "," settings.collectors
  | .namespaces => String.intercalate "," (settings.namespaces.map tokenOf)
  | .resyncPeriod => floatText settings.resyncPeriod
  | .logLevel => settings.logLevel

/-- The settings of a run from resolved texts, refused where one is malformed or out of range. -/
def load (text? : Setting → Option String) : Except SettingsError Settings := do
  let settings ← ofTexts text?
  settings.validate
  return settings

end Settings
end MeshGauges
