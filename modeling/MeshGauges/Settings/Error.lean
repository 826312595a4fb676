/-! Why settings are refused. -/

set_option autoImplicit false

namespace MeshGauges

inductive Endpoint where
  | metrics | telemetry
  deriving Repr, DecidableEq

def Endpoint.name : Endpoint → String
  | .metrics => "metrics"
  | .telemetry => "telemetry"

/-- A fault of the settings, which keeps the program from starting. -/
inductive SettingsError where
  | invalidInteger (variableName text : String)
  | invalidFloat (variableName text : String)
  | invalidNamespace (text : String)
  | everyNamespaceAndOthers
  | unknownCollector (name : String) (available : List String)
  | periodNotPositive
  | invalidPort (endpoint : Endpoint) (port : Int)
  deriving Repr, DecidableEq

def SettingsError.message : SettingsError → String
  | .invalidInteger variableName text => "Invalid integer for " ++ variableName ++ ": " ++ text
  | .invalidFloat variableName text => "Invalid float for " ++ variableName ++ ": " ++ text
  | .invalidNamespace text => "namespace \"" ++ text ++ "\" is not a valid namespace name"
  | .everyNamespaceAndOthers => "\"*\" cannot be combined with explicit namespaces"
  | .unknownCollector name available =>
      "collector \"" ++ name ++ "\" does not exist (available: " ++ String.intercalate ", " available ++ ")"
  | .periodNotPositive => "Resync period must be a positive number of seconds"
  | .invalidPort endpoint port => "Invalid " ++ endpoint.name ++ " port: " ++ toString port

end MeshGauges
