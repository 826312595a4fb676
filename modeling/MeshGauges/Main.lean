import MeshGauges.CommandLine
import MeshGauges.Settings.EnvironmentFile

/-! The program: read the command line and the environment, and report what they amount to.

The outcome is decided by `CommandLine.decideOutcome`; what is here only reads and prints. -/

set_option autoImplicit false

namespace MeshGauges

def environmentVariables : IO Variables :=
  Setting.all.filterMapM fun setting => do
    return (← IO.getEnv setting.variableName).map fun text => (setting.variableName, text)

/-- The variables of the environment file in the working directory; none when it cannot be read. -/
def environmentFileVariables : IO Variables := do
  try
    return Settings.variablesOfFile (← IO.FS.readFile ".env")
  catch _ =>
    return []

def reportOutcome : CommandLine.Outcome → IO UInt32
  | .showHelp => do
      CommandLine.helpLines.forM fun line => IO.println line
      return 0
  | .refuse error => do
      IO.eprintln (CommandLine.errorText error)
      return CommandLine.refusedCode.toUInt32
  | .start settings => do
      (CommandLine.settingLines settings).forM fun line => IO.println line
      return 0

end MeshGauges

def main (arguments : List String) : IO UInt32 := do
  MeshGauges.reportOutcome (MeshGauges.CommandLine.decideOutcome arguments
    (← MeshGauges.environmentVariables) (← MeshGauges.environmentFileVariables))
