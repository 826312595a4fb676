/-! What the program reports while it runs. -/

set_option autoImplicit false

namespace MeshGauges

inductive Severity where
  | debug | info | warning | error
  deriving Repr, DecidableEq

def Severity.name : Severity → String
  | .debug => "DEBUG"
  | .info => "INFO"
  | .warning => "WARNING"
  | .error => "ERROR"

structure Message where
  severity : Severity
  text : String
  deriving Repr, DecidableEq

abbrev Journal := List Message

namespace Message

def debug (text : String) : Message := ⟨.debug, text⟩
def info (text : String) : Message := ⟨.info, text⟩
def warning (text : String) : Message := ⟨.warning, text⟩
def error (text : String) : Message := ⟨.error, text⟩

end Message
end MeshGauges
