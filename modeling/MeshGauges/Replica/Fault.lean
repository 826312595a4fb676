/-! What can go wrong while objects are listed and watched. -/

set_option autoImplicit false

namespace MeshGauges

inductive Fault where
  | malformed
  /-- The watch reported that it cannot go on. -/
  | expired (text : String)
  | unreachable (text : String)
  | rejected (status : Int) (reason : String)
  /-- The time left until the next listing is not a number. -/
  | timeoutUndefined
  | timeoutInfinite
  /-- The resync period is a whole number that no float is near to. -/
  | periodTooLarge
  deriving Repr, DecidableEq

def Fault.message : Fault → String
  | .malformed => "AttributeError"
  | .expired text => text
  | .unreachable text => text
  | .rejected status reason => toString status ++ " " ++ reason
  | .timeoutUndefined => "cannot convert float NaN to integer"
  | .timeoutInfinite => "OverflowError"
  | .periodTooLarge => "OverflowError"

end MeshGauges
