import TraceTables.DeviceFault
import TraceTables.Text.Utf8

/-!
# Why octets are not an event

The causes for which an event of a binary recording is refused, when it is read and when
it is written.
-/

namespace TraceTables.Binary

/-- The cause of a refusal. -/
inductive Cause where
  /-- A number that stands for none of the `count` variants. -/
  | unknownVariant (number count : Nat)
  | invalidBool (octet : UInt8)
  | invalidText (fault : Text.Utf8.Fault)
  /-- The event takes more octets than any event may. -/
  | sizeLimit
  /-- The recording ends inside the event. -/
  | truncated
  | device (fault : DeviceFault)
  deriving DecidableEq

/-- The wording of a cause. -/
def Cause.message : Cause → String
  | .unknownVariant number count =>
    s!"invalid value: integer `{number}`, expected variant index 0 <= i < {count}"
  | .invalidBool octet =>
    s!"invalid u8 while decoding bool, expected 0 or 1, found {octet.toNat}"
  | .invalidText fault => "string is not valid utf8: " ++ fault.message
  | .sizeLimit => "the size limit has been reached"
  | .truncated => "io error: failed to fill whole buffer"
  | .device fault => "io error: " ++ fault.message

end TraceTables.Binary
