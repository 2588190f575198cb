/-
Conversions from null. Primitive targets get their zero, zone and locale come
from the environment, and everything else stays null.
-/
import Recast.Conversion.Context

namespace Recast.Scalar

/-- The zero of a primitive type. -/
def zeroOf : Ty → Value
  | .integral w => .integral (.zero w)
  | .float => .float (Binary.zero _ false)
  | .double => .double (Binary.zero _ false)
  | .decimal => .decimal .zero
  | .boolean => .boolean false
  | .char => .char (Char.ofNat 0)
  | _ => .null

def nullToZero : Conversion := .ofPure fun _ call => .ok (zeroOf call.target)

def nullToNull : Conversion := .ofPure fun _ _ => .ok .null

def nullToZone : Conversion := .ofPure fun _ call => .ok (.zoneOffset call.env.zone)

def nullToLocale : Conversion := .ofPure fun _ call => .ok (.locale call.env.locale)

end Recast.Scalar
