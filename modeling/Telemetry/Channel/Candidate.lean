import Telemetry.Layout.Field
import Telemetry.Time.Unit

namespace Telemetry

inductive TagValue where
  | clock (c : Clock)
  | count (n : Nat)
  | seconds (x : Double)
deriving DecidableEq, Repr

structure TimeTag where
  kind : TagKind
  value : TagValue
  unit : TimeUnit
  bits : Nat
deriving DecidableEq, Repr

def TimeTag.isClock (t : TimeTag) : Bool :=
  match t.value with
  | .clock _ | .seconds _ => true
  | .count _ => false

structure ChannelValue where
  id : String
  dn : Value
  clock : Option Clock := none
deriving DecidableEq, Repr

inductive Candidate where
  | channel (c : ChannelValue)
  | tag (t : TimeTag)
deriving DecidableEq, Repr

end Telemetry
