import Telemetry.Time.Clock
import Telemetry.Time.Epoch
import Telemetry.Time.SolarTime
import Telemetry.Value

namespace Telemetry

structure ProductIdentity where
  id : String
  spacecraft : Nat
  station : Nat := 0
  virtualChannel : Nat := 0
  receiveTime : Option Epoch := none
  incomplete : Bool := false
deriving DecidableEq, Repr

structure Times where
  clock : Option Clock := none
  receive : Option Epoch := none
  event : Option Epoch := none
  solar : Option SolarTime := none
deriving DecidableEq, Repr

structure Sample where
  channel : String
  dn : Value
  times : Times
  realtime : Bool
deriving DecidableEq, Repr

structure Batch where
  samples : List Sample
  times : Times
  product : ProductIdentity
  fault : Bool
deriving DecidableEq, Repr

end Telemetry
