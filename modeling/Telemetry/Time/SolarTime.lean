import Telemetry.Number.Decimal
import Telemetry.Time.Clock
import Telemetry.Time.Epoch

namespace Telemetry

structure SolarTime where
  sol : Nat
  millis : Nat
deriving DecidableEq, Repr

namespace SolarTime

def text (t : SolarTime) : String :=
  let ms := t.millis
  "SOL-" ++ Number.padded 4 t.sol ++ "M" ++ Number.padded 2 (ms / 3600000) ++ ":" ++
    Number.padded 2 (ms / 60000 % 60) ++ ":" ++ Number.padded 2 (ms / 1000 % 60) ++ "." ++
    Number.padded 3 (ms % 1000)

end SolarTime

structure Correlation where
  clockToEvent : Clock → Option Epoch → Nat → Option Epoch
  eventToSolar : Epoch → Nat → Option SolarTime
  receiveToEvent : Epoch → Nat → Option Epoch := fun _ _ => none

def solSeconds : Double := Double.ofNat 88775244 / Double.ofNat 1000

def millisPerDay : Nat := 86400000

/-- The local solar time so many seconds after the first sol began, each sol taken for a day of
86400 of its own seconds. -/
def SolarTime.ofSeconds? (secs : Double) : Option SolarTime :=
  if secs.isBelowZero then none
  else
    let sols := secs / solSeconds
    some ⟨min (UInt32.size - 1) sols.toUInt64, (sols.fract * Double.ofNat millisPerDay).toUInt64⟩

def Correlation.linear (origin : Epoch) (format : ClockFormat) : Correlation where
  clockToEvent := fun clock _ _ => some (origin.add (.ofSeconds (clock.seconds format)))
  eventToSolar := fun event _ => SolarTime.ofSeconds? (event.sub origin).seconds

end Telemetry
