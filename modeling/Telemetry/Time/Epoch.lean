import Telemetry.Number.Decimal
import Telemetry.Time.Unit

namespace Telemetry

def nanosPerSecond : Nat := 1000000000

def nanosPerMillisecond : Nat := 1000000

def nanosPerDay : Nat := 86400 * nanosPerSecond

structure Duration where
  nanos : Int
deriving DecidableEq, Repr

structure Epoch where
  nanos : Int
  scale : TimeScale := .universal
deriving DecidableEq, Repr

namespace Duration

def century : Int := 3155760000 * nanosPerSecond

def most : Int := 32768 * century

def ofNanos (n : Int) : Duration := ⟨max (-most) (min most n)⟩

def ofDouble (x : Double) (nanosPerUnit : Nat) : Duration :=
  ofNanos ((x * Double.ofNat nanosPerUnit).truncateTo (-most) most)

def ofMilliseconds (x : Double) : Duration := ofDouble x nanosPerMillisecond

def ofSeconds (x : Double) : Duration := ofDouble x nanosPerSecond

def seconds (d : Duration) : Double :=
  let centuries := d.nanos.fdiv century
  let within := (d.nanos.fmod century).toNat
  let whole := Double.ofNat (within / nanosPerSecond)
  let below := Double.ofNat (within % nanosPerSecond) * Double.ofFloat 1e-9
  if centuries = 0 then whole + below
  else Double.ofInt centuries * Double.ofNat 3155760000 + whole + below

end Duration

/-- The reference of a scale as a span since 1900-01-01, by the calendar of the scale: 1980-01-06,
1999-08-22 and 2006-01-01 for satellites, noon of 2000-01-01 for ephemerides, and within the first
second of 1977 for the coordinate times of the earth, the moon and the solar system. -/
def TimeScale.reference : TimeScale → Duration
  | .ephemeris | .barycentricDynamical => ⟨3155716800 * nanosPerSecond⟩
  | .gps | .quasiZenith => ⟨2524953600 * nanosPerSecond⟩
  | .galileo => ⟨3144268800 * nanosPerSecond⟩
  | .beidou => ⟨3345062400 * nanosPerSecond⟩
  | .geocentric | .lunar | .selenocentric => ⟨2429913600 * nanosPerSecond + 184000000⟩
  | .barycentric => ⟨2429913600 * nanosPerSecond + 184065500⟩
  | .atomic | .terrestrial | .universal => ⟨0⟩

namespace Epoch

def since (scale : TimeScale) (d : Duration) : Epoch := ⟨d.nanos, scale⟩

def add (e : Epoch) (d : Duration) : Epoch :=
  { e with nanos := (Duration.ofNanos (e.nanos + d.nanos)).nanos }

def sub (a b : Epoch) : Duration := Duration.ofNanos (a.nanos - b.nanos)

def since1900 (scale : TimeScale) (d : Duration) : Epoch :=
  .since scale (.ofNanos (d.nanos - scale.reference.nanos))

def civil (e : Epoch) : Duration := .ofNanos (e.nanos + e.scale.reference.nanos)

def unix : Epoch := .since .universal ⟨2208988800 * nanosPerSecond⟩

def ofUnixMilliseconds (x : Double) : Epoch := unix.add (.ofMilliseconds x)

def ofUnixSeconds (x : Double) : Epoch := unix.add (.ofSeconds x)

end Epoch

def TimeUnit.epoch? (unit : TimeUnit) (count : Nat) : Option Epoch :=
  match unit with
  | .clock => none
  | .milliseconds => some (.ofUnixMilliseconds (Double.ofNat count))
  | .microseconds => some (.ofUnixMilliseconds (Double.ofNat count / Double.ofNat 1000))

end Telemetry
