import Telemetry.Text.Characters

namespace Telemetry

inductive TimeUnit where
  | clock
  | milliseconds
  | microseconds
deriving DecidableEq, Repr

namespace TimeUnit

def text : TimeUnit → String
  | .clock => "SCLK"
  | .milliseconds => "MS"
  | .microseconds => "US"

def parse? (unit : String) : Option TimeUnit :=
  let name := (Text.trim Text.blank unit.toList).map Char.toUpper
  [clock, milliseconds, microseconds].find? fun u => u.text.toList == name

def ofDeclared (unit : Option String) : TimeUnit := (unit.bind parse?).getD .clock

end TimeUnit

inductive TimeScale where
  | atomic
  | terrestrial
  | ephemeris
  | barycentricDynamical
  | universal
  | gps
  | galileo
  | beidou
  | quasiZenith
  | geocentric
  | barycentric
  | lunar
  | selenocentric
deriving DecidableEq, Repr

namespace TimeScale

def text : TimeScale → String
  | .atomic => "TAI"
  | .terrestrial => "TT"
  | .ephemeris => "ET"
  | .barycentricDynamical => "TDB"
  | .universal => "UTC"
  | .gps => "GPST"
  | .galileo => "GST"
  | .beidou => "BDT"
  | .quasiZenith => "QZSST"
  | .geocentric => "TCG"
  | .barycentric => "TCB"
  | .lunar => "TL"
  | .selenocentric => "TCL"

def all : List TimeScale :=
  [.atomic, .terrestrial, .ephemeris, .barycentricDynamical, .universal, .gps, .galileo, .beidou,
    .quasiZenith, .geocentric, .barycentric, .lunar, .selenocentric]

def systemNames : List (String × TimeScale) :=
  [("GPS", .gps), ("GAL", .galileo), ("BDS", .beidou), ("QZSS", .quasiZenith)]

def parse? (cs : List Char) : Option TimeScale :=
  let name := String.ofList (Text.trim Text.blank cs)
  (all.find? fun s => s.text == name).or (systemNames.lookup name)

end TimeScale
end Telemetry
