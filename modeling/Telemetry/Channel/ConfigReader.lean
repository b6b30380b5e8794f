import Telemetry.Json.Members
import Telemetry.Time.Clock

namespace Telemetry

open Json (Members)

inductive Marking where
  | realtime
  | recorded
deriving DecidableEq, Repr

structure ChannelConfig where
  clockFormat : ClockFormat := {}
  solarTime : Bool := false
  marking : Marking := .recorded
deriving DecidableEq, Repr

def ClockFormat.read (j : Json) : Option ClockFormat := do
  let m ← Members.ofJson? ["coarse_bits", "fine_bits"] j
  let coarse ← m.withDefault "coarse_bits" 32 (Json.natUpTo? 255)
  let fine ← m.withDefault "fine_bits" 16 (Json.natUpTo? 255)
  return ⟨coarse, fine⟩

def Marking.cases : List (String × Marking) := [("realtime", .realtime), ("recorded", .recorded)]

def ChannelConfig.read (j : Json) : Option ChannelConfig := do
  let m ← Members.ofJson? ["sclk_format", "lst_enabled", "marking"] j
  let clockFormat ← m.withDefault "sclk_format" {} ClockFormat.read
  let solarTime ← m.withDefault "lst_enabled" false Json.bool?
  let marking ← m.withDefault "marking" .recorded (Json.case? Json.isNull Marking.cases)
  return ⟨clockFormat, solarTime, marking⟩

def ClockFormat.ofJson? (text : List UInt8) : Option ClockFormat :=
  (Json.parse? text).bind ClockFormat.read

def ChannelConfig.ofJson? (text : List UInt8) : Option ChannelConfig :=
  (Json.parse? text).bind ChannelConfig.read

end Telemetry
