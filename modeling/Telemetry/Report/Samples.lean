import Telemetry.Channel.Sample
import Telemetry.Report.Record
import Telemetry.Time.Calendar

namespace Telemetry

open Json (ofString ofNat ofOption)

namespace Report

def padRight (width : Nat) (s : String) : String :=
  s ++ String.ofList (List.replicate (width - s.utf8ByteSize) ' ')

def rule (c : Char) : String := String.ofList (List.replicate 73 c)

def sampleRow (s : Sample) : String :=
  padRight 14 s.channel ++ "  " ++ padRight 20 s.dn.display ++ "  " ++
    ((s.times.event.map Epoch.text).getD "")

def batchLines (b : Batch) : List String :=
  let p := b.product
  let flag := fun (x : Bool) => if x then "true" else "false"
  ["", s!"{p.id} (SCID={p.spacecraft} VCID={p.virtualChannel} STATION={p.station})", rule '=',
    "SCLK:     " ++ (b.times.clock.map Clock.text).getD "",
    "SCET:     " ++ (b.times.event.map Epoch.text).getD "",
    "LST:      " ++ (b.times.solar.map SolarTime.text).getD "",
    "Realtime: " ++ flag (b.samples.any (·.realtime)), "Fault:    " ++ flag b.fault, rule '-',
    "Channel         DN                    SCET", rule '-'] ++ b.samples.map sampleRow

def batchText (b : Batch) : String := String.join ((batchLines b).map (· ++ "\n"))

end Report

def Epoch.json (e : Epoch) : Json := ofString e.text

def SolarTime.json (t : SolarTime) : Json :=
  Json.record [("sol", ofNat t.sol), ("millis_of_sol", ofNat t.millis)]

def Sample.json (s : Sample) : Json :=
  Json.record [("channel_id", ofString s.channel), ("dn", s.dn.json),
    ("sclk", ofOption Clock.json s.times.clock), ("ert", ofOption Epoch.json s.times.receive),
    ("scet", ofOption Epoch.json s.times.event), ("lst", ofOption SolarTime.json s.times.solar),
    ("realtime", .bool s.realtime)]

def ProductIdentity.json (p : ProductIdentity) : Json :=
  Json.record [("product_id", ofString p.id), ("scid", ofNat p.spacecraft),
    ("station_id", ofNat p.station), ("vcid", ofNat p.virtualChannel),
    ("ert", ofOption Epoch.json p.receiveTime), ("partial", .bool p.incomplete)]

def Batch.json (created : String) (b : Batch) : Json :=
  Json.record [("samples", .array (b.samples.map Sample.json)), ("rct", ofString created),
    ("ert", ofOption Epoch.json b.times.receive), ("scet", ofOption Epoch.json b.times.event),
    ("sclk", ofOption Clock.json b.times.clock), ("lst", ofOption SolarTime.json b.times.solar),
    ("product", b.product.json), ("fault", .bool b.fault)]

end Telemetry
