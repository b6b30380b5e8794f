import Telemetry.Decode.Event
import Telemetry.Json.Writer
import Telemetry.Resolution

namespace Telemetry

open Json (ofString ofNat ofInt ofOption)

def Clock.json (c : Clock) : Json :=
  Json.record [("coarse", ofNat c.coarse), ("fine", ofNat c.fine)]

def Value.json : Value → Json
  | .unsigned n => ofNat n.toNat
  | .signed n => ofInt n.toInt
  | .float x => Json.ofDouble x
  | .bool b => .bool b
  | .text s => ofString s
  | .clock c => c.json

def Enumeration.json (e : Enumeration) : Json :=
  let symbols := e.entries.map fun (key, symbol) => (Value.integerText key, ofString symbol)
  Json.record [("name", ofString e.name), ("values", Json.record symbols)]

def Event.json : Event → Json
  | .groupStart name => Json.record [("event", ofString "structure_start"), ("name", ofString name)]
  | .groupEnd name => Json.record [("event", ofString "structure_end"), ("name", ofString name)]
  | .arrayStart name length =>
    Json.record [("event", ofString "array_start"), ("name", ofString name),
      ("len", ofOption ofNat length)]
  | .indexStart label =>
    Json.record [("event", ofString "array_index_start"), ("label", ofString label)]
  | .indexEnd label =>
    Json.record [("event", ofString "array_index_end"), ("label", ofString label)]
  | .arrayEnd name => Json.record [("event", ofString "array_end"), ("name", ofString name)]
  | .value name v unit =>
    Json.record <| [("event", ofString "name_value"), ("name", ofString name), ("value", v.json)] ++
      (unit.map fun u => ("unit", ofString u)).toList
  | .line offset text =>
    Json.record [("event", ofString "formatted_line"), ("offset", ofNat offset),
      ("line", ofString text)]
  | .address offset text =>
    Json.record [("event", ofString "address_value"), ("offset", ofNat offset),
      ("line", ofString text)]

end Telemetry
