import Telemetry.DataType
import Telemetry.Log
import Telemetry.Resolution
import Telemetry.Value

namespace Telemetry

inductive Event where
  | groupStart (name : String)
  | groupEnd (name : String)
  | arrayStart (name : String) (length : Option Nat)
  | indexStart (label : String)
  | indexEnd (label : String)
  | arrayEnd (name : String)
  | value (name : String) (v : Value) (unit : Option String)
  | line (offset : Nat) (text : String)
  | address (offset : Nat) (text : String)
deriving DecidableEq, Repr

namespace Event

def shown? : Event → Option (String × Value)
  | value name v _ => some (name, v)
  | _ => none

def formatted? : Event → Option (Nat × String)
  | line offset text => some (offset, text)
  | _ => none

def firstValue? (events : List Event) (name : String) : Option Value :=
  (events.filterMap shown?).lookup name

end Event

inductive Notice where
  | prefixTooLong (field : String) (length remaining : Nat)
  | noPrefix (field : String) (remaining : Nat)
  | fillPastEnd (field : String) (length remaining : Nat)
  | fieldPastEnd (field : String) (length remaining : Nat)
  | bitsPastEnd (field : String) (length remaining : Nat)
  | noBits (field : String) (offset : Nat)
  | notATime (field : String) (base : BaseType)
  | calibrationFailed (field : String) (dn : Value) (e : CalibrationError)
  | structureCut (name : String) (skipped : Nat)
  | noLength (array : String)
  | noArrayPrefix (array : String) (remaining : Nat)
  | arrayCut (array : String) (index expected : Nat)
  | arrayStalled (array : String) (index : Nat)
  | arrayShort (array : String) (missing : Nat)
deriving DecidableEq, Repr

namespace Notice

def message : Notice → String
  | prefixTooLong .. => "length prefix exceeds data, truncating"
  | noPrefix .. => "no data for length prefix, skipping remaining bytes"
  | fillPastEnd .. => "fill extends past end of data"
  | fieldPastEnd .. => "field extends past end of data, skipping remaining bytes"
  | bitsPastEnd .. => "bit array extends past end of data, skipping remaining bytes"
  | noBits .. => "failed to extract bits: Not enough bytes"
  | notATime .. => "time tag on a field that is not a time, ignoring"
  | calibrationFailed _ _ e => "EU conversion failed, using DN: " ++ e.message
  | structureCut .. => "data exhausted before end of structure"
  | noLength _ => "length field has not been decoded, array is empty"
  | noArrayPrefix .. => "no data for array length prefix, skipping remaining bytes"
  | arrayCut .. => "data exhausted before end of array"
  | arrayStalled .. => "array element consumed no data, stopping"
  | arrayShort .. => "array read less than its declared size"

def number (n : Nat) : String := String.ofList (Number.digits n)

def fields : Notice → List (String × String)
  | prefixTooLong field len remaining | fillPastEnd field len remaining
  | fieldPastEnd field len remaining | bitsPastEnd field len remaining =>
    [("field", field), ("len", number len), ("remaining", number remaining)]
  | noPrefix field remaining => [("field", field), ("remaining", number remaining)]
  | noBits field offset => [("field", field), ("offset", number offset)]
  | notATime field base => [("field", field), ("base", base.display)]
  | calibrationFailed field dn _ => [("field", Text.quoted field), ("dn", dn.display)]
  | structureCut name skipped => [("structure", name), ("skipped", number skipped)]
  | noLength array => [("array", array)]
  | noArrayPrefix array remaining => [("array", array), ("remaining", number remaining)]
  | arrayCut array index expected =>
    [("array", array), ("index", number index), ("expected", number expected)]
  | arrayStalled array index => [("array", array), ("index", number index)]
  | arrayShort array missing => [("array", array), ("remaining", number missing)]

def line (n : Notice) : Log.Line := ⟨.warning, n.message, n.fields⟩

end Notice
end Telemetry
