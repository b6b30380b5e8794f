import Telemetry.Json.Members
import Telemetry.Layout.Definition

namespace Telemetry.Layout

open Json (Members)

def baseTypes : List (String × BaseType) :=
  [("unsigned_int", .unsigned), ("signed_int", .signed), ("float", .float), ("enum", .enumerated),
    ("boolean", .boolean), ("string", .text), ("time", .time), ("fill", .fill),
    ("unknown", .unknown)]

def tagKinds : List (String × TagKind) :=
  [("absolute", .absolute), ("base", .base), ("delta", .delta)]

def streamDisplays : List (String × StreamDisplay) :=
  [("none", .none), ("text", .text), ("hex_dump", .hexDump)]

def readCase {α : Type} (cases : List (String × α)) : Json → Option α :=
  Json.case? Json.isNothing cases

def readCalibration (j : Json) : Option Calibration := do
  let m ← Members.ofJson? ["name", "units", "parameters"] j
  return {
    name := ← m.required "name" Json.string?
    units := ← m.withDefault "units" none (Json.orNull? Json.string?)
    parameters := ← m.withDefault "parameters" [] (Json.list? Json.double?) }

def readAttributes (m : Members) : Option AttributesDefinition :=
  return {
    unit := ← m.optional "unit" Json.string?
    enumeration := ← m.optional "enumeration" Json.string?
    calibration := ← m.optional "eu" readCalibration
    format := ← m.optional "format" Json.string? }

def fieldKinds : List (String × Kind × List String) :=
  [("simple", .scalar, ["name", "type", "bits", "unit", "enumeration", "eu", "format",
      "prefix_bytes", "channel", "time_tag"]),
    ("bit", .bit, ["name", "bits", "unit", "enumeration", "eu", "format"]),
    ("structure", .group, ["name", "type_name", "format", "fields"]),
    ("array", .array, ["name", "elements", "count", "prefix_bytes", "length_in_bytes",
      "length_field", "until_exhausted", "index_labels", "index_enumeration", "format"]),
    ("bit_array", .bitArray, ["name", "bits", "fields"]),
    ("stream", .stream, ["name", "max_bytes", "display", "handler"])]

def readTag (inner : Bool) : Json → Option (Kind × List String)
  | .number lexeme =>
    if inner then (Json.number lexeme).nat?.bind fun n => (fieldKinds[n]?).map (·.2) else none
  | j => j.string?.bind fun name => fieldKinds.lookup name

def readKind (inner : Bool) : Json → Option (Kind × Members)
  | .array (tag :: items) => do
    let (kind, known) ← readTag inner tag
    return (kind, ← Members.ofJson? known (.array items))
  | .object ms => do
    let m ← Members.ofJson? ["kind"] (.object ms)
    let (kind, known) ← m.required "kind" (readTag inner)
    return (kind, ← Members.ofJson? known (.object ms))
  | _ => none

def readField : (levels : Nat) → (inner : Bool) → Json → Option FieldDefinition
  | 0, _, _ => none
  | levels + 1, inner, j => do
    let fields := Json.list? (readField levels true)
    let (kind, m) ← readKind inner j
    let name ← m.required "name" Json.string?
    match kind with
    | .scalar =>
      let base ← m.required "type" (readCase baseTypes)
      let bits ← m.optional "bits" Json.nat?
      let attrs ← readAttributes m
      let lengthBytes ← m.optional "prefix_bytes" Json.nat?
      let channel ← m.optional "channel" Json.string?
      let tag ← m.optional "time_tag" (readCase tagKinds)
      return .scalar name base bits attrs lengthBytes channel tag
    | .bit => return .bit name (← m.required "bits" Json.nat?) (← readAttributes m)
    | .group =>
      let typeName ← m.optional "type_name" Json.string?
      let format ← m.optional "format" Json.string?
      return .group name typeName format (← m.required "fields" fields)
    | .array =>
      let elements ← m.required "elements" fields
      let length : LengthDefinition := {
        count := ← m.optional "count" Json.nat?
        lengthBytes := ← m.optional "prefix_bytes" Json.nat?
        inBytes := ← m.withDefault "length_in_bytes" false Json.bool?
        lengthField := ← m.optional "length_field" Json.string?
        untilExhausted := ← m.withDefault "until_exhausted" false Json.bool? }
      let labels ← m.withDefault "index_labels" [] (Json.list? Json.string?)
      let labelEnumeration ← m.optional "index_enumeration" Json.string?
      let format ← m.optional "format" Json.string?
      return .array name elements length labels labelEnumeration format
    | .bitArray =>
      return .bitArray name (← m.required "bits" Json.nat?) (← m.required "fields" fields)
    | .stream =>
      let maxLen ← m.optional "max_bytes" Json.nat?
      let display ← m.withDefault "display" .none (readCase streamDisplays)
      return .stream name maxLen display (← m.optional "handler" Json.string?)

def readSymbols (name : String) : Json → Option Enumeration
  | .object ms => do
    let pairs ← ms.mapM fun (k, j) => return (← Json.int64? k, ← j.string?)
    return Enumeration.ofPairs name pairs
  | _ => none

def replaceTable (tables : List Enumeration) (t : Enumeration) : List Enumeration :=
  tables.filter (fun u => u.name != t.name) ++ [t]

def readEnumerations : Json → Option (List Enumeration)
  | .object ms => do
    let tables ← ms.mapM fun (k, j) => do
      readSymbols (String.ofList (← Json.decodeString? k)) j
    return tables.foldl replaceTable []
  | _ => none

def readRoot (j : Json) : Option FieldDefinition :=
  if j.sound ∧ j.depth < Json.maxDepth then readField Json.maxDepth false j else none

def readProduct (j : Json) : Option ProductDefinition := do
  let m ← Members.ofJson? ["enumerations", "root"] j
  let enumerations ← m.withDefault "enumerations" [] readEnumerations
  return ⟨enumerations, ← m.required "root" readRoot⟩

def ProductDefinition.ofJson? (text : List UInt8) : Option ProductDefinition :=
  (Json.parse? text).bind readProduct

end Telemetry.Layout
