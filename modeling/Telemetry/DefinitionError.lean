import Telemetry.Text.Quoted

namespace Telemetry

inductive BaseType where
  | unsigned
  | signed
  | float
  | enumerated
  | boolean
  | text
  | time
  | fill
  | unknown
deriving DecidableEq, Repr

def BaseType.display : BaseType → String
  | .unsigned => "UNSIGNED_INT"
  | .signed => "SIGNED_INT"
  | .float => "FLOAT"
  | .enumerated => "ENUM"
  | .boolean => "BOOLEAN"
  | .text => "STRING"
  | .time => "TIME"
  | .fill => "FILL"
  | .unknown => "UNKNOWN"

inductive DefinitionError where
  | unsupportedType (field : String) (base : BaseType) (bits : Nat)
  | ambiguousArrayLength (array : String)
  | missingArrayLength (array : String)
  | emptyArray (array : String)
  | bitArrayWidth (field : String) (expected actual : Nat)
  | orphanBit (field : String)
  | bitLength (field : String) (bits : Nat)
  | unknownLengthField (array name : String)
  | unknownEnumeration (field name : String)
  | variableElementSize (array : String)
  | printFormat (format reason : String)
  | notABit (parent child : String)
  | unknownChild (parent : String) (index : Nat)
deriving DecidableEq, Repr

open Text in
def DefinitionError.message : DefinitionError → String
  | .unsupportedType field base bits =>
    s!"unsupported bit length {bits} for {base.display} field {quoted field}"
  | .ambiguousArrayLength array =>
    s!"array {quoted array} declares more than one length strategy"
  | .missingArrayLength array => s!"array {quoted array} does not declare a length strategy"
  | .emptyArray array => s!"array {quoted array} has no elements"
  | .bitArrayWidth field expected actual =>
    s!"bit array {quoted field} children sum to {actual} bits, expected {expected}"
  | .orphanBit field => s!"bit field {quoted field} is only valid as a child of a bit array"
  | .bitLength field bits => s!"bit field {quoted field} has unsupported length {bits}"
  | .unknownLengthField array name =>
    s!"array {quoted array} references unknown length field {quoted name}"
  | .unknownEnumeration field name =>
    s!"field {quoted field} references unknown enumeration {quoted name}"
  | .variableElementSize array =>
    s!"array {quoted array} has a byte count prefix but variable size elements"
  | .printFormat format reason => s!"invalid print format {quoted format}: {reason}"
  | .notABit parent child => s!"bit array {quoted parent} contains non-bit field {quoted child}"
  | .unknownChild parent index =>
    s!"field {quoted parent} references child {index} which was not added before it"

end Telemetry
