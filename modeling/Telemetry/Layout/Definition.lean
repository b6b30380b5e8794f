import Telemetry.Layout.Build
import Telemetry.PrintFormat.Parser

/-!
Product definitions, as they are written down: fields within fields, with enumerations and length
fields called by their names.
-/

namespace Telemetry.Layout

structure AttributesDefinition where
  unit : Option String := none
  enumeration : Option String := none
  calibration : Option Calibration := none
  format : Option String := none

structure LengthDefinition where
  count : Option Nat := none
  lengthBytes : Option Nat := none
  inBytes : Bool := false
  lengthField : Option String := none
  untilExhausted : Bool := false

inductive FieldDefinition where
  | scalar (name : String) (base : BaseType) (bits : Option Nat) (attrs : AttributesDefinition)
      (lengthBytes : Option Nat) (channel : Option String) (tag : Option TagKind)
  | bit (name : String) (bits : Nat) (attrs : AttributesDefinition)
  | group (name : String) (typeName format : Option String) (fields : List FieldDefinition)
  | array (name : String) (elements : List FieldDefinition) (length : LengthDefinition)
      (labels : List String) (labelEnumeration format : Option String)
  | bitArray (name : String) (bits : Nat) (fields : List FieldDefinition)
  | stream (name : String) (maxLen : Option Nat) (display : StreamDisplay)
      (handler : Option String)

structure ProductDefinition where
  enumerations : List Enumeration
  root : FieldDefinition

structure Draft where
  arena : Arena := #[]
  scalars : List (String × Nat) := []

namespace Draft

def push (d : Draft) (e : Entry) : Nat × Draft :=
  (d.arena.size, { d with arena := d.arena.push e })

def pushScalar (d : Draft) (s : Scalar) : Nat × Draft :=
  (d.arena.size, ⟨d.arena.push (.scalar s), (s.name, d.arena.size) :: d.scalars⟩)

end Draft

def enumeration (tables : List Enumeration) (field name : String) :
    Except DefinitionError Enumeration :=
  match tables.find? fun t => t.name == name with
  | some t => .ok t
  | none => .error (.unknownEnumeration field name)

def attributes (tables : List Enumeration) (field : String) (a : AttributesDefinition) :
    Except DefinitionError Attributes := do
  let lookup ← a.enumeration.mapM (enumeration tables field)
  let printFormat ← a.format.mapM PrintFormat.parse
  return ⟨a.unit, lookup, a.calibration, printFormat⟩

def LengthDefinition.ways (l : LengthDefinition) : Nat :=
  l.count.isSome.toNat + l.lengthBytes.isSome.toNat + l.lengthField.isSome.toNat +
    l.untilExhausted.toNat

def arrayLength (scalars : List (String × Nat)) (array : String) (l : LengthDefinition) :
    Except DefinitionError ArrayLength :=
  if l.ways = 0 then .error (.missingArrayLength array)
  else if 1 < l.ways then .error (.ambiguousArrayLength array)
  else match l.count, l.lengthBytes, l.lengthField with
    | some count, _, _ => .ok (.fixed count)
    | none, some bytes, _ => .ok (.inData bytes l.inBytes)
    | none, none, some name =>
      match scalars.lookup name with
      | some id => .ok (.ofField id)
      | none => .error (.unknownLengthField array name)
    | none, none, none => .ok .untilExhausted

mutual

def FieldDefinition.add (tables : List Enumeration) (d : Draft) :
    FieldDefinition → Except DefinitionError (Nat × Draft)
  | .scalar name base bits attrs lengthBytes channel tag => do
    let dataType := match bits with
      | some bits => DataType.ofBits base bits
      | none => DataType.rest base
    let attrs ← attributes tables name attrs
    return d.pushScalar { name, dataType, attrs, lengthBytes, channel, tag }
  | .bit name bits attrs => do
    let attrs ← attributes tables name attrs
    return d.push (.bit ⟨name, bits, attrs⟩)
  | .group name typeName format fields => do
    let (children, d) ← addAll tables d fields
    let printFormat ← format.mapM PrintFormat.parse
    return d.push (.group ⟨name, typeName, printFormat⟩ children)
  | .array name elements length labels labelEnumeration format => do
    let length ← arrayLength d.scalars name length
    let (children, d) ← addAll tables d elements
    let labelTable ← labelEnumeration.mapM (enumeration tables name)
    let printFormat ← format.mapM PrintFormat.parse
    return d.push (.array { name, length, labels, labelTable, printFormat } children)
  | .bitArray name bits fields => do
    let (children, d) ← addAll tables d fields
    return d.push (.bitArray ⟨name, bits⟩ children)
  | .stream name maxLen display handler =>
    return d.push (.stream { name, maxLen, display, handler })

def addAll (tables : List Enumeration) (d : Draft) :
    List FieldDefinition → Except DefinitionError (List Nat × Draft)
  | [] => return ([], d)
  | f :: fs => do
    let (id, d) ← f.add tables d
    let (ids, d) ← addAll tables d fs
    return (id :: ids, d)

end

def ProductDefinition.build (p : ProductDefinition) : Except Refusal Layout := do
  let (root, draft) ← (p.root.add p.enumerations {}).mapError .defect
  Layout.build draft.arena root

end Telemetry.Layout
