import Telemetry.Bytes.Bits
import Telemetry.Decode.Trace
import Telemetry.Text.Characters
import Telemetry.Text.Utf8

namespace Telemetry.Decode

open Bytes (Cursor bigEndian)
open Layout (Scalar BitField Window Field)

def textValue (bytes : List UInt8) : String :=
  String.ofList (Text.trim Text.padding (Text.Utf8.decode bytes))

def signedValue (bits n : Nat) : Int :=
  let range := Nat.pow 2 bits
  if 2 * n < range then n else n - range

def floatValue (bits n : Nat) : Double :=
  if bits = 32 then .ofSingle (UInt32.ofNat n) else ⟨UInt64.ofNat n⟩

def timeValue (bits : Nat) (unit : Option String) (bytes : List UInt8) : Value :=
  if TimeUnit.ofDeclared unit = .clock then
    if bits = 32 then .clock ⟨bigEndian bytes, 0⟩
    else .clock (.ofWords (bigEndian (bytes.take 4)) (bigEndian (bytes.drop 4)))
  else .unsigned (UInt64.ofNat (bigEndian bytes))

def leafValue (name : String) (t : DataType) (unit : Option String) (bytes : List UInt8) :
    Except DefinitionError (Option Value) :=
  if !t.supported then .error (.unsupportedType name t.base t.bitLen)
  else match t.base with
    | .unsigned | .enumerated => .ok (some (.unsigned (UInt64.ofNat (bigEndian bytes))))
    | .boolean => .ok (some (.bool (bigEndian bytes != 0)))
    | .signed => .ok (some (.signed (Int64.ofInt (signedValue t.bitLen (bigEndian bytes)))))
    | .float => .ok (some (.float (floatValue t.bitLen (bigEndian bytes))))
    | .text => .ok (some (.text (textValue bytes)))
    | .time => .ok (some (timeValue t.bitLen unit bytes))
    | .fill | .unknown => .ok none

def tagValue? (s : Scalar) (dn : Value) : Option (TagValue × TimeUnit) :=
  let unit := TimeUnit.ofDeclared s.attrs.unit
  match s.dataType.base, dn with
  | .time, .clock c => some (.clock c, unit)
  | .time, .unsigned n => some (.count n.toNat, unit)
  | .float, .float x => if s.dataType.bitLen = 64 then some (.seconds x, .clock) else none
  | _, _ => none

def offer (s : Scalar) (dn : Value) : List Item :=
  match s.tag, s.channel with
  | some kind, _ =>
    match tagValue? s dn with
    | some (value, unit) => [.candidate (.tag ⟨kind, value, unit, s.dataType.bitLen⟩)]
    | none => [.notice (.notATime s.name s.dataType.base)]
  | none, some id => [.candidate (.channel { id, dn })]
  | none, none => []

structure Extent where
  length : Nat
  cursor : Cursor
  notices : List Notice

def extent? (s : Scalar) (c : Cursor) : Option Extent :=
  match s.lengthBytes with
  | none => some ⟨s.dataType.byteLen.getD c.remaining, c, []⟩
  | some width =>
    match c.readNat width with
    | .error _ => none
    | .ok (length, c) =>
      if c.remaining < length then
        some ⟨c.remaining, c, [.prefixTooLong s.name length c.remaining]⟩
      else some ⟨length, c, []⟩

def effectiveType (s : Scalar) (length : Nat) : DataType :=
  match s.lengthBytes, s.dataType.byteLen with
  | none, some _ => s.dataType
  | _, _ => s.dataType.withByteLen length

theorem base_effectiveType (s : Scalar) (length : Nat) :
    (effectiveType s length).base = s.dataType.base := by
  unfold effectiveType
  split <;> rfl

structure Reading where
  dn : Option Value
  items : List Item
  state : State

def State.remember (s : State) (id : Nat) (dn : Value) : State :=
  match dn.count? with
  | some n => { s with remembered := s.remembered.set id n.toNat }
  | none => s

@[simp] theorem State.cursor_remember (s : State) (id : Nat) (dn : Value) :
    (s.remember id dn).cursor = s.cursor := by
  unfold State.remember
  split <;> rfl

def readLeaf (channels : Bool) (id : Nat) (s : Scalar) (bytes : List UInt8) (past : State) :
    Reading :=
  match leafValue s.name (effectiveType s bytes.length) s.attrs.unit bytes with
  | .error defect => ⟨none, [.defect defect], past⟩
  | .ok none => ⟨none, [], past⟩
  | .ok (some dn) =>
    let offered := if channels then offer s dn else []
    ⟨some dn, .reading id s dn :: offered, past.remember id dn⟩

def readScalar (channels : Bool) (id : Nat) (s : Scalar) (st : State) : Reading :=
  let remaining := st.remaining
  match extent? s st.cursor with
  | none =>
    ⟨none, [.notice (.noPrefix s.name remaining)], st.advance remaining⟩
  | some e =>
    let notices := e.notices.map Item.notice
    let past := { st with cursor := e.cursor.advance e.length }
    if s.isFill then
      let short := if e.cursor.remaining < e.length then
        [.notice (.fillPastEnd s.name e.length remaining)] else []
      ⟨none, notices ++ short, past⟩
    else match e.cursor.read e.length with
      | .error _ => ⟨none, notices ++ [.notice (.fieldPastEnd s.name e.length remaining)], past⟩
      | .ok (bytes, _) =>
        let r := readLeaf channels id s bytes past
        { r with items := notices ++ r.items }

def extractAll (bytes : List UInt8) : (offset : Nat) → List BitField →
    List (BitField × Value) × List Notice
  | _, [] => ([], [])
  | offset, b :: bs =>
    match Bytes.extractBits bytes offset b.bitLen with
    | .error _ => ([], [.noBits b.name offset])
    | .ok n =>
      let rest := extractAll bytes (offset + b.bitLen) bs
      ((b, .unsigned (UInt64.ofNat n)) :: rest.1, rest.2)

structure BitReading where
  values : List (BitField × Value)
  notices : List Notice
  state : State

def readBits (w : Window) (bits : List BitField) (st : State) : BitReading :=
  let past := st.advance w.byteLen
  match st.cursor.read w.byteLen with
  | .error _ => ⟨[], [.bitsPastEnd w.name w.byteLen st.remaining], past⟩
  | .ok (bytes, _) =>
    let (values, notices) := extractAll bytes 0 bits
    ⟨values, notices, past⟩

end Telemetry.Decode
