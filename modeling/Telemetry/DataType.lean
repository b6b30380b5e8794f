import Telemetry.DefinitionError

namespace Telemetry

def DataType.bytesFor (bits : Nat) : Nat := (bits + 7) / 8

structure DataType where
  base : BaseType
  bitLen : Nat
  byteLen : Option Nat
  byteLen_eq : byteLen = none ∧ bitLen = 0 ∨ byteLen = some (DataType.bytesFor bitLen)
deriving DecidableEq, Repr

namespace DataType

theorem bytesFor_mul_eight (bytes : Nat) : bytesFor (bytes * 8) = bytes := by
  unfold bytesFor
  omega

def ofBits (base : BaseType) (bits : Nat) : DataType := ⟨base, bits, some (bytesFor bits), .inr rfl⟩

def rest (base : BaseType) : DataType := ⟨base, 0, none, .inl ⟨rfl, rfl⟩⟩

def textOf (bytes : Nat) : DataType := ofBits .text (bytes * 8)

def unsignedBytes (bytes : Nat) : DataType := ofBits .unsigned (bytes * 8)

def withByteLen (t : DataType) (bytes : Nat) : DataType :=
  ⟨t.base, bytes * 8, some bytes, .inr (by rw [bytesFor_mul_eight])⟩

def mayExceedSignedRange (t : DataType) : Bool :=
  (t.base == .unsigned || t.base == .enumerated || t.base == .boolean) && t.bitLen == 64

def integerWidths : List Nat := [8, 16, 24, 32, 64]

def supported (t : DataType) : Bool :=
  match t.base with
  | .unsigned | .signed | .enumerated | .boolean => integerWidths.contains t.bitLen
  | .float | .time => t.bitLen == 32 || t.bitLen == 64
  | .text => t.byteLen.isNone || t.bitLen % 8 == 0
  | .fill | .unknown => true

def check (t : DataType) (field : String) : Except DefinitionError Unit :=
  if t.supported then .ok () else .error (.unsupportedType field t.base t.bitLen)

def display (t : DataType) : String :=
  match t.byteLen with
  | some _ => s!"{t.base.display} {t.bitLen}"
  | none => s!"{t.base.display} *"

end DataType
end Telemetry
