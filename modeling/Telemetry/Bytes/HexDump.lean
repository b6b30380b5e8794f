namespace Telemetry.Bytes

def hexDigit (n : Nat) : Char := Nat.digitChar n

def hexByte (b : UInt8) : List Char := [hexDigit (b.toNat / 16), hexDigit (b.toNat % 16)]

def hexText (bytes : List UInt8) : List Char := bytes.flatMap hexByte

namespace HexDump

def width : Nat := 16

def column : Nat := 2 * width + width / 2 - 1

def glyph (b : UInt8) : Char :=
  if 32 ≤ b.toNat ∧ b.toNat < 127 then Char.ofNat b.toNat else '.'

def pairs : List UInt8 → List Char
  | [] => []
  | [b] => hexByte b
  | [b, c] => hexByte b ++ hexByte c
  | b :: c :: rest => hexByte b ++ hexByte c ++ ' ' :: pairs rest

def line (bytes : List UInt8) : List Char :=
  let digits := pairs bytes
  digits ++ List.replicate (column - digits.length) ' ' ++ [' ', ' '] ++ bytes.map glyph

def lines (offset : Nat) : List UInt8 → List (Nat × String)
  | [] => []
  | b :: rest => (offset, String.ofList (line (b :: rest.take (width - 1)))) ::
      lines (offset + width) (rest.drop (width - 1))
termination_by bytes => bytes.length
decreasing_by simp only [List.length_drop, List.length_cons]; omega

end HexDump
end Telemetry.Bytes
