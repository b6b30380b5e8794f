/-!
IEEE 754 double precision numbers, kept as their 64 bits so that two of them can be told apart.
Sums, products and quotients are the correctly rounded ones; the parts of a number, its whole part
and its texts are computed exactly from the bits.
-/

namespace Telemetry.Number

inductive Tie where
  | even
  | up
deriving DecidableEq, Repr

def roundDiv (tie : Tie) (n d : Nat) : Nat :=
  let q := n / d
  let twice := 2 * (n % d)
  if twice < d then q
  else if d < twice then q + 1
  else match tie with
    | .even => q + q % 2
    | .up => q + 1

end Telemetry.Number

namespace Telemetry

structure Double where
  bits : UInt64
deriving DecidableEq, Repr

namespace Double

def toFloat (x : Double) : Float := Float.ofBits x.bits

def ofFloat (x : Float) : Double := ⟨x.toBits⟩

instance : Add Double := ⟨fun x y => ofFloat (x.toFloat + y.toFloat)⟩

instance : Mul Double := ⟨fun x y => ofFloat (x.toFloat * y.toFloat)⟩

instance : Div Double := ⟨fun x y => ofFloat (x.toFloat / y.toFloat)⟩

instance : Neg Double := ⟨fun x => ⟨x.bits ^^^ 0x8000000000000000⟩⟩

def leadingBit : Nat := 0x10000000000000

def signBit : Nat := 0x8000000000000000

def zero : Double := ⟨0⟩

def infinity : Double := ⟨0x7FF0000000000000⟩

def nan : Double := ⟨0x7FF8000000000000⟩

def ofNat (n : Nat) : Double :=
  if n = 0 then zero
  else
    let top := n.log2
    let scaled := if top ≤ 52 then n * Nat.pow 2 (52 - top)
      else Number.roundDiv .even n (Nat.pow 2 (top - 52))
    if 1023 < top then infinity
    else ⟨UInt64.ofNat ((top + 1023) * leadingBit + (scaled - leadingBit))⟩

def ofInt (n : Int) : Double := if n < 0 then -ofNat n.natAbs else ofNat n.natAbs

def ofSingle (bits : UInt32) : Double := ofFloat (Float32.ofBits bits).toFloat

def negative (x : Double) : Bool := signBit ≤ x.bits.toNat

def exponentField (x : Double) : Nat := x.bits.toNat / leadingBit % 2048

def fractionField (x : Double) : Nat := x.bits.toNat % leadingBit

def isFinite (x : Double) : Bool := x.exponentField < 2047

def isNaN (x : Double) : Bool := x.exponentField == 2047 && x.fractionField != 0

def significand (x : Double) : Nat :=
  if x.exponentField = 0 then x.fractionField else leadingBit + x.fractionField

def exponent (x : Double) : Int := max x.exponentField 1 - 1075

def isZero (x : Double) : Bool := x.exponentField == 0 && x.fractionField == 0

def isBelowZero (x : Double) : Bool := x.negative && !x.isNaN && !x.isZero

def fraction (x : Double) : Nat × Nat :=
  if 0 ≤ x.exponent then (x.significand * Nat.pow 2 x.exponent.toNat, 1)
  else (x.significand, Nat.pow 2 (-x.exponent).toNat)

def truncateTo (x : Double) (low high : Int) : Int :=
  if x.isNaN then 0
  else if !x.isFinite then if x.negative then low else high
  else
    let whole : Int := x.fraction.1 / x.fraction.2
    max low (min high (if x.negative then -whole else whole))

def toInt64 (x : Double) : Int := x.truncateTo (-signBit) (signBit - 1)

def toUInt64 (x : Double) : Nat := (x.truncateTo 0 (UInt64.size - 1)).toNat

def trunc (x : Double) : Double :=
  ofFloat (if x.negative then x.toFloat.ceil else x.toFloat.floor)

def fract (x : Double) : Double := ofFloat (x.toFloat - x.trunc.toFloat)

def roundToUInt64 (x : Double) : Nat :=
  if x.isNaN || x.negative then 0
  else if !x.isFinite then UInt64.size - 1
  else
    let (n, d) := x.fraction
    min (UInt64.size - 1) ((2 * n + d) / (2 * d))

end Double
end Telemetry
