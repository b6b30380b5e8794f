import Telemetry.Number.Decimal

namespace Telemetry

structure ClockFormat where
  coarseBits : Nat := 32
  fineBits : Nat := 16
deriving DecidableEq, Repr

namespace ClockFormat

def modulus (f : ClockFormat) : Nat :=
  -- a 64-bit word is shifted by its amount modulo 64
  Nat.pow 2 (f.fineBits % 64)

def maxFine (f : ClockFormat) : Nat := f.modulus - 1

def totalBits (f : ClockFormat) : Nat := f.coarseBits + f.fineBits

theorem modulus_pos (f : ClockFormat) : 0 < f.modulus := Nat.two_pow_pos _

end ClockFormat

structure Clock where
  coarse : Nat
  fine : Nat
deriving DecidableEq, Repr

namespace Clock

def zero : Clock := ⟨0, 0⟩

def ofWords (coarse fineWord : Nat) : Clock := ⟨coarse, fineWord / 0x10000 % 0x10000⟩

def add (a b : Clock) (f : ClockFormat) : Clock :=
  let fine := a.fine + b.fine
  ⟨a.coarse + b.coarse + fine / f.modulus, fine % f.modulus⟩

/-- The clock a number of milliseconds later, counting whole ticks. The product wraps around in a
word of 64 bits. -/
def addMillis (c : Clock) (millis : Nat) (f : ClockFormat) : Clock :=
  c.add ⟨millis / 1000, millis % 1000 * f.modulus % UInt64.size / 1000⟩ f

def reduce (max n : Nat) : Nat :=
  if max < n then reduce max ((n + 5) / 10) else n
termination_by n
decreasing_by omega

def roundFine (c : Clock) (f : ClockFormat) : Clock := ⟨c.coarse, reduce f.maxFine c.fine⟩

def ofSeconds (secs : Double) (f : ClockFormat) : Clock :=
  let secs := if secs.isNaN || secs.negative then Double.zero else secs
  let fine := (secs.fract * Double.ofNat f.modulus).roundToUInt64
  Clock.add ⟨secs.toUInt64, 0⟩ ⟨0, fine⟩ f

def seconds (c : Clock) (f : ClockFormat) : Double :=
  Double.ofNat c.coarse + Double.ofNat c.fine / Double.ofNat f.modulus

def text (c : Clock) : String :=
  Number.padded 10 c.coarse ++ "-" ++ Number.padded 5 c.fine

def ticks (c : Clock) (f : ClockFormat) : Nat := c.coarse * f.modulus + c.fine

theorem ticks_add (a b : Clock) (f : ClockFormat) :
    (a.add b f).ticks f = a.ticks f + b.ticks f := by
  simp only [ticks, add, Nat.add_mul]
  have := Nat.div_add_mod' (a.fine + b.fine) f.modulus
  omega

theorem fine_add_lt (a b : Clock) (f : ClockFormat) : (a.add b f).fine < f.modulus :=
  Nat.mod_lt _ f.modulus_pos

theorem reduce_le (max n : Nat) : reduce max n ≤ max := by
  fun_induction reduce max n with
  | case1 n h ih => exact ih
  | case2 n h => omega

end Clock
end Telemetry
