import Telemetry.Number.Decimal
import Telemetry.Time.Clock

namespace Telemetry

inductive Value where
  | unsigned (n : UInt64)
  | signed (n : Int64)
  | float (x : Double)
  | bool (b : Bool)
  | text (s : String)
  | clock (c : Clock)
deriving DecidableEq, Repr

namespace Value

def isNumeric : Value → Bool
  | unsigned _ | signed _ | float _ | bool _ => true
  | text _ | clock _ => false

/-- The value as a 64-bit signed integer: unsigned values wrap, floats lose their fraction and stop
at the ends of the range. -/
def integer? : Value → Option Int64
  | unsigned n => some n.toInt64
  | signed n => some n
  | float x => some (Int64.ofInt x.toInt64)
  | bool b => some (if b then 1 else 0)
  | text _ | clock _ => none

def count? : Value → Option UInt64
  | unsigned n => some n
  | signed n => if 0 ≤ n then some n.toUInt64 else none
  | bool b => some (if b then 1 else 0)
  | float _ | text _ | clock _ => none

def double? : Value → Option Double
  | unsigned n => some (.ofNat n.toNat)
  | signed n => some (.ofInt n.toInt)
  | float x => some x
  | bool b => some (.ofNat b.toNat)
  | text _ | clock _ => none

def integerText (n : Int) : String :=
  String.ofList (if n < 0 then '-' :: Number.digits n.natAbs else Number.digits n.natAbs)

def display : Value → String
  | unsigned n => String.ofList (Number.digits n.toNat)
  | signed n => integerText n.toInt
  | float x => x.text
  | bool b => if b then "true" else "false"
  | text s => s
  | clock c => c.text

end Value
end Telemetry
