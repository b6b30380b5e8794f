import Telemetry.Number.Double

namespace Telemetry.Number

def digits (n : Nat) : List Char := Nat.toDigits 10 n

def ofDigits (ds : List Char) : Nat := ds.foldl (fun n c => 10 * n + (c.toNat - 48)) 0

def natural? (cs : List Char) : Option Nat :=
  if cs.isEmpty || !cs.all Char.isDigit then none else some (ofDigits cs)

structure Decimal where
  coefficient : Nat
  exponent : Int
deriving DecidableEq, Repr

def scale (n d : Nat) (e : Int) : Nat × Nat :=
  if 0 ≤ e then (n * Nat.pow 10 e.toNat, d) else (n, d * Nat.pow 10 (-e).toNat)

def decade (n d : Nat) : Int :=
  let e : Int := (digits n).length - (digits d).length
  let (n', d') := scale n d (-e)
  if d' ≤ n' then e else e - 1

def padZeros (width : Nat) (cs : List Char) : List Char :=
  List.replicate (width - cs.length) '0' ++ cs

def padded (width n : Nat) : String := String.ofList (padZeros width (digits n))

def withPoint (places n : Nat) : List Char :=
  if places = 0 then digits n
  else
    let cs := padZeros (places + 1) (digits n)
    cs.take (cs.length - places) ++ '.' :: cs.drop (cs.length - places)

def fixed (places n d : Nat) : List Char :=
  withPoint places (roundDiv .even (n * Nat.pow 10 places) d)

def scientific (places n d : Nat) : Decimal :=
  if n = 0 then ⟨0, -places⟩
  else
    let e := decade n d - places
    let (n', d') := scale n d (-e)
    let c := roundDiv .even n' d'
    if c = Nat.pow 10 (places + 1) then ⟨Nat.pow 10 places, e + 1⟩ else ⟨c, e⟩

def Decimal.normalize (limit : Nat) (x : Decimal) : Decimal :=
  match limit with
  | 0 => x
  | limit + 1 =>
    if x.coefficient ≠ 0 ∧ x.coefficient % 10 = 0 then
      (Decimal.mk (x.coefficient / 10) (x.exponent + 1)).normalize limit
    else x

/-- The reals that round to a double, as a fraction `low / unit` to `high / unit` around
`middle / unit`; the ends belong to it if `closed`. -/
structure Interval where
  low : Nat
  middle : Nat
  high : Nat
  unit : Nat
  closed : Bool

def Interval.contains (i : Interval) (n d : Nat) : Bool :=
  if i.closed then i.low * d ≤ n * i.unit && n * i.unit ≤ i.high * d
  else i.low * d < n * i.unit && n * i.unit < i.high * d

def roundingInterval (x : Double) : Interval :=
  let m := x.significand
  let below := if x.fractionField = 0 ∧ 1 < x.exponentField then 1 else 2
  let e := x.exponent - 2
  let up := if 0 ≤ e then Nat.pow 2 e.toNat else 1
  { low := (4 * m - below) * up, middle := 4 * m * up, high := (4 * m + 2) * up
    unit := if 0 ≤ e then 1 else Nat.pow 2 (-e).toNat, closed := m % 2 == 0 }

def Interval.pick? (i : Interval) (tie : Tie) (e : Int) : Option Decimal :=
  let (n, d) := scale i.middle i.unit (-e)
  let below := n / d
  let inside := fun c => let (cn, cd) := scale c 1 e; i.contains cn cd
  match inside below, inside (below + 1) with
  | true, true => some ⟨roundDiv tie n d, e⟩
  | true, false => some ⟨below, e⟩
  | false, true => some ⟨below + 1, e⟩
  | false, false => none

def maxDigits : Nat := 17

def shortest (tie : Tie) (x : Double) : Decimal :=
  if x.significand = 0 then ⟨0, 0⟩
  else
    let i := roundingInterval x
    let top := decade i.middle i.unit
    let found := (List.range maxDigits).findSome? fun k : Nat => i.pick? tie (top - k)
    (found.getD ⟨0, 0⟩).normalize maxDigits

def Decimal.plain (x : Decimal) : List Char :=
  if 0 ≤ x.exponent then digits x.coefficient ++ List.replicate x.exponent.toNat '0'
  else withPoint (-x.exponent).toNat x.coefficient

end Telemetry.Number

namespace Telemetry.Double

open Number

def signed (x : Double) (magnitude : List Char) : String :=
  String.ofList (if x.negative then '-' :: magnitude else magnitude)

def text (x : Double) : String :=
  if x.isNaN then "NaN"
  else x.signed (if x.isFinite then (shortest .up x).plain else "inf".toList)

structure PositionalRange where
  lowest : Int
  limit : Int

def jsonRange : PositionalRange := ⟨-5, 16⟩

def jsonMagnitude (range : PositionalRange) (x : Decimal) : List Char :=
  let ds := digits x.coefficient
  let top : Int := x.exponent + ds.length - 1
  if range.lowest ≤ top ∧ top < range.limit then
    if 0 ≤ x.exponent then x.plain ++ ".0".toList else x.plain
  else
    let mantissa := if ds.length ≤ 1 then ds else ds.take 1 ++ '.' :: ds.drop 1
    mantissa ++ 'e' :: (if top < 0 then '-' else '+') :: digits top.natAbs

def jsonText (x : Double) : String :=
  if x.isFinite then x.signed (jsonMagnitude jsonRange (shortest .even x)) else "null"

end Telemetry.Double
