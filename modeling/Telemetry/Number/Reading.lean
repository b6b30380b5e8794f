import Telemetry.Number.Decimal

namespace Telemetry.Number

/-- The double nearest to a decimal. Decimals below `10 ^ -330` are taken for zero and those from
`10 ^ 310` for infinity, as no double other than these is near. -/
def Decimal.nearest (x : Decimal) : Double :=
  let top : Int := (digits x.coefficient).length + x.exponent
  if x.coefficient = 0 ∨ top < -330 then .zero
  else if 310 < top then .infinity
  else .ofFloat (Float.ofScientific x.coefficient (x.exponent < 0) x.exponent.natAbs)

def readExponent? : List Char → Option Int
  | [] => some 0
  | c :: cs =>
    let (ds, sign) : List Char × Int := match cs with
      | '+' :: ds => (ds, 1)
      | '-' :: ds => (ds, -1)
      | ds => (ds, 1)
    if c = 'e' ∨ c = 'E' then (natural? ds).map fun n => sign * n else none

def readMagnitude? (cs : List Char) : Option Double := do
  let whole := cs.takeWhile Char.isDigit
  let (fraction, rest) := match cs.dropWhile Char.isDigit with
    | '.' :: rest => (rest.takeWhile Char.isDigit, rest.dropWhile Char.isDigit)
    | rest => ([], rest)
  let ds := whole ++ fraction
  if ds.isEmpty then none
  else return Decimal.nearest ⟨ofDigits ds, (← readExponent? rest) - fraction.length⟩

def namedMagnitudes : List (String × Double) :=
  [("inf", .infinity), ("infinity", .infinity), ("nan", .nan)]

def readDouble? (cs : List Char) : Option Double :=
  let magnitude? := fun cs : List Char =>
    (namedMagnitudes.lookup (String.ofList (cs.map Char.toLower))).or (readMagnitude? cs)
  match cs with
  | '-' :: cs => (magnitude? cs).map (- ·)
  | '+' :: cs => magnitude? cs
  | cs => magnitude? cs

end Telemetry.Number
