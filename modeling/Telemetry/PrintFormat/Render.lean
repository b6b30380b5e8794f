import Telemetry.PrintFormat.Basic
import Telemetry.Text.Characters
import Telemetry.Value

/-!
Values in a print format, each placeholder showing one as its C conversion would.
-/

namespace Telemetry

namespace Placeholder

open Number

def pattern? : Value → Option Nat
  | .unsigned n => some n.toNat
  | .signed n => some n.toUInt64.toNat
  | .bool b => some b.toNat
  | .float x => some (Int64.ofInt x.toInt64).toUInt64.toNat
  | .text _ | .clock _ => none

def upper (cs : List Char) : List Char := cs.map Char.toUpper

def patternText (p : Placeholder) (n : Nat) : List Char :=
  match p.conversion with
  | .hex => (if p.flags.alt && n != 0 then ['0', 'x'] else []) ++ Nat.toDigits 16 n
  | .hexUpper => (if p.flags.alt && n != 0 then ['0', 'X'] else []) ++ upper (Nat.toDigits 16 n)
  | .octal => (if p.flags.alt then ['0'] else []) ++ Nat.toDigits 8 n
  | _ => digits n

def exponentText (letter : Char) (e : Int) : List Char :=
  letter :: (if e < 0 then '-' else '+') :: padZeros 2 (digits e.natAbs)

def topExponent (places : Nat) (x : Decimal) : Int :=
  if x.coefficient = 0 then 0 else x.exponent + places

def scientificText (letter : Char) (places : Nat) (n d : Nat) : List Char :=
  let x := scientific places n d
  withPoint places x.coefficient ++ exponentText letter (topExponent places x)

def withoutZeros (cs : List Char) : List Char :=
  if cs.contains '.' then Text.trimEnd (· == '.') (Text.trimEnd (· == '0') cs) else cs

def generalText (letter : Char) (precision : Nat) (alt : Bool) (n d : Nat) : List Char :=
  let places := max precision 1 - 1
  let x := scientific places n d
  let top := topExponent places x
  let strip := fun cs => if alt then cs else withoutZeros cs
  if top < -4 ∨ places < top then
    strip (withPoint places x.coefficient) ++ exponentText letter top
  else strip (fixed (places - top).toNat n d)

def magnitudeText (p : Placeholder) (n d : Nat) : List Char :=
  let precision := p.precision.getD 6
  match p.conversion with
  | .exponent => scientificText 'e' precision n d
  | .exponentUpper => scientificText 'E' precision n d
  | .general => generalText 'e' precision p.flags.alt n d
  | .generalUpper => generalText 'E' precision p.flags.alt n d
  | _ => fixed precision n d

def doubleText (p : Placeholder) (x : Double) : List Char :=
  if x.isNaN then if p.conversion.isUpper then "NAN".toList else "nan".toList
  else
    let magnitude := if x.isFinite then p.magnitudeText x.fraction.1 x.fraction.2
      else if p.conversion.isUpper then "INF".toList else "inf".toList
    if x.negative then '-' :: magnitude else magnitude

structure Body where
  text : List Char
  numeric : Bool

def plain (v : Value) : Body := ⟨v.display.toList, false⟩

def number? (text : Option (List Char)) (v : Value) : Body :=
  match text with
  | some cs => ⟨cs, true⟩
  | none => plain v

def character? (n : Nat) : Option Char :=
  if n < 0xD800 ∨ (0xDFFF < n ∧ n < 0x110000) then some (Char.ofNat n) else none

def signed (p : Placeholder) (b : Body) : Body :=
  if !b.numeric || b.text.head? == some '-' then b
  else if p.flags.plus then { b with text := '+' :: b.text }
  else if p.flags.space then { b with text := ' ' :: b.text }
  else b

def body (p : Placeholder) (v : Value) : Body :=
  match p.conversion with
  | .decimal | .integer =>
    p.signed <| match v with
      | .unsigned n => ⟨digits n.toNat, true⟩
      | v => number? (v.integer?.map fun n => (Value.integerText n.toInt).toList) v
  | .unsigned | .hex | .hexUpper | .octal => number? ((pattern? v).map p.patternText) v
  | .fixed | .fixedUpper | .exponent | .exponentUpper | .general | .generalUpper =>
    p.signed (number? (v.double?.map p.doubleText) v)
  | .character =>
    match v.count?.bind fun n => character? (n.toNat % UInt32.size) with
    | some c => ⟨[c], false⟩
    | none => plain v
  | .text =>
    match p.precision with
    | some n => ⟨v.display.toList.take n, false⟩
    | none => plain v

def headLength (cs : List Char) : Nat :=
  let sign := match cs with
    | c :: _ => if c = '-' ∨ c = '+' ∨ c = ' ' then 1 else 0
    | [] => 0
  match cs.drop sign with
  | '0' :: 'x' :: _ | '0' :: 'X' :: _ => sign + 2
  | _ => sign

def pad (p : Placeholder) (b : Body) : List Char :=
  let fill := p.width.getD 0 - b.text.length
  if p.flags.left then b.text ++ List.replicate fill ' '
  else if p.flags.zero && b.numeric then
    let head := headLength b.text
    b.text.take head ++ List.replicate fill '0' ++ b.text.drop head
  else List.replicate fill ' ' ++ b.text

def render (p : Placeholder) (v : Value) : List Char := p.pad (p.body v)

end Placeholder

namespace PrintFormat

def renderSegments : List Segment → List Value → List Char
  | [], _ => []
  | .literal text :: rest, vs => text ++ renderSegments rest vs
  | .placeholder _ :: rest, [] => renderSegments rest []
  | .placeholder p :: rest, v :: vs => p.render v ++ renderSegments rest vs

def render (f : PrintFormat) (vs : List Value) : String :=
  String.ofList (renderSegments f.segments vs)

end PrintFormat
end Telemetry
