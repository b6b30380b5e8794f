import Telemetry.Number.Decimal

namespace Telemetry

inductive Json where
  | null
  | bool (b : Bool)
  | number (lexeme : List Char)
  /-- The characters between the quotes; a lone backslash for bytes that are no characters. -/
  | string (lexeme : List Char)
  | array (items : List Json)
  | object (members : List (List Char × Json))
deriving Repr

namespace Json

mutual

def depth : Json → Nat
  | array items => depthOfItems items + 1
  | object members => depthOfMembers members + 1
  | _ => 0

def depthOfItems : List Json → Nat
  | [] => 0
  | j :: js => max j.depth (depthOfItems js)

def depthOfMembers : List (List Char × Json) → Nat
  | [] => 0
  | (_, j) :: ms => max j.depth (depthOfMembers ms)

end

end Json
end Telemetry

namespace Telemetry.Json

def hexValue (c : Char) : Nat :=
  if c.isDigit then c.toNat - 48 else if 'a' ≤ c then c.toNat - 87 else c.toNat - 55

def hexNumber (cs : List Char) : Nat := cs.foldl (fun n c => 16 * n + hexValue c) 0

def unescape (c : Char) : Char :=
  match c with
  | 'b' => '\x08'
  | 'f' => '\x0c'
  | 'n' => '\n'
  | 'r' => '\r'
  | 't' => '\t'
  | c => c

def isHighSurrogate (n : Nat) : Bool := 0xD800 ≤ n && n < 0xDC00

def isLowSurrogate (n : Nat) : Bool := 0xDC00 ≤ n && n < 0xE000

def meaningless : List Char := ['\\']

def decodeString? : List Char → Option (List Char)
  | [] => some []
  | ['\\'] => none
  | '\\' :: 'u' :: a :: b :: c :: d :: '\\' :: 'u' :: a' :: b' :: c' :: d' :: rest =>
    let n := hexNumber [a, b, c, d]
    let m := hexNumber [a', b', c', d']
    if isHighSurrogate n then
      if isLowSurrogate m then
        (decodeString? rest).map
          (Char.ofNat (0x10000 + (n - 0xD800) * 0x400 + (m - 0xDC00)) :: ·)
      else none
    else if isLowSurrogate n then none
    else (decodeString? ('\\' :: 'u' :: a' :: b' :: c' :: d' :: rest)).map (Char.ofNat n :: ·)
  | '\\' :: 'u' :: a :: b :: c :: d :: rest =>
    let n := hexNumber [a, b, c, d]
    if isHighSurrogate n || isLowSurrogate n then none
    else (decodeString? rest).map (Char.ofNat n :: ·)
  | '\\' :: c :: rest => (decodeString? rest).map (unescape c :: ·)
  | c :: rest => (decodeString? rest).map (c :: ·)

def encodeChar (c : Char) : List Char :=
  match c with
  | '"' => ['\\', '"']
  | '\\' => ['\\', '\\']
  | '\x08' => ['\\', 'b']
  | '\x0c' => ['\\', 'f']
  | '\n' => ['\\', 'n']
  | '\r' => ['\\', 'r']
  | '\t' => ['\\', 't']
  | c =>
    if c.toNat < 0x20 then '\\' :: 'u' :: Number.padZeros 4 (Nat.toDigits 16 c.toNat) else [c]

def encodeString (cs : List Char) : List Char := cs.flatMap encodeChar

inductive Numeral where
  | natural (n : Nat)
  | negative (n : Int)
  | double (x : Double)
deriving DecidableEq, Repr

structure NumberParts where
  negative : Bool
  whole : List Char
  fraction : Option (List Char)
  exponent : Option Int

namespace NumberParts

def readExponent : List Char → Int
  | '+' :: ds => Number.ofDigits ds
  | '-' :: ds => -Number.ofDigits ds
  | ds => Number.ofDigits ds

def ofLexeme (cs : List Char) : NumberParts :=
  let negative := cs.head? == some '-'
  let cs := if negative then cs.drop 1 else cs
  let whole := cs.takeWhile Char.isDigit
  let cs := cs.dropWhile Char.isDigit
  let (fraction, cs) := match cs with
    | '.' :: rest => (some (rest.takeWhile Char.isDigit), rest.dropWhile Char.isDigit)
    | cs => (none, cs)
  let exponent := match cs with
    | [] => none
    | _ :: rest => some (readExponent rest)
  ⟨negative, whole, fraction, exponent⟩

def absorb (n : Nat) : List Char → Nat × List Char
  | [] => (n, [])
  | d :: ds =>
    let m := 10 * n + (d.toNat - 48)
    if m < UInt64.size then absorb m ds else (n, d :: ds)

def maxPower : Nat := 308

def scaled? (steps : Nat) (x : Double) (e : Int) : Option Double :=
  if e.natAbs ≤ maxPower then
    let power := Double.ofNat (Nat.pow 10 e.natAbs)
    if 0 ≤ e then
      let y := x * power
      if y.isFinite then some y else none
    else some (x / power)
  else if x.isZero then some x
  else if 0 ≤ e then none
  else match steps with
    | 0 => some Double.zero
    | steps + 1 => scaled? steps (x / Double.ofNat (Nat.pow 10 maxPower)) (e + maxPower)

def maxSteps : Nat := 3

def maxExponent : Int := 2147483647

def double? (p : NumberParts) : Option Double := do
  let (n, droppedWhole) := absorb 0 p.whole
  let (n, places) := match p.fraction with
    | none => (n, 0)
    | some ds =>
      let (m, dropped) := absorb n ds
      (m, ds.length - dropped.length)
  let base : Int := droppedWhole.length - places
  let e := p.exponent.getD 0
  let magnitude ←
    if maxExponent < e.natAbs then if n ≠ 0 ∧ 0 < e then none else some Double.zero
    else scaled? maxSteps (Double.ofNat n) (base + e)
  return if p.negative then -magnitude else magnitude

end NumberParts

def signLimit : Nat := 0x8000000000000000

def numeral? (lexeme : List Char) : Option Numeral :=
  let p := NumberParts.ofLexeme lexeme
  let n := Number.ofDigits p.whole
  if p.fraction.isNone && p.exponent.isNone then
    if p.negative then
      if 0 < n ∧ n ≤ signLimit then some (.negative (-n)) else p.double?.map .double
    else if n < UInt64.size then some (.natural n) else p.double?.map .double
  else p.double?.map .double

end Telemetry.Json
