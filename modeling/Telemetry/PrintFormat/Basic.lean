import Telemetry.Text.Utf8

namespace Telemetry

inductive Conversion where
  | decimal
  | integer
  | unsigned
  | hex
  | hexUpper
  | octal
  | fixed
  | fixedUpper
  | exponent
  | exponentUpper
  | general
  | generalUpper
  | text
  | character
deriving DecidableEq, Repr

namespace Conversion

def letter : Conversion → Char
  | decimal => 'd'
  | integer => 'i'
  | unsigned => 'u'
  | hex => 'x'
  | hexUpper => 'X'
  | octal => 'o'
  | fixed => 'f'
  | fixedUpper => 'F'
  | exponent => 'e'
  | exponentUpper => 'E'
  | general => 'g'
  | generalUpper => 'G'
  | text => 's'
  | character => 'c'

def all : List Conversion :=
  [decimal, integer, unsigned, hex, hexUpper, octal, fixed, fixedUpper, exponent, exponentUpper,
    general, generalUpper, text, character]

def ofLetter? (c : Char) : Option Conversion := all.find? fun v => v.letter == c

def isUpper (v : Conversion) : Bool := v.letter.isUpper

theorem ofLetter?_letter (v : Conversion) : ofLetter? v.letter = some v := by
  cases v <;> rfl

theorem letter_of_ofLetter? {c : Char} {v : Conversion} (h : ofLetter? c = some v) :
    v.letter = c := by
  simpa using List.find?_some h

end Conversion

structure Flags where
  left : Bool := false
  zero : Bool := false
  plus : Bool := false
  space : Bool := false
  alt : Bool := false
deriving DecidableEq, Repr

structure Placeholder where
  start : Nat
  flags : Flags
  width : Option Nat
  precision : Option Nat
  conversion : Conversion
deriving DecidableEq, Repr

inductive Segment where
  | literal (text : List Char)
  | placeholder (p : Placeholder)
deriving DecidableEq, Repr

def Segment.placeholder? : Segment → Option Placeholder
  | .literal _ => none
  | .placeholder p => some p

structure PrintFormat where
  source : String
  segments : List Segment
deriving DecidableEq, Repr

namespace PrintFormat

def slots (f : PrintFormat) : List Placeholder := f.segments.filterMap Segment.placeholder?

def placeholders (f : PrintFormat) : Nat := f.slots.length

def Segment.isBefore (stop : Nat) : Segment → Bool
  | .literal _ => true
  | .placeholder p => p.start < stop

def truncated (f : PrintFormat) (count : Nat) : PrintFormat :=
  match f.slots[count]? with
  | none => f
  | some p =>
    { source := String.ofList (Text.Utf8.takeBytes p.start f.source.toList)
      segments := f.segments.takeWhile (Segment.isBefore p.start) }

end PrintFormat
end Telemetry
