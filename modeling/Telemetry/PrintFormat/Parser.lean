import Telemetry.DefinitionError
import Telemetry.Number.Decimal
import Telemetry.PrintFormat.Basic

namespace Telemetry.PrintFormat

def isFlag (c : Char) : Bool := c == '-' || c == '0' || c == '+' || c == ' ' || c == '#'

def isModifier (c : Char) : Bool :=
  c == 'h' || c == 'l' || c == 'L' || c == 'q' || c == 'j' || c == 'z' || c == 't'

structure Directive where
  flags : List Char
  width : List Char
  precision : Option (List Char)
  modifiers : List Char
  conversion : Conversion
deriving DecidableEq, Repr

inductive Token where
  | char (c : Char)
  | percent
  | directive (d : Directive)
deriving DecidableEq, Repr

namespace Directive

def source (d : Directive) : List Char :=
  '%' :: d.flags ++ d.width ++ (match d.precision with
    | none => []
    | some ds => '.' :: ds) ++ d.modifiers ++ [d.conversion.letter]

def readFlags (cs : List Char) : Flags where
  left := cs.contains '-'
  zero := cs.contains '0'
  plus := cs.contains '+'
  space := cs.contains ' '
  alt := cs.contains '#'

def placeholder (d : Directive) (start : Nat) : Placeholder where
  start := start
  flags := readFlags d.flags
  width := if d.width.isEmpty then none else some (Number.ofDigits d.width)
  precision := d.precision.map Number.ofDigits
  conversion := d.conversion

end Directive

def Token.source : Token → List Char
  | .char c => [c]
  | .percent => ['%', '%']
  | .directive d => d.source

inductive Fault where
  | incomplete
  | unsupported (c : Char)
deriving DecidableEq, Repr

def Fault.message : Fault → String
  | .incomplete => "incomplete placeholder"
  | .unsupported c => s!"unsupported conversion '{c}'"

def takePrecision : List Char → Option (List Char) × List Char
  | '.' :: cs => (some (cs.takeWhile Char.isDigit), cs.dropWhile Char.isDigit)
  | cs => (none, cs)

def takeDirective (cs : List Char) : Except Fault (Directive × List Char) :=
  let flags := cs.takeWhile isFlag
  let afterFlags := cs.dropWhile isFlag
  let width := afterFlags.takeWhile Char.isDigit
  let (precision, afterPrecision) := takePrecision (afterFlags.dropWhile Char.isDigit)
  let modifiers := afterPrecision.takeWhile isModifier
  match afterPrecision.dropWhile isModifier with
  | [] => .error .incomplete
  | c :: rest =>
    match Conversion.ofLetter? c with
    | none => .error (.unsupported c)
    | some conversion => .ok (⟨flags, width, precision, modifiers, conversion⟩, rest)

theorem length_dropWhile_le (p : Char → Bool) (cs : List Char) :
    (cs.dropWhile p).length ≤ cs.length := by
  simpa using (List.dropWhile_sublist p (l := cs)).length_le

theorem length_takePrecision_le (cs : List Char) : (takePrecision cs).2.length ≤ cs.length := by
  unfold takePrecision
  split
  · have := length_dropWhile_le Char.isDigit
    simp only [List.length_cons]
    exact Nat.le_succ_of_le (this _)
  · exact Nat.le_refl _

theorem length_takeDirective_lt {cs rest : List Char} {d : Directive}
    (h : takeDirective cs = .ok (d, rest)) : rest.length < cs.length := by
  simp only [takeDirective] at h
  split at h
  · cases h
  · next c r hr =>
    split at h
    · cases h
    · injection h with h
      injection h with _ h
      subst h
      have h₁ := length_dropWhile_le isModifier
        (takePrecision ((cs.dropWhile isFlag).dropWhile Char.isDigit)).2
      have h₂ := length_takePrecision_le ((cs.dropWhile isFlag).dropWhile Char.isDigit)
      have h₃ := length_dropWhile_le Char.isDigit (cs.dropWhile isFlag)
      have h₄ := length_dropWhile_le isFlag cs
      rw [hr, List.length_cons] at h₁
      omega

def scan : List Char → Except Fault (List Token)
  | [] => .ok []
  | '%' :: '%' :: cs => (scan cs).map (Token.percent :: ·)
  | c :: cs =>
    if c = '%' then
      match h : takeDirective cs with
      | .error e => .error e
      | .ok (d, rest) =>
        have := length_takeDirective_lt h
        (scan rest).map (Token.directive d :: ·)
    else (scan cs).map (Token.char c :: ·)
termination_by cs => cs.length

def Token.literal? : Token → Option Char
  | .char c => some c
  | .percent => some '%'
  | .directive _ => none

def literal (text : List Char) : List Segment :=
  if text.isEmpty then [] else [.literal text]

def segmentsFrom (offset : Nat) (text : List Char) : List Token → List Segment
  | [] => literal text
  | .directive d :: ts =>
    literal text ++ .placeholder (d.placeholder offset) ::
      segmentsFrom (offset + Text.Utf8.length d.source) [] ts
  | .percent :: ts => segmentsFrom (offset + 2) (text ++ ['%']) ts
  | .char c :: ts => segmentsFrom (offset + Text.Utf8.size c) (text ++ [c]) ts

def parse (source : String) : Except DefinitionError PrintFormat :=
  match scan source.toList with
  | .error e => .error (.printFormat source e.message)
  | .ok tokens => .ok ⟨source, segmentsFrom 0 [] tokens⟩

end Telemetry.PrintFormat
