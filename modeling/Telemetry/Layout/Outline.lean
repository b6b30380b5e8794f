import Telemetry.Layout.Build

namespace Telemetry.Layout

def Scalar.outline (s : Scalar) : String :=
  let unit := match s.attrs.unit with
    | some unit => s!" ({unit})"
    | none => ""
  let range := if s.dataType.mayExceedSignedRange then " [may exceed signed 64-bit range]" else ""
  let tag := match s.tag with
    | some kind => s!" [this is a {kind.display} channel timestamp]"
    | none => ""
  let channel := match s.channel with
    | some id => s!" [this is a channel ({id})]"
    | none => ""
  s!"({s.dataType.display}) {s.name}" ++ unit ++ range ++ tag ++ channel

def BitField.outline (b : BitField) : String :=
  match b.attrs.unit with
  | some unit => s!"(BIT {b.bitLen}) {b.name} ({unit})"
  | none => s!"(BIT {b.bitLen}) {b.name}"

def Group.outline (g : Group) : String :=
  match g.typeName with
  | some t => s!"(Structure {t}): {g.name}"
  | none => s!"(Structure): {g.name}"

def ArrayLength.outline (arena : Arena) : ArrayLength → String
  | .fixed count => s!"{count}"
  | .ofField id => s!"[{nameOf arena id}]"
  | .inData _ true => "[byte length found in data prefix]"
  | .inData _ false => "[element count found in data prefix]"
  | .untilExhausted => "variable length"

def Series.outline (arena : Arena) (s : Series) : String :=
  s!"(Array of {s.length.outline arena}): {s.name}"

def Window.outline (w : Window) : String := s!"(Bit array of {w.bitLen} bits): {w.name}"

def Stream.outline (s : Stream) : String :=
  match s.maxLen with
  | some n => s!"(Stream of {n} bytes): {s.name}"
  | none => s!"(Stream of variable length): {s.name}"

def indent (depth : Nat) (line : String) : String :=
  String.ofList (List.replicate (2 * depth) ' ') ++ line

mutual

def Field.outline (arena : Arena) (depth : Nat) : Field → List String
  | .scalar _ s => [indent depth s.outline]
  | .bit _ b => [indent depth b.outline]
  | .group _ g children => indent depth g.outline :: outlines arena (depth + 1) children
  | .array _ s elements => indent depth (s.outline arena) :: outlines arena (depth + 1) elements
  | .bitArray _ w children => indent depth w.outline :: outlines arena (depth + 1) children
  | .stream _ s => [indent depth s.outline]

def outlines (arena : Arena) (depth : Nat) : List Field → List String
  | [] => []
  | f :: fs => f.outline arena depth ++ outlines arena depth fs

end

def lines (ls : List String) : String := String.join (ls.map (· ++ "\n"))

def outline (l : Layout) : String := lines (l.root.outline l.arena 0)

end Telemetry.Layout
