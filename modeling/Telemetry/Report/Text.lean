import Telemetry.Decode.Event
import Telemetry.Text.Characters
import Telemetry.Text.Utf8

namespace Telemetry.Report

def address (offset : Nat) : String :=
  String.ofList (Number.padZeros 8 ((Nat.toDigits 16 offset).map Char.toUpper))

def lineText : Event → Option String
  | .groupStart name => some (name ++ ":")
  | .arrayStart name (some n) => some s!"{name}[{n}]:"
  | .arrayStart name none => some s!"{name}[]:"
  | .indexStart label => some s!"[{label}]"
  | .value name v (some unit) => some s!"{name} = {v.display} {unit}"
  | .value name v none => some s!"{name} = {v.display}"
  | .line offset text =>
    some (address offset ++ "  " ++ String.ofList (Text.trimEnd Text.blank text.toList))
  | .address offset text => some (address offset ++ "  " ++ text)
  | .groupEnd _ | .indexEnd _ | .arrayEnd _ => none

def depthAfter (depth : Nat) : Event → Nat
  | .groupStart _ | .arrayStart .. | .indexStart _ => depth + 1
  | .groupEnd _ | .indexEnd _ | .arrayEnd _ => depth - 1
  | _ => depth

def linesFrom (depth : Nat) : List Event → List String
  | [] => []
  | e :: es =>
    let rest := linesFrom (depthAfter depth e) es
    match lineText e with
    | some text => (String.ofList (List.replicate (2 * depth) ' ') ++ text) :: rest
    | none => rest

def text (events : List Event) : String := String.join ((linesFrom 0 events).map (· ++ "\n"))

inductive WriteError where
  | full
deriving DecidableEq, Repr

def WriteError.message : WriteError → String
  | .full => "writer is full"

def textWithin (limit : Option Nat) (events : List Event) : Except WriteError String :=
  let t := text events
  match limit with
  | some limit => if t.utf8ByteSize ≤ limit then .ok t else .error .full
  | none => .ok t

end Telemetry.Report
