import Telemetry.Text.Quoted

namespace Telemetry.Log

inductive Level where
  | error
  | warning
  | info
deriving DecidableEq, Repr

namespace Level

def text : Level → String
  | error => "ERROR"
  | warning => " WARN"
  | info => " INFO"

def rank : Level → Nat
  | error => 1
  | warning => 2
  | info => 3

def ofSetting : Option String → Option Level
  | some "off" => none
  | some "error" => some error
  | some "warn" => some warning
  | _ => some info

end Level

structure Line where
  level : Level
  message : String
  fields : List (String × String) := []
deriving DecidableEq, Repr

def Line.text (l : Line) : String :=
  l.level.text ++ " " ++ l.message ++ String.join (l.fields.map fun (k, v) => s!" {k}={v}")

end Telemetry.Log
