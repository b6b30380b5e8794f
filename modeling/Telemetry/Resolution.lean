import Telemetry.Number.Decimal
import Telemetry.PrintFormat.Render
import Telemetry.Text.Quoted

namespace Telemetry

structure Enumeration where
  name : String
  entries : List (Int × String)
deriving DecidableEq, Repr

namespace Enumeration

def insert (key : Int) (symbol : String) : List (Int × String) → List (Int × String)
  | [] => [(key, symbol)]
  | (k, s) :: rest =>
    if key < k then (key, symbol) :: (k, s) :: rest
    else if key = k then (key, symbol) :: rest
    else (k, s) :: insert key symbol rest

def ofPairs (name : String) (pairs : List (Int × String)) : Enumeration :=
  ⟨name, pairs.foldl (fun entries p => insert p.1 p.2 entries) []⟩

def lookup (e : Enumeration) (key : Int) : Option String := e.entries.lookup key

def size (e : Enumeration) : Nat := e.entries.length

theorem lookup_insert (key : Int) (symbol : String) (entries : List (Int × String)) (k : Int) :
    (insert key symbol entries).lookup k = if k = key then some symbol else entries.lookup k := by
  induction entries with
  | nil => grind [insert]
  | cons p rest ih => grind [insert]

end Enumeration

structure Calibration where
  name : String
  units : Option String := none
  parameters : List Double := []
deriving DecidableEq, Repr

inductive CalibrationError where
  | unsupported (name : String)
  | computation (name reason : String)
deriving DecidableEq, Repr

def CalibrationError.message : CalibrationError → String
  | .unsupported name => s!"no EU calculator available for {Text.quoted name}"
  | .computation name reason => s!"EU computation {Text.quoted name} failed: {reason}"

abbrev Calculator := Calibration → Double → Except CalibrationError Double

namespace Calibration

def horner (coefficients : List Double) (x : Double) : Double :=
  coefficients.foldr (fun c acc => acc * x + c) Double.zero

def polynomial : Calculator := fun c dn =>
  if c.parameters.isEmpty then .error (.computation c.name "no coefficients")
  else
    let x := horner c.parameters dn
    if x.isFinite then .ok x
    else .error (.computation c.name s!"non-finite result for dn={dn.text}")

end Calibration

structure Attributes where
  unit : Option String := none
  lookup : Option Enumeration := none
  calibration : Option Calibration := none
  printFormat : Option PrintFormat := none
deriving DecidableEq, Repr

inductive Resolution where
  | symbol (text : String)
  | calibrated (x : Double)
  | failed (e : CalibrationError)
  | unchanged
deriving DecidableEq, Repr

namespace Resolution

def ofEnumeration (table : Enumeration) (dn : Value) : Resolution :=
  .symbol <| (dn.integer?.bind fun n => table.lookup n.toInt).getD dn.display

def ofCalibration (calculator : Option Calculator) (c : Calibration) (dn : Value) : Resolution :=
  match calculator, dn.double? with
  | some compute, some x =>
    match compute c x with
    | .ok y => .calibrated y
    | .error e => .failed e
  | _, _ => .failed (.unsupported c.name)

def resolve (calculator : Option Calculator) (attrs : Attributes) (dn : Value) : Resolution :=
  if dn.isNumeric then
    match attrs.lookup, attrs.calibration with
    | some table, _ => ofEnumeration table dn
    | none, some c => ofCalibration calculator c dn
    | none, none => .unchanged
  else .unchanged

def value (dn : Value) : Resolution → Value
  | .symbol text => .text text
  | .calibrated x => .float x
  | .failed _ | .unchanged => dn

def isFormatted : Resolution → Bool
  | .symbol _ | .failed _ => false
  | .calibrated _ | .unchanged => true

def shown (attrs : Attributes) (dn : Value) (r : Resolution) : Value :=
  match attrs.printFormat with
  | some format => if r.isFormatted then .text (format.render [r.value dn]) else r.value dn
  | none => r.value dn

end Resolution
end Telemetry
