import Telemetry.Time.Epoch

namespace Telemetry

structure Date where
  year : Int
  month : Nat
  day : Nat
deriving DecidableEq, Repr

namespace Date

def daysTo1900 : Int := 693901

/-- The date so many days after 1900-01-01. Years are counted from March, so that the day added in
a leap year is the last of its year. -/
def ofDays (days : Int) : Date :=
  let z := days + daysTo1900
  let era := z.fdiv 146097
  let doe := (z.fmod 146097).toNat
  let yoe := (doe - doe / 1460 + doe / 36524 - doe / 146096) / 365
  let doy := doe - (365 * yoe + yoe / 4 - yoe / 100)
  let mp := (5 * doy + 2) / 153
  let month := if mp < 10 then mp + 3 else mp - 9
  let year : Int := yoe + era * 400 + (if month ≤ 2 then 1 else 0)
  ⟨year, month, doy - (153 * mp + 2) / 5 + 1⟩

def days (d : Date) : Int :=
  let y := if d.month ≤ 2 then d.year - 1 else d.year
  let era := y.fdiv 400
  let yoe := (y.fmod 400).toNat
  let mp := if 2 < d.month then d.month - 3 else d.month + 9
  let doy := (153 * mp + 2) / 5 + d.day - 1
  let doe : Nat := yoe * 365 + yoe / 4 - yoe / 100 + doy
  era * 146097 + doe - daysTo1900

def isLeap (year : Int) : Bool :=
  year % 4 == 0 && (year % 100 != 0 || year % 400 == 0)

def lastDay (year : Int) (month : Nat) : Nat :=
  if month = 2 then if isLeap year then 29 else 28
  else if month = 4 ∨ month = 6 ∨ month = 9 ∨ month = 11 then 30 else 31

def valid (d : Date) : Bool :=
  1 ≤ d.month && d.month ≤ 12 && 1 ≤ d.day && d.day ≤ lastDay d.year d.month

def text (d : Date) : String :=
  let year := if d.year < 0 then "-" ++ Number.padded 3 d.year.natAbs
    else Number.padded 4 d.year.natAbs
  year ++ "-" ++ Number.padded 2 d.month ++ "-" ++ Number.padded 2 d.day

end Date

namespace Epoch

def text (e : Epoch) : String :=
  let date := Date.ofDays (e.civil.nanos.fdiv nanosPerDay)
  let nanos := (e.civil.nanos.fmod nanosPerDay).toNat
  let secs := nanos / nanosPerSecond
  let below := nanos % nanosPerSecond
  let fraction := if below = 0 then "" else "." ++ Number.padded 9 below
  date.text ++ "T" ++ Number.padded 2 (secs / 3600) ++ ":" ++ Number.padded 2 (secs / 60 % 60) ++
    ":" ++ Number.padded 2 (secs % 60) ++ fraction ++ " " ++ e.scale.text

end Epoch
end Telemetry
