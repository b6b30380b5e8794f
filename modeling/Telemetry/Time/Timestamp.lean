import Telemetry.Number.Reading
import Telemetry.Text.Characters
import Telemetry.Time.Calendar
import Telemetry.Time.Epoch

/-!
Timestamps. Some give a date, then a time of day from its hours on, then an offset, then a scale.
Parts at the end may be left out. A character that stands for a number belongs to its part, but only
parts in ASCII digits are read. Others count days or seconds: the name of the count, a number and a
scale.
-/

namespace Telemetry.Timestamp

inductive Part where
  | year
  | month
  | day
  | hour
  | minute
  | second
  | subsecond
  | offsetHours
  | offsetMinutes
  | scale
deriving DecidableEq, Repr

def Part.next? : Part → Char → Option Part
  | .year, '-' => some .month
  | .month, '-' => some .day
  | .day, 'T' | .day, ' ' => some .hour
  | .hour, ':' => some .minute
  | .minute, ':' => some .second
  | .second, '.' => some .subsecond
  | .second, ' ' | .second, 'Z' | .subsecond, ' ' | .subsecond, 'Z' => some .scale
  | .second, '+' | .second, '-' | .subsecond, '+' | .subsecond, '-' => some .offsetHours
  | .offsetHours, ':' => some .offsetMinutes
  | .offsetMinutes, ' ' | .offsetMinutes, 'Z' => some .scale
  | _, _ => none

structure Parts where
  date : Date := ⟨0, 0, 0⟩
  hour : Nat := 0
  minute : Nat := 0
  second : Nat := 0
  nanos : Nat := 0
  west : Bool := false
  offsetHours : Nat := 0
  offsetMinutes : Nat := 0
  scale : TimeScale := .universal

def maxYear : Nat := 5885416

def Parts.set? (p : Parts) (part : Part) (cs : List Char) : Option Parts := do
  let n ← Number.natural? cs
  let upTo := fun max (q : Parts) => if n ≤ max then some q else none
  match part with
  | .year => upTo maxYear { p with date := { p.date with year := n } }
  | .month => upTo 12 { p with date := { p.date with month := n } }
  | .day => upTo 31 { p with date := { p.date with day := n } }
  | .hour => upTo 23 { p with hour := n }
  | .minute => upTo 59 { p with minute := n }
  | .second => upTo 60 { p with second := n }
  | .subsecond =>
    if cs.length ≤ 9 then some { p with nanos := n * Nat.pow 10 (9 - cs.length) } else none
  | .offsetHours =>
    -- the first digit only holds its place
    let hours ← Number.natural? (cs.drop 1)
    if hours ≤ 23 then some { p with offsetHours := hours } else none
  | .offsetMinutes => upTo 59 { p with offsetMinutes := n }
  | .scale => none

def Parts.setScale? (p : Parts) : List Char → Option Parts
  | [c] => if c.toNat < 0x80 then some p else none
  | cs => (TimeScale.parse? cs).map fun scale => { p with scale }

/-- Reads on, `cs` being the characters of the part so far. A part that ends the text is read if
its last character is ASCII. -/
def readFrom (p : Parts) (part : Part) (cs : List Char) : List Char → Option Parts
  | [] =>
    if part = .scale || cs.getLast?.all fun c => 0x80 ≤ c.toNat then some p else p.set? part cs
  | c :: rest =>
    if Text.numeric c then readFrom p part (cs ++ [c]) rest
    else if part = .scale then p.setScale? (c :: rest)
    else do
      let p ← p.set? part cs
      let next ← part.next? c
      readFrom { p with west := p.west || (next == .offsetHours && c == '-') } next [] rest

def longJunes : List Nat := [1972, 1981, 1982, 1983, 1985, 1992, 1993, 1994, 1997, 2012, 2015]

/-- Years in which 31 December ended with an added second, and the one before such seconds came
into use. -/
def longDecembers : List Nat :=
  [1971, 1972, 1973, 1974, 1975, 1976, 1977, 1978, 1979, 1987, 1989, 1990, 1995, 1998, 2005, 2008,
    2016]

def Parts.secondExists (p : Parts) : Bool :=
  let years := match p.date.month, p.date.day with
    | 6, 30 => longJunes
    | 12, 31 => longDecembers
    | _, _ => []
  p.second < 60 ||
    (p.scale == .universal && p.hour == 23 && p.minute == 59 &&
      years.contains p.date.year.toNat)

def Parts.epoch? (p : Parts) : Option Epoch :=
  if p.date.valid && p.secondExists then
    let seconds : Int := p.hour * 3600 + p.minute * 60 + min p.second 59
    let civil := (p.date.days * 86400 + seconds) * nanosPerSecond + p.nanos
    let offset : Int := (p.offsetHours * 3600 + p.offsetMinutes * 60) * nanosPerSecond
    some ((Epoch.since1900 p.scale (.ofNanos civil)).add ⟨if p.west then offset else -offset⟩)
  else none

def parseCivil? (cs : List Char) : Option Epoch := (readFrom {} .year [] cs).bind Parts.epoch?

inductive Count where
  | julianDays
  | modifiedJulianDays
  | seconds
deriving DecidableEq, Repr

def countNames : List (List Char × Count) :=
  [("JD".toList, .julianDays), ("MJD".toList, .modifiedJulianDays), ("SEC".toList, .seconds)]

def takeCount? (cs : List Char) : Option (Count × List Char) :=
  countNames.findSome? fun (name, count) =>
    if name.isPrefixOf cs then some (count, cs.drop name.length) else none

def modifiedJulian1900 : Double := .ofNat 15020

def modifiedJulianOffset : Double := .ofNat 4800001 / .ofNat 2

def ephemerisLead : Duration := ⟨32184935000⟩

def daysSince (scale : TimeScale) (days : Double) : Epoch :=
  .since scale (.ofDouble days nanosPerDay)

/-- The time that a count tells on a scale, unless it is not kept on that scale. Julian dates of
either kind are lessened by that of 1900-01-01 and then counted from the reference of the scale.
Ephemeris times in Julian days are told as the atomic times at which they occur. -/
def Count.epoch? (count : Count) (x : Double) (scale : TimeScale) : Option Epoch :=
  let finite := fun e => if x.isFinite then some e else none
  match count, scale with
  | .julianDays, .atomic | .julianDays, .universal =>
    finite (daysSince scale (x + -modifiedJulian1900 + -modifiedJulianOffset))
  | .julianDays, .ephemeris | .julianDays, .barycentricDynamical =>
    finite ((daysSince .atomic (x + -modifiedJulian1900 + -modifiedJulianOffset)).add
      ⟨-ephemerisLead.nanos⟩)
  | .modifiedJulianDays, .atomic | .modifiedJulianDays, .universal | .modifiedJulianDays, .gps
  | .modifiedJulianDays, .galileo | .modifiedJulianDays, .beidou =>
    finite (daysSince scale (x + -modifiedJulian1900))
  | .seconds, _ => some (.since scale (.ofSeconds x))
  | _, _ => none

def scaleWidth : Nat := 3

def splitEnd? (cs : List Char) (n : Nat) : Option (List Char × List Char) :=
  let parts := cs.splitAt (cs.length - n)
  if parts.2.all fun c => c.toNat < 0x80 then some parts else none

/-- The time that a count tells, `cs` being the text after its name. The number ends where the full
name of the scale would begin. -/
def Count.parse? (count : Count) (cs : List Char) : Option Epoch := do
  let (_, name) ← splitEnd? cs scaleWidth
  let scale ← TimeScale.parse? name
  let (number, _) ← splitEnd? cs scale.text.length
  count.epoch? (← Number.readDouble? (Text.trim Text.blank number)) scale

def parseCount? (cs : List Char) : Option Epoch :=
  (takeCount? cs).bind fun (count, rest) => count.parse? rest

def minBytes : Nat := 7

def parse? (text : String) : Option Epoch :=
  let cs := Text.trim Text.blank text.toList
  if (String.ofList cs).utf8ByteSize < minBytes then none
  else if (takeCount? cs).isSome then parseCount? cs
  else parseCivil? cs

end Telemetry.Timestamp
