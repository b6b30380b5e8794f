import Telemetry.Channel.Candidate
import Telemetry.Time.Epoch

/-!
The time of a product from its time tags. The last tag that is no delta is the anchor; the last
delta after it is added to a base.
-/

namespace Telemetry

inductive ProductTime where
  | clock (c : Clock)
  | receive (e : Epoch)
deriving DecidableEq, Repr

structure TagMismatch where
  anchor : String
  delta : String
deriving DecidableEq, Repr

def TagMismatch.message (m : TagMismatch) : String :=
  s!"cannot add {m.delta} delta to {m.anchor} base time"

namespace TimeTag

def describe (t : TimeTag) : String :=
  match t.value with
  | .clock _ | .seconds _ => TimeUnit.clock.text
  | .count _ => t.unit.text ++ " count"

def reduced (t : TimeTag) (c : Clock) (f : ClockFormat) : Clock :=
  if f.totalBits < t.bits then c.roundFine f else c

def clock? (t : TimeTag) (f : ClockFormat) : Option Clock :=
  match t.value with
  | .clock c => some (t.reduced c f)
  | .seconds x => some (.ofSeconds x f)
  | .count _ => none

def millis? (t : TimeTag) : Option Nat :=
  match t.value, t.unit with
  | .count n, .milliseconds => some n
  | _, _ => none

def time? (t : TimeTag) (f : ClockFormat) : Option ProductTime :=
  match t.value with
  | .count n => (t.unit.epoch? n).map .receive
  | .clock _ | .seconds _ => (t.clock? f).map .clock

end TimeTag

namespace ProductTime

def later? (time : ProductTime) (delta : TimeTag) (f : ClockFormat) : Option ProductTime :=
  match time, delta.clock? f, delta.millis? with
  | .clock c, some d, _ => some (.clock (c.add d f))
  | .clock c, none, some ms => some (.clock (c.addMillis ms f))
  | .receive e, none, some ms => some (.receive (e.add (.ofMilliseconds (.ofNat ms))))
  | _, _, _ => none

structure Anchored where
  anchor : TimeTag
  delta : Option TimeTag

def anchored? (tags : List TimeTag) : Option Anchored :=
  let reversed := tags.reverse
  match reversed.dropWhile fun t => t.kind == .delta with
  | [] => none
  | anchor :: _ =>
    some ⟨anchor, if anchor.kind = .base then reversed.head?.filter (·.kind == .delta) else none⟩

def resolve (tags : List TimeTag) (f : ClockFormat) : Except TagMismatch (Option ProductTime) :=
  match anchored? tags with
  | none => .ok none
  | some ⟨anchor, delta⟩ =>
    match anchor.time? f, delta with
    | none, _ => .ok none
    | some time, none => .ok (some time)
    | some time, some delta =>
      match time.later? delta f with
      | some later => .ok (some later)
      | none => .error ⟨anchor.describe, delta.describe⟩

end ProductTime
end Telemetry
