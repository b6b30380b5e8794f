import Telemetry.Channel.ConfigReader
import Telemetry.Channel.ProductTime
import Telemetry.Channel.Sample
import Telemetry.Log
import Telemetry.Time.SolarTime

/-!
Channelizing: the candidates of one product at a time are kept until the product ends, and are then
published as one batch of samples with their times.
-/

namespace Telemetry

inductive Message where
  | start (p : ProductIdentity)
  | candidate (c : Candidate)
  | finish
deriving DecidableEq, Repr

structure Channelizer where
  product : Option ProductIdentity := none
  channels : List ChannelValue := []
  tags : List TimeTag := []
deriving DecidableEq, Repr

namespace Channelizer

def buffered (c : Channelizer) : Nat := c.channels.length + c.tags.length

structure Setting where
  config : ChannelConfig
  correlation : Correlation

namespace Setting

def solar (s : Setting) (event : Option Epoch) (spacecraft : Nat) : Option SolarTime :=
  if s.config.solarTime then event.bind fun e => s.correlation.eventToSolar e spacecraft else none

def productTimes (s : Setting) (p : ProductIdentity) (time : Option ProductTime) : Times :=
  let (clock, receive, event) := match time with
    | some (.clock c) => (some c, p.receiveTime,
        s.correlation.clockToEvent c p.receiveTime p.spacecraft)
    | some (.receive e) => (none, some e, s.correlation.receiveToEvent e p.spacecraft)
    | none => (none, p.receiveTime, none)
  ⟨clock, receive, event, s.solar event p.spacecraft⟩

def sampleTimes (s : Setting) (p : ProductIdentity) (times : Times) (own : Option Clock) : Times :=
  match own with
  | none => times
  | some c =>
    let event := s.correlation.clockToEvent c p.receiveTime p.spacecraft
    ⟨some c, times.receive, event, s.solar event p.spacecraft⟩

def sample (s : Setting) (p : ProductIdentity) (times : Times) (c : ChannelValue) : Sample :=
  ⟨c.id, c.dn, s.sampleTimes p times c.clock, s.config.marking == .realtime⟩

def batch (s : Setting) (p : ProductIdentity) (channels : List ChannelValue)
    (tags : List TimeTag) : Batch :=
  let (time, mismatch) := match ProductTime.resolve tags s.config.clockFormat with
    | .ok time => (time, false)
    | .error _ => (none, true)
  let times := s.productTimes p time
  ⟨channels.map (s.sample p times), times, p, mismatch || p.incomplete⟩

end Setting

def start (_ : Channelizer) (p : ProductIdentity) : Channelizer := ⟨some p, [], []⟩

def add (c : Channelizer) (candidate : Candidate) : Channelizer :=
  match c.product, candidate with
  | none, _ => c
  | some _, .channel v => { c with channels := c.channels ++ [v] }
  | some _, .tag t => { c with tags := c.tags ++ [t] }

def finish (c : Channelizer) (s : Setting) : Option Batch × Channelizer :=
  match c.product with
  | none => (none, c)
  | some p =>
    (if c.channels.isEmpty then none else some (s.batch p c.channels c.tags), {})

def handle (c : Channelizer) (s : Setting) : Message → Option Batch × Channelizer
  | .start p => (none, c.start p)
  | .candidate v => (none, c.add v)
  | .finish => c.finish s

def run (c : Channelizer) (s : Setting) : List Message → List Batch
  | [] => []
  | m :: ms =>
    let (batch, c) := c.handle s m
    batch.toList ++ run c s ms

end Channelizer
end Telemetry
