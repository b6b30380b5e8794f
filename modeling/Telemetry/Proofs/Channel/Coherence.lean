import Telemetry.Proofs.Channel.Publication

namespace Telemetry.Channelizer

variable (s : Setting) (p : ProductIdentity)

structure ToldBy (c : Clock) (t : Times) : Prop where
  clock : t.clock = some c
  event : t.event = s.correlation.clockToEvent c p.receiveTime p.spacecraft
  solar : t.solar = if s.config.solarTime then
    t.event.bind fun e => s.correlation.eventToSolar e p.spacecraft else none

/-- A local solar time is there if it is wanted and known for the event time beside it, and only
then. -/
def SolarBacked (t : Times) : Prop :=
  ∀ x, t.solar = some x ↔ s.config.solarTime = true ∧
    ∃ e, t.event = some e ∧ s.correlation.eventToSolar e p.spacecraft = some x

structure SampleCoherent (batch : Times) (v : ChannelValue) (x : Sample) : Prop where
  channel : x.channel = v.id
  dn : x.dn = v.dn
  receive : x.times.receive = batch.receive
  realtime : x.realtime = true ↔ s.config.marking = .realtime
  solar : SolarBacked s p x.times
  shared : v.clock = none → x.times = batch
  own : ∀ c, v.clock = some c → ToldBy s p c x.times

structure Coherent (channels : List ChannelValue) (tags : List TimeTag) (b : Batch) : Prop where
  product : b.product = p
  length : b.samples.length = channels.length
  sample : ∀ (i : Nat) v x, channels[i]? = some v → b.samples[i]? = some x →
    SampleCoherent s p b.times v x
  solar : SolarBacked s p b.times
  clock : ∀ c, ProductTime.resolve tags s.config.clockFormat = .ok (some (.clock c)) →
    ToldBy s p c b.times ∧ b.times.receive = p.receiveTime
  receive : ∀ r, ProductTime.resolve tags s.config.clockFormat = .ok (some (.receive r)) →
    b.times.clock = none ∧ b.times.receive = some r ∧
      b.times.event = s.correlation.receiveToEvent r p.spacecraft
  unanchored : ProductTime.resolve tags s.config.clockFormat = .ok none →
    b.times = ⟨none, p.receiveTime, none, none⟩
  mismatch : ∀ m, ProductTime.resolve tags s.config.clockFormat = .error m →
    b.times = ⟨none, p.receiveTime, none, none⟩
  fault : b.fault = true ↔
    (∃ m, ProductTime.resolve tags s.config.clockFormat = .error m) ∨ p.incomplete = true

variable {s p}

theorem solar_eq_some_iff {event : Option Epoch} {spacecraft : Nat} {x : SolarTime} :
    s.solar event spacecraft = some x ↔ s.config.solarTime = true ∧
      ∃ e, event = some e ∧ s.correlation.eventToSolar e spacecraft = some x := by
  unfold Setting.solar
  by_cases hwanted : s.config.solarTime = true
  · rw [if_pos hwanted, Option.bind_eq_some_iff]
    simp only [hwanted, true_and]
  · rw [if_neg hwanted]
    constructor
    · intro h
      cases h
    · exact fun h => absurd h.1 hwanted

theorem solarBacked_of_eq {t : Times} (h : t.solar = s.solar t.event p.spacecraft) :
    SolarBacked s p t := by
  intro x
  rw [h]
  exact solar_eq_some_iff

theorem solar_productTimes (time : Option ProductTime) :
    (s.productTimes p time).solar = s.solar (s.productTimes p time).event p.spacecraft := rfl

theorem toldBy_productTimes (c : Clock) : ToldBy s p c (s.productTimes p (some (.clock c))) :=
  ⟨rfl, rfl, rfl⟩

theorem productTimes_none : s.productTimes p none = ⟨none, p.receiveTime, none, none⟩ := by
  simp [Setting.productTimes, Setting.solar]

theorem sampleCoherent_sample {times : Times} (h : SolarBacked s p times) (v : ChannelValue) :
    SampleCoherent s p times v (s.sample p times v) := by
  cases hv : v.clock with
  | none =>
    have htimes : (s.sample p times v).times = times := by
      simp [Setting.sample, hv, Setting.sampleTimes]
    refine ⟨rfl, rfl, ?_, beq_iff_eq, ?_, fun _ => htimes, ?_⟩
    · rw [htimes]
    · rwa [htimes]
    · intro c hc
      cases hv ▸ hc
  | some c =>
    have htimes : (s.sample p times v).times =
        ⟨some c, times.receive, s.correlation.clockToEvent c p.receiveTime p.spacecraft,
          s.solar (s.correlation.clockToEvent c p.receiveTime p.spacecraft) p.spacecraft⟩ := by
      simp [Setting.sample, hv, Setting.sampleTimes]
    refine ⟨rfl, rfl, ?_, beq_iff_eq, ?_, ?_, ?_⟩
    · rw [htimes]
    · apply solarBacked_of_eq
      rw [htimes]
    · intro hc
      cases hv ▸ hc
    · intro d hd
      cases hv ▸ hd
      rw [htimes]
      exact ⟨rfl, rfl, rfl⟩

section Batches

variable (channels : List ChannelValue) {tags : List TimeTag}

theorem times_batch_of_ok {time : Option ProductTime}
    (h : ProductTime.resolve tags s.config.clockFormat = .ok time) :
    (s.batch p channels tags).times = s.productTimes p time := by
  simp only [Setting.batch, h]

theorem times_batch_of_error {m : TagMismatch}
    (h : ProductTime.resolve tags s.config.clockFormat = .error m) :
    (s.batch p channels tags).times = s.productTimes p none := by
  simp only [Setting.batch, h]

theorem exists_times_batch (tags : List TimeTag) :
    ∃ time, (s.batch p channels tags).times = s.productTimes p time := by
  cases h : ProductTime.resolve tags s.config.clockFormat with
  | ok time => exact ⟨time, times_batch_of_ok channels h⟩
  | error m => exact ⟨none, times_batch_of_error channels h⟩

theorem samples_batch (tags : List TimeTag) :
    (s.batch p channels tags).samples =
      channels.map (s.sample p (s.batch p channels tags).times) := rfl

theorem fault_batch (tags : List TimeTag) :
    (s.batch p channels tags).fault = true ↔
      (∃ m, ProductTime.resolve tags s.config.clockFormat = .error m) ∨ p.incomplete = true := by
  unfold Setting.batch
  cases ProductTime.resolve tags s.config.clockFormat with
  | ok time => simp
  | error m => simp

end Batches

theorem coherent_batch (s : Setting) (p : ProductIdentity) (channels : List ChannelValue)
    (tags : List TimeTag) : Coherent s p channels tags (s.batch p channels tags) := by
  have hsolar : SolarBacked s p (s.batch p channels tags).times := by
    obtain ⟨time, htimes⟩ := exists_times_batch (s := s) (p := p) channels tags
    rw [htimes]
    exact solarBacked_of_eq (solar_productTimes time)
  constructor
  case product => rfl
  case length => rw [samples_batch, List.length_map]
  case sample =>
    intro i v x hv hx
    rw [samples_batch, List.getElem?_map, hv, Option.map_some, Option.some.injEq] at hx
    subst hx
    exact sampleCoherent_sample hsolar v
  case solar => exact hsolar
  case clock =>
    intro c hc
    rw [times_batch_of_ok channels hc]
    exact ⟨toldBy_productTimes c, rfl⟩
  case receive =>
    intro r hr
    rw [times_batch_of_ok channels hr]
    exact ⟨rfl, rfl, rfl⟩
  case unanchored =>
    intro h
    rw [times_batch_of_ok channels h, productTimes_none]
  case mismatch =>
    intro m hm
    rw [times_batch_of_error channels hm, productTimes_none]
  case fault => exact fault_batch channels tags

theorem Coherent.eq_of_clock {channels : List ChannelValue} {tags tags' : List TimeTag}
    {b b' : Batch} (h : Coherent s p channels tags b) (h' : Coherent s p channels tags' b')
    {i : Nat} {v : ChannelValue} {x x' : Sample} (hv : channels[i]? = some v)
    (hown : v.clock ≠ none) (hx : b.samples[i]? = some x) (hx' : b'.samples[i]? = some x') :
    x'.times = { x.times with receive := b'.times.receive } := by
  obtain ⟨c, hc⟩ := Option.ne_none_iff_exists'.mp hown
  have told := (h.sample i v x hv hx).own c hc
  have told' := (h'.sample i v x' hv hx').own c hc
  have hclock : x'.times.clock = x.times.clock := told'.clock.trans told.clock.symm
  have hevent : x'.times.event = x.times.event := told'.event.trans told.event.symm
  have hsolar : x'.times.solar = x.times.solar := by
    rw [told'.solar, told.solar, hevent]
  have hreceive := (h'.sample i v x' hv hx').receive
  calc x'.times = ⟨x'.times.clock, x'.times.receive, x'.times.event, x'.times.solar⟩ := rfl
    _ = { x.times with receive := b'.times.receive } := by
      rw [hclock, hevent, hsolar, hreceive]

section Delivery

variable {σ : Type} (t : Transport σ)

theorem handed_finish {channels : List ChannelValue} (h : channels ≠ []) (tags : List TimeTag)
    (w : σ × List Batch) :
    (deliver t.recorded s ⟨some p, channels, tags⟩ w .finish).transport.2 =
      w.2 ++ [s.batch p channels tags] := by
  rw [transport_deliver_recorded]
  simp [handle, finish, h]

theorem exists_due_of_handed (s : Setting) (w : σ) (ms : List Message) {b : Batch}
    (h : b ∈ (deliverAll t.recorded s {} (w, []) ms).2.2) :
    ∃ x ∈ due ms, Coherent s x.product x.channels x.tags b := by
  rw [deliverAll_snd, handleEach_recorded] at h
  obtain ⟨x, hx, rfl⟩ := List.mem_map.mp h
  exact ⟨x, hx, coherent_batch s x.product x.channels x.tags⟩

/-- The end of a product with channel values hands on one batch with coherent times. Other time
tags leave the samples with clocks of their own as they are, but for the batch's receive time. -/
theorem finish_hands_coherent (s : Setting) (p : ProductIdentity) {channels : List ChannelValue}
    (tags : List TimeTag) (w : σ) (h : channels ≠ []) :
    ∃ b, (deliver t.recorded s ⟨some p, channels, tags⟩ (w, []) .finish).transport.2 = [b] ∧
      Coherent s p channels tags b ∧
      ∀ tags', ∃ b',
        (deliver t.recorded s ⟨some p, channels, tags'⟩ (w, []) .finish).transport.2 = [b'] ∧
        Coherent s p channels tags' b' ∧
        ∀ (i : Nat) v x x', channels[i]? = some v → v.clock ≠ none →
          b.samples[i]? = some x → b'.samples[i]? = some x' →
          x'.times = { x.times with receive := b'.times.receive } := by
  have hb := coherent_batch s p channels tags
  refine ⟨s.batch p channels tags, handed_finish t h tags (w, []), hb, fun tags' => ?_⟩
  have hb' := coherent_batch s p channels tags'
  refine ⟨s.batch p channels tags', handed_finish t h tags' (w, []), hb', ?_⟩
  intro i v x x' hv hown hx hx'
  exact hb.eq_of_clock hb' hv hown hx hx'

theorem finish_hands_coherent_mismatch :
    let s : Setting := ⟨{ solarTime := true, marking := .realtime },
      ⟨fun c _ _ => some ⟨c.coarse, .universal⟩, fun e _ => some ⟨1, e.nanos.toNat⟩, fun e _ => e⟩⟩
    let p : ProductIdentity := { id := "p", spacecraft := 7, receiveTime := some ⟨3, .universal⟩ }
    let channels : List ChannelValue := [⟨"a", .unsigned 1, none⟩, ⟨"b", .unsigned 2, some ⟨9, 0⟩⟩]
    let tags : List TimeTag :=
      [⟨.base, .clock ⟨100, 0⟩, .clock, 32⟩, ⟨.delta, .count 5, .microseconds, 32⟩]
    channels ≠ [] ∧ ∃ b,
      (deliver Transport.collecting.recorded s ⟨some p, channels, tags⟩ ([], []) .finish).transport.2 =
        [b] ∧
      b.fault = true ∧ b.times = ⟨none, some ⟨3, .universal⟩, none, none⟩ ∧
      b.samples.map Sample.times = [b.times,
        ⟨some ⟨9, 0⟩, some ⟨3, .universal⟩, some ⟨9, .universal⟩, some ⟨1, 9⟩⟩] := by
  intro s p channels tags
  have hne : channels ≠ [] := List.cons_ne_nil _ _
  obtain ⟨b, hb, hco, -⟩ := finish_hands_coherent Transport.collecting s p tags [] hne
  have hbad : ∃ m, ProductTime.resolve tags s.config.clockFormat = .error m := ⟨_, rfl⟩
  have hfault := hco.fault.mpr (.inl hbad)
  have htimes := hbad.elim hco.mismatch
  refine ⟨hne, b, hb, hfault, htimes, ?_⟩
  rw [handed_finish Transport.collecting hne tags ([], [])] at hb
  cases hb
  rfl

end Delivery

end Telemetry.Channelizer
