import Mathlib.Algebra.Order.Field.Basic
import Mathlib.Algebra.Order.Field.Rat
import Telemetry.Proofs.Channel.Publication
import Telemetry.Proofs.Channel.TagCombination
import Telemetry.Proofs.Decode.Soundness

namespace Telemetry

/-- What an encoding puts into a clock: no fine ticks in 32 bits, sixteen bits of them in 64. -/
def TimeTag.Encoded (t : TimeTag) : Prop :=
  ∀ c, t.value = .clock c → t.bits = 32 ∧ c.fine = 0 ∨ t.bits = 64 ∧ c.fine < 0x10000

namespace Decode

open Layout (Arena Scalar)

def Item.TagEncoded : Item → Prop
  | .candidate (.tag t) => t.Encoded
  | _ => True

theorem pervasive_tagEncoded : Pervasive Item.TagEncoded :=
  ⟨fun _ => trivial, fun _ => trivial, fun _ _ => trivial⟩

theorem fine_timeValue {bits : Nat} {unit : Option String} {bytes : List UInt8} {c : Clock}
    (hb : bits = 32 ∨ bits = 64) (h : timeValue bits unit bytes = .clock c) :
    bits = 32 ∧ c.fine = 0 ∨ bits = 64 ∧ c.fine < 0x10000 := by
  unfold timeValue at h
  split at h
  next =>
    rcases hb with rfl | rfl
    · cases h
      exact .inl ⟨rfl, rfl⟩
    · cases h
      exact .inr ⟨rfl, Nat.mod_lt _ (by decide)⟩
  next => cases h

theorem width_of_time {s : Scalar} (h : s.Checked) (hf : s.isFill = false)
    (ht : s.dataType.base = .time) : s.dataType.bitLen = 32 ∨ s.dataType.bitLen = 64 := by
  have hs := h.supported hf
  simpa [DataType.supported, ht] using hs

theorem effectiveType_of_time {s : Scalar} (h : s.Checked) (hf : s.isFill = false)
    (ht : s.dataType.base = .time) (length : Nat) : effectiveType s length = s.dataType := by
  have hnone : s.lengthBytes = none := by
    cases hl : s.lengthBytes with
    | none => rfl
    | some width => simpa [Layout.variableLength, ht] using h.kind width hl
  have hsome : s.dataType.byteLen ≠ none := by
    intro hb
    simpa [Layout.variableLength, ht] using variableLength_of_byteLen_eq_none (h.supported hf) hb
  obtain ⟨n, hn⟩ := Option.ne_none_iff_exists'.mp hsome
  simp [effectiveType, hnone, hn]

theorem timeValue_of_leafValue {name : String} {t : DataType} {unit : Option String}
    {bytes : List UInt8} {dn : Value} (ht : t.base = .time)
    (h : leafValue name t unit bytes = .ok (some dn)) : timeValue t.bitLen unit bytes = dn := by
  unfold leafValue at h
  split at h
  next => cases h
  next => simpa [ht] using h

theorem time_of_tagValue? {s : Scalar} {dn : Value} {c : Clock} {unit : TimeUnit}
    (h : tagValue? s dn = some (.clock c, unit)) : s.dataType.base = .time ∧ dn = .clock c := by
  unfold tagValue? at h
  split at h <;> simp_all

theorem tagEncoded_offer {s : Scalar} {dn : Value}
    (h : ∀ c, s.dataType.base = .time → dn = .clock c →
      s.dataType.bitLen = 32 ∧ c.fine = 0 ∨ s.dataType.bitLen = 64 ∧ c.fine < 0x10000) :
    ∀ i ∈ offer s dn, i.TagEncoded := by
  unfold offer
  split
  next =>
    split
    next value unit htag =>
      refine List.forall_mem_singleton.mpr ?_
      rintro c rfl
      obtain ⟨ht, hdn⟩ := time_of_tagValue? htag
      exact h c ht hdn
    next => exact List.forall_mem_singleton.mpr trivial
  next => exact List.forall_mem_singleton.mpr trivial
  next => exact List.forall_mem_nil _

theorem tagEncoded_readLeaf {s : Scalar} (h : s.Checked) (hf : s.isFill = false) (channels : Bool)
    (id : Nat) (bytes : List UInt8) (past : State) :
    ∀ i ∈ (readLeaf channels id s bytes past).items, i.TagEncoded := by
  unfold readLeaf
  split
  next => exact List.forall_mem_singleton.mpr trivial
  next => exact List.forall_mem_nil _
  next dn hdn =>
    refine List.forall_mem_cons.mpr ⟨trivial, ?_⟩
    cases channels with
    | false => exact List.forall_mem_nil _
    | true =>
      apply tagEncoded_offer
      rintro c ht rfl
      rw [effectiveType_of_time h hf ht] at hdn
      exact fine_timeValue (width_of_time h hf ht) (timeValue_of_leafValue ht hdn)

theorem encoded_of_build {arena : Arena} {root : Nat} {l : Layout}
    (hb : Layout.build arena root = .ok l) (o : Options) (data : List UInt8) :
    ∃ d, l.decode o data = .ok d ∧ ∀ t ∈ d.candidates.filterMap Candidate.tag?, t.Encoded := by
  refine ⟨_, decode_of_build hb o data, fun t ht => ?_⟩
  obtain ⟨v, hv, hvt⟩ := List.mem_filterMap.mp ht
  obtain ⟨i, hi, hiv⟩ := List.mem_filterMap.mp hv
  have htells : TellsField Item.TagEncoded o l.root :=
    pervasive_tagEncoded.tellsField (fun _ => tagEncoded_readLeaf)
      (fun _ _ _ _ _ _ => trivial) (Layout.grown_of_build hb).2 nofun
  have hitem := htells.plain _ i hi
  cases i <;> cases hiv
  cases v <;> cases hvt
  exact hitem

end Decode

def Clock.fraction (c : Clock) (f : ClockFormat) : ℚ := c.fine / f.modulus

theorem Clock.fraction_lt_one {c : Clock} {f : ClockFormat} (h : c.fine ≤ f.maxFine) :
    c.fraction f < 1 := by
  have hm := f.modulus_pos
  have hlt : c.fine < f.modulus := Nat.lt_of_le_pred hm h
  rw [fraction, div_lt_one (Nat.cast_pos.mpr hm)]
  exact Nat.cast_lt.mpr hlt

namespace ProductTime

variable {f : ClockFormat} {tags : List TimeTag} {t : TimeTag} {c : Clock}

structure Canonical (f : ClockFormat) (c : Clock) : Prop where
  fits : c.fine ≤ f.maxFine
  fraction_lt_one : c.fraction f < 1

/-- As the format is as wide as the encoding, the clock is left as it was read, although fewer bits
of the format are for fine ticks. -/
structure LeftAsRead (f : ClockFormat) (t : TimeTag) (c : Clock) : Prop where
  value : t.value = .clock c
  bits : t.bits = 64
  wide : 64 ≤ f.totalBits
  narrow : f.fineBits < 16

theorem canonical_of_fits (h : c.fine ≤ f.maxFine) : Canonical f c :=
  ⟨h, Clock.fraction_lt_one h⟩

theorem TellsClock.canonical (hf : f.fineBits < 64) (h : TellsClock f t c) (ht : t.Encoded) :
    Canonical f c ∨ LeftAsRead f t c := by
  rcases h with ⟨hv, hbits⟩ | ⟨hv, hbits⟩ | hv
  · rcases ht c hv with ⟨-, hfine⟩ | ⟨hwidth, hfine⟩
    · exact .inl (canonical_of_fits (by omega))
    · by_cases hn : f.fineBits < 16
      · exact .inr ⟨hv, hwidth, hwidth ▸ hbits, hn⟩
      · have hpow : 2 ^ 16 ≤ f.modulus :=
          Clock.modulus_eq hf ▸ Nat.pow_le_pow_right (by decide) (Nat.not_lt.mp hn)
        exact .inl (canonical_of_fits (Nat.le_pred_of_lt (Nat.lt_of_lt_of_le hfine hpow)))
  · exact .inl (canonical_of_fits (Clock.fine_roundFine_le _ f))
  · exact .inl (canonical_of_fits (Clock.fine_ofSeconds_le _ f))

theorem Combines.canonical {a d : TimeTag} (h : Combines f a d (.clock c)) : Canonical f c := by
  cases h with
  | clocks _ _ _ hfine => exact canonical_of_fits hfine
  | millis _ _ _ _ _ hfine => exact canonical_of_fits hfine
  | wrapped _ _ _ _ _ hfine => exact canonical_of_fits hfine

theorem canonical_of_alone {a : TimeTag} (hf : f.fineBits < 64) (hk : a.kind ≠ .delta)
    (ha : a.Encoded) (h : resolve [a] f = .ok (some (.clock c))) : Canonical f c ∨ LeftAsRead f a c := by
  cases ((alone hk).timed _).mp h with
  | clock hc => exact hc.canonical hf ha

theorem canonical_of_encoded (hf : f.fineBits < 64) (ht : ∀ t ∈ tags, t.Encoded)
    (h : resolve tags f = .ok (some (.clock c))) :
    Canonical f c ∨ ∃ a after, Anchors tags a after ∧ (a.kind = .absolute ∨ after = []) ∧
      LeftAsRead f a c := by
  rcases deltas_or_anchors tags with hdeltas | ⟨a, after, ha⟩
  · simp [resolve, anchored?_of_deltas hdeltas] at h
  · have hmem : a ∈ tags := by
      obtain ⟨before, rfl⟩ := ha.split
      simp
    by_cases hdelta : a.kind = .base ∧ after ≠ []
    · obtain ⟨hk, hne⟩ := hdelta
      have hlast := List.getLast?_eq_some_getLast hne
      rw [resolve_eq_of_last ha, hlast] at h
      have hd := ha.deltas _ (List.getLast_mem hne)
      exact .inl (((paired hk hd).timed _).mp h).canonical
    · have hsingle : a.kind = .absolute ∨ after = [] := by
        have hk := ha.anchor
        cases hkind : a.kind <;> simp_all
      have halone : resolve tags f = resolve [a] f := by
        rcases hsingle with hk | rfl
        · exact resolve_of_absolute ha hk
        · exact resolve_eq_of_last ha
      exact (canonical_of_alone hf ha.anchor (ht a hmem) (halone ▸ h)).imp_right
        fun hread => ⟨a, after, ha, hsingle, hread⟩

end ProductTime

open ProductTime in
/-- Only a clock of 64 bits that stands alone, in a format as wide, can have more fine ticks than
the format has room for. -/
theorem resolved_clock_canonical {arena : Layout.Arena} {root : Nat} {l : Layout}
    (hb : Layout.build arena root = .ok l) (o : Decode.Options) (data : List UInt8) :
    ∃ d, l.decode o data = .ok d ∧ ∀ f : ClockFormat, f.fineBits < 64 → ∀ c,
      resolve (d.candidates.filterMap Candidate.tag?) f = .ok (some (.clock c)) →
        Canonical f c ∨ ∃ a after, Anchors (d.candidates.filterMap Candidate.tag?) a after ∧
          (a.kind = .absolute ∨ after = []) ∧ LeftAsRead f a c := by
  obtain ⟨d, hd, hencoded⟩ := Decode.encoded_of_build hb o data
  exact ⟨d, hd, fun _ hf _ h => canonical_of_encoded hf hencoded h⟩

namespace WideClock

def stamp : Layout.Scalar :=
  { name := "stamp", dataType := .ofBits .time 64, tag := some .absolute }

def arena : Layout.Arena := #[.scalar stamp]

def layout : Layout := ⟨arena, .scalar 0 stamp⟩

theorem build_arena : Layout.build arena 0 = .ok layout := rfl

def data : List UInt8 := [0, 0, 0, 7, 0xFF, 0xFF, 0, 0]

def tag : TimeTag := ⟨.absolute, .clock ⟨7, 0xFFFF⟩, .clock, 64⟩

theorem decode_data :
    ∃ d, layout.decode {} data = .ok d ∧ d.candidates.filterMap Candidate.tag? = [tag] :=
  ⟨_, Decode.decode_of_build build_arena {} data, by decide +kernel⟩

theorem roundFine_clock : Clock.roundFine ⟨7, 0xFFFF⟩ ⟨32, 8⟩ = ⟨7, 66⟩ := by
  simp [Clock.roundFine, Clock.reduce, ClockFormat.maxFine, ClockFormat.modulus]

end WideClock

open WideClock ProductTime in
theorem resolved_clock_canonical_rounded :
    ∃ d, layout.decode {} data = .ok d ∧
      resolve (d.candidates.filterMap Candidate.tag?) ⟨32, 8⟩ = .ok (some (.clock ⟨7, 66⟩)) ∧
      Canonical ⟨32, 8⟩ ⟨7, 66⟩ := by
  obtain ⟨d, hd, hclock⟩ := resolved_clock_canonical build_arena {} data
  obtain ⟨d', hd', htags⟩ := decode_data
  obtain rfl : d' = d := by simpa [hd] using hd'.symm
  have hresolve : resolve [tag] ⟨32, 8⟩ = .ok (some (.clock ⟨7, 66⟩)) := by
    refine ((alone (by decide)).timed _).mpr (.clock ?_)
    exact roundFine_clock ▸ .rounded rfl (by decide)
  rw [← htags] at hresolve
  refine ⟨d', hd, hresolve, ?_⟩
  rcases hclock _ (by decide) _ hresolve with hcanonical | ⟨a, after, -, -, hread⟩
  · exact hcanonical
  · exact absurd hread.wide (by decide)

open WideClock ProductTime in
theorem resolved_clock_beyond_maxFine :
    Layout.build arena 0 = .ok layout ∧
      ∃ d, layout.decode {} data = .ok d ∧
        resolve (d.candidates.filterMap Candidate.tag?) ⟨56, 8⟩ =
          .ok (some (.clock ⟨7, 0xFFFF⟩)) ∧
        ClockFormat.maxFine ⟨56, 8⟩ < 0xFFFF := by
  obtain ⟨d, hd, htags⟩ := decode_data
  refine ⟨build_arena, d, hd, ?_, by decide⟩
  rw [htags]
  exact ((alone (by decide)).timed _).mpr (.clock (.read rfl (by decide)))

end Telemetry
