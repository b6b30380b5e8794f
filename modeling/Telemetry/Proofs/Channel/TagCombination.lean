import Mathlib.Data.List.Induction
import Mathlib.Data.List.TakeWhile
import Telemetry.Channel.ProductTime
import Telemetry.Proofs.Time.Ticks

/-!
The time of a product by its last anchor and the last delta after it, with the table of what a base
and a delta make.
-/

namespace Telemetry
namespace ProductTime

variable {f : ClockFormat} {a d : TimeTag}

structure Anchors (tags : List TimeTag) (a : TimeTag) (after : List TimeTag) : Prop where
  split : ∃ before, tags = before ++ a :: after
  anchor : a.kind ≠ .delta
  deltas : ∀ t ∈ after, t.kind = .delta

theorem anchored?_of_deltas {tags : List TimeTag} (h : ∀ t ∈ tags, t.kind = .delta) :
    anchored? tags = none := by
  have hdrop : tags.reverse.dropWhile (fun t => t.kind == .delta) = [] := by
    simpa [List.dropWhile_eq_nil_iff] using h
  simp [anchored?, hdrop]

theorem deltas_or_anchors (tags : List TimeTag) :
    (∀ t ∈ tags, t.kind = .delta) ∨ ∃ a after, Anchors tags a after := by
  induction tags using List.reverseRecOn with
  | nil => exact .inl (by simp)
  | append_singleton tags t ih =>
    by_cases ht : t.kind = .delta
    · rcases ih with hdeltas | ⟨a, after, ⟨before, rfl⟩, ha, hafter⟩
      · exact .inl (by simpa [or_imp, forall_and, ht] using hdeltas)
      · refine .inr ⟨a, after ++ [t], ⟨before, by simp⟩, ha, ?_⟩
        simpa [or_imp, forall_and, ht] using hafter
    · exact .inr ⟨t, [], ⟨tags, rfl⟩, ht, by simp⟩

theorem anchored?_of_anchors {tags after : List TimeTag} (h : Anchors tags a after) :
    anchored? tags = some ⟨a, if a.kind = .base then after.getLast? else none⟩ := by
  obtain ⟨⟨before, rfl⟩, ha, hafter⟩ := h
  have hdrop : (before ++ a :: after).reverse.dropWhile (fun t => t.kind == .delta) =
      a :: before.reverse := by
    have hdeltas : after.reverse.dropWhile (fun t => t.kind == .delta) = [] := by
      simpa [List.dropWhile_eq_nil_iff] using hafter
    simp [List.dropWhile_append, hdeltas, ha]
  have hlast : (before ++ a :: after).reverse.head?.filter (·.kind == .delta) =
      after.getLast? := by
    rcases List.eq_nil_or_concat after with rfl | ⟨ds, d, rfl⟩
    · simp [ha]
    · simp [hafter d (by simp)]
  simp only [anchored?, hdrop, hlast]

theorem resolve_congr {s t : List TimeTag} (h : anchored? s = anchored? t) :
    resolve s f = resolve t f := by
  simp only [resolve, h]

theorem anchors_singleton (ha : a.kind ≠ .delta) : Anchors [a] a [] :=
  ⟨⟨[], rfl⟩, ha, by simp⟩

theorem anchors_pair (ha : a.kind ≠ .delta) (hd : d.kind = .delta) : Anchors [a, d] a [d] :=
  ⟨⟨[], rfl⟩, ha, by simpa using hd⟩

theorem Anchors.last {tags after : List TimeTag} (h : Anchors tags a after) :
    Anchors (a :: after.getLast?.toList) a after.getLast?.toList :=
  ⟨⟨[], rfl⟩, h.anchor, fun t ht => h.deltas t (List.mem_of_getLast? (Option.mem_toList.mp ht))⟩

theorem resolve_of_absolute {tags after : List TimeTag} (h : Anchors tags a after)
    (ha : a.kind = .absolute) : resolve tags f = resolve [a] f := by
  apply resolve_congr
  simp [anchored?_of_anchors h, anchored?_of_anchors (anchors_singleton h.anchor), ha]

theorem resolve_eq_of_last {tags after : List TimeTag} (h : Anchors tags a after) :
    resolve tags f = resolve (a :: after.getLast?.toList) f := by
  apply resolve_congr
  rw [anchored?_of_anchors h, anchored?_of_anchors h.last]
  cases after.getLast? <;> simp

/-- The clock a tag tells: as it was read, rounded where the tag is wider than the format, or from
seconds. -/
inductive TellsClock (f : ClockFormat) (t : TimeTag) : Clock → Prop
  | read {c} : t.value = .clock c → t.bits ≤ f.totalBits → TellsClock f t c
  | rounded {c} : t.value = .clock c → f.totalBits < t.bits → TellsClock f t (c.roundFine f)
  | seconds {x} : t.value = .seconds x → TellsClock f t (.ofSeconds x f)

inductive TellsEpoch (n : Nat) : TimeUnit → Epoch → Prop
  | milliseconds : TellsEpoch n .milliseconds (.ofUnixMilliseconds (.ofNat n))
  | microseconds : TellsEpoch n .microseconds (.ofUnixMilliseconds (.ofNat n / .ofNat 1000))

inductive TellsTime (f : ClockFormat) (t : TimeTag) : ProductTime → Prop
  | clock {c} : TellsClock f t c → TellsTime f t (.clock c)
  | receive {n e} : t.value = .count n → TellsEpoch n t.unit e → TellsTime f t (.receive e)

/-- A base and a delta make a time. Milliseconds whose product with the fine ticks of a second takes
more than 64 bits are `wrapped`, and come out too few. -/
inductive Combines (f : ClockFormat) (a d : TimeTag) : ProductTime → Prop
  | clocks {x y z} : TellsClock f a x → TellsClock f d y →
      z.ticks f = x.ticks f + y.ticks f → z.fine ≤ f.maxFine → Combines f a d (.clock z)
  | millis {x m z} : TellsClock f a x → d.value = .count m → d.unit = .milliseconds →
      m % 1000 * f.modulus < 2 ^ 64 →
      z.ticks f = x.ticks f + m * f.modulus / 1000 → z.fine ≤ f.maxFine →
      Combines f a d (.clock z)
  | wrapped {x m z} : TellsClock f a x → d.value = .count m → d.unit = .milliseconds →
      2 ^ 64 ≤ m % 1000 * f.modulus →
      z.ticks f = x.ticks f + m / 1000 * f.modulus + m % 1000 * f.modulus % 2 ^ 64 / 1000 →
      z.fine ≤ f.maxFine → Combines f a d (.clock z)
  | receive {n e m} : a.value = .count n → TellsEpoch n a.unit e →
      d.value = .count m → d.unit = .milliseconds →
      Combines f a d (.receive (e.add (.ofMilliseconds (.ofNat m))))

theorem epoch?_eq_some_iff {u : TimeUnit} {n : Nat} {e : Epoch} :
    u.epoch? n = some e ↔ TellsEpoch n u e := by
  constructor
  · intro h
    cases u with
    | clock => cases h
    | milliseconds =>
      cases h
      exact .milliseconds
    | microseconds =>
      cases h
      exact .microseconds
  · rintro (_ | _) <;> rfl

theorem clock?_eq_some_iff {t : TimeTag} {c : Clock} :
    t.clock? f = some c ↔ TellsClock f t c := by
  constructor
  · intro h
    cases hv : t.value with
    | clock x =>
      rw [TimeTag.clock?, hv] at h
      simp only [TimeTag.reduced, Option.some_inj] at h
      subst h
      split
      · exact .rounded hv ‹_›
      · exact .read hv (by omega)
    | count n => simp [TimeTag.clock?, hv] at h
    | seconds x =>
      rw [TimeTag.clock?, hv, Option.some_inj] at h
      exact h ▸ .seconds hv
  · rintro (⟨hv, hbits⟩ | ⟨hv, hbits⟩ | hv)
    · simp [TimeTag.clock?, hv, TimeTag.reduced, Nat.not_lt.mpr hbits]
    · simp [TimeTag.clock?, hv, TimeTag.reduced, hbits]
    · simp [TimeTag.clock?, hv]

theorem millis?_eq_some_iff {t : TimeTag} {m : Nat} :
    t.millis? = some m ↔ t.value = .count m ∧ t.unit = .milliseconds := by
  unfold TimeTag.millis?
  split <;> simp_all

theorem time?_eq_some_iff {t : TimeTag} {time : ProductTime} :
    t.time? f = some time ↔ TellsTime f t time := by
  constructor
  · intro h
    cases hv : t.value with
    | count n =>
      simp only [TimeTag.time?, hv, Option.map_eq_some_iff] at h
      obtain ⟨e, he, rfl⟩ := h
      exact .receive hv (epoch?_eq_some_iff.mp he)
    | clock _ | seconds _ =>
      simp only [TimeTag.time?, hv, Option.map_eq_some_iff] at h
      obtain ⟨c, hc, rfl⟩ := h
      exact .clock (clock?_eq_some_iff.mp hc)
  · rintro (hc | ⟨hv, he⟩)
    · have := clock?_eq_some_iff.mpr hc
      cases hc <;> simp_all [TimeTag.time?]
    · simp [TimeTag.time?, hv, epoch?_eq_some_iff.mpr he]

theorem TellsTime.unique {t : TimeTag} {x y : ProductTime} (hx : TellsTime f t x)
    (hy : TellsTime f t y) : x = y :=
  Option.some_inj.mp ((time?_eq_some_iff.mpr hx).symm.trans (time?_eq_some_iff.mpr hy))

theorem TellsClock.value_ne_count {t : TimeTag} {c : Clock} (h : TellsClock f t c) (n : Nat) :
    t.value ≠ .count n := by
  cases h <;> simp_all

theorem combines_of_millisTicks {x z : Clock} {m : Nat} (hx : TellsClock f a x)
    (hm : d.value = .count m) (hunit : d.unit = .milliseconds)
    (hticks : z.ticks f = x.ticks f + Clock.millisTicks m f) (hfine : z.fine ≤ f.maxFine) :
    Combines f a d (.clock z) := by
  by_cases hlt : m % 1000 * f.modulus < 2 ^ 64
  · rw [Clock.millisTicks_eq_iff.mpr hlt] at hticks
    exact .millis hx hm hunit hlt hticks hfine
  · rw [Clock.millisTicks, ← Nat.add_assoc] at hticks
    exact .wrapped hx hm hunit (Nat.not_lt.mp hlt) hticks hfine

theorem combines_of_clock {x : Clock} (hx : TellsClock f a x) {time : ProductTime} :
    Combines f a d time ↔
      (∃ y, d.clock? f = some y ∧ .clock (x.add y f) = time) ∨
        ∃ m, d.millis? = some m ∧ .clock (x.addMillis m f) = time := by
  constructor
  · rintro (⟨hx', hy, hticks, hfine⟩ | ⟨hx', hm, hunit, hlt, hticks, hfine⟩ |
      ⟨hx', hm, hunit, -, hticks, hfine⟩ | ⟨hn, -, -, -⟩)
    · obtain ⟨rfl⟩ := (TellsTime.clock hx).unique (.clock hx')
      exact .inl ⟨_, clock?_eq_some_iff.mpr hy, by rw [Clock.eq_add_iff.mpr ⟨hticks, hfine⟩]⟩
    · obtain ⟨rfl⟩ := (TellsTime.clock hx).unique (.clock hx')
      rw [← Clock.millisTicks_eq_iff.mpr hlt] at hticks
      exact .inr ⟨_, millis?_eq_some_iff.mpr ⟨hm, hunit⟩,
        by rw [Clock.eq_addMillis_iff.mpr ⟨hticks, hfine⟩]⟩
    · obtain ⟨rfl⟩ := (TellsTime.clock hx).unique (.clock hx')
      rw [Nat.add_assoc] at hticks
      exact .inr ⟨_, millis?_eq_some_iff.mpr ⟨hm, hunit⟩,
        by rw [Clock.eq_addMillis_iff.mpr ⟨hticks, hfine⟩]⟩
    · exact absurd hn (hx.value_ne_count _)
  · rintro (⟨y, hy, rfl⟩ | ⟨m, hm, rfl⟩)
    · obtain ⟨hticks, hfine⟩ := Clock.eq_add_iff.mp (rfl : x.add y f = _)
      exact .clocks hx (clock?_eq_some_iff.mp hy) hticks hfine
    · obtain ⟨hcount, hunit⟩ := millis?_eq_some_iff.mp hm
      obtain ⟨hticks, hfine⟩ := Clock.eq_addMillis_iff.mp (rfl : x.addMillis m f = _)
      exact combines_of_millisTicks hx hcount hunit hticks hfine

theorem combines_of_receive {e : Epoch} (he : TellsTime f a (.receive e)) {time : ProductTime} :
    Combines f a d time ↔
      ∃ m, d.millis? = some m ∧ .receive (e.add (.ofMilliseconds (.ofNat m))) = time := by
  constructor
  · rintro (⟨hx, -, -, -⟩ | ⟨hx, -, -, -, -, -⟩ | ⟨hx, -, -, -, -, -⟩ | ⟨hn, he', hm, hunit⟩)
    · cases he.unique (.clock hx)
    · cases he.unique (.clock hx)
    · cases he.unique (.clock hx)
    · obtain ⟨rfl⟩ := he.unique (.receive hn he')
      exact ⟨_, millis?_eq_some_iff.mpr ⟨hm, hunit⟩, rfl⟩
  · rintro ⟨m, hm, rfl⟩
    obtain ⟨hcount, hunit⟩ := millis?_eq_some_iff.mp hm
    cases he with
    | receive hn he => exact .receive hn he hcount hunit

theorem millis?_eq_none_of_clock? {t : TimeTag} {c : Clock} (h : t.clock? f = some c) :
    t.millis? = none := by
  by_contra hm
  obtain ⟨m, hm⟩ := Option.ne_none_iff_exists'.mp hm
  exact (clock?_eq_some_iff.mp h).value_ne_count m (millis?_eq_some_iff.mp hm).1

theorem later?_eq_some_iff {base time : ProductTime} (hbase : TellsTime f a base) :
    base.later? d f = some time ↔ Combines f a d time := by
  cases base with
  | clock x =>
    cases hbase with
    | clock hx =>
      rw [combines_of_clock hx]
      cases hd : d.clock? f with
      | some y => simp [later?, hd, millis?_eq_none_of_clock? hd]
      | none => cases hm : d.millis? <;> simp [later?, hd, hm]
  | receive e =>
    rw [combines_of_receive hbase]
    cases hm : d.millis? with
    | none => cases hd : d.clock? f <;> simp [later?, hd, hm]
    | some m =>
      have hd : d.clock? f = none := by
        by_contra hd
        obtain ⟨c, hd⟩ := Option.ne_none_iff_exists'.mp hd
        simp [millis?_eq_none_of_clock? hd] at hm
      simp [later?, hd, hm]

structure Alone (f : ClockFormat) (a : TimeTag) : Prop where
  timed : ∀ time, resolve [a] f = .ok (some time) ↔ TellsTime f a time
  untimed : resolve [a] f = .ok none ↔ ∀ time, ¬ TellsTime f a time
  accepted : ∀ e, resolve [a] f ≠ .error e

structure Paired (f : ClockFormat) (a d : TimeTag) : Prop where
  timed : ∀ time, resolve [a, d] f = .ok (some time) ↔ Combines f a d time
  untimed : resolve [a, d] f = .ok none ↔ ∀ time, ¬ TellsTime f a time
  refused : ∀ e, resolve [a, d] f = .error e ↔
    e = ⟨a.describe, d.describe⟩ ∧ (∃ time, TellsTime f a time) ∧ ∀ time, ¬ Combines f a d time

theorem resolve_singleton (ha : a.kind ≠ .delta) : resolve [a] f = .ok (a.time? f) := by
  simp only [resolve, anchored?_of_anchors (anchors_singleton ha)]
  cases a.time? f <;> simp

theorem alone (ha : a.kind ≠ .delta) : Alone f a where
  timed time := by simp [resolve_singleton ha, time?_eq_some_iff]
  untimed := by
    simp [resolve_singleton ha, ← time?_eq_some_iff, Option.eq_none_iff_forall_ne_some]
  accepted e := by simp [resolve_singleton ha]

theorem resolve_pair (ha : a.kind = .base) (hd : d.kind = .delta) :
    resolve [a, d] f =
      match a.time? f with
      | none => .ok none
      | some time =>
        match time.later? d f with
        | some later => .ok (some later)
        | none => .error ⟨a.describe, d.describe⟩ := by
  have hne : a.kind ≠ .delta := by simp [ha]
  simp only [resolve, anchored?_of_anchors (anchors_pair hne hd), ha, if_true,
    List.getLast?_singleton]
  cases a.time? f <;> rfl

theorem Combines.timed {time : ProductTime} (h : Combines f a d time) :
    ∃ base, TellsTime f a base := by
  rcases h with ⟨hx, -, -, -⟩ | ⟨hx, -, -, -, -, -⟩ | ⟨hx, -, -, -, -, -⟩ | ⟨hn, he, -, -⟩
  · exact ⟨_, .clock hx⟩
  · exact ⟨_, .clock hx⟩
  · exact ⟨_, .clock hx⟩
  · exact ⟨_, .receive hn he⟩

theorem paired (ha : a.kind = .base) (hd : d.kind = .delta) : Paired f a d := by
  cases hbase : a.time? f with
  | none =>
    have hnone (time) : ¬ TellsTime f a time := by simp [← time?_eq_some_iff, hbase]
    have hno (time) : ¬ Combines f a d time := fun h => h.timed.elim hnone
    constructor <;> simp [resolve_pair ha hd, hbase, hnone, hno]
  | some base =>
    have ht := time?_eq_some_iff.mp hbase
    have hsome : ∃ time, TellsTime f a time := ⟨base, ht⟩
    have hcombines (time) : Combines f a d time ↔ base.later? d f = some time :=
      (later?_eq_some_iff ht).symm
    cases hlater : base.later? d f <;>
      constructor <;>
      simp [resolve_pair ha hd, hbase, hlater, hcombines, hsome, eq_comm]

namespace WideBase

def format : ClockFormat := ⟨32, 8⟩

def base : TimeTag := ⟨.base, .clock ⟨7, 12345⟩, .clock, 64⟩

def delta : TimeTag := ⟨.delta, .clock ⟨1, 200⟩, .clock, 40⟩

end WideBase

end ProductTime
end Telemetry
