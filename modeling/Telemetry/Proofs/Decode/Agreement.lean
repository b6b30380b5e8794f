import Mathlib.Data.List.Forall2
import Telemetry.Proofs.Decode.Views

/-!
Steps that agree. Two steps may tell different things in different words and still leave the same
states and come to the same in what is looked at; then so do the runs that are made of them.
-/

namespace Telemetry.Decode

open Layout (Scalar BitField Window Field Series)

variable {α β γ δ : Type}

/-- Both steps leave the same state, and what they tell comes to the same through `r` and `q`. -/
def Step.Agrees (r : α → Option γ) (q : β → Option γ) (a : Step α) (b : Step β) : Prop :=
  ∀ s, (a s).state = (b s).state ∧ (a s).items.filterMap r = (b s).items.filterMap q

namespace Step

def withinData : List (Step α) → Step α
  | [] => tell []
  | step :: steps => whereData [] (step.andThen (withinData steps))

variable {r : α → Option γ} {q : β → Option γ} {p : δ → Option γ}
variable {a a' : Step α} {b b' : Step β} {c : Step δ}

theorem Agrees.symm (h : a.Agrees r q b) : b.Agrees q r a := fun s =>
  ⟨(h s).1.symm, (h s).2.symm⟩

theorem Agrees.trans (h : a.Agrees r q b) (h' : b.Agrees q p c) : a.Agrees r p c := fun s =>
  ⟨(h s).1.trans (h' s).1, (h s).2.trans (h' s).2⟩

theorem agrees_tell {xs : List α} {ys : List β} (h : xs.filterMap r = ys.filterMap q) :
    (tell xs).Agrees r q (tell ys) := fun _ => ⟨rfl, h⟩

theorem Agrees.andThen (h : a.Agrees r q b) (h' : a'.Agrees r q b') :
    (a.andThen a').Agrees r q (b.andThen b') := by
  intro s
  obtain ⟨hs, hi⟩ := h s
  obtain ⟨hs', hi'⟩ := h' (b s).state
  simp only [Step.andThen, List.filterMap_append, hs, hi]
  exact ⟨hs', by rw [hi']⟩

theorem Agrees.whereData (h : a.Agrees r q b) {xs : List α} {ys : List β}
    (hx : xs.filterMap r = ys.filterMap q) : (a.whereData xs).Agrees r q (b.whereData ys) := by
  intro s
  unfold Step.whereData
  split
  next => exact h s
  next => exact ⟨rfl, hx⟩

theorem agrees_between (a : Step α) {opening closing : List α} (ho : opening.filterMap r = [])
    (hc : closing.filterMap r = []) :
    ((tell opening).andThen (a.andThen (tell closing))).Agrees r r a := by
  intro s
  simp [Step.andThen, tell, ho, hc]

theorem Agrees.mapItems {r' : δ → Option γ} (h : a.Agrees r q b) {f : List α → List δ}
    (hf : ∀ s, (f (a s).items).filterMap r' = (a s).items.filterMap r) :
    (a.mapItems f).Agrees r' q b := fun s => ⟨(h s).1, (hf s).trans (h s).2⟩

theorem agrees_sequence {as : List (Step α)} {bs : List (Step β)}
    (h : List.Forall₂ (Agrees r q) as bs) : (sequence as).Agrees r q (sequence bs) := by
  induction h with
  | nil => exact agrees_tell rfl
  | cons h _ ih => exact h.andThen ih

theorem agrees_whileData {cut : Nat → α} {cut' : Nat → β} (hc : ∀ n, r (cut n) = q (cut' n))
    {as : List (Step α)} {bs : List (Step β)} (h : List.Forall₂ (Agrees r q) as bs) :
    (whileData cut as).Agrees r q (whileData cut' bs) := by
  induction h with
  | nil => exact agrees_tell rfl
  | @cons a b as bs h hs ih =>
    apply (h.andThen ih).whereData
    simp only [List.filterMap_cons, List.filterMap_nil, hc, hs.length_eq]

theorem agrees_withinData {cut : Nat → α} (hc : ∀ n, r (cut n) = none) {as : List (Step α)}
    {bs : List (Step β)} (h : List.Forall₂ (Agrees r q) as bs) :
    (whileData cut as).Agrees r q (withinData bs) := by
  induction h with
  | nil => exact agrees_tell rfl
  | @cons a b as bs h _ ih =>
    apply (h.andThen ih).whereData
    rw [List.filterMap_cons_none (hc _)]
    rfl

end Step

namespace Laps

variable {r : α → Option γ} {q : β → Option γ} {lap : Nat → Step α} {lap' : Nat → Step β}

theorem agrees_counted (h : ∀ index, (lap index).Agrees r q (lap' index)) (count index : Nat)
    (s : State) : (counted lap count index s).state = (counted lap' count index s).state ∧
      (counted lap count index s).runs.flatten.filterMap r =
        (counted lap' count index s).runs.flatten.filterMap q := by
  induction count generalizing index s with
  | zero => exact ⟨rfl, rfl⟩
  | succ count ih =>
    obtain ⟨hs, hi⟩ := h index s
    obtain ⟨hs', hi'⟩ := ih (index + 1) (lap' index s).state
    rw [counted, counted]
    split
    next =>
      simp only [first, List.flatten_cons, List.filterMap_append, hs, hi]
      exact ⟨hs', by rw [hi']⟩
    next => exact ⟨rfl, rfl⟩

theorem agrees_untilExhausted (h : ∀ index, (lap index).Agrees r q (lap' index)) (index : Nat)
    (s : State) : (untilExhausted lap index s).state = (untilExhausted lap' index s).state ∧
      (untilExhausted lap index s).runs.flatten.filterMap r =
        (untilExhausted lap' index s).runs.flatten.filterMap q := by
  fun_induction untilExhausted lap index s with
  | case1 index s hm y hless ih =>
    obtain ⟨hs, hi⟩ := h index s
    have hless' : (lap' index s).state.remaining < s.remaining := hs ▸ hless
    rw [untilExhausted_of_lt hm hless']
    simp only [first, List.flatten_cons, List.filterMap_append, ← hs, ← hi]
    exact ⟨ih.1, by rw [ih.2]⟩
  | case2 index s hm y hless =>
    obtain ⟨hs, hi⟩ := h index s
    have hless' : ¬(lap' index s).state.remaining < s.remaining := hs ▸ hless
    rw [untilExhausted_of_stalled hm hless']
    simpa using ⟨hs, hi⟩
  | case3 index s hm =>
    rw [untilExhausted_of_no_more (Bool.eq_false_iff.mpr hm)]
    exact ⟨rfl, rfl⟩

theorem agrees_run (h : ∀ index, (lap index).Agrees r q (lap' index)) (count : Option Nat)
    (s : State) : (run lap count s).state = (run lap' count s).state ∧
      (run lap count s).runs.flatten.filterMap r =
        (run lap' count s).runs.flatten.filterMap q := by
  cases count with
  | none => exact agrees_untilExhausted h 0 s
  | some n => exact agrees_counted h n 0 s

end Laps

theorem forall₂_map_map {ι κ κ' : Type} {R : κ → κ' → Prop} {f : ι → κ} {g : ι → κ'} {xs : List ι}
    (h : ∀ x ∈ xs, R (f x) (g x)) : List.Forall₂ R (xs.map f) (xs.map g) := by
  rw [List.forall₂_map_left_iff, List.forall₂_map_right_iff, List.forall₂_same]
  exact h

def Reading.through (q : Item → Option γ) (r : Reading) : Option Value × State × List γ :=
  (r.dn, r.state, r.items.filterMap q)

section Readings

variable {q q' : Item → Option γ}

theorem Scan.through_reading {c : Scan} (hn : ∀ notices : List Notice,
      (notices.map Item.notice).filterMap q = (notices.map Item.notice).filterMap q')
    {channels channels' : Bool} {id : Nat} {s s' : Scalar}
    (h : ∀ bytes, (readLeaf channels id s bytes c.past).through q =
      (readLeaf channels' id s' bytes c.past).through q') :
    (c.reading channels id s).through q = (c.reading channels' id s').through q' := by
  unfold Scan.reading
  split
  next => simp only [Reading.through, hn]
  next bytes _ =>
    have hl := h bytes
    simp only [Reading.through, Prod.mk.injEq, List.filterMap_append, hn] at hl ⊢
    simp only [hl, and_self]

theorem readLeaf_attrs (hr : ∀ id s dn, q (.reading id s dn) = none) {s : Scalar} {a : Attributes}
    (hu : a.unit = s.attrs.unit) (channels : Bool) (id : Nat) (bytes : List UInt8) (past : State) :
    (readLeaf channels id { s with attrs := a } bytes past).through q =
      (readLeaf channels id s bytes past).through q := by
  have ht : effectiveType { s with attrs := a } = effectiveType s := rfl
  have ho : offer { s with attrs := a } = offer s := by
    funext dn
    simp only [offer, tagValue?, hu]
  simp only [readLeaf, ht, ho, hu]
  split
  next => rfl
  next => rfl
  next => simp only [Reading.through, List.filterMap_cons, hr]

theorem readScalar_attrs (hr : ∀ id s dn, q (.reading id s dn) = none) {s : Scalar} {a : Attributes}
    (hu : a.unit = s.attrs.unit) (channels : Bool) (id : Nat) (st : State) :
    (readScalar channels id { s with attrs := a } st).through q =
      (readScalar channels id s st).through q := by
  have hs : scan { s with attrs := a } st = scan s st := rfl
  rw [readScalar_eq_reading, readScalar_eq_reading, hs]
  exact Scan.through_reading (fun _ => rfl) fun bytes => readLeaf_attrs hr hu channels id bytes _

end Readings

theorem state_readBits (w : Window) (bits : List BitField) (st : State) :
    (readBits w bits st).state = st.advance w.byteLen := by
  unfold readBits
  split <;> rfl

theorem readCount_congr {s s' : Series} {es es' : List Field} (hl : s'.length = s.length)
    (hn : s'.name = s.name) (hs : Field.sizes es' = Field.sizes es) (st : State) :
    readCount s' es' st = readCount s es st := by
  simp only [readCount, elementsIn, hl, hn, hs]

theorem isPadding_map {g : Field → Field} (hg : ∀ f, (g f).name = f.name) (fs : List Field) :
    isPadding (fs.map g) = isPadding fs := by
  match fs with
  | [] | _ :: _ :: _ => rfl
  | [f] => simp only [List.map_singleton, isPadding, hg]

end Telemetry.Decode
