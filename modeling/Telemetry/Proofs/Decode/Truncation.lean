import Telemetry.Proofs.Decode.Locality
import Telemetry.Proofs.Decode.Views

/-!
Steps over data that ends early. What such a step has shown by then is the beginning of what it
shows of more data, and from there on nothing is shown.
-/

namespace Telemetry

namespace Decode

open Bytes (Cursor)

def State.extend (s : State) (more : List UInt8) : State := s.onto (s.cursor.rest ++ more)

theorem State.remaining_extend (s : State) (more : List UInt8) :
    (s.extend more).remaining = s.remaining + more.length := by
  rw [extend, remaining_onto, List.length_append, State.remaining, s.cursor.remaining_eq]

theorem State.hasMore_extend {s : State} (h : s.hasMore = true) (more : List UInt8) :
    (s.extend more).hasMore = true := by
  rw [hasMore_iff] at h ⊢
  rw [remaining_extend]
  omega

theorem State.take_extend {s : State} {n : Nat} (h : n ≤ s.remaining) (more : List UInt8) :
    (s.extend more).cursor.rest.take n = s.cursor.rest.take n :=
  List.take_append_of_le_length (s.cursor.remaining_eq ▸ h)

theorem State.advance_extend {s : State} {n : Nat} (h : n ≤ s.remaining) (more : List UInt8) :
    (s.extend more).advance n = (s.advance n).extend more := by
  have hc : (s.cursor.onto (s.cursor.rest ++ more)).advance n =
      (s.cursor.advance n).onto ((s.cursor.rest.drop n) ++ more) := by
    have hr := s.cursor.remaining_eq
    rw [State.remaining] at h
    apply Cursor.eq_of_offset_of_rest
    · simp only [Cursor.offset_advance, Cursor.offset_onto, Cursor.remaining_onto,
        List.length_append]
      omega
    · exact List.drop_append_of_le_length (hr ▸ h)
  exact congrArg (State.mk · s.remembered) hc

theorem Local.remaining_eq_zero {β : Type} {out : State → β} {next : State → State}
    (h : Local out next) {s : State} (hs : s.remaining = 0) : (next s).remaining = 0 := by
  obtain ⟨n, hn⟩ := h.forward s
  rw [State.remaining] at hs ⊢
  rw [hn, Cursor.remaining_advance, hs, Nat.zero_sub]

theorem Local.extend {β : Type} {out : State → β} {next : State → State} (h : Local out next)
    {s : State} (hr : (next s).remaining ≠ 0) (more : List UInt8) :
    out (s.extend more) = out s ∧ next (s.extend more) = (next s).extend more := by
  obtain ⟨n, hn⟩ := h.forward s
  have hrest : (next s).cursor.rest = s.cursor.rest.drop n := congrArg Cursor.rest hn
  have hleft : s.cursor.rest.drop n ≠ [] := by
    rw [← hrest]
    exact mt (Cursor.remaining_eq_zero_iff _).mpr hr
  have hb := h.blind s (s.cursor.rest.take n) (s.cursor.rest.drop n)
    (s.cursor.rest.drop n ++ more) hleft (by simp [hleft])
  rw [← List.append_assoc, List.take_append_drop, State.onto_eq_self rfl] at hb
  have hs := hb hrest
  rw [← hrest] at hs
  exact hs

/-- What the step shows, as `r` picks it from all that it tells, may be cut short. Where it comes to
the end of the data it has shown the beginning of what it would show of more, and where there is no
data it shows nothing. -/
structure Step.Truncates {α : Type} (r : α → Option Item) (step : Step α) : Prop where
  isLocal : step.Local
  silent : ∀ s : State, s.remaining = 0 → (step s).items.filterMap r = []
  cut : ∀ (s : State) more, (step s).state.remaining = 0 →
    (step s).items.filterMap r <+: (step (s.extend more)).items.filterMap r

namespace Step

variable {α β : Type} {r : α → Option Item} {a b : Step α}

theorem truncates_of_silent (hl : a.Local) (h : ∀ s, (a s).items.filterMap r = []) :
    a.Truncates r where
  isLocal := hl
  silent s _ := h s
  cut s more _ := by
    rw [h]
    exact List.nil_prefix

theorem truncates_tell {items : List α} (h : items.filterMap r = []) :
    (tell items).Truncates r := truncates_of_silent (local_tell items) fun _ => h

theorem truncates_of_read {n : Nat} (hn : 0 < n) (hl : a.Local)
    (hshort : ∀ s : State, s.remaining < n → (a s).items.filterMap r = [])
    (hwhole : ∀ (s : State) more, n ≤ s.remaining →
      (a (s.extend more)).items.filterMap r = (a s).items.filterMap r) : a.Truncates r where
  isLocal := hl
  silent s hs := hshort s (by omega)
  cut s more _ := by
    by_cases hs : n ≤ s.remaining
    · simp only [hwhole s more hs, List.prefix_rfl]
    · rw [hshort s (by omega)]
      exact List.nil_prefix

theorem Truncates.congr {r' : β → Option Item} {a' : Step β} (h : a.Truncates r) (hl : a'.Local)
    (hi : ∀ s, (a' s).items.filterMap r' = (a s).items.filterMap r)
    (hs : ∀ s, (a' s).state = (a s).state) : a'.Truncates r' where
  isLocal := hl
  silent s hz := by
    rw [hi]
    exact h.silent s hz
  cut s more hz := by
    rw [hs] at hz
    rw [hi, hi]
    exact h.cut s more hz

theorem Truncates.andThen (ha : a.Truncates r) (hb : b.Truncates r) :
    (a.andThen b).Truncates r where
  isLocal := ha.isLocal.andThen hb.isLocal
  silent s hs := by
    have hz := ha.isLocal.remaining_eq_zero hs
    simp only [Step.andThen, List.filterMap_append, ha.silent s hs, hb.silent _ hz,
      List.append_nil]
  cut s more hz := by
    simp only [Step.andThen, List.filterMap_append] at hz ⊢
    by_cases hm : (a s).state.remaining = 0
    · -- the first step comes to the end, and the second shows nothing from there
      rw [hb.silent _ hm, List.append_nil]
      exact (ha.cut s more hm).trans (List.prefix_append _ _)
    · obtain ⟨hi, hs⟩ := ha.isLocal.extend hm more
      rw [hi, hs]
      exact List.prefix_append_right_inj _ |>.mpr (hb.cut _ more hz)

theorem Truncates.between (ha : a.Truncates r) {opening closing : List α}
    (ho : opening.filterMap r = []) (hc : closing.filterMap r = []) :
    ((tell opening).andThen (a.andThen (tell closing))).Truncates r :=
  (truncates_tell ho).andThen (ha.andThen (truncates_tell hc))

theorem Truncates.whereData (ha : a.Truncates r) {items : List α} (hi : items.filterMap r = []) :
    (a.whereData items).Truncates r where
  isLocal := ha.isLocal.whereData items
  silent s hz := by
    rw [Step.whereData, if_neg (by simp [(State.hasMore_eq_false_iff s).mpr hz])]
    exact hi
  cut s more hz := by
    rw [Step.whereData] at hz ⊢
    split at hz
    next hm =>
      rw [if_pos hm, Step.whereData, if_pos (State.hasMore_extend hm more)]
      exact ha.cut s more hz
    next hm =>
      rw [if_neg hm, hi]
      exact List.nil_prefix

theorem truncates_bind {γ : Type} {out : State → γ} {next : State → State}
    (h : Decode.Local out next) {body : γ → Step α} (hb : ∀ c, (body c).Truncates r) :
    Step.Truncates r fun s => body (out s) (next s) where
  isLocal := (Decode.Local.bind h fun c => (hb c).isLocal).map Prod.snd
  silent s hz := (hb _).silent _ (h.remaining_eq_zero hz)
  cut s more hz := by
    by_cases hm : (next s).remaining = 0
    · rw [(hb _).silent _ hm]
      exact List.nil_prefix
    · obtain ⟨ho, hs⟩ := h.extend hm more
      rw [ho, hs]
      exact (hb _).cut _ more hz

theorem truncates_sequence {steps : List (Step α)} (h : ∀ a ∈ steps, a.Truncates r) :
    (sequence steps).Truncates r := sequence_of_forall (truncates_tell rfl) .andThen h

theorem truncates_whileData {cut : Nat → α} {steps : List (Step α)} (hc : ∀ n, r (cut n) = none)
    (h : ∀ a ∈ steps, a.Truncates r) : (whileData cut steps).Truncates r :=
  whileData_of_forall (truncates_tell rfl) .andThen
    (fun n ha => ha.whereData (by rw [List.filterMap_cons_none (hc n), List.filterMap_nil])) h

end Step

namespace Laps

variable {α : Type} {r : α → Option Item} {lap : Nat → Step α}

def step (lap : Nat → Step α) (count : Option Nat) : Step α := fun s =>
  ⟨(run lap count s).runs.flatten, (run lap count s).state⟩

theorem truncates_counted (h : ∀ index, (lap index).Truncates r) (count index : Nat) :
    Step.Truncates r fun s =>
      ⟨(counted lap count index s).runs.flatten, (counted lap count index s).state⟩ := by
  induction count generalizing index with
  | zero => exact Step.truncates_tell rfl
  | succ count ih =>
    have hl := local_counted (fun index => (h index).isLocal) (count + 1) index
    have hs := ((h index).andThen (ih (index + 1))).whereData (rfl : [].filterMap r = [])
    apply hs.congr (hl.map fun r => r.1.flatten)
    all_goals
      intro s
      rw [counted, Step.whereData]
      split <;> rfl

theorem truncates_untilExhausted (h : ∀ index, (lap index).Truncates r) (index : Nat) :
    Step.Truncates r fun s =>
      ⟨(untilExhausted lap index s).runs.flatten, (untilExhausted lap index s).state⟩ where
  isLocal := (local_untilExhausted (fun index => (h index).isLocal) index).map fun r => r.1.flatten
  silent s hz := by
    rw [untilExhausted_of_no_more ((State.hasMore_eq_false_iff s).mpr hz)]
    rfl
  cut s more hz := by
    fun_induction untilExhausted lap index s with
    | case1 index s hm y hless ih =>
      have hm' := State.hasMore_extend hm more
      simp only [first, List.flatten_cons, List.filterMap_append]
      by_cases hy : y.state.remaining = 0
      · -- nothing is left for another repetition, but with more data there may be one
        rw [untilExhausted_of_no_more ((State.hasMore_eq_false_iff _).mpr hy)]
        have hcut := (h index).cut s more hy
        by_cases hless' : (lap index (s.extend more)).state.remaining < (s.extend more).remaining
        · rw [untilExhausted_of_lt hm' hless']
          simp only [first, List.flatten_cons, List.filterMap_append]
          simpa using hcut.trans (List.prefix_append _ _)
        · rw [untilExhausted_of_stalled hm' hless']
          simpa using hcut
      · obtain ⟨hi, hs⟩ := (h index).isLocal.extend hy more
        have hless' : (lap index (s.extend more)).state.remaining < (s.extend more).remaining := by
          rw [hs, State.remaining_extend, State.remaining_extend]
          exact Nat.add_lt_add_right hless _
        rw [untilExhausted_of_lt hm' hless', hi, hs]
        simp only [first, List.flatten_cons, List.filterMap_append]
        exact (List.prefix_append_right_inj _).mpr (ih hz)
    | case2 index s hm y hless =>
      -- a repetition that takes nothing leaves the data there was
      have hend : y.state.remaining = 0 := hz
      rw [State.hasMore_iff] at hm
      omega
    | case3 index s hm => exact List.nil_prefix

theorem truncates_step (h : ∀ index, (lap index).Truncates r) (count : Option Nat) :
    (step lap count).Truncates r := by
  cases count with
  | none => exact truncates_untilExhausted h 0
  | some n => exact truncates_counted h n 0

end Laps

def Item.result? : Item → Option Item
  | .candidate c => some (.candidate c)
  | .event (.value name v unit) => some (.event (.value name v unit))
  | _ => none

def Piece.result? : Piece → Option Item
  | .item i => i.result?
  | .sample .. => none

theorem result?_eq_through : Piece.result? = Piece.through Item.result? := by
  funext a
  cases a <;> rfl

theorem filterMap_result?_notices (notices : List Notice) :
    (notices.map Item.notice).filterMap Item.result? = [] :=
  filterMap_notices (fun _ => rfl) notices

theorem filterMap_result?_pieces (items : List Item) :
    (items.map Piece.item).filterMap Piece.result? = items.filterMap Item.result? := by
  rw [result?_eq_through, filterMap_through_items]

theorem filterMap_result?_gatherLines (f : PrintFormat) (offset : Nat) (values : List Value)
    (pieces : List Piece) : (gatherLines f offset values pieces).filterMap Item.result? =
      pieces.filterMap Piece.result? := by
  rw [result?_eq_through, filterMap_through_gatherLines fun _ _ => rfl]

theorem Step.Truncates.lines {step : Step Piece} (h : step.Truncates Piece.result?)
    (f : PrintFormat) : (step.mapItems (lines f)).Truncates Item.result? :=
  h.congr (h.isLocal.mapItems _) (fun _ => filterMap_result?_gatherLines f 0 [] _) fun _ => rfl

theorem Step.Truncates.pieces {step : Step Item} (h : step.Truncates Item.result?) :
    (step.mapItems (·.map Piece.item)).Truncates Piece.result? :=
  h.congr (h.isLocal.mapItems _) (fun _ => filterMap_result?_pieces _) fun _ => rfl

end Decode
end Telemetry
