import Telemetry.Decode.Field

/-!
Decoding is local. What a part of a decode tells, and the place it leaves, depend only on the bytes
it passes, as long as some data is left behind them; and it never goes back.
-/

namespace Telemetry

namespace Bytes.Cursor

def onto (c : Cursor) (rest : List UInt8) : Cursor := { ofBytes rest with offset := c.offset }

@[simp] theorem offset_onto (c : Cursor) (rest : List UInt8) : (c.onto rest).offset = c.offset := rfl

@[simp] theorem rest_onto (c : Cursor) (rest : List UInt8) : (c.onto rest).rest = rest := rfl

@[simp] theorem remaining_onto (c : Cursor) (rest : List UInt8) :
    (c.onto rest).remaining = rest.length := rfl

theorem onto_eq_self {c : Cursor} {rest : List UInt8} (h : c.rest = rest) : c.onto rest = c :=
  eq_of_offset_of_rest rfl h.symm

theorem advance_onto_append (c : Cursor) (taken left left' : List UInt8) :
    (c.onto (taken ++ left')).advance taken.length =
      ((c.onto (taken ++ left)).advance taken.length).onto left' := by
  apply eq_of_offset_of_rest
  · simp only [offset_advance, offset_onto, remaining_onto, List.length_append]
    omega
  · simp only [rest_advance, rest_onto, List.drop_left]

theorem read_onto_append (c : Cursor) (taken left : List UInt8) :
    (c.onto (taken ++ left)).read taken.length =
      .ok (taken, (c.onto (taken ++ left)).advance taken.length) := by
  apply read_eq_ok_iff.mpr
  simp

theorem readNat_onto_append (c : Cursor) (taken left : List UInt8) :
    (c.onto (taken ++ left)).readNat taken.length =
      .ok (bigEndian taken, (c.onto (taken ++ left)).advance taken.length) := by
  apply readNat_eq_ok_iff.mpr
  simp

end Bytes.Cursor

namespace Decode

def State.onto (s : State) (rest : List UInt8) : State := { s with cursor := s.cursor.onto rest }

@[simp] theorem State.cursor_onto (s : State) (rest : List UInt8) :
    (s.onto rest).cursor = s.cursor.onto rest := rfl

@[simp] theorem State.remembered_onto (s : State) (rest : List UInt8) :
    (s.onto rest).remembered = s.remembered := rfl

@[simp] theorem State.remaining_onto (s : State) (rest : List UInt8) :
    (s.onto rest).remaining = rest.length := rfl

theorem State.onto_eq_self {s : State} {rest : List UInt8} (h : s.cursor.rest = rest) :
    s.onto rest = s := by
  obtain ⟨cursor, remembered⟩ := s
  exact congrArg (State.mk · remembered) (Bytes.Cursor.onto_eq_self h)

theorem State.hasMore_onto_append (s : State) (taken : List UInt8) {left : List UInt8}
    (h : left ≠ []) : (s.onto (taken ++ left)).hasMore = true := by
  rw [State.hasMore_iff, State.remaining_onto, List.length_append]
  have := List.length_pos_iff.mpr h
  omega

theorem eq_length_of_drop_append {taken left : List UInt8} {n : Nat} (hl : left ≠ [])
    (h : (taken ++ left).drop n = left) : n = taken.length := by
  have hp := List.length_pos_iff.mpr hl
  have hn := congrArg List.length h
  rw [List.length_drop, List.length_append] at hn
  omega

theorem exists_append_of_drop_drop {taken left : List UInt8} {m n : Nat}
    (h : ((taken ++ left).drop m).drop n = left) :
    ∃ first second, taken = first ++ second ∧ (taken ++ left).drop m = second ++ left := by
  have hs := List.take_append_drop n ((taken ++ left).drop m)
  rw [h] at hs
  refine ⟨(taken ++ left).take m, ((taken ++ left).drop m).take n, ?_, hs.symm⟩
  have hf := List.take_append_drop m (taken ++ left)
  rw [← hs, ← List.append_assoc] at hf
  exact (List.append_cancel_right hf).symm

/-- `out` is what a part of a decode gives and `next` is the state it leaves. It only moves forward,
and if it leaves data behind the bytes it takes, other data there changes nothing. -/
structure Local {β : Type} (out : State → β) (next : State → State) : Prop where
  forward : ∀ s, ∃ n, (next s).cursor = s.cursor.advance n
  blind : ∀ (s : State) taken left left', left ≠ [] → left' ≠ [] →
    (next (s.onto (taken ++ left))).cursor.rest = left →
    out (s.onto (taken ++ left')) = out (s.onto (taken ++ left)) ∧
      next (s.onto (taken ++ left')) = (next (s.onto (taken ++ left))).onto left'

namespace Local

variable {β γ : Type} {out : State → β} {next : State → State}

theorem advance (n : Nat) : Local (fun _ => ()) (State.advance · n) where
  forward s := ⟨n, rfl⟩
  blind s taken left left' hl _ h := by
    obtain rfl := eq_length_of_drop_append hl h
    refine ⟨rfl, ?_⟩
    exact congrArg (State.mk · s.remembered) (s.cursor.advance_onto_append taken left left')

theorem stay (b : β) : Local (fun _ => b) (fun s => s) where
  forward s := ⟨0, s.cursor.advance_zero.symm⟩
  blind s taken left left' hl _ h := by
    obtain rfl : taken = [] := by simpa using h
    exact ⟨rfl, rfl⟩

theorem remembered : Local State.remembered (fun s => s) where
  forward := (stay ()).forward
  blind s taken left left' hl hl' h := ⟨rfl, ((stay ()).blind s taken left left' hl hl' h).2⟩

theorem drain (h : ∀ s, ∃ n, (next s).cursor = s.cursor.advance n)
    (he : ∀ s, (next s).remaining = 0) : Local out next where
  forward := h
  blind s taken left left' hl _ hr := by
    have hz := (Bytes.Cursor.remaining_eq_zero_iff _).mp (he (s.onto (taken ++ left)))
    exact absurd (hr.symm.trans hz) hl

theorem map (h : Local out next) (f : β → γ) : Local (fun s => f (out s)) next where
  forward := h.forward
  blind s taken left left' hl hl' hr := by
    obtain ⟨ho, hn⟩ := h.blind s taken left left' hl hl' hr
    exact ⟨congrArg f ho, hn⟩

theorem congr {out' : State → β} {next' : State → State} (h : Local out next)
    (ho : ∀ s, out' s = out s) (hn : ∀ s, next' s = next s) : Local out' next' := by
  rw [funext ho, funext hn]
  exact h

theorem withOffsets (h : Local out next) :
    Local (fun s => (s.cursor.offset, out s, (next s).cursor.offset)) next where
  forward := h.forward
  blind s taken left left' hl hl' hr := by
    obtain ⟨ho, hn⟩ := h.blind s taken left left' hl hl' hr
    refine ⟨?_, hn⟩
    rw [ho, hn]
    rfl

theorem blind_before (h : Local out next) {s : State} {taken left left' : List UInt8} {n : Nat}
    (hl : left ≠ []) (hl' : left' ≠ [])
    (hn : ((next (s.onto (taken ++ left))).cursor.advance n).rest = left) :
    ∃ first second, taken = first ++ second ∧
      (next (s.onto (taken ++ left))).cursor.rest = second ++ left ∧
      out (s.onto (taken ++ left')) = out (s.onto (taken ++ left)) ∧
      next (s.onto (taken ++ left')) = (next (s.onto (taken ++ left))).onto (second ++ left') := by
  obtain ⟨m, hm⟩ := h.forward (s.onto (taken ++ left))
  rw [hm] at hn ⊢
  obtain ⟨first, second, rfl, hmid⟩ := exists_append_of_drop_drop hn
  refine ⟨first, second, rfl, hmid, ?_⟩
  simp only [List.append_assoc] at hm hmid ⊢
  apply h.blind s first (second ++ left) (second ++ left') (by simp [hl]) (by simp [hl'])
  rw [hm]
  exact hmid

theorem bind {out' : β → State → γ} {next' : β → State → State} (h : Local out next)
    (h' : ∀ b, Local (out' b) (next' b)) :
    Local (fun s => (out s, out' (out s) (next s))) (fun s => next' (out s) (next s)) where
  forward s := by
    obtain ⟨m, hm⟩ := h.forward s
    obtain ⟨n, hn⟩ := (h' (out s)).forward (next s)
    exact ⟨m + n, by rw [hn, hm, Bytes.Cursor.advance_advance]⟩
  blind s taken left left' hl hl' hr := by
    obtain ⟨n, hn⟩ := (h' (out (s.onto (taken ++ left)))).forward (next (s.onto (taken ++ left)))
    obtain ⟨first, second, -, hmid, ho, hs⟩ := h.blind_before hl hl' (hn ▸ hr)
    have hself := State.onto_eq_self hmid
    have hb := (h' (out (s.onto (taken ++ left)))).blind (next (s.onto (taken ++ left))) second left
      left' hl hl'
    rw [hself] at hb
    obtain ⟨ho', hs'⟩ := hb hr
    simp only [ho, hs]
    exact ⟨by rw [ho'], hs'⟩

theorem of_hasMore {out' : State → β} {next' : State → State} (h : Local out next)
    (hm : ∀ s, s.hasMore = true → out' s = out s ∧ next' s = next s)
    (hf : ∀ s, s.hasMore = false → next' s = s) : Local out' next' where
  forward s := by
    cases hs : s.hasMore with
    | true => rw [(hm s hs).2]; exact h.forward s
    | false => exact ⟨0, by rw [hf s hs, Bytes.Cursor.advance_zero]⟩
  blind s taken left left' hl hl' hr := by
    obtain ⟨ho, hn⟩ := hm _ (s.hasMore_onto_append taken hl)
    obtain ⟨ho', hn'⟩ := hm _ (s.hasMore_onto_append taken hl')
    rw [hn] at hr ⊢
    rw [ho, ho', hn']
    exact h.blind s taken left left' hl hl' hr

end Local

abbrev Step.Local {α : Type} (step : Step α) : Prop :=
  Decode.Local (fun s => (step s).items) (fun s => (step s).state)

namespace Step

variable {α β : Type} {a b : Step α}

theorem local_tell (items : List α) : (tell items).Local := .stay items

theorem Local.andThen (ha : a.Local) (hb : b.Local) : (a.andThen b).Local :=
  (Decode.Local.bind ha fun _ => hb).map fun p => p.1 ++ p.2

theorem Local.mapItems (ha : a.Local) (f : List α → List β) : (a.mapItems f).Local := ha.map f

theorem Local.between (ha : a.Local) (opening closing : List α) :
    ((tell opening).andThen (a.andThen (tell closing))).Local :=
  (local_tell opening).andThen (ha.andThen (local_tell closing))

theorem Local.whereData (ha : a.Local) (items : List α) : (a.whereData items).Local := by
  apply Decode.Local.of_hasMore ha
  · intro s hm
    rw [Step.whereData, if_pos hm]
    exact ⟨rfl, rfl⟩
  · intro s hm
    rw [Step.whereData, if_neg (by simp [hm])]

theorem local_sequence {steps : List (Step α)} (h : ∀ a ∈ steps, a.Local) :
    (sequence steps).Local := sequence_of_forall (local_tell []) .andThen h

theorem local_whileData (cut : Nat → α) {steps : List (Step α)} (h : ∀ a ∈ steps, a.Local) :
    (whileData cut steps).Local :=
  whileData_of_forall (local_tell []) .andThen (fun _ ha => ha.whereData _) h

end Step

namespace Laps

variable {α : Type} {lap : Nat → Step α}

theorem local_counted (h : ∀ index, (lap index).Local) (count index : Nat) :
    Local (fun s => ((counted lap count index s).runs, (counted lap count index s).stop))
      (fun s => (counted lap count index s).state) := by
  induction count generalizing index with
  | zero => exact .stay ([], Stop.complete)
  | succ count ih =>
    have hs := (Local.bind (h index) fun _ => ih (index + 1)).map fun p => (p.1 :: p.2.1, p.2.2)
    apply hs.of_hasMore
    · intro s hm
      rw [counted, if_pos hm]
      exact ⟨rfl, rfl⟩
    · intro s hm
      rw [counted, if_neg (by simp [hm])]

theorem forward_untilExhausted (h : ∀ index, (lap index).Local) (index : Nat) (s : State) :
    ∃ n, (untilExhausted lap index s).state.cursor = s.cursor.advance n := by
  fun_induction untilExhausted lap index s with
  | case1 index s hm y hless ih =>
    obtain ⟨m, hm⟩ := (h index).forward s
    obtain ⟨n, hn⟩ := ih
    refine ⟨m + n, ?_⟩
    change (untilExhausted lap (index + 1) y.state).state.cursor = _
    rw [hn, hm, Bytes.Cursor.advance_advance]
  | case2 index s hm y hless => exact (h index).forward s
  | case3 index s hm => exact ⟨0, s.cursor.advance_zero.symm⟩

theorem local_untilExhausted (h : ∀ index, (lap index).Local) (index : Nat) :
    Local (fun s => ((untilExhausted lap index s).runs, (untilExhausted lap index s).stop))
      (fun s => (untilExhausted lap index s).state) where
  forward := forward_untilExhausted h index
  blind s taken left left' hl hl' hr := by
    -- by induction on the bytes taken, of which each repetition but the last takes some
    induction hk : taken.length using Nat.strongRecOn generalizing index s taken with
    | ind k ih =>
      subst hk
      have hmore := s.hasMore_onto_append taken hl
      have hmore' := s.hasMore_onto_append taken hl'
      by_cases hless : (lap index (s.onto (taken ++ left))).state.remaining <
          (s.onto (taken ++ left)).remaining
      · rw [untilExhausted_of_lt hmore hless] at hr ⊢
        obtain ⟨n, hn⟩ := forward_untilExhausted h (index + 1)
          (lap index (s.onto (taken ++ left))).state
        obtain ⟨first, second, rfl, hmid, ho, hs⟩ := (h index).blind_before hl hl' (hn ▸ hr)
        have hself := State.onto_eq_self hmid
        have hshort : second.length < (first ++ second).length := by
          rw [← hself] at hless
          simp only [State.remaining_onto, List.length_append] at hless ⊢
          omega
        have hless' : (lap index (s.onto (first ++ second ++ left'))).state.remaining <
            (s.onto (first ++ second ++ left')).remaining := by
          simp only [hs, State.remaining_onto, List.length_append] at hshort ⊢
          omega
        rw [untilExhausted_of_lt hmore' hless', ho, hs]
        have hrest := ih _ hshort (index + 1) (lap index (s.onto (first ++ second ++ left))).state
          second (hself.symm ▸ hr) rfl
        rw [hself] at hrest
        simp only [Laps.first, hrest.2]
        obtain ⟨hruns, hstop⟩ := Prod.mk.inj hrest.1
        exact ⟨by rw [hruns, hstop], trivial⟩
      · rw [untilExhausted_of_stalled hmore hless] at hr ⊢
        obtain ⟨ho, hs⟩ := (h index).blind s taken left left' hl hl' hr
        have hself : (lap index (s.onto (taken ++ left))).state.onto left = _ :=
          State.onto_eq_self hr
        have hless' : ¬(lap index (s.onto (taken ++ left'))).state.remaining <
            (s.onto (taken ++ left')).remaining := by
          rw [← hself] at hless
          simp only [hs, State.remaining_onto, List.length_append] at hless ⊢
          omega
        rw [untilExhausted_of_stalled hmore' hless', ho, hs]
        exact ⟨rfl, rfl⟩

theorem local_run (h : ∀ index, (lap index).Local) (count : Option Nat) :
    Local (fun s => ((run lap count s).runs, (run lap count s).stop))
      (fun s => (run lap count s).state) := by
  cases count with
  | none => exact local_untilExhausted h 0
  | some n => exact local_counted h n 0

end Laps

end Decode
end Telemetry
