import Telemetry.Proofs.Decode.Reach

namespace Telemetry.Decode

open Layout (Field Series)

variable {α : Type}

namespace Laps

variable {lap : Nat → Step α} {next : State → State} {s : State} {count : Option Nat} {n n' : Nat}
  {stop stop' : Stop}

inductive Ended (next : State → State) (s : State) : (count : Option Nat) → Nat → Stop → Prop where
  | complete {n : Nat} : Ended next s (some n) n .complete
  | exhausted {count : Option Nat} {n : Nat} (drained : (next^[n] s).hasMore = false)
    (short : ∀ asked, count = some asked → n < asked) : Ended next s count n .exhausted
  | stalled {last : Nat} (still : ¬(next^[last + 1] s).remaining < (next^[last] s).remaining) :
    Ended next s none (last + 1) .stalled

structure Ran (next : State → State) (s : State) (count : Option Nat) (n : Nat) (stop : Stop) :
    Prop where
  begun : ∀ k < n, (next^[k] s).hasMore = true
  moved : count = none → ∀ k, k + 1 < n → (next^[k + 1] s).remaining < (next^[k] s).remaining
  ended : Ended next s count n stop

theorem Ended.succ (h : Ended next (next s) count n stop) :
    Ended next s (count.map (· + 1)) (n + 1) stop := by
  cases h with
  | complete => exact .complete
  | exhausted drained short =>
    have hdrained : (next^[n + 1] s).hasMore = false := drained
    apply Ended.exhausted hdrained
    rintro asked hasked
    obtain ⟨c, rfl, rfl⟩ := Option.map_eq_some_iff.mp hasked
    exact Nat.succ_lt_succ (short c rfl)
  | stalled still => exact .stalled still

theorem Ended.of_none (h : Ended next s none n stop) :
    stop = .exhausted ∧ (next^[n] s).hasMore = false ∨
      stop = .stalled ∧ ∃ last, n = last + 1 ∧
        ¬(next^[last + 1] s).remaining < (next^[last] s).remaining := by
  cases h with
  | exhausted drained => exact .inl ⟨rfl, drained⟩
  | stalled still => exact .inr ⟨rfl, _, rfl, still⟩

theorem Ended.of_some {asked : Nat} (h : Ended next s (some asked) n stop) :
    n ≤ asked ∧ (n < asked → (next^[n] s).hasMore = false) ∧
      stop = if n < asked then .exhausted else .complete := by
  cases h with
  | complete => simp
  | exhausted drained short =>
    have hlt := short asked rfl
    exact ⟨Nat.le_of_lt hlt, fun _ => drained, (if_pos hlt).symm⟩

theorem Ran.succ (h : Ran next (next s) count n stop) (hm : s.hasMore = true)
    (hless : count = none → (next s).remaining < s.remaining) :
    Ran next s (count.map (· + 1)) (n + 1) stop := by
  constructor
  · rintro (_ | k) hk
    · exact hm
    · exact h.begun k (by omega)
  · intro hcount
    rw [Option.map_eq_none_iff] at hcount
    rintro (_ | k) hk
    · exact hless hcount
    · exact h.moved hcount k (by omega)
  · exact h.ended.succ

theorem Ran.le (h : Ran next s count n stop) (h' : Ran next s count n' stop') : n' ≤ n := by
  by_contra hlt
  rw [Nat.not_le] at hlt
  cases h.ended with
  | complete =>
    cases h'.ended with
    | complete => omega
    | exhausted drained short => exact absurd (short _ rfl) (by omega)
  | exhausted drained short =>
    have hmore := h'.begun n hlt
    rw [drained] at hmore
    cases hmore
  | stalled still => exact still (h'.moved rfl _ hlt)

theorem Ran.unique (h : Ran next s count n stop) (h' : Ran next s count n' stop') : n = n' :=
  Nat.le_antisymm (h'.le h) (h.le h')

theorem Ran.pos (h : Ran next s count n stop) (hm : s.hasMore = true) (hc : count ≠ some 0) :
    0 < n := by
  rw [Nat.pos_iff_ne_zero]
  rintro rfl
  cases h.ended with
  | complete => exact hc rfl
  | exhausted drained short =>
    rw [Function.iterate_zero_apply, hm] at drained
    cases drained

theorem Ran.zero (h : Ended next s count 0 stop) : Ran next s count 0 stop where
  begun k hk := absurd hk k.not_lt_zero
  moved _ k hk := absurd hk (k + 1).not_lt_zero
  ended := h

theorem ran_counted (hn : ∀ index s, (lap index s).state = next s) (asked index : Nat) (s : State) :
    let laps := counted lap asked index s
    laps.runs = told lap next index s laps.runs.length ∧
      laps.state = next^[laps.runs.length] s ∧
      Ran next s (some asked) laps.runs.length laps.stop := by
  induction asked generalizing index s with
  | zero => exact ⟨rfl, rfl, .zero .complete⟩
  | succ asked ih =>
    obtain ⟨hruns, hstate, hran⟩ := ih (index + 1) (next s)
    rw [counted]
    split
    next hm =>
      simp only [first, List.length_cons, told_succ, Function.iterate_succ_apply, hn]
      exact ⟨congrArg _ hruns, hstate, hran.succ hm (by simp)⟩
    next hm =>
      rw [Bool.not_eq_true] at hm
      have hshort : ∀ n, some (asked + 1) = some n → 0 < n := by
        rintro n hn
        obtain rfl := Option.some_inj.mp hn
        exact asked.succ_pos
      exact ⟨rfl, rfl, .zero (.exhausted hm hshort)⟩

theorem ran_untilExhausted (hn : ∀ index s, (lap index s).state = next s) (index : Nat)
    (s : State) :
    let laps := untilExhausted lap index s
    laps.runs = told lap next index s laps.runs.length ∧
      laps.state = next^[laps.runs.length] s ∧ Ran next s none laps.runs.length laps.stop := by
  dsimp only
  fun_induction untilExhausted lap index s with
  | case1 index s hm y hless ih =>
    have hy : y.state = next s := hn index s
    rw [hy] at ih hless ⊢
    obtain ⟨hruns, hstate, hran⟩ := ih
    simp only [first, List.length_cons, told_succ, Function.iterate_succ_apply]
    exact ⟨congrArg _ hruns, hstate, hran.succ hm fun _ => hless⟩
  | case2 index s hm y hless =>
    have hy : y.state = next s := hn index s
    rw [hy] at hless
    refine ⟨rfl, hy, ?_, ?_, .stalled hless⟩
    · rintro k hk
      obtain rfl : k = 0 := Nat.lt_one_iff.mp hk
      exact hm
    · rintro - k hk
      exact absurd hk (by simp)
  | case3 index s hm =>
    rw [Bool.not_eq_true] at hm
    exact ⟨rfl, rfl, .zero (.exhausted hm (by simp))⟩

theorem ran_run (hn : ∀ index s, (lap index s).state = next s) (count : Option Nat) (s : State) :
    let laps := run lap count s
    laps.runs = told lap next 0 s laps.runs.length ∧
      laps.state = next^[laps.runs.length] s ∧ Ran next s count laps.runs.length laps.stop := by
  cases count with
  | none => exact ran_untilExhausted hn 0 s
  | some asked => exact ran_counted hn asked 0 s

def taking (next : State → State) (s : State) (n : Nat) : List Nat :=
  (List.range n).filter fun k => (next^[k + 1] s).remaining < (next^[k] s).remaining

theorem length_taking_add_le (hf : ∀ s, (next s).remaining ≤ s.remaining) (s : State) (n : Nat) :
    (taking next s n).length + (next^[n] s).remaining ≤ s.remaining := by
  induction n with
  | zero => simp [taking]
  | succ n ih =>
    have hle : (next^[n + 1] s).remaining ≤ (next^[n] s).remaining := by
      rw [Function.iterate_succ_apply']
      exact hf _
    rw [taking] at ih ⊢
    rw [List.range_succ, List.filter_append, List.length_append]
    by_cases hless : (next^[n + 1] s).remaining < (next^[n] s).remaining
    · simp only [hless, decide_true, List.filter_cons_of_pos, List.filter_nil, List.length_singleton]
      omega
    · simp only [hless, decide_false, Bool.false_eq_true, not_false_eq_true,
        List.filter_cons_of_neg, List.filter_nil, List.length_nil]
      omega

theorem length_taking_of_forall (h : ∀ k < n, (next^[k + 1] s).remaining < (next^[k] s).remaining) :
    (taking next s n).length = n := by
  have hall : ∀ k ∈ List.range n, decide ((next^[k + 1] s).remaining < (next^[k] s).remaining) := by
    rintro k hk
    exact decide_eq_true (h k (List.mem_range.mp hk))
  rw [taking, List.filter_eq_self.mpr hall, List.length_range]

theorem remaining_iterate_le (hf : ∀ s, (next s).remaining ≤ s.remaining) (s : State) (n : Nat) :
    (next^[n] s).remaining ≤ s.remaining :=
  Nat.le_of_add_left_le (length_taking_add_le hf s n)

theorem Ran.le_remaining (h : Ran next s none n stop) (hf : ∀ s, (next s).remaining ≤ s.remaining) :
    n ≤ s.remaining := by
  cases n with
  | zero => exact Nat.zero_le _
  | succ last =>
    -- the last repetition may take nothing, but it found a byte left by the others
    have hle := length_taking_add_le hf s last
    rw [length_taking_of_forall fun k hk => h.moved rfl k (by omega)] at hle
    have hmore := (State.hasMore_iff _).mp (h.begun last last.lt_succ_self)
    omega

end Laps

section Arrays

variable (o : Options) (id : Nat) (s : Series) (elements : List Field)

theorem forward_afterElements (st : State) :
    ∃ n, (afterElements o elements st).cursor = st.cursor.advance n :=
  (Step.local_sequence (forall_mem_fields fun f _ => (localField o f).plain)).forward st

theorem remaining_afterElements_le (st : State) :
    (afterElements o elements st).remaining ≤ st.remaining := by
  obtain ⟨n, hn⟩ := forward_afterElements o elements st
  rw [State.remaining, hn]
  exact Nat.sub_le _ _

theorem offset_lt_afterElements_iff (st : State) :
    st.cursor.offset < (afterElements o elements st).cursor.offset ↔
      (afterElements o elements st).remaining < st.remaining := by
  obtain ⟨n, hn⟩ := forward_afterElements o elements st
  simp only [State.remaining, hn, Bytes.Cursor.offset_advance, Bytes.Cursor.remaining_advance]
  omega

theorem offset_afterElements_eq {st : State}
    (h : ¬(afterElements o elements st).remaining < st.remaining) :
    (afterElements o elements st).cursor.offset = st.cursor.offset := by
  obtain ⟨n, hn⟩ := forward_afterElements o elements st
  simp only [State.remaining, hn, Bytes.Cursor.offset_advance, Bytes.Cursor.remaining_advance] at h ⊢
  omega

theorem state_gathers (resolved : Bool) (st : State) :
    (Step.sequence (gathers o resolved elements (fields o elements)) st).state =
      afterElements o elements st :=
  (Step.agrees_sequence (forall₂_gathered_marks o resolved elements) st).1

def toldWithin (n : Nat) (st : State) (notices : List Notice) : List Item :=
  match s.printFormat with
  | none =>
    (Laps.told (labelled s (fields o elements)) (afterElements o elements) 0 st n).flatten ++
      notices.map .notice
  | some format =>
    let steps := gathers o (isUniform elements) elements (fields o elements)
    lines format <|
      (Laps.told (fun _ => Step.sequence steps) (afterElements o elements) 0 st n).flatten ++
        (notices.map Item.notice).map .item

theorem repetitions_eq_toldWithin (count : Option Nat) (st : State) :
    let n := lapsMade o elements count st
    ∃ stop, Laps.Ran (afterElements o elements) st count n stop ∧
      repetitions o s elements (fields o elements) count st =
        ⟨toldWithin o s elements n st (stopNotices s count n stop),
          (afterElements o elements)^[n] st⟩ := by
  have hplain (_ : Nat) (st : State) :
      (Step.sequence (fields o elements) st).state = afterElements o elements st := rfl
  obtain ⟨-, -, hran⟩ := Laps.ran_run hplain count st
  unfold repetitions toldWithin
  cases s.printFormat with
  | none =>
    have hlap (index : Nat) (st : State) :
        (labelled s (fields o elements) index st).state = afterElements o elements st := rfl
    obtain ⟨hruns, hstate, hran'⟩ := Laps.ran_run hlap count st
    refine ⟨_, hran.unique hran' ▸ hran', ?_⟩
    dsimp only
    rw [hstate, lapsMade, hran.unique hran', ← hruns]
  | some format =>
    have hlap (_ : Nat) := state_gathers o elements (isUniform elements)
    obtain ⟨hruns, hstate, hran'⟩ := Laps.ran_run hlap count st
    refine ⟨_, hran.unique hran' ▸ hran', ?_⟩
    dsimp only
    rw [hstate, lapsMade, hran.unique hran', ← hruns]

/-- An array with this count repeats its elements `n` times, each time from the state before, and
tells of the repetitions between its brackets. -/
structure Repeats (st : State) (count : Option Nat) (n : Nat) (notices : List Notice) : Prop where
  counted : (readCount s elements st).count = some count
  state : (field o (.array id s elements) st).state =
    (afterElements o elements)^[n] (readCount s elements st).state
  items : (field o (.array id s elements) st).items =
    (readCount s elements st).notices.map .notice ++ (.event (.arrayStart s.name count) ::
      toldWithin o s elements n (readCount s elements st).state notices ++
        .event (.arrayEnd s.name) :: (shortNotices s (Field.array id s elements).size
          ((field o (.array id s elements) st).state.cursor.offset - st.cursor.offset)).map .notice)

variable {elements s}

theorem repeats_array (hp : isPadding elements = false) {st : State} {count : Option Nat}
    (hc : (readCount s elements st).count = some count) :
    let first := (readCount s elements st).state
    let n := lapsMade o elements count first
    ∃ stop, Laps.Ran (afterElements o elements) first count n stop ∧
      Repeats o id s elements st count n (stopNotices s count n stop) := by
  intro first n
  obtain ⟨stop, hran, hy⟩ := repetitions_eq_toldWithin o s elements count first
  refine ⟨stop, hran, hc, ?_, ?_⟩
  · simp only [field, arrayStep, hc, elementsStep, hp, Bool.false_eq_true, if_false]
    exact congrArg Yield.state hy
  · simp only [field, arrayStep, hc, elementsStep, hp, Bool.false_eq_true, if_false]
    rw [hy]

/-- An array that goes on to the end of the data makes no more repetitions than there are bytes, and
all but the last take some. It stops at the end, or else with a repetition that takes none, which is
told of. -/
theorem untilExhausted_repeats (hl : s.length = .untilExhausted) (hp : isPadding elements = false)
    (st : State) :
    let n := lapsMade o elements none st
    let after (k : Nat) : State := (afterElements o elements)^[k] st
    n ≤ st.remaining ∧ (field o (.array id s elements) st).state = after n ∧
      (∀ k < n, (after k).hasMore = true) ∧
      (∀ k, k + 1 < n → (after k).cursor.offset < (after (k + 1)).cursor.offset) ∧
      ((after n).hasMore = false ∧ Repeats o id s elements st none n [] ∨
        (∃ last, n = last + 1 ∧ (after n).cursor.offset = (after last).cursor.offset) ∧
          Repeats o id s elements st none n [.arrayStalled s.name n]) := by
  have hread : readCount s elements st = ⟨some none, [], st⟩ := by rw [readCount, hl]
  obtain ⟨stop, hran, hrepeats⟩ := repeats_array o id hp (congrArg Count.count hread)
  rw [hread] at hran hrepeats
  intro n after
  have hstate : (field o (.array id s elements) st).state = after n := by
    rw [hrepeats.state, hread]
  refine ⟨hran.le_remaining (remaining_afterElements_le o elements), hstate, hran.begun, ?_, ?_⟩
  · rintro k hk
    have hmoved := hran.moved rfl k hk
    rw [Function.iterate_succ_apply'] at hmoved
    simp only [after, Function.iterate_succ_apply']
    exact (offset_lt_afterElements_iff o elements _).mpr hmoved
  · obtain ⟨rfl, hdrained⟩ | ⟨rfl, last, hlast, hstill⟩ := hran.ended.of_none
    · exact .inl ⟨hdrained, hrepeats⟩
    · refine .inr ⟨⟨last, hlast, ?_⟩, hrepeats⟩
      rw [Function.iterate_succ_apply'] at hstill
      have hn : n = last + 1 := hlast
      simp only [after, hn, Function.iterate_succ_apply']
      exact offset_afterElements_eq o elements hstill

end Arrays

namespace Rows

def arena : Layout.Arena := #[
  .scalar { name := "n", dataType := .ofBits .unsigned 8 },
  .array { name := "values", length := .ofField 0 } [0],
  .array { name := "rows", length := .untilExhausted } [1],
  .group { name := "table" } [0, 2]]

def number : Field := .scalar 0 { name := "n", dataType := .ofBits .unsigned 8 }

def values : Field := .array 1 { name := "values", length := .ofField 0 } [number]

def series : Series := { name := "rows", length := .untilExhausted }

def table : Field := .group 3 { name := "table" } [number, .array 2 series [values]]

def first : State := afterElements {} [number] (.start [2, 1, 1, 0, 9, 9])

end Rows

open Rows in
theorem untilExhausted_repeats_rows :
    let after (k : Nat) : State := (afterElements {} [values])^[k] first
    Layout.build arena 3 = .ok ⟨arena, table⟩ ∧ 3 ≤ first.remaining ∧
      (after 1).cursor.offset < (after 2).cursor.offset ∧
      (after 3).cursor.offset = (after 2).cursor.offset ∧ (after 3).remaining = 2 ∧
      Repeats {} 2 series [values] first none 3 [.arrayStalled "rows" 3] := by
  have hn : lapsMade {} [values] none first = 3 := by decide +kernel
  have hmore : ((afterElements {} [values])^[3] first).hasMore = true := by decide +kernel
  have hl : series.length = .untilExhausted := rfl
  have hp : isPadding [values] = false := rfl
  obtain ⟨hle, -, -, hmoved, hend⟩ := untilExhausted_repeats {} 2 hl hp first
  rw [hn] at hle hmoved hend
  obtain ⟨hdrained, -⟩ | ⟨⟨last, hlast, hoffset⟩, hrepeats⟩ := hend
  · rw [hdrained] at hmore
    cases hmore
  · cases hlast
    exact ⟨rfl, hle, hmoved 1 (by decide), hoffset, by decide +kernel, hrepeats⟩

end Telemetry.Decode
