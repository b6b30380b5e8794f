import Mathlib.Logic.Function.Iterate
import Telemetry.Proofs.Decode.Soundness
import Telemetry.Proofs.Decode.Views

namespace Telemetry.Decode

open Layout (Arena Field Series sumSizes sizeIn readings frame frameArena build_frameArena)

def covering (size remaining : Nat) : Nat := (remaining + size - 1) / size

theorem covering_zero {size : Nat} (hs : 0 < size) : covering size 0 = 0 :=
  Nat.div_eq_of_lt (by omega)

theorem covering_of_pos {size remaining : Nat} (hs : 0 < size) (hr : 0 < remaining) :
    covering size remaining = covering size (remaining - size) + 1 := by
  unfold covering
  by_cases h : size ≤ remaining
  · have he : remaining + size - 1 = remaining - size + size - 1 + size := by omega
    rw [he, Nat.add_div_right _ hs]
  · have hz : remaining - size + size - 1 < size := by omega
    have ho : remaining + size - 1 = remaining - 1 + size := by omega
    rw [ho, Nat.add_div_right _ hs, Nat.div_eq_of_lt hz, Nat.div_eq_of_lt (by omega)]

def lapsWithin (count : Option Nat) (size remaining : Nat) : Nat :=
  match count with
  | some n => min n (covering size remaining)
  | none => covering size remaining

def bytesWithin (count : Option Nat) (size remaining : Nat) : Nat :=
  match count with
  | some n => min (n * size) remaining
  | none => remaining

theorem bytesWithin_le (count : Option Nat) (size remaining : Nat) :
    bytesWithin count size remaining ≤ remaining := by
  cases count with
  | none => exact Nat.le_refl remaining
  | some n => exact Nat.min_le_right _ _

namespace Laps

variable {α : Type} {lap : Nat → Step α} {next : State → State} {size : Nat}

def told (lap : Nat → Step α) (next : State → State) (index : Nat) (s : State) (n : Nat) :
    List (List α) :=
  (List.range n).map fun i => (lap (index + i) (next^[i] s)).items

theorem told_succ (lap : Nat → Step α) (next : State → State) (index : Nat) (s : State) (n : Nat) :
    told lap next index s (n + 1) = (lap index s).items :: told lap next (index + 1) (next s) n := by
  simp only [told, List.range_succ_eq_map, List.map_cons, List.map_map, Function.comp_def,
    Function.iterate_succ_apply, Nat.succ_eq_add_one, Nat.add_assoc, Nat.add_comm 1]
  rfl

theorem runs_counted (hn : ∀ index s, (lap index s).state = next s)
    (ht : ∀ s, (next s).cursor = s.cursor.advance size) (hs : 0 < size) (count index : Nat)
    (s : State) : (counted lap count index s).runs =
      told lap next index s (min count (covering size s.remaining)) := by
  induction count generalizing index s with
  | zero => rw [Nat.zero_min]; rfl
  | succ count ih =>
    have hr : (next s).remaining = s.remaining - size := congrArg Bytes.Cursor.remaining (ht s)
    rw [counted]
    split
    next hmore =>
      rw [State.hasMore_iff] at hmore
      rw [covering_of_pos hs hmore, Nat.add_min_add_right, told_succ, ← hr, ← ih, ← hn index s]
      rfl
    next hmore =>
      rw [Bool.not_eq_true, State.hasMore_eq_false_iff] at hmore
      rw [hmore, covering_zero hs, Nat.min_zero]
      rfl

theorem runs_untilExhausted (hn : ∀ index s, (lap index s).state = next s)
    (ht : ∀ s, (next s).cursor = s.cursor.advance size) (hs : 0 < size) (index : Nat) (s : State) :
    (untilExhausted lap index s).runs = told lap next index s (covering size s.remaining) ∧
      (untilExhausted lap index s).state.cursor = s.cursor.advance s.remaining := by
  have hr (s : State) : (next s).remaining = s.remaining - size :=
    congrArg Bytes.Cursor.remaining (ht s)
  fun_induction untilExhausted lap index s with
  | case1 index s hmore y hless ih =>
    rw [State.hasMore_iff] at hmore
    have hy : y.state = next s := hn index s
    obtain ⟨hruns, hcursor⟩ := ih
    rw [hy, hr] at hruns
    rw [hy, hr, ht, Bytes.Cursor.advance_advance] at hcursor
    constructor
    · rw [covering_of_pos hs hmore, told_succ, ← hruns, ← hy]
      rfl
    · have hle : s.cursor.remaining ≤ size + (s.remaining - size) := by
        change s.remaining ≤ _
        omega
      exact (hy ▸ hcursor).trans (Bytes.Cursor.advance_of_le hle)
  | case2 index s hmore y hless =>
    -- a repetition of some size takes some of the data
    rw [State.hasMore_iff] at hmore
    have hy : y.state = next s := hn index s
    rw [hy, hr] at hless
    omega
  | case3 index s hmore =>
    rw [Bool.not_eq_true, State.hasMore_eq_false_iff] at hmore
    rw [hmore, covering_zero hs]
    exact ⟨rfl, s.cursor.advance_zero.symm⟩

theorem runs_run (hn : ∀ index s, (lap index s).state = next s)
    (ht : ∀ s, (next s).cursor = s.cursor.advance size) (hs : 0 < size) (count : Option Nat)
    (s : State) :
    (run lap count s).runs = told lap next 0 s (lapsWithin count size s.remaining) ∧
      (run lap count s).state.cursor = s.cursor.advance (bytesWithin count size s.remaining) := by
  cases count with
  | none => exact runs_untilExhausted hn ht hs 0 s
  | some n =>
    refine ⟨runs_counted hn ht hs n 0 s, ?_⟩
    have hlap (index : Nat) : (lap index).Takes size := by
      intro s
      rw [hn, ht]
    rw [run, cursor_counted hlap, Nat.mul_comm]
    by_cases h : n * size ≤ s.remaining
    · rw [bytesWithin, Nat.min_eq_left h]
    · rw [bytesWithin, Nat.min_eq_right (by omega)]
      exact Bytes.Cursor.advance_of_le (Nat.le_of_not_le h)

end Laps

def askedFor (s : Series) (size : Nat) (st : State) : Option Nat :=
  match s.length with
  | .fixed n => some n
  | .inData width inBytes =>
    let n := Bytes.bigEndian (st.cursor.rest.take width)
    some (if inBytes then n / size else n)
  | .ofField id => some ((st.remembered.get? id).getD 0)
  | .untilExhausted => none

theorem elementsIn_eq {elements : List Field} {size : Nat} (h : Field.sizes elements = some size)
    (hs : 0 < size) (n : Nat) : elementsIn n elements = n / size := by
  rw [elementsIn, h, Option.getD_some, Nat.max_eq_left hs]

theorem readCount_of_le (id : Nat) {s : Series} {elements : List Field} {size : Nat}
    (h : Field.sizes elements = some size) (hs : 0 < size) {st : State}
    (hw : (prefixWidth? (.array id s elements)).getD 0 ≤ st.remaining) :
    (readCount s elements st).count = some (askedFor s size st) ∧
      (readCount s elements st).state =
        st.advance ((prefixWidth? (.array id s elements)).getD 0) := by
  have hstay : st = st.advance 0 := congrArg (State.mk · st.remembered) st.cursor.advance_zero.symm
  unfold prefixWidth? at hw ⊢
  cases hl : s.length with
  | fixed n => exact ⟨by simp only [readCount, askedFor, hl], by simpa only [readCount, hl]⟩
  | untilExhausted => exact ⟨by simp only [readCount, askedFor, hl], by simpa only [readCount, hl]⟩
  | ofField counter =>
    cases hm : st.remembered.get? counter with
    | none =>
      exact ⟨by simp only [readCount, askedFor, hl, hm, Option.getD_none],
        by simpa only [readCount, hl, hm]⟩
    | some n =>
      exact ⟨by simp only [readCount, askedFor, hl, hm, Option.getD_some],
        by simpa only [readCount, hl, hm]⟩
  | inData width inBytes =>
    simp only [hl, Option.getD_some] at hw
    have hr : st.cursor.readNat width = .ok (Bytes.bigEndian (st.cursor.rest.take width),
        st.cursor.advance width) := Bytes.Cursor.readNat_eq_ok_iff.mpr ⟨hw, rfl, rfl⟩
    simp only [readCount, askedFor, hl, hr, elementsIn_eq h hs, Option.getD_some]
    exact ⟨trivial, rfl⟩

theorem readCount_of_lt (id : Nat) {s : Series} {elements : List Field} {st : State}
    (hw : st.remaining < (prefixWidth? (.array id s elements)).getD 0) :
    (readCount s elements st).count = none ∧
      (readCount s elements st).state = st.advance st.remaining := by
  unfold prefixWidth? at hw
  cases hl : s.length with
  | fixed n => simp [hl] at hw
  | untilExhausted => simp [hl] at hw
  | ofField counter => simp [hl] at hw
  | inData width inBytes =>
    simp only [hl, Option.getD_some] at hw
    obtain ⟨e, he⟩ := Bytes.Cursor.exists_readNat_eq_error_iff.mpr hw
    simp only [readCount, hl, he, and_self]

def afterElements (o : Options) (elements : List Field) (st : State) : State :=
  (Step.sequence (fields o elements) st).state

def underLabel (s : Series) (events : List Event) (index : Nat) : List Event :=
  .indexStart (s.label index) :: events ++ [.indexEnd (s.label index)]

def repetition (o : Options) (s : Series) (elements : List Field) (index : Nat) (st : State) :
    List Event :=
  underLabel s ((Step.sequence (fields o elements) st).items.filterMap Item.event?) index

theorem events_labelled (o : Options) (s : Series) (elements : List Field) (index : Nat)
    (st : State) : (labelled s (fields o elements) index st).items.filterMap Item.event? =
      repetition o s elements index st := by
  simp only [labelled, Step.andThen, Step.tell, repetition, underLabel, List.filterMap_append,
    List.filterMap_cons, List.filterMap_nil, Item.event?, List.cons_append, List.nil_append]

theorem events_repetitions_of_size {o : Options} {s : Series} {elements : List Field} {size : Nat}
    (hp : s.printFormat = none) (h : Field.sizes elements = some size) (hs : 0 < size)
    (count : Option Nat) (st : State) :
    let y := repetitions o s elements (fields o elements) count st
    y.items.filterMap Item.event? = (List.range (lapsWithin count size st.remaining)).flatMap
        (fun i => repetition o s elements i ((afterElements o elements)^[i] st)) ∧
      y.state.cursor = st.cursor.advance (bytesWithin count size st.remaining) := by
  have ht (st : State) : (afterElements o elements st).cursor = st.cursor.advance size := by
    have hseq := Step.takes_sequence (fun f (_ : f ∈ elements) => (sized o f).plain) h
    rw [← fields_eq_map] at hseq
    exact hseq st
  have hlap (index : Nat) (st : State) :
      (labelled s (fields o elements) index st).state = afterElements o elements st := rfl
  obtain ⟨hruns, hcursor⟩ := Laps.runs_run hlap ht hs count st
  simp only [repetitions, hp]
  refine ⟨?_, hcursor⟩
  rw [List.filterMap_append, filterMap_notices fun _ => rfl, List.append_nil, hruns, Laps.told,
    ← List.flatMap_def, List.filterMap_flatMap]
  simp only [events_labelled, Nat.zero_add]

theorem sizes_of_sumSizes {arena : Arena} {root : Nat} {l : Layout}
    (hb : Layout.build arena root = .ok l) {f : Field} (hf : f ∈ l.root.preorder)
    {size : Option Nat}
    (hn : sumSizes (sizeIn arena arena.size) (f.children.map Field.id) = .ok size) :
    Field.sizes f.children = size := by
  obtain ⟨_, -, -, -, hchildren⟩ := (Layout.grown_of_build hb).2.of_mem_preorder hf
  have hs : ∀ c ∈ f.children, sizeIn arena arena.size c.id = .ok c.size := by
    intro c hc
    have hg := hchildren c hc
    exact hg.sizeIn_id hg.id_lt_size
  rw [Layout.sumSizes_eq_sizes hs] at hn
  exact Except.ok.inj hn

/-- An array of elements of some size repeats them as often as it asks for, whichever way it does,
as long as there is data, and takes the bytes of so many. Without the number before its elements it
shows nothing and takes what there is. Sizes are exact numbers here: the size of the elements, and
that of a fixed number of them inside, is to fit the 64 bits it is computed in. -/
theorem repetitions_of_sizeIn {arena : Arena} {root : Nat} {l : Layout}
    (hb : Layout.build arena root = .ok l) {id : Nat} {s : Series} {elements : List Field}
    (hf : .array id s elements ∈ l.root.preorder) (hp : s.printFormat = none)
    (hk : isPadding elements = false) {size : Nat}
    (hn : sumSizes (sizeIn arena arena.size) (elements.map Field.id) = .ok (some size))
    (hs : 0 < size) (o : Options) (st : State) :
    let width := (prefixWidth? (.array id s elements)).getD 0
    let first := st.advance width
    let asked := askedFor s size st
    let y := field o (.array id s elements) st
    (width ≤ st.remaining →
      y.items.filterMap Item.event? = .arrayStart s.name asked ::
          (List.range (lapsWithin asked size first.remaining)).flatMap
            (fun i => repetition o s elements i ((afterElements o elements)^[i] first)) ++
          [.arrayEnd s.name] ∧
        y.state.cursor.offset =
          st.cursor.offset + width + bytesWithin asked size first.remaining) ∧
      (st.remaining < width → y.items.filterMap Item.event? = [] ∧
        y.state.cursor.offset = st.cursor.offset + st.remaining) := by
  have hsize : Field.sizes elements = some size := sizes_of_sumSizes hb hf hn
  intro width first asked y
  constructor
  · intro hw
    obtain ⟨hcount, hstate⟩ := readCount_of_le id hsize hs hw
    obtain ⟨hevents, hcursor⟩ := events_repetitions_of_size (o := o) hp hsize hs asked first
    simp only [y, field, arrayStep, hcount, hstate, elementsStep, hk, Bool.false_eq_true, if_false,
      List.filterMap_append, List.filterMap_cons, filterMap_notices (q := Item.event?) fun _ => rfl,
      List.nil_append, Item.event?]
    refine ⟨by rw [hevents], ?_⟩
    have hle := bytesWithin_le asked size first.remaining
    rw [hcursor, Bytes.Cursor.offset_advance]
    change st.cursor.offset + min width st.remaining + min _ first.remaining = _
    rw [Nat.min_eq_left hw, Nat.min_eq_left hle]
  · intro hw
    obtain ⟨hcount, hstate⟩ := readCount_of_lt id hw
    simp only [y, field, arrayStep, hcount, hstate, elementsStep, Step.tell, List.append_nil,
      filterMap_notices (q := Item.event?) fun _ => rfl, true_and]
    exact congrArg (st.cursor.offset + ·) (Nat.min_self st.remaining)

theorem repetitions_readings_short :
    let s : Series := { name := "readings", length := .fixed 3 }
    let st : State := .start [1, 2, 3, 4, 5, 6]
    let y := field {} readings st
    y.items.filterMap Item.event? = .arrayStart "readings" (some 3) ::
        repetition {} s readings.children 0 st ++
          repetition {} s readings.children 1 (afterElements {} readings.children st) ++
            [.arrayEnd "readings"] ∧
      y.state.cursor.offset = 6 := by
  have hf : readings ∈ frame.root.preorder := .tail _ (.tail _ (.head _))
  have h := repetitions_of_sizeIn build_frameArena hf rfl rfl rfl (by decide) {}
    (.start [1, 2, 3, 4, 5, 6])
  obtain ⟨hevents, hoffset⟩ := h.1 (by decide)
  exact ⟨hevents, hoffset⟩

end Telemetry.Decode
