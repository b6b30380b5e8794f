import Telemetry.Proofs.Decode.Loops

/-!
Fields that take some of the data wherever there is any. A number read from the data cannot make an
array repeat them more often than there are bytes, however large it is; repetitions that take nothing
are as many as it says.
-/

namespace Telemetry

namespace Layout.Field

mutual

def eager : Field → Bool
  | scalar _ s =>
    match s.lengthBytes, s.dataType.byteLen with
    | some width, _ => 0 < width
    | none, some n => 0 < n
    | none, none => true
  | bit .. => false
  | group _ _ children => anyEager children
  | array _ s elements =>
    match s.length with
    | .fixed n => 0 < n && anyEager elements
    | .inData width _ => 0 < width
    | .ofField _ => false
    | .untilExhausted => anyEager elements
  | bitArray _ w _ => 0 < w.byteLen
  | stream _ s => s.maxLen != some 0

def anyEager : List Field → Bool
  | [] => false
  | f :: fs => eager f || anyEager fs

end

theorem anyEager_iff {fs : List Field} : anyEager fs = true ↔ ∃ f ∈ fs, f.eager = true := by
  induction fs with
  | nil => simp [anyEager]
  | cons f fs ih => simp [anyEager, ih]

theorem anyEager_iff_of_sizes {fs : List Field}
    (h : ∀ f ∈ fs, ∀ n, f.size = some n → (f.eager = true ↔ 0 < n)) {n : Nat}
    (hn : sizes fs = some n) : anyEager fs = true ↔ 0 < n := by
  induction fs generalizing n with
  | nil =>
    cases hn
    simp [anyEager]
  | cons f fs ih =>
    simp only [sizes, Option.bind_eq_some_iff, Option.map_eq_some_iff] at hn
    obtain ⟨k, hk, m, hm, rfl⟩ := hn
    rw [anyEager, Bool.or_eq_true, h f List.mem_cons_self k hk,
      ih (fun g hg => h g (List.mem_cons_of_mem _ hg)) hm]
    omega

theorem eager_iff_of_size {f : Field} {n : Nat} (hn : f.size = some n) :
    f.eager = true ↔ 0 < n := by
  induction f using Field.induction generalizing n with
  | scalar id s =>
    rw [size] at hn
    split at hn
    next => cases hn
    next hl =>
      rw [Option.not_isSome_iff_eq_none] at hl
      simp only [eager, hl, hn, decide_eq_true_eq]
  | bit id b => cases hn
  | group id g children ih => exact anyEager_iff_of_sizes (fun c hc _ => ih c hc) hn
  | array id s elements ih =>
    simp only [size] at hn
    split at hn
    next count hlength =>
      obtain ⟨m, hm, rfl⟩ := Option.map_eq_some_iff.mp hn
      have hany := anyEager_iff_of_sizes (fun c hc _ => ih c hc) hm
      simp only [eager, hlength, Bool.and_eq_true, decide_eq_true_eq, hany]
      rw [Nat.pos_iff_ne_zero, Nat.pos_iff_ne_zero, Nat.pos_iff_ne_zero, Nat.mul_ne_zero_iff]
      exact and_comm
    next => cases hn
  | bitArray id w children _ =>
    cases hn
    simp [eager]
  | stream id s => cases hn

end Layout.Field

namespace Decode

open Layout (Field Scalar Stream Group Series Window Grown Arena)

/-- Wherever there is data, some of it is taken. -/
def Greedy (next : State → State) : Prop := ∀ s, s.hasMore = true → (next s).remaining < s.remaining

theorem remaining_field_le (o : Options) (f : Field) (st : State) :
    (field o f st).state.remaining ≤ st.remaining := by
  obtain ⟨n, hn⟩ := (localField o f).plain.forward st
  rw [State.remaining, hn]
  exact Nat.sub_le _ _

theorem remaining_extent_lt {id : Nat} {s : Scalar} {c : Bytes.Cursor} {e : Extent}
    (hs : (Field.scalar id s).eager = true) (hc : 0 < c.remaining) (he : extent? s c = some e) :
    e.cursor.remaining - e.length < c.remaining := by
  unfold extent? at he
  split at he
  next hl =>
    cases he
    cases hn : s.dataType.byteLen with
    | none => simpa [hn] using hc
    | some n =>
      simp only [Field.eager, hl, hn, decide_eq_true_eq] at hs
      simp only [Option.getD_some]
      omega
  next width hl =>
    simp only [Field.eager, hl, decide_eq_true_eq] at hs
    split at he
    next => cases he
    next length d hr =>
      obtain ⟨-, -, rfl⟩ := Bytes.Cursor.readNat_eq_ok_iff.mp hr
      have hd : (c.advance width).remaining = c.remaining - width := rfl
      split at he <;> cases he <;> dsimp only <;> omega

theorem greedy_scalar (o : Options) (id : Nat) {s : Scalar} (hs : (Field.scalar id s).eager = true) :
    Greedy fun st => (field o (.scalar id s) st).state := by
  intro st hm
  rw [State.hasMore_iff] at hm
  change (readScalar o.channels id s st).state.cursor.remaining < st.remaining
  cases he : extent? s st.cursor with
  | none =>
    simp only [readScalar, he]
    exact Nat.sub_lt hm hm
  | some e =>
    rw [cursor_readScalar he, Bytes.Cursor.remaining_advance]
    exact remaining_extent_lt hs hm he

theorem greedy_afterElements (o : Options) {fs : List Field}
    (h : ∃ f ∈ fs, Greedy fun st => (field o f st).state) : Greedy (afterElements o fs) := by
  induction fs with
  | nil =>
    obtain ⟨f, hf, -⟩ := h
    cases hf
  | cons f fs ih =>
    intro st hm
    have hrest := remaining_afterElements_le o fs (field o f st).state
    change (afterElements o fs (field o f st).state).remaining < st.remaining
    obtain ⟨g, hg, hgreedy⟩ := h
    rcases List.mem_cons.mp hg with rfl | hg
    · exact Nat.lt_of_le_of_lt hrest (hgreedy st hm)
    · by_cases hless : (field o f st).state.remaining < st.remaining
      · exact Nat.lt_of_le_of_lt hrest hless
      · -- nothing is taken yet, so there is data for the fields that follow
        have hle := remaining_field_le o f st
        have heq : (field o f st).state.remaining = st.remaining := by omega
        rw [State.hasMore_iff, ← heq, ← State.hasMore_iff] at hm
        have hlt := ih ⟨g, hg, hgreedy⟩ _ hm
        omega

theorem remaining_withinData (o : Options) (fs : List Field) (st : State) :
    (Step.withinData (fields o fs) st).state.remaining = (afterElements o fs st).remaining := by
  induction fs generalizing st with
  | nil => rfl
  | cons f fs ih =>
    simp only [fields, Step.withinData, Step.whereData]
    split
    next => exact ih (field o f st).state
    next hm =>
      rw [Bool.not_eq_true, State.hasMore_eq_false_iff] at hm
      have hle := remaining_afterElements_le o (f :: fs) st
      change st.remaining = _
      omega

theorem greedy_group (o : Options) (id : Nat) (g : Group) {children : List Field}
    (h : ∃ c ∈ children, Greedy fun st => (field o c st).state) :
    Greedy fun st => (field o (.group id g children) st).state := by
  intro st hm
  dsimp only
  rw [(group_agrees o id g children st).1, remaining_withinData]
  exact greedy_afterElements o h st hm

section Arrays

variable (o : Options) {id : Nat} {s : Series} {elements : List Field}

theorem remaining_readCount_lt {width : Nat} {inBytes : Bool} (hl : s.length = .inData width inBytes)
    (hw : 0 < width) {st : State} (hm : 0 < st.remaining) :
    (readCount s elements st).state.remaining < st.remaining := by
  simp only [readCount, hl]
  cases hr : st.cursor.readNat width with
  | error e => exact Nat.sub_lt hm hm
  | ok r =>
    obtain ⟨hle, -, hc⟩ := Bytes.Cursor.readNat_eq_ok_iff.mp hr
    have hr : r.2.remaining = st.remaining - width := hc ▸ rfl
    change r.2.remaining < st.remaining
    omega

theorem remaining_array_le (st : State) :
    (field o (.array id s elements) st).state.remaining ≤
      (readCount s elements st).state.remaining := by
  obtain ⟨n, hn⟩ := (local_elementsStep (fun c _ => localField o c) id s st.cursor.offset
    (readCount s elements st).count).forward (readCount s elements st).state
  change (elementsStep _ _ _ _ _ _ _ _).state.cursor.remaining ≤ _
  rw [hn]
  exact Nat.sub_le _ _

theorem paddingLength_pos {count : Option Nat} (hc : count ≠ some 0)
    (he : Field.anyEager elements = true) {st : State} (hm : 0 < st.remaining) :
    0 < paddingLength count elements st := by
  unfold paddingLength
  split
  next n size hsize =>
    have hs : 0 < size :=
      (Field.anyEager_iff_of_sizes (fun _ _ _ => Field.eager_iff_of_size) hsize).mp he
    have hn : 0 < n := Nat.pos_of_ne_zero fun hz => hc (congrArg some hz)
    exact Nat.mul_pos hn hs
  next => exact hm

theorem remaining_array_lt {count : Option Nat} {st : State}
    (hread : readCount s elements st = ⟨some count, [], st⟩) (hc : count ≠ some 0)
    (he : Field.anyEager elements = true) (hgreedy : Greedy (afterElements o elements))
    (hm : st.hasMore = true) :
    (field o (.array id s elements) st).state.remaining < st.remaining := by
  have hpos := (State.hasMore_iff st).mp hm
  cases hp : isPadding elements with
  | true =>
    simp only [field, arrayStep, hread, elementsStep, hp, if_true]
    exact Nat.sub_lt hpos (paddingLength_pos hc he hpos)
  | false =>
    obtain ⟨stop, hran, hrepeats⟩ := repeats_array o id hp (congrArg Count.count hread)
    rw [hread] at hran hrepeats
    have hn := hran.pos hm hc
    rw [hrepeats.state, hread, ← Nat.succ_pred_eq_of_pos hn, Function.iterate_succ_apply]
    have hle := Laps.remaining_iterate_le (remaining_afterElements_le o elements)
    exact Nat.lt_of_le_of_lt (hle _ _) (hgreedy st hm)

theorem greedy_array (h : ∀ c ∈ elements, c.eager = true → Greedy fun st => (field o c st).state)
    (ha : (Field.array id s elements).eager = true) :
    Greedy fun st => (field o (.array id s elements) st).state := by
  have hgreedy (he : Field.anyEager elements = true) : Greedy (afterElements o elements) := by
    obtain ⟨c, hc, hce⟩ := Field.anyEager_iff.mp he
    exact greedy_afterElements o ⟨c, hc, h c hc hce⟩
  intro st hm
  cases hl : s.length with
  | fixed n =>
    simp only [Field.eager, hl, Bool.and_eq_true, decide_eq_true_eq] at ha
    have hread : readCount s elements st = ⟨some (some n), [], st⟩ := by rw [readCount, hl]
    have hn : some n ≠ some 0 := fun hz => by cases hz; exact absurd ha.1 (by decide)
    exact remaining_array_lt o hread hn ha.2 (hgreedy ha.2) hm
  | inData width inBytes =>
    simp only [Field.eager, hl, decide_eq_true_eq] at ha
    have hpos := (State.hasMore_iff st).mp hm
    exact Nat.lt_of_le_of_lt (remaining_array_le o st) (remaining_readCount_lt hl ha hpos)
  | ofField counter =>
    rw [Field.eager, hl] at ha
    cases ha
  | untilExhausted =>
    simp only [Field.eager, hl] at ha
    have hread : readCount s elements st = ⟨some none, [], st⟩ := by rw [readCount, hl]
    exact remaining_array_lt o hread (by simp) ha (hgreedy ha) hm

end Arrays

theorem greedy_field (o : Options) {f : Field} (h : f.eager = true) :
    Greedy fun st => (field o f st).state := by
  induction f using Field.induction with
  | scalar id s => exact greedy_scalar o id h
  | bit id b => cases h
  | group id g children ih =>
    obtain ⟨c, hc, he⟩ := Field.anyEager_iff.mp h
    exact greedy_group o id g ⟨c, hc, ih c hc he⟩
  | array id s elements ih => exact greedy_array o ih h
  | bitArray id w children _ =>
    intro st hm
    simp only [Field.eager, decide_eq_true_eq] at h
    rw [State.hasMore_iff] at hm
    change (readBits w _ st).state.remaining < st.remaining
    rw [state_readBits]
    exact Nat.sub_lt hm h
  | stream id s =>
    intro st hm
    rw [State.hasMore_iff] at hm
    have hlen : 0 < min (s.maxLen.getD st.remaining) st.remaining := by
      cases hmax : s.maxLen with
      | none => simpa using hm
      | some max =>
        simp only [Field.eager, hmax, bne_iff_ne, ne_eq, Option.some.injEq] at h
        simp only [Option.getD_some]
        omega
    exact Nat.sub_lt hm hlen

theorem anyEager_of_inBytes {arena : Arena} {root : Nat} {l : Layout}
    (hb : Layout.build arena root = .ok l) {id width : Nat} {s : Series} {elements : List Field}
    (hf : .array id s elements ∈ l.root.preorder) (hl : s.length = .inData width true) :
    Field.anyEager elements = true := by
  obtain ⟨_, hg⟩ := (Layout.grown_of_build hb).2.of_mem_preorder hf
  obtain ⟨n, hn⟩ := hg.exists_size_of_inBytes hl
  have hsize : Field.sizes elements = some (n + 1) := sizes_of_sumSizes hb hf hn
  exact (Field.anyEager_iff_of_sizes (fun _ _ _ => Field.eager_iff_of_size) hsize).mpr n.succ_pos

theorem items_array_padding (o : Options) (id : Nat) {s : Series} {elements : List Field} {st : State}
    {count : Option Nat} (hc : (readCount s elements st).count = some count)
    (hp : isPadding elements = true) :
    (field o (.array id s elements) st).items =
      (readCount s elements st).notices.map Item.notice := by
  simp only [field, arrayStep, hc, elementsStep, hp, if_true, List.append_nil]

theorem repeats_array_counted (o : Options) (id : Nat) {s : Series} {elements : List Field}
    {st : State} {asked : Nat} (hc : (readCount s elements st).count = some (some asked))
    (hp : isPadding elements = false) :
    let n := lapsMade o elements (some asked) (readCount s elements st).state
    Repeats o id s elements st (some asked) n
      (if n < asked then [.arrayCut s.name n asked] else []) := by
  intro n
  obtain ⟨stop, hran, hrepeats⟩ := repeats_array o id hp hc
  obtain ⟨-, -, rfl⟩ := hran.ended.of_some
  rwa [apply_ite (stopNotices s (some asked) n)] at hrepeats

/-- No repetition begins behind the data, whatever number of them is asked for, and those that take
some of the data are no more than the bytes they begin with. So are all of them if an element is
greedy, as one is in an array counted in bytes. -/
theorem counted_repeats {arena : Arena} {root : Nat} {l : Layout}
    (hb : Layout.build arena root = .ok l) {id : Nat} {s : Series} {elements : List Field}
    (hf : .array id s elements ∈ l.root.preorder) (o : Options) {st : State} {asked : Nat}
    (hc : (readCount s elements st).count = some (some asked)) :
    let first := (readCount s elements st).state
    let n := lapsMade o elements (some asked) first
    let after (k : Nat) : State := (afterElements o elements)^[k] first
    (isPadding elements = true →
      (field o (.array id s elements) st).items =
        (readCount s elements st).notices.map Item.notice) ∧
      (isPadding elements = false →
        Repeats o id s elements st (some asked) n
          (if n < asked then [.arrayCut s.name n asked] else [])) ∧
      n ≤ asked ∧ (∀ k < n, (after k).hasMore = true) ∧ (n < asked → (after n).hasMore = false) ∧
      ((List.range n).filter fun k =>
        (after k).cursor.offset < (after (k + 1)).cursor.offset).length ≤ first.remaining ∧
      ((∃ c ∈ elements, Greedy fun st => (field o c st).state) → n ≤ first.remaining) ∧
      (Field.anyEager elements = true → ∃ c ∈ elements, Greedy fun st => (field o c st).state) ∧
      ∀ width, s.length = .inData width true → n ≤ first.remaining := by
  intro first n after
  obtain ⟨stop, hran, -⟩ := repetitions_eq_toldWithin o s elements (some asked) first
  have hnext := remaining_afterElements_le o elements
  have hmoves (k : Nat) : (after k).cursor.offset < (after (k + 1)).cursor.offset ↔
      (after (k + 1)).remaining < (after k).remaining := by
    simp only [after, Function.iterate_succ_apply']
    exact offset_lt_afterElements_iff o elements _
  have htaking := Laps.length_taking_add_le hnext first n
  have hgreedy (hg : ∃ c ∈ elements, Greedy fun st => (field o c st).state) :
      n ≤ first.remaining := by
    rw [Laps.length_taking_of_forall] at htaking
    · exact Nat.le_of_add_right_le htaking
    · rintro k hk
      rw [Function.iterate_succ_apply']
      exact greedy_afterElements o hg _ (hran.begun k hk)
  have heager (he : Field.anyEager elements = true) :
      ∃ c ∈ elements, Greedy fun st => (field o c st).state := by
    obtain ⟨c, hc, hce⟩ := Field.anyEager_iff.mp he
    exact ⟨c, hc, greedy_field o hce⟩
  obtain ⟨hle, hcut, -⟩ := hran.ended.of_some
  refine ⟨items_array_padding o id hc, repeats_array_counted o id hc, hle, hran.begun, hcut, ?_,
    hgreedy, heager, fun _ hl => hgreedy (heager (anyEager_of_inBytes hb hf hl))⟩
  simp only [hmoves]
  exact Nat.le_of_add_right_le htaking

namespace Pairs

def arena : Arena := #[
  .scalar { name := "pair", dataType := .ofBits .unsigned 16 },
  .array { name := "pairs", length := .inData 2 true } [0]]

def series : Series := { name := "pairs", length := .inData 2 true }

def pair : Field := .scalar 0 { name := "pair", dataType := .ofBits .unsigned 16 }

def layout : Layout := ⟨arena, .array 1 series [pair]⟩

end Pairs

open Pairs in
theorem counted_repeats_pairs :
    let st : State := .start [0xFF, 0xFF, 1, 2, 3]
    Layout.build arena 1 = .ok layout ∧
      (readCount series [pair] st).count = some (some 32767) ∧
      Repeats {} 1 series [pair] st (some 32767) 2 [.arrayCut "pairs" 2 32767] ∧
      2 ≤ (readCount series [pair] st).state.remaining := by
  intro st
  have hb : Layout.build arena 1 = .ok layout := rfl
  have hc : (readCount series [pair] st).count = some (some 32767) := by decide +kernel
  have hn : lapsMade {} [pair] (some 32767) (readCount series [pair] st).state = 2 := by
    decide +kernel
  obtain ⟨-, hrepeats, -, -, -, -, -, -, hle⟩ := counted_repeats hb (.head _) {} hc
  rw [hn] at hrepeats hle
  exact ⟨hb, hc, hrepeats rfl, hle 2 rfl⟩

namespace Blanks

def arena : Arena := #[
  .group { name := "row" } [],
  .array { name := "rows", length := .inData 1 false } [0]]

def series : Series := { name := "rows", length := .inData 1 false }

def row : Field := .group 0 { name := "row" } []

def layout : Layout := ⟨arena, .array 1 series [row]⟩

end Blanks

open Blanks in
theorem repeats_blanks :
    Layout.build arena 1 = .ok layout ∧
      (readCount series [row] (.start [0xFF, 0])).state.remaining = 1 ∧
      ∃ d, layout.decode {} [0xFF, 0] = .ok d ∧ d.consumed = 1 ∧
        (d.events.filter fun e => e matches .indexStart _).length = 255 := by
  have hb : Layout.build arena 1 = .ok layout := rfl
  refine ⟨hb, rfl, _, decode_of_build hb {} _, ?_, ?_⟩
  · decide +kernel
  · decide +kernel

end Decode
end Telemetry
