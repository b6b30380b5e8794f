import Telemetry.Proofs.Decode.Soundness
import Telemetry.Proofs.Decode.Truncation

namespace Telemetry

def Decoded.values (d : Decoded) : List Event := d.events.filter (·.shown?.isSome)

namespace Decode

open Layout (Arena Scalar BitField Window Field Group Series Stream Grown Kind frame
  frameData build_frameArena)

theorem result?_displayed {s : Stream} (h : s.display ≠ .text) (offset : Nat)
    (bytes : List UInt8) : (displayed s offset bytes).filterMap Item.result? = [] := by
  unfold displayed
  split
  next => rfl
  next ht => exact absurd ht h
  next =>
    rw [List.filterMap_map]
    exact List.filterMap_eq_nil_iff.mpr fun _ _ => rfl

/-- The values of the field, apart from those below it, are there whole or not at all: a scalar that
is not skipped has a length of its own, and a stream is not shown as text. -/
def Undivided : Field → Prop
  | .scalar _ s => s.isFill = false →
    s.lengthBytes = none ∧ ∃ n ∈ s.dataType.byteLen, 0 < n
  | .stream _ s => s.display ≠ .text
  | _ => True

instance (f : Field) : Decidable (Undivided f) :=
  match f with
  | .scalar _ s => inferInstanceAs (Decidable (s.isFill = false →
      s.lengthBytes = none ∧ ∃ n ∈ s.dataType.byteLen, 0 < n))
  | .stream _ s => inferInstanceAs (Decidable (s.display ≠ .text))
  | .bit .. | .group .. | .array .. | .bitArray .. => .isTrue trivial

theorem readScalar_of_isFill {s : Scalar} (h : s.isFill = true) (channels : Bool) (id : Nat)
    (st : State) : (readScalar channels id s st).dn = none ∧
      (readScalar channels id s st).items.filterMap Item.result? = [] := by
  unfold readScalar
  split
  next => exact ⟨rfl, rfl⟩
  next e _ =>
    simp only [if_pos h, List.filterMap_append, filterMap_result?_notices]
    refine ⟨trivial, ?_⟩
    split <;> rfl

section Whole

variable {s : Scalar} {n : Nat} {st : State}

theorem readScalar_of_lt (hf : s.isFill = false) (hl : s.lengthBytes = none)
    (hn : s.dataType.byteLen = some n) (h : st.remaining < n) (channels : Bool) (id : Nat) :
    (readScalar channels id s st).dn = none ∧
      (readScalar channels id s st).items.filterMap Item.result? = [] := by
  have hr : st.cursor.read n = .error ⟨st.cursor.remaining, n⟩ := if_neg (Nat.not_le.mpr h)
  simp only [readScalar, extent?_of_byteLen hl hn, hf, hr]
  exact ⟨rfl, rfl⟩

theorem readScalar_of_le (hf : s.isFill = false) (hl : s.lengthBytes = none)
    (hn : s.dataType.byteLen = some n) (h : n ≤ st.remaining) (channels : Bool) (id : Nat) :
    readScalar channels id s st = readLeaf channels id s (st.cursor.rest.take n) (st.advance n) := by
  have hr : st.cursor.read n = .ok (st.cursor.rest.take n, st.cursor.advance n) := if_pos h
  simp only [readScalar, extent?_of_byteLen hl hn, hf, hr]
  rfl

theorem readScalar_extend (hf : s.isFill = false) (hl : s.lengthBytes = none)
    (hn : s.dataType.byteLen = some n) (h : n ≤ st.remaining) (more : List UInt8)
    (channels : Bool) (id : Nat) :
    (readScalar channels id s (st.extend more)).dn = (readScalar channels id s st).dn ∧
      (readScalar channels id s (st.extend more)).items = (readScalar channels id s st).items := by
  have hle : n ≤ (st.extend more).remaining := by
    rw [State.remaining_extend]
    omega
  rw [readScalar_of_le hf hl hn hle, readScalar_of_le hf hl hn h, State.take_extend h,
    State.advance_extend h, State.extend, readLeaf_onto]
  exact ⟨rfl, rfl⟩

end Whole

structure TruncatesField (o : Options) (f : Field) : Prop where
  plain : (field o f).Truncates Item.result?
  gathered : ∀ resolved, (gathered o resolved f).Truncates Piece.result?

theorem filterMap_result?_scalarStep {o : Options} {id : Nat} {s : Scalar} {st : State}
    (h : (readScalar o.channels id s st).dn = none ∧
      (readScalar o.channels id s st).items.filterMap Item.result? = []) :
    (scalarStep o id s st).items.filterMap Item.result? = [] := by
  simp only [scalarStep, h.1, Option.map_none, Option.getD_none, List.append_nil, h.2]

theorem filterMap_result?_gathered_scalar (o : Options) (resolved : Bool) (id : Nat) (s : Scalar)
    (st : State) : (gathered o resolved (.scalar id s) st).items.filterMap Piece.result? =
      (readScalar o.channels id s st).items.filterMap Item.result? := by
  rw [result?_eq_through, filterMap_through_gathered_scalar fun _ => rfl]

theorem truncatesField_scalar {o : Options} {id : Nat} {s : Scalar}
    (h : Undivided (.scalar id s)) : TruncatesField o (.scalar id s) := by
  have hl := localField o (.scalar id s)
  cases hf : s.isFill with
  | true =>
    have hr := readScalar_of_isFill hf o.channels id
    constructor
    · exact Step.truncates_of_silent hl.plain fun st => filterMap_result?_scalarStep (hr st)
    · intro resolved
      apply Step.truncates_of_silent (hl.gathered resolved)
      intro st
      rw [filterMap_result?_gathered_scalar, (hr st).2]
  | false =>
    obtain ⟨hw, n, hn, hpos⟩ := h hf
    constructor
    · apply Step.truncates_of_read hpos hl.plain
      · intro st hs
        exact filterMap_result?_scalarStep (readScalar_of_lt hf hw hn hs o.channels id)
      · intro st more hs
        obtain ⟨hdn, hitems⟩ := readScalar_extend hf hw hn hs more o.channels id
        simp only [field, scalarStep, hdn, hitems]
    · intro resolved
      apply Step.truncates_of_read hpos (hl.gathered resolved)
      · intro st hs
        rw [filterMap_result?_gathered_scalar, (readScalar_of_lt hf hw hn hs o.channels id).2]
      · intro st more hs
        rw [filterMap_result?_gathered_scalar, filterMap_result?_gathered_scalar,
          (readScalar_extend hf hw hn hs more o.channels id).2]

theorem readBits_of_lt {w : Window} {st : State} (h : st.remaining < w.byteLen)
    (bits : List BitField) : (readBits w bits st).values = [] := by
  have hr : st.cursor.read w.byteLen = .error ⟨st.cursor.remaining, w.byteLen⟩ :=
    if_neg (Nat.not_le.mpr h)
  rw [readBits, hr]

theorem readBits_extend {w : Window} {st : State} (h : w.byteLen ≤ st.remaining)
    (more : List UInt8) (bits : List BitField) :
    (readBits w bits (st.extend more)).values = (readBits w bits st).values := by
  have hr (st : State) (h : w.byteLen ≤ st.remaining) : (readBits w bits st).values =
      (extractAll (st.cursor.rest.take w.byteLen) 0 bits).1 := by
    have hr : st.cursor.read w.byteLen = .ok (st.cursor.rest.take w.byteLen, _) := if_pos h
    rw [readBits, hr]
  have hle : w.byteLen ≤ (st.extend more).remaining := by
    rw [State.remaining_extend]
    omega
  rw [hr _ h, hr _ hle, State.take_extend h]

theorem readBits_nil (w : Window) (st : State) : (readBits w [] st).values = [] := by
  unfold readBits
  split <;> rfl

theorem bits_eq_nil {arena : Arena} {parent : Option Kind} {id : Nat} {w : Window}
    {children : List Field} (h : Grown arena parent (.bitArray id w children))
    (hz : w.byteLen = 0) : children.filterMap Field.bit? = [] := by
  cases hb : children.filterMap Field.bit? with
  | nil => rfl
  | cons b bs =>
    have hpos := (h.bit_bounds b (hb ▸ List.mem_cons_self)).1
    have hsum := h.sum_bits
    rw [hb, Layout.totalBits] at hsum
    have hw := bits_le_byteLen w
    omega

theorem filterMap_result?_bitsStep (o : Options) (w : Window) (bits : List BitField) (st : State) :
    (bitsStep o w bits st).items.filterMap Item.result? =
      ((readBits w bits st).values.flatMap fun p =>
        shown o p.1.name p.1.attrs p.2).filterMap Item.result? := by
  simp only [bitsStep, List.filterMap_append, filterMap_result?_notices, List.nil_append]

theorem filterMap_result?_gathered_bitArray (o : Options) (resolved : Bool) (id : Nat) (w : Window)
    (children : List Field) (st : State) :
    (gathered o resolved (.bitArray id w children) st).items.filterMap Piece.result? = [] := by
  rw [result?_eq_through, filterMap_through_gathered_bitArray fun _ => rfl]

theorem truncatesField_bitArray {arena : Arena} {parent : Option Kind} {id : Nat} {w : Window}
    {children : List Field} (h : Grown arena parent (.bitArray id w children)) (o : Options) :
    TruncatesField o (.bitArray id w children) := by
  have hl := localField o (.bitArray id w children)
  constructor
  · by_cases hpos : 0 < w.byteLen
    · apply Step.truncates_of_read hpos hl.plain
      · intro st hs
        rw [field, filterMap_result?_bitsStep, readBits_of_lt hs]
        rfl
      · intro st more hs
        rw [field, filterMap_result?_bitsStep, filterMap_result?_bitsStep, readBits_extend hs]
    · -- a window of no bytes has no bits
      apply Step.truncates_of_silent hl.plain
      intro st
      rw [field, filterMap_result?_bitsStep, bits_eq_nil h (by omega), readBits_nil]
      rfl
  · intro resolved
    apply Step.truncates_of_silent (hl.gathered resolved)
    intro st
    exact filterMap_result?_gathered_bitArray o resolved id w children st

theorem truncatesField_stream {id : Nat} {s : Stream} (h : Undivided (.stream id s))
    (o : Options) : TruncatesField o (.stream id s) := by
  have hp : (field o (.stream id s)).Truncates Item.result? := by
    apply Step.truncates_of_silent (localField o (.stream id s)).plain
    intro st
    simp only [field, streamStep, List.filterMap_append, result?_displayed h, List.nil_append]
    split <;> rfl
  exact ⟨hp, fun _ => hp.pieces⟩

theorem truncates_group {o : Options} {children : List Field}
    (h : ∀ c ∈ children, TruncatesField o c) (id : Nat) (g : Group) :
    (field o (.group id g children)).Truncates Item.result? := by
  simp only [field, groupStep]
  split
  next =>
    have hc := forall_mem_fields fun c hc => (h c hc).plain
    exact (Step.truncates_whileData (fun _ => rfl) hc).between rfl rfl
  next format _ =>
    have hc := forall_mem_gathers fun c hc => (h c hc).gathered false
    exact (Step.truncates_whileData (fun _ => rfl) hc).lines format

theorem truncates_repetitions {o : Options} {elements : List Field}
    (h : ∀ c ∈ elements, TruncatesField o c) (s : Series) (count : Option Nat) :
    Step.Truncates Item.result? (repetitions o s elements (fields o elements) count) := by
  have hl := local_repetitions (fun c (_ : c ∈ elements) => localField o c) s count
  unfold repetitions at hl ⊢
  cases hp : s.printFormat with
  | none =>
    have hc := forall_mem_fields fun c hc => (h c hc).plain
    have hlap (index : Nat) : (labelled s (fields o elements) index).Truncates Item.result? :=
      (Step.truncates_sequence hc).between rfl rfl
    simp only [hp] at hl ⊢
    apply (Laps.truncates_step hlap count).congr hl
    · intro st
      rw [List.filterMap_append, filterMap_result?_notices, List.append_nil]
      rfl
    · exact fun _ => rfl
  | some format =>
    have hc := forall_mem_gathers fun c hc => (h c hc).gathered (isUniform elements)
    have hlap := Step.truncates_sequence hc
    simp only [hp] at hl ⊢
    apply (Laps.truncates_step (fun _ => hlap) count).congr hl
    · intro st
      rw [lines, filterMap_result?_gatherLines, List.filterMap_append, filterMap_result?_pieces,
        filterMap_result?_notices, List.append_nil]
      rfl
    · exact fun _ => rfl

theorem truncates_elementsStep {o : Options} {elements : List Field}
    (h : ∀ c ∈ elements, TruncatesField o c) (id : Nat) (s : Series) (start : Nat)
    (count : Option (Option Nat)) :
    (elementsStep o id s elements (fields o elements) start count).Truncates Item.result? := by
  have hl := local_elementsStep (fun c (_ : c ∈ elements) => localField o c) id s start count
  cases count with
  | none => exact Step.truncates_tell rfl
  | some count =>
    by_cases hp : isPadding elements = true
    · simp only [elementsStep, if_pos hp] at hl ⊢
      exact Step.truncates_of_silent hl fun _ => rfl
    · simp only [elementsStep, if_neg hp] at hl ⊢
      apply (truncates_repetitions h s count).congr hl
      · intro st
        simp only [List.filterMap_append, List.filterMap_cons, Item.result?,
          filterMap_result?_notices, List.append_nil]
      · exact fun _ => rfl

theorem truncates_array {o : Options} {elements : List Field}
    (h : ∀ c ∈ elements, TruncatesField o c) (id : Nat) (s : Series) :
    (field o (.array id s elements)).Truncates Item.result? := by
  have hc := (local_readCount s elements).withOffsets
  have hb := Step.truncates_bind hc fun c => truncates_elementsStep h id s c.1 c.2.1.1
  apply hb.congr (localField o (.array id s elements)).plain
  · intro st
    simp only [field, arrayStep, List.filterMap_append, filterMap_result?_notices, List.nil_append]
  · exact fun _ => rfl

theorem truncatesField {arena : Arena} {parent : Option Kind} {f : Field}
    (h : Grown arena parent f) (hw : ∀ g ∈ f.preorder, Undivided g) (o : Options) :
    TruncatesField o f := by
  induction f using Field.induction generalizing parent with
  | scalar id s => exact truncatesField_scalar (Field.forall_mem_preorder.mp hw).1
  | bit id b => exact ⟨Step.truncates_tell rfl, fun _ => (Step.truncates_tell rfl).pieces⟩
  | group id g children ih =>
    obtain ⟨-, -, -, hcs⟩ := h
    have hbelow := (Field.forall_mem_preorder.mp hw).2
    have ht := truncates_group (fun c hc => ih c hc (hcs c hc) (hbelow c hc)) id g
    exact ⟨ht, fun _ => ht.pieces⟩
  | array id s elements ih =>
    obtain ⟨-, -, -, hcs⟩ := h
    have hbelow := (Field.forall_mem_preorder.mp hw).2
    have ht := truncates_array (fun c hc => ih c hc (hcs c hc) (hbelow c hc)) id s
    exact ⟨ht, fun _ => ht.pieces⟩
  | bitArray id w children _ => exact truncatesField_bitArray h o
  | stream id s => exact truncatesField_stream (Field.forall_mem_preorder.mp hw).1 o

theorem Step.Truncates.prefix_take {α : Type} {r : α → Option Item} {step : Step α}
    (h : step.Truncates r) (data : List UInt8) (k : Nat) :
    (step (.start (data.take k))).items.filterMap r <+: (step (.start data)).items.filterMap r := by
  have hs : (State.start (data.take k)).extend (data.drop k) = .start data :=
    congrArg State.start (List.take_append_drop k data)
  by_cases hz : (step (.start (data.take k))).state.remaining = 0
  · have hcut := h.cut _ (data.drop k) hz
    rwa [hs] at hcut
  · have hi := (h.isLocal.extend hz (data.drop k)).1
    rw [hs] at hi
    simp only [hi, List.prefix_rfl]

theorem candidates_eq (d : Decoded) :
    d.candidates = (d.trace.filterMap Item.result?).filterMap Item.candidate? := by
  rw [List.filterMap_filterMap, Decoded.candidates]
  congr
  funext i
  cases i with
  | event e => cases e <;> rfl
  | _ => rfl

theorem values_eq (d : Decoded) :
    d.values = (d.trace.filterMap Item.result?).filterMap Item.event? := by
  rw [List.filterMap_filterMap, Decoded.values, Decoded.events, List.filter_filterMap]
  congr
  funext i
  cases i with
  | event e => cases e <;> rfl
  | _ => rfl

/-- A product cut short gives no value that the whole product does not: with fields that are there
whole or not at all, what it offers for samples and what it shows under names are the first of what
the whole product does. -/
theorem decode_take_isPrefix {arena : Arena} {root : Nat} {l : Layout}
    (hb : Layout.build arena root = .ok l) (hw : ∀ f ∈ l.root.preorder, Undivided f)
    (o : Options) (data : List UInt8) (k : Nat) :
    ∃ short whole, l.decode o (data.take k) = .ok short ∧ l.decode o data = .ok whole ∧
      short.candidates <+: whole.candidates ∧ short.values <+: whole.values := by
  have ht := truncatesField (Layout.grown_of_build hb).2 hw o
  have hp := ht.plain.prefix_take data k
  refine ⟨_, _, decode_of_build hb o (data.take k), decode_of_build hb o data, ?_, ?_⟩
  · rw [candidates_eq, candidates_eq]
    exact hp.filterMap Item.candidate?
  · rw [values_eq, values_eq]
    exact hp.filterMap Item.event?

theorem decode_take_frame :
    ∃ short whole, frame.decode {} (frameData.take 6) = .ok short ∧
      frame.decode {} frameData = .ok whole ∧
      short.candidates <+: whole.candidates ∧ short.values <+: whole.values :=
  decode_take_isPrefix build_frameArena (by decide) {} frameData 6

end Decode
end Telemetry
