import Telemetry.Decode.Field
import Telemetry.Proofs.Layout.Growth

namespace Telemetry.Decode

open Layout (Scalar Window Field Group Series Kind Grown readings frame build_frameArena)

def Step.Takes {α : Type} (step : Step α) (n : Nat) : Prop :=
  ∀ s, (step s).state.cursor = s.cursor.advance n

namespace Step

variable {α β : Type} {a b : Step α} {m n : Nat}

theorem takes_tell (items : List α) : (tell items).Takes 0 := fun s =>
  s.cursor.advance_zero.symm

theorem Takes.andThen (ha : a.Takes m) (hb : b.Takes n) : (a.andThen b).Takes (m + n) := by
  intro s
  change (b (a s).state).state.cursor = _
  rw [hb, ha, Bytes.Cursor.advance_advance]

theorem Takes.mapItems (ha : a.Takes n) (f : List α → List β) : (a.mapItems f).Takes n := ha

theorem Takes.whereData (ha : a.Takes n) (items : List α) : (a.whereData items).Takes n := by
  intro s
  unfold Step.whereData
  split
  next => exact ha s
  next hmore =>
    rw [Bool.not_eq_true, State.hasMore_eq_false_iff] at hmore
    exact (Bytes.Cursor.advance_of_remaining_eq_zero hmore _).symm

theorem Takes.between (ha : a.Takes n) (opening closing : List α) :
    ((tell opening).andThen (a.andThen (tell closing))).Takes n := by
  have h := (takes_tell opening).andThen (ha.andThen (takes_tell closing))
  rwa [Nat.zero_add, Nat.add_zero] at h

theorem takes_sequence {steps : Field → Step α} {fs : List Field}
    (hs : ∀ f ∈ fs, ∀ n, f.size = some n → (steps f).Takes n) (h : Field.sizes fs = some n) :
    (sequence (fs.map steps)).Takes n := by
  induction fs generalizing n with
  | nil =>
    cases h
    exact takes_tell []
  | cons f fs ih =>
    simp only [Field.sizes, Option.bind_eq_some_iff, Option.map_eq_some_iff] at h
    obtain ⟨k, hk, m, hm, rfl⟩ := h
    exact (hs f List.mem_cons_self k hk).andThen
      (ih (fun g hg => hs g (List.mem_cons_of_mem _ hg)) hm)

theorem takes_whileData {cut : Nat → α} {steps : Field → Step α} {fs : List Field}
    (hs : ∀ f ∈ fs, ∀ n, f.size = some n → (steps f).Takes n) (h : Field.sizes fs = some n) :
    (whileData cut (fs.map steps)).Takes n := by
  induction fs generalizing n with
  | nil =>
    cases h
    exact takes_tell []
  | cons f fs ih =>
    simp only [Field.sizes, Option.bind_eq_some_iff, Option.map_eq_some_iff] at h
    obtain ⟨k, hk, m, hm, rfl⟩ := h
    have hfs := ih (fun g hg => hs g (List.mem_cons_of_mem _ hg)) hm
    exact ((hs f List.mem_cons_self k hk).andThen hfs).whereData _

end Step

theorem Laps.cursor_counted {α : Type} {lap : Nat → Step α} {n : Nat}
    (h : ∀ index, (lap index).Takes n) (count index : Nat) (s : State) :
    (counted lap count index s).state.cursor = s.cursor.advance (n * count) := by
  induction count generalizing index s with
  | zero => exact s.cursor.advance_zero.symm
  | succ count ih =>
    rw [counted]
    split
    next =>
      change (counted lap count (index + 1) (lap index s).state).state.cursor = _
      rw [ih, h, Bytes.Cursor.advance_advance, Nat.mul_succ, Nat.add_comm]
    next hmore =>
      rw [Bool.not_eq_true, State.hasMore_eq_false_iff] at hmore
      exact (Bytes.Cursor.advance_of_remaining_eq_zero hmore _).symm

theorem extent?_of_byteLen {s : Scalar} {n : Nat} (hl : s.lengthBytes = none)
    (hn : s.dataType.byteLen = some n) (c : Bytes.Cursor) : extent? s c = some ⟨n, c, []⟩ := by
  rw [extent?, hl, hn]
  rfl

theorem cursor_readLeaf (channels : Bool) (id : Nat) (s : Scalar) (bytes : List UInt8)
    (past : State) : (readLeaf channels id s bytes past).state.cursor = past.cursor := by
  unfold readLeaf
  split
  next => rfl
  next => rfl
  next dn _ => exact State.cursor_remember past id dn

theorem cursor_readScalar {s : Scalar} {st : State} {e : Extent}
    (h : extent? s st.cursor = some e) (channels : Bool) (id : Nat) :
    (readScalar channels id s st).state.cursor = e.cursor.advance e.length := by
  simp only [readScalar, h]
  split
  next => rfl
  next =>
    split
    next => rfl
    next bytes _ _ => exact cursor_readLeaf channels id s bytes _

theorem cursor_readBits (w : Window) (bits : List Layout.BitField) (st : State) :
    (readBits w bits st).state.cursor = st.cursor.advance w.byteLen := by
  unfold readBits
  split <;> rfl

structure Sized (o : Options) (f : Field) : Prop where
  plain : ∀ n, f.size = some n → (field o f).Takes n
  gathered : ∀ resolved n, f.size = some n → (gathered o resolved f).Takes n

theorem sized_scalar (o : Options) (id : Nat) (s : Scalar) : Sized o (.scalar id s) := by
  have h (n : Nat) (hn : (Field.scalar id s).size = some n) (st : State) :
      (readScalar o.channels id s st).state.cursor = st.cursor.advance n := by
    simp only [Field.size] at hn
    split at hn
    next => cases hn
    next hl =>
      rw [Option.not_isSome_iff_eq_none] at hl
      exact cursor_readScalar (extent?_of_byteLen hl hn st.cursor) o.channels id
  exact ⟨fun n hn st => h n hn st, fun _ n hn st => h n hn st⟩

theorem sized_bitArray (o : Options) (id : Nat) (w : Window) (children : List Field) :
    Sized o (.bitArray id w children) := by
  constructor
  · rintro n ⟨⟩ st
    exact cursor_readBits w _ st
  · rintro resolved n ⟨⟩ st
    exact cursor_readBits w _ st

theorem takes_group {o : Options} {id n : Nat} {g : Group} {children : List Field}
    (h : ∀ c ∈ children, Sized o c) (hn : (Field.group id g children).size = some n) :
    (field o (.group id g children)).Takes n := by
  rw [Field.size] at hn
  simp only [field, groupStep]
  split
  next =>
    rw [fields_eq_map]
    exact (Step.takes_whileData (fun c hc => (h c hc).plain) hn).between _ _
  next format _ =>
    rw [gathers_fields]
    exact (Step.takes_whileData (fun c hc => (h c hc).gathered false) hn).mapItems (lines format)

theorem takes_labelled {o : Options} {s : Series} {elements : List Field} {n : Nat}
    (h : ∀ c ∈ elements, Sized o c) (hn : Field.sizes elements = some n) (index : Nat) :
    (labelled s (fields o elements) index).Takes n := by
  rw [fields_eq_map]
  exact (Step.takes_sequence (fun c hc => (h c hc).plain) hn).between _ _

theorem takes_array {o : Options} {id n : Nat} {s : Series} {elements : List Field}
    (h : ∀ c ∈ elements, Sized o c) (hn : (Field.array id s elements).size = some n) :
    (field o (.array id s elements)).Takes n := by
  simp only [Field.size] at hn
  split at hn
  next count hlength =>
    simp only [Option.map_eq_some_iff] at hn
    obtain ⟨m, hm, rfl⟩ := hn
    intro st
    have hc : readCount s elements st = ⟨some (some count), [], st⟩ := by
      rw [readCount, hlength]
    simp only [field, arrayStep, hc, elementsStep]
    split
    next =>
      -- padding is skipped in one go, by the size of so many elements
      simp only [paddingLength, hm, State.cursor_advance, Nat.mul_comm]
    next =>
      simp only [repetitions]
      split
      next => exact Laps.cursor_counted (takes_labelled h hm) count 0 st
      next =>
        rw [gathers_fields]
        have hs := Step.takes_sequence (fun c hc => (h c hc).gathered (isUniform elements)) hm
        exact Laps.cursor_counted (fun _ => hs) count 0 st
  next => cases hn

theorem sized (o : Options) (f : Field) : Sized o f := by
  induction f using Field.induction with
  | scalar id s => exact sized_scalar o id s
  | bit id b => exact ⟨nofun, nofun⟩
  | group id g children ih =>
    exact ⟨fun _ => takes_group ih, fun _ _ hn => (takes_group ih hn).mapItems _⟩
  | array id s elements ih =>
    exact ⟨fun _ => takes_array ih, fun _ _ hn => (takes_array ih hn).mapItems _⟩
  | bitArray id w children _ => exact sized_bitArray o id w children
  | stream id s => exact ⟨nofun, nofun⟩

/-- The size that the arena gives for a field is what decoding it takes, alone or for the print
format around it, as far as there is data. -/
theorem offset_field_of_sizeIn {arena : Layout.Arena} {root : Nat} {l : Layout}
    (hb : Layout.build arena root = .ok l) {f : Field} (hf : f ∈ l.root.preorder) {n : Nat}
    (hn : Layout.sizeIn arena arena.size f.id = .ok (some n)) (o : Options) (resolved : Bool)
    (st : State) :
    (field o f st).state.cursor.offset = st.cursor.offset + min n st.remaining ∧
      (gather o resolved f (field o f) st).state.cursor.offset =
        st.cursor.offset + min n st.remaining := by
  obtain ⟨parent, hg⟩ := (Layout.grown_of_build hb).2.of_mem_preorder hf
  rw [hg.sizeIn_id hg.id_lt_size, Except.ok.injEq] at hn
  have hs := sized o f
  constructor
  · exact congrArg Bytes.Cursor.offset (hs.plain n hn st)
  · exact congrArg Bytes.Cursor.offset (hs.gathered resolved n hn st)

theorem offset_field_readings :
    (field {} readings (.start [1, 2, 3, 4, 5, 6, 7, 8])).state.cursor.offset = 0 + min 12 8 ∧
      (gather {} true readings (field {} readings)
        (.start [1, 2, 3, 4, 5, 6, 7, 8])).state.cursor.offset = 0 + min 12 8 := by
  have hf : readings ∈ frame.root.preorder := .tail _ (.tail _ (.head _))
  exact offset_field_of_sizeIn build_frameArena hf rfl {} true _

end Telemetry.Decode
