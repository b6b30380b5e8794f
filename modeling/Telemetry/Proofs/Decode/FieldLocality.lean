import Telemetry.Proofs.Decode.Locality
import Telemetry.Proofs.Decode.StaticSize

namespace Telemetry.Decode

open Bytes (Cursor)
open Layout (Scalar BitField Window Field Group Series Stream)

theorem exists_cursor_of_extent? {s : Scalar} {c : Cursor} {e : Extent}
    (h : extent? s c = some e) : ∃ n, e.cursor = c.advance n := by
  unfold extent? at h
  split at h
  next =>
    cases h
    exact ⟨0, c.advance_zero.symm⟩
  next width hw =>
    split at h
    next => cases h
    next length d hr =>
      obtain ⟨-, -, rfl⟩ := Cursor.readNat_eq_ok_iff.mp hr
      split at h <;> cases h <;> exact ⟨width, rfl⟩

theorem extent?_onto {s : Scalar} {c : Cursor} {taken left : List UInt8} {e : Extent}
    (hl : left ≠ []) (he : extent? s (c.onto (taken ++ left)) = some e)
    (hr : (e.cursor.advance e.length).rest = left) (left' : List UInt8) :
    ∃ (bytes : List UInt8) (d : Cursor), e = ⟨bytes.length, d.onto (bytes ++ left), []⟩ ∧
      extent? s (c.onto (taken ++ left')) = some ⟨bytes.length, d.onto (bytes ++ left'), []⟩ := by
  unfold extent? at he ⊢
  cases hw : s.lengthBytes with
  | none =>
    simp only [hw, Option.some.injEq] at he ⊢
    subst he
    cases hb : s.dataType.byteLen with
    | none =>
      -- a value of all the data leaves none
      simp only [hb, Option.getD_none, Cursor.rest_advance, Cursor.remaining_onto, Cursor.rest_onto,
        List.drop_length] at hr
      exact absurd hr.symm hl
    | some n =>
      simp only [hb, Option.getD_some, Cursor.rest_advance, Cursor.rest_onto] at hr
      obtain rfl := eq_length_of_drop_append hl hr
      exact ⟨taken, c, rfl, rfl⟩
  | some width =>
    simp only [hw] at he ⊢
    split at he
    next => cases he
    next length d hd =>
      obtain ⟨-, hlength, rfl⟩ := Cursor.readNat_eq_ok_iff.mp hd
      split at he
      next =>
        -- a length past the data takes all of it
        cases he
        simp only [Cursor.rest_advance, Cursor.remaining_eq, List.drop_length] at hr
        exact absurd hr.symm hl
      next hfits =>
        cases he
        simp only [Cursor.rest_advance, Cursor.rest_onto] at hr
        obtain ⟨before, bytes, rfl, hmid⟩ := exists_append_of_drop_drop hr
        rw [hmid] at hr
        obtain rfl := eq_length_of_drop_append hl hr
        rw [List.append_assoc] at hmid
        obtain rfl : width = before.length := eq_length_of_drop_append (by simp [hl]) hmid
        simp only [List.append_assoc, Cursor.rest_onto, List.take_left] at hlength ⊢
        refine ⟨bytes, (c.onto (before ++ (bytes ++ left))).advance before.length, ?_, ?_⟩
        · exact congrArg (Extent.mk _ · []) (Cursor.onto_eq_self (by simp)).symm
        · simp only [Cursor.readNat_onto_append, ← hlength, Cursor.remaining_advance,
            Cursor.remaining_onto, List.length_append]
          rw [if_neg (by omega), c.advance_onto_append before (bytes ++ left) (bytes ++ left')]

theorem State.remember_onto (s : State) (id : Nat) (dn : Value) (rest : List UInt8) :
    (s.onto rest).remember id dn = (s.remember id dn).onto rest := by
  unfold State.remember
  split <;> rfl

theorem readLeaf_onto (channels : Bool) (id : Nat) (s : Scalar) (bytes : List UInt8) (past : State)
    (rest : List UInt8) : readLeaf channels id s bytes (past.onto rest) =
      { readLeaf channels id s bytes past with
        state := (readLeaf channels id s bytes past).state.onto rest } := by
  unfold readLeaf
  split
  next => rfl
  next => rfl
  next dn _ => rw [State.remember_onto]

theorem local_readScalar (channels : Bool) (id : Nat) (s : Scalar) :
    Local (fun st => ((readScalar channels id s st).dn, (readScalar channels id s st).items))
      (fun st => (readScalar channels id s st).state) where
  forward st := by
    cases he : extent? s st.cursor with
    | none =>
      simp only [readScalar, he]
      exact ⟨_, rfl⟩
    | some e =>
      obtain ⟨n, hn⟩ := exists_cursor_of_extent? he
      exact ⟨n + e.length, by rw [cursor_readScalar he, hn, Cursor.advance_advance]⟩
  blind st taken left left' hl hl' hr := by
    cases he : extent? s (st.onto (taken ++ left)).cursor with
    | none =>
      simp only [readScalar, he] at hr
      have hend : List.drop (taken ++ left).length (taken ++ left) = left := hr
      rw [List.drop_length] at hend
      exact absurd hend.symm hl
    | some e =>
      rw [cursor_readScalar he] at hr
      obtain ⟨bytes, d, rfl, he'⟩ := extent?_onto hl he hr left'
      have hfits (rest : List UInt8) : ¬(d.onto (bytes ++ rest)).remaining < bytes.length := by
        rw [Cursor.remaining_onto, List.length_append]
        omega
      rw [State.cursor_onto] at he
      simp only [readScalar, State.cursor_onto, he, he', if_neg (hfits _), Cursor.read_onto_append]
      have hpast : State.mk ((d.onto (bytes ++ left')).advance bytes.length) st.remembered =
          State.onto ⟨(d.onto (bytes ++ left)).advance bytes.length, st.remembered⟩ left' :=
        congrArg (State.mk · st.remembered) (d.advance_onto_append bytes left left')
      split
      next => exact ⟨rfl, hpast⟩
      next =>
        simp only [State.remembered_onto]
        rw [hpast, readLeaf_onto]
        exact ⟨rfl, rfl⟩

theorem local_readBits (w : Window) (bits : List BitField) :
    Local (fun st => ((readBits w bits st).values, (readBits w bits st).notices))
      (fun st => (readBits w bits st).state) where
  forward st := ⟨w.byteLen, cursor_readBits w bits st⟩
  blind st taken left left' hl hl' hr := by
    rw [cursor_readBits] at hr
    have hw : w.byteLen = taken.length := eq_length_of_drop_append hl hr
    simp only [readBits, hw, State.cursor_onto, Cursor.read_onto_append, true_and]
    exact ((Local.advance taken.length).blind st taken left left' hl hl' (hw ▸ hr)).2

theorem local_streamStep (s : Stream) : (streamStep s).Local where
  forward st := ⟨_, rfl⟩
  blind st taken left left' hl hl' hr := by
    simp only [streamStep, State.cursor_advance, State.cursor_onto, State.remaining_onto,
      Cursor.rest_advance, Cursor.rest_onto] at hr
    have hlength := eq_length_of_drop_append hl hr
    have hp := List.length_pos_iff.mpr hl
    have hp' := List.length_pos_iff.mpr hl'
    -- without a limit below what remains, nothing would be left
    have hmax (rest : List UInt8) (hrest : 0 < rest.length) :
        min (s.maxLen.getD (taken ++ rest).length) (taken ++ rest).length = taken.length := by
      cases hm : s.maxLen with
      | none =>
        simp only [hm, Option.getD_none, List.length_append] at hlength
        omega
      | some n =>
        simp only [hm, Option.getD_some, List.length_append] at hlength ⊢
        omega
    simp only [streamStep, State.cursor_onto, State.remaining_onto, Cursor.rest_onto,
      hmax left hp, hmax left' hp', List.take_left]
    exact ⟨rfl, ((Local.advance taken.length).blind st taken left left' hl hl' (hlength ▸ hr)).2⟩

theorem cursor_readCount_inData {s : Series} {width : Nat} {inBytes : Bool}
    (h : s.length = .inData width inBytes) (elements : List Field) (st : State) :
    (readCount s elements st).state.cursor = st.cursor.advance width := by
  simp only [readCount, h]
  split
  next hr =>
    have hshort := Cursor.exists_readNat_eq_error_iff.mp ⟨_, hr⟩
    exact (Cursor.advance_of_le (by omega)).symm
  next hr => exact (Cursor.readNat_eq_ok_iff.mp hr).2.2

theorem local_readCount (s : Series) (elements : List Field) :
    Local (fun st => ((readCount s elements st).count, (readCount s elements st).notices))
      (fun st => (readCount s elements st).state) := by
  cases hs : s.length with
  | fixed n => simpa only [readCount, hs] using Local.stay (some (some n), [])
  | untilExhausted => simpa only [readCount, hs] using Local.stay (some none, [])
  | ofField id =>
    have hr := Local.remembered.map fun memory => (memory.get? id).elim
      (some (some 0), [Notice.noLength s.name]) fun n => (some (some n), [])
    apply hr.congr
    all_goals
      intro st
      cases hm : st.remembered.get? id <;> simp only [readCount, hs, hm, Option.elim]
  | inData width inBytes =>
    constructor
    · exact fun st => ⟨width, cursor_readCount_inData hs elements st⟩
    · intro st taken left left' hl hl' hr
      rw [cursor_readCount_inData hs] at hr
      obtain rfl := eq_length_of_drop_append hl hr
      simp only [readCount, hs, State.cursor_onto, Cursor.readNat_onto_append, true_and]
      exact ((Local.advance taken.length).blind st taken left left' hl hl' hr).2

structure LocalField (o : Options) (f : Field) : Prop where
  plain : (field o f).Local
  gathered : ∀ resolved, (gathered o resolved f).Local

theorem localField_scalar (o : Options) (id : Nat) (s : Scalar) : LocalField o (.scalar id s) := by
  have hr := local_readScalar o.channels id s
  constructor
  · exact hr.map fun r => r.2 ++ (r.1.map (shown o s.name s.attrs)).getD []
  · intro resolved
    exact hr.withOffsets.map fun r => r.2.1.2.map .item ++
      (r.2.1.1.map (sampled o resolved r.1 s.name s.attrs)).getD []

theorem localField_bitArray (o : Options) (id : Nat) (w : Window) (children : List Field) :
    LocalField o (.bitArray id w children) := by
  have hr := local_readBits w (children.filterMap Field.bit?)
  constructor
  · exact hr.map fun r =>
      r.2.map Item.notice ++ r.1.flatMap fun p => shown o p.1.name p.1.attrs p.2
  · intro resolved
    exact hr.withOffsets.map fun r => r.2.1.2.map (.item ∘ .notice) ++
      r.2.1.1.flatMap fun p => sampled o resolved r.1 p.1.name p.1.attrs p.2

theorem local_group {o : Options} {children : List Field} (h : ∀ c ∈ children, LocalField o c)
    (id : Nat) (g : Group) : (field o (.group id g children)).Local := by
  simp only [field, groupStep]
  split
  next =>
    have hc := forall_mem_fields fun c hc => (h c hc).plain
    exact (Step.local_whileData _ hc).between _ _
  next format _ =>
    have hc := forall_mem_gathers fun c hc => (h c hc).gathered false
    exact (Step.local_whileData _ hc).mapItems (lines format)

theorem local_repetitions {o : Options} {elements : List Field}
    (h : ∀ c ∈ elements, LocalField o c) (s : Series) (count : Option Nat) :
    Step.Local (repetitions o s elements (fields o elements) count) := by
  unfold repetitions
  cases s.printFormat with
  | none =>
    have hc := forall_mem_fields fun c hc => (h c hc).plain
    have hlap (index : Nat) : (labelled s (fields o elements) index).Local :=
      (Step.local_sequence hc).between _ _
    exact (Laps.local_run hlap count).map fun r =>
      r.1.flatten ++ (stopNotices s count r.1.length r.2).map Item.notice
  | some format =>
    have hc := forall_mem_gathers fun c hc => (h c hc).gathered (isUniform elements)
    have hlap := Step.local_sequence hc
    exact (Laps.local_run (fun _ => hlap) count).map fun r =>
      lines format (r.1.flatten ++ ((stopNotices s count r.1.length r.2).map Item.notice).map .item)

theorem local_padding (count : Option Nat) (elements : List Field) :
    Local (fun _ => ()) fun st => st.advance (paddingLength count elements st) := by
  have hall : Local (fun _ => ()) fun st : State => st.advance st.remaining :=
    .drain (fun st => ⟨_, rfl⟩) fun st => Nat.sub_self st.remaining
  cases count with
  | none => exact hall
  | some n =>
    cases hs : Field.sizes elements with
    | none => simpa only [paddingLength, hs] using hall
    | some size => simpa only [paddingLength, hs] using Local.advance (n * size)

theorem local_elementsStep {o : Options} {elements : List Field}
    (h : ∀ c ∈ elements, LocalField o c) (id : Nat) (s : Series) (start : Nat)
    (count : Option (Option Nat)) :
    (elementsStep o id s elements (fields o elements) start count).Local := by
  cases count with
  | none => exact Step.local_tell []
  | some count =>
    by_cases hp : isPadding elements = true
    · simp only [elementsStep, if_pos hp]
      exact (local_padding count elements).map fun _ => []
    · simp only [elementsStep, if_neg hp]
      exact (local_repetitions h s count).withOffsets.map fun r =>
        .event (.arrayStart s.name count) :: r.2.1 ++ .event (.arrayEnd s.name) ::
          (shortNotices s (Field.array id s elements).size (r.2.2 - start)).map Item.notice

theorem local_array {o : Options} {elements : List Field} (h : ∀ c ∈ elements, LocalField o c)
    (id : Nat) (s : Series) : (field o (.array id s elements)).Local := by
  have hc := (local_readCount s elements).withOffsets
  exact (Local.bind hc fun c => local_elementsStep h id s c.1 c.2.1.1).map fun r =>
    r.1.2.1.2.map Item.notice ++ r.2

theorem localField (o : Options) (f : Field) : LocalField o f := by
  induction f using Field.induction with
  | scalar id s => exact localField_scalar o id s
  | bit id b => exact ⟨Step.local_tell _, fun _ => (Step.local_tell _).mapItems _⟩
  | group id g children ih => exact ⟨local_group ih id g, fun _ => (local_group ih id g).mapItems _⟩
  | array id s elements ih => exact ⟨local_array ih id s, fun _ => (local_array ih id s).mapItems _⟩
  | bitArray id w children _ => exact localField_bitArray o id w children
  | stream id s => exact ⟨local_streamStep s, fun _ => (local_streamStep s).mapItems _⟩

end Telemetry.Decode
