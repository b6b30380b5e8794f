import Telemetry.Proofs.Decode.Blameless
import Telemetry.Proofs.Decode.FieldLocality

namespace Telemetry.Decode

open Bytes (Cursor)
open Layout (Arena Scalar BitField Window Field Grown Kind frame frameArena build_frameArena)

theorem length_eq_eight {s : Scalar} {c d : Cursor} {e : Extent} {bytes : List UInt8}
    (he : extent? s c = some e) (hr : e.cursor.read e.length = .ok (bytes, d))
    (hb : (effectiveType s e.length).bitLen = 64) : bytes.length = 8 := by
  obtain ⟨hle, rfl, -⟩ := Cursor.read_eq_ok_iff.mp hr
  rw [Cursor.length_take_rest_of_le hle]
  unfold effectiveType at hb
  split at hb
  next n hl hn =>
    rw [extent?, hl, hn] at he
    cases he
    rcases s.dataType.byteLen_eq with h | h
    · rw [hn] at h; cases h.1
    · rw [hn, hb] at h; exact Option.some.inj h
  next =>
    change e.length * 8 = 64 at hb
    omega

def prefixWidth? : Field → Option Nat
  | .scalar _ s => s.lengthBytes
  | .array _ s _ =>
    match s.length with
    | .inData width _ => some width
    | _ => none
  | _ => none

/-- A number of `width` bytes is read before the value or the elements, which follow it. Without it
there are none. -/
def ReadsPrefix (width : Nat) : Field → Prop
  | .scalar _ s => ∀ c, (extent? s c).map (·.cursor) = (c.readNat width).toOption.map (·.2)
  | .array _ s elements => ∀ st, ((readCount s elements st).count.map fun _ =>
      (readCount s elements st).state.cursor) = (st.cursor.readNat width).toOption.map (·.2)
  | _ => False

theorem readsPrefix_of_prefixWidth? {f : Field} {width : Nat} (hw : prefixWidth? f = some width) :
    ReadsPrefix width f := by
  unfold prefixWidth? at hw
  split at hw
  next =>
    intro c
    simp only [extent?, hw]
    cases c.readNat width with
    | error e => rfl
    | ok r =>
      dsimp only
      split <;> rfl
  next =>
    split at hw
    next inBytes hl =>
      cases hw
      intro st
      simp only [readCount, hl]
      cases st.cursor.readNat width <;> rfl
    next => cases hw
  next => cases hw

def counter? : Field → Option Nat
  | .array _ s _ =>
    match s.length with
    | .ofField id => some id
    | _ => none
  | _ => none

/-- What decoding and describing a field ask for is there: its entry in the arena and that of the
field that counts it, numbers of a word before it, bits in their window, and both words of a time. -/
structure Safe (arena : Arena) (f : Field) : Prop where
  found : arena[f.id]? = some f.entry
  counter : ∀ id, counter? f = some id → ∃ c, arena[id]? = some (.scalar c)
  narrow : ∀ width, prefixWidth? f = some width → width ≤ 8 ∧ ReadsPrefix width f
  bits : ∀ id w children, f = .bitArray id w children →
    ∀ p ∈ slots 0 (children.filterMap Field.bit?),
      p.2.bitLen ≤ 64 ∧ p.1 + p.2.bitLen ≤ 8 * w.byteLen
  extracted : ∀ id w children, f = .bitArray id w children → ∀ bytes : List UInt8,
    bytes.length = w.byteLen → extractAll bytes 0 (children.filterMap Field.bit?) =
      ((slots 0 (children.filterMap Field.bit?)).map (slotValue bytes), [])
  words : ∀ id s, f = .scalar id s → ∀ c e bytes d, extent? s c = some e →
    e.cursor.read e.length = .ok (bytes, d) → (effectiveType s e.length).base = .time →
    (effectiveType s e.length).bitLen = 64 → bytes.length = 8

theorem Safe.of_grown {arena : Arena} {parent : Option Kind} {f : Field}
    (h : Grown arena parent f) : Safe arena f where
  found := by
    obtain ⟨found, -⟩ := h
    exact found
  counter id hid := by
    unfold counter? at hid
    split at hid
    next =>
      split at hid
      next hl => cases hid; exact h.counter_found hl
      next => cases hid
    next => cases hid
  narrow width hw := by
    refine ⟨?_, readsPrefix_of_prefixWidth? hw⟩
    unfold prefixWidth? at hw
    split at hw
    next => exact h.checked_scalar.width_le width hw
    next =>
      split at hw
      next hl => cases hw; exact h.prefix_le hl
      next => cases hw
    next => cases hw
  bits id w children hf p hp := by
    subst hf
    exact ⟨(h.bit_bounds p.2 (mem_of_mem_slots p hp)).2, slots_le_byteLen h.sum_bits p hp⟩
  extracted id w children hf bytes hl := by
    subst hf
    exact extractAll_window h.sum_bits hl
  words _ _ _ _ _ _ _ he hr _ hb := length_eq_eight he hr hb

theorem decode_of_build {arena : Arena} {root : Nat} {l : Layout}
    (hb : Layout.build arena root = .ok l) (o : Options) (data : List UInt8) :
    l.decode o data = .ok ⟨(field o l.root (.start data)).items,
      (field o l.root (.start data)).state.cursor.offset⟩ := by
  have hg := blamelessField (Layout.grown_of_build hb).2 nofun o
  have hd : (field o l.root (.start data)).items.findSome? Item.defect? = none := by
    apply List.findSome?_eq_none_iff.mpr
    intro i hi
    cases i with
    | defect e => exact (hg.plain _ _ hi).elim
    | _ => rfl
  rw [Layout.decode, hd]

theorem offset_field_le (o : Options) (f : Field) (data : List UInt8) :
    (field o f (.start data)).state.cursor.offset ≤ data.length := by
  obtain ⟨n, hn⟩ := (localField o f).plain.forward (.start data)
  rw [hn, Cursor.offset_advance]
  change 0 + min n data.length ≤ data.length
  omega

/-- Every product can be decoded by a layout that has been built, in whatever way, and each field
of it finds all that it asks for. -/
theorem decode_eq_ok_of_build {arena : Arena} {root : Nat} {l : Layout}
    (hb : Layout.build arena root = .ok l) :
    (∀ f ∈ l.root.preorder, Safe arena f) ∧
      ∀ o data, ∃ d, l.decode o data = .ok d ∧ d.consumed ≤ data.length ∧
        ∀ name offset, Notice.noBits name offset ∉ d.notices := by
  have hg := (Layout.grown_of_build hb).2
  constructor
  · intro f hf
    obtain ⟨parent, hf⟩ := hg.of_mem_preorder hf
    exact .of_grown hf
  · intro o data
    refine ⟨_, decode_of_build hb o data, offset_field_le o l.root data, ?_⟩
    intro name offset hn
    obtain ⟨i, hi, hin⟩ := List.mem_filterMap.mp hn
    cases i with
    | notice n =>
      cases hin
      exact (blamelessField hg nofun o).plain _ _ hi
    | _ => cases hin

theorem decode_frame_eq_ok :
    (∀ f ∈ frame.root.preorder, Safe frameArena f) ∧
      ∀ o data, ∃ d, frame.decode o data = .ok d ∧ d.consumed ≤ data.length ∧
        ∀ name offset, Notice.noBits name offset ∉ d.notices :=
  decode_eq_ok_of_build build_frameArena

end Telemetry.Decode
