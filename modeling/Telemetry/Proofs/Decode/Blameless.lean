import Telemetry.Proofs.Decode.Telling

namespace Telemetry.Decode

open Bytes (Cursor)
open Layout (Arena Scalar BitField Window Field Grown Kind totalBits)

/-- Nothing is said against the definition of a field: it can be decoded, and every bit field lies
in its window. -/
def Item.Blameless : Item → Prop
  | .defect _ => False
  | .notice (.noBits ..) => False
  | _ => True

theorem exists_leafValue {t : DataType} (h : t.supported = true) (name : String)
    (unit : Option String) (bytes : List UInt8) : ∃ v, leafValue name t unit bytes = .ok v := by
  simp only [leafValue, h, Bool.not_true, Bool.false_eq_true, if_false]
  cases t.base <;> exact ⟨_, rfl⟩

theorem supported_of_variableLength {t : DataType} (h : Layout.variableLength t.base = true)
    (bytes : Nat) : (t.withByteLen bytes).supported = true := by
  simp only [Layout.variableLength, Bool.or_eq_true, beq_iff_eq] at h
  obtain (h | h) | h := h <;> simp [DataType.supported, DataType.withByteLen, h]

theorem variableLength_of_byteLen_eq_none {t : DataType} (hs : t.supported = true)
    (hb : t.byteLen = none) : Layout.variableLength t.base = true := by
  have hz : t.bitLen = 0 := by
    rcases t.byteLen_eq with h | h
    · exact h.2
    · rw [hb] at h; cases h
  revert hs
  simp only [DataType.supported, hz, hb]
  cases t.base <;> decide

theorem supported_effectiveType {s : Scalar} (h : s.Checked) (hf : s.isFill = false)
    (length : Nat) : (effectiveType s length).supported = true := by
  unfold effectiveType
  split
  next => exact h.supported hf
  next hdecl =>
    apply supported_of_variableLength
    cases hl : s.lengthBytes with
    | some width => exact h.kind width hl
    | none =>
      cases hb : s.dataType.byteLen with
      | some n => exact absurd hb (hdecl n hl)
      | none => exact variableLength_of_byteLen_eq_none (h.supported hf) hb

theorem blameless_offer (s : Scalar) (dn : Value) : ∀ i ∈ offer s dn, i.Blameless := by
  unfold offer
  split
  next => split <;> exact List.forall_mem_singleton.mpr trivial
  next => exact List.forall_mem_singleton.mpr trivial
  next => exact List.forall_mem_nil _

theorem blameless_readLeaf {s : Scalar} (h : s.Checked) (hf : s.isFill = false) (channels : Bool)
    (id : Nat) (bytes : List UInt8) (past : State) :
    ∀ i ∈ (readLeaf channels id s bytes past).items, i.Blameless := by
  obtain ⟨v, hv⟩ := exists_leafValue (supported_effectiveType h hf bytes.length) s.name
    s.attrs.unit bytes
  unfold readLeaf
  rw [hv]
  cases v with
  | none => exact List.forall_mem_nil _
  | some dn =>
    refine List.forall_mem_cons.mpr ⟨trivial, ?_⟩
    cases channels with
    | true => exact blameless_offer s dn
    | false => exact List.forall_mem_nil _

def slots : (offset : Nat) → List BitField → List (Nat × BitField)
  | _, [] => []
  | offset, b :: bs => (offset, b) :: slots (offset + b.bitLen) bs

theorem slots_le {offset : Nat} {bits : List BitField} :
    ∀ p ∈ slots offset bits, p.1 + p.2.bitLen ≤ offset + totalBits bits := by
  induction bits generalizing offset with
  | nil => exact nofun
  | cons b bs ih =>
    intro p hp
    rw [totalBits]
    rcases List.mem_cons.mp hp with rfl | hp
    · dsimp only
      omega
    · have hle := ih p hp
      omega

theorem mem_of_mem_slots {offset : Nat} {bits : List BitField} :
    ∀ p ∈ slots offset bits, p.2 ∈ bits := by
  induction bits generalizing offset with
  | nil => exact nofun
  | cons b bs ih =>
    intro p hp
    rcases List.mem_cons.mp hp with rfl | hp
    · exact List.mem_cons_self
    · exact List.mem_cons_of_mem _ (ih p hp)

def slotValue (bytes : List UInt8) (p : Nat × BitField) : BitField × Value :=
  (p.2, .unsigned (UInt64.ofNat (Bytes.ofBits (((Bytes.bits bytes).drop p.1).take p.2.bitLen))))

theorem extractAll_eq_map_slots {bytes : List UInt8} {offset : Nat} {bits : List BitField}
    (h : ∀ p ∈ slots offset bits, p.1 + p.2.bitLen ≤ 8 * bytes.length) :
    extractAll bytes offset bits = ((slots offset bits).map (slotValue bytes), []) := by
  induction bits generalizing offset with
  | nil => rfl
  | cons b bs ih =>
    have hb := h (offset, b) List.mem_cons_self
    have hbs := ih fun p hp => h p (List.mem_cons_of_mem _ hp)
    rw [extractAll, Bytes.extractBits, if_pos hb, hbs]
    rfl

theorem bits_le_byteLen (w : Window) : w.bitLen ≤ 8 * w.byteLen := by
  unfold Window.byteLen DataType.bytesFor
  omega

theorem slots_le_byteLen {w : Window} {bits : List BitField} (h : totalBits bits = w.bitLen) :
    ∀ p ∈ slots 0 bits, p.1 + p.2.bitLen ≤ 8 * w.byteLen := by
  intro p hp
  have hs := slots_le p hp
  have hw := bits_le_byteLen w
  omega

theorem extractAll_window {w : Window} {bits : List BitField} (h : totalBits bits = w.bitLen)
    {bytes : List UInt8} (hl : bytes.length = w.byteLen) :
    extractAll bytes 0 bits = ((slots 0 bits).map (slotValue bytes), []) := by
  apply extractAll_eq_map_slots
  rw [hl]
  exact slots_le_byteLen h

theorem blameless_readBits {w : Window} {bits : List BitField}
    (h : totalBits bits = w.bitLen) (st : State) :
    ∀ n ∈ (readBits w bits st).notices, (Item.notice n).Blameless := by
  unfold readBits
  split
  next => exact List.forall_mem_singleton.mpr trivial
  next bytes c hr =>
    obtain ⟨hle, rfl, -⟩ := Cursor.read_eq_ok_iff.mp hr
    rw [extractAll_window h (Cursor.length_take_rest_of_le hle)]
    exact List.forall_mem_nil _

theorem pervasive_blameless : Pervasive Item.Blameless where
  event _ := trivial
  handoff _ := trivial
  notice n hn := by
    cases n with
    | noBits name offset => exact absurd rfl (hn name offset)
    | _ => trivial

theorem blamelessField {arena : Arena} {parent : Option Kind} {f : Field}
    (h : Grown arena parent f) (hp : parent ≠ some .bitArray) (o : Options) :
    TellsField Item.Blameless o f :=
  pervasive_blameless.tellsField (fun _ => blameless_readLeaf)
    (fun _ _ => blameless_readBits) h hp

end Telemetry.Decode
