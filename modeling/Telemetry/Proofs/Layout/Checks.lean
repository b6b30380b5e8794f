import Telemetry.Proofs.Layout.Growth

namespace Telemetry.Layout

open DataType (integerWidths)

variable {arena : Arena} {parent : Option Kind}

theorem supported_of_check {t : DataType} {name : String} (h : t.check name = .ok ()) :
    t.supported = true := by
  cases hs : t.supported with
  | true => rfl
  | false =>
    rw [DataType.check, hs] at h
    cases h

theorem width_le_of_check {bytes : Nat} {name : String}
    (h : (DataType.unsignedBytes bytes).check name = .ok ()) : bytes ≤ 8 := by
  have hs := supported_of_check h
  simp only [DataType.supported, DataType.unsignedBytes, DataType.ofBits, integerWidths,
    List.contains_cons, List.contains_nil, Bool.or_false, Bool.or_eq_true, beq_iff_eq] at hs
  omega

structure Scalar.Checked (s : Scalar) : Prop where
  supported : s.isFill = false → s.dataType.supported = true
  width_le : ∀ width, s.lengthBytes = some width → width ≤ 8
  kind : ∀ width, s.lengthBytes = some width → variableLength s.dataType.base = true

theorem Scalar.of_checkLength {s : Scalar} (h : checkLength s = .ok ()) {width : Nat}
    (hl : s.lengthBytes = some width) : width ≤ 8 ∧ Layout.variableLength s.dataType.base = true := by
  rw [checkLength, hl] at h
  obtain ⟨_, hc, h⟩ := exists_of_bind_eq_ok h
  split at h
  next hv => exact ⟨width_le_of_check hc, hv⟩
  next => cases h

theorem Scalar.checked_of_checkScalar {s : Scalar} (h : checkScalar s = .ok ()) : s.Checked := by
  have hc : (s.isFill = false → s.dataType.supported = true) ∧ checkLength s = .ok () := by
    unfold checkScalar at h
    cases hf : s.isFill with
    | true =>
      rw [hf] at h
      exact ⟨nofun, h⟩
    | false =>
      rw [hf] at h
      obtain ⟨_, hs, h⟩ := exists_of_bind_eq_ok h
      exact ⟨fun _ => supported_of_check hs, h⟩
  exact ⟨hc.1, fun _ hl => (of_checkLength hc.2 hl).1, fun _ hl => (of_checkLength hc.2 hl).2⟩

theorem checked_of_checkBit {b : BitField} (h : checkBit parent b = .ok ()) :
    parent = some .bitArray ∧ 0 < b.bitLen ∧ b.bitLen ≤ 64 := by
  unfold checkBit at h
  split at h
  next => cases h
  next hp =>
    split at h
    next => cases h
    next hb => exact ⟨Decidable.not_not.mp hp, by omega, by omega⟩

theorem eq_ok_of_mapError_eq_ok {ε ε' α : Type} {f : ε → ε'} {x : Except ε α} {a : α}
    (h : x.mapError f = .ok a) : x = .ok a := by
  cases x with
  | error e => cases h
  | ok b =>
    cases h
    rfl

def totalBits : List BitField → Nat
  | [] => 0
  | b :: bs => b.bitLen + totalBits bs

namespace Grown

theorem checked_scalar {id : Nat} {s : Scalar} (h : Grown arena parent (.scalar id s)) :
    s.Checked := by
  obtain ⟨-, -, checked, -⟩ := h
  exact Scalar.checked_of_checkScalar (eq_ok_of_mapError_eq_ok checked)

theorem checked_bit {id : Nat} {b : BitField} (h : Grown arena parent (.bit id b)) :
    parent = some .bitArray ∧ 0 < b.bitLen ∧ b.bitLen ≤ 64 := by
  obtain ⟨-, -, checked, -⟩ := h
  exact checked_of_checkBit (eq_ok_of_mapError_eq_ok checked)

theorem sumBits_eq {name : String} {cs : List Field} {n : Nat}
    (h : ∀ c ∈ cs, Grown arena parent c)
    (hs : sumBits name ((cs.map Field.id).filterMap (arena[·]?)) = .ok n) :
    n = totalBits (cs.filterMap Field.bit?) := by
  induction cs generalizing n with
  | nil =>
    cases hs
    rfl
  | cons c cs ih =>
    obtain ⟨at_id, -⟩ := h c List.mem_cons_self
    simp only [List.map_cons, List.filterMap_cons, at_id] at hs
    cases c with
    | bit id b =>
      simp only [Field.entry, sumBits] at hs
      cases hr : sumBits name ((cs.map Field.id).filterMap (arena[·]?)) with
      | error e => rw [hr] at hs; cases hs
      | ok m =>
        rw [hr] at hs
        cases hs
        rw [ih (fun d hd => h d (List.mem_cons_of_mem _ hd)) hr]
        rfl
    | scalar id s | group id g cs | array id s cs | bitArray id w cs | stream id s => cases hs

theorem sum_bits {id : Nat} {w : Window} {children : List Field}
    (h : Grown arena parent (.bitArray id w children)) :
    totalBits (children.filterMap Field.bit?) = w.bitLen := by
  obtain ⟨-, -, checked, hgrown⟩ := h
  obtain ⟨n, hn, hw⟩ := exists_of_bind_eq_ok (eq_ok_of_mapError_eq_ok checked)
  split at hw
  next heq => exact (sumBits_eq hgrown hn).symm.trans heq
  next => cases hw

theorem bit_bounds {id : Nat} {w : Window} {children : List Field}
    (h : Grown arena parent (.bitArray id w children)) :
    ∀ b ∈ children.filterMap Field.bit?, 0 < b.bitLen ∧ b.bitLen ≤ 64 := by
  obtain ⟨-, -, -, hgrown⟩ := h
  intro b hb
  obtain ⟨c, hc, hbit⟩ := List.mem_filterMap.mp hb
  cases c with
  | bit i b' =>
    cases hbit
    exact (hgrown _ hc).checked_bit.2
  | scalar i s | group i g cs | array i s cs | bitArray i w cs | stream i s => cases hbit

theorem prefix_le {id width : Nat} {s : Series} {elements : List Field} {inBytes : Bool}
    (h : Grown arena parent (.array id s elements)) (hl : s.length = .inData width inBytes) :
    width ≤ 8 := by
  obtain ⟨-, -, checked, -⟩ := h
  simp only [Field.entry, checkEntry, checkArray, hl] at checked
  split at checked
  next => cases checked
  next =>
    split at checked
    next => cases checked
    next hc => exact width_le_of_check hc

theorem exists_size_of_inBytes {id width : Nat} {s : Series} {elements : List Field}
    (h : Grown arena parent (.array id s elements)) (hl : s.length = .inData width true) :
    ∃ n, sumSizes (sizeIn arena arena.size) (elements.map Field.id) = .ok (some (n + 1)) := by
  obtain ⟨-, -, checked, -⟩ := h
  simp only [Field.entry, checkEntry, checkArray, hl, if_true] at checked
  split at checked
  next => cases checked
  next =>
    split at checked
    next => cases checked
    next =>
      split at checked
      next => cases checked
      next n hn => exact ⟨n, hn⟩
      next => cases checked

theorem counter_found {id counter : Nat} {s : Series} {elements : List Field}
    (h : Grown arena parent (.array id s elements)) (hl : s.length = .ofField counter) :
    ∃ c, arena[counter]? = some (.scalar c) := by
  obtain ⟨-, -, checked, -⟩ := h
  simp only [Field.entry, checkEntry, checkArray, hl] at checked
  split at checked
  next => cases checked
  next =>
    split at checked
    next hc =>
      unfold countsRepetitions at hc
      split at hc
      next c hfound => exact ⟨c, hfound⟩
      next => cases hc
    next => cases checked

end Grown
end Telemetry.Layout
