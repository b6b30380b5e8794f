import Mathlib.Data.Nat.Digits.Defs
import Telemetry.Bytes.Cursor

/-!
What a cursor goes over. The operations of a run, one after the other, account for every byte in
front of the cursor once: a read for the bytes that stand there, a skip for their number. A read
that asks for too much accounts for none.
-/

namespace Telemetry.Bytes

inductive Operation where
  | read (n : Nat)
  | readNat (n : Nat)
  | skip (n : Nat)

inductive Outcome where
  | run (bytes : List UInt8)
  | number (value : Nat)
  | skipped (count : Nat)
  | shortage (s : Shortage)

theorem bigEndian_eq_ofDigits (bytes : List UInt8) :
    bigEndian bytes = Nat.ofDigits 256 (bytes.map UInt8.toNat).reverse := by
  rw [Nat.ofDigits_eq_foldr, List.foldr_reverse, List.foldl_map, bigEndian]
  congr 1
  funext n b
  rw [Nat.mul_comm, Nat.add_comm]
  rfl

namespace Cursor

def perform (c : Cursor) : Operation → Outcome × Cursor
  | .read n =>
    match c.read n with
    | .ok (bytes, d) => (.run bytes, d)
    | .error s => (.shortage s, c)
  | .readNat n =>
    match c.readNat n with
    | .ok (value, d) => (.number value, d)
    | .error s => (.shortage s, c)
  | .skip n =>
    let (count, d) := c.skip n
    (.skipped count, d)

def performAll (c : Cursor) : List Operation → List Outcome × Cursor
  | [] => ([], c)
  | op :: ops =>
    let (outcome, d) := c.perform op
    let (outcomes, e) := d.performAll ops
    (outcome :: outcomes, e)

theorem performAll_append (c : Cursor) (ops more : List Operation) :
    (c.performAll (ops ++ more)).2 = ((c.performAll ops).2.performAll more).2 := by
  induction ops generalizing c with
  | nil => rfl
  | cons op ops ih => exact ih (c.perform op).2

def readAs (c : Cursor) (n : Nat) (outcome : List UInt8 → Outcome) : Outcome × Cursor :=
  if n ≤ c.remaining then (outcome (c.rest.take n), c.advance n)
  else (.shortage ⟨c.remaining, n⟩, c)

theorem perform_read (c : Cursor) (n : Nat) : c.perform (.read n) = c.readAs n .run := by
  by_cases h : n ≤ c.remaining <;> simp [perform, readAs, read, h]

theorem perform_readNat (c : Cursor) (n : Nat) :
    c.perform (.readNat n) = c.readAs n fun bytes => .number (bigEndian bytes) := by
  by_cases h : n ≤ c.remaining <;> simp [perform, readAs, readNat, read, Except.map, h]

theorem perform_skip (c : Cursor) (n : Nat) :
    c.perform (.skip n) = (.skipped (min n c.remaining), c.advance n) := rfl

variable {c d e : Cursor} {piece left right : List UInt8} {n : Nat} {outcome : List UInt8 → Outcome}

theorem readAs_eq_shortage_iff {s : Shortage} (h : ∀ bytes, outcome bytes ≠ .shortage s) :
    c.readAs n outcome = (.shortage s, d) ↔ c.remaining < n ∧ s = ⟨c.remaining, n⟩ ∧ d = c := by
  by_cases hn : n ≤ c.remaining
  · simp [readAs, hn, Nat.not_lt.mpr hn, h]
  · simp [readAs, hn, Nat.lt_of_not_le hn, eq_comm]

structure Passes (c : Cursor) (piece : List UInt8) (d : Cursor) : Prop where
  rest_eq : c.rest = piece ++ d.rest
  offset_eq : d.offset = c.offset + piece.length

theorem Passes.refl (c : Cursor) : Passes c [] c := ⟨rfl, rfl⟩

theorem Passes.trans (hl : Passes c left d) (hr : Passes d right e) :
    Passes c (left ++ right) e where
  rest_eq := by rw [hl.rest_eq, hr.rest_eq, List.append_assoc]
  offset_eq := by rw [hr.offset_eq, hl.offset_eq, List.length_append, Nat.add_assoc]

theorem passes_advance (c : Cursor) (n : Nat) : Passes c (c.rest.take n) (c.advance n) where
  rest_eq := (List.take_append_drop n c.rest).symm
  offset_eq := by rw [offset_advance, length_take_rest]

theorem Passes.offset_le (h : Passes c piece d) : c.offset ≤ d.offset := by
  rw [h.offset_eq]
  exact Nat.le_add_right _ _

theorem Passes.buffer_eq {buffer : List UInt8} (h : Passes (ofBytes buffer) piece d) :
    buffer = piece ++ d.rest ∧ d.offset = piece.length :=
  ⟨h.rest_eq, h.offset_eq.trans (Nat.zero_add _)⟩

inductive Covers : Operation → Outcome → List UInt8 → Prop
  | read {n : Nat} {piece : List UInt8} (length : piece.length = n) :
      Covers (.read n) (.run piece) piece
  | readNat {n : Nat} {piece : List UInt8} (length : piece.length = n) :
      Covers (.readNat n) (.number (Nat.ofDigits 256 (piece.map UInt8.toNat).reverse)) piece
  | skip {n : Nat} {piece : List UInt8} (length : piece.length ≤ n) :
      Covers (.skip n) (.skipped piece.length) piece
  | shortage {op : Operation} {s : Shortage} : Covers op (.shortage s) []

/-- The bytes are those that the operations account for, in order. -/
inductive Tiles : List Operation → List Outcome → List UInt8 → Prop
  | nil : Tiles [] [] []
  | cons {op : Operation} {outcome : Outcome} {piece : List UInt8} {ops : List Operation}
      {outcomes : List Outcome} {bytes : List UInt8} (head : Covers op outcome piece)
      (tail : Tiles ops outcomes bytes) : Tiles (op :: ops) (outcome :: outcomes) (piece ++ bytes)

theorem exists_covers_readAs {op : Operation}
    (h : ∀ piece : List UInt8, piece.length = n → Covers op (outcome piece) piece) :
    ∃ piece, Covers op (c.readAs n outcome).1 piece ∧ Passes c piece (c.readAs n outcome).2 := by
  unfold readAs
  split
  next hn => exact ⟨c.rest.take n, h _ (length_take_rest_of_le hn), passes_advance c n⟩
  next => exact ⟨[], .shortage, .refl c⟩

theorem exists_covers (c : Cursor) (op : Operation) :
    ∃ piece, Covers op (c.perform op).1 piece ∧ Passes c piece (c.perform op).2 := by
  cases op with
  | read n =>
    rw [perform_read]
    exact exists_covers_readAs fun piece hlength => .read hlength
  | readNat n =>
    rw [perform_readNat]
    apply exists_covers_readAs
    intro piece hlength
    rw [bigEndian_eq_ofDigits]
    exact .readNat hlength
  | skip n =>
    rw [perform_skip, ← length_take_rest]
    exact ⟨c.rest.take n, .skip (List.length_take_le n c.rest), passes_advance c n⟩

theorem exists_tiles (c : Cursor) (ops : List Operation) :
    ∃ bytes, Tiles ops (c.performAll ops).1 bytes ∧ Passes c bytes (c.performAll ops).2 := by
  induction ops generalizing c with
  | nil => exact ⟨[], .nil, .refl c⟩
  | cons op ops ih =>
    obtain ⟨piece, hcovers, hpiece⟩ := exists_covers c op
    obtain ⟨bytes, htiles, hbytes⟩ := ih (c.perform op).2
    exact ⟨piece ++ bytes, .cons hcovers htiles, hpiece.trans hbytes⟩

theorem offset_le_performAll_append (c : Cursor) (ops more : List Operation) :
    (c.performAll ops).2.offset ≤ (c.performAll (ops ++ more)).2.offset := by
  rw [performAll_append]
  obtain ⟨bytes, -, hbytes⟩ := exists_tiles (c.performAll ops).2 more
  exact hbytes.offset_le

/-- Wherever a run leaves the cursor, the bytes in front of it are tiled and those behind it are
counted. From there it stays or moves on as the next operation says. -/
theorem performAll_tiles (buffer : List UInt8) (ops : List Operation) :
    let outcomes := ((ofBytes buffer).performAll ops).1
    let c := ((ofBytes buffer).performAll ops).2
    Tiles ops outcomes (buffer.take c.offset) ∧
      c.offset ≤ buffer.length ∧ c.remaining + c.offset = buffer.length ∧
      (c.hasMore = true ↔ 0 < c.remaining) ∧
      (∀ more, c.offset ≤ ((ofBytes buffer).performAll (ops ++ more)).2.offset) ∧
      (∀ n s d, c.perform (.read n) = (.shortage s, d) ↔
        c.remaining < n ∧ s = ⟨c.remaining, n⟩ ∧ d = c) ∧
      (∀ n s d, c.perform (.readNat n) = (.shortage s, d) ↔
        c.remaining < n ∧ s = ⟨c.remaining, n⟩ ∧ d = c) ∧
      ∀ n, (c.perform (.skip n)).1 = .skipped (min n c.remaining) ∧
        (c.perform (.skip n)).2.offset = c.offset + min n c.remaining := by
  intro outcomes c
  obtain ⟨bytes, htiles, hbytes⟩ := exists_tiles (ofBytes buffer) ops
  obtain ⟨hbuffer, hoffset⟩ : buffer = bytes ++ c.rest ∧ c.offset = bytes.length :=
    hbytes.buffer_eq
  have hpassed : buffer.take c.offset = bytes := by rw [hoffset, hbuffer, List.take_left]
  have hlength : c.remaining + c.offset = buffer.length := by
    rw [c.remaining_eq, hoffset, hbuffer, List.length_append, Nat.add_comm]
  refine ⟨hpassed ▸ htiles, ?_, hlength, c.hasMore_iff, ?_, ?_, ?_, fun n => ⟨rfl, rfl⟩⟩
  · rw [← hlength]
    exact Nat.le_add_left _ _
  · exact offset_le_performAll_append (ofBytes buffer) ops
  · intro n s d
    rw [perform_read]
    exact readAs_eq_shortage_iff fun bytes => nofun
  · intro n s d
    rw [perform_readNat]
    exact readAs_eq_shortage_iff fun bytes => nofun

example : ((ofBytes [1, 2, 3]).performAll [.skip 1, .read 3, .readNat 2, .skip 9]).1 =
    [.skipped 1, .shortage ⟨2, 3⟩, .number 0x203, .skipped 0] := rfl

end Cursor
end Telemetry.Bytes
