import Telemetry.Bytes.Bits

namespace Telemetry.Bytes

structure Cursor where
  offset : Nat
  rest : List UInt8
  /-- The length of `rest`, kept so that no operation walks the data. -/
  remaining : Nat
  remaining_eq : remaining = rest.length
deriving DecidableEq

namespace Cursor

def ofBytes (bytes : List UInt8) : Cursor := ⟨0, bytes, bytes.length, rfl⟩

def hasMore (c : Cursor) : Bool := 0 < c.remaining

def advance (c : Cursor) (n : Nat) : Cursor :=
  ⟨c.offset + min n c.remaining, c.rest.drop n, c.remaining - n, by simp [c.remaining_eq]⟩

def read (c : Cursor) (n : Nat) : Except Shortage (List UInt8 × Cursor) :=
  if n ≤ c.remaining then .ok (c.rest.take n, c.advance n) else .error ⟨c.remaining, n⟩

def readNat (c : Cursor) (n : Nat) : Except Shortage (Nat × Cursor) :=
  (c.read n).map fun (bytes, c) => (bigEndian bytes, c)

def skip (c : Cursor) (n : Nat) : Nat × Cursor := (min n c.remaining, c.advance n)

theorem eq_of_offset_of_rest {c d : Cursor} (ho : c.offset = d.offset) (hr : c.rest = d.rest) :
    c = d := by
  obtain ⟨o, r, m, hm⟩ := c
  obtain ⟨o', r', m', hm'⟩ := d
  simp_all

@[simp] theorem remaining_advance (c : Cursor) (n : Nat) :
    (c.advance n).remaining = c.remaining - n := rfl

@[simp] theorem offset_advance (c : Cursor) (n : Nat) :
    (c.advance n).offset = c.offset + min n c.remaining := rfl

@[simp] theorem rest_advance (c : Cursor) (n : Nat) : (c.advance n).rest = c.rest.drop n := rfl

@[simp] theorem advance_zero (c : Cursor) : c.advance 0 = c :=
  eq_of_offset_of_rest (by simp) (by simp)

theorem advance_advance (c : Cursor) (m n : Nat) : (c.advance m).advance n = c.advance (m + n) := by
  apply eq_of_offset_of_rest
  · simp only [offset_advance, remaining_advance]
    omega
  · simp only [rest_advance, List.drop_drop]

theorem advance_of_le {c : Cursor} {n : Nat} (h : c.remaining ≤ n) :
    c.advance n = c.advance c.remaining := by
  apply eq_of_offset_of_rest
  · simp only [offset_advance]
    omega
  · have hr := c.remaining_eq
    simp only [rest_advance]
    rw [List.drop_of_length_le (by omega), List.drop_of_length_le (by omega)]

theorem advance_of_remaining_eq_zero {c : Cursor} (h : c.remaining = 0) (n : Nat) :
    c.advance n = c := by
  rw [advance_of_le (by omega), h, advance_zero]

theorem remaining_eq_zero_iff (c : Cursor) : c.remaining = 0 ↔ c.rest = [] := by
  rw [c.remaining_eq, List.length_eq_zero_iff]

theorem length_take_rest (c : Cursor) (n : Nat) : (c.rest.take n).length = min n c.remaining := by
  rw [List.length_take, c.remaining_eq]

theorem length_take_rest_of_le {c : Cursor} {n : Nat} (h : n ≤ c.remaining) :
    (c.rest.take n).length = n := by
  rw [length_take_rest, Nat.min_eq_left h]

theorem hasMore_iff (c : Cursor) : c.hasMore = true ↔ 0 < c.remaining := by simp [hasMore]

theorem read_eq_ok_iff {c d : Cursor} {n : Nat} {run : List UInt8} :
    c.read n = .ok (run, d) ↔ n ≤ c.remaining ∧ run = c.rest.take n ∧ d = c.advance n := by
  by_cases h : n ≤ c.remaining <;> simp [read, h, eq_comm]

theorem readNat_eq_ok_iff {c d : Cursor} {n v : Nat} :
    c.readNat n = .ok (v, d) ↔ n ≤ c.remaining ∧ v = bigEndian (c.rest.take n) ∧ d = c.advance n := by
  by_cases h : n ≤ c.remaining <;> simp [readNat, read, h, Except.map, eq_comm]

theorem exists_readNat_eq_error_iff {c : Cursor} {n : Nat} :
    (∃ e, c.readNat n = .error e) ↔ c.remaining < n := by
  by_cases h : n ≤ c.remaining
  · simp [readNat, read, h, Except.map]
  · simp [readNat, read, h, Except.map]
    omega

end Cursor
end Telemetry.Bytes
