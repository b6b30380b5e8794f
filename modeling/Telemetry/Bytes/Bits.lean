namespace Telemetry.Bytes

def bigEndian (bytes : List UInt8) : Nat :=
  bytes.foldl (fun n b => n * 256 + b.toNat) 0

def toBigEndian : (width : Nat) → (n : Nat) → List UInt8
  | 0, _ => []
  | width + 1, n => toBigEndian width (n / 256) ++ [UInt8.ofNat n]

@[simp] theorem bigEndian_nil : bigEndian [] = 0 := rfl

theorem bigEndian_concat (bytes : List UInt8) (b : UInt8) :
    bigEndian (bytes ++ [b]) = bigEndian bytes * 256 + b.toNat := by
  simp [bigEndian]

@[simp] theorem length_toBigEndian (width n : Nat) : (toBigEndian width n).length = width := by
  induction width generalizing n with
  | zero => rfl
  | succ width ih => simp [toBigEndian, ih]

theorem bigEndian_toBigEndian (width n : Nat) :
    bigEndian (toBigEndian width n) = n % Nat.pow 256 width := by
  induction width generalizing n with
  | zero => simp [toBigEndian, Nat.mod_one]
  | succ width ih =>
    rw [toBigEndian, bigEndian_concat, ih, Nat.pow_eq, Nat.pow_eq, Nat.pow_succ', Nat.mod_mul]
    simp [UInt8.toNat_ofNat']
    omega

theorem bigEndian_toBigEndian_of_lt {width n : Nat} (h : n < Nat.pow 256 width) :
    bigEndian (toBigEndian width n) = n := by
  rw [bigEndian_toBigEndian, Nat.mod_eq_of_lt h]

theorem exists_eq_toBigEndian (width : Nat) (bytes : List UInt8) (h : bytes.length = width) :
    ∃ n < Nat.pow 256 width, bytes = toBigEndian width n := by
  induction width generalizing bytes with
  | zero => exact ⟨0, Nat.one_pos, List.length_eq_zero_iff.mp h⟩
  | succ width ih =>
    have hne : bytes ≠ [] := List.ne_nil_of_length_eq_add_one h
    obtain ⟨n, hn, hb⟩ := ih bytes.dropLast (by rw [List.length_dropLast, h, Nat.add_sub_cancel])
    have hlast := (bytes.getLast hne).toNat_lt
    have hdiv : (n * 256 + (bytes.getLast hne).toNat) / 256 = n := by omega
    have hof : UInt8.ofNat (n * 256 + (bytes.getLast hne).toNat) = bytes.getLast hne := by
      rw [UInt8.ofNat_add, UInt8.ofNat_toNat, UInt8.ofNat_mul]
      simp
    refine ⟨n * 256 + (bytes.getLast hne).toNat, ?_, ?_⟩
    · change _ < Nat.pow 256 width * 256
      omega
    · rw [toBigEndian, hdiv, hof, ← hb, List.dropLast_concat_getLast]

structure Shortage where
  actual : Nat
  minimum : Nat
deriving DecidableEq, Repr

def Shortage.message (_ : Shortage) : String := "Not enough bytes"

def bitsOfByte (b : UInt8) : List Bool :=
  (List.range 8).map fun i => b.toNat.testBit (7 - i)

def bits (bytes : List UInt8) : List Bool := bytes.flatMap bitsOfByte

def ofBits (digits : List Bool) : Nat :=
  digits.foldl (fun n d => 2 * n + d.toNat) 0

def extractBits (bytes : List UInt8) (offset length : Nat) : Except Shortage Nat :=
  if offset + length ≤ 8 * bytes.length then
    .ok (ofBits (((bits bytes).drop offset).take length))
  else
    .error ⟨bytes.length, (offset + length + 7) / 8⟩

end Telemetry.Bytes
