import Telemetry.Text.Utf8

namespace Telemetry.Text.Utf8

def Continues (b : Nat) : Prop := 0x80 ≤ b ∧ b ≤ 0xBF

theorem continues_add {n : Nat} (h : n < 64) : Continues (n + 0x80) := by
  constructor <;> omega

section Leads

variable {a b : Nat}

theorem feed_of_continues (code after : Nat) (hb : Continues b) :
    feed (some ⟨code, after + 1, 0x80, 0xBF⟩) b =
      ([], some ⟨code * 64 + b % 64, after, 0x80, 0xBF⟩) :=
  if_pos hb

theorem feed_last (code : Nat) (hb : Continues b) :
    feed (some ⟨code, 0, 0x80, 0xBF⟩) b = ([Char.ofNat (code * 64 + b % 64)], none) :=
  if_pos hb

theorem start_one (ha : a < 0x80) : start a = ([Char.ofNat a], none) := if_pos ha

theorem start_two (ha : 0xC2 ≤ a) (ha' : a < 0xE0) :
    start a = ([], some ⟨a % 32, 0, 0x80, 0xBF⟩) := by
  unfold start
  rw [if_neg (by omega), if_neg (by omega), if_pos ha']

theorem start_three (ha : 0xE0 ≤ a) (ha' : a < 0xF0) (hb : Continues b)
    (hlow : a = 0xE0 → 0xA0 ≤ b) (hhigh : a = 0xED → b ≤ 0x9F) :
    ∃ p, start a = ([], some p) ∧
      feed (some p) b = ([], some ⟨a % 16 * 64 + b % 64, 0, 0x80, 0xBF⟩) := by
  by_cases h0 : a = 0xE0
  · -- below the bound two bytes would do
    subst h0
    exact ⟨_, rfl, if_pos ⟨hlow rfl, hb.2⟩⟩
  by_cases hd : a = 0xED
  · -- above the bound lie the surrogates
    subst hd
    exact ⟨_, rfl, if_pos ⟨hb.1, hhigh rfl⟩⟩
  · refine ⟨⟨a % 16, 1, 0x80, 0xBF⟩, ?_, if_pos hb⟩
    unfold start
    rw [if_neg (by omega), if_neg (by omega), if_neg (by omega), if_neg h0, if_neg hd, if_pos ha']

theorem start_four (ha : 0xF0 ≤ a) (ha' : a ≤ 0xF4) (hb : Continues b)
    (hlow : a = 0xF0 → 0x90 ≤ b) (hhigh : a = 0xF4 → b ≤ 0x8F) :
    ∃ p, start a = ([], some p) ∧
      feed (some p) b = ([], some ⟨a % 8 * 64 + b % 64, 1, 0x80, 0xBF⟩) := by
  by_cases h0 : a = 0xF0
  · -- below the bound three bytes would do
    subst h0
    exact ⟨_, rfl, if_pos ⟨hlow rfl, hb.2⟩⟩
  by_cases h4 : a = 0xF4
  · subst h4
    exact ⟨_, rfl, if_pos ⟨hb.1, hhigh rfl⟩⟩
  · refine ⟨⟨a % 8, 2, 0x80, 0xBF⟩, ?_, if_pos hb⟩
    unfold start
    rw [if_neg (by omega), if_neg (by omega), if_neg (by omega), if_neg (by omega),
      if_neg (by omega), if_neg (by omega), if_neg h0, if_pos (by omega)]

end Leads

theorem decodeFrom_cons (p : Option Pending) {b : Nat} (h : b < 256) (rest : List UInt8) :
    decodeFrom p (UInt8.ofNat b :: rest) = (feed p b).1 ++ decodeFrom (feed p b).2 rest := by
  rw [decodeFrom, UInt8.toNat_ofNat', Nat.mod_eq_of_lt h]

section CodePoints

variable {n : Nat} (rest : List UInt8)

theorem decodeFrom_one (h : n ≤ 0x7F) :
    decodeFrom none (UInt8.ofNat n :: rest) = Char.ofNat n :: decodeFrom none rest := by
  rw [decodeFrom_cons none (by omega), feed, start_one (by omega)]
  rfl

theorem decodeFrom_two (hlow : 0x7F < n) (hhigh : n ≤ 0x7FF) :
    decodeFrom none (UInt8.ofNat (n / 64 % 0x20 + 0xC0) :: UInt8.ofNat (n % 64 + 0x80) :: rest) =
      Char.ofNat n :: decodeFrom none rest := by
  have hs := start_two (a := n / 64 % 0x20 + 0xC0) (by omega) (by omega)
  have hcode : (n / 64 % 0x20 + 0xC0) % 32 * 64 + (n % 64 + 0x80) % 64 = n := by omega
  rw [decodeFrom_cons none (by omega), feed, hs, decodeFrom_cons _ (by omega),
    feed_last _ (continues_add (Nat.mod_lt n (by decide))), hcode]
  rfl

theorem decodeFrom_three (hlow : 0x7FF < n) (hhigh : n ≤ 0xFFFF)
    (hv : n < 0xD800 ∨ 0xDFFF < n) :
    decodeFrom none (UInt8.ofNat (n / 4096 % 0x10 + 0xE0) :: UInt8.ofNat (n / 64 % 64 + 0x80) ::
      UInt8.ofNat (n % 64 + 0x80) :: rest) = Char.ofNat n :: decodeFrom none rest := by
  obtain ⟨p, hs, hf⟩ := start_three (a := n / 4096 % 0x10 + 0xE0) (by omega) (by omega)
    (continues_add (Nat.mod_lt (n / 64) (by decide))) (by omega) (by omega)
  have hcode : ((n / 4096 % 0x10 + 0xE0) % 16 * 64 + (n / 64 % 64 + 0x80) % 64) * 64 +
    (n % 64 + 0x80) % 64 = n := by omega
  rw [decodeFrom_cons none (by omega), feed, hs, decodeFrom_cons _ (by omega), hf,
    decodeFrom_cons _ (by omega), feed_last _ (continues_add (Nat.mod_lt n (by decide))), hcode]
  rfl

theorem decodeFrom_four (hlow : 0xFFFF < n) (hhigh : n < 0x110000) :
    decodeFrom none (UInt8.ofNat (n / 262144 % 8 + 0xF0) :: UInt8.ofNat (n / 4096 % 64 + 0x80) ::
      UInt8.ofNat (n / 64 % 64 + 0x80) :: UInt8.ofNat (n % 64 + 0x80) :: rest) =
        Char.ofNat n :: decodeFrom none rest := by
  obtain ⟨p, hs, hf⟩ := start_four (a := n / 262144 % 8 + 0xF0) (by omega) (by omega)
    (continues_add (Nat.mod_lt (n / 4096) (by decide))) (by omega) (by omega)
  have hcode : (((n / 262144 % 8 + 0xF0) % 8 * 64 + (n / 4096 % 64 + 0x80) % 64) * 64 +
    (n / 64 % 64 + 0x80) % 64) * 64 + (n % 64 + 0x80) % 64 = n := by omega
  rw [decodeFrom_cons none (by omega), feed, hs, decodeFrom_cons _ (by omega), hf,
    decodeFrom_cons _ (by omega), feed_of_continues _ 0 (continues_add (Nat.mod_lt _ (by decide))),
    decodeFrom_cons _ (by omega), feed_last _ (continues_add (Nat.mod_lt n (by decide))), hcode]
  rfl

end CodePoints

theorem decodeFrom_utf8EncodeChar (c : Char) (rest : List UInt8) :
    decodeFrom none (String.utf8EncodeChar c ++ rest) = c :: decodeFrom none rest := by
  have hv : c.val.toNat < 0xD800 ∨ 0xDFFF < c.val.toNat ∧ c.val.toNat < 0x110000 := c.valid
  conv => rhs; rw [← Char.ofNat_toNat c]
  unfold String.utf8EncodeChar Char.toNat
  generalize c.val.toNat = n at hv ⊢
  dsimp only
  split
  next h1 => exact decodeFrom_one rest h1
  next h1 =>
  split
  next h2 => exact decodeFrom_two rest (by omega) h2
  next h2 =>
  split
  next h3 => exact decodeFrom_three rest (by omega) h3 (hv.imp_right And.left)
  next h3 => exact decodeFrom_four rest (by omega) (by omega)

def bytes (s : String) : List UInt8 := s.toUTF8.data.toList

theorem bytes_eq (s : String) : bytes s = s.toList.flatMap String.utf8EncodeChar := by
  conv => lhs; rw [← String.ofList_toList (s := s)]
  rw [bytes, String.toUTF8_eq_toByteArray, String.toByteArray_ofList, List.utf8Encode,
    List.toList_data_toByteArray]

theorem decode_bytes (s : String) : decode (bytes s) = s.toList := by
  rw [bytes_eq, decode]
  induction s.toList with
  | nil => rfl
  | cons c cs ih => rw [List.flatMap_cons, decodeFrom_utf8EncodeChar, ih]

end Telemetry.Text.Utf8
