import Mathlib.Data.List.Forall2
import Telemetry.Bytes.HexDump

namespace Telemetry.Bytes

def ofHex? : List Char → Option (List UInt8)
  | [] => some []
  | [_] => none
  | h :: l :: rest =>
    ("0123456789abcdef".toList.idxOf? h).bind fun high =>
      ("0123456789abcdef".toList.idxOf? l).bind fun low =>
        (ofHex? rest).map (UInt8.ofNat (16 * high + low) :: ·)

theorem idxOf?_hexDigit {n : Nat} (hn : n < 16) :
    "0123456789abcdef".toList.idxOf? (hexDigit n) = some n := by
  have h : ∀ n < 16, "0123456789abcdef".toList.idxOf? (hexDigit n) = some n := by decide
  exact h n hn

theorem ofHex?_hexText (bytes : List UInt8) : ofHex? (hexText bytes) = some bytes := by
  induction bytes with
  | nil => rfl
  | cons b bytes ih =>
    have hb := b.toNat_lt
    have hhigh := idxOf?_hexDigit (show b.toNat / 16 < 16 by omega)
    have hlow := idxOf?_hexDigit (show b.toNat % 16 < 16 by omega)
    have htext : hexText (b :: bytes) =
        hexDigit (b.toNat / 16) :: hexDigit (b.toNat % 16) :: hexText bytes := rfl
    rw [htext, ofHex?, hhigh, hlow, ih]
    simp only [Option.bind_some, Option.map_some, Nat.div_add_mod, UInt8.ofNat_toNat]

theorem filter_hexText (bytes : List UInt8) :
    (hexText bytes).filter (· ≠ ' ') = hexText bytes := by
  have hdigit (n : Nat) : hexDigit n ≠ ' ' := Nat.digitChar_ne ' ' rfl
  rw [List.filter_eq_self]
  intro c hc
  obtain ⟨b, -, hb⟩ := List.mem_flatMap.mp hc
  apply decide_eq_true
  rcases List.mem_pair.mp hb with rfl | rfl
  · exact hdigit _
  · exact hdigit _

namespace HexDump

theorem filter_pairs (bytes : List UInt8) : (pairs bytes).filter (· ≠ ' ') = hexText bytes := by
  fun_induction pairs bytes with
  | case1 => rfl
  | case2 b => simpa [hexText] using filter_hexText [b]
  | case3 b c => simpa [hexText] using filter_hexText [b, c]
  | case4 b c rest hrest ih =>
    have hhead : (hexByte b ++ hexByte c).filter (· ≠ ' ') = hexByte b ++ hexByte c := by
      simpa [hexText] using filter_hexText [b, c]
    rw [List.filter_append, hhead, List.filter_cons_of_neg (by simp), ih]
    simp [hexText]

theorem length_pairs (bytes : List UInt8) :
    (pairs bytes).length = 2 * bytes.length + (bytes.length - 1) / 2 := by
  have hbyte (b : UInt8) : (hexByte b).length = 2 := rfl
  fun_induction pairs bytes with
  | case1 => rfl
  | case2 b => simp [hbyte]
  | case3 b c => simp [hbyte]
  | case4 b c rest hrest ih =>
    have hpos : 0 < rest.length := List.length_pos_iff.mpr hrest
    simp only [List.length_append, List.length_cons, ih, hbyte]
    omega

def padded (bytes : List UInt8) : List Char :=
  pairs bytes ++ List.replicate (column - (pairs bytes).length) ' '

theorem length_padded {bytes : List UInt8} (h : bytes.length ≤ width) :
    (padded bytes).length = column := by
  have hpairs := length_pairs bytes
  simp only [padded, List.length_append, List.length_replicate, column, width] at h hpairs ⊢
  omega

theorem line_eq (bytes : List UInt8) :
    line bytes = padded bytes ++ ([' ', ' '] ++ bytes.map glyph) :=
  List.append_assoc _ _ _

theorem filter_take_line {bytes : List UInt8} (h : bytes.length ≤ width) :
    ((line bytes).take column).filter (· ≠ ' ') = hexText bytes := by
  rw [line_eq, List.take_left' (length_padded h), padded, List.filter_append, filter_pairs]
  simp

theorem drop_line {bytes : List UInt8} (h : bytes.length ≤ width) :
    (line bytes).drop column = ' ' :: ' ' :: bytes.map glyph := by
  rw [line_eq, List.drop_left' (length_padded h)]
  rfl

def Shows (b : UInt8) (c : Char) : Prop :=
  if 32 ≤ b.toNat ∧ b.toNat ≤ 126 then c.toNat = b.toNat else c = '.'

theorem shows_glyph (b : UInt8) : Shows b (glyph b) := by
  unfold Shows glyph
  split
  next h =>
    have hascii : ∀ n < 127, (Char.ofNat n).toNat = n := by decide
    rw [if_pos (by omega)]
    exact hascii b.toNat (Nat.lt_succ_of_le h.2)
  next h => rw [if_neg (by omega)]

structure Dumps (text : List Char) (bytes : List UInt8) : Prop where
  digits : (text.take 39).filter (· ≠ ' ') = hexText bytes
  gap : (text.drop 39).take 2 = [' ', ' ']
  glyphs : List.Forall₂ Shows bytes (text.drop 41)

theorem dumps_line {bytes : List UInt8} (h : bytes.length ≤ width) : Dumps (line bytes) bytes where
  digits := filter_take_line h
  gap := by
    have hdrop : (line bytes).drop 39 = _ := drop_line h
    rw [hdrop]
    rfl
  glyphs := by
    have hdrop : ((line bytes).drop 39).drop 2 = _ := congrArg (List.drop 2) (drop_line h)
    rw [List.drop_drop] at hdrop
    rw [hdrop]
    simp [List.forall₂_map_right_iff, List.forall₂_same, shows_glyph]

def chunk (data : List UInt8) (i : Nat) : List UInt8 := (data.drop (16 * i)).take 16

theorem lines_eq (offset : Nat) (data : List UInt8) : lines offset data =
    (List.range ((data.length + 15) / 16)).map fun i =>
      (offset + 16 * i, String.ofList (line (chunk data i))) := by
  fun_induction lines offset data with
  | case1 => rfl
  | case2 offset b rest ih =>
    have hcount : ((b :: rest).length + 15) / 16 =
        ((rest.drop (width - 1)).length + 15) / 16 + 1 := by
      simp only [List.length_cons, List.length_drop, width]
      omega
    have hchunk (i : Nat) : chunk (rest.drop (width - 1)) i = chunk (b :: rest) (i + 1) := by
      have hi : 16 * (i + 1) = width - 1 + 16 * i + 1 := by
        simp only [width]
        omega
      rw [chunk, chunk, hi, List.drop_succ_cons, List.drop_drop]
    have hoffset (i : Nat) : offset + width + 16 * i = offset + 16 * (i + 1) := by
      simp only [width]
      omega
    -- the lines after the first are those of the rest, each counted one later
    rw [hcount, List.range_succ_eq_map, List.map_cons, List.map_map, ih]
    simp only [hchunk, hoffset]
    rfl

theorem length_chunk_le (data : List UInt8) (i : Nat) : (chunk data i).length ≤ width :=
  List.length_take_le _ _

theorem flatMap_chunk (data : List UInt8) (n : Nat) :
    (List.range n).flatMap (chunk data) = data.take (16 * n) := by
  induction n with
  | zero => rfl
  | succ n ih =>
    rw [List.range_succ, List.flatMap_append, ih, List.flatMap_singleton, Nat.mul_succ,
      List.take_add, chunk]

/-- A dump has a line for every sixteen bytes, each with the digits of its bytes first and a
character for every byte from column 41 on, and the digits of all lines give back the bytes. -/
theorem lines_give_back (offset : Nat) (data : List UInt8) :
    (lines offset data).length = (data.length + 15) / 16 ∧
      List.Forall₂ (fun l i => l.1 = offset + 16 * i ∧
          Dumps l.2.toList ((data.drop (16 * i)).take 16))
        (lines offset data) (List.range ((data.length + 15) / 16)) ∧
      ofHex? ((lines offset data).flatMap fun l => (l.2.toList.take 39).filter (· ≠ ' ')) =
        some data := by
  have hdumps (i : Nat) : Dumps (line (chunk data i)) (chunk data i) :=
    dumps_line (length_chunk_le data i)
  have hall : (List.range ((data.length + 15) / 16)).flatMap (chunk data) = data := by
    rw [flatMap_chunk]
    apply List.take_of_length_le
    omega
  rw [lines_eq]
  refine ⟨by rw [List.length_map, List.length_range], ?_, ?_⟩
  · rw [List.forall₂_map_left_iff, List.forall₂_same]
    intro i _
    rw [String.toList_ofList]
    exact ⟨rfl, hdumps i⟩
  · have hdigits : (List.range ((data.length + 15) / 16)).flatMap
        (fun i => hexText (chunk data i)) = hexText data := by
      conv_rhs => rw [← hall]
      exact List.flatMap_assoc.symm
    rw [List.flatMap_map]
    simp only [String.toList_ofList, (hdumps _).digits, hdigits, ofHex?_hexText]

end HexDump
end Telemetry.Bytes
