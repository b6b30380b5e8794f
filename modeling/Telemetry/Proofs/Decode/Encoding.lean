import Telemetry.Proofs.Decode.StaticSize
import Telemetry.Proofs.Text.Padding
import Telemetry.Proofs.Text.Utf8

namespace Telemetry

def DataType.Exact (t : DataType) : Prop :=
  t.supported = true ∧ t.base ≠ .text ∧ t.base ≠ .fill ∧ t.base ≠ .unknown

theorem DataType.Exact.dvd {t : DataType} (h : t.Exact) : t.bitLen % 8 = 0 := by
  obtain ⟨hs, htext, hfill, hunknown⟩ := h
  cases hb : t.base with
  | text => exact absurd hb htext
  | fill => exact absurd hb hfill
  | unknown => exact absurd hb hunknown
  | unsigned | signed | enumerated | boolean | float | time =>
    simp [supported, integerWidths, hb] at hs
    omega

namespace Decode

open Bytes (Cursor bigEndian toBigEndian)
open Layout (Scalar fillName)

inductive Encodes (t : DataType) (unit : Option String) : Value → List UInt8 → Prop
  | unsigned {n : UInt64} (kind : t.base = .unsigned ∨ t.base = .enumerated)
      (width : t.bitLen ∈ DataType.integerWidths) (fits : n.toNat < Nat.pow 2 t.bitLen) :
      Encodes t unit (.unsigned n) (toBigEndian (t.bitLen / 8) n.toNat)
  | signed {n : Int64} (kind : t.base = .signed) (width : t.bitLen ∈ DataType.integerWidths)
      (low : -(Nat.pow 2 (t.bitLen - 1) : Int) ≤ n.toInt)
      (high : n.toInt < (Nat.pow 2 (t.bitLen - 1) : Int)) :
      Encodes t unit (.signed n)
        (toBigEndian (t.bitLen / 8) (BitVec.ofInt t.bitLen n.toInt).toNat)
  | boolean {n : Nat} (kind : t.base = .boolean) (width : t.bitLen ∈ DataType.integerWidths)
      (fits : n < Nat.pow 2 t.bitLen) :
      Encodes t unit (.bool (n != 0)) (toBigEndian (t.bitLen / 8) n)
  | single (bits : UInt32) (kind : t.base = .float) (width : t.bitLen = 32) :
      Encodes t unit (.float (.ofSingle bits)) (toBigEndian 4 bits.toNat)
  | double (x : Double) (kind : t.base = .float) (width : t.bitLen = 64) :
      Encodes t unit (.float x) (toBigEndian 8 x.bits.toNat)
  | coarse {n : Nat} (kind : t.base = .time) (width : t.bitLen = 32)
      (ticks : ¬ TimeUnit.Counts unit) (fits : n < 0x100000000) :
      Encodes t unit (.clock ⟨n, 0⟩) (toBigEndian 4 n)
  | clock {c : Clock} {low : Nat} (kind : t.base = .time) (width : t.bitLen = 64)
      (ticks : ¬ TimeUnit.Counts unit) (coarse : c.coarse < 0x100000000) (fine : c.fine < 0x10000)
      (rest : low < 0x10000) :
      Encodes t unit (.clock c) (toBigEndian 4 c.coarse ++ toBigEndian 4 (c.fine * 0x10000 + low))
  | count {n : UInt64} (kind : t.base = .time) (width : t.bitLen = 32 ∨ t.bitLen = 64)
      (counts : TimeUnit.Counts unit) (fits : n.toNat < Nat.pow 2 t.bitLen) :
      Encodes t unit (.unsigned n) (toBigEndian (t.bitLen / 8) n.toNat)
  | text {left s right : String} (kind : t.base = .text) (width : t.bitLen % 8 = 0)
      (before : ∀ c ∈ left.toList, Text.padding c = true)
      (trimmed : Text.Trimmed Text.padding s.toList)
      (behind : ∀ c ∈ right.toList, Text.padding c = true) :
      Encodes t unit (.text s) (Text.Utf8.bytes (left ++ s ++ right))

section Widths

variable {bits : Nat}

theorem of_mem_integerWidths (h : bits ∈ DataType.integerWidths) :
    bits % 8 = 0 ∧ 0 < bits ∧ bits ≤ 64 := by
  simp only [DataType.integerWidths, List.mem_cons, List.not_mem_nil, or_false] at h
  omega

theorem pow_bytes (h : bits % 8 = 0) : Nat.pow 256 (bits / 8) = Nat.pow 2 bits := by
  change (2 ^ 8) ^ (bits / 8) = 2 ^ bits
  rw [← Nat.pow_mul, Nat.mul_div_cancel' (Nat.dvd_of_mod_eq_zero h)]

theorem bigEndian_bits {n : Nat} (h : bits % 8 = 0) (hn : n < Nat.pow 2 bits) :
    bigEndian (toBigEndian (bits / 8) n) = n :=
  Bytes.bigEndian_toBigEndian_of_lt (pow_bytes h ▸ hn)

theorem exists_toNat_eq {n : Nat} (h : bits ≤ 64) (hn : n < Nat.pow 2 bits) :
    ∃ m : UInt64, m.toNat = n := by
  have hsize : n < UInt64.size := Nat.lt_of_lt_of_le hn (Nat.pow_le_pow_right (by decide) h)
  exact ⟨UInt64.ofNat n, UInt64.toNat_ofNat_of_lt' hsize⟩

theorem toInt_bounds (x : BitVec bits) :
    -(Nat.pow 2 (bits - 1) : Int) ≤ x.toInt ∧ x.toInt < (Nat.pow 2 (bits - 1) : Int) := by
  constructor
  · simpa using x.le_toInt
  · simpa using x.toInt_lt

theorem exists_toInt_eq (h : bits ≤ 64) (x : BitVec bits) : ∃ m : Int64, m.toInt = x.toInt := by
  have hpow : (Nat.pow 2 (bits - 1) : Int) ≤ (Nat.pow 2 63 : Int) :=
    Int.ofNat_le.mpr (Nat.pow_le_pow_right (by decide) (by omega))
  obtain ⟨hlow, hhigh⟩ := toInt_bounds x
  exact ⟨Int64.ofInt x.toInt, Int64.toInt_ofInt_of_le
    (Int.le_trans (Int.neg_le_neg hpow) hlow) (Int.lt_of_lt_of_le hhigh hpow)⟩

theorem ofNat_bigEndian_bits {n : UInt64} (h : bits % 8 = 0) (hn : n.toNat < Nat.pow 2 bits) :
    UInt64.ofNat (bigEndian (toBigEndian (bits / 8) n.toNat)) = n := by
  rw [bigEndian_bits h hn, UInt64.ofNat_toNat]

theorem signedValue_toNat (x : BitVec bits) : signedValue bits x.toNat = x.toInt :=
  x.toInt_eq_toNat_cond.symm

theorem signedValue_ofInt (hb : 0 < bits) {n : Int}
    (low : -(Nat.pow 2 (bits - 1) : Int) ≤ n) (high : n < (Nat.pow 2 (bits - 1) : Int)) :
    signedValue bits (BitVec.ofInt bits n).toNat = n := by
  rw [signedValue_toNat]
  apply BitVec.toInt_ofInt_eq_self hb
  · simpa using low
  · simpa using high

end Widths

section Leaves

variable {name : String} {t : DataType} {unit : Option String} {bytes : List UInt8} {v : Value}

theorem supported_of_encodes (h : Encodes t unit v bytes) : t.supported = true := by
  cases h with
  | unsigned kind width =>
    rcases kind with kind | kind <;> simpa [DataType.supported, kind] using width
  | signed kind width => simpa [DataType.supported, kind] using width
  | boolean kind width => simpa [DataType.supported, kind] using width
  | single bits kind width => simp [DataType.supported, kind, width]
  | double x kind width => simp [DataType.supported, kind, width]
  | coarse kind width => simp [DataType.supported, kind, width]
  | clock kind width => simp [DataType.supported, kind, width]
  | count kind width => simpa [DataType.supported, kind] using width
  | text kind width => simp [DataType.supported, kind, width]

theorem base_ne_fill (h : Encodes t unit v bytes) : t.base ≠ .fill := by
  intro hb
  cases h <;> simp_all

theorem timeValue_of_counts (h : TimeUnit.Counts unit) (bits : Nat) (bytes : List UInt8) :
    timeValue bits unit bytes = .unsigned (UInt64.ofNat (bigEndian bytes)) :=
  if_neg (mt (TimeUnit.ofDeclared_eq_clock_iff unit).mp (not_not_intro h))

theorem timeValue_32 (h : ¬ TimeUnit.Counts unit) (bytes : List UInt8) :
    timeValue 32 unit bytes = .clock ⟨bigEndian bytes, 0⟩ :=
  if_pos ((TimeUnit.ofDeclared_eq_clock_iff unit).mpr h)

theorem timeValue_64 (h : ¬ TimeUnit.Counts unit) {c : Clock} {low : Nat}
    (hc : c.coarse < 0x100000000) (hf : c.fine < 0x10000) (hl : low < 0x10000) :
    timeValue 64 unit (toBigEndian 4 c.coarse ++ toBigEndian 4 (c.fine * 0x10000 + low)) =
      .clock c := by
  have hlen := Bytes.length_toBigEndian 4 c.coarse
  have hword : c.fine * 0x10000 + low < Nat.pow 256 4 := by
    change _ < 0x100000000
    omega
  have hfine : (c.fine * 0x10000 + low) / 0x10000 % 0x10000 = c.fine := by omega
  rw [timeValue, if_pos ((TimeUnit.ofDeclared_eq_clock_iff unit).mpr h), if_neg (by decide),
    List.take_left' hlen, List.drop_left' hlen, Bytes.bigEndian_toBigEndian_of_lt hc,
    Bytes.bigEndian_toBigEndian_of_lt hword, Clock.ofWords, hfine]

theorem textValue_bytes {left s right : String}
    (hl : ∀ c ∈ left.toList, Text.padding c = true) (hs : Text.Trimmed Text.padding s.toList)
    (hr : ∀ c ∈ right.toList, Text.padding c = true) :
    textValue (Text.Utf8.bytes (left ++ s ++ right)) = s := by
  rw [textValue, Text.Utf8.decode_bytes, String.toList_append, String.toList_append,
    Text.trim_padded hl hs hr, String.ofList_toList]

theorem leafValue_of_encodes (h : Encodes t unit v bytes) :
    leafValue name t unit bytes = .ok (some v) := by
  have hs : (!t.supported) = false := by rw [supported_of_encodes h]; rfl
  simp only [leafValue, hs, Bool.false_eq_true, if_false]
  cases h with
  | unsigned kind width fits =>
    have hw := of_mem_integerWidths width
    rcases kind with kind | kind <;> simp only [kind, ofNat_bigEndian_bits hw.1 fits]
  | @signed n kind width low high =>
    have hw := of_mem_integerWidths width
    have hn : bigEndian _ = _ := bigEndian_bits hw.1 (BitVec.ofInt t.bitLen n.toInt).isLt
    simp only [kind, hn, signedValue_ofInt hw.2.1 low high, Int64.ofInt_toInt]
  | boolean kind width fits =>
    have hw := of_mem_integerWidths width
    simp only [kind, bigEndian_bits hw.1 fits]
  | single bits kind width =>
    have hn : bigEndian (toBigEndian 4 bits.toNat) = bits.toNat :=
      Bytes.bigEndian_toBigEndian_of_lt bits.toNat_lt
    simp only [kind, width, hn, floatValue, if_true, UInt32.ofNat_toNat]
  | double x kind width =>
    have hn : bigEndian (toBigEndian 8 x.bits.toNat) = x.bits.toNat :=
      Bytes.bigEndian_toBigEndian_of_lt x.bits.toNat_lt
    simp [kind, width, hn, floatValue]
  | coarse kind width ticks fits =>
    have hn : bigEndian (toBigEndian 4 _) = _ := Bytes.bigEndian_toBigEndian_of_lt fits
    simp only [kind, width, timeValue_32 ticks, hn]
  | clock kind width ticks coarse fine rest =>
    simp only [kind, width, timeValue_64 ticks coarse fine rest]
  | count kind width counts fits =>
    have hw : t.bitLen % 8 = 0 := by omega
    simp only [kind, timeValue_of_counts counts, ofNat_bigEndian_bits hw fits]
  | text kind width before trimmed behind =>
    simp only [kind, textValue_bytes before trimmed behind]

theorem exists_encodes_signed (kind : t.base = .signed)
    (width : t.bitLen ∈ DataType.integerWidths) (unit : Option String) {n : Nat}
    (hn : n < Nat.pow 2 t.bitLen) : ∃ v, Encodes t unit v (toBigEndian (t.bitLen / 8) n) := by
  obtain ⟨m, hm⟩ := exists_toInt_eq (of_mem_integerWidths width).2.2 (BitVec.ofNat t.bitLen n)
  have hmn : (BitVec.ofInt t.bitLen m.toInt).toNat = n := by
    rw [hm, BitVec.ofInt_toInt, BitVec.toNat_ofNat]
    exact Nat.mod_eq_of_lt hn
  have hbounds := hm ▸ toInt_bounds (BitVec.ofNat t.bitLen n)
  have henc : Encodes t unit (.signed m) _ := .signed kind width hbounds.1 hbounds.2
  rw [hmn] at henc
  exact ⟨_, henc⟩

theorem exists_encodes_float (kind : t.base = .float) (width : t.bitLen = 32 ∨ t.bitLen = 64)
    (unit : Option String) (hb : bytes.length * 8 = t.bitLen) : ∃ v, Encodes t unit v bytes := by
  rcases width with width | width
  · obtain ⟨n, hn, rfl⟩ := Bytes.exists_eq_toBigEndian 4 bytes (by omega)
    have hto : (UInt32.ofNat n).toNat = n := UInt32.toNat_ofNat_of_lt' hn
    have henc : Encodes t unit _ _ := .single (UInt32.ofNat n) kind width
    rw [hto] at henc
    exact ⟨_, henc⟩
  · obtain ⟨n, hn, rfl⟩ := Bytes.exists_eq_toBigEndian 8 bytes (by omega)
    obtain ⟨m, rfl⟩ := exists_toNat_eq (Nat.le_refl 64) hn
    exact ⟨_, .double ⟨m⟩ kind width⟩

theorem exists_encodes_clock (kind : t.base = .time) (width : t.bitLen = 32 ∨ t.bitLen = 64)
    (hu : ¬ TimeUnit.Counts unit) (hb : bytes.length * 8 = t.bitLen) :
    ∃ v, Encodes t unit v bytes := by
  rcases width with width | width
  · obtain ⟨n, hn, rfl⟩ := Bytes.exists_eq_toBigEndian 4 bytes (by omega)
    exact ⟨_, .coarse kind width hu hn⟩
  · obtain ⟨n, hn, hfirst⟩ := Bytes.exists_eq_toBigEndian 4 (bytes.take 4) (by simp; omega)
    obtain ⟨m, hm, hsecond⟩ := Bytes.exists_eq_toBigEndian 4 (bytes.drop 4) (by simp; omega)
    have hfine : m / 0x10000 < 0x10000 := by
      change m < 0x100000000 at hm
      omega
    have henc : Encodes t unit (.clock ⟨n, m / 0x10000⟩) _ :=
      .clock kind width hu hn hfine (Nat.mod_lt m (by decide))
    rw [Nat.div_add_mod', ← hfirst, ← hsecond, List.take_append_drop] at henc
    exact ⟨_, henc⟩

theorem exists_encodes (ht : t.Exact) (hb : bytes.length * 8 = t.bitLen) (unit : Option String) :
    ∃ v, Encodes t unit v bytes := by
  obtain ⟨hs, htext, hfill, hunknown⟩ := ht
  obtain ⟨n, hn, hbytes⟩ := Bytes.exists_eq_toBigEndian (t.bitLen / 8) bytes (by omega)
  rw [pow_bytes (by omega)] at hn
  cases kind : t.base with
  | unsigned | enumerated =>
    have width : t.bitLen ∈ DataType.integerWidths := by simpa [DataType.supported, kind] using hs
    obtain ⟨m, rfl⟩ := exists_toNat_eq (of_mem_integerWidths width).2.2 hn
    rw [hbytes]
    exact ⟨_, .unsigned (by simp [kind]) width hn⟩
  | signed =>
    rw [hbytes]
    exact exists_encodes_signed kind (by simpa [DataType.supported, kind] using hs) unit hn
  | boolean =>
    rw [hbytes]
    exact ⟨_, .boolean kind (by simpa [DataType.supported, kind] using hs) hn⟩
  | float =>
    exact exists_encodes_float kind (by simpa [DataType.supported, kind] using hs) unit hb
  | time =>
    have width : t.bitLen = 32 ∨ t.bitLen = 64 := by simpa [DataType.supported, kind] using hs
    by_cases hu : TimeUnit.Counts unit
    · obtain ⟨m, rfl⟩ := exists_toNat_eq (by omega) hn
      rw [hbytes]
      exact ⟨_, .count kind width hu hn⟩
    · exact exists_encodes_clock kind width hu hb
  | text => exact absurd kind htext
  | fill => exact absurd kind hfill
  | unknown => exact absurd kind hunknown

end Leaves

/-- `bytes`, with `more` behind them, give the scalar `payload` as the bytes of its value. -/
inductive Framed (s : Scalar) (payload : List UInt8) : (bytes more : List UInt8) → Prop
  | fixed {more} (plain : s.lengthBytes = none)
      (size : s.dataType.byteLen = some payload.length) : Framed s payload payload more
  | prefixed {width more} (width_eq : s.lengthBytes = some width)
      (fits : payload.length < Nat.pow 256 width) :
      Framed s payload (toBigEndian width payload.length ++ payload) more
  | rest (plain : s.lengthBytes = none) (size : s.dataType.byteLen = none) :
      Framed s payload payload []

def Reading.ofValue (channels : Bool) (id : Nat) (s : Scalar) (v : Value) (past : State) : Reading :=
  ⟨some v, .reading id s v :: if channels then offer s v else [], past.remember id v⟩

section Frames

variable {s : Scalar} {payload bytes more : List UInt8}

theorem byteLen_of_framed (h : Framed s payload bytes more) :
    (effectiveType s payload.length).byteLen = some payload.length := by
  unfold effectiveType
  cases h with
  | fixed plain size => simp only [plain, size]
  | prefixed width_eq fits => simp only [width_eq]; rfl
  | rest plain size => simp only [plain, size]; rfl

theorem mul_eight_of_framed (h : Framed s payload bytes more)
    (ht : (effectiveType s payload.length).Exact) :
    payload.length * 8 = (effectiveType s payload.length).bitLen := by
  have hb := byteLen_of_framed h
  have hdvd := ht.dvd
  rcases (effectiveType s payload.length).byteLen_eq with hn | hn
  · rw [hb] at hn
    exact absurd hn.1 (Option.some_ne_none _)
  · rw [hb, Option.some.injEq, DataType.bytesFor] at hn
    omega

theorem extent?_of_framed (h : Framed s payload bytes more) {c : Cursor}
    (hc : c.rest = bytes ++ more) :
    ∃ d : Cursor, extent? s c = some ⟨payload.length, d, []⟩ ∧ d.rest = payload ++ more ∧
      d.advance payload.length = c.advance bytes.length := by
  have hr := c.remaining_eq
  cases h with
  | fixed plain size => exact ⟨c, extent?_of_byteLen plain size c, hc, rfl⟩
  | @prefixed width more width_eq fits =>
    have hlen := Bytes.length_toBigEndian width payload.length
    rw [hc] at hr
    simp only [List.length_append, hlen] at hr
    refine ⟨c.advance width, ?_, ?_, ?_⟩
    · have hread : c.readNat width = .ok (payload.length, c.advance width) := by
        refine Cursor.readNat_eq_ok_iff.mpr ⟨by omega, ?_, rfl⟩
        rw [hc, List.append_assoc, List.take_left' hlen, Bytes.bigEndian_toBigEndian_of_lt fits]
      simp only [extent?, width_eq, hread]
      rw [if_neg (by rw [Cursor.remaining_advance]; omega)]
    · rw [Cursor.rest_advance, hc, List.append_assoc, List.drop_left' hlen]
    · rw [Cursor.advance_advance, List.length_append, hlen]
  | rest plain size =>
    refine ⟨c, ?_, hc, rfl⟩
    simp only [extent?, plain, size, Option.getD_none]
    rw [hr, hc, List.append_nil]

theorem readScalar_of_framed (hname : s.name ≠ fillName) (h : Framed s payload bytes more)
    {v : Value} (henc : Encodes (effectiveType s payload.length) s.attrs.unit v payload)
    {st : State} (hst : st.cursor.rest = bytes ++ more) (channels : Bool) (id : Nat) :
    readScalar channels id s st = .ofValue channels id s v (st.advance bytes.length) := by
  have hfill : s.isFill = false := by
    have hb := base_ne_fill henc
    rw [base_effectiveType] at hb
    simp [Scalar.isFill, hname, hb]
  obtain ⟨d, he, hrest, hd⟩ := extent?_of_framed h hst
  have hread : d.read payload.length = .ok (payload, d.advance payload.length) := by
    have hr := d.remaining_eq
    rw [hrest, List.length_append] at hr
    refine Cursor.read_eq_ok_iff.mpr ⟨by omega, ?_, rfl⟩
    rw [hrest, List.take_left]
  simp only [readScalar, he, hfill, hread, readLeaf, leafValue_of_encodes henc, hd]
  rfl

/-- Decoding undoes encoding. But for text, the bytes of every value are also its encoding. -/
theorem readScalar_encoded (hname : s.name ≠ fillName) (hf : Framed s payload bytes more)
    {st : State} (hst : st.cursor.rest = bytes ++ more) (channels : Bool) (id : Nat) :
    (∀ v, Encodes (effectiveType s payload.length) s.attrs.unit v payload →
      readScalar channels id s st = .ofValue channels id s v (st.advance bytes.length)) ∧
    ((effectiveType s payload.length).Exact →
      ∃ v, (readScalar channels id s st).dn = some v ∧
        Encodes (effectiveType s payload.length) s.attrs.unit v payload) := by
  refine ⟨fun v henc => readScalar_of_framed hname hf henc hst channels id, fun ht => ?_⟩
  obtain ⟨v, henc⟩ := exists_encodes ht (mul_eight_of_framed hf ht) s.attrs.unit
  refine ⟨v, ?_, henc⟩
  rw [readScalar_of_framed hname hf henc hst channels id]
  rfl

end Frames

def rawTemperature : Scalar := { name := "raw", dataType := .ofBits .signed 24 }

def shownTemperature : Scalar :=
  { name := "shown", dataType := .rest .text, lengthBytes := some 1 }

theorem readScalar_temperatures :
    (readScalar false 0 rawTemperature (.start [0xFF, 0xFF, 0xFE, 0x07])).dn =
      some (.signed (-2)) ∧
    (readScalar false 1 shownTemperature
      (.start [0x07, 0x00, 0x2D, 0x32, 0xC2, 0xB0, 0x43, 0x20, 0x07])).dn = some (.text "-2°C") := by
  constructor
  · have hf : Framed rawTemperature [0xFF, 0xFF, 0xFE] [0xFF, 0xFF, 0xFE] [0x07] := .fixed rfl rfl
    have henc : Encodes (effectiveType rawTemperature 3) none (.signed (-2)) [0xFF, 0xFF, 0xFE] :=
      .signed rfl (by decide) (by decide) (by decide)
    rw [(readScalar_encoded (by decide) hf rfl false 0).1 _ henc]
    rfl
  · have hbytes : Text.Utf8.bytes ("\x00" ++ "-2°C" ++ " ") =
        [0x00, 0x2D, 0x32, 0xC2, 0xB0, 0x43, 0x20] := by decide
    have hf : Framed shownTemperature [0x00, 0x2D, 0x32, 0xC2, 0xB0, 0x43, 0x20]
        (toBigEndian 1 7 ++ [0x00, 0x2D, 0x32, 0xC2, 0xB0, 0x43, 0x20]) [0x07] :=
      .prefixed rfl (by decide)
    have henc : Encodes (effectiveType shownTemperature 7) none (.text "-2°C")
        [0x00, 0x2D, 0x32, 0xC2, 0xB0, 0x43, 0x20] :=
      hbytes ▸ .text rfl rfl (by simp [Text.padding])
        ⟨by simp [Text.padding], by simp [Text.padding]⟩ (by simp [Text.padding])
    rw [(readScalar_encoded (by decide) hf rfl false 1).1 _ henc]
    rfl

end Decode
end Telemetry
