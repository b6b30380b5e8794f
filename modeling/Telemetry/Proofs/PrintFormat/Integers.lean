import Telemetry.PrintFormat.Render
import Telemetry.Proofs.Number.Numerals
import Telemetry.Proofs.Resolution.Symbols

namespace Telemetry

open Number (Numeral)

namespace Conversion

def digits? : Conversion → Option (List Char)
  | decimal | integer | unsigned => some ['0', '1', '2', '3', '4', '5', '6', '7', '8', '9']
  | octal => some ['0', '1', '2', '3', '4', '5', '6', '7']
  | hex => some ['0', '1', '2', '3', '4', '5', '6', '7', '8', '9', 'a', 'b', 'c', 'd', 'e', 'f']
  | hexUpper =>
    some ['0', '1', '2', '3', '4', '5', '6', '7', '8', '9', 'A', 'B', 'C', 'D', 'E', 'F']
  | fixed | fixedUpper | exponent | exponentUpper | general | generalUpper | text | character =>
    none

def isSigned (v : Conversion) : Bool := v == decimal || v == integer

def magnitude (v : Conversion) (i : Int) : Nat :=
  if v.isSigned then i.natAbs else (i % UInt64.size).toNat

def radixMark : Conversion → List Char
  | hex => ['0', 'x']
  | hexUpper => ['0', 'X']
  | _ => []

end Conversion

namespace Placeholder

def lead (p : Placeholder) (i : Int) : List Char :=
  if p.conversion.isSigned then
    if i < 0 then ['-'] else if p.flags.plus then ['+'] else if p.flags.space then [' '] else []
  else if p.flags.alt ∧ i ≠ 0 then p.conversion.radixMark else []

def withZero (p : Placeholder) (ns : List Char) : List Char :=
  if p.conversion = .octal ∧ p.flags.alt ∧ ns.head? ≠ some '0' then '0' :: ns else ns

def room (p : Placeholder) (head ds : List Char) : Nat :=
  p.width.getD 0 - (head.length + ds.length)

inductive Laid (p : Placeholder) (head ds : List Char) : List Char → Prop where
  | left (hl : p.flags.left = true) :
      Laid p head ds (head ++ ds ++ List.replicate (p.room head ds) ' ')
  | zeros (hl : p.flags.left = false) (hz : p.flags.zero = true) :
      Laid p head ds (head ++ List.replicate (p.room head ds) '0' ++ ds)
  | right (hl : p.flags.left = false) (hz : p.flags.zero = false) :
      Laid p head ds (List.replicate (p.room head ds) ' ' ++ head ++ ds)

structure Prints (p : Placeholder) (i : Int) (text : List Char) : Prop where
  precision : p.precision = none
  laid : ∃ alphabet ns, p.conversion.digits? = some alphabet ∧
    Numeral alphabet (p.conversion.magnitude i) ns ∧ p.Laid (p.lead i) (p.withZero ns) text

/-- An octal zero of the alternate form, unless zeros fill a width of two or more. -/
def DoublesZero (p : Placeholder) (i : Int) : Prop :=
  p.conversion = .octal ∧ p.flags.alt = true ∧ i = 0 ∧
    (p.flags.left = true ∨ p.flags.zero = false ∨ p.width.getD 0 < 2)

variable {p : Placeholder} {v : Value} {i : Int} {alphabet head ns ds : List Char}

theorem laid_iff {text : List Char} : p.Laid head ds text ↔ text =
    if p.flags.left then head ++ ds ++ List.replicate (p.room head ds) ' '
    else if p.flags.zero then head ++ List.replicate (p.room head ds) '0' ++ ds
    else List.replicate (p.room head ds) ' ' ++ head ++ ds := by
  cases hl : p.flags.left with
  | true =>
    constructor
    · rintro (_ | ⟨hl', _⟩ | ⟨hl', _⟩)
      · rfl
      all_goals exact absurd (hl.symm.trans hl') (by decide)
    · rintro rfl
      exact .left hl
  | false =>
    cases hz : p.flags.zero with
    | true =>
      constructor
      · rintro (hl' | _ | ⟨_, hz'⟩)
        · exact absurd (hl.symm.trans hl') (by decide)
        · rfl
        · exact absurd (hz.symm.trans hz') (by decide)
      · rintro rfl
        exact .zeros hl hz
    | false =>
      constructor
      · rintro (hl' | ⟨_, hz'⟩ | _)
        · exact absurd (hl.symm.trans hl') (by decide)
        · exact absurd (hz.symm.trans hz') (by decide)
        · rfl
      · rintro rfl
        exact .right hl hz

theorem laid_pad (h : headLength (head ++ ds) = head.length) :
    p.Laid head ds (p.pad ⟨head ++ ds, true⟩) := by
  rw [laid_iff]
  simp only [pad, h, room, List.length_append, Bool.and_true, List.take_left, List.drop_left,
    List.append_assoc]

def marks : List Char := ['-', '+', ' ', 'x', 'X']

def leads : List (List Char) := [[], ['-'], ['+'], [' '], ['0', 'x'], ['0', 'X']]

theorem lead_mem (p : Placeholder) (i : Int) : p.lead i ∈ leads := by
  unfold lead
  cases p.conversion <;> simp only [Conversion.radixMark] <;> split_ifs <;> decide

theorem headLength_digits (hd : ∀ c ∈ ds, c ∉ marks) : headLength ds = 0 := by
  cases ds with
  | nil => rfl
  | cons c cs =>
    have hc := hd c List.mem_cons_self
    have hs : ¬ (c = '-' ∨ c = '+' ∨ c = ' ') := by
      rintro (rfl | rfl | rfl) <;> exact hc (by decide)
    simp only [headLength, if_neg hs, List.drop_zero]
    split
    next heq =>
      cases heq
      exact absurd (by decide) (hd 'x' (by simp))
    next heq =>
      cases heq
      exact absurd (by decide) (hd 'X' (by simp))
    next => rfl

theorem headLength_sign {c : Char} (hs : c = '-' ∨ c = '+' ∨ c = ' ')
    (hd : ∀ c ∈ ds, c ∉ marks) : headLength (c :: ds) = 1 := by
  simp only [headLength, if_pos hs, List.drop_succ_cons, List.drop_zero]
  split
  next => exact absurd (by decide) (hd 'x' (by simp))
  next => exact absurd (by decide) (hd 'X' (by simp))
  next => rfl

theorem headLength_append (hh : head ∈ leads) (hd : ∀ c ∈ ds, c ∉ marks) :
    headLength (head ++ ds) = head.length := by
  simp only [leads, List.mem_cons, List.not_mem_nil, or_false] at hh
  rcases hh with rfl | rfl | rfl | rfl | rfl | rfl
  · exact headLength_digits hd
  · exact headLength_sign (.inl rfl) hd
  · exact headLength_sign (.inr (.inl rfl)) hd
  · exact headLength_sign (.inr (.inr rfl)) hd
  · rfl
  · rfl

theorem not_mem_marks (ha : p.conversion.digits? = some alphabet) :
    ∀ c ∈ alphabet, c ∉ marks := by
  have hall : alphabet.all (fun c => !marks.contains c) = true := by
    cases hc : p.conversion <;> rw [hc] at ha <;> cases ha <;> rfl
  intro c hc
  simpa using List.all_eq_true.mp hall c hc

theorem zero_iff (ha : p.conversion.digits? = some alphabet) (d : Nat) :
    alphabet[d]? = some '0' ↔ d = 0 := by
  obtain ⟨rest, rfl, hrest⟩ : ∃ rest, alphabet = '0' :: rest ∧ '0' ∉ rest := by
    cases hc : p.conversion <;> rw [hc] at ha <;> cases ha <;> exact ⟨_, rfl, by decide⟩
  cases d with
  | zero => simp
  | succ d =>
    rw [List.getElem?_cons_succ]
    constructor
    · exact fun hd => absurd (List.mem_of_getElem? hd) hrest
    · nofun

theorem pattern?_of_whole (hv : v.Whole i) : pattern? v = some (i % UInt64.size).toNat := by
  cases hv with
  | unsigned n =>
    have := n.toNat_lt
    simp only [pattern?, UInt64.size, Option.some.injEq]
    omega
  | signed n =>
    have hcond := BitVec.toInt_eq_toNat_cond n.toBitVec
    have hlt := n.toBitVec.isLt
    rw [Int64.toInt_toBitVec] at hcond
    simp only [pattern?, UInt64.size, Option.some.injEq, ← UInt64.toNat_toBitVec,
      Int64.toBitVec_toUInt64]
    split at hcond <;> omega
  | bool b => cases b <;> rfl

theorem integerText_natCast (n : Nat) : (Value.integerText n).toList = Number.digits n := by
  have hn : ¬ (n : Int) < 0 := by omega
  rw [Value.integerText, if_neg hn, String.toList_ofList, Int.natAbs_natCast]

theorem body_signed (hs : p.conversion.isSigned = true) (hv : v.Whole i) :
    p.body v = p.signed ⟨(Value.integerText i).toList, true⟩ := by
  have hc : p.conversion = .decimal ∨ p.conversion = .integer := by
    simpa [Conversion.isSigned] using hs
  cases hv with
  | unsigned n =>
    rw [integerText_natCast]
    rcases hc with hc | hc <;> simp only [body, hc]
  | signed n => rcases hc with hc | hc <;> simp only [body, hc] <;> rfl
  | bool b => rcases hc with hc | hc <;> simp only [body, hc] <;> cases b <;> rfl

theorem body_pattern (ha : p.conversion.digits? = some alphabet)
    (hs : p.conversion.isSigned = false) (hv : v.Whole i) :
    p.body v = ⟨p.patternText (i % UInt64.size).toNat, true⟩ := by
  have hbody : p.body v = number? ((pattern? v).map p.patternText) v := by
    unfold body
    cases hc : p.conversion <;> rw [hc] at ha hs <;>
      simp_all [Conversion.digits?, Conversion.isSigned]
  rw [hbody, pattern?_of_whole hv]
  rfl

theorem numeral_digits (n : Nat) :
    Numeral ['0', '1', '2', '3', '4', '5', '6', '7', '8', '9'] n (Number.digits n) :=
  .toDigits (by decide) rfl (by decide) n

theorem signed_integerText (hs : p.conversion.isSigned = true) (i : Int) :
    p.signed ⟨(Value.integerText i).toList, true⟩ =
      ⟨p.lead i ++ Number.digits i.natAbs, true⟩ := by
  have hhead : (Number.digits i.natAbs).head? ≠ some '-' := by
    intro h
    have := (numeral_digits i.natAbs).mem_alphabet '-' (List.mem_of_mem_head? h)
    exact absurd this (by decide)
  simp only [signed, Value.integerText, String.toList_ofList, lead, hs, if_true]
  by_cases hi : i < 0
  · simp [hi]
  · simp only [hi, if_false, Bool.not_true, Bool.false_or, beq_iff_eq, hhead]
    split_ifs <;> rfl

theorem pattern_eq_zero_iff (hv : v.Whole i) : (i % UInt64.size).toNat = 0 ↔ i = 0 := by
  rw [UInt64.size]
  cases hv with
  | unsigned n =>
    have := n.toNat_lt
    omega
  | signed n =>
    have := n.le_toInt
    have := n.toInt_lt
    omega
  | bool b => cases b <;> decide

theorem exists_patternText (ha : p.conversion.digits? = some alphabet)
    (hs : p.conversion.isSigned = false) (hv : v.Whole i) :
    ∃ ns, Numeral alphabet (i % UInt64.size).toNat ns ∧ p.patternText (i % UInt64.size).toNat =
      p.lead i ++ if p.conversion = .octal ∧ p.flags.alt then '0' :: ns else ns := by
  have hzero := pattern_eq_zero_iff hv
  generalize (i % UInt64.size).toNat = n at hzero ⊢
  simp only [patternText, lead, hs]
  cases hc : p.conversion <;> rw [hc] at ha hs <;> cases ha
  case decimal => cases hs
  case integer => cases hs
  case unsigned =>
    refine ⟨Number.digits n, numeral_digits n, ?_⟩
    simp [Conversion.radixMark]
  case hex =>
    refine ⟨Nat.toDigits 16 n, .toDigits (by decide) rfl (by decide) n, ?_⟩
    simp [Conversion.radixMark, hzero]
  case hexUpper =>
    refine ⟨upper (Nat.toDigits 16 n), .toDigits_map (by decide) rfl (by decide) n, ?_⟩
    simp [Conversion.radixMark, hzero]
  case octal =>
    -- unlike the mark of base sixteen, the zero is put before zero as well
    refine ⟨Nat.toDigits 8 n, .toDigits (by decide) rfl (by decide) n, ?_⟩
    cases p.flags.alt <;> simp [Conversion.radixMark]

theorem exists_body (ha : p.conversion.digits? = some alphabet) (hv : v.Whole i) :
    ∃ ns, Numeral alphabet (p.conversion.magnitude i) ns ∧ p.body v =
      ⟨p.lead i ++ if p.conversion = .octal ∧ p.flags.alt then '0' :: ns else ns, true⟩ := by
  cases hs : p.conversion.isSigned with
  | true =>
    rw [body_signed hs hv, signed_integerText hs, Conversion.magnitude, hs, if_pos rfl]
    have hc : p.conversion = .decimal ∨ p.conversion = .integer := by
      simpa [Conversion.isSigned] using hs
    refine ⟨Number.digits i.natAbs, ?_, ?_⟩
    · rcases hc with hc | hc <;> rw [hc] at ha <;> cases ha <;> exact numeral_digits _
    · rcases hc with hc | hc <;> simp [hc]
  | false =>
    obtain ⟨ns, hn, htext⟩ := exists_patternText ha hs hv
    refine ⟨ns, ?_, ?_⟩
    · rwa [Conversion.magnitude, hs]
    · rw [body_pattern ha hs hv, htext]

theorem magnitude_eq_zero_iff (hv : v.Whole i) : p.conversion.magnitude i = 0 ↔ i = 0 := by
  unfold Conversion.magnitude
  split
  next => exact Int.natAbs_eq_zero
  next => exact pattern_eq_zero_iff hv

theorem exists_laid (p : Placeholder) (head ds : List Char) : ∃ text, p.Laid head ds text :=
  ⟨_, laid_iff.mpr rfl⟩

theorem Laid.unique {t u : List Char} (ht : p.Laid head ds t) (hu : p.Laid head ds u) : t = u := by
  rw [laid_iff] at ht hu
  rw [ht, hu]

theorem laid_render (ha : p.conversion.digits? = some alphabet)
    (hn : Numeral alphabet (p.conversion.magnitude i) ns)
    (hbody : p.body v =
      ⟨p.lead i ++ if p.conversion = .octal ∧ p.flags.alt then '0' :: ns else ns, true⟩) :
    p.Laid (p.lead i) (if p.conversion = .octal ∧ p.flags.alt then '0' :: ns else ns)
      (p.render v) := by
  have hns : ∀ c ∈ ns, c ∉ marks := fun c hc => not_mem_marks ha c (hn.mem_alphabet c hc)
  rw [render, hbody]
  apply laid_pad
  apply headLength_append (lead_mem p i)
  split
  next => exact List.forall_mem_cons.mpr ⟨by decide, hns⟩
  next => exact hns

theorem laid_zeros_iff {t u : List Char} (ht : p.Laid [] ['0', '0'] t) (hu : p.Laid [] ['0'] u) :
    t = u ↔ p.flags.left = false ∧ p.flags.zero = true ∧ 2 ≤ p.width.getD 0 := by
  have hcount (n : Nat) : (List.replicate n ' ').count '0' = 0 := by
    rw [List.count_replicate]
    rfl
  rw [laid_iff] at ht hu
  subst ht hu
  cases hl : p.flags.left with
  | true =>
    have hne : ['0', '0'] ++ List.replicate (p.room [] ['0', '0']) ' ' ≠
        ['0'] ++ List.replicate (p.room [] ['0']) ' ' := by
      intro h
      have := congrArg (List.count '0') h
      simp [hcount] at this
    simpa using hne
  | false =>
    cases hz : p.flags.zero with
    | true =>
      have hzeros : List.replicate (p.room [] ['0', '0']) '0' ++ List.replicate 2 '0' =
          List.replicate (p.room [] ['0']) '0' ++ List.replicate 1 '0' ↔ 2 ≤ p.width.getD 0 := by
        rw [List.replicate_append_replicate, List.replicate_append_replicate,
          List.replicate_left_inj]
        simp only [room, List.length_nil, List.length_cons]
        omega
      simpa using hzeros
    | false =>
      have hne : List.replicate (p.room [] ['0', '0']) ' ' ++ ['0', '0'] ≠
          List.replicate (p.room [] ['0']) ' ' ++ ['0'] := by
        intro h
        have := congrArg (List.count '0') h
        simp [hcount] at this
      simpa using hne

theorem prints_iff (hp : p.precision = none) (ha : p.conversion.digits? = some alphabet)
    (hn : Numeral alphabet (p.conversion.magnitude i) ns) {text : List Char} :
    p.Prints i text ↔ p.Laid (p.lead i) (p.withZero ns) text := by
  constructor
  · rintro ⟨-, alphabet', ns', ha', hn', ht⟩
    obtain rfl := Option.some.inj (ha.symm.trans ha')
    rwa [hn'.unique hn] at ht
  · intro ht
    exact ⟨hp, alphabet, ns, ha, hn, ht⟩

/-- Placeholders for integers show the text of C and no other, but for the zero that the alternate
form of base eight puts before zero. -/
theorem render_integer (hc : p.conversion.digits?.isSome = true) (hp : p.precision = none)
    (hv : v.Whole i) :
    ∃ text, (∀ t, p.Prints i t ↔ t = text) ∧ (p.render v = text ↔ ¬ p.DoublesZero i) ∧
      (p.DoublesZero i → p.Laid [] ['0', '0'] (p.render v)) := by
  obtain ⟨alphabet, ha⟩ := Option.isSome_iff_exists.mp hc
  obtain ⟨ns, hn, hbody⟩ := exists_body ha hv
  have hcode := laid_render ha hn hbody
  obtain ⟨text, htext⟩ := p.exists_laid (p.lead i) (p.withZero ns)
  refine ⟨text, fun t => (prints_iff hp ha hn).trans ⟨fun ht => ht.unique htext, ?_⟩, ?_⟩
  · rintro rfl
    exact htext
  by_cases hz : p.conversion = .octal ∧ p.flags.alt = true ∧ i = 0
  · have hoctal : p.conversion = .octal ∧ p.flags.alt = true := ⟨hz.1, hz.2.1⟩
    obtain ⟨ho, halt, rfl⟩ := hz
    rw [(magnitude_eq_zero_iff hv).mpr rfl] at hn
    obtain rfl := hn.eq_of_zero ((zero_iff ha 0).mpr rfl)
    have hlead : p.lead 0 = [] := by simp [lead, ho, Conversion.isSigned]
    have hzero : p.withZero ['0'] = ['0'] := by simp [withZero]
    rw [hlead, if_pos hoctal] at hcode
    rw [hlead, hzero] at htext
    refine ⟨?_, fun _ => hcode⟩
    rw [laid_zeros_iff hcode htext]
    simp only [DoublesZero, ho, halt, true_and, not_or, Bool.not_eq_true, Bool.not_eq_false,
      Nat.not_lt]
  · -- the numeral starts with a zero only if the number is zero, so C asks for the same zero
    have hsame : p.withZero ns =
        if p.conversion = .octal ∧ p.flags.alt then '0' :: ns else ns := by
      have hfirst := (hn.head?_eq_iff (zero_iff ha)).trans (magnitude_eq_zero_iff hv)
      refine if_congr ?_ rfl rfl
      rw [ne_eq, hfirst]
      exact ⟨fun h => ⟨h.1, h.2.1⟩, fun h => ⟨h.1, h.2, fun hi => hz ⟨h.1, h.2, hi⟩⟩⟩
    rw [hsame] at htext
    have hdouble : ¬ p.DoublesZero i := fun h => hz ⟨h.1, h.2.1, h.2.2.1⟩
    exact ⟨⟨fun _ => hdouble, fun _ => hcode.unique htext⟩, fun h => absurd h hdouble⟩

def capitalHex : Placeholder := ⟨0, { zero := true, alt := true }, some 6, none, .hexUpper⟩

theorem render_integer_capitalHex :
    capitalHex.conversion.digits?.isSome = true ∧ capitalHex.precision = none ∧
      (Value.unsigned 255).Whole 255 ∧
      ∀ t, capitalHex.Prints 255 t ↔ t = ['0', 'X', '0', '0', 'F', 'F'] := by
  have hv : (Value.unsigned 255).Whole 255 := .unsigned 255
  obtain ⟨text, hprints, hrender, -⟩ := render_integer (p := capitalHex) rfl rfl hv
  have hnot : ¬ capitalHex.DoublesZero 255 := by simp [DoublesZero, capitalHex]
  have htext : capitalHex.render (.unsigned 255) = ['0', 'X', '0', '0', 'F', 'F'] := by decide
  rw [← hrender.mpr hnot, htext] at hprints
  exact ⟨rfl, rfl, hv, hprints⟩

def octalZero : Placeholder := ⟨0, { alt := true }, none, none, .octal⟩

theorem render_octalZero :
    octalZero.render (.unsigned 0) = ['0', '0'] ∧ octalZero.Prints 0 ['0'] ∧
      ¬ octalZero.Prints 0 ['0', '0'] := by
  have hprints (text : List Char) :
      octalZero.Prints 0 text ↔ octalZero.Laid (octalZero.lead 0) (octalZero.withZero ['0']) text :=
    prints_iff rfl rfl (.digit rfl)
  refine ⟨by decide, ?_, ?_⟩
  · rw [hprints, laid_iff]
    decide
  · rw [hprints, laid_iff]
    decide

end Placeholder
end Telemetry
