import Mathlib.Data.List.TakeWhile
import Telemetry.PrintFormat.Parser

namespace Telemetry.PrintFormat

section Runs

variable {α : Type} {p : α → Bool} {xs rest : List α}

def Stops (p : α → Bool) (rest : List α) : Prop := ∀ x ∈ rest.head?, p x = false

theorem stops_nil : Stops p [] := nofun

theorem stops_cons {x : α} : Stops p (x :: rest) ↔ p x = false := by simp [Stops]

theorem stops_append (hxs : Stops p xs) (hrest : xs = [] → Stops p rest) :
    Stops p (xs ++ rest) := by
  cases xs with
  | nil => exact hrest rfl
  | cons x xs => exact hxs

theorem stops_of_forall (h : ∀ x ∈ xs, p x = false) : Stops p xs :=
  fun x hx => h x (List.mem_of_head? hx)

theorem stops_dropWhile (p : α → Bool) (xs : List α) : Stops p (xs.dropWhile p) := by
  intro x hx
  have h := List.head?_dropWhile_not p xs
  rw [hx] at h
  exact h

theorem span_of_stops (hxs : ∀ x ∈ xs, p x = true) (hrest : Stops p rest) :
    (xs ++ rest).takeWhile p = xs ∧ (xs ++ rest).dropWhile p = rest := by
  rw [List.takeWhile_append_of_pos hxs, List.dropWhile_append_of_pos hxs]
  cases rest with
  | nil => simp
  | cons x rest => simp [stops_cons.mp hrest]

theorem dropWhile_of_takeWhile_eq_nil (h : xs.takeWhile p = []) : xs.dropWhile p = xs := by
  conv => rhs; rw [← List.takeWhile_append_dropWhile (p := p) (l := xs), h, List.nil_append]

end Runs

section Classes

variable {c : Char}

theorem isFlag_iff : isFlag c = true ↔ c ∈ ['-', '0', '+', ' ', '#'] := by
  simp [isFlag, or_assoc]

theorem isModifier_iff : isModifier c = true ↔ c ∈ ['h', 'l', 'L', 'q', 'j', 'z', 't'] := by
  simp [isModifier, or_assoc]

theorem isDigit_iff : c.isDigit = true ↔ '0' ≤ c ∧ c ≤ '9' := by
  simp [Char.isDigit, Char.le_def]

theorem isDigit_and_not_isFlag_iff :
    c.isDigit = true ∧ isFlag c = false ↔ '1' ≤ c ∧ c ≤ '9' := by
  rw [isDigit_iff, ← Bool.not_eq_true, isFlag_iff]
  constructor
  · rintro ⟨⟨h0, h9⟩, hflag⟩
    refine ⟨?_, h9⟩
    by_contra h1
    have hle : c ≤ '0' := by
      simp only [Char.le_def, UInt32.le_iff_toNat_le] at h0 h1 ⊢
      simp at h0 h1 ⊢
      omega
    exact hflag (by simp [Char.le_antisymm hle h0])
  · rintro ⟨h1, h9⟩
    refine ⟨⟨Char.le_trans (by decide) h1, h9⟩, fun hc => ?_⟩
    simp only [List.mem_cons, List.not_mem_nil, or_false] at hc
    rcases hc with rfl | rfl | rfl | rfl | rfl <;> exact absurd h1 (by decide)

theorem isModifier_disjoint (h : isModifier c = true) :
    isFlag c = false ∧ c.isDigit = false ∧ c ≠ '.' := by
  rw [isModifier_iff] at h
  simp only [List.mem_cons, List.not_mem_nil, or_false] at h
  rcases h with rfl | rfl | rfl | rfl | rfl | rfl | rfl <;> decide

theorem letter_disjoint (v : Conversion) : isFlag v.letter = false ∧ v.letter.isDigit = false ∧
    v.letter ≠ '.' ∧ isModifier v.letter = false := by
  cases v <;> decide

end Classes

namespace Directive

def pointed : Option (List Char) → List Char
  | none => []
  | some ds => '.' :: ds

def body (d : Directive) : List Char :=
  d.flags ++ (d.width ++ (pointed d.precision ++ d.modifiers))

theorem source_eq (d : Directive) : d.source = '%' :: (d.body ++ [d.conversion.letter]) := by
  obtain ⟨flags, width, precision, modifiers, v⟩ := d
  cases precision <;> simp [source, body, pointed]

structure WellFormed (d : Directive) : Prop where
  flags : ∀ c ∈ d.flags, c ∈ ['-', '0', '+', ' ', '#']
  width : ∀ c ∈ d.width, '0' ≤ c ∧ c ≤ '9'
  leading : ∀ c ∈ d.width.head?, '1' ≤ c
  precision : ∀ ds ∈ d.precision, ∀ c ∈ ds, '0' ≤ c ∧ c ≤ '9'
  modifiers : ∀ c ∈ d.modifiers, c ∈ ['h', 'l', 'L', 'q', 'j', 'z', 't']

def isWellFormed (d : Directive) : Bool :=
  d.flags.all isFlag && d.width.all Char.isDigit && d.width.head?.all (fun c => '1' ≤ c) &&
    d.precision.all (·.all Char.isDigit) && d.modifiers.all isModifier

theorem isWellFormed_iff {d : Directive} : d.isWellFormed = true ↔ d.WellFormed := by
  simp only [isWellFormed, Bool.and_eq_true, List.all_eq_true, Option.all_eq_true, isFlag_iff,
    isDigit_iff, isModifier_iff, decide_eq_true_eq, and_assoc]
  exact ⟨fun ⟨hf, hw, hl, hp, hm⟩ => ⟨hf, hw, hl, hp, hm⟩,
    fun h => ⟨h.flags, h.width, h.leading, h.precision, h.modifiers⟩⟩

instance (d : Directive) : Decidable d.WellFormed := decidable_of_iff _ isWellFormed_iff

structure Ends (d : Directive) (rest : List Char) : Prop where
  modifiers : Stops isModifier rest
  digits : d.modifiers = [] → Stops Char.isDigit rest
  point : d.modifiers = [] → d.precision = none → Stops (· == '.') rest
  flags : d.modifiers = [] → d.precision = none → d.width = [] → Stops isFlag rest

variable {d : Directive} {cs rest : List Char}

theorem ends_nil (d : Directive) : d.Ends [] :=
  ⟨stops_nil, fun _ => stops_nil, fun _ _ => stops_nil, fun _ _ _ => stops_nil⟩

theorem Ends.of_cons {c : Char} (h : d.Ends (c :: cs)) (rest : List Char) : d.Ends (c :: rest) :=
  ⟨h.modifiers, h.digits, h.point, h.flags⟩

theorem ends_letter (d : Directive) (v : Conversion) (rest : List Char) :
    d.Ends (v.letter :: rest) := by
  obtain ⟨hflag, hdigit, hpoint, hmodifier⟩ := letter_disjoint v
  constructor <;> intros <;> rw [stops_cons]
  · exact hmodifier
  · exact hdigit
  · simpa using hpoint
  · exact hflag

def conclude (d : Directive) : List Char → Except Fault (Directive × List Char)
  | [] => .error .incomplete
  | c :: rest =>
    match Conversion.ofLetter? c with
    | none => .error (.unsupported c)
    | some v => .ok ({ d with conversion := v }, rest)

section Reading

variable (hd : d.WellFormed) (h : d.Ends rest)

include hd in
theorem WellFormed.modifiers_disjoint :
    ∀ c ∈ d.modifiers, isFlag c = false ∧ c.isDigit = false ∧ c ≠ '.' :=
  fun c hc => isModifier_disjoint (isModifier_iff.mpr (hd.modifiers c hc))

include hd h

theorem stops_isDigit_modifiers : Stops Char.isDigit (d.modifiers ++ rest) :=
  stops_append (stops_of_forall fun c hc => (hd.modifiers_disjoint c hc).2.1) h.digits

theorem stops_isDigit_precision :
    Stops Char.isDigit (pointed d.precision ++ (d.modifiers ++ rest)) := by
  cases d.precision with
  | none => exact stops_isDigit_modifiers hd h
  | some ds => exact stops_cons.mpr rfl

theorem stops_isFlag_width :
    Stops isFlag (d.width ++ (pointed d.precision ++ (d.modifiers ++ rest))) := by
  apply stops_append
  · intro c hc
    have hdigit := hd.width c (List.mem_of_head? hc)
    exact (isDigit_and_not_isFlag_iff.mpr ⟨hd.leading c hc, hdigit.2⟩).2
  · intro hwidth
    cases hp : d.precision with
    | none =>
      rw [pointed, List.nil_append]
      exact stops_append (stops_of_forall fun c hc => (hd.modifiers_disjoint c hc).1)
        fun hm => h.flags hm hp hwidth
    | some ds => exact stops_cons.mpr rfl

theorem takePrecision_append :
    takePrecision (pointed d.precision ++ (d.modifiers ++ rest)) =
      (d.precision, d.modifiers ++ rest) := by
  cases hp : d.precision with
  | none =>
    have hpoint : Stops (· == '.') (d.modifiers ++ rest) :=
      stops_append (stops_of_forall fun c hc => by simpa using (hd.modifiers_disjoint c hc).2.2)
        fun hm => h.point hm hp
    rw [pointed, List.nil_append]
    unfold takePrecision
    split
    next cs hcs =>
      rw [hcs] at hpoint
      simp [stops_cons] at hpoint
    next => rfl
  | some ds =>
    have hds : ∀ c ∈ ds, c.isDigit = true := fun c hc => isDigit_iff.mpr (hd.precision ds hp c hc)
    obtain ⟨htake, hdrop⟩ := span_of_stops hds (stops_isDigit_modifiers hd h)
    rw [pointed, List.cons_append, takePrecision, htake, hdrop]

theorem takeDirective_append : takeDirective (d.body ++ rest) = d.conclude rest := by
  have hflags := span_of_stops (fun c hc => isFlag_iff.mpr (hd.flags c hc))
    (stops_isFlag_width hd h)
  have hwidth := span_of_stops (fun c hc => isDigit_iff.mpr (hd.width c hc))
    (stops_isDigit_precision hd h)
  have hmodifiers := span_of_stops (fun c hc => isModifier_iff.mpr (hd.modifiers c hc)) h.modifiers
  simp only [body, List.append_assoc]
  simp only [takeDirective, hflags.1, hflags.2, hwidth.1, hwidth.2, takePrecision_append hd h,
    hmodifiers.1, hmodifiers.2]
  cases rest <;> rfl

end Reading

theorem exists_pointed (cs : List Char) : ∃ precision rest, cs = pointed precision ++ rest ∧
    (∀ ds ∈ precision, ∀ c ∈ ds, c.isDigit = true) ∧
    (precision = none → Stops (· == '.') rest) ∧
    (∀ ds, precision = some ds → Stops Char.isDigit rest) := by
  by_cases h : ∃ tail, cs = '.' :: tail
  · obtain ⟨tail, rfl⟩ := h
    refine ⟨some (tail.takeWhile Char.isDigit), tail.dropWhile Char.isDigit, ?_, ?_, nofun, ?_⟩
    · rw [pointed, List.cons_append, List.takeWhile_append_dropWhile]
    · rintro _ ⟨⟩ c hc
      exact List.mem_takeWhile_imp hc
    · exact fun _ _ => stops_dropWhile _ _
  · refine ⟨none, cs, rfl, nofun, fun _ c hc => ?_, nofun⟩
    rw [beq_eq_false_iff_ne]
    rintro rfl
    exact h (List.head?_eq_some_iff.mp hc)

theorem exists_body (cs : List Char) :
    ∃ d : Directive, ∃ rest, d.WellFormed ∧ d.Ends rest ∧ cs = d.body ++ rest := by
  have hflags : ∀ c ∈ cs.takeWhile isFlag, isFlag c = true := fun c => List.mem_takeWhile_imp
  generalize hafterFlags : cs.dropWhile isFlag = afterFlags
  have hafter : Stops isFlag afterFlags := hafterFlags ▸ stops_dropWhile isFlag cs
  have hwidth : ∀ c ∈ afterFlags.takeWhile Char.isDigit, c.isDigit = true :=
    fun c => List.mem_takeWhile_imp
  obtain ⟨precision, afterPrecision, hp, hds, hpoint, hdigit⟩ :=
    exists_pointed (afterFlags.dropWhile Char.isDigit)
  have hnone : precision = none → afterPrecision = afterFlags.dropWhile Char.isDigit := by
    rintro rfl
    exact hp.symm
  have hmodifiers : ∀ c ∈ afterPrecision.takeWhile isModifier, isModifier c = true :=
    fun c => List.mem_takeWhile_imp
  refine ⟨⟨cs.takeWhile isFlag, afterFlags.takeWhile Char.isDigit, precision,
    afterPrecision.takeWhile isModifier, .decimal⟩, afterPrecision.dropWhile isModifier,
    ⟨?_, ?_, ?_, ?_, ?_⟩, ⟨?_, ?_, ?_, ?_⟩, ?_⟩
  · exact fun c hc => isFlag_iff.mp (hflags c hc)
  · exact fun c hc => isDigit_iff.mp (hwidth c hc)
  · intro c hc
    rw [List.head?_takeWhile, Option.mem_def, Option.filter_eq_some_iff] at hc
    exact (isDigit_and_not_isFlag_iff.mp ⟨hc.2, hafter c hc.1⟩).1
  · exact fun ds h c hc => isDigit_iff.mp (hds ds h c hc)
  · exact fun c hc => isModifier_iff.mp (hmodifiers c hc)
  · exact stops_dropWhile _ _
  · intro hm
    rw [dropWhile_of_takeWhile_eq_nil hm]
    cases hprecision : precision with
    | none => exact hnone hprecision ▸ stops_dropWhile _ _
    | some ds => exact hdigit ds hprecision
  · intro hm hprecision
    rw [dropWhile_of_takeWhile_eq_nil hm]
    exact hpoint hprecision
  · intro hm hprecision hw
    rw [dropWhile_of_takeWhile_eq_nil hm, hnone hprecision, dropWhile_of_takeWhile_eq_nil hw]
    exact hafter
  · simp only [body, List.append_assoc]
    rw [List.takeWhile_append_dropWhile, ← hp, List.takeWhile_append_dropWhile, ← hafterFlags,
      List.takeWhile_append_dropWhile]

theorem WellFormed.convert (hd : d.WellFormed) (v : Conversion) :
    ({ d with conversion := v } : Directive).WellFormed :=
  ⟨hd.flags, hd.width, hd.leading, hd.precision, hd.modifiers⟩

theorem takeDirective_eq_ok_iff : takeDirective cs = .ok (d, rest) ↔
    d.WellFormed ∧ cs = d.body ++ d.conversion.letter :: rest := by
  constructor
  · intro h
    obtain ⟨d', after, hd, hends, rfl⟩ := exists_body cs
    rw [takeDirective_append hd hends] at h
    cases after with
    | nil => simp [conclude] at h
    | cons c after =>
      rw [conclude] at h
      split at h
      next => cases h
      next v hv =>
        cases h
        exact ⟨hd.convert v, by rw [Conversion.letter_of_ofLetter? hv]; rfl⟩
  · rintro ⟨hd, rfl⟩
    rw [takeDirective_append hd (ends_letter d d.conversion rest), conclude,
      Conversion.ofLetter?_letter]

theorem takeDirective_eq_incomplete_iff :
    takeDirective cs = .error .incomplete ↔ ∃ d : Directive, d.WellFormed ∧ cs = d.body := by
  constructor
  · intro h
    obtain ⟨d, after, hd, hends, rfl⟩ := exists_body cs
    rw [takeDirective_append hd hends] at h
    cases after with
    | nil => exact ⟨d, hd, List.append_nil _⟩
    | cons c after =>
      rw [conclude] at h
      split at h <;> cases h
  · rintro ⟨d, hd, rfl⟩
    rw [← List.append_nil d.body, takeDirective_append hd (ends_nil d), conclude]

theorem exists_body_of_prefix {begun : List Char} (hd : d.WellFormed) (h : begun <+: d.body) :
    ∃ d' : Directive, d'.WellFormed ∧ begun = d'.body := by
  obtain ⟨d', after, hd', hends, rfl⟩ := exists_body begun
  obtain ⟨tail, htail⟩ := h
  cases after with
  | nil => exact ⟨d', hd', List.append_nil _⟩
  | cons c after =>
    have hincomplete := takeDirective_eq_incomplete_iff.mpr ⟨d, hd, rfl⟩
    rw [← htail, List.append_assoc, List.cons_append,
      takeDirective_append hd' (hends.of_cons (after ++ tail)), conclude] at hincomplete
    split at hincomplete <;> cases hincomplete

theorem takeDirective_eq_unsupported_iff {c : Char} :
    takeDirective cs = .error (.unsupported c) ↔ ∃ d : Directive, ∃ rest, d.WellFormed ∧
      d.Ends (c :: rest) ∧ Conversion.ofLetter? c = none ∧ cs = d.body ++ c :: rest := by
  constructor
  · intro h
    obtain ⟨d, after, hd, hends, rfl⟩ := exists_body cs
    rw [takeDirective_append hd hends] at h
    cases after with
    | nil => simp [conclude] at h
    | cons x after =>
      rw [conclude] at h
      split at h
      next hx =>
        cases h
        exact ⟨d, after, hd, hends, hx, rfl⟩
      next => cases h
  · rintro ⟨d, rest, hd, hends, hc, rfl⟩
    rw [takeDirective_append hd hends, conclude, hc]

end Directive
end Telemetry.PrintFormat
