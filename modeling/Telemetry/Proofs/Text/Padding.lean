import Telemetry.Text.Characters
import Telemetry.Time.Unit

namespace Telemetry

namespace Text

structure Trimmed (p : Char → Bool) (cs : List Char) : Prop where
  head : ∀ c ∈ cs.head?, p c = false
  last : ∀ c ∈ cs.getLast?, p c = false

variable {p : Char → Bool} {left cs right : List Char}

theorem trimmed_of_forall (h : ∀ c ∈ cs, p c = false) : Trimmed p cs where
  head c hc := h c (List.mem_of_head? hc)
  last c hc := h c (List.mem_of_getLast? hc)

theorem dropWhile_eq_self (h : ∀ c ∈ cs.head?, p c = false) : cs.dropWhile p = cs := by
  cases cs with
  | nil => rfl
  | cons c cs => exact List.dropWhile_cons_of_neg (Bool.eq_false_iff.mp (h c rfl))

theorem trimEnd_append (hl : ∀ c ∈ cs.getLast?, p c = false) (hr : ∀ c ∈ right, p c = true) :
    trimEnd p (cs ++ right) = cs := by
  have hlast : ∀ c ∈ cs.reverse.head?, p c = false := by
    rwa [List.head?_reverse]
  have hright : ∀ c ∈ right.reverse, p c = true := fun c hc => hr c (List.mem_reverse.mp hc)
  rw [trimEnd, List.reverse_append, List.dropWhile_append_of_pos hright, dropWhile_eq_self hlast,
    List.reverse_reverse]

theorem trim_padded (hl : ∀ c ∈ left, p c = true) (h : Trimmed p cs)
    (hr : ∀ c ∈ right, p c = true) : trim p (left ++ cs ++ right) = cs := by
  rw [trim, List.append_assoc, List.dropWhile_append_of_pos hl]
  cases cs with
  | nil =>
    rw [List.nil_append, ← List.append_nil right, List.dropWhile_append_of_pos hr]
    rfl
  | cons c cs =>
    have hd : (c :: cs ++ right).dropWhile p = _ := dropWhile_eq_self h.head
    rw [hd, trimEnd_append h.last hr]

theorem exists_eq_append_trim (p : Char → Bool) (cs : List Char) :
    ∃ left right, cs = left ++ trim p cs ++ right ∧ (∀ c ∈ left, p c = true) ∧
      ∀ c ∈ right, p c = true := by
  refine ⟨cs.takeWhile p, ((cs.dropWhile p).reverse.takeWhile p).reverse, ?_,
    List.all_eq_true.mp List.all_takeWhile, ?_⟩
  · rw [trim, trimEnd, List.append_assoc, ← List.reverse_append, List.takeWhile_append_dropWhile,
      List.reverse_reverse, List.takeWhile_append_dropWhile]
  · intro c hc
    exact List.all_eq_true.mp List.all_takeWhile c (List.mem_reverse.mp hc)

theorem toUpper_of_blank {c : Char} (h : blank c = true) : c.toUpper = c := by
  apply dif_neg
  rintro ⟨hlow, hhigh⟩
  change 97 ≤ c.toNat at hlow
  change c.toNat ≤ 122 at hhigh
  simp only [blank, Bool.or_eq_true, Bool.and_eq_true, decide_eq_true_eq, beq_iff_eq] at h
  omega

end Text

namespace TimeUnit

open Text (blank Trimmed)

def Spelled (unit : String) (letters : String) : Prop :=
  ∃ left name right, unit.toList = left ++ name ++ right ∧ (∀ c ∈ left, blank c = true) ∧
    (∀ c ∈ right, blank c = true) ∧ name.map Char.toUpper = letters.toList

def Counts (unit : Option String) : Prop :=
  ∃ u, unit = some u ∧ (Spelled u "MS" ∨ Spelled u "US")

theorem spelled_iff {unit letters : String} (h : ∀ c ∈ letters.toList, blank c = false) :
    Spelled unit letters ↔ (Text.trim blank unit.toList).map Char.toUpper = letters.toList := by
  constructor
  · rintro ⟨left, name, right, hu, hl, hr, hn⟩
    have hname : ∀ c ∈ name, blank c = false := by
      intro c hc
      apply Bool.eq_false_iff.mpr
      intro hb
      have hc' : c.toUpper ∈ letters.toList := hn ▸ List.mem_map_of_mem hc
      rw [Text.toUpper_of_blank hb] at hc'
      exact Bool.eq_false_iff.mp (h c hc') hb
    rw [hu, Text.trim_padded hl (Text.trimmed_of_forall hname) hr, hn]
  · intro hn
    obtain ⟨left, right, hu, hl, hr⟩ := Text.exists_eq_append_trim blank unit.toList
    exact ⟨left, _, right, hu, hl, hr, hn⟩

theorem parse?_eq_some_iff {unit : String} {t : TimeUnit} :
    parse? unit = some t ↔ Spelled unit t.text := by
  rw [spelled_iff (by cases t <;> simp [text, blank]), parse?]
  generalize (Text.trim blank unit.toList).map Char.toUpper = name
  constructor
  · intro h
    have ht := List.find?_some h
    exact (beq_iff_eq.mp ht).symm
  · rintro rfl
    cases t <;> decide

theorem ofDeclared_eq_clock_iff (unit : Option String) :
    ofDeclared unit = .clock ↔ ¬ Counts unit := by
  cases unit with
  | none => simp [ofDeclared, Counts]
  | some u =>
    have hm : parse? u = some .milliseconds ↔ Spelled u "MS" := parse?_eq_some_iff
    have hs : parse? u = some .microseconds ↔ Spelled u "US" := parse?_eq_some_iff
    simp only [ofDeclared, Option.bind_some, Counts, Option.some.injEq, exists_eq_left', ← hm, ← hs]
    cases parse? u with
    | none => simp
    | some t => cases t <;> simp

end TimeUnit
end Telemetry
