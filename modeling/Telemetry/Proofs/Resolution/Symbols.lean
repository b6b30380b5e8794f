import Mathlib.Data.List.Induction
import Telemetry.Proofs.Resolution.Precedence

namespace Telemetry

namespace Enumeration

def LastGiven (pairs : List (Int × String)) (key : Int) (symbol : String) : Prop :=
  ∃ before after, pairs = before ++ (key, symbol) :: after ∧ ∀ p ∈ after, p.1 ≠ key

variable {name : String} {pairs : List (Int × String)} {key k : Int} {symbol s : String}

theorem not_lastGiven_nil : ¬ LastGiven [] key symbol := by
  rintro ⟨before, after, h, -⟩
  simp at h

theorem lastGiven_concat_iff :
    LastGiven (pairs ++ [(k, s)]) key symbol ↔
      if key = k then s = symbol else LastGiven pairs key symbol := by
  constructor
  · rintro ⟨before, after, h, hafter⟩
    rcases List.eq_nil_or_concat after with rfl | ⟨after, p, rfl⟩
    · obtain ⟨-, rfl, rfl⟩ : pairs = before ∧ k = key ∧ s = symbol := by simpa using h
      simp
    · rw [List.concat_eq_append, ← List.cons_append, ← List.append_assoc] at h
      obtain ⟨rfl, hp⟩ := List.append_inj' h rfl
      obtain rfl : (k, s) = p := by simpa using hp
      have hne : key ≠ k := (hafter (k, s) (by simp)).symm
      rw [if_neg hne]
      exact ⟨before, after, rfl, fun p hp => hafter p (by simp [hp])⟩
  · intro h
    split at h
    next hk =>
      subst hk h
      exact ⟨pairs, [], rfl, by simp⟩
    next hk =>
      obtain ⟨before, after, rfl, hafter⟩ := h
      refine ⟨before, after ++ [(k, s)], by simp, ?_⟩
      simpa [or_imp, forall_and, Ne.symm hk] using hafter

theorem lookup_ofPairs_eq_some_iff :
    (ofPairs name pairs).lookup key = some symbol ↔ LastGiven pairs key symbol := by
  induction pairs using List.reverseRecOn with
  | nil => simp [ofPairs, lookup, not_lastGiven_nil]
  | append_singleton pairs p ih =>
    obtain ⟨k, s⟩ := p
    rw [lastGiven_concat_iff, ← ih]
    simp only [lookup, ofPairs, List.foldl_append, List.foldl_cons, List.foldl_nil, lookup_insert]
    split <;> simp

theorem lookup_ofPairs_eq_none_iff :
    (ofPairs name pairs).lookup key = none ↔ ∀ symbol, ¬ LastGiven pairs key symbol := by
  simp only [Option.eq_none_iff_forall_ne_some, ne_eq, lookup_ofPairs_eq_some_iff]

/-- `v` is the symbol that `pairs` give for `key` last, or `text` where they give it none. -/
inductive Labels (pairs : List (Int × String)) (key : Int) (text : String) : Value → Prop where
  | symbol {s : String} : LastGiven pairs key s → Labels pairs key text (.text s)
  | unnamed : (∀ s, ¬ LastGiven pairs key s) → Labels pairs key text (.text text)

end Enumeration

inductive Value.Whole : Value → Int → Prop where
  | unsigned (n : UInt64) : Whole (.unsigned n) n.toNat
  | signed (n : Int64) : Whole (.signed n) n.toInt
  | bool (b : Bool) : Whole (.bool b) b.toNat

namespace Value

variable {dn : Value} {n : Int}

theorem Whole.isNumeric (h : dn.Whole n) : dn.isNumeric = true := by
  cases h <;> rfl

theorem Whole.exists_integer? (h : dn.Whole n) :
    ∃ i, dn.integer? = some i ∧
      i.toInt = if n < 9223372036854775808 then n else n - 18446744073709551616 := by
  cases h with
  | unsigned u =>
    refine ⟨u.toInt64, rfl, ?_⟩
    have hcond := BitVec.toInt_eq_toNat_cond u.toBitVec
    rw [← Int64.toInt_toBitVec, UInt64.toBitVec_toInt64, hcond, UInt64.toNat_toBitVec]
    split <;> split <;> omega
  | signed i =>
    have hlt : i.toInt < 9223372036854775808 := i.toInt_lt
    exact ⟨i, rfl, (if_pos hlt).symm⟩
  | bool b => cases b <;> exact ⟨_, rfl, by decide⟩

end Value

namespace Resolution

open Enumeration (LastGiven Labels)

variable {calculator : Option Calculator} {attrs : Attributes} {dn v : Value} {n : Int}
  {name : String} {pairs : List (Int × String)}

theorem unformatted_iff_labels {i : Int64} (h : LookedUp attrs dn (.ofPairs name pairs))
    (hi : dn.integer? = some i) :
    Unformatted calculator attrs dn v ↔ Labels pairs i.toInt dn.display v := by
  constructor
  · intro hv
    rw [← value_of_unformatted hv, resolve_of_lookedUp h]
    simp only [ofEnumeration, value, hi, Option.bind_some]
    cases hs : (Enumeration.ofPairs name pairs).lookup i.toInt with
    | none => exact .unnamed (Enumeration.lookup_ofPairs_eq_none_iff.mp hs)
    | some s => exact .symbol (Enumeration.lookup_ofPairs_eq_some_iff.mp hs)
  · have hview := Value.integer?_eq_some_iff.mp hi
    rintro (hlast | hnone)
    · exact .symbol h hview (Enumeration.lookup_ofPairs_eq_some_iff.mpr hlast)
    · refine .unnamed h fun j s hj hs => ?_
      obtain rfl : i = j :=
        Option.some_inj.mp (hi.symm.trans (Value.integer?_eq_some_iff.mpr hj))
      exact hnone s (Enumeration.lookup_ofPairs_eq_some_iff.mp hs)

theorem shown_eq_value_of_lookedUp {table : Enumeration} (h : LookedUp attrs dn table) :
    (resolve calculator attrs dn).shown attrs dn = (resolve calculator attrs dn).value dn := by
  apply shown_of_not_isFormatted
  rw [resolve_of_lookedUp h]
  exact .inr rfl

structure Resolved (calculator : Option Calculator) (attrs : Attributes) (dn v : Value) : Prop where
  shown : (resolve calculator attrs dn).shown attrs dn = v
  value : (resolve calculator attrs dn).value dn = v

/-- A whole number of the signed 64-bit range is shown under the symbol of that very number. One
above the range is shown under the symbol of the number that is less by two to the power of 64. -/
theorem resolved_iff_labels (h : attrs.lookup = some (.ofPairs name pairs)) (hn : dn.Whole n) :
    (n < 9223372036854775808 →
      ∀ v, Resolved calculator attrs dn v ↔ Labels pairs n dn.display v) ∧
    (9223372036854775808 ≤ n →
      ∀ v, Resolved calculator attrs dn v ↔
        Labels pairs (n - 18446744073709551616) dn.display v) := by
  have hlooked : LookedUp attrs dn (.ofPairs name pairs) := ⟨hn.isNumeric, h⟩
  obtain ⟨i, hi, hint⟩ := hn.exists_integer?
  have hlabels (v) : Resolved calculator attrs dn v ↔ Labels pairs i.toInt dn.display v := by
    rw [← unformatted_iff_labels hlooked hi, ← @value_eq_iff calculator]
    exact ⟨Resolved.value, fun hv => ⟨(shown_eq_value_of_lookedUp hlooked).trans hv, hv⟩⟩
  constructor
  · intro hlow v
    rw [hlabels, hint, if_pos hlow]
  · intro hhigh v
    rw [hlabels, hint, if_neg (Int.not_lt.mpr hhigh)]

section Modes

def modes : List (Int × String) := [(3, "SAFE"), (-1, "INVALID"), (3, "SCIENCE")]

def modeAttributes : Attributes := { lookup := some (.ofPairs "mode" modes) }

theorem resolved_iff_labels_mode :
    Resolved none modeAttributes (.unsigned 3) (.text "SCIENCE") ∧
      Resolved none modeAttributes (.signed (-1)) (.text "INVALID") ∧
      Resolved none modeAttributes (.unsigned 18446744073709551614)
        (.text "18446744073709551614") := by
  refine ⟨?_, ?_, ?_⟩
  · apply ((resolved_iff_labels rfl (.unsigned 3)).1 (by decide) _).mpr
    exact .symbol ⟨[(3, "SAFE"), (-1, "INVALID")], [], rfl, by simp⟩
  · apply ((resolved_iff_labels rfl (.signed (-1))).1 (by decide) _).mpr
    exact .symbol ⟨[(3, "SAFE")], [(3, "SCIENCE")], rfl, by simp⟩
  · apply ((resolved_iff_labels rfl (.unsigned 18446744073709551614)).2 (by decide) _).mpr
    exact .unnamed (@Enumeration.lookup_ofPairs_eq_none_iff "mode" _ _ |>.mp (by decide))

theorem not_labels_of_largest :
    Resolved none modeAttributes (.unsigned 18446744073709551615) (.text "INVALID") ∧
      (Value.unsigned 18446744073709551615).Whole 18446744073709551615 ∧
      ¬ Labels modes 18446744073709551615 "18446744073709551615" (.text "INVALID") := by
  have hnone : ∀ symbol, ¬ LastGiven modes 18446744073709551615 symbol :=
    (@Enumeration.lookup_ofPairs_eq_none_iff "mode" _ _).mp (by decide)
  refine ⟨⟨by decide, by decide⟩, .unsigned 18446744073709551615, ?_⟩
  generalize ht : Value.text "INVALID" = v
  rintro (hs | -)
  · exact hnone _ hs
  · exact absurd ht (by decide)

end Modes

end Resolution
end Telemetry
