import Mathlib.Data.List.Basic
import Telemetry.Number.Decimal

namespace Telemetry.Number

inductive Numeral (alphabet : List Char) : Nat → List Char → Prop where
  | digit {d : Nat} {c : Char} (h : alphabet[d]? = some c) : Numeral alphabet d [c]
  | next {n d : Nat} {cs : List Char} {c : Char} (hn : 0 < n) (hcs : Numeral alphabet n cs)
      (h : alphabet[d]? = some c) : Numeral alphabet (alphabet.length * n + d) (cs ++ [c])

namespace Numeral

variable {alphabet : List Char} {n m : Nat} {cs ds : List Char}

theorem ne_nil (h : Numeral alphabet n cs) : cs ≠ [] := by
  cases h <;> simp

theorem mem_alphabet (h : Numeral alphabet n cs) : ∀ c ∈ cs, c ∈ alphabet := by
  induction h with
  | digit h => simpa using List.mem_of_getElem? h
  | next hn hcs h ih =>
    intro c hc
    rcases List.mem_append.mp hc with hc | hc
    · exact ih c hc
    · rw [List.mem_singleton.mp hc]
      exact List.mem_of_getElem? h

theorem lt_length {d : Nat} {c : Char} (h : alphabet[d]? = some c) : d < alphabet.length :=
  (List.getElem?_eq_some_iff.mp h).1

theorem length_le_next (alphabet : List Char) (d : Nat) {n : Nat} (hn : 0 < n) :
    alphabet.length ≤ alphabet.length * n + d := by
  have := Nat.le_mul_of_pos_right alphabet.length hn
  omega

theorem unique (h : Numeral alphabet n cs) (h' : Numeral alphabet n ds) : cs = ds := by
  induction h generalizing ds with
  | @digit d c hc =>
    have hd := lt_length hc
    generalize hn : d = n at h'
    cases h' with
    | digit hc' => simp_all
    | @next k e _ _ hk _ _ =>
      have := length_le_next alphabet e hk
      omega
  | @next k d cs c hk _ hc ih =>
    have hd := lt_length hc
    generalize hn : alphabet.length * k + d = n at h'
    cases h' with
    | digit hc' =>
      have hlt := lt_length hc'
      have := length_le_next alphabet d hk
      omega
    | @next k' d' cs' c' _ hcs' hc' =>
      have hd' := lt_length hc'
      have hpos : 0 < alphabet.length := by omega
      obtain rfl : k = k' := by
        have := congrArg (· / alphabet.length) hn
        simpa [Nat.mul_add_div hpos, Nat.div_eq_of_lt hd, Nat.div_eq_of_lt hd'] using this
      obtain rfl : d = d' := by omega
      rw [ih hcs', Option.some.inj (hc.symm.trans hc')]

theorem eq_of_zero {c : Char} (hc : alphabet[0]? = some c) (h : Numeral alphabet 0 cs) :
    cs = [c] :=
  h.unique (.digit hc)

theorem head?_eq_iff {z : Char} (hz : ∀ d : Nat, alphabet[d]? = some z ↔ d = 0)
    (h : Numeral alphabet n cs) : cs.head? = some z ↔ n = 0 := by
  induction h with
  | @digit d c hc =>
    rw [← hz d, hc]
    rfl
  | @next k d cs c hk hcs hc ih =>
    have hlt := lt_length hc
    have hle := length_le_next alphabet d hk
    rw [List.head?_append_of_ne_nil _ hcs.ne_nil, ih]
    omega

theorem toDigits_map {f : Char → Char} {base : Nat} (hbase : 1 < base)
    (hlength : alphabet.length = base)
    (hf : ∀ d < base, alphabet[d]? = some (f (Nat.digitChar d))) (n : Nat) :
    Numeral alphabet n ((Nat.toDigits base n).map f) := by
  induction n using Nat.strongRecOn with
  | ind n ih =>
    rw [Nat.toDigits_eq_if hbase]
    split
    next hlt => exact .digit (hf n hlt)
    next hle =>
      rw [Nat.not_lt] at hle
      have hq : 0 < n / base := Nat.div_pos hle (by omega)
      have hrest := ih (n / base) (Nat.div_lt_self (by omega) hbase)
      have hlast := hf (n % base) (Nat.mod_lt n (by omega))
      have h := Numeral.next hq hrest hlast
      rwa [hlength, Nat.div_add_mod, ← List.map_singleton, ← List.map_append] at h

theorem toDigits {base : Nat} (hbase : 1 < base) (hlength : alphabet.length = base)
    (h : ∀ d < base, alphabet[d]? = some (Nat.digitChar d)) (n : Nat) :
    Numeral alphabet n (Nat.toDigits base n) := by
  have hmap := toDigits_map (f := id) hbase hlength h n
  rwa [List.map_id] at hmap

end Numeral
end Telemetry.Number
