import Mathlib.Tactic.Ring
import Telemetry.Time.Clock

namespace Telemetry
namespace Clock

theorem fine_add_le (a b : Clock) (f : ClockFormat) : (a.add b f).fine ≤ f.maxFine :=
  Nat.le_pred_of_lt (fine_add_lt a b f)

theorem fine_ofSeconds_le (x : Double) (f : ClockFormat) : (ofSeconds x f).fine ≤ f.maxFine := by
  apply fine_add_le

theorem fine_roundFine_le (c : Clock) (f : ClockFormat) : (c.roundFine f).fine ≤ f.maxFine :=
  reduce_le f.maxFine c.fine

theorem ticks_div {c : Clock} {f : ClockFormat} (h : c.fine ≤ f.maxFine) :
    c.ticks f / f.modulus = c.coarse := by
  have hlt : c.fine < f.modulus := Nat.lt_of_le_pred f.modulus_pos h
  rw [ticks, Nat.add_comm, Nat.add_mul_div_right _ _ f.modulus_pos, Nat.div_eq_of_lt hlt,
    Nat.zero_add]

theorem ticks_injective {a b : Clock} {f : ClockFormat} (ha : a.fine ≤ f.maxFine)
    (hb : b.fine ≤ f.maxFine) (h : a.ticks f = b.ticks f) : a = b := by
  have hcoarse : a.coarse = b.coarse := by rw [← ticks_div ha, ← ticks_div hb, h]
  have hfine : a.fine = b.fine := by
    rw [ticks, ticks, hcoarse] at h
    exact Nat.add_left_cancel h
  cases a
  cases b
  simp only [mk.injEq]
  exact ⟨hcoarse, hfine⟩

theorem eq_add_iff {a b c : Clock} {f : ClockFormat} :
    c = a.add b f ↔ c.ticks f = a.ticks f + b.ticks f ∧ c.fine ≤ f.maxFine := by
  constructor
  · rintro rfl
    exact ⟨ticks_add a b f, fine_add_le a b f⟩
  · rintro ⟨hticks, hfine⟩
    exact ticks_injective hfine (fine_add_le a b f) (hticks.trans (ticks_add a b f).symm)

theorem modulus_eq {f : ClockFormat} (hf : f.fineBits < 64) : f.modulus = 2 ^ f.fineBits :=
  congrArg (Nat.pow 2) (Nat.mod_eq_of_lt hf)

/-- The ticks that are added for so many milliseconds, the product of the rest below a second
wrapping around in 64 bits. -/
def millisTicks (millis : Nat) (f : ClockFormat) : Nat :=
  millis / 1000 * f.modulus + millis % 1000 * f.modulus % 2 ^ 64 / 1000

theorem ticks_addMillis (c : Clock) (millis : Nat) (f : ClockFormat) :
    (c.addMillis millis f).ticks f = c.ticks f + millisTicks millis f :=
  ticks_add c _ f

theorem eq_addMillis_iff {a c : Clock} {millis : Nat} {f : ClockFormat} :
    c = a.addMillis millis f ↔
      c.ticks f = a.ticks f + millisTicks millis f ∧ c.fine ≤ f.maxFine := by
  rw [← ticks_addMillis, addMillis, eq_add_iff, ticks_add]

theorem scaled_millis (millis m : Nat) :
    millis * m / 1000 = millis / 1000 * m + millis % 1000 * m / 1000 := by
  -- nothing is lost by scaling whole seconds apart, as each is a whole number of ticks
  have hsplit : millis * m = millis % 1000 * m + millis / 1000 * m * 1000 := by
    conv_lhs => rw [← Nat.mod_add_div millis 1000]
    ring
  rw [hsplit, Nat.add_mul_div_right _ _ (by decide), Nat.add_comm]

theorem millisTicks_eq_iff {millis : Nat} {f : ClockFormat} :
    millisTicks millis f = millis * f.modulus / 1000 ↔ millis % 1000 * f.modulus < 2 ^ 64 := by
  rw [scaled_millis, millisTicks, Nat.add_left_cancel_iff]
  constructor
  · -- wrapping around takes away a multiple of `2 ^ 64`, which dividing by 1000 does not hide
    intro h
    omega
  · intro h
    rw [Nat.mod_eq_of_lt h]

variable {a b c : Clock} {f : ClockFormat}

theorem add_comm : a.add b f = b.add a f := by
  rw [eq_add_iff, ticks_add, Nat.add_comm]
  exact ⟨rfl, fine_add_le a b f⟩

theorem add_assoc : (a.add b f).add c f = a.add (b.add c f) f := by
  rw [eq_add_iff, ticks_add, ticks_add, ticks_add, Nat.add_assoc]
  exact ⟨rfl, fine_add_le (a.add b f) c f⟩

end Clock
end Telemetry
