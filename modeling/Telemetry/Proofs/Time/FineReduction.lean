import Mathlib.Algebra.Order.Ring.Int
import Mathlib.Logic.Function.Iterate
import Mathlib.Order.Bounds.Basic
import Mathlib.Tactic.Ring
import Telemetry.Proofs.Time.Ticks

namespace Telemetry
namespace Clock

def tenth (n : Nat) : Nat := (n + 5) / 10

theorem tenth_le (n : Nat) : tenth n ≤ n := by
  unfold tenth
  omega

theorem iterate_tenth_le (k n : Nat) : tenth^[k] n ≤ n := by
  induction k with
  | zero => exact Nat.le_refl n
  | succ k ih =>
    rw [Function.iterate_succ_apply']
    exact Nat.le_trans (tenth_le _) ih

theorem reduce_of_le {max n : Nat} (h : n ≤ max) : reduce max n = n := by
  rw [reduce, if_neg (Nat.not_lt.mpr h)]

theorem exists_reduce_eq (max n : Nat) :
    ∃ k, IsLeast {j | tenth^[j] n ≤ max} k ∧ reduce max n = tenth^[k] n := by
  fun_induction reduce max n with
  | case1 n h ih =>
    obtain ⟨k, ⟨hfits, hfirst⟩, hk⟩ := ih
    refine ⟨k + 1, ⟨hfits, ?_⟩, hk⟩
    intro j hj
    cases j with
    | zero => exact absurd hj (Nat.not_le.mpr h)
    | succ j => exact Nat.succ_le_succ (hfirst hj)
  | case2 n h => exact ⟨0, ⟨Nat.not_lt.mp h, fun j _ => Nat.zero_le j⟩, rfl⟩

theorem tenth_error (n : Nat) : -4 ≤ 10 * (tenth n : Int) - n ∧ 10 * (tenth n : Int) - n ≤ 5 := by
  unfold tenth
  omega

theorem iterate_tenth_error (k n : Nat) :
    -(4 * (10 ^ k - 1)) ≤ 9 * (10 ^ k * (tenth^[k] n : Int) - n) ∧
      9 * (10 ^ k * (tenth^[k] n : Int) - n) ≤ 5 * (10 ^ k - 1) := by
  induction k with
  | zero => simp
  | succ k ih =>
    rw [Function.iterate_succ_apply']
    generalize tenth^[k] n = m at ih ⊢
    -- the last tenth errs in units of `10 ^ k`, and the error before it stays as it was
    have hsplit : 9 * (10 ^ (k + 1) * (tenth m : Int) - n) =
        9 * (10 ^ k * (10 * (tenth m : Int) - m)) + 9 * (10 ^ k * (m : Int) - n) := by ring
    have hpow : (0 : Int) ≤ 10 ^ k := pow_nonneg (by decide) k
    have hlow := mul_le_mul_of_nonneg_left (tenth_error m).1 hpow
    have hhigh := mul_le_mul_of_nonneg_left (tenth_error m).2 hpow
    rw [hsplit, pow_succ]
    constructor
    · omega
    · omega

theorem roundFine_roundFine (c : Clock) (f : ClockFormat) :
    (c.roundFine f).roundFine f = c.roundFine f := by
  have hfits : reduce f.maxFine (c.roundFine f).fine = (c.roundFine f).fine :=
    reduce_of_le (fine_roundFine_le c f)
  rw [roundFine, hfits]

/-- The error is stated ninefold, `(10 ^ k - 1) / 9` being the number of `k` ones. No tenth is above
the fine ticks, so that no later sum is too large for a word that holds the first. -/
theorem roundFine_first_fit (c : Clock) (f : ClockFormat) :
    ∃ k, IsLeast {j | tenth^[j] c.fine ≤ 2 ^ (f.fineBits % 64) - 1} k ∧
      c.roundFine f = ⟨c.coarse, tenth^[k] c.fine⟩ ∧ (∀ j, tenth^[j] c.fine ≤ c.fine) ∧
      -(4 * (10 ^ k - 1)) ≤ 9 * (10 ^ k * ((c.roundFine f).fine : Int) - c.fine) ∧
      9 * (10 ^ k * ((c.roundFine f).fine : Int) - c.fine) ≤ 5 * (10 ^ k - 1) ∧
      (k = 0 ↔ c.fine ≤ 2 ^ (f.fineBits % 64) - 1) ∧
      (c.roundFine f).roundFine f = c.roundFine f := by
  obtain ⟨k, hleast, hk⟩ := exists_reduce_eq f.maxFine c.fine
  have hround : c.roundFine f = ⟨c.coarse, tenth^[k] c.fine⟩ := congrArg (Clock.mk c.coarse) hk
  have herror := iterate_tenth_error k c.fine
  refine ⟨k, hleast, hround, fun j => iterate_tenth_le j c.fine, hround ▸ herror.1,
    hround ▸ herror.2, ?_, roundFine_roundFine c f⟩
  constructor
  · rintro rfl
    exact hleast.1
  · intro hfine
    exact Nat.le_zero.mp (hleast.2 hfine)

end Clock
end Telemetry
