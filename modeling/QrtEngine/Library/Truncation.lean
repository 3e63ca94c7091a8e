import Mathlib.Algebra.BigOperators.Group.List.Basic
import Mathlib.Algebra.Order.Field.Power
import Mathlib.Algebra.Order.Ring.Rat
import Mathlib.Tactic.Linarith
import Mathlib.Tactic.Ring

/-!
# Truncation

A shift to the right drops the fraction of a quotient by a power of two, so it is below the
quotient by less than one. A sum of numbers that are each off by less than a unit is off by less
than as many units as it has terms.

## Theorems

* `shiftRight_le_div`, `div_lt_shiftRight_add_one`: A shift and the quotient.
* `abs_shiftRight_sub_lt`: What a shift loses of a number in units of a power of two.
* `abs_sum_sub_sum_lt`: The error of a sum.
-/

namespace QrtEngine

namespace Truncation

theorem shiftRight_le_div (n k : Nat) : ((n >>> k : Nat) : ℚ) ≤ (n : ℚ) / 2 ^ k := by
  rw [le_div_iff₀ (by positivity), Nat.shiftRight_eq_div_pow]
  exact_mod_cast Nat.div_mul_le_self n (2 ^ k)

theorem div_lt_shiftRight_add_one (n k : Nat) : (n : ℚ) / 2 ^ k < ((n >>> k : Nat) : ℚ) + 1 := by
  rw [div_lt_iff₀ (by positivity), Nat.shiftRight_eq_div_pow]
  have h : n < (n / 2 ^ k + 1) * 2 ^ k := by
    rw [Nat.mul_comm]
    exact Nat.lt_mul_div_succ n (Nat.two_pow_pos k)
  exact_mod_cast h

/-- What a shift to the right loses is less than a unit of its result. -/
theorem abs_shiftRight_sub_lt (n k : Nat) (e : ℤ) :
    |((n >>> k : Nat) : ℚ) * 2 ^ e - (n : ℚ) * 2 ^ (e - k)| < 2 ^ e := by
  have hunit : (0 : ℚ) < 2 ^ e := zpow_pos (by norm_num) e
  have hexact : (n : ℚ) * 2 ^ (e - k) = (n : ℚ) / 2 ^ k * 2 ^ e := by
    rw [zpow_sub₀ (by norm_num), zpow_natCast]
    ring
  have hlow := shiftRight_le_div n k
  have hhigh := div_lt_shiftRight_add_one n k
  rw [hexact, ← sub_mul, abs_mul, abs_of_pos hunit]
  refine mul_lt_of_lt_one_left hunit (abs_lt.mpr ⟨?_, ?_⟩)
  · linarith
  · linarith

/-- The error of a sum whose terms are each off by less than a unit. -/
theorem abs_sum_sub_sum_lt {α : Type} (l : List α) (f g : α → ℚ) (unit : ℚ) (hne : l ≠ [])
    (h : ∀ a ∈ l, |f a - g a| < unit) :
    |(l.map f).sum - (l.map g).sum| < l.length * unit := by
  induction l with
  | nil => exact absurd rfl hne
  | cons a l ih =>
      have ha := h a List.mem_cons_self
      rw [List.map_cons, List.map_cons, List.sum_cons, List.sum_cons, List.length_cons]
      push_cast
      have hsplit : f a + (l.map f).sum - (g a + (l.map g).sum) =
          (f a - g a) + ((l.map f).sum - (l.map g).sum) := by ring
      have habs := abs_add_le (f a - g a) ((l.map f).sum - (l.map g).sum)
      rw [hsplit]
      by_cases hl : l = []
      · subst hl
        simpa using ha
      · have hrest := ih hl fun b hb => h b (List.mem_cons_of_mem a hb)
        linarith

end Truncation

end QrtEngine
