import Mathlib.Data.Int.ConditionallyCompleteOrder
import Mathlib.Data.Set.Prod
import Mathlib.Data.Set.Function
import Mathlib.Order.Interval.Set.Defs
import Mathlib.Tactic.Linarith
import Mathlib.Tactic.Ring

/-!
# Tilings

A grid that is walked column by column in strips: the position in a strip gives the row by a
remainder and the column by a quotient. Adding a constant before the remainder is taken rotates
the rows of each column, which still meets every cell once. Strips are put together by a key that
tells to which strip a position and a cell belong.

## Theorems

* `bijOn_of_fibers`: A map that is a bijection over each key is one.
* `rotated_bijOn`: A strip whose rows are rotated.
-/

namespace QrtEngine

/-- A map that keeps a key, and is a bijection between the parts with each key, is a bijection. -/
theorem bijOn_of_fibers {α β ι : Type} {f : α → β} {s : Set α} {t : Set β} (key : α → ι)
    (key' : β → ι)
    (h : ∀ i, Set.BijOn f {a | a ∈ s ∧ key a = i} {b | b ∈ t ∧ key' b = i}) :
    Set.BijOn f s t := by
  have hkey : ∀ a ∈ s, f a ∈ t ∧ key' (f a) = key a := fun a ha => (h (key a)).mapsTo ⟨ha, rfl⟩
  refine ⟨fun a ha => (hkey a ha).1, ?_, ?_⟩
  · intro a ha b hb hab
    -- Equal images have equal keys, so both lie over one.
    have hsame : key b = key a := by
      rw [← (hkey a ha).2, ← (hkey b hb).2, hab]
    exact (h (key a)).injOn ⟨ha, rfl⟩ ⟨hb, hsame⟩ hab
  · intro b hb
    rcases (h (key' b)).surjOn ⟨hb, rfl⟩ with ⟨a, ha, rfl⟩
    exact ⟨a, ha.1, rfl⟩

/-- A strip of `rows * columns` positions, its rows rotated by a constant. -/
theorem rotated_bijOn (rows columns shift : Int) (hrows : 0 < rows) :
    Set.BijOn (fun q => ((shift + q) % rows, q / rows)) (Set.Ico 0 (rows * columns))
      (Set.Ico 0 rows ×ˢ Set.Ico 0 columns) := by
  refine ⟨?_, ?_, ?_⟩
  · rintro q ⟨hq, hq'⟩
    refine ⟨⟨Int.emod_nonneg _ hrows.ne', Int.emod_lt_of_pos _ hrows⟩,
      ⟨Int.ediv_nonneg hq hrows.le, ?_⟩⟩
    exact Int.ediv_lt_of_lt_mul hrows (by rwa [Int.mul_comm])
  · rintro q ⟨hq, hq'⟩ q' ⟨hp, hp'⟩ hsame
    simp only [Prod.mk.injEq] at hsame
    rcases hsame with ⟨hrow, hcolumn⟩
    -- The remainders agree without the shift, and the quotients agree.
    have hrow' : q % rows = q' % rows := Int.emod_add_cancel_left.mp hrow
    rw [← Int.emod_add_mul_ediv q rows, ← Int.emod_add_mul_ediv q' rows, hrow', hcolumn]
  · rintro ⟨row, column⟩ ⟨⟨hr, hr'⟩, ⟨hc, hc'⟩⟩
    dsimp only at hr hr' hc hc'
    have hlow := Int.emod_nonneg (row - shift) hrows.ne'
    have hhigh := Int.emod_lt_of_pos (row - shift) hrows
    refine ⟨rows * column + (row - shift) % rows, ⟨?_, ?_⟩, ?_⟩
    · have := mul_nonneg hrows.le hc
      omega
    · have : rows * (column + 1) ≤ rows * columns :=
        Int.mul_le_mul_of_nonneg_left (by omega) hrows.le
      rw [mul_add, mul_one] at this
      omega
    · have hquotient : (rows * column + (row - shift) % rows) / rows = column := by
        rw [Int.mul_add_ediv_left _ _ hrows.ne', Int.ediv_eq_zero_of_lt hlow hhigh, add_zero]
      have hremainder : (shift + (rows * column + (row - shift) % rows)) % rows = row := by
        rw [add_left_comm, Int.mul_add_emod_self_left, Int.add_emod_emod, add_sub_cancel,
          Int.emod_eq_of_lt hr hr']
      exact Prod.ext hremainder hquotient

end QrtEngine
