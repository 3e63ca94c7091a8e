import Mathlib.Algebra.Order.Sub.Basic
import Mathlib.Data.Finset.Union
import Mathlib.Order.Interval.Finset.Defs

/-!
# Windows that Reach Back

A causal filter of a fixed width computes each place from that place and a few places before it.
The window of a set of places is what such a filter reads for them: each place, and everything up
to some distance before it, cut off at the first place there is. Filters one behind the other read
the window of a window, and that is one window of the distances together: cutting off at the
beginning twice is the same as cutting off once.

## Main definitions

* `window`: What is at most a distance before some place of a set.

## Theorems

* `mem_window`: What the window holds.
* `subset_window`: A window holds its places.
* `window_window`: The window of a window.
* `window_iterate`: A window taken again and again.
-/

namespace QrtEngine

variable {α : Type*} [LinearOrder α] [Sub α] [LocallyFiniteOrder α]

/-- What is at most a distance before some place of a set. -/
def window (reach : α) (places : Finset α) : Finset α :=
  places.biUnion fun place => Finset.Icc (place - reach) place

variable {reach reach' : α} {places : Finset α} {x : α}

theorem mem_window :
    x ∈ window reach places ↔ ∃ place ∈ places, place - reach ≤ x ∧ x ≤ place := by
  simp only [window, Finset.mem_biUnion, Finset.mem_Icc]

variable [AddCommMonoid α] [CanonicallyOrderedAdd α] [OrderedSub α]

theorem subset_window (reach : α) (places : Finset α) : places ⊆ window reach places := by
  intro place hplace
  exact mem_window.mpr ⟨place, hplace, tsub_le_self, le_refl place⟩

/-- Without a distance there are only the places themselves. -/
theorem window_zero (places : Finset α) : window 0 places = places := by
  ext x
  rw [mem_window]
  constructor
  · rintro ⟨place, hplace, hfrom, hto⟩
    rw [tsub_zero] at hfrom
    rw [le_antisymm hto hfrom]
    exact hplace
  · intro hx
    exact ⟨x, hx, tsub_le_self, le_refl x⟩

/-- The window of a window reaches back by both distances. -/
theorem window_window (reach reach' : α) (places : Finset α) :
    window reach' (window reach places) = window (reach + reach') places := by
  ext x
  simp only [mem_window]
  constructor
  · rintro ⟨middle, ⟨place, hplace, hfrom, hto⟩, hfrom', hto'⟩
    refine ⟨place, hplace, ?_, hto'.trans hto⟩
    calc place - (reach + reach')
        = place - reach - reach' := (tsub_tsub place reach reach').symm
      _ ≤ middle - reach' := tsub_le_tsub_right hfrom reach'
      _ ≤ x := hfrom'
  · rintro ⟨place, hplace, hfrom, hto⟩
    -- The place between is as far back as one window reaches, unless that is before `x`.
    refine ⟨max x (place - reach), ⟨place, hplace, le_max_right _ _, max_le hto tsub_le_self⟩,
      ?_, le_max_left _ _⟩
    rcases le_total x (place - reach) with hx | hx
    · rw [max_eq_right hx, tsub_tsub]
      exact hfrom
    · rw [max_eq_left hx]
      exact tsub_le_self

/-- A window taken again and again reaches back by its distance each time. -/
theorem window_iterate (reach : α) (places : Finset α) (count : ℕ) :
    (window reach)^[count] places = window (count • reach) places := by
  induction count with
  | zero => rw [zero_nsmul, window_zero, Function.iterate_zero_apply]
  | succ count ih => rw [Function.iterate_succ_apply', ih, window_window, succ_nsmul]

end QrtEngine
