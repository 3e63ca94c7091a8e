import Mathlib.Data.List.Basic
import Mathlib.Data.List.ProdSigma
import Mathlib.Logic.Function.Basic

/-!
# Launches of a Grid

The waves of a grid each store to memory, in some order. If stores to one place have one value, a
place has that value whatever the order.

## Main definitions

* `grid`: The waves of the blocks of a launch.
* `Order`: An order of the waves.
* `launch`, `run`: What the waves leave in memory.

## Theorems

* `launch_apply`, `run_apply`: What a wave has stored is there.
-/

namespace QrtEngine

namespace Launch

variable {ι α β : Type}

/-- The waves of a launch. -/
def grid (blocks waves : Nat) : List (Nat × Nat) := List.range blocks ×ˢ List.range waves

theorem mem_grid {blocks waves : Nat} {i : Nat × Nat} :
    i ∈ grid blocks waves ↔ i.1 < blocks ∧ i.2 < waves := by
  rw [grid, List.mem_product, List.mem_range, List.mem_range]

/-- An order of the waves of a launch. -/
abbrev Order (blocks waves : Nat) : Type :=
  { order : List (Nat × Nat) // order.Perm (grid blocks waves) }

section Stores

variable [DecidableEq α]

/-- Stores one after the other. -/
def store (stores : List (α × β)) (memory : α → β) : α → β :=
  stores.foldl (fun memory s => Function.update memory s.1 s.2) memory

/-- What the waves leave in memory, in the order in which they store. -/
def launch (order : List ι) (stores : ι → List (α × β)) (memory : α → β) : α → β :=
  store (order.flatMap stores) memory

/-- The last store to a place is the one that stays. -/
theorem store_cases (stores : List (α × β)) (memory : α → β) (place : α) :
    (∃ s ∈ stores, s.1 = place ∧ store stores memory place = s.2) ∨
      (∀ s ∈ stores, s.1 ≠ place) ∧ store stores memory place = memory place := by
  induction stores generalizing memory with
  | nil => exact Or.inr ⟨fun s hs => absurd hs List.not_mem_nil, rfl⟩
  | cons first stores ih =>
      rcases ih (Function.update memory first.1 first.2) with
        ⟨s, hs, hplace, hvalue⟩ | ⟨hnone, hkeep⟩
      · exact Or.inl ⟨s, List.mem_cons_of_mem first hs, hplace, hvalue⟩
      · by_cases hfirst : first.1 = place
        · refine Or.inl ⟨first, List.mem_cons_self, hfirst, ?_⟩
          rw [store, List.foldl_cons]
          refine hkeep.trans ?_
          rw [← hfirst, Function.update_self]
        · refine Or.inr ⟨?_, ?_⟩
          · intro s hs
            rcases List.mem_cons.mp hs with rfl | hs
            · exact hfirst
            · exact hnone s hs
          · rw [store, List.foldl_cons]
            refine hkeep.trans ?_
            rw [Function.update_of_ne (Ne.symm hfirst)]

/-- What a wave has stored is there, if no other stores another value at its place. -/
theorem launch_apply {order : List ι} {stores : ι → List (α × β)} (memory : α → β) {i : ι}
    (hi : i ∈ order) {s : α × β} (hs : s ∈ stores i)
    (hsame : ∀ j ∈ order, ∀ s' ∈ stores j, s'.1 = s.1 → s'.2 = s.2) :
    launch order stores memory s.1 = s.2 := by
  have hmem : s ∈ order.flatMap stores := List.mem_flatMap.mpr ⟨i, hi, hs⟩
  rcases store_cases (order.flatMap stores) memory s.1 with ⟨s', hs', hplace, hvalue⟩ | ⟨hnone, _⟩
  · obtain ⟨j, hj, hs'⟩ := List.mem_flatMap.mp hs'
    exact hvalue.trans (hsame j hj s' hs' hplace)
  · exact absurd rfl (hnone s hmem)

/-- A launch of a grid, in an order of its waves. -/
def run {blocks waves : Nat} (order : Order blocks waves) (stores : Nat × Nat → List (α × β))
    (memory : α → β) : α → β :=
  launch order.1 stores memory

theorem run_apply {blocks waves : Nat} (order : Order blocks waves)
    {stores : Nat × Nat → List (α × β)} (memory : α → β) {block wave : Nat}
    (hblock : block < blocks) (hwave : wave < waves) {s : α × β} (hs : s ∈ stores (block, wave))
    (hsame : ∀ block' wave', block' < blocks → wave' < waves → ∀ s' ∈ stores (block', wave'),
      s'.1 = s.1 → s'.2 = s.2) :
    run order stores memory s.1 = s.2 := by
  refine launch_apply memory (order.2.mem_iff.mpr (mem_grid.mpr ⟨hblock, hwave⟩)) hs ?_
  intro j hj s' hs' hplace
  obtain ⟨hblock', hwave'⟩ := mem_grid.mp (order.2.mem_iff.mp hj)
  exact hsame j.1 j.2 hblock' hwave' s' hs' hplace

end Stores

end Launch

end QrtEngine
