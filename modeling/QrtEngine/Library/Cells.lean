import Mathlib.Data.List.Basic

/-!
# Cells Filled from the Front

A block of memory is a list of cells of a fixed number, and what its cells hold before they are
written is not known. Stores and copies fail outside the block, so a computation that returns
`some` never leaves it. A block that is filled from the front is described by the list it begins
with, and a store right behind that list extends it.

## Main definitions

* `storeCell`: A store at an index.
* `copyCells`: A copy to the front of a block.
* `firstCells`: What the first cells hold.

## Theorems

* `storeCell_front`: A store behind the front extends it.
* `copyCells_front`: A copy is the front of its block.
* `firstCells_front`: The first cells hold the front.
-/

namespace QrtEngine

variable {α : Type}

/-- Write a cell, failing outside the block. -/
def storeCell (block : List α) (index : Nat) (value : α) : Option (List α) :=
  if index < block.length then some (block.set index value) else none

/-- Copy values to the front of a block, failing if they do not fit. -/
def copyCells (block values : List α) : Option (List α) :=
  if values.length ≤ block.length then some (values ++ block.drop values.length) else none

/-- Read the first cells of a block, failing if it has fewer. -/
def firstCells (block : List α) (count : Nat) : Option (List α) :=
  if count ≤ block.length then some (block.take count) else none

variable (block : List α)

/-- A store right behind what a block begins with extends it. -/
theorem storeCell_front (front : List α) (value : α) (h : front <+: block)
    (hroom : front.length < block.length) :
    ∃ block', storeCell block front.length value = some block' ∧
      front ++ [value] <+: block' ∧ block'.length = block.length := by
  rcases h with ⟨rest, rfl⟩
  cases rest with
  | nil =>
      rw [List.append_nil] at hroom
      exact absurd hroom (Nat.lt_irrefl _)
  | cons old rest =>
      have hset : (front ++ old :: rest).set front.length value = front ++ value :: rest := by
        rw [List.set_append_right front.length value (Nat.le_refl _), Nat.sub_self,
          List.set_cons_zero]
      refine ⟨front ++ value :: rest, ?_, ⟨rest, ?_⟩, ?_⟩
      · rw [storeCell, if_pos hroom, hset]
      · rw [List.append_assoc, List.singleton_append]
      · rw [← hset, List.length_set]

theorem copyCells_front (values : List α) (hfits : values.length ≤ block.length) :
    ∃ block', copyCells block values = some block' ∧ values <+: block' ∧
      block'.length = block.length := by
  refine ⟨values ++ block.drop values.length, if_pos hfits, List.prefix_append _ _, ?_⟩
  rw [List.length_append, List.length_drop]
  omega

theorem firstCells_front (front : List α) (h : front <+: block) :
    firstCells block front.length = some front := by
  rw [firstCells, if_pos h.length_le, ← List.prefix_iff_eq_take.mp h]

end QrtEngine
