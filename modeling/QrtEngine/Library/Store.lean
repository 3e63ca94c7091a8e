import Mathlib.Data.List.Basic

/-!
# Arrays that Grow

A heap array with a count of the entries in use. Storing a list overwrites the first cells and
sets the count. The array grows when it is too short, and growing can fail, which leaves
everything as it was. Clearing sets the count to zero and keeps the cells, so the cells past the
count are stale and nothing reads them.

## Main definitions

* `Store`: Cells and how many of them are in use.
* `Store.contents`: The entries in use.
* `Store.put`: Overwriting the entries with a list.
* `Store.clear`: Forgetting the entries and keeping the cells.

## Theorems

* `Store.contents_put`: A list that was stored is read back.
-/

namespace QrtEngine

/-- Cells and how many of them are in use. -/
structure Store (α : Type) where
  cells : List α
  count : Nat
  fits : count ≤ cells.length
deriving DecidableEq, Repr

namespace Store

variable {α : Type}

/-- No cells. -/
def empty : Store α := { cells := [], count := 0, fits := Nat.le_refl 0 }

/-- The entries in use. -/
def contents (store : Store α) : List α := store.cells.take store.count

/-- Forget the entries and keep the cells. -/
def clear (store : Store α) : Store α := { store with count := 0, fits := Nat.zero_le _ }

/-- Overwrite the entries with a list, growing the array if it is too short. The flag says
    whether growing succeeds. -/
def put (store : Store α) (grows : Bool) (source : List α) : Option (Store α) :=
  if store.cells.length < source.length then
    if grows then
      some { cells := source, count := source.length, fits := Nat.le_refl _ }
    else none
  else
    some { cells := source ++ store.cells.drop source.length
           count := source.length
           fits := by rw [List.length_append]; exact Nat.le_add_right _ _ }

variable (store stored : Store α) (grows : Bool) (source : List α)

@[simp] theorem clear_count : store.clear.count = 0 := rfl

theorem length_contents : store.contents.length = store.count := by
  unfold contents
  rw [List.length_take]
  exact Nat.min_eq_left store.fits

/-- An array that may grow takes every list. -/
theorem put_isSome (hgrows : grows = true) : (store.put grows source).isSome = true := by
  unfold put
  by_cases hshort : store.cells.length < source.length
  · rw [if_pos hshort, if_pos hgrows, Option.isSome_some]
  · rw [if_neg hshort, Option.isSome_some]

/-- A list that was stored is read back. -/
theorem contents_put (h : store.put grows source = some stored) :
    stored.contents = source ∧ stored.count = source.length := by
  unfold put at h
  by_cases hshort : store.cells.length < source.length
  -- Too short: the array grows to the list, or nothing is stored.
  · rw [if_pos hshort] at h
    cases grows with
    | false => exact absurd h (by simp only [Bool.false_eq_true, if_false, reduceCtorEq,
        not_false_eq_true])
    | true =>
        rw [if_pos rfl, Option.some.injEq] at h
        rw [← h]
        exact ⟨List.take_length, rfl⟩
  -- Long enough: the cells past the list stay and are not read.
  · rw [if_neg hshort, Option.some.injEq] at h
    rw [← h]
    exact ⟨List.take_left, rfl⟩

/-- Storing a non-empty list leaves cells behind. -/
theorem cells_ne_nil_of_put (h : store.put grows source = some stored) (hne : source ≠ []) :
    stored.cells ≠ [] := by
  intro hnil
  have hcount := (contents_put store stored grows source h).2
  have hfits := stored.fits
  rw [hnil, List.length_nil, hcount] at hfits
  exact hne (List.length_eq_zero_iff.mp (Nat.le_zero.mp hfits))

end Store

end QrtEngine
