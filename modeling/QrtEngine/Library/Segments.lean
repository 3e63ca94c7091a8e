import Mathlib.Data.List.Range

/-!
# Rows of Segments

Segments of a row of places, each beginning where the one before ends. They are inside the row, and
no place is in two of them.

## Main definitions

* `Covers`: Segments one behind the other, from a place to a place.

## Theorems

* `covers_append`, `covers_blocks`, `Covers.map`: Rows of segments.
* `Covers.inside`, `Covers.disjoint`: Segments are inside the row and share no place.
-/

namespace QrtEngine

namespace Segments

variable {α : Type} {first size : α → Nat}

/-- Segments one behind the other, from a place to a place. -/
def Covers (first size : α → Nat) : Nat → List α → Nat → Prop
  | start, [], stop => start = stop
  | start, a :: l, stop => first a = start ∧ Covers first size (start + size a) l stop

theorem Covers.le {start stop : Nat} {l : List α} (h : Covers first size start l stop) :
    start ≤ stop := by
  induction l generalizing start with
  | nil => exact Nat.le_of_eq h
  | cons a l ih => exact Nat.le_trans (Nat.le_add_right _ _) (ih h.2)

theorem covers_append {start middle stop : Nat} {l l' : List α}
    (h : Covers first size start l middle) (h' : Covers first size middle l' stop) :
    Covers first size start (l ++ l') stop := by
  induction l generalizing start with
  | nil =>
      obtain rfl : start = middle := h
      exact h'
  | cons a l ih => exact ⟨h.1, ih h.2⟩

/-- Blocks of one size. -/
theorem covers_blocks {f : Nat → α} {block : Nat} (n : Nat)
    (hfirst : ∀ i, i < n → first (f i) = i * block) (hsize : ∀ i, i < n → size (f i) = block) :
    Covers first size 0 ((List.range n).map f) (n * block) := by
  induction n with
  | zero => exact (Nat.zero_mul block).symm
  | succ n ih =>
      rw [List.range_succ, List.map_append]
      refine covers_append
        (ih (fun i hi => hfirst i (by omega)) (fun i hi => hsize i (by omega))) ?_
      refine ⟨hfirst n (Nat.lt_succ_self n), ?_⟩
      rw [hsize n (Nat.lt_succ_self n)]
      exact (Nat.succ_mul n block).symm

/-- Segments that begin and are as long as others, from a later place on. -/
theorem Covers.map {β : Type} {first' size' : β → Nat} {l : List α} {l' : List β}
    {start stop : Nat} (base : Nat) (h : Covers first size start l stop)
    (hsame : l'.map (fun b => (first' b, size' b)) = l.map fun a => (base + first a, size a)) :
    Covers first' size' (base + start) l' (base + stop) := by
  induction l generalizing start l' with
  | nil =>
      obtain rfl : l' = [] := by simpa using hsame
      obtain rfl : start = stop := h
      rfl
  | cons a l ih =>
      cases l' with
      | nil => cases hsame
      | cons b l' =>
          rw [List.map_cons, List.map_cons, List.cons.injEq, Prod.mk.injEq] at hsame
          obtain ⟨⟨hfirst, hsize⟩, hrest⟩ := hsame
          refine ⟨by rw [hfirst, h.1], ?_⟩
          rw [hsize, Nat.add_assoc]
          exact ih h.2 hrest

/-- A segment is inside the row. -/
theorem Covers.inside {start stop : Nat} {l : List α} (h : Covers first size start l stop) {a : α}
    (ha : a ∈ l) : start ≤ first a ∧ first a + size a ≤ stop := by
  induction l generalizing start with
  | nil => cases ha
  | cons b l ih =>
      obtain ⟨hfirst, hrest⟩ := h
      rcases List.mem_cons.mp ha with rfl | ha
      · exact ⟨Nat.le_of_eq hfirst.symm, by rw [hfirst]; exact hrest.le⟩
      · have hin := ih hrest ha
        omega

/-- No place is in two segments. -/
theorem Covers.disjoint {start stop : Nat} {l : List α} (h : Covers first size start l stop) :
    l.Pairwise fun a b => first a + size a ≤ first b := by
  induction l generalizing start with
  | nil => exact List.Pairwise.nil
  | cons a l ih =>
      obtain ⟨hfirst, hrest⟩ := h
      refine List.Pairwise.cons (fun b hb => ?_) (ih hrest)
      rw [hfirst]
      exact (hrest.inside hb).1

end Segments

end QrtEngine
