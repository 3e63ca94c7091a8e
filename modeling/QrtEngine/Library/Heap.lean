import Mathlib.Data.List.Perm.Basic
import Mathlib.Data.List.Nodup
import Mathlib.Logic.Function.Basic

/-!
# Heaps and Who Owns Them

A heap hands out a new allocation each time and writes down what is freed. Nothing keeps a
program from freeing an allocation twice or from forgetting it. `Owns` says that it did neither:
what was freed and what is owned are together everything that was allocated, each once.

Owners are usually arrays of pointers of which some are not set. `pointersOf` reads the pointers
of such an array, and the rules about it say what filling a place does, and what swapping the
pointers of two arrays does, place by place.

## Main definitions

* `Heap`: How many allocations were made, and what was freed.
* `Heap.Owns`: Freed and owned are together everything, each once.
* `pointersOf`: The pointers that are set in an array.

## Theorems

* `Heap.Owns.alloc`, `Heap.Owns.freeAll`: A new allocation is owned, and what is freed no longer
  is.
* `Heap.Owns.freed_nodup`: Nothing is freed twice.
* `Heap.Owns.lost_iff`: With something lost, the rest does not account for everything.
* `pointersOf_update`: Filling a place adds its pointer.
* `pointersOf_exchange`: An exchange at every place is an exchange of the arrays.
-/

namespace QrtEngine

/-- How many allocations were made, and what was freed. -/
structure Heap where
  allocated : Nat
  freed : List Nat
deriving DecidableEq, Repr

namespace Heap

/-- Nothing was allocated. -/
def empty : Heap := { allocated := 0, freed := [] }

/-- A new allocation. -/
def alloc (heap : Heap) : Nat × Heap :=
  (heap.allocated, { heap with allocated := heap.allocated + 1 })

/-- Free a list of allocations. -/
def freeAll (heap : Heap) (pointers : List Nat) : Heap :=
  { heap with freed := heap.freed ++ pointers }

/-- Freed and owned are together everything that was allocated, each once. -/
def Owns (heap : Heap) (owned : List Nat) : Prop :=
  (heap.freed ++ owned).Perm (List.range heap.allocated)

variable {heap : Heap} {owned other : List Nat}

theorem owns_empty : empty.Owns [] := List.Perm.refl _

theorem Owns.perm (h : heap.Owns owned) (hperm : owned.Perm other) : heap.Owns other :=
  (hperm.symm.append_left heap.freed).trans h

theorem Owns.alloc (h : heap.Owns owned) : heap.alloc.2.Owns (heap.allocated :: owned) := by
  unfold Owns at h ⊢
  change (heap.freed ++ heap.allocated :: owned).Perm (List.range (heap.allocated + 1))
  rw [List.range_succ]
  exact List.perm_middle.trans ((List.Perm.cons _ h).trans (List.perm_append_singleton _ _).symm)

theorem Owns.freeAll (pointers : List Nat) (h : heap.Owns (pointers ++ owned)) :
    (heap.freeAll pointers).Owns owned := by
  unfold Owns at h ⊢
  change ((heap.freed ++ pointers) ++ owned).Perm (List.range heap.allocated)
  rw [List.append_assoc]
  exact h

theorem Owns.nodup (h : heap.Owns owned) : (heap.freed ++ owned).Nodup :=
  h.nodup_iff.mpr List.nodup_range

theorem Owns.freed_nodup (h : heap.Owns owned) : heap.freed.Nodup :=
  h.nodup.of_append_left

/-- What is left when something was lost is owned only if nothing was lost. -/
theorem Owns.lost_iff (lost : List Nat) (h : heap.Owns (lost ++ owned)) :
    heap.Owns owned ↔ lost = [] := by
  constructor
  · intro hkept
    have hlost := List.Perm.length_eq h
    have hall := List.Perm.length_eq hkept
    simp only [List.length_append] at hlost hall
    exact List.length_eq_zero_iff.mp (by omega)
  · intro hnil
    rw [hnil, List.nil_append] at h
    exact h

/-- A new allocation that is freed at once changes nothing for the owners. -/
theorem Owns.alloc_free (h : heap.Owns owned) :
    (heap.alloc.2.freeAll [heap.allocated]).Owns owned :=
  Owns.freeAll [heap.allocated] h.alloc

end Heap

/-! ## Arrays of pointers -/

section Slots

variable {ι : Type}

/-- The pointers that are set in an array. -/
def pointersOf (places : List ι) (slot : ι → Option Nat) : List Nat :=
  places.flatMap fun place => (slot place).toList

theorem pointersOf_congr (places : List ι) (slot slot' : ι → Option Nat)
    (h : ∀ place ∈ places, slot place = slot' place) :
    pointersOf places slot = pointersOf places slot' := by
  unfold pointersOf
  exact List.flatMap_congr fun place hplace => by rw [h place hplace]

theorem pointersOf_none (places : List ι) (slot : ι → Option Nat)
    (h : ∀ place ∈ places, slot place = none) : pointersOf places slot = [] := by
  unfold pointersOf
  rw [List.flatMap_eq_nil_iff]
  intro place hplace
  rw [h place hplace]
  rfl

/-- Filling a place that was not set adds its pointer. -/
theorem pointersOf_update [DecidableEq ι] (places : List ι) (slot : ι → Option Nat) (place : ι)
    (pointer : Nat) (hnodup : places.Nodup) (hmem : place ∈ places) (hnone : slot place = none) :
    (pointersOf places (Function.update slot place (some pointer))).Perm
      (pointer :: pointersOf places slot) := by
  induction places with
  | nil => exact absurd hmem List.not_mem_nil
  | cons head tail ih =>
      rw [List.nodup_cons] at hnodup
      unfold pointersOf at ih ⊢
      rw [List.flatMap_cons, List.flatMap_cons]
      by_cases heq : head = place
      · subst heq
        rw [Function.update_self, hnone]
        have htail := pointersOf_congr tail (Function.update slot head (some pointer)) slot
          (fun other hother => Function.update_of_ne (ne_of_mem_of_not_mem hother hnodup.1) _ _)
        unfold pointersOf at htail
        rw [htail]
        exact List.Perm.refl _
      · have hrest := ih hnodup.2 (List.mem_of_ne_of_mem (Ne.symm heq) hmem)
        rw [Function.update_of_ne heq]
        exact (hrest.append_left _).trans List.perm_middle

/-- If at every place two arrays hold together what two others hold, so do the arrays. -/
theorem pointersOf_exchange (places : List ι) (a b c d : ι → Option Nat)
    (h : ∀ place ∈ places, ((a place).toList ++ (b place).toList).Perm
      ((c place).toList ++ (d place).toList)) :
    (pointersOf places a ++ pointersOf places b).Perm
      (pointersOf places c ++ pointersOf places d) :=
  (List.flatMap_append_perm places _ _).trans
    ((List.Perm.flatMap_left places h).trans (List.flatMap_append_perm places _ _).symm)

end Slots

end QrtEngine
