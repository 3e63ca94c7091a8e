import Mathlib.Data.Nat.Count
import Mathlib.Algebra.BigOperators.Intervals
import Mathlib.Algebra.BigOperators.Ring.Finset
import Mathlib.Algebra.Order.BigOperators.Group.Finset
import Mathlib.Tactic.Ring
import Mathlib.Tactic.Linarith

/-!
# Padded Counting Sort

The arithmetic of a counting sort whose buckets are padded to a block size. Items are
numbered, `key` gives the bucket of each, and an item's place is the start of its bucket
plus the number of earlier items in the same bucket. Buckets follow each other in the
order of the keys, each rounded up to a multiple of the block, so a block belongs to one
bucket.

Everything here is about the numbers. What a program does to compute them is not.

## Main definitions

* `occurrences`: How many of the first items have a key.
* `roundUp`: The next multiple of the block.
* `start`: Where a bucket begins.
* `place`: Where an item goes.

## Theorems

* `place_lt_start_succ`: An item's place is inside its bucket.
* `place_injective`: No two items share a place.
* `start_le`: The padded total exceeds the number of items by less than a block for each
  bucket.
* `exists_owner`: Every block below the total lies inside one bucket.
-/

namespace QrtEngine

namespace PaddedSort

variable (key : Nat → Nat) (block n : Nat)

/-- The number of items below `n` with key `k`. -/
def occurrences (k n : Nat) : Nat := Nat.count (fun i => key i = k) n

/-- The next multiple of the block. -/
def roundUp (c : Nat) : Nat := (c + block - 1) / block * block

/-- The first place of bucket `k` when there are `n` items. -/
def start (k : Nat) : Nat :=
  ∑ j ∈ Finset.range k, roundUp block (occurrences key j n)

/-- The place of item `i`. -/
def place (i : Nat) : Nat :=
  start key block n (key i) + occurrences key (key i) i

@[simp] theorem occurrences_zero (k : Nat) : occurrences key k 0 = 0 := Nat.count_zero _

/-- An item is counted for its own key and for no other. -/
theorem occurrences_succ (k i : Nat) :
    occurrences key k (i + 1) = occurrences key k i + if key i = k then 1 else 0 :=
  Nat.count_succ _ _

/-- Counting past an item counts it. -/
theorem occurrences_lt {i j : Nat} (h : i < j) :
    occurrences key (key i) i < occurrences key (key i) j :=
  Nat.count_strict_mono rfl h

/-! ## Rounding -/

variable {block}

theorem le_roundUp (hb : 0 < block) (c : Nat) : c ≤ roundUp block c := by
  unfold roundUp
  -- Rounding down loses less than a block, and almost a block was added before.
  have hdiv := Nat.div_add_mod (c + block - 1) block
  have hmod := Nat.mod_lt (c + block - 1) hb
  rw [Nat.mul_comm] at hdiv
  omega

theorem roundUp_le (c : Nat) : roundUp block c ≤ c + (block - 1) := by
  unfold roundUp
  have hle := Nat.div_mul_le_self (c + block - 1) block
  omega

theorem dvd_roundUp (c : Nat) : block ∣ roundUp block c := Nat.dvd_mul_left _ _

variable (block)

/-! ## Buckets -/

@[simp] theorem start_zero : start key block n 0 = 0 := Finset.sum_range_zero _

theorem start_succ (k : Nat) :
    start key block n (k + 1) =
      start key block n k + roundUp block (occurrences key k n) :=
  Finset.sum_range_succ _ _

theorem start_mono {j k : Nat} (h : j ≤ k) : start key block n j ≤ start key block n k :=
  Finset.sum_le_sum_of_subset (Finset.range_mono h)

theorem dvd_start (k : Nat) : block ∣ start key block n k :=
  Finset.dvd_sum fun _ _ => dvd_roundUp _

/-- Two buckets that share a place are the same bucket. -/
theorem bucket_unique {j k d : Nat} (hj : start key block n j ≤ d)
    (hj' : d < start key block n (j + 1)) (hk : start key block n k ≤ d)
    (hk' : d < start key block n (k + 1)) : j = k := by
  rcases Nat.lt_trichotomy j k with hlt | heq | hgt
  · have := start_mono key block n (show j + 1 ≤ k from hlt)
    omega
  · exact heq
  · have := start_mono key block n (show k + 1 ≤ j from hgt)
    omega

/-! ## Places -/

variable {block n}

theorem start_le_place (i : Nat) : start key block n (key i) ≤ place key block n i :=
  Nat.le_add_right _ _

/-- An item's place is inside its bucket. -/
theorem place_lt_start_succ (hb : 0 < block) {i : Nat} (hi : i < n) :
    place key block n i < start key block n (key i + 1) := by
  -- The items before it in the bucket are fewer than the bucket has.
  have hcount := occurrences_lt key hi
  have hround := le_roundUp hb (occurrences key (key i) n)
  rw [start_succ]
  unfold place
  omega

/-- Inside a bucket the items keep their order. -/
theorem place_lt_place {i j : Nat} (hkey : key i = key j) (h : i < j) :
    place key block n i < place key block n j := by
  have hcount := occurrences_lt key h
  unfold place
  rw [← hkey]
  omega

/-- No two items share a place. -/
theorem place_injective (hb : 0 < block) {i j : Nat} (hi : i < n) (hj : j < n)
    (h : place key block n i = place key block n j) : i = j := by
  -- A common place lies in one bucket, so the keys agree, and then the order decides.
  have hkey : key i = key j := by
    refine bucket_unique key block n (start_le_place key i)
      (place_lt_start_succ key hb hi) ?_ ?_
    · rw [h]
      exact start_le_place key j
    · rw [h]
      exact place_lt_start_succ key hb hj
  rcases Nat.lt_trichotomy i j with hlt | heq | hgt
  · have hplace : place key block n i < place key block n j := place_lt_place key hkey hlt
    omega
  · exact heq
  · have hplace : place key block n j < place key block n i := place_lt_place key hkey.symm hgt
    omega

/-! ## The total -/

variable (block n)

/-- The buckets together hold every item. -/
theorem sum_occurrences (m : Nat) (hkey : ∀ i, i < n → key i < m) :
    ∑ k ∈ Finset.range m, occurrences key k n = n := by
  induction n with
  | zero => simp only [occurrences_zero, Finset.sum_const_zero]
  | succ n ih =>
      simp only [occurrences_succ, Finset.sum_add_distrib]
      -- The next item adds one to the bucket of its key and nothing to the others.
      rw [ih (fun i hi => hkey i (Nat.lt_succ_of_lt hi)), Finset.sum_ite_eq,
        if_pos (Finset.mem_range.mpr (hkey n (Nat.lt_succ_self n)))]

/-- The padded total exceeds the number of items by less than a block for each bucket. -/
theorem start_le (m : Nat) (hkey : ∀ i, i < n → key i < m) :
    start key block n m ≤ n + m * (block - 1) := by
  calc start key block n m
      ≤ ∑ k ∈ Finset.range m, (occurrences key k n + (block - 1)) :=
        Finset.sum_le_sum fun k _ => roundUp_le _
    _ = n + m * (block - 1) := by
        rw [Finset.sum_add_distrib, sum_occurrences key n m hkey, Finset.sum_const,
          Finset.card_range, nsmul_eq_mul, Nat.cast_id]

/-- Every block below the total lies inside one bucket. -/
theorem exists_owner (m b : Nat) (h : b * block < start key block n m) :
    ∃ k, k < m ∧ start key block n k ≤ b * block ∧
      (b + 1) * block ≤ start key block n (k + 1) := by
  induction m with
  | zero =>
      rw [start_zero] at h
      exact absurd h (Nat.not_lt_zero _)
  | succ m ih =>
      -- The block is below the last bucket, or it begins inside it.
      by_cases hlow : b * block < start key block n m
      · rcases ih hlow with ⟨k, hk, hbounds⟩
        exact ⟨k, Nat.lt_succ_of_lt hk, hbounds⟩
      · refine ⟨m, Nat.lt_succ_self m, Nat.le_of_not_lt hlow, ?_⟩
        -- Buckets end at multiples of the block, so a block that begins in one ends in it.
        rcases dvd_start key block n (m + 1) with ⟨q, hq⟩
        rw [hq, Nat.mul_comm block q] at h ⊢
        have hbq : b < q := Nat.lt_of_mul_lt_mul_right h
        exact Nat.mul_le_mul_right block hbq

end PaddedSort

end QrtEngine
