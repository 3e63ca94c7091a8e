import Mathlib.Algebra.GroupWithZero.Nat
import Mathlib.Data.List.Basic

/-!
# Tallies

How many entries of a list satisfy a test, or what their weights add up to, when one entry
changes. The changes are stated as equations between sums, with no subtraction, so that they can
be handed to `omega`.

## Theorems

* `countP_set_add`, `sum_map_set_add`: Replacing an entry.
* `countP_modify_add`: Changing an entry by a function.
* `toNat_le_countP`: An entry that passes is counted.
* `getElem?_set_cases`, `mem_set_cases`: What the list has after an entry is replaced.
-/

namespace QrtEngine

namespace Tally

variable {α : Type} {p : α → Bool} {l : List α} {i : Nat} {a b : α}

theorem countP_set_add (h : l[i]? = some a) :
    (l.set i b).countP p + (p a).toNat = l.countP p + (p b).toNat := by
  induction l generalizing i with
  | nil => exact absurd h (by simp only [List.getElem?_nil, reduceCtorEq, not_false_eq_true])
  | cons x l ih =>
      cases i with
      | zero =>
          rw [List.getElem?_cons_zero, Option.some.injEq] at h
          subst h
          rw [List.set_cons_zero, List.countP_cons, List.countP_cons]
          cases p x <;> cases p b <;> simp
      | succ i =>
          rw [List.getElem?_cons_succ] at h
          have htail := ih h
          rw [List.set_cons_succ, List.countP_cons, List.countP_cons]
          omega

theorem sum_map_set_add (w : α → Nat) (h : l[i]? = some a) :
    ((l.set i b).map w).sum + w a = (l.map w).sum + w b := by
  induction l generalizing i with
  | nil => exact absurd h (by simp only [List.getElem?_nil, reduceCtorEq, not_false_eq_true])
  | cons x l ih =>
      cases i with
      | zero =>
          rw [List.getElem?_cons_zero, Option.some.injEq] at h
          subst h
          simp only [List.set_cons_zero, List.map_cons, List.sum_cons]
          omega
      | succ i =>
          rw [List.getElem?_cons_succ] at h
          have htail := ih h
          simp only [List.set_cons_succ, List.map_cons, List.sum_cons]
          omega

theorem countP_modify_add {f : α → α} (h : l[i]? = some a) :
    (l.modify i f).countP p + (p a).toNat = l.countP p + (p (f a)).toNat := by
  -- Changing an entry that is there is replacing it by its image.
  have hset : l.modify i f = l.set i (f a) := by
    refine List.ext_getElem? fun j => ?_
    rw [List.getElem?_modify, List.getElem?_set]
    by_cases hij : i = j
    · subst hij
      have hlt : i < l.length := (List.getElem?_eq_some_iff.mp h).1
      simp only [h, if_pos, hlt]
      rfl
    · simp only [if_neg hij]
      cases l[j]? <;> rfl
  rw [hset]
  exact countP_set_add h

theorem toNat_le_countP (h : l[i]? = some a) : (p a).toNat ≤ l.countP p := by
  cases hp : p a with
  | false => exact Nat.zero_le _
  | true => exact List.countP_pos_iff.mpr ⟨a, List.mem_of_getElem? h, hp⟩

theorem getElem?_set_cases {j : Nat} {c : α} (h : (l.set i b)[j]? = some c) :
    (i = j ∧ c = b) ∨ (i ≠ j ∧ l[j]? = some c) := by
  rw [List.getElem?_set] at h
  by_cases hij : i = j
  · rw [if_pos hij] at h
    by_cases hlt : i < l.length
    · rw [if_pos hlt, Option.some.injEq] at h
      exact Or.inl ⟨hij, h.symm⟩
    · rw [if_neg hlt] at h
      cases h
  · rw [if_neg hij] at h
    exact Or.inr ⟨hij, h⟩

theorem mem_set_cases {c : α} (h : c ∈ l.set i b) : c = b ∨ c ∈ l :=
  (List.mem_or_eq_of_mem_set h).symm

end Tally

end QrtEngine
