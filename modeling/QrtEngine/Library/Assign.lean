import QrtEngine.Library.Interleave

/-!
# Assignments to Places of a Memory

A program is a list of assignments. Each writes one place of a memory that all programs share, and
carries the places that it reads along with the fact that it depends on no others. Assignments of
which neither writes what the other reads or writes can be swapped, so programs on memory of their
own do the same in every order of their steps.

## Main definitions

* `Assign`: An assignment, with what it reads.
* `Assign.footprint`: The places of an assignment.
* `runs`: The assignments of a program, one after the other.
* `Apart`: Assignments that leave each other alone.

## Theorems

* `runs_other`: A program changes only what it writes.
* `runs_apply`: What assignments that are apart write.
* `interleaved`: Programs that are apart do in any order what they do one after the other.
-/

namespace QrtEngine

namespace Assignments

open Interleave

/-- An assignment to a place: what it reads, and the value that it writes there. -/
structure Assign (π ν : Type) where
  target : π
  reads : List π
  value : (π → ν) → ν
  value_congr : ∀ m m' : π → ν, (∀ place ∈ reads, m place = m' place) → value m = value m'

variable {π ν : Type}

/-- The places that an assignment reads or writes. -/
def Assign.footprint (a : Assign π ν) : List π := a.target :: a.reads

/-- Neither assignment writes what the other reads or writes. -/
def Apart (a b : Assign π ν) : Prop := a.target ∉ b.footprint ∧ b.target ∉ a.footprint

theorem Apart.symm {a b : Assign π ν} (h : Apart a b) : Apart b a := And.symm h

/-- Assignments on places of their own are apart. -/
theorem apart_of_forall_ne {a b : Assign π ν}
    (h : ∀ place ∈ a.footprint, ∀ place' ∈ b.footprint, place ≠ place') : Apart a b :=
  ⟨fun hmem => h _ List.mem_cons_self _ hmem rfl, fun hmem => h _ hmem _ List.mem_cons_self rfl⟩

theorem Apart.target_ne {a b : Assign π ν} (h : Apart a b) : a.target ≠ b.target := by
  intro heq
  apply h.1
  rw [heq]
  exact List.mem_cons_self

variable [DecidableEq π]

/-- The memory after an assignment. -/
def Assign.run (a : Assign π ν) (m : π → ν) : π → ν := Function.update m a.target (a.value m)

@[simp] theorem Assign.run_target (a : Assign π ν) (m : π → ν) :
    a.run m a.target = a.value m := Function.update_self ..

theorem Assign.run_other (a : Assign π ν) (m : π → ν) {place : π} (h : place ≠ a.target) :
    a.run m place = m place := Function.update_of_ne h ..

/-- An assignment does not see what one writes that is apart from it. -/
theorem Apart.value_run {a b : Assign π ν} (h : Apart a b) (m : π → ν) :
    a.value (b.run m) = a.value m := by
  refine a.value_congr _ _ fun place hplace => b.run_other m ?_
  intro heq
  rw [heq] at hplace
  exact h.2 (List.mem_cons_of_mem _ hplace)

/-- Assignments that are apart can be swapped. -/
theorem Apart.comm {a b : Assign π ν} (h : Apart a b) (m : π → ν) :
    a.run (b.run m) = b.run (a.run m) := by
  unfold Assign.run
  have ha : a.value (Function.update m b.target (b.value m)) = a.value m := h.value_run m
  have hb : b.value (Function.update m a.target (a.value m)) = b.value m := h.symm.value_run m
  rw [ha, hb]
  exact Function.update_comm h.symm.target_ne ..

/-! ## Programs -/

/-- The assignments of a program, one after the other. -/
def runs (program : List (Assign π ν)) (m : π → ν) : π → ν := program.foldl (fun m a => a.run m) m

@[simp] theorem runs_cons (a : Assign π ν) (program : List (Assign π ν)) (m : π → ν) :
    runs (a :: program) m = runs program (a.run m) := rfl

@[simp] theorem runs_append (program program' : List (Assign π ν)) (m : π → ν) :
    runs (program ++ program') m = runs program' (runs program m) := List.foldl_append ..

/-- A program changes only what it writes. -/
theorem runs_other {program : List (Assign π ν)} {place : π}
    (h : ∀ a ∈ program, a.target ≠ place) (m : π → ν) : runs program m place = m place := by
  induction program generalizing m with
  | nil => rfl
  | cons a program ih =>
      rw [runs_cons, ih fun b hb => h b (List.mem_cons_of_mem a hb)]
      exact a.run_other m (h a List.mem_cons_self).symm

/-- Assignments that are apart each write what they would at the start. -/
theorem runs_apply {program : List (Assign π ν)} (h : program.Pairwise Apart)
    {a : Assign π ν} (ha : a ∈ program) (m : π → ν) : runs program m a.target = a.value m := by
  induction program generalizing m with
  | nil => cases ha
  | cons b program ih =>
      rw [List.pairwise_cons] at h
      rw [runs_cons]
      rcases List.mem_cons.mp ha with rfl | ha
      · rw [runs_other (fun b hb => (h.1 b hb).symm.target_ne), Assign.run_target]
      · rw [ih h.2 ha]
        exact (h.1 a ha).symm.value_run m

/-- A loop of assignments of which none writes what another reads or writes. -/
theorem runs_range {n : Nat} {f : Nat → Assign π ν}
    (h : ∀ i j, i ≠ j → (f i).target ∉ (f j).footprint) {i : Nat} (hi : i < n) (m : π → ν) :
    runs ((List.range n).map f) m (f i).target = (f i).value m := by
  refine runs_apply ?_ (List.mem_map_of_mem (List.mem_range.mpr hi)) m
  rw [List.pairwise_map]
  exact List.nodup_range.imp fun hne => ⟨h _ _ hne, h _ _ hne.symm⟩

theorem runs_range_other {n : Nat} {f : Nat → Assign π ν} {place : π}
    (h : ∀ i, i < n → (f i).target ≠ place) (m : π → ν) :
    runs ((List.range n).map f) m place = m place := by
  refine runs_other ?_ m
  intro a ha
  obtain ⟨i, hi, rfl⟩ := List.mem_map.mp ha
  exact h i (List.mem_range.mp hi)

/-! ## Programs side by side -/

/-- An assignment as an effect that never fails. -/
def Assign.act (a : Assign π ν) (m : π → ν) : Bool × (π → ν) := (true, a.run m)

/-- Programs that are apart do in any order what they do one after the other. -/
theorem interleaved {programs : List (List (Assign π ν))}
    (h : programs.Pairwise fun p p' => ∀ a ∈ p, ∀ b ∈ p', Apart a b) (log : List (Nat × Nat))
    (hlog : Complete programs log) (m : π → ν) :
    log.foldl (fun m turn => plain Assign.act programs turn m) m = runs programs.flatten m := by
  have hcomm : ∀ turn other : Nat × Nat, turn.1 ≠ other.1 → ∀ m,
      plain Assign.act programs turn (plain Assign.act programs other m) =
        plain Assign.act programs other (plain Assign.act programs turn m) := by
    intro turn other hne m
    unfold plain
    cases ha : (programs[turn.1]?.getD [])[turn.2]? with
    | none => rfl
    | some a =>
        cases hb : (programs[other.1]?.getD [])[other.2]? with
        | none => rfl
        | some b =>
            refine Apart.comm ?_ m
            cases hp : programs[turn.1]? with
            | none => simp [hp] at ha
            | some p =>
                cases hp' : programs[other.1]? with
                | none => simp [hp'] at hb
                | some p' =>
                    rw [hp, Option.getD_some] at ha
                    rw [hp', Option.getD_some] at hb
                    obtain ⟨hi, rfl⟩ := List.getElem?_eq_some_iff.mp hp
                    obtain ⟨hj, rfl⟩ := List.getElem?_eq_some_iff.mp hp'
                    have hmem := List.mem_of_getElem? ha
                    have hmem' := List.mem_of_getElem? hb
                    rcases Nat.lt_or_gt_of_ne hne with hlt | hlt
                    · exact List.pairwise_iff_getElem.mp h _ _ hi hj hlt a hmem b hmem'
                    · exact (List.pairwise_iff_getElem.mp h _ _ hj hi hlt b hmem' a hmem).symm
  rw [foldl_eq_of_own_eq (plain Assign.act programs) hcomm log (serial 0 programs)
      (fun thread => by rw [hlog thread, serial_complete thread]),
    foldl_serial programs 0 (fun i => by rw [Nat.zero_add])]
  rfl

end Assignments

end QrtEngine
