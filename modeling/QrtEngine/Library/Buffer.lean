import Mathlib.Data.List.Nodup
import Mathlib.Data.List.Range
import Mathlib.Logic.Function.Basic

/-!
# Checked Buffers and Loops

Flat integer buffers whose loads and stores fail outside their bounds, and loops over
them. A computation that touches buffers returns an `Option`, so a proof that it returns
`some` is a proof that no access leaves a buffer.

A buffer's contents are described by a function from indices: `Holds b n f` says that `b`
has length `n` and reads `f`. Loads and stores then have one rule each, and a store is a
`Function.update` of the description.

Loops are monadic folds. The three rules at the end are the total-correctness rules for
them: an invariant over the processed prefix of a list, over the counter of a range, and
over the set of items done when the items may come in any order.

## Main definitions

* `loadAt`, `storeAt`: Checked accesses at an integer offset.
* `Holds`: The description of a buffer by a function.

## Theorems

* `loadAt_holds`, `storeAt_holds`: The rules of the two accesses.
* `foldlM_rule`, `range_rule`, `anyOrder_rule`: The loop rules.
* `foldlM_fails`: When a loop fails.
-/

namespace QrtEngine

namespace Buffer

/-- Read a buffer at an offset, failing outside it. -/
def loadAt (b : List Int) (i : Int) : Option Int :=
  if 0 ≤ i then b[i.toNat]? else none

/-- Write a buffer at an offset, failing outside it. -/
def storeAt (b : List Int) (i v : Int) : Option (List Int) :=
  if 0 ≤ i ∧ i.toNat < b.length then some (b.set i.toNat v) else none

/-- A buffer of length `n` that reads `f`. -/
def Holds (b : List Int) (n : Nat) (f : Nat → Int) : Prop :=
  b.length = n ∧ ∀ i, i < n → b[i]? = some (f i)

theorem holds_replicate (n : Nat) (v : Int) : Holds (List.replicate n v) n (fun _ => v) := by
  refine ⟨List.length_replicate, ?_⟩
  intro i hi
  rw [List.getElem?_replicate, if_pos hi]

/-- Every buffer is described by its own reading. -/
theorem holds_getD (b : List Int) : Holds b b.length (fun i => b[i]?.getD 0) := by
  refine ⟨rfl, ?_⟩
  intro i hi
  simp only [List.getElem?_eq_getElem hi, Option.getD_some]

/-- A value described at one index only occurs once. -/
theorem Holds.count_eq_one {b : List Int} {n : Nat} {f : Nat → Int} (h : Holds b n f) {i : Nat}
    {v : Int} (hi : i < n) (hv : f i = v) (hunique : ∀ j, j < n → f j = v → j = i) :
    b.count v = 1 := by
  -- The buffer is the image of the indices, and counting a value is counting its index.
  have hb : b = (List.range n).map f := by
    refine List.ext_getElem (by rw [h.1, List.length_map, List.length_range]) ?_
    intro j hj _
    have hread := h.2 j (h.1 ▸ hj)
    rw [List.getElem?_eq_getElem hj, Option.some.injEq] at hread
    rw [hread, List.getElem_map, List.getElem_range]
  have hone : ∀ j ∈ List.range n, (((· == v) ∘ f) j = true ↔ (j == i) = true) := by
    intro j hj
    rw [List.mem_range] at hj
    simp only [Function.comp_apply, beq_iff_eq]
    exact ⟨hunique j hj, fun hji => by rw [hji, hv]⟩
  rw [hb, List.count, List.countP_map, List.countP_congr hone]
  exact List.count_eq_one_of_mem List.nodup_range (List.mem_range.mpr hi)

theorem Holds.getElem?_eq {b : List Int} {n : Nat} {f : Nat → Int} (h : Holds b n f) {i : Nat}
    {v : Int} (hv : b[i]? = some v) : i < n ∧ f i = v := by
  have hi : i < n := by
    rw [← h.1]
    exact (List.getElem?_eq_some_iff.mp hv).1
  rw [h.2 i hi, Option.some.injEq] at hv
  exact ⟨hi, hv⟩

theorem loadAt_holds {b : List Int} {n : Nat} {f : Nat → Int} (h : Holds b n f) (i : Nat)
    (hi : i < n) : loadAt b i = some (f i) := by
  unfold loadAt
  rw [if_pos (Int.natCast_nonneg i), Int.toNat_natCast]
  exact h.2 i hi

/-- There is nothing before a buffer. -/
theorem loadAt_of_neg (b : List Int) {i : Int} (h : i < 0) : loadAt b i = none :=
  if_neg (Int.not_le.mpr h)

/-- What is read is a cell of the buffer. -/
theorem mem_of_loadAt {b : List Int} {i v : Int} (h : loadAt b i = some v) : v ∈ b := by
  unfold loadAt at h
  split_ifs at h
  exact List.mem_of_getElem? h

theorem storeAt_holds {b : List Int} {n : Nat} {f : Nat → Int} (h : Holds b n f) (i : Nat)
    (v : Int) (hi : i < n) :
    ∃ b', storeAt b i v = some b' ∧ Holds b' n (Function.update f i v) := by
  have hlen : i < b.length := by rw [h.1]; exact hi
  refine ⟨b.set i v, ?_, ?_, ?_⟩
  · unfold storeAt
    rw [Int.toNat_natCast, if_pos ⟨Int.natCast_nonneg i, hlen⟩]
  · rw [List.length_set]
    exact h.1
  · intro j hj
    -- The stored cell reads the new value, every other what it read before.
    by_cases hij : j = i
    · subst hij
      rw [Function.update_self, List.getElem?_set_self hlen]
    · rw [Function.update_of_ne hij, List.getElem?_set_ne (Ne.symm hij)]
      exact h.2 j hj

/-! ## Loops -/

section Loops

variable {α σ : Type}

/-- The rule of a loop over a list, with an invariant over the part already processed. -/
theorem foldlM_rule (body : σ → α → Option σ) (l : List α) (inv : List α → σ → Prop) (s : σ)
    (h0 : inv [] s)
    (hstep : ∀ done a rest s, l = done ++ a :: rest → inv done s →
      ∃ s', body s a = some s' ∧ inv (done ++ [a]) s') :
    ∃ s', l.foldlM body s = some s' ∧ inv l s' := by
  -- The induction is over what is left, so the part already done has to vary.
  have hgen : ∀ rest done s, l = done ++ rest → inv done s →
      ∃ s', rest.foldlM body s = some s' ∧ inv l s' := by
    intro rest
    induction rest with
    | nil =>
        intro done s hl hs
        rw [List.append_nil] at hl
        exact ⟨s, rfl, hl ▸ hs⟩
    | cons a rest ih =>
        intro done s hl hs
        rcases hstep done a rest s hl hs with ⟨s', hbody, hs'⟩
        rcases ih (done ++ [a]) s' (by rw [hl, List.append_assoc, List.singleton_append]) hs'
          with ⟨s'', hrest, hs''⟩
        refine ⟨s'', ?_, hs''⟩
        rw [List.foldlM_cons, hbody]
        exact hrest
  exact hgen l [] s rfl h0

/-- What every iteration keeps, the loop keeps. -/
theorem foldlM_keeps (body : σ → α → Option σ) (keeps : σ → Prop)
    (hbody : ∀ s a s', keeps s → body s a = some s' → keeps s') (l : List α) (s s' : σ)
    (hs : keeps s) (hrun : l.foldlM body s = some s') : keeps s' := by
  induction l generalizing s with
  | nil =>
      rw [List.foldlM_nil, Option.pure_def, Option.some.injEq] at hrun
      exact hrun ▸ hs
  | cons a l ih =>
      rw [List.foldlM_cons, Option.bind_eq_bind, Option.bind_eq_some_iff] at hrun
      rcases hrun with ⟨s1, hfirst, hrest⟩
      exact ih s1 (hbody s a s1 hs hfirst) hrest

/-- A loop fails if one of its items does, in every state the loop can meet. -/
theorem foldlM_fails (body : σ → α → Option σ) (keeps : σ → Prop)
    (hbody : ∀ s a s', keeps s → body s a = some s' → keeps s') (l : List α) (a : α) (ha : a ∈ l)
    (hfail : ∀ s, keeps s → body s a = none) (s : σ) (hs : keeps s) :
    l.foldlM body s = none := by
  -- The loop up to the item keeps what is kept, and then the item fails.
  rcases List.append_of_mem ha with ⟨before, after, rfl⟩
  rw [List.foldlM_append]
  cases hrun : before.foldlM body s with
  | none => rfl
  | some s1 =>
      have hs1 := foldlM_keeps body keeps hbody before s s1 hs hrun
      rw [Option.bind_eq_bind, Option.bind_some, List.foldlM_cons, hfail s1 hs1]
      rfl

/-- The rule of a counting loop. -/
theorem range_rule (body : σ → Nat → Option σ) (n : Nat) (inv : Nat → σ → Prop) (s : σ)
    (h0 : inv 0 s)
    (hstep : ∀ i s, i < n → inv i s → ∃ s', body s i = some s' ∧ inv (i + 1) s') :
    ∃ s', (List.range n).foldlM body s = some s' ∧ inv n s' := by
  induction n with
  | zero => exact ⟨s, rfl, h0⟩
  | succ n ih =>
      -- The last iteration comes after the loop over the smaller range.
      rcases ih (fun i s hi => hstep i s (Nat.lt_succ_of_lt hi)) with ⟨s', hs', hinv⟩
      rcases hstep n s' (Nat.lt_succ_self n) hinv with ⟨s'', hs'', hinv''⟩
      refine ⟨s'', ?_, hinv''⟩
      rw [List.range_succ, List.foldlM_append, hs']
      simp only [List.foldlM_cons, List.foldlM_nil, Option.bind_eq_bind, Option.bind_some, hs'']
      rfl

/-- The rule of items processed in any order, with an invariant over the set of those
    already done. -/
theorem anyOrder_rule (body : σ → Nat → Option σ) (n : Nat) (order : List Nat)
    (hperm : order.Perm (List.range n)) (inv : (Nat → Prop) → σ → Prop) (s : σ)
    (h0 : inv (fun _ => False) s)
    (hstep : ∀ (done : Nat → Prop) a s, a < n → ¬done a → inv done s →
      ∃ s', body s a = some s' ∧ inv (fun x => done x ∨ x = a) s') :
    ∃ s', order.foldlM body s = some s' ∧ inv (fun x => x < n) s' := by
  have hnodup : order.Nodup := hperm.nodup_iff.mpr List.nodup_range
  have hmem : ∀ x, x ∈ order ↔ x < n := fun x => by rw [hperm.mem_iff, List.mem_range]
  -- Being done is being in the part of the order already processed.
  have hrun := foldlM_rule body order (fun done s => inv (fun x => x ∈ done) s) s
    (by simpa only [List.not_mem_nil] using h0) ?_
  · rcases hrun with ⟨s', hs', hinv⟩
    refine ⟨s', hs', ?_⟩
    simpa only [hmem] using hinv
  · intro done a rest s hl hinv
    have ha : a < n := by
      rw [← hmem, hl]
      exact List.mem_append_right _ List.mem_cons_self
    -- An order repeats nothing, so the next item is not among those done.
    have hnew : a ∉ done := by
      rw [hl] at hnodup
      intro hin
      exact (List.nodup_append.mp hnodup).2.2 a hin a List.mem_cons_self rfl
    rcases hstep _ a s ha hnew hinv with ⟨s', hs', hinv'⟩
    refine ⟨s', hs', ?_⟩
    simpa only [List.mem_append, List.mem_singleton] using hinv'

end Loops

end Buffer

end QrtEngine
