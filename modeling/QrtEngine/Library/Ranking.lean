import Mathlib.Data.List.Sort
import Mathlib.Order.Defs.LinearOrder

/-!
# The Best Elements of a List

The best elements of a list are those with the smallest keys. They can be found by inserting the
elements one after the other into a sorted list that is not let grow, or by looking for the next
best as many times. Either way, where an element stands is how many elements are better.

## Main definitions

* `rank`: How many elements are better.
* `Best`: The best elements of a list, sorted.

## Theorems

* `Best.insert`: An element is inserted, and what is too much is dropped.
* `Best.next`: The best of the elements that are left comes next.
* `Best.getElem?_iff`: An element stands at its rank.
* `Best.mem_iff`: The elements that are found are those of small rank.
* `take_orderedInsert_padded`: Insertion before a padding of elements that are worse than all.
-/

namespace QrtEngine

namespace Ranking

variable {α κ : Type} [LinearOrder κ] (key : α → κ)

/-- How many elements are better. -/
def rank (l : List α) (a : α) : Nat := l.countP fun b => key b < key a

/-- The best elements of a list, as many as there may be, sorted. -/
def Best (count : Nat) (l found : List α) : Prop :=
  ∃ rest, l.Perm (found ++ rest) ∧ found.Pairwise (fun a b => key a < key b) ∧
    (∀ a ∈ found, ∀ b ∈ rest, key a < key b) ∧
    found.length ≤ count ∧ (found.length = count ∨ rest = [])

variable {key} {count : Nat} {l found : List α}

theorem Best.nil (count : Nat) : Best key count ([] : List α) [] :=
  ⟨[], List.Perm.refl _, List.Pairwise.nil, by simp, Nat.zero_le _, Or.inr rfl⟩

/-- At first none of the elements is found. -/
theorem Best.none (l : List α) : Best key 0 l [] :=
  ⟨l, List.Perm.refl _, List.Pairwise.nil, by simp, Nat.le_refl _, Or.inl rfl⟩

/-- Insertion into a sorted list keeps it sorted. -/
theorem pairwise_orderedInsert (a : α) (l : List α)
    (h : l.Pairwise fun b c => key b < key c) (hne : ∀ b ∈ l, key b ≠ key a) :
    (l.orderedInsert (fun b c => key b < key c) a).Pairwise fun b c => key b < key c := by
  induction l with
  | nil => simp
  | cons b l ih =>
      rw [List.pairwise_cons] at h
      rw [List.orderedInsert_cons]
      by_cases hab : key a < key b
      · rw [if_pos hab, List.pairwise_cons]
        refine ⟨?_, List.pairwise_cons.mpr h⟩
        intro c hc
        rcases List.mem_cons.mp hc with rfl | hc
        · exact hab
        · exact hab.trans (h.1 c hc)
      · rw [if_neg hab, List.pairwise_cons]
        refine ⟨?_, ih h.2 fun c hc => hne c (List.mem_cons_of_mem b hc)⟩
        intro c hc
        rcases (List.mem_orderedInsert _).mp hc with rfl | hc
        · exact lt_of_le_of_ne (not_lt.mp hab) (hne b List.mem_cons_self)
        · exact h.1 c hc

/-- An insertion is before the first element that is worse. -/
theorem orderedInsert_eq_findIdx (a : α) (l : List α) :
    l.orderedInsert (fun b c => key b < key c) a =
      l.take (l.findIdx fun b => decide (key a < key b)) ++
        a :: l.drop (l.findIdx fun b => decide (key a < key b)) := by
  induction l with
  | nil => rfl
  | cons b l ih =>
      rw [List.orderedInsert_cons, List.findIdx_cons]
      by_cases hab : key a < key b
      · simp [hab]
      · simp [hab, ih]

/-- An element is inserted, and what is too much is dropped. -/
theorem Best.insert (h : Best key count l found) (a : α) (hne : ∀ b ∈ l, key b ≠ key a) :
    Best key count (l ++ [a])
      ((found.orderedInsert (fun b c => key b < key c) a).take count) := by
  obtain ⟨rest, hperm, hsorted, hbelow, hle, hfull⟩ := h
  generalize hinserted : found.orderedInsert (fun b c => key b < key c) a = inserted
  have hfound : ∀ b ∈ found, key b ≠ key a := fun b hb =>
    hne b (hperm.mem_iff.mpr (List.mem_append_left rest hb))
  have hsort : inserted.Pairwise fun b c => key b < key c :=
    hinserted ▸ pairwise_orderedInsert a found hsorted hfound
  have hperm' : inserted.Perm (a :: found) := hinserted ▸ List.perm_orderedInsert _ a found
  have hlength : inserted.length = found.length + 1 := by
    rw [hperm'.length_eq, List.length_cons]
  refine ⟨inserted.drop count ++ rest, ?_, hsort.sublist (List.take_sublist ..), ?_, ?_, ?_⟩
  · rw [← List.append_assoc, List.take_append_drop]
    exact (List.perm_append_singleton a l).trans
      ((hperm.cons a).trans (hperm'.append_right rest).symm)
  · intro b hb c hc
    have hbc : ∀ c ∈ inserted.drop count, key b < key c := by
      intro c hc
      have hsplit := List.pairwise_append.mp
        ((List.take_append_drop count inserted).symm ▸ hsort)
      exact hsplit.2.2 b hb c hc
    rcases List.mem_append.mp hc with hc | hc
    · exact hbc c hc
    · -- With elements left over, something has been dropped that was found before.
      have hcount : found.length = count := by
        rcases hfull with hfull | hnone
        · exact hfull
        · rw [hnone] at hc
          cases hc
      rcases List.mem_cons.mp (hperm'.mem_iff.mp (List.mem_of_mem_take hb)) with rfl | hb
      · obtain ⟨z, hz⟩ : ∃ z, z ∈ inserted.drop count := by
          refine List.exists_mem_of_length_pos ?_
          rw [List.length_drop]
          omega
        have hbz := hbc z hz
        rcases List.mem_cons.mp (hperm'.mem_iff.mp (List.mem_of_mem_drop hz)) with rfl | hz
        · exact absurd hbz (lt_irrefl _)
        · exact hbz.trans (hbelow z hz c hc)
      · exact hbelow b hb c hc
  · rw [List.length_take]
    exact Nat.min_le_left ..
  · rw [List.length_take, hlength]
    by_cases hlt : found.length + 1 ≤ count
    · right
      have hrest : rest = [] := by
        rcases hfull with hfull | hnone
        · omega
        · exact hnone
      rw [hrest, List.append_nil, List.drop_eq_nil_of_le (by omega)]
    · left
      omega

/-- An insertion before a padding takes the place of an element of the padding, if there is one. -/
theorem take_orderedInsert_padded (found : List α) (padding : Nat) (top a : α)
    (h : key a < key top) :
    ((found ++ List.replicate padding top).orderedInsert (fun b c => key b < key c) a).take
        (found.length + padding) =
      (found.orderedInsert (fun b c => key b < key c) a).take (found.length + padding) ++
        List.replicate (padding - 1) top := by
  induction found with
  | nil =>
      cases padding with
      | zero => simp
      | succ padding =>
          rw [List.nil_append, List.replicate_succ, List.orderedInsert_cons, if_pos h,
            List.orderedInsert_nil, ← List.replicate_succ]
          simp
  | cons b found ih =>
      rw [List.cons_append, List.orderedInsert_cons, List.orderedInsert_cons]
      have hlength : (b :: found).length + padding = found.length + padding + 1 := by
        rw [List.length_cons]
        omega
      rw [hlength]
      by_cases hab : key a < key b
      · rw [if_pos hab, if_pos hab, List.take_succ_cons, List.take_succ_cons, List.cons_append,
          List.cons.injEq, ← List.cons_append]
        refine ⟨rfl, ?_⟩
        cases padding with
        | zero => simp
        | succ padding =>
            rw [List.take_append, List.take_of_length_le (by rw [List.length_cons]; omega),
              List.take_replicate, List.length_cons, Nat.add_sub_cancel]
            congr 2
            omega
      · rw [if_neg hab, if_neg hab, List.take_succ_cons, List.take_succ_cons, ih,
          List.cons_append]

/-- The best of the elements that are left comes next. -/
theorem Best.next (h : Best key count l found) (hnodup : l.Nodup)
    (hinj : ∀ a ∈ l, ∀ b ∈ l, key a = key b → a = b) (hfull : found.length = count) (a : α)
    (ha : a ∈ l) (hleft : a ∉ found) (hbest : ∀ b ∈ l, b ∉ found → key a ≤ key b) :
    Best key (count + 1) l (found ++ [a]) := by
  obtain ⟨rest, hperm, hsorted, hbelow, hle, _⟩ := h
  have hrest : a ∈ rest := (List.mem_append.mp (hperm.mem_iff.mp ha)).resolve_left hleft
  obtain ⟨before, after, rfl⟩ := List.append_of_mem hrest
  have hnodup' := hperm.nodup_iff.mp hnodup
  have hapart : ∀ b ∈ before ++ after, b ∉ found ∧ b ≠ a := by
    intro b hb
    have hb' : b ∈ before ++ a :: after := by
      rcases List.mem_append.mp hb with hb | hb
      · exact List.mem_append_left _ hb
      · exact List.mem_append_right _ (List.mem_cons_of_mem a hb)
    refine ⟨fun hfound => (List.nodup_append.mp hnodup').2.2 b hfound b hb' rfl, ?_⟩
    rintro rfl
    have hmid := (List.nodup_append.mp hnodup').2.1
    rw [List.nodup_middle, List.nodup_cons] at hmid
    exact hmid.1 hb
  refine ⟨before ++ after, ?_, ?_, ?_, ?_, Or.inl ?_⟩
  · rw [List.append_assoc, List.singleton_append]
    exact hperm.trans (List.Perm.append_left found List.perm_middle)
  · refine List.pairwise_append.mpr ⟨hsorted, List.pairwise_singleton .., ?_⟩
    intro b hb c hc
    rw [List.mem_singleton.mp hc]
    exact hbelow b hb a hrest
  · intro b hb c hc
    have hc' : c ∈ before ++ a :: after := by
      rcases List.mem_append.mp hc with hc | hc
      · exact List.mem_append_left _ hc
      · exact List.mem_append_right _ (List.mem_cons_of_mem a hc)
    rcases List.mem_append.mp hb with hb | hb
    · exact hbelow b hb c hc'
    · rw [List.mem_singleton.mp hb]
      have hcl : c ∈ l := hperm.mem_iff.mpr (List.mem_append_right found hc')
      refine lt_of_le_of_ne (hbest c hcl (hapart c hc).1) fun heq => ?_
      exact (hapart c hc).2 (hinj a ha c hcl heq).symm
  · rw [List.length_append, List.length_singleton]
    omega
  · rw [List.length_append, List.length_singleton]
    omega

/-- As many elements of a sorted list are better than one as stand before it. -/
theorem rank_sorted (h : l.Pairwise fun b c => key b < key c) {i : Nat} {a : α}
    (ha : l[i]? = some a) : rank key l a = i := by
  induction l generalizing i with
  | nil => cases ha
  | cons b l ih =>
      rw [List.pairwise_cons] at h
      rw [rank, List.countP_cons]
      cases i with
      | zero =>
          obtain rfl := Option.some.inj ha
          have hnone : l.countP (fun c => decide (key c < key b)) = 0 := by
            refine List.countP_eq_zero.mpr fun c hc => ?_
            simpa using (h.1 c hc).le
          rw [hnone]
          simp
      | succ i =>
          rw [List.getElem?_cons_succ] at ha
          rw [if_pos (decide_eq_true (h.1 a (List.mem_of_getElem? ha)))]
          exact congrArg (· + 1) (ih h.2 ha)

/-- An element that is found stands at its rank. -/
theorem Best.rank_eq (h : Best key count l found) {i : Nat} {a : α}
    (ha : found[i]? = some a) : a ∈ l ∧ rank key l a = i := by
  obtain ⟨rest, hperm, hsorted, hbelow, _⟩ := h
  have hmem := List.mem_of_getElem? ha
  refine ⟨hperm.mem_iff.mpr (List.mem_append_left rest hmem), ?_⟩
  have hrest : rest.countP (fun b => decide (key b < key a)) = 0 := by
    refine List.countP_eq_zero.mpr fun b hb => ?_
    simpa using (hbelow a hmem b hb).le
  rw [rank, hperm.countP_eq, List.countP_append, hrest, Nat.add_zero]
  exact rank_sorted hsorted ha

/-- Better elements have smaller ranks. -/
theorem rank_lt {a b : α} (ha : a ∈ l) (h : key a < key b) : rank key l a < rank key l b := by
  unfold rank
  induction l with
  | nil => cases ha
  | cons c l ih =>
      rw [List.countP_cons, List.countP_cons]
      have hle : l.countP (fun c => decide (key c < key a)) ≤
          l.countP (fun c => decide (key c < key b)) := by
        refine List.countP_mono_left fun c _ hc => ?_
        exact decide_eq_true ((of_decide_eq_true hc).trans h)
      rcases List.mem_cons.mp ha with rfl | ha
      · simp only [lt_irrefl, decide_false, Bool.false_eq_true, if_false, h, decide_true, if_true]
        omega
      · have hless := ih ha
        by_cases hca : key c < key a
        · simp only [hca, hca.trans h, decide_true, if_true]
          omega
        · simp only [hca, decide_false, Bool.false_eq_true, if_false]
          split_ifs <;> omega

/-- An element stands at its rank, and no other does. -/
theorem Best.getElem?_iff (h : Best key count l found)
    (hinj : ∀ a ∈ l, ∀ b ∈ l, key a = key b → a = b) {i : Nat} {a : α} (hi : i < count) :
    found[i]? = some a ↔ a ∈ l ∧ rank key l a = i := by
  refine ⟨fun ha => h.rank_eq ha, ?_⟩
  rintro ⟨ha, hrank⟩
  obtain ⟨rest, hperm, hsorted, hbelow, hle, hfull⟩ := h
  have hlt : i < found.length := by
    rcases hfull with hfull | hnone
    · omega
    · rw [hnone, List.append_nil] at hperm
      obtain ⟨j, hj⟩ := List.mem_iff_getElem?.mp (hperm.mem_iff.mp ha)
      have hat := rank_sorted hsorted hj
      rw [rank, ← hperm.countP_eq] at hat
      have hbound := (List.getElem?_eq_some_iff.mp hj).1
      rw [rank] at hrank
      omega
  have hother := Best.rank_eq ⟨rest, hperm, hsorted, hbelow, hle, hfull⟩
    (List.getElem?_eq_getElem hlt)
  have hsame : a = found[i] := by
    refine hinj a ha _ hother.1 ?_
    rcases lt_trichotomy (key a) (key found[i]) with hless | heq | hless
    · have := rank_lt ha hless
      omega
    · exact heq
    · have := rank_lt hother.1 hless
      omega
  rw [List.getElem?_eq_getElem hlt, hsame]

/-- The elements that are found are those of small rank. -/
theorem Best.mem_iff (h : Best key count l found)
    (hinj : ∀ a ∈ l, ∀ b ∈ l, key a = key b → a = b) {a : α} (ha : a ∈ l) :
    a ∈ found ↔ rank key l a < count := by
  constructor
  · intro hmem
    obtain ⟨i, hi⟩ := List.mem_iff_getElem?.mp hmem
    rw [(h.rank_eq hi).2]
    obtain ⟨_, _, _, _, hle, _⟩ := h
    exact Nat.lt_of_lt_of_le (List.getElem?_eq_some_iff.mp hi).1 hle
  · intro hlt
    exact List.mem_of_getElem? ((h.getElem?_iff hinj hlt).mpr ⟨ha, rfl⟩)

/-- As many elements are found as there may be, or all. -/
theorem Best.length_eq (h : Best key count l found) : found.length = min count l.length := by
  obtain ⟨rest, hperm, _, _, hle, hfull⟩ := h
  have hlength := hperm.length_eq
  rw [List.length_append] at hlength
  rcases hfull with hfull | hnone
  · omega
  · rw [hnone, List.length_nil] at hlength
    omega

end Ranking

end QrtEngine
