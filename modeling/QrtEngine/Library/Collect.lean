import Mathlib.Data.Finset.Card

/-!
# Collecting without Repetition

Values are collected into a list of limited length: a value that is there already is passed over,
and a new one goes to the end. The values can be handed over in pieces. Collecting fails when a new
value finds the list full, and since nothing is ever collected twice, that is when there are more
different values than the list can hold.

## Main definitions

* `collect`: Append what is not there yet.

## Theorems

* `collect_append`: Values handed over in two pieces.
* `mem_collect`, `nodup_collect`, `length_collect_le`: What has been collected.
* `collect_eq_none_iff`: When there is no room.
-/

namespace QrtEngine

variable {α : Type*} [DecidableEq α]

/-- Append the values that are not there yet, failing when a new one finds no room. -/
def collect (capacity : Nat) : List α → List α → Option (List α)
  | found, [] => some found
  | found, value :: values =>
      if value ∈ found then collect capacity found values
      else if found.length < capacity then collect capacity (found ++ [value]) values
      else none

variable {capacity : Nat} {found values values' result : List α}

/-- Values handed over in two pieces. -/
theorem collect_append :
    collect capacity found (values ++ values') =
      (collect capacity found values).bind fun result => collect capacity result values' := by
  induction values generalizing found with
  | nil => rfl
  | cons value values ih =>
      rw [List.cons_append, collect, collect]
      split_ifs with hfound hroom
      · exact ih
      · exact ih
      · rfl

theorem mem_collect (h : collect capacity found values = some result) {x : α} :
    x ∈ result ↔ x ∈ found ∨ x ∈ values := by
  induction values generalizing found with
  | nil =>
      obtain rfl := Option.some.inj h
      simp
  | cons value values ih =>
      rw [collect] at h
      split_ifs at h with hfound hroom
      · rw [ih h, List.mem_cons]
        constructor
        · tauto
        · rintro (hx | rfl | hx)
          · exact Or.inl hx
          · exact Or.inl hfound
          · exact Or.inr hx
      · rw [ih h, List.mem_append, List.mem_singleton, List.mem_cons, or_assoc]

omit [DecidableEq α] in
/-- A value that is not there yet, at the end of a list without repetition. -/
theorem nodup_append_new {value : α} (hnew : value ∉ found) (hfound : found.Nodup) :
    (found ++ [value]).Nodup := by
  rw [← List.concat_eq_append]
  exact hfound.concat hnew

theorem nodup_collect (h : collect capacity found values = some result) (hfound : found.Nodup) :
    result.Nodup := by
  induction values generalizing found with
  | nil =>
      obtain rfl := Option.some.inj h
      exact hfound
  | cons value values ih =>
      rw [collect] at h
      split_ifs at h with hmem hroom
      · exact ih h hfound
      · exact ih h (nodup_append_new hmem hfound)

theorem length_collect_le (h : collect capacity found values = some result)
    (hfits : found.length ≤ capacity) : result.length ≤ capacity := by
  induction values generalizing found with
  | nil =>
      obtain rfl := Option.some.inj h
      exact hfits
  | cons value values ih =>
      rw [collect] at h
      split_ifs at h with hmem hroom
      · exact ih h hfits
      · refine ih h ?_
        rw [List.length_append, List.length_singleton]
        omega

/-- What is left when there is no room: a full list without repetition, and a new value. -/
theorem lt_card_of_collect_eq_none (h : collect capacity found values = none)
    (hfound : found.Nodup) : capacity < (found ++ values).toFinset.card := by
  induction values generalizing found with
  | nil => cases h
  | cons value values ih =>
      rw [collect] at h
      split_ifs at h with hmem hroom
      · refine (ih h hfound).trans_le (Finset.card_le_card ?_)
        intro x hx
        simp only [List.mem_toFinset, List.mem_append, List.mem_cons] at hx ⊢
        tauto
      · have hrest := ih h (nodup_append_new hmem hfound)
        rw [List.append_assoc, List.singleton_append] at hrest
        exact hrest
      · have hsub : (found ++ [value]).toFinset ⊆ (found ++ value :: values).toFinset := by
          intro x hx
          simp only [List.mem_toFinset, List.mem_append, List.mem_cons, List.not_mem_nil] at hx ⊢
          tauto
        have hcard := Finset.card_le_card hsub
        rw [List.toFinset_card_of_nodup (nodup_append_new hmem hfound), List.length_append,
          List.length_singleton] at hcard
        omega

/-- There is no room exactly when there are more different values than the list can hold. -/
theorem collect_eq_none_iff (hfound : found.Nodup) (hfits : found.length ≤ capacity) :
    collect capacity found values = none ↔ capacity < (found ++ values).toFinset.card := by
  constructor
  · intro h
    exact lt_card_of_collect_eq_none h hfound
  · intro hcard
    cases h : collect capacity found values with
    | none => rfl
    | some result =>
        -- What has been collected has all the values, and fits.
        have hset : (found ++ values).toFinset = result.toFinset := by
          ext x
          rw [List.mem_toFinset, List.mem_toFinset, List.mem_append, mem_collect h]
        rw [hset, List.toFinset_card_of_nodup (nodup_collect h hfound)] at hcard
        have := length_collect_le h hfits
        omega

end QrtEngine
