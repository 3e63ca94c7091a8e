import QrtEngine.Library.Json

/-!
# The Order of Object Members

Two values that differ only in the order in which the members of their objects are iterated
are the same value. `Reorders` is that relation: members change places, at any depth. Sorting
the members by their keys picks one of all these values, if no key occurs twice in an object,
and so a writer that sorts first writes them all alike.

## Main definitions

* `Value.Distinct`: No key occurs twice in an object.
* `Value.Reorders`: The members of some objects have changed places.
* `sortEntries`: Members sorted by their keys.
* `Value.sorted`: All objects with their members sorted.

## Theorems

* `sortEntries_eq_of_perm`: Members with different keys have one sorted order.
* `sorted_ordered`: Sorted, the keys are increasing.
* `reorders_sorted`: Sorting is a change of places.
* `sorted_of_ordered`: A value with its keys in order is left alone.
-/

namespace QrtEngine

namespace Json

variable {F : Type}

/-- No key occurs twice in an object. -/
inductive Value.Distinct : Value F → Prop where
  | null : Distinct .null
  | bool (b : Bool) : Distinct (.bool b)
  | int (n : Integer) : Distinct (.int n)
  | float (x : F) : Distinct (.float x)
  | string (s : List Char) : Distinct (.string s)
  | array (values : List (Value F)) (h : ∀ v ∈ values, Distinct v) : Distinct (.array values)
  | object (entries : List (List Char × Value F)) (hkeys : (keys entries).Nodup)
      (h : ∀ e ∈ entries, Distinct e.2) : Distinct (.object entries)

/-- The members of some objects have changed places. -/
inductive Value.Reorders : Value F → Value F → Prop where
  | refl (v : Value F) : Reorders v v
  | trans (u v w : Value F) (huv : Reorders u v) (hvw : Reorders v w) : Reorders u w
  | element (before after : List (Value F)) (v w : Value F) (h : Reorders v w) :
      Reorders (.array (before ++ v :: after)) (.array (before ++ w :: after))
  | member (before after : List (List Char × Value F)) (key : List Char) (v w : Value F)
      (h : Reorders v w) :
      Reorders (.object (before ++ (key, v) :: after)) (.object (before ++ (key, w) :: after))
  | places (entries entries' : List (List Char × Value F)) (h : entries.Perm entries') :
      Reorders (.object entries) (.object entries')

/-! ## Sorting members -/

section Members

variable {α β : Type}

/-- Members sorted by their keys. -/
def sortEntries (entries : List (List Char × α)) : List (List Char × α) :=
  entries.insertionSort fun left right => left.1 ≤ right.1

theorem sortEntries_perm (entries : List (List Char × α)) : (sortEntries entries).Perm entries :=
  List.perm_insertionSort _ entries

/-- Sorting looks at the keys only. -/
theorem sortEntries_map (f : α → β) (entries : List (List Char × α)) :
    sortEntries (entries.map fun e => (e.1, f e.2)) =
      (sortEntries entries).map fun e => (e.1, f e.2) := by
  unfold sortEntries
  rw [List.map_insertionSort (r := fun left right : List Char × α => left.1 ≤ right.1)
    (s := fun left right : List Char × β => left.1 ≤ right.1) _ _ fun a _ b _ => Iff.rfl]

instance totalKeys : Std.Total fun left right : List Char × α => left.1 ≤ right.1 :=
  ⟨fun left right => le_total left.1 right.1⟩

instance transKeys : IsTrans (List Char × α) fun left right => left.1 ≤ right.1 :=
  ⟨fun _ _ _ h h' => le_trans h h'⟩

theorem sortEntries_pairwise (entries : List (List Char × α)) :
    (sortEntries entries).Pairwise fun left right => left.1 ≤ right.1 :=
  List.pairwise_insertionSort _ entries

/-- Sorted members with different keys have increasing keys. -/
theorem sortEntries_increasing (entries : List (List Char × α))
    (h : (entries.map Prod.fst).Nodup) :
    ((sortEntries entries).map Prod.fst).Pairwise (· < ·) := by
  have hle : ((sortEntries entries).map Prod.fst).Pairwise (· ≤ ·) :=
    List.pairwise_map.mpr (sortEntries_pairwise entries)
  have hne : ((sortEntries entries).map Prod.fst).Nodup :=
    ((sortEntries_perm entries).map Prod.fst).nodup_iff.mpr h
  exact List.Pairwise.imp₂ (fun _ _ hle hne => lt_of_le_of_ne hle hne) hle hne

theorem sortEntries_of_increasing (entries : List (List Char × α))
    (h : (entries.map Prod.fst).Pairwise (· < ·)) : sortEntries entries = entries := by
  refine List.Pairwise.insertionSort_eq ?_
  exact (List.pairwise_map.mp h).imp fun hlt => le_of_lt hlt

/-- Members with different keys have one sorted order. -/
theorem sortEntries_eq_of_perm (entries entries' : List (List Char × α))
    (hperm : entries.Perm entries') (h : (entries.map Prod.fst).Nodup) :
    sortEntries entries = sortEntries entries' := by
  have hsorted : (sortEntries entries).Perm (sortEntries entries') :=
    (sortEntries_perm entries).trans (hperm.trans (sortEntries_perm entries').symm)
  refine List.Perm.eq_of_pairwise ?_ (sortEntries_pairwise entries)
    (sortEntries_pairwise entries') hsorted
  -- Two members with equal keys are one.
  intro a b ha hb hab hba
  have ha' := (sortEntries_perm entries).mem_iff.mp ha
  have hb' := hperm.mem_iff.mpr ((sortEntries_perm entries').mem_iff.mp hb)
  exact List.inj_on_of_nodup_map h ha' hb' (le_antisymm hab hba)

end Members

mutual

/-- A value with the members of all its objects sorted. -/
def Value.sorted : Value F → Value F
  | .null => .null
  | .bool b => .bool b
  | .int n => .int n
  | .float x => .float x
  | .string s => .string s
  | .array values => .array (sortedList values)
  | .object entries => .object (sortEntries (sortedEntries entries))

/-- The elements, with the members of their objects sorted. -/
def sortedList : List (Value F) → List (Value F)
  | [] => []
  | v :: values => v.sorted :: sortedList values

/-- The members, with the members of the objects in their values sorted. -/
def sortedEntries : List (List Char × Value F) → List (List Char × Value F)
  | [] => []
  | (key, v) :: entries => (key, v.sorted) :: sortedEntries entries

end

theorem sortedList_eq_map (values : List (Value F)) :
    sortedList values = values.map Value.sorted := by
  induction values with
  | nil => rfl
  | cons v values ih => rw [sortedList, List.map_cons, ih]

theorem sortedEntries_eq_map (entries : List (List Char × Value F)) :
    sortedEntries entries = entries.map fun e => (e.1, e.2.sorted) := by
  induction entries with
  | nil => rfl
  | cons e entries ih => rw [sortedEntries, List.map_cons, ih]

theorem keys_map (entries : List (List Char × Value F)) (f : Value F → Value F) :
    (entries.map fun e => (e.1, f e.2)).map Prod.fst = keys entries := by
  unfold keys
  rw [List.map_map]
  rfl

/-- Sorted, the keys are increasing. -/
theorem sorted_ordered (v : Value F) (h : v.Distinct) : v.sorted.Ordered := by
  induction v with
  | null => exact .null
  | bool b => exact .bool b
  | int n => exact .int n
  | float x => exact .float x
  | string s => exact .string s
  | array values ih =>
      cases h with
      | array _ hvalues =>
          rw [Value.sorted, sortedList_eq_map]
          refine .array _ fun w hw => ?_
          rcases List.mem_map.mp hw with ⟨v, hv, rfl⟩
          exact ih v hv (hvalues v hv)
  | object entries ih =>
      cases h with
      | object _ hkeys hentries =>
          rw [Value.sorted, sortedEntries_eq_map]
          refine .object _ (sortEntries_increasing _ ?_) fun e he => ?_
          · rw [keys_map]
            exact hkeys
          · have he' := (sortEntries_perm _).mem_iff.mp he
            rcases List.mem_map.mp he' with ⟨e₀, he₀, rfl⟩
            exact ih e₀ he₀ (hentries e₀ he₀)

/-- A value with its keys in order is left alone. -/
theorem sorted_of_ordered (v : Value F) (h : v.Ordered) : v.sorted = v := by
  induction v with
  | null => rfl
  | bool b => rfl
  | int n => rfl
  | float x => rfl
  | string s => rfl
  | array values ih =>
      cases h with
      | array _ hvalues =>
          rw [Value.sorted, sortedList_eq_map,
            List.map_congr_left fun v hv => ih v hv (hvalues v hv), List.map_id']
  | object entries ih =>
      cases h with
      | object _ hkeys hentries =>
          have hsame : sortedEntries entries = entries := by
            rw [sortedEntries_eq_map]
            calc entries.map (fun e => (e.1, e.2.sorted))
                = entries.map id := List.map_congr_left fun e he =>
                  Prod.ext rfl (ih e he (hentries e he))
              _ = entries := List.map_id entries
          rw [Value.sorted, hsame, sortEntries_of_increasing entries hkeys]

/-! ## Changing places -/

theorem reorders_elements (f : Value F → Value F) (before values : List (Value F))
    (h : ∀ v ∈ values, Value.Reorders v (f v)) :
    Value.Reorders (.array (before ++ values)) (.array (before ++ values.map f)) := by
  induction values generalizing before with
  | nil => exact .refl _
  | cons v values ih =>
      -- The first element changes, and then it stands with those before.
      have hrest := ih (before ++ [f v]) fun w hw => h w (List.mem_cons_of_mem v hw)
      rw [List.append_assoc, List.append_assoc] at hrest
      exact .trans _ _ _ (.element before values v (f v) (h v List.mem_cons_self)) hrest

theorem reorders_members (f : Value F → Value F) (before entries : List (List Char × Value F))
    (h : ∀ e ∈ entries, Value.Reorders e.2 (f e.2)) :
    Value.Reorders (.object (before ++ entries))
      (.object (before ++ entries.map fun e => (e.1, f e.2))) := by
  induction entries generalizing before with
  | nil => exact .refl _
  | cons e entries ih =>
      have hrest := ih (before ++ [(e.1, f e.2)]) fun e' he' => h e' (List.mem_cons_of_mem e he')
      rw [List.append_assoc, List.append_assoc] at hrest
      exact .trans _ _ _ (.member before entries e.1 e.2 (f e.2) (h e List.mem_cons_self)) hrest

/-- Sorting is a change of places. -/
theorem reorders_sorted (v : Value F) : v.Reorders v.sorted := by
  induction v with
  | null => exact .refl _
  | bool b => exact .refl _
  | int n => exact .refl _
  | float x => exact .refl _
  | string s => exact .refl _
  | array values ih =>
      rw [Value.sorted, sortedList_eq_map]
      exact reorders_elements Value.sorted [] values ih
  | object entries ih =>
      rw [Value.sorted, sortedEntries_eq_map]
      exact .trans _ _ _ (reorders_members Value.sorted [] entries ih)
        (.places _ _ (sortEntries_perm _).symm)

/-- Different keys stay different when members change places. -/
theorem Value.Reorders.distinct {v w : Value F} (h : v.Reorders w) (hv : v.Distinct) :
    w.Distinct := by
  induction h with
  | refl v => exact hv
  | trans u v w _ _ ihuv ihvw => exact ihvw (ihuv hv)
  | element before after v w _ ih =>
      cases hv with
      | array _ hvalues =>
          refine .array _ fun u hu => ?_
          rcases List.mem_append.mp hu with hu | hu
          · exact hvalues u (List.mem_append_left _ hu)
          · rcases List.mem_cons.mp hu with rfl | hu
            · exact ih (hvalues v (List.mem_append_right _ List.mem_cons_self))
            · exact hvalues u (List.mem_append_right _ (List.mem_cons_of_mem v hu))
  | member before after key v w _ ih =>
      cases hv with
      | object _ hkeys hentries =>
          refine .object _ ?_ fun e he => ?_
          · simp only [keys, List.map_append, List.map_cons] at hkeys ⊢
            exact hkeys
          · rcases List.mem_append.mp he with he | he
            · exact hentries e (List.mem_append_left _ he)
            · rcases List.mem_cons.mp he with rfl | he
              · exact ih (hentries (key, v) (List.mem_append_right _ List.mem_cons_self))
              · exact hentries e (List.mem_append_right _ (List.mem_cons_of_mem (key, v) he))
  -- Members that change places keep their keys.
  | places entries entries' hperm =>
      cases hv with
      | object _ hkeys hentries =>
          exact .object _ ((hperm.map Prod.fst).nodup_iff.mp hkeys)
            fun e he => hentries e (hperm.mem_iff.mpr he)

end Json

end QrtEngine
