import QrtEngine.Library.ByteText

/-!
# Tags in Texts

Searching for a mark whose first character does not occur in it again, as that of a tag in
angle brackets. Such a mark cannot overlap itself, so a search finds it at the end of every
text that is free of it. And it is in two texts put together only if it is in one of them, or
reaches over the place where they meet. For that the second text has to begin with one of the
later characters of the mark.

So a writer that puts free texts between its marks can be read back, if what follows a text
begins with a character that no mark has inside.

## Main definitions

* `Free`: A pattern occurs nowhere in a text.
* `IsTag`: The first character of a pattern does not occur in it again.
* `countOccurs`: How often a pattern occurs in a text.

## Theorems

* `occurs_append`: The three places of a pattern in two texts put together.
* `free_append`: When two free texts put together are free.
* `free_append_cons`: A character outside the pattern keeps two free texts apart.
* `find_tag`: A tag is found at the end of a free text.
* `rfind_suffix`: A pattern at the end of a text is the last one in it.
* `countOccurs_free_append`, `countOccurs_tag`: Counting along a text.
-/

namespace QrtEngine

namespace ByteText

variable {s t u v pattern : List Char}

/-- A pattern occurs nowhere in a text. -/
def Free (pattern text : List Char) : Prop := ∀ u, ¬Occurs text pattern u

theorem find_eq_none_iff_free : find pattern s = none ↔ Free pattern s := find_eq_none_iff

instance decidableFree (pattern text : List Char) : Decidable (Free pattern text) :=
  decidable_of_iff (find pattern text = none) find_eq_none_iff_free

/-- The first character of a pattern does not occur in it again. -/
def IsTag : List Char → Prop
  | [] => False
  | c :: tail => c ∉ tail

instance decidableIsTag : (pattern : List Char) → Decidable (IsTag pattern)
  | [] => .isFalse not_false
  | c :: tail => inferInstanceAs (Decidable (c ∉ tail))

/-- A part of a free text is free. -/
theorem Free.sublist (h : Free pattern (u ++ (s ++ v))) : Free pattern s := by
  rintro w ⟨rest, rfl⟩
  exact h (u ++ w) ⟨rest ++ v, by simp only [List.append_assoc]⟩

theorem Free.isSuffix (h : Free pattern t) (hsuf : s <:+ t) : Free pattern s := by
  rcases hsuf with ⟨u, rfl⟩
  refine Free.sublist (u := u) (v := []) ?_
  rwa [List.append_nil]

/-- A text without the first character of a pattern is free of the pattern. -/
theorem free_of_not_mem (c : Char) (tail text : List Char) (h : c ∉ text) :
    Free (c :: tail) text := by
  rintro w ⟨rest, rfl⟩
  exact h (by simp)

/-- The places of a pattern in two texts put together: in the first, in the second, or over
    the place where they meet. -/
theorem occurs_append (h : Occurs (s ++ t) pattern u) :
    Occurs s pattern u ∨ (∃ w, u = s ++ w ∧ Occurs t pattern w) ∨
      ∃ a b, a ≠ [] ∧ b ≠ [] ∧ pattern = a ++ b ∧ s = u ++ a ∧ b <+: t := by
  rcases h with ⟨rest, hsplit⟩
  rcases List.append_eq_append_iff.mp hsplit with ⟨w, rfl, ht⟩ | ⟨r, rfl, hr⟩
  · exact .inr (.inl ⟨w, rfl, rest, ht⟩)
  -- The pattern begins in the first text, and either ends there or not.
  · rcases List.append_eq_append_iff.mp hr with ⟨b, hr', rfl⟩ | ⟨b, hpattern, ht⟩
    · exact .inl ⟨b, by rw [hr']⟩
    · cases r with
      | nil => exact .inr (.inl ⟨[], by simp, rest, by rw [ht, hpattern]; simp⟩)
      | cons c r =>
          cases b with
          | nil => exact .inl ⟨[], by rw [hpattern]; simp⟩
          | cons d b =>
              refine .inr (.inr ⟨c :: r, d :: b, by simp, by simp, hpattern, rfl, ?_⟩)
              exact ⟨rest, ht.symm⟩

/-- If the second text begins with no later character of the pattern, no occurrence reaches
    over the place where they meet. -/
theorem occurs_append_of_meet (h : Occurs (s ++ t) pattern u)
    (hmeet : ∀ c, t.head? = some c → c ∉ pattern.tail) :
    Occurs s pattern u ∨ ∃ w, u = s ++ w ∧ Occurs t pattern w := by
  rcases occurs_append h with h | h | ⟨a, b, ha, hb, hpattern, -, hpre⟩
  · exact .inl h
  · exact .inr h
  · -- The second text would begin with a character from inside the pattern.
    cases a with
    | nil => exact absurd rfl ha
    | cons c a =>
        cases b with
        | nil => exact absurd rfl hb
        | cons d b =>
            rcases hpre with ⟨rest, rfl⟩
            refine absurd ?_ (hmeet d rfl)
            rw [hpattern, List.cons_append, List.tail_cons]
            exact List.mem_append_right a List.mem_cons_self

/-- Two free texts put together are free, if the second begins with no later character of the
    pattern. -/
theorem free_append (hs : Free pattern s) (ht : Free pattern t)
    (hmeet : ∀ c, t.head? = some c → c ∉ pattern.tail) : Free pattern (s ++ t) := by
  intro w hw
  rcases occurs_append_of_meet hw hmeet with hw | ⟨w', -, hw⟩
  · exact hs w hw
  · exact ht w' hw

/-- A character that a pattern does not have cuts a text in two: no occurrence reaches over
    it. -/
theorem free_append_cons (c : Char) (hc : c ∉ pattern) (hs : Free pattern s)
    (ht : Free pattern t) : Free pattern (s ++ c :: t) := by
  have hmem : pattern ≠ [] := fun hnil => hs [] (by rw [hnil]; exact ⟨s, rfl⟩)
  have hct : Free pattern ([c] ++ t) := by
    intro w hw
    rcases occurs_append hw with ⟨rest, hw⟩ | ⟨w', -, hw⟩ | ⟨a, b, ha, -, hpattern, hcut, -⟩
    · -- The pattern would be in the one character.
      cases pattern with
      | nil => exact hmem rfl
      | cons d pattern =>
          refine hc (List.mem_cons.mpr (.inl ?_))
          have hd : d ∈ [c] := by
            rw [hw]
            exact List.mem_append_right w (List.mem_append_left rest List.mem_cons_self)
          exact (List.mem_singleton.mp hd).symm
    · exact ht w' hw
    · refine hc ?_
      rw [hpattern]
      cases a with
      | nil => exact absurd rfl ha
      | cons d a =>
          have hd : d ∈ [c] := by
            rw [hcut]
            exact List.mem_append_right w List.mem_cons_self
          rw [List.mem_singleton.mp hd]
          exact List.mem_append_left b List.mem_cons_self
  refine free_append hs hct fun d hd htail => ?_
  cases Option.some.inj hd
  exact hc (List.mem_of_mem_tail htail)

/-- A text that begins like a pattern but goes on differently is free of it, if the first
    character does not come again. -/
theorem free_of_second (c d e : Char) (tail text : List Char) (hne : d ≠ e)
    (hc : c ∉ e :: text) : Free (c :: d :: tail) (c :: e :: text) := by
  rintro w ⟨rest, hsplit⟩
  cases w with
  | nil =>
      rw [List.nil_append, List.cons_append, List.cons_append] at hsplit
      exact hne (List.cons.inj (List.cons.inj hsplit).2).1.symm
  | cons a w =>
      refine hc ?_
      rw [(List.cons.inj (hsplit.trans (List.cons_append ..))).2]
      simp

/-- A pattern is found at the end of a text before which it does not occur. -/
theorem find_of_least (h : ∀ w, Occurs (u ++ (pattern ++ v)) pattern w → byteLen u ≤ byteLen w) :
    find pattern (u ++ (pattern ++ v)) = some (byteLen u) := by
  cases hfind : find pattern (u ++ (pattern ++ v)) with
  | none => exact absurd ⟨v, rfl⟩ (find_eq_none_iff.mp hfind u)
  | some n =>
      rcases find_spec hfind with ⟨w, hw, rfl, hmin⟩
      have hle := hmin u ⟨v, rfl⟩
      have hge := h w hw
      rw [show byteLen w = byteLen u by omega]

/-- A tag is found at the end of a free text. -/
theorem find_tag (htag : IsTag pattern) (hu : Free pattern u) :
    find pattern (u ++ (pattern ++ v)) = some (byteLen u) := by
  refine find_of_least fun w hw => ?_
  rcases occurs_append hw with hw | ⟨w', rfl, -⟩ | ⟨a, b, ha, hb, hpattern, -, hpre⟩
  · exact absurd hw (hu w)
  · rw [byteLen_append]
    exact Nat.le_add_right _ _
  · -- The rest of one tag would be the beginning of another.
    cases a with
    | nil => exact absurd rfl ha
    | cons c a =>
        cases b with
        | nil => exact absurd rfl hb
        | cons d b =>
            rw [hpattern, List.cons_append] at htag
            rw [hpattern, List.cons_append, List.cons_append, List.cons_prefix_cons] at hpre
            refine absurd ?_ htag
            rw [← hpre.1]
            exact List.mem_append_right a List.mem_cons_self

/-- A pattern at the end of a text is the last one in it. -/
theorem rfind_suffix (u pattern : List Char) :
    rfind pattern (u ++ pattern) = some (byteLen u) := by
  have hat : Occurs (u ++ pattern) pattern u := ⟨[], by rw [List.append_nil]⟩
  cases hfind : rfind pattern (u ++ pattern) with
  | none => exact absurd hat (rfind_eq_none_iff.mp hfind u)
  | some n =>
      rcases rfind_spec hfind with ⟨w, hw, rfl, hmax⟩
      have hle := hmax u hat
      have hge := hw.byteLen_le
      rw [byteLen_append] at hge
      rw [show byteLen w = byteLen u by omega]

/-! ## Counting -/

/-- How often a pattern occurs in a text. -/
def countOccurs (pattern : List Char) : List Char → Nat
  | [] => 0
  | c :: s => (if pattern.isPrefixOf (c :: s) then 1 else 0) + countOccurs pattern s

/-- A free text in front of one that begins with no later character of the pattern adds
    nothing to the count. -/
theorem countOccurs_free_append (hs : Free pattern s)
    (hmeet : ∀ c, t.head? = some c → c ∉ pattern.tail) :
    countOccurs pattern (s ++ t) = countOccurs pattern t := by
  induction s with
  | nil => rfl
  | cons c s ih =>
      rw [List.cons_append, countOccurs, ih (hs.isSuffix (List.suffix_cons c s)), if_neg ?_,
        Nat.zero_add]
      intro hpre
      have hoccurs : Occurs ((c :: s) ++ t) pattern [] :=
        occurs_nil_iff.mpr (List.isPrefixOf_iff_prefix.mp hpre)
      rcases occurs_append_of_meet hoccurs hmeet with hw | ⟨w, hw, -⟩
      · exact hs [] hw
      · exact nomatch hw

/-- A text without the first character of the pattern adds nothing to the count. -/
theorem countOccurs_not_mem_append (c : Char) (tail s t : List Char) (h : c ∉ s) :
    countOccurs (c :: tail) (s ++ t) = countOccurs (c :: tail) t := by
  induction s with
  | nil => rfl
  | cons d s ih =>
      rw [List.mem_cons, not_or] at h
      rw [List.cons_append, countOccurs, ih h.2, if_neg ?_, Nat.zero_add]
      intro hpre
      exact h.1 (List.cons_prefix_cons.mp (List.isPrefixOf_iff_prefix.mp hpre)).1

/-- A tag counts once. -/
theorem countOccurs_tag (htag : IsTag pattern) (t : List Char) :
    countOccurs pattern (pattern ++ t) = countOccurs pattern t + 1 := by
  cases pattern with
  | nil => exact absurd htag not_false
  | cons c tail =>
      rw [List.cons_append, countOccurs, countOccurs_not_mem_append c tail tail t htag, if_pos ?_,
        Nat.add_comm]
      exact List.isPrefixOf_iff_prefix.mpr (List.prefix_append (c :: tail) t)

end ByteText

end QrtEngine
