import Mathlib.Data.List.Infix
import Mathlib.Data.List.Basic

/-!
# Texts with Byte Offsets

Strings whose positions are byte offsets of their UTF-8 form. A text is the list of its
characters, each as wide as its encoding, so an offset is a character boundary exactly
when some prefix of the text has that many bytes.

A program that cuts strings works with offsets; a proof works with prefixes. `Occurs t p u`
says that the pattern `p` stands in `t` right after the prefix `u`, and the lemmas here
turn a search result into such a prefix and back. Prefixes of one text are ordered by
their byte lengths.

## Main definitions

* `byteLen`: The number of bytes of a text.
* `isCharBoundary`, `floorBoundary`: Boundaries, and the last one up to an offset.
* `takeBytes`, `dropBytes`: The two sides of an offset.
* `sliceFrom`, `sliceTo`, `slice`: The same, if every offset is a boundary in range.
* `find`, `rfind`: The offsets of the first and the last occurrence of a pattern.
* `Occurs`: A pattern right after a prefix.

## Theorems

* `takeBytes_append`, `dropBytes_append`: Cutting at the end of a prefix.
* `prefix_of_byteLen_le`: Prefixes of one text are ordered by their lengths.
* `sliceFrom_append`, `slice_append`: Slices at the ends of prefixes.
* `find_spec`, `find_eq_none_iff`, `rfind_spec`: What a search returns.
* `length_dropBytes_find`: What is left after an occurrence is shorter.
* `Occurs.restrict`: An occurrence that ends inside a prefix occurs in the prefix.
-/

namespace QrtEngine

namespace ByteText

/-- The number of bytes of a text. -/
def byteLen : List Char → Nat
  | [] => 0
  | c :: s => c.utf8Size + byteLen s

/-- Some prefix of the text has this many bytes. -/
def isCharBoundary : List Char → Nat → Bool
  | _, 0 => true
  | [], _ + 1 => false
  | c :: s, n + 1 => decide (c.utf8Size ≤ n + 1) && isCharBoundary s (n + 1 - c.utf8Size)

/-- The last boundary up to an offset. -/
def floorBoundary (s : List Char) : Nat → Nat
  | 0 => 0
  | n + 1 => if isCharBoundary s (n + 1) then n + 1 else floorBoundary s n

/-- The text up to an offset. -/
def takeBytes : Nat → List Char → List Char
  | _, [] => []
  | n, c :: s => if c.utf8Size ≤ n then c :: takeBytes (n - c.utf8Size) s else []

/-- The text from an offset on. -/
def dropBytes : Nat → List Char → List Char
  | _, [] => []
  | n, c :: s => if c.utf8Size ≤ n then dropBytes (n - c.utf8Size) s else c :: s

/-- The text from an offset on, if the offset is a boundary. -/
def sliceFrom (s : List Char) (n : Nat) : Option (List Char) :=
  if isCharBoundary s n then some (dropBytes n s) else none

/-- The text up to an offset, if the offset is a boundary. -/
def sliceTo (s : List Char) (n : Nat) : Option (List Char) :=
  if isCharBoundary s n then some (takeBytes n s) else none

/-- The text between two offsets, if they are boundaries and in order. -/
def slice (s : List Char) (m n : Nat) : Option (List Char) :=
  if m ≤ n ∧ isCharBoundary s m = true ∧ isCharBoundary s n = true then
    some (takeBytes (n - m) (dropBytes m s))
  else none

/-- The offset of the first occurrence of a pattern. -/
def find (pattern : List Char) : List Char → Option Nat
  | [] => if pattern.isPrefixOf [] then some 0 else none
  | c :: s => if pattern.isPrefixOf (c :: s) then some 0
      else (find pattern s).map (c.utf8Size + ·)

/-- The offset of the last occurrence of a pattern. -/
def rfind (pattern : List Char) : List Char → Option Nat
  | [] => if pattern.isPrefixOf [] then some 0 else none
  | c :: s =>
      match rfind pattern s with
      | some n => some (c.utf8Size + n)
      | none => if pattern.isPrefixOf (c :: s) then some 0 else none

/-- A pattern stands in the text right after a prefix. -/
def Occurs (text pattern u : List Char) : Prop := ∃ v, text = u ++ (pattern ++ v)

variable {s t u v pattern : List Char}

/-! ## Lengths -/

@[simp] theorem byteLen_nil : byteLen [] = 0 := rfl

@[simp] theorem byteLen_cons (c : Char) (s : List Char) :
    byteLen (c :: s) = c.utf8Size + byteLen s := rfl

@[simp] theorem byteLen_append (s t : List Char) : byteLen (s ++ t) = byteLen s + byteLen t := by
  induction s with
  | nil => simp only [List.nil_append, byteLen_nil, Nat.zero_add]
  | cons c s ih =>
      rw [List.cons_append, byteLen_cons, byteLen_cons, ih]
      omega

/-- Only the empty text has no bytes. -/
theorem eq_nil_of_byteLen (h : byteLen s = 0) : s = [] := by
  cases s with
  | nil => rfl
  | cons c s =>
      have hpos := c.utf8Size_pos
      rw [byteLen_cons] at h
      omega

theorem byteLen_le_of_isPrefix (h : u <+: t) : byteLen u ≤ byteLen t := by
  rcases h with ⟨r, rfl⟩
  rw [byteLen_append]
  exact Nat.le_add_right _ _

/-- Prefixes of one text are ordered by their lengths. -/
theorem prefix_of_byteLen_le (hu : u <+: t) (hv : v <+: t) (h : byteLen u ≤ byteLen v) :
    u <+: v := by
  rcases List.prefix_or_prefix_of_prefix hu hv with huv | hvu
  · exact huv
  -- The longer one was the shorter one all along, so nothing is left between them.
  · rcases hvu with ⟨r, rfl⟩
    rw [byteLen_append] at h
    have hr : r = [] := eq_nil_of_byteLen (by omega)
    rw [hr, List.append_nil]

theorem prefix_eq_of_byteLen_eq (hu : u <+: t) (hv : v <+: t) (h : byteLen u = byteLen v) :
    u = v := by
  rcases prefix_of_byteLen_le hu hv (Nat.le_of_eq h) with ⟨r, rfl⟩
  rw [byteLen_append] at h
  rw [eq_nil_of_byteLen (s := r) (by omega), List.append_nil]

/-- A prefix that is longer than another one has the character after it. -/
theorem prefix_concat_of_byteLen_lt {c : Char} (hu : u ++ [c] <+: t) (hv : v <+: t)
    (h : byteLen u < byteLen v) : u ++ [c] <+: v := by
  rcases List.prefix_or_prefix_of_prefix hu hv with huv | hvu
  · exact huv
  · rcases List.prefix_concat_iff.mp hvu with rfl | hle
    · exact List.prefix_refl _
    · exact absurd (byteLen_le_of_isPrefix hle) (Nat.not_le.mpr h)

/-! ## Cutting -/

@[simp] theorem takeBytes_append (u v : List Char) : takeBytes (byteLen u) (u ++ v) = u := by
  induction u with
  -- Every character has a byte at least, so none of `v` fits in an offset of zero.
  | nil =>
      cases v with
      | nil => rfl
      | cons c v =>
          have hpos := c.utf8Size_pos
          simp only [List.nil_append, byteLen_nil, takeBytes]
          rw [if_neg (by omega)]
  | cons c u ih =>
      simp only [List.cons_append, byteLen_cons, takeBytes]
      rw [if_pos (Nat.le_add_right _ _), Nat.add_sub_cancel_left, ih]

@[simp] theorem dropBytes_append (u v : List Char) : dropBytes (byteLen u) (u ++ v) = v := by
  induction u with
  | nil =>
      cases v with
      | nil => rfl
      | cons c v =>
          have hpos := c.utf8Size_pos
          simp only [List.nil_append, byteLen_nil, dropBytes]
          rw [if_neg (by omega)]
  | cons c u ih =>
      simp only [List.cons_append, byteLen_cons, dropBytes]
      rw [if_pos (Nat.le_add_right _ _), Nat.add_sub_cancel_left, ih]

theorem takeBytes_byteLen (s : List Char) : takeBytes (byteLen s) s = s := by
  have h := takeBytes_append s []
  rw [List.append_nil] at h
  exact h

theorem takeBytes_isPrefix (n : Nat) (s : List Char) : takeBytes n s <+: s := by
  induction s generalizing n with
  | nil => exact List.prefix_refl []
  | cons c s ih =>
      unfold takeBytes
      by_cases h : c.utf8Size ≤ n
      · rw [if_pos h]
        exact (List.prefix_cons_inj c).mpr (ih _)
      · rw [if_neg h]
        exact List.nil_prefix

theorem dropBytes_isSuffix (n : Nat) (s : List Char) : dropBytes n s <:+ s := by
  induction s generalizing n with
  | nil => exact List.suffix_refl _
  | cons c s ih =>
      unfold dropBytes
      split_ifs
      · exact (ih _).trans (List.suffix_cons c s)
      · exact List.suffix_refl _

theorem byteLen_takeBytes_le (n : Nat) (s : List Char) : byteLen (takeBytes n s) ≤ n := by
  induction s generalizing n with
  | nil => exact Nat.zero_le n
  | cons c s ih =>
      unfold takeBytes
      by_cases h : c.utf8Size ≤ n
      · rw [if_pos h, byteLen_cons]
        have hrest := ih (n - c.utf8Size)
        omega
      · rw [if_neg h]
        exact Nat.zero_le n

theorem floorBoundary_le (s : List Char) (n : Nat) : floorBoundary s n ≤ n := by
  induction n with
  | zero => exact Nat.le_refl 0
  | succ n ih =>
      unfold floorBoundary
      by_cases h : isCharBoundary s (n + 1) = true
      · rw [if_pos h]
      · rw [if_neg h]
        exact Nat.le_succ_of_le ih

/-- A prefix with few enough bytes is kept by a cut. -/
theorem isPrefix_takeBytes {n : Nat} (hu : u <+: s) (h : byteLen u ≤ n) : u <+: takeBytes n s := by
  induction u generalizing s n with
  | nil => exact List.nil_prefix
  | cons c u ih =>
      rcases hu with ⟨r, rfl⟩
      rw [byteLen_cons] at h
      rw [List.cons_append, takeBytes, if_pos (by omega)]
      exact (List.prefix_cons_inj c).mpr (ih (List.prefix_append u r) (by omega))

/-! ## Slices -/

theorem isCharBoundary_append (u v : List Char) : isCharBoundary (u ++ v) (byteLen u) = true := by
  induction u with
  | nil => cases v <;> rfl
  | cons c u ih =>
      rw [List.cons_append, byteLen_cons]
      -- The offset is past the first character, so it is a successor.
      cases hn : c.utf8Size + byteLen u with
      | zero =>
          have hpos := c.utf8Size_pos
          omega
      | succ n =>
          rw [isCharBoundary, show n + 1 - c.utf8Size = byteLen u by omega, ih, Bool.and_true,
            decide_eq_true_eq]
          omega

/-- The last boundary up to an offset is not before the end of a prefix that fits. -/
theorem byteLen_le_floorBoundary {n : Nat} (hu : u <+: s) (h : byteLen u ≤ n) :
    byteLen u ≤ floorBoundary s n := by
  induction n with
  | zero => exact h
  | succ n ih =>
      unfold floorBoundary
      by_cases hbound : isCharBoundary s (n + 1) = true
      · rw [if_pos hbound]
        exact h
      · rw [if_neg hbound]
        refine ih (Nat.le_of_lt_succ (Nat.lt_of_le_of_ne h fun heq => hbound ?_))
        rcases hu with ⟨r, rfl⟩
        have hlen : n + 1 = byteLen u := heq.symm
        rw [hlen]
        exact isCharBoundary_append u r

/-- A boundary is the end of a prefix. -/
theorem exists_of_isCharBoundary {n : Nat} (h : isCharBoundary s n = true) :
    ∃ u v, s = u ++ v ∧ byteLen u = n := by
  induction s generalizing n with
  | nil =>
      cases n with
      | zero => exact ⟨[], [], rfl, rfl⟩
      | succ n => exact absurd h (by simp [isCharBoundary])
  | cons c s ih =>
      cases n with
      | zero => exact ⟨[], c :: s, rfl, rfl⟩
      | succ n =>
          rw [isCharBoundary, Bool.and_eq_true, decide_eq_true_eq] at h
          rcases ih h.2 with ⟨u, v, rfl, hlen⟩
          refine ⟨c :: u, v, rfl, ?_⟩
          rw [byteLen_cons]
          omega

@[simp] theorem sliceFrom_append (u v : List Char) : sliceFrom (u ++ v) (byteLen u) = some v := by
  rw [sliceFrom, if_pos (isCharBoundary_append u v), dropBytes_append]

@[simp] theorem sliceTo_append (u v : List Char) : sliceTo (u ++ v) (byteLen u) = some u := by
  rw [sliceTo, if_pos (isCharBoundary_append u v), takeBytes_append]

theorem slice_append (u v w : List Char) :
    slice (u ++ (v ++ w)) (byteLen u) (byteLen u + byteLen v) = some v := by
  have hright : isCharBoundary (u ++ (v ++ w)) (byteLen u + byteLen v) = true := by
    rw [← List.append_assoc, ← byteLen_append]
    exact isCharBoundary_append (u ++ v) w
  rw [slice, if_pos ⟨Nat.le_add_right _ _, isCharBoundary_append u _, hright⟩,
    dropBytes_append, Nat.add_sub_cancel_left, takeBytes_append]

/-- A slice from an offset on leaves out as many bytes. -/
theorem byteLen_sliceFrom {n : Nat} (h : sliceFrom s n = some t) : n + byteLen t = byteLen s := by
  unfold sliceFrom at h
  by_cases hbound : isCharBoundary s n = true
  · rcases exists_of_isCharBoundary hbound with ⟨u, v, rfl, rfl⟩
    rw [if_pos hbound, dropBytes_append, Option.some.injEq] at h
    rw [h, byteLen_append]
  · rw [if_neg hbound] at h
    exact absurd h (by simp)

/-! ## Searching -/

theorem Occurs.before (h : Occurs t pattern u) : u <+: t := by
  rcases h with ⟨v, rfl⟩
  exact List.prefix_append u _

/-- An occurrence ends inside the text. -/
theorem Occurs.byteLen_le (h : Occurs t pattern u) :
    byteLen u + byteLen pattern ≤ byteLen t := by
  rcases h with ⟨v, rfl⟩
  simp only [byteLen_append]
  omega

theorem Occurs.extend (h : Occurs s pattern u) (hst : s <+: t) : Occurs t pattern u := by
  rcases h with ⟨v, rfl⟩
  rcases hst with ⟨r, rfl⟩
  exact ⟨v ++ r, by simp only [List.append_assoc]⟩

/-- An occurrence that ends inside a prefix occurs in the prefix. -/
theorem Occurs.restrict (h : Occurs t pattern u) (hst : s <+: t)
    (hle : byteLen u + byteLen pattern ≤ byteLen s) : Occurs s pattern u := by
  rcases h with ⟨v, rfl⟩
  -- Prefix and pattern together are one prefix of the text, short enough for `s`.
  have hpre : u ++ pattern <+: s := by
    refine prefix_of_byteLen_le ?_ hst (by rw [byteLen_append]; exact hle)
    exact ⟨v, by rw [List.append_assoc]⟩
  rcases hpre with ⟨r, rfl⟩
  exact ⟨r, by rw [List.append_assoc]⟩

theorem occurs_nil_iff : Occurs t pattern [] ↔ pattern <+: t := by
  constructor
  · rintro ⟨v, rfl⟩
    exact List.prefix_append pattern v
  · rintro ⟨v, rfl⟩
    exact ⟨v, rfl⟩

theorem occurs_cons_iff (c d : Char) :
    Occurs (c :: s) pattern (d :: u) ↔ d = c ∧ Occurs s pattern u := by
  constructor
  · rintro ⟨v, h⟩
    rw [List.cons_append, List.cons.injEq] at h
    exact ⟨h.1.symm, v, h.2⟩
  · rintro ⟨rfl, v, rfl⟩
    exact ⟨v, rfl⟩

/-- A search that succeeds returns the length of the shortest prefix the pattern follows. -/
theorem find_spec {n : Nat} (h : find pattern s = some n) :
    ∃ u, Occurs s pattern u ∧ byteLen u = n ∧
      ∀ u', Occurs s pattern u' → byteLen u ≤ byteLen u' := by
  induction s generalizing n with
  | nil =>
      unfold find at h
      by_cases hpre : pattern.isPrefixOf [] = true
      · rw [if_pos hpre, Option.some.injEq] at h
        exact ⟨[], occurs_nil_iff.mpr (List.isPrefixOf_iff_prefix.mp hpre), h,
          fun u' _ => Nat.zero_le _⟩
      · rw [if_neg hpre] at h
        exact absurd h (by simp only [reduceCtorEq, not_false_eq_true])
  | cons c s ih =>
      unfold find at h
      by_cases hpre : pattern.isPrefixOf (c :: s) = true
      · rw [if_pos hpre, Option.some.injEq] at h
        exact ⟨[], occurs_nil_iff.mpr (List.isPrefixOf_iff_prefix.mp hpre), h,
          fun u' _ => Nat.zero_le _⟩
      · rw [if_neg hpre, Option.map_eq_some_iff] at h
        rcases h with ⟨m, hm, rfl⟩
        rcases ih hm with ⟨u, hu, rfl, hmin⟩
        refine ⟨c :: u, (occurs_cons_iff c c).mpr ⟨rfl, hu⟩, rfl, ?_⟩
        intro u' hu'
        -- An occurrence right at the start was excluded by the failed comparison.
        cases u' with
        | nil => exact absurd (List.isPrefixOf_iff_prefix.mpr (occurs_nil_iff.mp hu')) hpre
        | cons d u' =>
            rcases (occurs_cons_iff c d).mp hu' with ⟨rfl, hu''⟩
            have hle := hmin u' hu''
            rw [byteLen_cons, byteLen_cons]
            omega

/-- A search fails exactly when the pattern occurs nowhere. -/
theorem find_eq_none_iff : find pattern s = none ↔ ∀ u, ¬Occurs s pattern u := by
  constructor
  · intro h u hu
    induction s generalizing u with
    | nil =>
        unfold find at h
        have hnil : u = [] := List.prefix_nil.mp hu.before
        subst hnil
        rw [if_pos (List.isPrefixOf_iff_prefix.mpr (occurs_nil_iff.mp hu))] at h
        exact absurd h (by simp only [reduceCtorEq, not_false_eq_true])
    | cons c s ih =>
        unfold find at h
        by_cases hpre : pattern.isPrefixOf (c :: s) = true
        · rw [if_pos hpre] at h
          exact absurd h (by simp only [reduceCtorEq, not_false_eq_true])
        · rw [if_neg hpre, Option.map_eq_none_iff] at h
          cases u with
          | nil => exact hpre (List.isPrefixOf_iff_prefix.mpr (occurs_nil_iff.mp hu))
          | cons d u => exact ih h u ((occurs_cons_iff c d).mp hu).2
  · intro h
    cases hfind : find pattern s with
    | none => rfl
    | some n =>
        rcases find_spec hfind with ⟨u, hu, -⟩
        exact absurd hu (h u)

/-- A search that succeeds takes the text apart, and so do the cuts at its result. -/
theorem find_split {n : Nat} (h : find pattern s = some n) :
    ∃ u v, s = u ++ (pattern ++ v) ∧ byteLen u = n ∧ takeBytes n s = u ∧
      dropBytes (n + byteLen pattern) s = v ∧
      ∀ u', Occurs s pattern u' → byteLen u ≤ byteLen u' := by
  rcases find_spec h with ⟨u, ⟨v, rfl⟩, rfl, hmin⟩
  refine ⟨u, v, rfl, rfl, takeBytes_append u _, ?_, hmin⟩
  rw [← List.append_assoc, ← byteLen_append, dropBytes_append]

/-- A search from the end fails exactly when the pattern occurs nowhere. -/
theorem rfind_eq_none_iff : rfind pattern s = none ↔ ∀ u, ¬Occurs s pattern u := by
  rw [← find_eq_none_iff]
  induction s with
  | nil => rfl
  | cons c s ih =>
      unfold rfind find
      cases hrest : rfind pattern s with
      | none =>
          rw [ih.mp hrest, Option.map_none]
      | some m =>
          have hfound : find pattern s ≠ none := fun hnone => by
            rw [ih.mpr hnone] at hrest
            exact absurd hrest (by simp)
          refine iff_of_false (by simp) ?_
          by_cases hpre : pattern.isPrefixOf (c :: s) = true
          · rw [if_pos hpre]
            simp
          · rw [if_neg hpre, Option.map_eq_none_iff]
            exact hfound

/-- A search from the end that succeeds returns the length of the longest prefix the pattern
    follows. -/
theorem rfind_spec {n : Nat} (h : rfind pattern s = some n) :
    ∃ u, Occurs s pattern u ∧ byteLen u = n ∧
      ∀ u', Occurs s pattern u' → byteLen u' ≤ byteLen u := by
  induction s generalizing n with
  | nil =>
      unfold rfind at h
      by_cases hpre : pattern.isPrefixOf [] = true
      · rw [if_pos hpre, Option.some.injEq] at h
        refine ⟨[], occurs_nil_iff.mpr (List.isPrefixOf_iff_prefix.mp hpre), h, fun u' hu' => ?_⟩
        rw [List.prefix_nil.mp hu'.before]
      · rw [if_neg hpre] at h
        exact absurd h (by simp only [reduceCtorEq, not_false_eq_true])
  | cons c s ih =>
      unfold rfind at h
      cases hrest : rfind pattern s with
      -- What is found in the rest is found later than a match at the front.
      | some m =>
          rw [hrest, Option.some.injEq] at h
          rcases ih hrest with ⟨u, hu, rfl, hmax⟩
          refine ⟨c :: u, (occurs_cons_iff c c).mpr ⟨rfl, hu⟩, h, fun u' hu' => ?_⟩
          cases u' with
          | nil => exact Nat.zero_le _
          | cons d u' =>
              rcases (occurs_cons_iff c d).mp hu' with ⟨rfl, hu''⟩
              have hle := hmax u' hu''
              rw [byteLen_cons, byteLen_cons]
              omega
      | none =>
          rw [hrest] at h
          dsimp only at h
          by_cases hpre : pattern.isPrefixOf (c :: s) = true
          · rw [if_pos hpre, Option.some.injEq] at h
            refine ⟨[], occurs_nil_iff.mpr (List.isPrefixOf_iff_prefix.mp hpre), h,
              fun u' hu' => ?_⟩
            cases u' with
            | nil => exact Nat.le_refl _
            | cons d u' =>
                exact absurd ((occurs_cons_iff c d).mp hu').2
                  (rfind_eq_none_iff.mp hrest u')
          · rw [if_neg hpre] at h
            exact absurd h (by simp only [reduceCtorEq, not_false_eq_true])

theorem length_dropBytes_le (n : Nat) (s : List Char) : (dropBytes n s).length ≤ s.length := by
  induction s generalizing n with
  | nil => exact Nat.le_refl _
  | cons c s ih =>
      unfold dropBytes
      by_cases h : c.utf8Size ≤ n
      · rw [if_pos h]
        exact Nat.le_succ_of_le (ih _)
      · rw [if_neg h]

/-- What is left after an occurrence is shorter, so a loop that skips one terminates. -/
theorem length_dropBytes_find {n : Nat} (h : find pattern s = some n) (hpattern : pattern ≠ []) :
    (dropBytes (n + byteLen pattern) s).length < s.length := by
  -- Cutting after the pattern leaves what follows it.
  rcases find_spec h with ⟨u, ⟨v, rfl⟩, rfl, -⟩
  rw [← List.append_assoc, ← byteLen_append, dropBytes_append]
  have hpos := List.length_pos_of_ne_nil hpattern
  simp only [List.length_append]
  omega

end ByteText

end QrtEngine
