import QrtEngine.Loader.Scanner

/-!
# The Scanner Skips One Value

The scanner does not parse what it skips. It counts brackets of both kinds with one counter, and
keeps a flag for strings and a flag for escapes. On the texts of the grammar that is enough: a
phrase that stands inside of an array or an object leaves the state of the scanner as it was, so an
array or an object ends at its own bracket. The argument is one induction over the grammar, for
every depth that the counter can hold.

## Main definitions

* `intMax`: The greatest depth.

## Theorems

* `skipString_body`: A string ends at its closing quote.
* `skipNested_phrase`: A phrase inside of a value leaves the scanner as it was.
* `skipValue_enclosed`, `skipValue_scalar`: One value is skipped, and behind a scalar what is
  blank.
-/

namespace QrtEngine

namespace Loader

open CText JsonGrammar

/-- The greatest value of an `int`. -/
def intMax : Int := 2 ^ 31 - 1

/-! ## Strings -/

variable {body letters : List UInt8}

/-- A string ends at its closing quote. -/
theorem skipString_body (h : StringBody body letters) (rest : List UInt8) :
    skipString false (body ++ quote :: rest) = .ok rest := by
  induction h with
  | nil => rw [List.nil_append, skipString, if_neg (by decide), if_neg (by decide),
      if_neg (by decide), if_pos rfl]
  | plain hnul hquote hbackslash _ ih =>
      rw [List.cons_append, skipString, if_neg hnul, if_neg (by decide), if_neg hbackslash,
        if_neg hquote]
      exact ih
  | escape hnul _ ih =>
      rw [List.cons_append, List.cons_append, skipString, if_neg (by decide), if_neg (by decide),
        if_pos rfl, skipString, if_neg hnul, if_pos rfl]
      exact ih

variable {depth : Int}

/-- Inside of a value too, whatever brackets it holds. -/
theorem skipNested_body (h : StringBody body letters) (rest : List UInt8) :
    skipNested depth true false (body ++ quote :: rest) = skipNested depth false false rest := by
  induction h with
  | nil => rw [List.nil_append, skipNested, if_neg (by decide), if_pos rfl, if_neg (by decide),
      if_neg (by decide), if_pos rfl]
  | plain hnul hquote hbackslash _ ih =>
      rw [List.cons_append, skipNested, if_neg hnul, if_pos rfl, if_neg (by decide),
        if_neg hbackslash, if_neg hquote]
      exact ih
  | escape hnul _ ih =>
      rw [List.cons_append, List.cons_append, skipNested, if_neg (by decide), if_pos rfl,
        if_neg (by decide), if_pos rfl, skipNested, if_neg hnul, if_pos rfl, if_pos rfl]
      exact ih

theorem skipNested_string (h : StringBody body letters) (rest : List UInt8) :
    skipNested depth false false (quote :: body ++ [quote] ++ rest) =
      skipNested depth false false rest := by
  rw [List.cons_append, List.cons_append, skipNested, if_neg (by decide), if_neg (by decide),
    if_pos rfl, List.append_assoc, List.singleton_append]
  exact skipNested_body h rest

/-! ## Brackets and what lies between them -/

/-- A byte that means nothing to the scanner between strings. -/
def isQuiet (ch : UInt8) : Bool :=
  !(ch = 0 || ch = quote || ch = openBrace || ch = openBracket || ch = closeBrace ||
    ch = closeBracket)

theorem skipNested_quiet {ch : UInt8} (hch : isQuiet ch) (rest : List UInt8) :
    skipNested depth false false (ch :: rest) = skipNested depth false false rest := by
  simp only [isQuiet, Bool.not_eq_true', Bool.or_eq_false_iff, decide_eq_false_iff_not] at hch
  rcases hch with ⟨⟨⟨⟨⟨hnul, hquote⟩, hobrace⟩, hobracket⟩, hcbrace⟩, hcbracket⟩
  rw [skipNested, if_neg hnul, if_neg (by decide), if_neg hquote,
    if_neg (by simp [hobrace, hobracket]), if_neg (by simp [hcbrace, hcbracket])]

theorem skipNested_run {run : List UInt8} (hrun : ∀ ch ∈ run, isQuiet ch) (rest : List UInt8) :
    skipNested depth false false (run ++ rest) = skipNested depth false false rest := by
  induction run with
  | nil => rfl
  | cons ch run ih =>
      rw [List.cons_append, skipNested_quiet (hrun ch List.mem_cons_self)]
      exact ih fun ch' hch' => hrun ch' (List.mem_cons_of_mem _ hch')

theorem isQuiet_of_isBlank {ch : UInt8} (h : isBlank ch) : isQuiet ch := by
  simp only [isBlank, Bool.or_eq_true, decide_eq_true_eq] at h
  rcases h with ((rfl | rfl) | rfl) | rfl <;> decide

theorem isQuiet_of_endsScalar {ch : UInt8} (h : endsScalar ch = false) : isQuiet ch := by
  simp only [endsScalar, Bool.or_eq_false_iff, decide_eq_false_iff_not] at h
  simp [isQuiet, h]

theorem skipNested_blank {blank : List UInt8} (h : Blank blank) (rest : List UInt8) :
    skipNested depth false false (blank ++ rest) = skipNested depth false false rest :=
  skipNested_run (fun ch hch => isQuiet_of_isBlank (h ch hch)) rest

/-- The counter does not wrap up to the greatest depth. -/
theorem bmod_eq_self {n : Int} (hlow : 0 ≤ n) (hhigh : n ≤ intMax) : n.bmod (2 ^ 32) = n := by
  rw [intMax] at hhigh
  exact Int.bmod_eq_of_le (by omega) (by omega)

variable {ch : UInt8}

theorem skipNested_open (hch : ch = openBrace ∨ ch = openBracket) (hlow : 0 ≤ depth)
    (hhigh : depth + 1 ≤ intMax) (rest : List UInt8) :
    skipNested depth false false (ch :: rest) = skipNested (depth + 1) false false rest := by
  rw [skipNested, bmod_eq_self (by omega) hhigh]
  rcases hch with rfl | rfl <;> rfl

/-- A closing bracket inside of a value. -/
theorem skipNested_close (hch : ch = closeBrace ∨ ch = closeBracket) (hlow : 1 ≤ depth)
    (hhigh : depth ≤ intMax) (rest : List UInt8) :
    skipNested (depth + 1) false false (ch :: rest) = skipNested depth false false rest := by
  rw [skipNested, show depth + 1 - 1 = depth by omega, bmod_eq_self (by omega) hhigh,
    if_neg (show ¬depth = 0 by omega), if_neg (show ¬depth < 0 by omega)]
  rcases hch with rfl | rfl <;> rfl

/-- The closing bracket of the value. -/
theorem skipNested_last (hch : ch = closeBrace ∨ ch = closeBracket) (rest : List UInt8) :
    skipNested 1 false false (ch :: rest) = .ok rest := by
  rcases hch with rfl | rfl <;> rfl

/-! ## Phrases -/

variable {part : Part} {height : Nat} {text : List UInt8}

/-- A phrase inside of a value leaves the scanner as it was. -/
theorem skipNested_phrase (h : Phrase part height text) :
    ∀ {depth : Int}, 1 ≤ depth → depth + height ≤ intMax → ∀ rest,
      skipNested depth false false (text ++ rest) = skipNested depth false false rest := by
  -- Inside of brackets the induction is used one level deeper, where the counter still fits.
  induction h with
  | scalar h =>
      intro depth _ _ rest
      exact skipNested_run (fun ch hch => isQuiet_of_endsScalar (h.2 ch hch)) rest
  | string h =>
      intro depth _ _ rest
      exact skipNested_string h rest
  | emptyArray h =>
      intro depth hlow hhigh rest
      rw [List.append_assoc, List.cons_append, skipNested_open (.inr rfl) (by omega) hhigh,
        skipNested_blank h]
      exact skipNested_close (.inr rfl) hlow (by omega) rest
  | emptyObject h =>
      intro depth hlow hhigh rest
      rw [List.append_assoc, List.cons_append, skipNested_open (.inl rfl) (by omega) hhigh,
        skipNested_blank h]
      exact skipNested_close (.inl rfl) hlow (by omega) rest
  | array _ ih =>
      intro depth hlow hhigh rest
      rw [List.append_assoc, List.cons_append,
        skipNested_open (.inr rfl) (by omega) (by omega), ih (by omega) (by omega)]
      exact skipNested_close (.inr rfl) hlow (by omega) rest
  | object _ ih =>
      intro depth hlow hhigh rest
      rw [List.append_assoc, List.cons_append,
        skipNested_open (.inl rfl) (by omega) (by omega), ih (by omega) (by omega)]
      exact skipNested_close (.inl rfl) hlow (by omega) rest
  | element hbefore _ hbehind ih =>
      intro depth hlow hhigh rest
      rw [List.append_assoc, List.append_assoc, skipNested_blank hbefore, ih hlow hhigh,
        skipNested_blank hbehind]
  | @member _ before body letters between after text behind hbefore hkey hbetween hafter _ hbehind
      ih =>
      intro depth hlow hhigh rest
      rw [show before ++ (quote :: body ++ [quote]) ++ between ++ colon :: after ++ text ++ behind
          ++ rest = before ++ (quote :: body ++ [quote] ++ (between ++ colon :: (after ++
          (text ++ (behind ++ rest))))) by simp]
      rw [skipNested_blank hbefore, skipNested_string hkey, skipNested_blank hbetween,
        skipNested_quiet (show isQuiet colon by decide), skipNested_blank hafter, ih hlow hhigh,
        skipNested_blank hbehind]
  | moreElements _ _ ihfirst ihmore | moreMembers _ _ ihfirst ihmore =>
      intro depth hlow hhigh rest
      rw [List.append_assoc, List.cons_append, ihfirst hlow (by omega),
        skipNested_quiet (show isQuiet comma by decide), ihmore hlow (by omega)]

/-- An array or an object ends at its own bracket. -/
theorem skipNested_items {opening closing : UInt8} (h : ∀ rest,
    skipNested 1 false false (text ++ rest) = skipNested 1 false false rest)
    (hopening : opening = openBrace ∨ opening = openBracket)
    (hclosing : closing = closeBrace ∨ closing = closeBracket) (rest : List UInt8) :
    skipNested 0 false false (opening :: text ++ [closing] ++ rest) = .ok rest := by
  rw [List.append_assoc, List.cons_append, skipNested_open hopening (Int.le_refl 0) (by decide)]
  refine (h _).trans ?_
  exact skipNested_last hclosing rest

/-- A value that does not begin with a blank is skipped from its first byte. -/
theorem skipValue_cons (hblank : isBlank ch = false) (rest : List UInt8) :
    skipValue (ch :: rest) =
      if ch = quote then skipString false rest
      else if ch = openBrace || ch = openBracket then skipNested 0 false false (ch :: rest)
      else skipWhile (fun ch => !(ch = 0 || isDelimiter ch)) (ch :: rest) := by
  rw [skipValue, skipWs, skipWhile, if_neg (by rw [hblank]; decide)]
  rfl

/-- A string, an array or an object is skipped up to its end. -/
theorem skipValue_enclosed (h : Phrase .value height text) (hscalar : ¬Scalar text)
    (hheight : height ≤ intMax) (rest : List UInt8) :
    skipValue (text ++ rest) = .ok rest := by
  cases h with
  | scalar h => exact absurd h hscalar
  | string h =>
      rw [List.append_assoc, List.cons_append, skipValue_cons (by decide), if_pos rfl]
      exact skipString_body h rest
  | emptyArray h =>
      rw [← skipNested_items (skipNested_blank h) (.inr rfl) (.inr rfl) rest]
      exact skipValue_cons (by decide) _
  | emptyObject h =>
      rw [← skipNested_items (skipNested_blank h) (.inl rfl) (.inl rfl) rest]
      exact skipValue_cons (by decide) _
  | array h =>
      rw [← skipNested_items (skipNested_phrase h (by omega) (by omega)) (.inr rfl) (.inr rfl)
        rest]
      exact skipValue_cons (by decide) _
  | object h =>
      rw [← skipNested_items (skipNested_phrase h (by omega) (by omega)) (.inl rfl) (.inl rfl)
        rest]
      exact skipValue_cons (by decide) _

/-- A scalar is skipped up to the delimiter behind it, with the blanks in between. -/
theorem skipValue_scalar (h : Scalar text) {blank : List UInt8} (hblank : Blank blank)
    {stop : UInt8} (hstop : isDelimiter stop) (more : List UInt8) :
    skipValue (text ++ (blank ++ stop :: more)) = .ok (stop :: more) := by
  -- The loop over a scalar does not know blanks, and passes those behind it too.
  have hkind : ∀ ch ∈ text ++ blank, !(ch = 0 || isDelimiter ch) := by
    intro ch hch
    rcases List.mem_append.mp hch with htext | hwhite
    · have hends := h.2 ch htext
      simp only [endsScalar, Bool.or_eq_false_iff, decide_eq_false_iff_not] at hends
      simp [isDelimiter, hends]
    · have hwhite := hblank ch hwhite
      simp only [isBlank, Bool.or_eq_true, decide_eq_true_eq] at hwhite
      rcases hwhite with ((rfl | rfl) | rfl) | rfl <;> decide
  have hskip : skipWhile (fun ch => !(ch = 0 || isDelimiter ch)) (text ++ (blank ++ stop :: more)) =
      .ok (stop :: more) := by
    rw [← List.append_assoc]
    exact skipWhile_append hkind (by simp [hstop]) more
  rcases h with ⟨hne, hends⟩
  cases text with
  | nil => exact absurd rfl hne
  | cons ch text =>
      have hch := hends ch List.mem_cons_self
      simp only [endsScalar, Bool.or_eq_false_iff, decide_eq_false_iff_not] at hch
      rw [List.cons_append, skipValue_cons (by simp [hch]), if_neg (by simp [hch]),
        if_neg (by simp [hch])]
      exact hskip

/-- The numbers and names of the standard are scalars. -/
example : ∀ text ∈ [bytes "-1.5e+3", bytes "0", bytes "true", bytes "null"], Scalar text := by
  decide

end Loader

end QrtEngine
