import QrtEngine.Kernels.AccumulatorCanonical
import QrtEngine.Library.Truncation
import Mathlib.Algebra.BigOperators.Ring.List
import Mathlib.Algebra.BigOperators.Ring.Finset

/-!
# The Accuracy of the Group Sum

A value stands for the rational number `significand * 2 ^ (exponent - 23)` with its sign. A group
sum drops what falls below a unit of the internal width at the largest exponent, once for every
operand, and what falls below a unit of the result, once. The order of the operands does not matter,
since the largest exponent and the sum of integers do not depend on it.

The unit of the operands is taken at the exponent the source computes, which is never below the one
of zero: operands that are all far below it are lost in full. And the exponent of the sum has to fit
the sixteen bits it is stored in.

## Main definitions

* `Value.toRat`: The number a value stands for.
* `Operand`: What a group sum is given.
* `total`, `exponentFits`: The signed sum of a group, and when its exponent is stored whole.
* `errorBound`: A unit for each operand and a unit of the result.

## Theorems

* `abs_term_sub_lt`: What the alignment of one operand loses.
* `abs_normalize_sub_lt`: What the renormalisation loses.
* `groupSum_perm`: The order of the operands does not matter.
* `groupSum_accurate`: A group sum is canonical, does not depend on the order, and is accurate.
-/

namespace QrtEngine

namespace Accumulator

/-! ## Numbers -/

/-- The magnitude of the number a value stands for. -/
def Value.magnitude (v : Value) : ℚ := (v.significand : ℚ) * 2 ^ (v.exponent - 23)

/-- The number a value stands for. -/
def Value.toRat (v : Value) : ℚ := if v.negative then -v.magnitude else v.magnitude

/-- The exact sum of the numbers of a group. -/
def exactSum (values : List Value) : ℚ := (values.map Value.toRat).sum

/-- What a group sum is given: a product of two finite words, or a canonical accumulator. -/
inductive Operand (zeroExponent : Int) : Value → Prop where
  | product (left right : UInt16) (hleft : FiniteBf16 left) (hright : FiniteBf16 right) :
      Operand zeroExponent (multiplyBf16 left right zeroExponent)
  | accumulator (v : Value) (hv : Canonical zeroExponent v) : Operand zeroExponent v

theorem Operand.significand_lt {z : Int} {v : Value} (h : Operand z v) :
    v.significand < 2 ^ 25 := by
  cases h with
  | product left right =>
      exact lt_of_le_of_lt (multiplyBf16_significand_le left right z) (by norm_num)
  | accumulator _ hv => exact lt_trans hv.significand_lt (by norm_num)

/-- The signed sum of a group. -/
def total (width : Nat) (zeroExponent : Int) (values : List Value) : Int :=
  (values.map (term width (maxExponent zeroExponent values))).sum

/-- The exponent of the signed sum fits the sixteen bits in which it is stored. -/
def exponentFits (width : Nat) (zeroExponent : Int) (values : List Value) : Prop :=
  maxExponent zeroExponent values + bitWidthU64 (total width zeroExponent values).natAbs - width ≤
    32767

/-- A unit of the internal width at an exponent for each operand, and a unit of the result. -/
def errorBound (width : Nat) (values : List Value) (exponent resultExponent : Int) : ℚ :=
  values.length * 2 ^ (exponent - width + 1) + 2 ^ (max resultExponent (-126) - 23)

/-- A signed sixty-four bit word. -/
def InInt64 (n : Int) : Prop := -2 ^ 63 ≤ n ∧ n < 2 ^ 63

/-! ## The alignment -/

section Alignment

variable (width : Nat) (m : Int) (v : Value)

/-- An operand that is skipped would have been shifted out in full. -/
theorem term_eq_shift (hw' : width ≤ 26) (hsig : v.significand < 2 ^ 25) :
    term width m v =
      if v.negative then
        -(((v.significand <<< (width - 24)) >>> (m - v.exponent).toNat : Nat) : Int)
      else (((v.significand <<< (width - 24)) >>> (m - v.exponent).toNat : Nat) : Int) := by
  unfold term
  by_cases hfar : m - v.exponent ≥ 32
  · have hgone : (v.significand <<< (width - 24)) >>> (m - v.exponent).toNat = 0 := by
      rw [Nat.shiftLeft_eq, Nat.shiftRight_eq_div_pow]
      refine Nat.div_eq_of_lt ?_
      calc v.significand * 2 ^ (width - 24) < 2 ^ 25 * 2 ^ (width - 24) :=
            Nat.mul_lt_mul_of_pos_right hsig (Nat.two_pow_pos _)
        _ = 2 ^ (25 + (width - 24)) := (Nat.pow_add 2 25 _).symm
        _ ≤ 2 ^ (m - v.exponent).toNat := Nat.pow_le_pow_right Nat.two_pos (by omega)
    rw [if_pos hfar, hgone]
    split_ifs <;> rfl
  · rw [if_neg hfar]
    rfl

/-- The magnitude of an operand in units of the internal width. -/
theorem magnitude_eq (hw : 24 ≤ width) (hm : v.exponent ≤ m) :
    v.magnitude = ((v.significand <<< (width - 24) : Nat) : ℚ) *
      2 ^ (m - width + 1 - (m - v.exponent).toNat) := by
  have hexponent : v.exponent - 23 =
      ((width - 24 : Nat) : Int) + (m - width + 1 - (m - v.exponent).toNat) := by omega
  rw [Value.magnitude, hexponent, zpow_add₀ (by norm_num), zpow_natCast, Nat.shiftLeft_eq]
  push_cast
  ring

/-- The alignment of one operand loses less than a unit. -/
theorem abs_term_sub_lt (hw : 24 ≤ width) (hw' : width ≤ 26) (hsig : v.significand < 2 ^ 25)
    (hm : v.exponent ≤ m) :
    |(term width m v : ℚ) * 2 ^ (m - width + 1) - v.toRat| < 2 ^ (m - width + 1) := by
  have h := Truncation.abs_shiftRight_sub_lt (v.significand <<< (width - 24))
    (m - v.exponent).toNat (m - width + 1)
  rw [← magnitude_eq width m v hw hm] at h
  rw [term_eq_shift width m v hw' hsig, Value.toRat]
  cases v.negative with
  | false => exact h
  | true =>
      -- Both sides are negated.
      rw [← abs_neg] at h
      simp only [if_true]
      rwa [Int.cast_neg, Int.cast_natCast, neg_mul, ← neg_sub']

end Alignment

theorem abs_total_sub_lt (t : Instantiation) (values : List Value) (hne : values ≠ [])
    (hsig : ∀ v ∈ values, v.significand < 2 ^ 25) :
    |(total t.width t.zeroExponent values : ℚ) *
        2 ^ (maxExponent t.zeroExponent values - t.width + 1) - exactSum values| <
      values.length * 2 ^ (maxExponent t.zeroExponent values - t.width + 1) := by
  have hmax := (le_foldl_maxExponent values t.zeroExponent).2
  have hw' : t.width ≤ 26 := by cases t <;> decide
  generalize hm : maxExponent t.zeroExponent values = m at hmax ⊢
  have hsum := Truncation.abs_sum_sub_sum_lt values
    (fun v => (term t.width m v : ℚ) * 2 ^ (m - t.width + 1)) Value.toRat
    (2 ^ (m - t.width + 1)) hne fun v hv =>
      abs_term_sub_lt t.width m v (le_width t) hw' (hsig v hv) (hmax v hv)
  have htotal : (total t.width t.zeroExponent values : ℚ) * 2 ^ (m - t.width + 1) =
      (values.map fun v => (term t.width m v : ℚ) * 2 ^ (m - t.width + 1)).sum := by
    unfold total
    rw [hm, List.sum_map_mul_right, Int.cast_list_sum, List.map_map]
    rfl
  rw [htotal]
  exact hsum

/-! ## The renormalisation -/

/-- The renormalisation loses less than a unit of the result. -/
theorem abs_normalize_sub_lt (width : Nat) (z m s : Int) (hw : 24 ≤ width) (hw' : width ≤ 64)
    (hz : z ≤ -126) (hlow : -32768 ≤ m + bitWidthU64 s.natAbs - width)
    (hfits : m + bitWidthU64 s.natAbs - width ≤ 32767) :
    |(normalize width z m s).toRat - (s : ℚ) * 2 ^ (m - width + 1)| <
      2 ^ (max (normalize width z m s).exponent (-126) - 23) := by
  have hstored : sumExponent width m s = m + bitWidthU64 s.natAbs - width :=
    Int.bmod_eq_of_le (by omega) (by omega)
  -- The magnitude, in units of the exponent it is renormalised to.
  have hmagnitude : |((sumSignificand width m s : Nat) : ℚ) *
        2 ^ (max (sumExponent width m s) (-126) - 23) - (s.natAbs : ℚ) * 2 ^ (m - width + 1)| <
      2 ^ (max (sumExponent width m s) (-126) - 23) := by
    have h := Truncation.abs_shiftRight_sub_lt (s.natAbs <<< (width - bitWidthU64 s.natAbs))
      (bitWidthU64 s.natAbs - width + (-126 - sumExponent width m s).toNat + (width - 24))
      (max (sumExponent width m s) (-126) - 23)
    have hexponent : m - width + 1 = ((width - bitWidthU64 s.natAbs : Nat) : Int) +
        (max (sumExponent width m s) (-126) - 23 -
          ((bitWidthU64 s.natAbs - width + (-126 - sumExponent width m s).toNat +
            (width - 24) : Nat) : Int)) := by
      rw [hstored]
      omega
    have hexact : (s.natAbs : ℚ) * 2 ^ (m - width + 1) =
        ((s.natAbs <<< (width - bitWidthU64 s.natAbs) : Nat) : ℚ) *
          2 ^ (max (sumExponent width m s) (-126) - 23 -
            ((bitWidthU64 s.natAbs - width + (-126 - sumExponent width m s).toNat +
              (width - 24) : Nat) : Int)) := by
      rw [hexponent, zpow_add₀ (by norm_num), zpow_natCast, Nat.shiftLeft_eq]
      push_cast
      ring
    rw [hexact]
    exact h
  -- The sign of the result is the sign of the sum, also where the result is zero.
  have hvalue : (normalize width z m s).toRat = (if s < 0 then -1 else 1) *
      ((sumSignificand width m s : ℚ) * 2 ^ (max (sumExponent width m s) (-126) - 23)) := by
    rw [normalize_eq width z m s hw hw']
    unfold Value.toRat Value.magnitude
    by_cases hzero : sumSignificand width m s = 0
    · simp [hzero]
    · rw [if_neg hzero]
      by_cases hneg : s < 0
      · simp [hneg]
      · simp [hneg]
  have hsum : (s : ℚ) = (if s < 0 then -1 else 1) * (s.natAbs : ℚ) := by
    by_cases hneg : s < 0
    · rw [if_pos hneg, Nat.cast_natAbs, abs_of_neg hneg]
      push_cast
      ring
    · rw [if_neg hneg, Nat.cast_natAbs, abs_of_nonneg (Int.not_lt.mp hneg), one_mul]
  have hdiff : (normalize width z m s).toRat - (s : ℚ) * 2 ^ (m - width + 1) =
      (if s < 0 then -1 else 1) * ((sumSignificand width m s : ℚ) *
        2 ^ (max (sumExponent width m s) (-126) - 23) - (s.natAbs : ℚ) * 2 ^ (m - width + 1)) := by
    rw [hvalue, hsum]
    ring
  have hsign : |(if s < 0 then -1 else 1 : ℚ)| = 1 := by
    split_ifs
    · rw [abs_neg, abs_one]
    · exact abs_one
  by_cases hs : s = 0
  · have hresult : normalize width z m 0 =
        { significand := 0, exponent := z, negative := false } := rfl
    have hzero : Value.toRat { significand := 0, exponent := z, negative := false } = 0 := by
      simp [Value.toRat, Value.magnitude]
    subst hs
    rw [hresult, hzero, Int.cast_zero, zero_mul, sub_zero, abs_zero]
    exact zpow_pos (by norm_num) _
  -- A sum that is not zero and is renormalised to zero stood below the smallest exponent.
  have hexponent : max (normalize width z m s).exponent (-126) =
      max (sumExponent width m s) (-126) := by
    rw [normalize_eq width z m s hw hw']
    by_cases hzero : sumSignificand width m s = 0
    · rw [if_pos hzero, max_eq_right hz]
      refine (max_eq_right (Int.le_of_lt (Int.not_le.mp fun he => ?_))).symm
      have := le_sumSignificand width m s hw hs he
      omega
    · rw [if_neg hzero]
      exact max_eq_left (le_max_right _ _)
  rw [hdiff, abs_mul, hsign, one_mul, hexponent]
  exact hmagnitude

/-! ## The order of the operands -/

theorem maxExponent_perm (z : Int) {values values' : List Value} (h : values.Perm values') :
    maxExponent z values = maxExponent z values' := by
  have hle : ∀ l l' : List Value, l.Perm l' → maxExponent z l ≤ maxExponent z l' := by
    intro l l' hperm
    have hmax := le_foldl_maxExponent l' z
    exact maxExponent_le l z _ hmax.1 fun v hv => hmax.2 v (hperm.mem_iff.mp hv)
  exact le_antisymm (hle _ _ h) (hle _ _ h.symm)

theorem groupSum_perm (width : Nat) (z : Int) {values values' : List Value}
    (h : values.Perm values') : groupSum width z values = groupSum width z values' := by
  rw [groupSum_eq, groupSum_eq, maxExponent_perm z h, (h.map _).sum_eq]

/-- No addend exceeds its significand at the internal width, so neither does a sum exceed as many
    of them. -/
theorem natAbs_sum_term_le (width : Nat) (m : Int) (values : List Value) (hw : 24 ≤ width)
    (hsig : ∀ v ∈ values, v.significand < 2 ^ 25) :
    (values.map (term width m)).sum.natAbs ≤ values.length * 2 ^ (width + 1) := by
  have hbound : ∀ b : Bool, toward b (values.map (term width m)).sum ≤
      values.length * 2 ^ (width + 1) := by
    intro b
    rw [toward_sum, List.map_map]
    have hsum := sum_le_length_mul (values.map (toward b ∘ term width m)) (2 ^ (width + 1)) (by
      intro n hn
      rcases List.mem_map.mp hn with ⟨v, hv, rfl⟩
      refine le_trans (toward_term_le b width m v) ?_
      have hmul := Nat.mul_le_mul_right (2 ^ (width - 24)) (Nat.le_of_lt (hsig v hv))
      rw [← Nat.pow_add, show 25 + (width - 24) = width + 1 by omega] at hmul
      exact_mod_cast hmul)
    rw [List.length_map] at hsum
    exact hsum
  have hup := hbound false
  have hdown := hbound true
  simp only [toward, Bool.false_eq_true, if_false, if_true] at hup hdown
  have habs : |(values.map (term width m)).sum| ≤ values.length * 2 ^ (width + 1) :=
    abs_le.mpr ⟨by linarith, hup⟩
  rw [Int.abs_eq_natAbs] at habs
  exact_mod_cast habs

/-- The running sums of fewer than `2 ^ 36` operands stay in a signed sixty-four bit word. -/
theorem partialSums_inInt64 (t : Instantiation) (values : List Value)
    (hsig : ∀ v ∈ values, v.significand < 2 ^ 25) (hlength : values.length < 2 ^ 36) :
    ∀ s ∈ partialSums t.width t.zeroExponent values, InInt64 s := by
  intro s hs
  rcases (mem_scanl_sumStep _ _ _ _ _).mp hs with ⟨k, hk, rfl⟩
  have hbound := natAbs_sum_term_le t.width (maxExponent t.zeroExponent values) (values.take k)
    (le_width t) fun v hv => hsig v (List.mem_of_mem_take hv)
  have hpow : 2 ^ (t.width + 1) ≤ 2 ^ 27 :=
    Nat.pow_le_pow_right Nat.two_pos (by cases t <;> decide)
  have hmul := Nat.mul_le_mul (List.length_take_le' k values) hpow
  rw [zero_add]
  generalize ((values.take k).map (term t.width (maxExponent t.zeroExponent values))).sum = s at *
  have hlast : values.length * 2 ^ 27 < 2 ^ 63 :=
    lt_of_lt_of_le (Nat.mul_lt_mul_of_pos_right hlength (by norm_num)) (by norm_num)
  have habs : s.natAbs < 2 ^ 63 := lt_of_le_of_lt (le_trans hbound hmul) hlast
  exact ⟨by omega, by omega⟩

/-! ## The result -/

/-- A group sum of fewer than `2 ^ 36` operands is added without leaving its word and is
    canonical; the order of the operands does not matter; and as long as the exponent of the sum is
    stored whole, it is off by less than a unit of the internal width for each operand, at the
    exponent that the source aligns to, and a unit of the result. -/
theorem groupSum_accurate (t : Instantiation) (values : List Value) (hne : values ≠ [])
    (hoperands : ∀ v ∈ values, Operand t.zeroExponent v) (hlength : values.length < 2 ^ 36) :
    (∀ s ∈ partialSums t.width t.zeroExponent values, InInt64 s) ∧
      Canonical t.zeroExponent (groupSum t.width t.zeroExponent values) ∧
      (∀ values', values.Perm values' →
        groupSum t.width t.zeroExponent values' = groupSum t.width t.zeroExponent values) ∧
      (exponentFits t.width t.zeroExponent values →
        |(groupSum t.width t.zeroExponent values).toRat - exactSum values| <
          errorBound t.width values (maxExponent t.zeroExponent values)
            (groupSum t.width t.zeroExponent values).exponent) := by
  have hw' : t.width ≤ 64 := by cases t <;> decide
  have hsig := fun v hv => (hoperands v hv).significand_lt
  refine ⟨partialSums_inInt64 t values hsig hlength, groupSum_canonical _ _ _ (le_width t) hw',
    fun values' h => (groupSum_perm _ _ h).symm, ?_⟩
  intro hfits
  -- The exponent of the sum is not below that of a sixteen bit word, as the operands are not.
  have hlow : -32768 ≤ maxExponent t.zeroExponent values +
      bitWidthU64 (total t.width t.zeroExponent values).natAbs - t.width := by
    have hmax := (le_foldl_maxExponent values t.zeroExponent).1
    have hz : -133 ≤ t.zeroExponent := by cases t <;> decide
    omega
  have hnormalize := abs_normalize_sub_lt t.width t.zeroExponent _ _ (le_width t) hw'
    (zeroExponent_le t) hlow hfits
  have htotal := abs_total_sub_lt t values hne hsig
  rw [show normalize t.width t.zeroExponent (maxExponent t.zeroExponent values)
    (total t.width t.zeroExponent values) = groupSum t.width t.zeroExponent values from
    (groupSum_eq _ _ _).symm] at hnormalize
  -- Normalizing and aligning are off by their own units, and these add up.
  have htriangle := abs_sub_le (groupSum t.width t.zeroExponent values).toRat
    ((total t.width t.zeroExponent values : ℚ) *
      2 ^ (maxExponent t.zeroExponent values - t.width + 1)) (exactSum values)
  unfold errorBound
  linarith

/-- A group of an accumulator, a product and its negation. -/
theorem cancelledGroup_accurate :
    let one : Value := { significand := 2 ^ 23, exponent := 0, negative := false }
    let values := [one, multiplyBf16 0x3f81 0x3f81 (-132), multiplyBf16 0x3f81 0xbf81 (-132)]
    groupSum 25 (-132) values = one ∧
      |one.toRat - exactSum values| < errorBound 25 values (maxExponent (-132) values) 0 := by
  intro one values
  have hone : Canonical (-132) one :=
    ⟨by decide, fun h => absurd h (by decide), fun _ => by decide, fun _ _ => by decide⟩
  have hoperands : ∀ v ∈ values, Operand (-132) v := by
    intro v hv
    rcases List.mem_cons.mp hv with rfl | hv
    · exact .accumulator _ hone
    rcases List.mem_cons.mp hv with rfl | hv
    · exact .product _ _ (by decide) (by decide)
    · rw [List.mem_singleton.mp hv]
      exact .product _ _ (by decide) (by decide)
  have hsum : groupSum 25 (-132) values = one := by decide +kernel
  have haccurate := (groupSum_accurate .ampereLovelace values (List.cons_ne_nil _ _) hoperands
    (by decide)).2.2.2
  have hfits : exponentFits 25 (-132) values := by
    unfold exponentFits
    decide +kernel
  refine ⟨hsum, ?_⟩
  have h := haccurate hfits
  rw [show groupSum Instantiation.ampereLovelace.width Instantiation.ampereLovelace.zeroExponent
    values = one from hsum] at h
  exact h

/-- The unit of the operands is not the one at their own largest exponent: thirty-three products
    far below the exponent of zero are lost in full. And two accumulators at the largest exponent
    of a sixteen bit word have a sum whose exponent is not stored whole. -/
theorem smallProducts_lost :
    (¬∀ (t : Instantiation) (values : List Value) (largest : Int), values ≠ [] →
      (∀ v ∈ values, Operand t.zeroExponent v) → (∀ v ∈ values, v.exponent ≤ largest) →
      (∃ v ∈ values, v.exponent = largest) →
      |(groupSum t.width t.zeroExponent values).toRat - exactSum values| <
        errorBound t.width values largest (groupSum t.width t.zeroExponent values).exponent) ∧
    ¬∀ (t : Instantiation) (values : List Value), values ≠ [] →
      (∀ v ∈ values, Operand t.zeroExponent v) → (∀ v ∈ values, v.exponent ≤ 32767) →
      |(groupSum t.width t.zeroExponent values).toRat - exactSum values| <
        errorBound t.width values (maxExponent t.zeroExponent values)
          (groupSum t.width t.zeroExponent values).exponent := by
  refine ⟨?_, ?_⟩
  · intro h
    -- Each product is shifted out in full at the exponent of zero, but the bound is far smaller.
    have hproduct : multiplyBf16 0x18ff 0x18ff (-131) =
        { significand := 33292800, exponent := -156, negative := false } := by decide +kernel
    have hmem : ∀ v ∈ List.replicate 33 (multiplyBf16 0x18ff 0x18ff (-131)),
        v = multiplyBf16 0x18ff 0x18ff (-131) := fun v hv => (List.mem_replicate.mp hv).2
    have hbound := h .group8Width24 (List.replicate 33 (multiplyBf16 0x18ff 0x18ff (-131))) (-156)
      (by decide) (fun v hv => hmem v hv ▸ .product _ _ (by decide) (by decide))
      (fun v hv => by rw [hmem v hv, hproduct])
      ⟨_, List.mem_replicate.mpr ⟨by decide, rfl⟩, by rw [hproduct]⟩
    have hsum : groupSum Instantiation.group8Width24.width Instantiation.group8Width24.zeroExponent
        (List.replicate 33 (multiplyBf16 0x18ff 0x18ff (-131))) =
        { significand := 0, exponent := -131, negative := false } := by decide +kernel
    rw [hsum, exactSum, List.map_replicate, List.sum_replicate, hproduct, errorBound,
      List.length_replicate] at hbound
    norm_num [Value.toRat, Value.magnitude, Instantiation.width] at hbound
  · intro h
    -- The exponent of the sum is cut and the sum comes out as zero, so the error is all of it.
    have hlargest : Canonical (-132)
        { significand := 2 ^ 23, exponent := 32767, negative := false } :=
      ⟨by decide, fun h => absurd h (by decide), fun _ => by decide, fun _ _ => by decide⟩
    have hbound := h .ampereLovelace (List.replicate 2
        { significand := 2 ^ 23, exponent := 32767, negative := false }) (by decide)
      (fun v hv => (List.mem_replicate.mp hv).2 ▸ .accumulator _ hlargest)
      (fun v hv => by rw [(List.mem_replicate.mp hv).2])
    have hsum : groupSum Instantiation.ampereLovelace.width
        Instantiation.ampereLovelace.zeroExponent (List.replicate 2
          { significand := 2 ^ 23, exponent := 32767, negative := false }) =
        { significand := 0, exponent := -132, negative := false } := by decide +kernel
    have hmax : maxExponent Instantiation.ampereLovelace.zeroExponent (List.replicate 2
          { significand := 2 ^ 23, exponent := 32767, negative := false }) = 32767 := by
      decide +kernel
    rw [hsum, hmax, exactSum, List.map_replicate, List.sum_replicate, errorBound,
      List.length_replicate] at hbound
    have hzero : Value.toRat { significand := 0, exponent := -132, negative := false } = 0 := by
      simp [Value.toRat, Value.magnitude]
    have hexact : Value.toRat { significand := 2 ^ 23, exponent := 32767, negative := false } =
        2 ^ (32767 : ℤ) := by
      have hsplit : (32767 : ℤ) = ((23 : Nat) : ℤ) + (32767 - 23) := by norm_num
      rw [hsplit, zpow_add₀ (by norm_num), zpow_natCast]
      norm_num [Value.toRat, Value.magnitude]
    have hpos : (0 : ℚ) < 2 ^ (32767 : ℤ) := zpow_pos (by norm_num) _
    have hunit : (2 : ℚ) ^ (32767 - 25 + 1 : ℤ) * 2 ≤ 2 ^ (32767 : ℤ) := by
      rw [← zpow_add_one₀ (by norm_num)]
      exact zpow_le_zpow_right₀ (by norm_num) (by norm_num)
    have hresult : (2 : ℚ) ^ (max (-132) (-126) - 23 : ℤ) ≤ 2 ^ (32767 - 25 + 1 : ℤ) :=
      zpow_le_zpow_right₀ (by norm_num) (by norm_num)
    rw [hzero, hexact, zero_sub, abs_neg, nsmul_eq_mul, abs_of_pos (by positivity)] at hbound
    have hwidth : ((Instantiation.ampereLovelace.width : Nat) : ℤ) = 25 := rfl
    rw [hwidth, Nat.cast_ofNat] at hbound
    generalize (2 : ℚ) ^ (32767 - 25 + 1 : ℤ) = unit at hbound hunit hresult
    generalize (2 : ℚ) ^ (max (-132) (-126) - 23 : ℤ) = result at hbound hresult
    generalize (2 : ℚ) ^ (32767 : ℤ) = exact at hbound hunit hpos
    linarith

end Accumulator

end QrtEngine
