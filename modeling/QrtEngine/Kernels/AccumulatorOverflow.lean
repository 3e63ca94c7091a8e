import QrtEngine.Kernels.AccumulatorAccuracy
import Mathlib.Data.Rat.Floor

/-!
# The Overflow of the Accumulator

The exponent of an accumulator is carried through a run in sixteen bits, and only the float at the
end has eight. Finite words keep it far from the ends of the sixteen: a product is at an exponent of
`254` at most, so an accumulator that is thirty-two places above that is not changed any more, and
below that a group raises it by six at most. What does not fit eight bits is masked. One exponent
too many gives an infinity or a NaN, as it should; the others begin again at the smallest numbers.

So the float of a run is that of its accumulator, or an overflow of its sign, exactly if the last
group does not add up to `2 ^ 129` or more, each operand truncated to the unit of the group.

## Main definitions

* `Faithful`: A float is the number of a value, or an overflow of its sign.
* `truncatedSum`: The operands of a group, truncated to a unit and added.

## Theorems

* `groupSum_exponent_le`: The exponents that a run reaches.
* `valueToFloat_faithful_iff`: When the float of a value is faithful.
* `exponent_le_iff`: The exponent of a group sum, known from its operands.
* `accumulateBf16_faithful_iff`: When the float of a run is faithful.
-/

namespace QrtEngine

namespace Accumulator

/-- A float that is the number of a value exactly or, if the exponent is beyond those of binary32,
    an infinity or a NaN of its sign. -/
def Faithful (v : Value) (bits : UInt32) : Prop :=
  (FiniteFloat bits ∧ Binary32.toRat bits = v.toRat) ∨
    (127 < v.exponent ∧ ¬FiniteFloat bits ∧ Binary32.negative bits = v.negative)

/-- A number truncated toward zero to a multiple of a unit. -/
def truncateTo (unit q : ℚ) : ℚ :=
  if q < 0 then -((⌊-q / unit⌋ : ℚ) * unit) else (⌊q / unit⌋ : ℚ) * unit

/-- The numbers of a group, each truncated to the unit of the internal width at the exponent of the
    group, and added. -/
def truncatedSum (t : Instantiation) (values : List Value) : ℚ :=
  (values.map fun v => truncateTo
    (2 ^ (maxExponent t.zeroExponent values - t.width + 1)) v.toRat).sum

/-! ## The exponents of a run -/

/-- The largest exponent that an accumulator reaches. -/
def exponentBound : Int := 291

/-- What holds of the products of finite words in a group. -/
structure FiniteProducts (t : Instantiation) (ps : List Value) : Prop where
  length_le : ps.length ≤ 16
  operand : ∀ p ∈ ps, Operand t.zeroExponent p
  exponent_le : ∀ p ∈ ps, p.exponent ≤ 254

/-- What holds of every accumulator of a run over finite words. -/
structure Reachable (t : Instantiation) (v : Value) : Prop where
  canonical : Canonical t.zeroExponent v
  exponent_le : v.exponent ≤ exponentBound

theorem multiplyBf16_exponent_le (left right : UInt16) (z : Int) (hz : z ≤ 254)
    (hleft : FiniteBf16 left) (hright : FiniteBf16 right) :
    (multiplyBf16 left right z).exponent ≤ 254 := by
  have hl : left.toNat >>> 7 &&& 0xff < 2 ^ 8 := Nat.and_lt_two_pow _ (by norm_num)
  have hr : right.toNat >>> 7 &&& 0xff < 2 ^ 8 := Nat.and_lt_two_pow _ (by norm_num)
  unfold FiniteBf16 at hleft hright
  unfold multiplyBf16
  dsimp only
  generalize toUInt32 _ = significand
  have hl' : (if left.toNat >>> 7 &&& 0xff = 0 then 1 else left.toNat >>> 7 &&& 0xff) ≤ 254 := by
    split_ifs <;> omega
  have hr' : (if right.toNat >>> 7 &&& 0xff = 0 then 1 else right.toNat >>> 7 &&& 0xff) ≤ 254 := by
    split_ifs <;> omega
  generalize (if left.toNat >>> 7 &&& 0xff = 0 then 1 else left.toNat >>> 7 &&& 0xff) = le at hl' ⊢
  generalize (if right.toNat >>> 7 &&& 0xff = 0 then 1 else right.toNat >>> 7 &&& 0xff) = re
    at hr' ⊢
  by_cases hzero : significand = 0
  · rw [if_pos hzero]
    exact hz
  · rw [if_neg hzero]
    simp only [toInt16]
    rw [Int.bmod_eq_of_le (by omega) (by omega)]
    omega

/-- What a group adds up to has at most six bits more than the internal width. -/
theorem bitWidthU64_total_le (t : Instantiation) (acc : Value) (ps : List Value)
    (hacc : Canonical t.zeroExponent acc) (hps : FiniteProducts t ps) :
    bitWidthU64 (total t.width t.zeroExponent (acc :: ps)).natAbs ≤ t.width + 6 := by
  have hsig : ∀ v ∈ acc :: ps, v.significand < 2 ^ 25 := by
    intro v hv
    rcases List.mem_cons.mp hv with rfl | hv
    · exact lt_trans hacc.significand_lt (by norm_num)
    · exact (hps.operand v hv).significand_lt
  have hsum := natAbs_sum_term_le t.width (maxExponent t.zeroExponent (acc :: ps)) _ (le_width t)
    hsig
  refine bitWidthU64_le _ _ (lt_of_le_of_lt hsum ?_)
  have hlength := hps.length_le
  calc (acc :: ps).length * 2 ^ (t.width + 1) ≤ 17 * 2 ^ (t.width + 1) :=
        Nat.mul_le_mul_right _ (by rw [List.length_cons]; omega)
    _ < 2 ^ 5 * 2 ^ (t.width + 1) := Nat.mul_lt_mul_of_pos_right (by norm_num) (Nat.two_pow_pos _)
    _ = 2 ^ (t.width + 6) := by rw [← Nat.pow_add, Nat.add_comm]

/-- The exponent of a group lies between the one of zero and the largest of a run. -/
theorem maxExponent_bounds (t : Instantiation) (acc : Value) (ps : List Value)
    (hacc : Reachable t acc) (hps : FiniteProducts t ps) :
    -133 ≤ maxExponent t.zeroExponent (acc :: ps) ∧
      maxExponent t.zeroExponent (acc :: ps) ≤ max acc.exponent 254 := by
  have hz := zeroExponent_le t
  have hlow := (le_foldl_maxExponent (acc :: ps) t.zeroExponent).1
  have hz' : -133 ≤ t.zeroExponent := by cases t <;> decide
  refine ⟨by omega, maxExponent_le _ _ _ (by omega) ?_⟩
  intro v hv
  rcases List.mem_cons.mp hv with rfl | hv
  · exact le_max_left _ _
  · exact le_max_of_le_right (hps.exponent_le v hv)

/-- The exponent of a sum is stored whole. -/
theorem sumExponent_group (t : Instantiation) (acc : Value) (ps : List Value)
    (hacc : Reachable t acc) (hps : FiniteProducts t ps) :
    sumExponent t.width (maxExponent t.zeroExponent (acc :: ps))
        (total t.width t.zeroExponent (acc :: ps)) =
      maxExponent t.zeroExponent (acc :: ps) +
        bitWidthU64 (total t.width t.zeroExponent (acc :: ps)).natAbs - t.width := by
  have hbits := bitWidthU64_total_le t acc ps hacc.canonical hps
  have hmax := maxExponent_bounds t acc ps hacc hps
  have hexponent := hacc.exponent_le
  have hw' : t.width ≤ 26 := by cases t <;> decide
  unfold exponentBound at hexponent
  exact Int.bmod_eq_of_le (by omega) (by omega)

theorem groupSum_eq_total (t : Instantiation) (values : List Value) :
    groupSum t.width t.zeroExponent values =
      normalize t.width t.zeroExponent (maxExponent t.zeroExponent values)
        (total t.width t.zeroExponent values) := groupSum_eq _ _ _

/-- An accumulator far above the products is not changed by them, and below that a group raises
    the exponent by six at most. -/
theorem groupSum_reachable (t : Instantiation) (acc : Value) (ps : List Value)
    (hacc : Reachable t acc) (hps : FiniteProducts t ps) :
    Reachable t (groupSum t.width t.zeroExponent (acc :: ps)) := by
  have hw' : t.width ≤ 64 := by cases t <;> decide
  have hz := zeroExponent_le t
  refine ⟨groupSum_canonical _ _ _ (le_width t) hw', ?_⟩
  have hexponent := hacc.exponent_le
  have hmax := maxExponent_bounds t acc ps hacc hps
  by_cases hfar : 286 ≤ acc.exponent
  · -- The products are shifted out in full, and the accumulator is alone.
    have hsame : maxExponent t.zeroExponent (acc :: ps) = acc.exponent := by
      have hge := (le_foldl_maxExponent (acc :: ps) t.zeroExponent).2 acc List.mem_cons_self
      omega
    have hskipped : ps.map (term t.width acc.exponent) = ps.map fun _ => 0 := by
      refine List.map_congr_left fun p hp => ?_
      have hp := hps.exponent_le p hp
      exact if_pos (by omega)
    have halone : groupSum t.width t.zeroExponent (acc :: ps) =
        groupSum t.width t.zeroExponent [acc] := by
      rw [groupSum_eq, groupSum_eq, hsame, maxExponent_singleton t.zeroExponent acc (by omega),
        List.map_cons, hskipped, List.map_singleton, List.sum_cons, List.sum_singleton,
        List.map_const', List.sum_replicate, nsmul_zero, add_zero]
    have hsingle := groupSum_singleton t.width t.zeroExponent acc (le_width t) hw' hz
      hacc.canonical (by unfold exponentBound at hexponent; omega)
    rw [halone, hsingle.exponent]
    exact hexponent
  · -- The sum has few bits more than its operands.
    have hbits := bitWidthU64_total_le t acc ps hacc.canonical hps
    have hstored := sumExponent_group t acc ps hacc hps
    rw [groupSum_eq_total, normalize_eq _ _ _ _ (le_width t) hw']
    unfold exponentBound
    split_ifs
    · simp only
      omega
    · simp only
      omega

/-! ## The float of a value -/

theorem toRat_of_significand_eq_zero (v : Value) (h : v.significand = 0) : v.toRat = 0 := by
  unfold Value.toRat Value.magnitude
  rw [h]
  simp

theorem SameNumber.toRat_eq {v w : Value} (h : SameNumber v w) : v.toRat = w.toRat := by
  by_cases hzero : v.significand = 0
  · rw [toRat_of_significand_eq_zero v hzero,
      toRat_of_significand_eq_zero w (h.significand ▸ hzero)]
  · unfold Value.toRat Value.magnitude
    rw [h.significand, h.exponent, h.negative hzero]

/-- A full significand at an exponent stands for at least the power of two of that exponent. -/
theorem le_abs_toRat (v : Value) (h : 2 ^ 23 ≤ v.significand) :
    (2 : ℚ) ^ v.exponent ≤ |v.toRat| := by
  have habs : |v.toRat| = v.magnitude := by
    have hpos : 0 ≤ v.magnitude := by
      unfold Value.magnitude
      positivity
    unfold Value.toRat
    split_ifs
    · rw [abs_neg, abs_of_nonneg hpos]
    · exact abs_of_nonneg hpos
  have hsplit : v.exponent = ((23 : Nat) : ℤ) + (v.exponent - 23) := by omega
  rw [habs, Value.magnitude]
  calc (2 : ℚ) ^ v.exponent = 2 ^ 23 * 2 ^ (v.exponent - 23) := by
        rw [← zpow_natCast, ← zpow_add₀ (by norm_num), ← hsplit]
    _ ≤ (v.significand : ℚ) * 2 ^ (v.exponent - 23) := by
        refine mul_le_mul_of_nonneg_right ?_ (by positivity)
        exact_mod_cast h

/-- The float of a value is faithful exactly up to the exponent of infinity. Beyond it the exponent
    is masked, and the float is a finite number that is too small. -/
theorem valueToFloat_faithful_iff (z : Int) (v : Value) (hv : Canonical z v) (hz : z ≤ -126)
    (hmax : v.exponent ≤ 383) :
    Faithful v (UInt32.ofNat (valueToFloat v)) ↔ v.exponent ≤ 128 := by
  by_cases hzero : v.significand = 0
  · have hfloat : valueToFloat v = 0 := if_pos hzero
    have hexponent := hv.zero hzero
    refine iff_of_true (Or.inl ⟨?_, ?_⟩) (by omega)
    · rw [hfloat]
      decide
    · rw [hfloat, toRat_of_significand_eq_zero v hzero]
      decide +kernel
  have hlt := hv.significand_lt
  have hexponent := hv.le_exponent hzero
  rcases valueToFloat_canonical z v hv hzero with ⟨hsub, hmin, hfloat⟩ | ⟨hfull, hfloat⟩
  · refine iff_of_true (Or.inl ⟨?_, ?_⟩) (by omega)
    · change Binary32.exponentField _ ≠ 0xff
      rw [hfloat, Binary32.exponentField_pack _ _ _ (by norm_num) hsub]
      decide
    · rw [hfloat, Binary32.toRat_pack _ _ _ (by norm_num) hsub, if_pos rfl, Value.toRat,
        Value.magnitude, hmin]
      cases v.negative <;> norm_num
  have he : ((v.exponent + 127) % 2 ^ 8).toNat < 2 ^ 8 := by omega
  have hf : v.significand - 2 ^ 23 < 2 ^ 23 := by omega
  have hfield := Binary32.exponentField_pack v.negative _ _ he hf
  have hfinite : FiniteFloat (UInt32.ofNat (valueToFloat v)) ↔
      ((v.exponent + 127) % 2 ^ 8).toNat ≠ 0xff := by
    rw [← hfield, ← hfloat]
    exact Iff.rfl
  by_cases hbelow : v.exponent ≤ 127
  -- The fields hold the value.
  · refine iff_of_true (Or.inl ⟨hfinite.mpr (by omega), ?_⟩) (by omega)
    have hnonzero : ((v.exponent + 127) % 2 ^ 8).toNat ≠ 0 := by omega
    have hunit : (((v.exponent + 127) % 2 ^ 8).toNat : ℤ) - 150 = v.exponent - 23 := by omega
    have hsig : v.significand - 2 ^ 23 + 2 ^ 23 = v.significand := by omega
    rw [hfloat, Binary32.toRat_pack _ _ _ he hf, if_neg hnonzero, hunit, hsig, Value.toRat,
      Value.magnitude]
    cases v.negative <;> norm_num
  by_cases hinf : v.exponent = 128
  -- The exponent of infinity.
  · refine iff_of_true (Or.inr ⟨by omega, ?_, ?_⟩) (by omega)
    · rw [hfinite, not_not]
      omega
    · rw [hfloat, Binary32.negative_pack _ _ _ he hf]
  -- Beyond it: finite again, and too small.
  · refine iff_of_false ?_ (by omega)
    have hwraps : FiniteFloat (UInt32.ofNat (valueToFloat v)) := hfinite.mpr (by omega)
    rintro (⟨-, hsame⟩ | ⟨-, hover, -⟩)
    · have hsmall := Binary32.abs_toRat_lt _ hwraps
      have hlarge := le_abs_toRat v hfull
      have hpow : (2 : ℚ) ^ (128 : ℤ) ≤ 2 ^ v.exponent :=
        zpow_le_zpow_right₀ (by norm_num) (by omega)
      rw [hsame] at hsmall
      linarith
    · exact hover hwraps

/-! ## The last group -/

theorem truncateTo_of_nonneg (unit q : ℚ) (hq : 0 ≤ q) :
    truncateTo unit q = (⌊q / unit⌋ : ℚ) * unit := if_neg (not_lt.mpr hq)

theorem truncateTo_neg (unit q : ℚ) (hq : 0 ≤ q) :
    truncateTo unit (-q) = -((⌊q / unit⌋ : ℚ) * unit) := by
  unfold truncateTo
  by_cases hzero : q = 0
  · subst hzero
    simp
  · rw [if_pos (by linarith [lt_of_le_of_ne hq (Ne.symm hzero)]), neg_neg]

/-- Truncating the number of an operand to the unit of its group is aligning it. -/
theorem truncateTo_toRat (width : Nat) (m : Int) (v : Value) (hw : 24 ≤ width) (hw' : width ≤ 26)
    (hsig : v.significand < 2 ^ 25) (hm : v.exponent ≤ m) :
    truncateTo (2 ^ (m - width + 1)) v.toRat = (term width m v : ℚ) * 2 ^ (m - width + 1) := by
  have hunit : (0 : ℚ) < 2 ^ (m - width + 1) := zpow_pos (by norm_num) _
  have hnonneg : 0 ≤ v.magnitude := by
    unfold Value.magnitude
    positivity
  have hquotient : v.magnitude / 2 ^ (m - width + 1) =
      ((v.significand <<< (width - 24) : Nat) : ℚ) / 2 ^ (m - v.exponent).toNat := by
    rw [magnitude_eq width m v hw hm, zpow_sub₀ (by norm_num), zpow_natCast]
    field_simp
  have hfloor : ⌊v.magnitude / 2 ^ (m - width + 1)⌋ =
      (((v.significand <<< (width - 24)) >>> (m - v.exponent).toNat : Nat) : Int) := by
    rw [hquotient, Int.floor_eq_iff, Int.cast_natCast]
    exact ⟨Truncation.shiftRight_le_div _ _, Truncation.div_lt_shiftRight_add_one _ _⟩
  rw [term_eq_shift width m v hw' hsig, Value.toRat]
  cases v.negative with
  | false =>
      simp only [Bool.false_eq_true, if_false]
      rw [truncateTo_of_nonneg _ _ hnonneg, hfloor]
  | true =>
      simp only [if_true]
      rw [truncateTo_neg _ _ hnonneg, hfloor, Int.cast_neg, neg_mul]

theorem truncatedSum_eq (t : Instantiation) (values : List Value)
    (hsig : ∀ v ∈ values, v.significand < 2 ^ 25) :
    truncatedSum t values = (total t.width t.zeroExponent values : ℚ) *
      2 ^ (maxExponent t.zeroExponent values - t.width + 1) := by
  have hmax := (le_foldl_maxExponent values t.zeroExponent).2
  have hw' : t.width ≤ 26 := by cases t <;> decide
  unfold truncatedSum total
  rw [List.map_congr_left fun v hv => truncateTo_toRat t.width _ v (le_width t) hw' (hsig v hv)
    (hmax v hv), List.sum_map_mul_right, Int.cast_list_sum, List.map_map]
  rfl

/-- A number of so many bits, in units of a power of two, is below the next power of two. -/
theorem abs_mul_zpow_lt_iff (n : Int) (e k : ℤ) (hn : n ≠ 0) :
    |(n : ℚ) * 2 ^ e| < 2 ^ k ↔ bitWidthU64 n.natAbs + e ≤ k := by
  have hupper := lt_two_pow_bitWidthU64 n.natAbs
  have hne : n.natAbs ≠ 0 := Int.natAbs_ne_zero.mpr hn
  have hbits : bitWidthU64 n.natAbs = Nat.log2 n.natAbs + 1 := if_neg hne
  have hlower : 2 ^ Nat.log2 n.natAbs ≤ n.natAbs := Nat.log2_self_le hne
  have hunit : (0 : ℚ) < 2 ^ e := zpow_pos (by norm_num) e
  have habs : |(n : ℚ) * 2 ^ e| = (n.natAbs : ℚ) * 2 ^ e := by
    rw [abs_mul, abs_of_pos hunit, Nat.cast_natAbs, Int.cast_abs]
  rw [habs]
  constructor
  · intro hlt
    by_contra hle
    -- A number that has a bit too many is at least the power.
    have hpow : (2 : ℚ) ^ k ≤ 2 ^ ((Nat.log2 n.natAbs : ℤ) + e) :=
      zpow_le_zpow_right₀ (by norm_num) (by omega)
    have hcast : (2 : ℚ) ^ Nat.log2 n.natAbs ≤ n.natAbs := by exact_mod_cast hlower
    rw [zpow_add₀ (by norm_num), zpow_natCast] at hpow
    have := mul_le_mul_of_nonneg_right hcast (le_of_lt hunit)
    linarith
  · intro hle
    have hcast : (n.natAbs : ℚ) < 2 ^ bitWidthU64 n.natAbs := by exact_mod_cast hupper
    calc (n.natAbs : ℚ) * 2 ^ e < 2 ^ bitWidthU64 n.natAbs * 2 ^ e :=
          mul_lt_mul_of_pos_right hcast hunit
      _ = 2 ^ ((bitWidthU64 n.natAbs : ℤ) + e) := by
          rw [zpow_add₀ (by norm_num), zpow_natCast]
      _ ≤ 2 ^ k := zpow_le_zpow_right₀ (by norm_num) hle

/-- Whether a group sum stays within the exponent of infinity can be told from the operands. -/
theorem exponent_le_iff (t : Instantiation) (acc : Value) (ps : List Value)
    (hacc : Reachable t acc) (hps : FiniteProducts t ps) :
    (groupSum t.width t.zeroExponent (acc :: ps)).exponent ≤ 128 ↔
      |truncatedSum t (acc :: ps)| < 2 ^ (129 : ℤ) := by
  have hw' : t.width ≤ 64 := by cases t <;> decide
  have hz := zeroExponent_le t
  have hsig : ∀ v ∈ acc :: ps, v.significand < 2 ^ 25 := by
    intro v hv
    rcases List.mem_cons.mp hv with rfl | hv
    · exact lt_trans hacc.canonical.significand_lt (by norm_num)
    · exact (hps.operand v hv).significand_lt
  have hstored := sumExponent_group t acc ps hacc hps
  rw [truncatedSum_eq t _ hsig, groupSum_eq_total]
  by_cases htotal : total t.width t.zeroExponent (acc :: ps) = 0
  · rw [htotal, Int.cast_zero, zero_mul, abs_zero]
    refine iff_of_true ?_ (zpow_pos (by norm_num) _)
    exact le_trans hz (by norm_num)
  rw [abs_mul_zpow_lt_iff _ _ _ htotal, normalize_eq _ _ _ _ (le_width t) hw']
  by_cases hflushed : sumSignificand t.width (maxExponent t.zeroExponent (acc :: ps))
      (total t.width t.zeroExponent (acc :: ps)) = 0
  -- What is renormalised to zero stood far below.
  · have hbelow : sumExponent t.width (maxExponent t.zeroExponent (acc :: ps))
        (total t.width t.zeroExponent (acc :: ps)) < -126 := by
      by_contra he
      have := le_sumSignificand _ _ _ (le_width t) htotal (not_lt.mp he)
      omega
    rw [if_pos hflushed]
    exact iff_of_true (le_trans hz (by norm_num)) (by omega)
  · rw [if_neg hflushed, hstored]
    simp only
    omega

/-! ## A run -/

theorem products_finite (t : Instantiation) (pairs : List (UInt16 × UInt16))
    (hpairs : ∀ p ∈ pairs, FiniteBf16 p.1 ∧ FiniteBf16 p.2) :
    FiniteProducts t (products t.zeroExponent (pairs.take t.productsPerGroup)) := by
  have hz : t.zeroExponent ≤ 254 := le_trans (zeroExponent_le t) (by norm_num)
  refine ⟨?_, ?_, ?_⟩
  · have hgroup : t.productsPerGroup ≤ 16 := by cases t <;> decide
    exact le_trans (products_spec t pairs).length_le hgroup
  all_goals
    intro p hp
    rcases List.mem_map.mp hp with ⟨pair, hpair, rfl⟩
    have hfinite := hpairs pair (List.mem_of_mem_take hpair)
  · exact .product _ _ hfinite.1 hfinite.2
  · exact multiplyBf16_exponent_le _ _ _ hz hfinite.1 hfinite.2

/-- A run that is not empty ends with the sum of its last group, whose operands are reachable. -/
theorem accumulateLoop_last (t : Instantiation) (fuel : Nat) (acc : Value)
    (pairs : List (UInt16 × UInt16)) (hpairs : ∀ p ∈ pairs, FiniteBf16 p.1 ∧ FiniteBf16 p.2)
    (hacc : Reachable t acc) (hfuel : pairs.length ≤ fuel) (hne : pairs ≠ []) :
    ∃ step, (accumulateLoop t fuel acc pairs).1.getLast? = some step ∧
      Reachable t step.1 ∧ FiniteProducts t step.2 ∧
      (accumulateLoop t fuel acc pairs).2 =
        groupSum t.width t.zeroExponent (step.1 :: step.2) := by
  induction fuel generalizing acc pairs with
  | zero => exact absurd (List.eq_nil_of_length_eq_zero (by omega)) hne
  | succ fuel ih =>
      rcases pairs with _ | ⟨pair, pairs⟩
      · exact absurd rfl hne
      have hproducts := products_finite t (pair :: pairs) hpairs
      have hnext := groupSum_reachable t acc _ hacc hproducts
      have hpos : 0 < t.productsPerGroup := by cases t <;> decide
      have hdrop : ((pair :: pairs).drop t.productsPerGroup).length ≤ fuel := by
        rw [List.length_drop]
        omega
      simp only [accumulateLoop]
      -- The group is the last one, or the last one is found in the rest.
      by_cases hlast : (pair :: pairs).drop t.productsPerGroup = []
      · rw [hlast]
        refine ⟨(acc, products t.zeroExponent ((pair :: pairs).take t.productsPerGroup)), ?_, hacc,
          hproducts, ?_⟩
        · cases fuel <;> rfl
        · cases fuel <;> rfl
      · rcases ih _ _ (fun p hp => hpairs p (List.mem_of_mem_drop hp)) hnext hdrop hlast with
          ⟨step, hstep, hreachable, hfinite, hresult⟩
        refine ⟨step, ?_, hreachable, hfinite, hresult⟩
        rw [List.getLast?_cons, hstep]
        rfl

theorem valueFromFloat_exponent_le (bits : UInt32) (z : Int) (hz : z ≤ 127)
    (hfinite : FiniteFloat bits) : (valueFromFloat bits z).exponent ≤ 127 := by
  have hfield : Binary32.exponentField bits < 2 ^ 8 := Nat.and_lt_two_pow _ (by norm_num)
  have hnotfull : Binary32.exponentField bits ≠ 0xff := hfinite
  have hstored : toInt16 ((Binary32.exponentField bits : Int) - 127) =
      (Binary32.exponentField bits : Int) - 127 := Int.bmod_eq_of_le (by omega) (by omega)
  rw [valueFromFloat_eq]
  split_ifs
  · exact hz
  · simp only
    omega
  · simp only
    omega

theorem SameNumber.faithful_iff {z : Int} {v w : Value} (h : SameNumber v w)
    (hv : Canonical z v) (hz : z ≤ -126) (bits : UInt32) : Faithful v bits ↔ Faithful w bits := by
  unfold Faithful
  rw [h.toRat_eq, h.exponent]
  by_cases hzero : v.significand = 0
  -- A zero does not overflow, so its sign is not asked for.
  · have hexponent := hv.zero hzero
    have hbelow : ¬127 < w.exponent := by
      rw [← h.exponent, hexponent]
      omega
    simp only [hbelow, false_and, or_false]
  · rw [h.negative hzero]

/-- What the end of a run makes of its accumulator is faithful up to the exponent of infinity. -/
theorem accumulateBf16_faithful_iff_exponent (t : Instantiation) (initial : UInt32)
    (pairs : List (UInt16 × UInt16))
    (hlast : Reachable t (lastAccumulator t initial pairs)) :
    Faithful (lastAccumulator t initial pairs)
        (UInt32.ofNat (accumulateBf16 t initial pairs)) ↔
      (lastAccumulator t initial pairs).exponent ≤ 128 := by
  have hw' : t.width ≤ 64 := by cases t <;> decide
  have hz := zeroExponent_le t
  have hexponent := hlast.exponent_le
  unfold exponentBound at hexponent
  have hsame := groupSum_singleton t.width t.zeroExponent _ (le_width t) hw' hz hlast.canonical
    (by omega)
  have hcanonical := groupSum_canonical t.width t.zeroExponent [lastAccumulator t initial pairs]
    (le_width t) hw'
  have hfloat := valueToFloat_faithful_iff _ _ hcanonical hz (by rw [hsame.exponent]; omega)
  rw [hsame.faithful_iff hcanonical hz, hsame.exponent] at hfloat
  exact hfloat

/-- Over finite words, the float of a run is the number of its accumulator, or an overflow of its
    sign, exactly if the operands of the last group, truncated to the unit of the group, add up to
    less than `2 ^ 129`. -/
theorem accumulateBf16_faithful_iff (t : Instantiation) (initial : UInt32)
    (pairs : List (UInt16 × UInt16)) (hinitial : FiniteFloat initial)
    (hpairs : ∀ p ∈ pairs, FiniteBf16 p.1 ∧ FiniteBf16 p.2) :
    Faithful (lastAccumulator t initial pairs) (UInt32.ofNat (accumulateBf16 t initial pairs)) ↔
      ∀ step ∈ (groupSteps t initial pairs).getLast?,
        |truncatedSum t (step.1 :: step.2)| < 2 ^ (129 : ℤ) := by
  have hexponent := valueFromFloat_exponent_le initial t.zeroExponent
    (le_trans (zeroExponent_le t) (by norm_num)) hinitial
  have hfirst : Reachable t (valueFromFloat initial t.zeroExponent) :=
    ⟨valueFromFloat_canonical initial _, le_trans hexponent (by decide)⟩
  by_cases hempty : pairs = []
  -- Without a group the float is the initial one.
  · subst hempty
    rw [accumulateBf16_faithful_iff_exponent t initial [] hfirst]
    exact iff_of_true (le_trans hexponent (by norm_num)) fun step hstep => nomatch hstep
  · rcases accumulateLoop_last t pairs.length _ pairs hpairs hfirst (Nat.le_refl _) hempty with
      ⟨step, hstep, hreachable, hfinite, hresult⟩
    have hlast : lastAccumulator t initial pairs =
        groupSum t.width t.zeroExponent (step.1 :: step.2) := hresult
    have hsteps : (groupSteps t initial pairs).getLast? = some step := hstep
    have hnext := groupSum_reachable t step.1 step.2 hreachable hfinite
    rw [accumulateBf16_faithful_iff_exponent t initial pairs (hlast ▸ hnext), hlast,
      exponent_le_iff t step.1 step.2 hreachable hfinite, hsteps]
    constructor
    · intro hsum step' hstep'
      rw [Option.mem_some_iff.mp hstep'] at hsum
      exact hsum
    · exact fun h => h step rfl

/-- Five products, in two groups, add up to more than the largest float and less than `2 ^ 129`. The
    float is not finite. -/
theorem overflowingRun_faithful :
    accumulateBf16 .group4Width25 0x3f800000 (List.replicate 5 (0x5f00, 0x5f00)) = 0x7fa00000 ∧
      ∀ step ∈ (groupSteps .group4Width25 0x3f800000
        (List.replicate 5 (0x5f00, 0x5f00))).getLast?,
        |truncatedSum .group4Width25 (step.1 :: step.2)| < 2 ^ (129 : ℤ) := by
  have hlast : lastAccumulator .group4Width25 0x3f800000 (List.replicate 5 (0x5f00, 0x5f00)) =
      { significand := 0xa00000, exponent := 128, negative := false } := by decide +kernel
  have hcanonical : Canonical (-132)
      { significand := 0xa00000, exponent := 128, negative := false } :=
    ⟨by decide, fun h => absurd h (by decide), fun _ => by decide, fun _ _ => by decide⟩
  have hfaithful := (accumulateBf16_faithful_iff_exponent .group4Width25 0x3f800000
    (List.replicate 5 (0x5f00, 0x5f00)) (hlast ▸ ⟨hcanonical, by decide⟩)).mpr
    (by rw [hlast])
  refine ⟨by decide +kernel, ?_⟩
  refine (accumulateBf16_faithful_iff .group4Width25 0x3f800000 (List.replicate 5 (0x5f00, 0x5f00))
    (by decide) ?_).mp hfaithful
  intro p hp
  rw [(List.mem_replicate.mp hp).2]
  exact ⟨by decide, by decide⟩

/-- The product of two words of `2 ^ 127` ends as the float of one quarter. -/
theorem quarter_of_overflow :
    FiniteFloat 0 ∧ FiniteBf16 0x7f00 ∧
      accumulateBf16 .ampereLovelace 0 [(0x7f00, 0x7f00)] = 0x3e800000 ∧
      lastAccumulator .ampereLovelace 0 [(0x7f00, 0x7f00)] =
        { significand := 2 ^ 23, exponent := 254, negative := false } ∧
      ¬Faithful (lastAccumulator .ampereLovelace 0 [(0x7f00, 0x7f00)])
        (UInt32.ofNat (accumulateBf16 .ampereLovelace 0 [(0x7f00, 0x7f00)])) := by
  have hlast : lastAccumulator .ampereLovelace 0 [(0x7f00, 0x7f00)] =
      { significand := 2 ^ 23, exponent := 254, negative := false } := by decide +kernel
  refine ⟨by decide, by decide, by decide +kernel, hlast, ?_⟩
  have hcanonical : Canonical (-132)
      { significand := 2 ^ 23, exponent := 254, negative := false } :=
    ⟨by decide, fun h => absurd h (by decide), fun _ => by decide, fun _ _ => by decide⟩
  rw [accumulateBf16_faithful_iff_exponent .ampereLovelace 0 _ (hlast ▸ ⟨hcanonical, by decide⟩),
    hlast]
  decide

end Accumulator

end QrtEngine
