import QrtEngine.Kernels.AccumulatorRange
import QrtEngine.Library.Binary32

/-!
# Canonical Accumulators

Whatever a group sum is given, it leaves a canonical value: a significand of twenty-four bits, with
its highest bit set unless the exponent is the smallest one of binary32, and a zero at the exponent
of zero. On such values the steps at the end of a run change nothing: the group sum of one value is
that value, and so is the value read back from its float, as long as the exponent is one that
binary32 has. Only the sign of a zero is lost, which no group sum reads.

So a run may be cut where a group ends, and the second part started from the float of the first.

## Main definitions

* `SameNumber`: Two values that differ in the sign of a zero at most.
* `Canonical`: A value as a group sum leaves it.
* `sumExponent`, `sumSignificand`: What a sum is renormalised to.

## Theorems

* `normalize_eq`: The two stages of a renormalisation as one shift.
* `groupSum_canonical`: A group sum is canonical.
* `groupSum_singleton`: The group sum of a canonical value.
* `valueFromFloat_valueToFloat`: The float of a canonical value reads back as that value.
* `accumulateBf16_append`: A run in two parts.
-/

namespace QrtEngine

namespace Accumulator

/-! ## Values up to the sign of zero -/

/-- The same number: the values differ in the sign of a zero at most. -/
structure SameNumber (v w : Value) : Prop where
  significand : v.significand = w.significand
  exponent : v.exponent = w.exponent
  negative : v.significand ≠ 0 → v.negative = w.negative

theorem SameNumber.trans {u v w : Value} (h : SameNumber u v) (h' : SameNumber v w) :
    SameNumber u w :=
  ⟨h.significand.trans h'.significand, h.exponent.trans h'.exponent,
    fun hu => (h.negative hu).trans (h'.negative (h.significand ▸ hu))⟩

theorem SameNumber.symm {v w : Value} (h : SameNumber v w) : SameNumber w v :=
  ⟨h.significand.symm, h.exponent.symm, fun hw => (h.negative (h.significand ▸ hw)).symm⟩

theorem term_of_significand_eq_zero (width : Nat) (m : Int) (v : Value)
    (h : v.significand = 0) : term width m v = 0 := by
  unfold term aligned
  rw [h, Nat.zero_shiftLeft, Nat.zero_shiftRight]
  split_ifs <;> rfl

theorem SameNumber.term_eq {v w : Value} (h : SameNumber v w) (width : Nat) (m : Int) :
    term width m v = term width m w := by
  by_cases hzero : v.significand = 0
  · rw [term_of_significand_eq_zero width m v hzero,
      term_of_significand_eq_zero width m w (h.significand ▸ hzero)]
  · unfold term aligned
    rw [h.significand, h.exponent, h.negative hzero]

/-- The sum of a group is the sum of its addends. -/
theorem foldl_sumStep (width : Nat) (m : Int) (values : List Value) (sum : Int) :
    values.foldl (sumStep width m) sum = sum + (values.map (term width m)).sum := by
  induction values generalizing sum with
  | nil => exact (add_zero sum).symm
  | cons v values ih =>
      rw [List.foldl_cons, ih, sumStep_eq_add_term, List.map_cons, List.sum_cons, add_assoc]

theorem groupSum_eq (width : Nat) (z : Int) (values : List Value) :
    groupSum width z values =
      normalize width z (maxExponent z values)
        (values.map (term width (maxExponent z values))).sum := by
  unfold groupSum
  dsimp only
  rw [foldl_sumStep, zero_add]

/-- No group sum reads the sign of a zero. -/
theorem SameNumber.groupSum_eq {v w : Value} (h : SameNumber v w) (width : Nat) (z : Int)
    (values : List Value) :
    groupSum width z (v :: values) = groupSum width z (w :: values) := by
  have hmax : maxExponent z (v :: values) = maxExponent z (w :: values) := by
    unfold maxExponent
    rw [List.foldl_cons, List.foldl_cons, h.exponent]
  rw [Accumulator.groupSum_eq, Accumulator.groupSum_eq, hmax, List.map_cons, List.map_cons,
    h.term_eq]

/-! ## Renormalisation -/

/-- The exponent a sum is renormalised to, as it is stored. -/
def sumExponent (width : Nat) (m s : Int) : Int := toInt16 (m + bitWidthU64 s.natAbs - width)

/-- The significand a sum is renormalised to: moved up to the internal width, or down to it and on
    to the smallest exponent and to twenty-four bits. -/
def sumSignificand (width : Nat) (m s : Int) : Nat :=
  (s.natAbs <<< (width - bitWidthU64 s.natAbs)) >>>
    (bitWidthU64 s.natAbs - width + (-126 - sumExponent width m s).toNat + (width - 24))

/-- A sum that is not zero, moved to the internal width, fills it. -/
theorem widened_bounds (width n : Nat) (hw : 0 < width) (hn : n ≠ 0) :
    2 ^ (width - 1) ≤ (n <<< (width - bitWidthU64 n)) >>> (bitWidthU64 n - width) ∧
      (n <<< (width - bitWidthU64 n)) >>> (bitWidthU64 n - width) < 2 ^ width := by
  have hupper := lt_two_pow_bitWidthU64 n
  have hbits : bitWidthU64 n = Nat.log2 n + 1 := if_neg hn
  have hlower : 2 ^ (bitWidthU64 n - 1) ≤ n := by
    rw [hbits]
    exact Nat.log2_self_le hn
  rw [Nat.shiftLeft_eq, Nat.shiftRight_eq_div_pow]
  rcases Nat.le_total (bitWidthU64 n) width with hle | hle
  -- Moved up: nothing falls off.
  · obtain ⟨k, hk⟩ := Nat.exists_eq_add_of_le hle
    have hzero : bitWidthU64 n - width = 0 := by omega
    have hup : width - bitWidthU64 n = k := by omega
    rw [hzero, hup, Nat.pow_zero, Nat.div_one]
    refine ⟨?_, ?_⟩
    · calc 2 ^ (width - 1) = 2 ^ (bitWidthU64 n - 1) * 2 ^ k := by
            rw [← Nat.pow_add]
            congr 1
            omega
        _ ≤ n * 2 ^ k := Nat.mul_le_mul_right _ hlower
    · calc n * 2 ^ k < 2 ^ bitWidthU64 n * 2 ^ k :=
            Nat.mul_lt_mul_of_pos_right hupper (Nat.two_pow_pos k)
        _ = 2 ^ width := by rw [← Nat.pow_add, hk]
  -- Moved down: the bits below the width are dropped.
  · obtain ⟨k, hk⟩ := Nat.exists_eq_add_of_le hle
    have hzero : width - bitWidthU64 n = 0 := by omega
    have hdown : bitWidthU64 n - width = k := by omega
    rw [hzero, hdown, Nat.pow_zero, Nat.mul_one]
    refine ⟨?_, ?_⟩
    · rw [Nat.le_div_iff_mul_le (Nat.two_pow_pos k), ← Nat.pow_add]
      refine le_trans (Nat.pow_le_pow_right Nat.two_pos ?_) hlower
      omega
    · rw [Nat.div_lt_iff_lt_mul (Nat.two_pow_pos k), ← Nat.pow_add, ← hk]
      exact hupper

theorem sumSignificand_eq_shift (width : Nat) (m s : Int) :
    sumSignificand width m s =
      ((s.natAbs <<< (width - bitWidthU64 s.natAbs)) >>> (bitWidthU64 s.natAbs - width)) >>>
        ((-126 - sumExponent width m s).toNat + (width - 24)) := by
  unfold sumSignificand
  rw [← Nat.shiftRight_add, Nat.add_assoc]

theorem sumSignificand_lt (width : Nat) (m s : Int) (hw : 24 ≤ width) :
    sumSignificand width m s < 2 ^ 24 := by
  by_cases hs : s.natAbs = 0
  · unfold sumSignificand
    rw [hs, Nat.zero_shiftLeft, Nat.zero_shiftRight]
    exact Nat.two_pow_pos 24
  · have hbounds := widened_bounds width s.natAbs (by omega) hs
    rw [sumSignificand_eq_shift, Nat.shiftRight_eq_div_pow,
      Nat.div_lt_iff_lt_mul (Nat.two_pow_pos _), ← Nat.pow_add]
    refine lt_of_lt_of_le hbounds.2 (Nat.pow_le_pow_right Nat.two_pos ?_)
    omega

/-- A sum at an exponent that binary32 has keeps its highest bit. -/
theorem le_sumSignificand (width : Nat) (m s : Int) (hw : 24 ≤ width) (hs : s ≠ 0)
    (he : -126 ≤ sumExponent width m s) : 2 ^ 23 ≤ sumSignificand width m s := by
  have hbounds := widened_bounds width s.natAbs (by omega) (Int.natAbs_ne_zero.mpr hs)
  have hunder : (-126 - sumExponent width m s).toNat = 0 := by omega
  rw [sumSignificand_eq_shift, hunder, Nat.zero_add, Nat.shiftRight_eq_div_pow,
    Nat.le_div_iff_mul_le (Nat.two_pow_pos _), ← Nat.pow_add]
  refine le_trans (Nat.pow_le_pow_right Nat.two_pos ?_) hbounds.1
  omega

/-- The two directions of a shift to a width are one, since a shift by nothing does nothing. -/
theorem widened_eq (width bits n : Nat) :
    (if bits > width then n >>> (bits - width) else n <<< (width - bits)) =
      (n <<< (width - bits)) >>> (bits - width) := by
  by_cases hgt : bits > width
  · have hzero : width - bits = 0 := by omega
    rw [if_pos hgt, hzero, Nat.shiftLeft_zero]
  · have hzero : bits - width = 0 := by omega
    rw [if_neg hgt, hzero, Nat.shiftRight_zero]

/-- A shift to the smallest exponent. No width has sixty-four bits to lose. -/
theorem flushed_eq (width n : Nat) (e : Int) (hn : n < 2 ^ width) (hw : width ≤ 64) :
    (if decide (e < -126) = true then
        if (-126 - e).toNat ≥ 64 then 0 else n >>> (-126 - e).toNat
      else n) = n >>> (-126 - e).toNat := by
  by_cases hunder : e < -126
  · rw [if_pos (decide_eq_true hunder)]
    by_cases hfar : (-126 - e).toNat ≥ 64
    · rw [if_pos hfar, Nat.shiftRight_eq_div_pow, Nat.div_eq_of_lt]
      exact lt_of_lt_of_le hn (Nat.pow_le_pow_right Nat.two_pos (by omega))
    · rw [if_neg hfar]
  · have hzero : (-126 - e).toNat = 0 := by omega
    rw [if_neg (by rw [decide_eq_true_eq]; exact hunder), hzero, Nat.shiftRight_zero]

theorem flushedExponent_eq (e : Int) :
    (if decide (e < -126) = true then -126 else e) = max e (-126) := by
  by_cases hunder : e < -126
  · rw [if_pos (decide_eq_true hunder)]
    omega
  · rw [if_neg (by rw [decide_eq_true_eq]; exact hunder)]
    omega

/-- Renormalising is one shift of the sum, and an exponent not below the smallest one. -/
theorem normalize_eq (width : Nat) (z m s : Int) (hw : 24 ≤ width) (hw' : width ≤ 64) :
    normalize width z m s =
      if sumSignificand width m s = 0 then
        { significand := 0, exponent := z, negative := decide (s < 0) }
      else
        { significand := sumSignificand width m s, exponent := max (sumExponent width m s) (-126)
          negative := decide (s < 0) } := by
  by_cases hs : s.natAbs = 0
  · have hzero : sumSignificand width m s = 0 := by
      unfold sumSignificand
      rw [hs, Nat.zero_shiftLeft, Nat.zero_shiftRight]
    rw [if_pos hzero]
    unfold normalize
    dsimp only
    rw [hs]
    rfl
  · -- The left shift fills the width, and the right shift leaves twenty-four bits of it.
    have hbits : bitWidthU64 s.natAbs ≠ 0 := by
      unfold bitWidthU64
      rw [if_neg hs]
      exact Nat.succ_ne_zero _
    have hbounds := widened_bounds width s.natAbs (by omega) hs
    have hword : toUInt32 (sumSignificand width m s) = sumSignificand width m s :=
      Nat.mod_eq_of_lt (lt_trans (sumSignificand_lt width m s hw) (by norm_num))
    have hsum := sumSignificand_eq_shift width m s
    rw [Nat.shiftRight_add] at hsum
    unfold sumExponent at hsum
    unfold normalize
    dsimp only
    rw [if_neg hbits, widened_eq, flushed_eq width _ _ hbounds.2 hw', flushedExponent_eq, ← hsum,
      hword]
    rfl

/-! ## Canonical values -/

/-- A value as a group sum leaves it: twenty-four bits, the highest one set unless the exponent is
    the smallest, and a zero at the exponent of zero. -/
structure Canonical (zeroExponent : Int) (v : Value) : Prop where
  significand_lt : v.significand < 2 ^ 24
  zero : v.significand = 0 → v.exponent = zeroExponent
  le_exponent : v.significand ≠ 0 → -126 ≤ v.exponent
  normal : v.significand ≠ 0 → v.exponent ≠ -126 → 2 ^ 23 ≤ v.significand

theorem normalize_canonical (width : Nat) (z m s : Int) (hw : 24 ≤ width) (hw' : width ≤ 64) :
    Canonical z (normalize width z m s) := by
  rw [normalize_eq width z m s hw hw']
  by_cases hzero : sumSignificand width m s = 0
  · rw [if_pos hzero]
    exact ⟨Nat.two_pow_pos 24, fun _ => rfl, fun h => absurd rfl h, fun h => absurd rfl h⟩
  · rw [if_neg hzero]
    refine ⟨sumSignificand_lt width m s hw, fun h => absurd h hzero, fun _ => le_max_right _ _, ?_⟩
    intro _ hexponent
    have hs : s ≠ 0 := by
      intro hs
      refine hzero ?_
      unfold sumSignificand
      rw [hs, Int.natAbs_zero, Nat.zero_shiftLeft, Nat.zero_shiftRight]
    refine le_sumSignificand width m s hw hs ?_
    have : max (sumExponent width m s) (-126) ≠ -126 := hexponent
    omega

/-- A group sum is canonical. -/
theorem groupSum_canonical (width : Nat) (z : Int) (values : List Value) (hw : 24 ≤ width)
    (hw' : width ≤ 64) : Canonical z (groupSum width z values) :=
  normalize_canonical width z _ _ hw hw'

theorem bitWidthU64_shiftLeft (n k : Nat) (hn : n ≠ 0) :
    bitWidthU64 (n <<< k) = bitWidthU64 n + k := by
  have hshift : n <<< k ≠ 0 := by
    rw [Nat.shiftLeft_eq]
    exact Nat.mul_ne_zero hn (Nat.two_pow_pos k).ne'
  have hlog : Nat.log2 (n <<< k) = Nat.log2 n + k := by
    rw [Nat.log2_eq_iff hshift, Nat.shiftLeft_eq, Nat.add_right_comm, Nat.pow_add, Nat.pow_add]
    exact ⟨Nat.mul_le_mul_right _ (Nat.log2_self_le hn),
      Nat.mul_lt_mul_of_pos_right Nat.lt_log2_self (Nat.two_pow_pos k)⟩
  unfold bitWidthU64
  rw [if_neg hshift, if_neg hn, hlog, Nat.add_right_comm]

theorem bitWidthU64_le (n k : Nat) (h : n < 2 ^ k) : bitWidthU64 n ≤ k := by
  unfold bitWidthU64
  by_cases hn : n = 0
  · rw [if_pos hn]
    exact Nat.zero_le k
  · rw [if_neg hn]
    exact (Nat.log2_lt hn).mpr h

theorem lt_bitWidthU64 (n k : Nat) (h : 2 ^ k ≤ n) : k < bitWidthU64 n := by
  have hn : n ≠ 0 := (lt_of_lt_of_le (Nat.two_pow_pos k) h).ne'
  unfold bitWidthU64
  rw [if_neg hn, Nat.lt_succ_iff]
  exact (Nat.le_log2 hn).mpr h

theorem maxExponent_singleton (z : Int) (v : Value) (h : z ≤ v.exponent) :
    maxExponent z [v] = v.exponent := by
  unfold maxExponent
  rw [List.foldl_cons, List.foldl_nil]
  split_ifs <;> omega

/-- The addend at the exponent of the group is not shifted. -/
theorem term_self (width : Nat) (v : Value) :
    term width v.exponent v =
      if v.negative then -((v.significand <<< (width - 24) : Nat) : Int)
      else ((v.significand <<< (width - 24) : Nat) : Int) := by
  unfold term aligned
  rw [Int.sub_self, if_neg (by decide), Int.toNat_zero, Nat.shiftRight_zero]

/-- The group sum of a canonical value is that value. -/
theorem groupSum_singleton (width : Nat) (z : Int) (v : Value) (hw : 24 ≤ width)
    (hw' : width ≤ 64) (hz : z ≤ -126) (hv : Canonical z v) (hmax : v.exponent ≤ 32767) :
    SameNumber (groupSum width z [v]) v := by
  rw [groupSum_eq, List.map_singleton, List.sum_singleton]
  by_cases hzero : v.significand = 0
  · have hsum : normalize width z (maxExponent z [v]) 0 =
        { significand := 0, exponent := z, negative := false } := rfl
    rw [term_of_significand_eq_zero width _ v hzero, hsum]
    exact ⟨hzero.symm, (hv.zero hzero).symm, fun h => absurd rfl h⟩
  have hexponent := hv.le_exponent hzero
  rw [maxExponent_singleton z v (by omega), term_self, normalize_eq width z _ _ hw hw']
  -- A significand that is not full stands at the smallest exponent.
  have hbits := bitWidthU64_le v.significand 24 hv.significand_lt
  have hpos := lt_bitWidthU64 v.significand 0 (Nat.one_le_iff_ne_zero.mpr hzero)
  have hfull : bitWidthU64 v.significand = 24 ∨ v.exponent = -126 := by
    by_cases hmin : v.exponent = -126
    · exact Or.inr hmin
    · have := lt_bitWidthU64 v.significand 23 (hv.normal hzero hmin)
      exact Or.inl (by omega)
  have hshifted := bitWidthU64_shiftLeft v.significand (width - 24) hzero
  have hshift_pos : 0 < v.significand <<< (width - 24) := by
    rw [Nat.shiftLeft_eq]
    exact Nat.mul_pos (Nat.pos_of_ne_zero hzero) (Nat.two_pow_pos _)
  generalize hs : (if v.negative then -((v.significand <<< (width - 24) : Nat) : Int)
    else ((v.significand <<< (width - 24) : Nat) : Int)) = s
  have habs : s.natAbs = v.significand <<< (width - 24) := by
    rw [← hs]
    split_ifs <;> omega
  have hsign : decide (s < 0) = v.negative := by
    rw [← hs]
    cases v.negative with
    | false => exact decide_eq_false (by simp only [Bool.false_eq_true, if_false]; omega)
    | true => exact decide_eq_true (by simp only [if_true]; omega)
  have hstored : sumExponent width v.exponent s = v.exponent + bitWidthU64 v.significand - 24 := by
    unfold sumExponent toInt16
    rw [habs, hshifted, Int.bmod_eq_of_le (by push_cast; omega) (by push_cast; omega)]
    push_cast
    omega
  have hsig : sumSignificand width v.exponent s = v.significand := by
    have hup : width - (bitWidthU64 v.significand + (width - 24)) =
        24 - bitWidthU64 v.significand := by omega
    have hdown : bitWidthU64 v.significand + (width - 24) - width +
        (-126 - (v.exponent + bitWidthU64 v.significand - 24)).toNat + (width - 24) =
        (width - 24) + (24 - bitWidthU64 v.significand) := by omega
    unfold sumSignificand
    rw [hstored, habs, hshifted, hup, hdown, ← Nat.shiftLeft_add, Nat.shiftLeft_shiftRight]
  rw [hsig, if_neg hzero, hsign, hstored]
  exact ⟨rfl, by simp only; omega, fun _ => rfl⟩

/-! ## The float of a value -/

/-- The word of a value that is not zero. -/
theorem valueToFloat_eq_pack (v : Value) (h : v.significand ≠ 0) :
    valueToFloat v = Binary32.pack v.negative
      (((if v.significand &&& 0x800000 = 0 then v.exponent + 127 - 1 else v.exponent + 127) %
        2 ^ 32).toNat &&& 0xff) (v.significand &&& 0x7fffff) :=
  if_neg h

theorem valueFromFloat_eq (bits : UInt32) (z : Int) :
    valueFromFloat bits z =
      if Binary32.exponentField bits = 0 ∧ Binary32.fractionField bits = 0 then
        { significand := 0, exponent := z, negative := Binary32.negative bits }
      else
        { significand := if Binary32.exponentField bits = 0 then Binary32.fractionField bits
            else Binary32.fractionField bits ||| 0x800000
          exponent := if Binary32.exponentField bits = 0 then -126
            else toInt16 ((Binary32.exponentField bits : Int) - 127)
          negative := Binary32.negative bits } := rfl

theorem and_0x800000 (n : Nat) (h : n < 2 ^ 24) : n &&& 0x800000 = 0 ↔ n < 2 ^ 23 := by
  have hmask : n &&& 0x800000 = (n.testBit 23).toNat * 2 ^ 23 := Nat.and_two_pow n 23
  rw [hmask, Nat.testBit_eq_decide_div_mod_eq]
  by_cases hbit : n / 2 ^ 23 % 2 = 1
  · rw [decide_eq_true hbit]
    simp only [Bool.toNat_true]
    omega
  · rw [decide_eq_false hbit]
    simp only [Bool.toNat_false]
    omega

/-- The fields of a canonical value: the smallest exponent and no hidden bit, or a hidden bit and
    eight bits of the exponent. -/
theorem valueToFloat_canonical (z : Int) (v : Value) (hv : Canonical z v)
    (hnonzero : v.significand ≠ 0) :
    (v.significand < 2 ^ 23 ∧ v.exponent = -126 ∧
      valueToFloat v = Binary32.pack v.negative 0 v.significand) ∨
    (2 ^ 23 ≤ v.significand ∧
      valueToFloat v =
        Binary32.pack v.negative ((v.exponent + 127) % 2 ^ 8).toNat (v.significand - 2 ^ 23)) := by
  have hexponent := hv.le_exponent hnonzero
  have hlt := hv.significand_lt
  rw [valueToFloat_eq_pack v hnonzero, Binary32.and_0x7fffff, Binary32.and_0xff]
  by_cases hsub : v.significand < 2 ^ 23
  · have hmin : v.exponent = -126 := by
      by_contra hne
      have := hv.normal hnonzero hne
      omega
    refine Or.inl ⟨hsub, hmin, ?_⟩
    rw [if_pos ((and_0x800000 _ hlt).mpr hsub), Nat.mod_eq_of_lt hsub, hmin]
    rfl
  · refine Or.inr ⟨by omega, ?_⟩
    have hfield : ((v.exponent + 127) % 2 ^ 32).toNat % 2 ^ 8 =
        ((v.exponent + 127) % 2 ^ 8).toNat := by omega
    have hfraction : v.significand % 2 ^ 23 = v.significand - 2 ^ 23 := by omega
    rw [if_neg (mt (and_0x800000 _ hlt).mp hsub), hfield, hfraction]

/-- The float of a canonical value, at an exponent that binary32 has, reads back as that value. -/
theorem valueFromFloat_valueToFloat (z : Int) (v : Value) (hv : Canonical z v)
    (hmax : v.exponent ≤ 127) :
    SameNumber (valueFromFloat (UInt32.ofNat (valueToFloat v)) z) v := by
  by_cases hzero : v.significand = 0
  · have hfloat : valueToFloat v = 0 := if_pos hzero
    rw [hfloat]
    exact ⟨hzero.symm, (hv.zero hzero).symm, fun h => absurd rfl h⟩
  have hlt := hv.significand_lt
  have hexponent := hv.le_exponent hzero
  rcases valueToFloat_canonical z v hv hzero with ⟨hsub, hmin, hfloat⟩ | ⟨hfull, hfloat⟩
  · -- A subnormal has no hidden bit and the smallest exponent.
    rw [hfloat, valueFromFloat_eq, Binary32.exponentField_pack _ _ _ (by norm_num) hsub,
      Binary32.fractionField_pack _ _ _ (by norm_num) hsub,
      Binary32.negative_pack _ _ _ (by norm_num) hsub, if_neg fun h => hzero h.2]
    exact ⟨rfl, hmin.symm, fun _ => rfl⟩
  · -- A normal value keeps its exponent in the field, and gets its hidden bit back.
    have he : ((v.exponent + 127) % 2 ^ 8).toNat < 2 ^ 8 := by omega
    have hf : v.significand - 2 ^ 23 < 2 ^ 23 := by omega
    have hfield : ((v.exponent + 127) % 2 ^ 8).toNat ≠ 0 := by omega
    rw [hfloat, valueFromFloat_eq, Binary32.exponentField_pack _ _ _ he hf,
      Binary32.fractionField_pack _ _ _ he hf, Binary32.negative_pack _ _ _ he hf,
      if_neg fun h => hfield h.1, if_neg hfield, if_neg hfield]
    refine ⟨?_, ?_, fun _ => rfl⟩
    · have hor := Binary32.or_hidden_bit _ hf
      simp only
      omega
    · simp only [toInt16]
      rw [Int.bmod_eq_of_le (by omega) (by omega)]
      omega

/-! ## A run in two parts -/

/-- Fuel beyond the number of pairs is not used. -/
theorem accumulateLoop_fuel (t : Instantiation) (fuel fuel' : Nat) (acc : Value)
    (pairs : List (UInt16 × UInt16)) (h : pairs.length ≤ fuel) (h' : pairs.length ≤ fuel') :
    accumulateLoop t fuel acc pairs = accumulateLoop t fuel' acc pairs := by
  induction fuel generalizing fuel' acc pairs with
  | zero =>
      have hnil : pairs = [] := List.eq_nil_of_length_eq_zero (by omega)
      subst hnil
      cases fuel' <;> rfl
  | succ fuel ih =>
      rcases pairs with _ | ⟨pair, pairs⟩
      · cases fuel' <;> rfl
      rw [List.length_cons] at h h'
      obtain ⟨fuel', rfl⟩ : ∃ k, fuel' = k + 1 := ⟨fuel' - 1, by omega⟩
      have hpos : 0 < t.productsPerGroup := by cases t <;> decide
      have hdrop : ((pair :: pairs).drop t.productsPerGroup).length ≤ pairs.length := by
        rw [List.length_drop, List.length_cons]
        omega
      simp only [accumulateLoop]
      rw [ih fuel' _ _ (by omega) (by omega)]

/-- The accumulator that a run from a given accumulator ends with. -/
def accumulateFrom (t : Instantiation) (acc : Value) (pairs : List (UInt16 × UInt16)) : Value :=
  (accumulateLoop t pairs.length acc pairs).2

theorem accumulateFrom_nil (t : Instantiation) (acc : Value) : accumulateFrom t acc [] = acc := rfl

theorem lastAccumulator_eq (t : Instantiation) (initial : UInt32)
    (pairs : List (UInt16 × UInt16)) :
    lastAccumulator t initial pairs =
      accumulateFrom t (valueFromFloat initial t.zeroExponent) pairs := rfl

/-- A run that is not over begins with a group sum. -/
theorem accumulateFrom_eq (t : Instantiation) (acc : Value) (pairs : List (UInt16 × UInt16))
    (h : pairs ≠ []) :
    accumulateFrom t acc pairs =
      accumulateFrom t
        (groupSum t.width t.zeroExponent
          (acc :: products t.zeroExponent (pairs.take t.productsPerGroup)))
        (pairs.drop t.productsPerGroup) := by
  rcases pairs with _ | ⟨pair, pairs⟩
  · exact absurd rfl h
  have hpos : 0 < t.productsPerGroup := by cases t <;> decide
  have hdrop : ((pair :: pairs).drop t.productsPerGroup).length ≤ pairs.length := by
    rw [List.length_drop, List.length_cons]
    omega
  unfold accumulateFrom
  rw [List.length_cons, accumulateLoop]
  rw [accumulateLoop_fuel t pairs.length _ _ _ hdrop (Nat.le_refl _)]

/-- A run over full groups and more goes on from the accumulator of the full groups. -/
theorem accumulateFrom_append (t : Instantiation) (acc : Value)
    (a b : List (UInt16 × UInt16)) (h : t.productsPerGroup ∣ a.length) :
    accumulateFrom t acc (a ++ b) = accumulateFrom t (accumulateFrom t acc a) b := by
  obtain ⟨groups, hgroups⟩ := h
  induction groups generalizing acc a with
  | zero =>
      have hnil : a = [] := List.eq_nil_of_length_eq_zero (by rw [hgroups, Nat.mul_zero])
      rw [hnil, List.nil_append, accumulateFrom_nil]
  | succ groups ih =>
      have hpos : 0 < t.productsPerGroup := by cases t <;> decide
      have hle : t.productsPerGroup ≤ a.length := by
        rw [hgroups]
        exact Nat.le_mul_of_pos_right _ (Nat.succ_pos _)
      have hne : a ≠ [] := List.ne_nil_of_length_pos (by omega)
      rw [accumulateFrom_eq t acc (a ++ b) (List.append_ne_nil_of_left_ne_nil hne b),
        accumulateFrom_eq t acc a hne, List.take_append_of_le_length hle,
        List.drop_append_of_le_length hle]
      refine ih _ _ ?_
      rw [List.length_drop, hgroups, Nat.mul_succ, Nat.add_sub_cancel]

theorem accumulateFrom_canonical (t : Instantiation) (acc : Value)
    (pairs : List (UInt16 × UInt16)) (hacc : Canonical t.zeroExponent acc) :
    Canonical t.zeroExponent (accumulateFrom t acc pairs) := by
  induction hlength : pairs.length using Nat.strong_induction_on generalizing acc pairs with
  | _ length ih =>
      rcases pairs with _ | ⟨pair, pairs⟩
      · exact hacc
      have hpos : 0 < t.productsPerGroup := by cases t <;> decide
      rw [accumulateFrom_eq t acc _ (List.cons_ne_nil _ _)]
      refine ih _ ?_ _ _ (groupSum_canonical _ _ _ (le_width t) (by cases t <;> decide)) rfl
      rw [← hlength, List.length_drop, List.length_cons]
      omega

/-- A value read from a float is canonical. -/
theorem valueFromFloat_canonical (bits : UInt32) (z : Int) :
    Canonical z (valueFromFloat bits z) := by
  have hfraction : Binary32.fractionField bits < 2 ^ 23 := Nat.and_lt_two_pow _ (by norm_num)
  have hexponent : Binary32.exponentField bits < 2 ^ 8 := Nat.and_lt_two_pow _ (by norm_num)
  rw [valueFromFloat_eq]
  by_cases hzero : Binary32.exponentField bits = 0 ∧ Binary32.fractionField bits = 0
  · rw [if_pos hzero]
    exact ⟨Nat.two_pow_pos 24, fun _ => rfl, fun h => absurd rfl h, fun h => absurd rfl h⟩
  rw [if_neg hzero]
  by_cases hsub : Binary32.exponentField bits = 0
  · rw [if_pos hsub, if_pos hsub]
    exact ⟨by simp only; omega, fun h => absurd ⟨hsub, h⟩ hzero, fun _ => le_refl _,
      fun _ h => absurd rfl h⟩
  · have hor := Binary32.or_hidden_bit _ hfraction
    have hstored : toInt16 ((Binary32.exponentField bits : Int) - 127) =
        (Binary32.exponentField bits : Int) - 127 :=
      Int.bmod_eq_of_le (by omega) (by omega)
    rw [if_neg hsub, if_neg hsub, hor, hstored]
    exact ⟨by simp only; omega, fun h => absurd h (by simp only; omega),
      fun _ => by simp only; omega, fun _ _ => by simp only; omega⟩

/-- The sign of a zero accumulator does not reach the float of a run. -/
theorem SameNumber.float_eq (t : Instantiation) {v w : Value} (h : SameNumber v w)
    (pairs : List (UInt16 × UInt16)) :
    groupSum t.width t.zeroExponent [accumulateFrom t v pairs] =
      groupSum t.width t.zeroExponent [accumulateFrom t w pairs] := by
  rcases pairs with _ | ⟨pair, pairs⟩
  · exact h.groupSum_eq t.width t.zeroExponent []
  · rw [accumulateFrom_eq t v _ (List.cons_ne_nil _ _),
      accumulateFrom_eq t w _ (List.cons_ne_nil _ _), h.groupSum_eq]

/-- What the end of a run makes of its accumulator, and what reading the float back makes of that:
    neither changes more than the sign of a zero. -/
theorem lastAccumulator_kept (t : Instantiation) (initial : UInt32)
    (pairs : List (UInt16 × UInt16)) (hmax : (lastAccumulator t initial pairs).exponent ≤ 127) :
    SameNumber (groupSum t.width t.zeroExponent [lastAccumulator t initial pairs])
        (lastAccumulator t initial pairs) ∧
      SameNumber
        (valueFromFloat (UInt32.ofNat (accumulateBf16 t initial pairs)) t.zeroExponent)
        (lastAccumulator t initial pairs) := by
  have hwidth : t.width ≤ 64 := by cases t <;> decide
  have hcanonical := accumulateFrom_canonical t _ pairs
    (valueFromFloat_canonical initial t.zeroExponent)
  have hlast := groupSum_singleton t.width t.zeroExponent _ (le_width t) hwidth
    (zeroExponent_le t) hcanonical (le_trans hmax (by norm_num))
  refine ⟨hlast, SameNumber.trans ?_ hlast⟩
  refine valueFromFloat_valueToFloat _ _ (groupSum_canonical _ _ _ (le_width t) hwidth) ?_
  exact le_of_eq_of_le hlast.exponent hmax

/-- A run may be cut after any number of full groups, if the accumulator there is at an exponent
    that binary32 has: the second part, started from the float of the first, ends with the float of
    the whole run. Neither the last group sum of the first part nor its float loses anything. -/
theorem accumulateBf16_append (t : Instantiation) (initial : UInt32)
    (a b : List (UInt16 × UInt16)) (hgroups : t.productsPerGroup ∣ a.length)
    (hmax : (lastAccumulator t initial a).exponent ≤ 127) :
    accumulateBf16 t initial (a ++ b) =
        accumulateBf16 t (UInt32.ofNat (accumulateBf16 t initial a)) b ∧
      SameNumber (groupSum t.width t.zeroExponent [lastAccumulator t initial a])
        (lastAccumulator t initial a) ∧
      SameNumber (valueFromFloat (UInt32.ofNat (accumulateBf16 t initial a)) t.zeroExponent)
        (lastAccumulator t initial a) := by
  have hkept := lastAccumulator_kept t initial a hmax
  refine ⟨?_, hkept⟩
  calc accumulateBf16 t initial (a ++ b)
      = valueToFloat (groupSum t.width t.zeroExponent
          [accumulateFrom t (lastAccumulator t initial a) b]) := by
        rw [accumulateBf16, lastAccumulator_eq, accumulateFrom_append t _ a b hgroups]
        rfl
    _ = valueToFloat (groupSum t.width t.zeroExponent
          [accumulateFrom t
            (valueFromFloat (UInt32.ofNat (accumulateBf16 t initial a)) t.zeroExponent) b]) := by
        rw [hkept.2.symm.float_eq t b]
    _ = accumulateBf16 t (UInt32.ofNat (accumulateBf16 t initial a)) b := rfl

/-- Eight products that nearly cancel the initial one, and two more. -/
theorem cancelledRun_append :
    let a := (0x3f81, 0xbf81) :: List.replicate 7 (0x3c01, 0xbc01)
    (lastAccumulator .ampereLovelace 0x3f800000 a).exponent = -6 ∧
      accumulateBf16 .ampereLovelace 0x3f800000 (a ++ [(0x3f80, 0x3c80), (0x0001, 0x0001)]) =
        accumulateBf16 .ampereLovelace
          (UInt32.ofNat (accumulateBf16 .ampereLovelace 0x3f800000 a))
          [(0x3f80, 0x3c80), (0x0001, 0x0001)] := by
  intro a
  have hexponent : (lastAccumulator .ampereLovelace 0x3f800000 a).exponent = -6 := by
    decide +kernel
  exact ⟨hexponent, (accumulateBf16_append .ampereLovelace 0x3f800000 a _ (by decide)
    (by rw [hexponent]; decide)).1⟩

end Accumulator

end QrtEngine
