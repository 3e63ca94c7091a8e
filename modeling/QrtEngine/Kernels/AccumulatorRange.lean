import QrtEngine.Kernels.Accumulator
import Mathlib.Algebra.BigOperators.Group.List.Basic
import Mathlib.Algebra.Order.BigOperators.Group.List
import Mathlib.Tactic.Linarith

/-!
# The Range of the Group Sum

How large the running sum of a group gets. A product's significand is at most
`255 * 255 * 512` and a carried accumulator's is below `2 ^ 24`, so a running sum is
bounded by the internal width and the number of products of a group, and for every
instantiation but one the bound is below `2 ^ 31`.

The exception is the wide group of sixteen products at width 26. There the bound is
`2197848060`, and the sum does leave the range of a signed 32 bit word, but only in one
way: sixteen products of one sign and one exponent, on top of an accumulator of the same
sign at most two places below them. Losing any part of that, one product's sign or
exponent, one product, or a third place of the accumulator, already brings the bound
back below `2 ^ 31`. `Saturated` names the groups in which it happens.

## Main definitions

* `Carried`: What holds of every accumulator a run carries.
* `AgreesWithInt32`: The running sums of a run stay in a signed 32 bit word.
* `Saturated`: A full group whose aligned significands add up past `2 ^ 31`.

## Theorems

* `groupSum_carried`: A group sum is an accumulator again.
* `total_exceeds_iff`: A wide group leaves the range exactly when it is saturated.
* `agreesWithInt32_iff`: A run agrees with the 32 bit accumulator exactly when none of
  its wide groups is saturated.
-/

namespace QrtEngine

namespace Accumulator

/-- The signed addend of one value, zero for a value that is skipped. -/
def term (width : Nat) (maxExponent : Int) (v : Value) : Int :=
  if maxExponent - v.exponent ≥ 32 then 0
  else if v.negative then -(aligned width (maxExponent - v.exponent) v : Int)
  else aligned width (maxExponent - v.exponent) v

theorem sumStep_eq_add_term (width : Nat) (m sum : Int) (v : Value) :
    sumStep width m sum v = sum + term width m v := by
  unfold sumStep term
  by_cases h : m - v.exponent ≥ 32
  · simp only [if_pos h, add_zero]
  · simp only [if_neg h]

/-- The running sums are the sums over the prefixes of the group. -/
theorem mem_scanl_sumStep (width : Nat) (m : Int) (values : List Value) (sum s : Int) :
    s ∈ values.scanl (sumStep width m) sum ↔
      ∃ k, k ≤ values.length ∧ s = sum + ((values.take k).map (term width m)).sum := by
  induction values generalizing sum with
  | nil =>
      simp only [List.scanl_nil, List.mem_singleton, List.length_nil, Nat.le_zero, List.take_nil,
        List.map_nil, List.sum_nil, add_zero, exists_eq_left]
  | cons v values ih =>
      rw [List.scanl_cons, List.mem_cons, ih, sumStep_eq_add_term]
      constructor
      · rintro (rfl | ⟨k, hk, rfl⟩)
        · exact ⟨0, Nat.zero_le _, by simp only [List.take_zero, List.map_nil, List.sum_nil,
            add_zero]⟩
        · refine ⟨k + 1, by simpa only [List.length_cons] using Nat.succ_le_succ hk, ?_⟩
          rw [List.take_succ_cons, List.map_cons, List.sum_cons]
          ring
      · rintro ⟨k, hk, rfl⟩
        rcases k with _ | k
        · left
          simp only [List.take_zero, List.map_nil, List.sum_nil, add_zero]
        · refine Or.inr ⟨k, by simpa only [List.length_cons, Nat.succ_le_succ_iff] using hk, ?_⟩
          rw [List.take_succ_cons, List.map_cons, List.sum_cons]
          ring

/-! ## Significands -/

/-- What holds of every accumulator a run carries: a 24 bit significand, at no exponent
    below the one of zero. -/
structure Carried (zeroExponent : Int) (v : Value) : Prop where
  significand_lt : v.significand < 2 ^ 24
  zeroExponent_le : zeroExponent ≤ v.exponent

/-- A BF16 significand has eight bits. -/
theorem bf16_significand_le (word : Nat) (c : Prop) [Decidable c] :
    (if c then word &&& 0x7f ||| 0x80 else word &&& 0x7f) ≤ 255 := by
  have hfraction : word &&& 0x7f < 2 ^ 7 := Nat.and_lt_two_pow word (by norm_num)
  by_cases hc : c
  · rw [if_pos hc]
    have hor : word &&& 0x7f ||| 0x80 < 2 ^ 8 :=
      Nat.or_lt_two_pow (by omega) (by norm_num)
    omega
  · rw [if_neg hc]
    omega

theorem multiplyBf16_significand_le (left right : UInt16) (z : Int) :
    (multiplyBf16 left right z).significand ≤ 33292800 := by
  unfold multiplyBf16
  set l := if left.toNat >>> 7 &&& 0xff ≠ 0 then left.toNat &&& 0x7f ||| 0x80
    else left.toNat &&& 0x7f with hl
  set r := if right.toNat >>> 7 &&& 0xff ≠ 0 then right.toNat &&& 0x7f ||| 0x80
    else right.toNat &&& 0x7f with hr
  -- Eight bits on each side, and the product moved up by nine places.
  have hl255 : l ≤ 255 := bf16_significand_le _ _
  have hr255 : r ≤ 255 := bf16_significand_le _ _
  have hmul : l * r ≤ 255 * 255 := Nat.mul_le_mul hl255 hr255
  have hbound : toUInt32 ((l * r) <<< 9) ≤ 33292800 := by
    unfold toUInt32
    rw [Nat.shiftLeft_eq]
    omega
  dsimp only
  by_cases hzero : toUInt32 ((l * r) <<< 9) = 0
  · rw [if_pos hzero]
    exact Nat.zero_le _
  · rw [if_neg hzero]
    exact hbound

theorem valueFromFloat_carried (bits : UInt32) (z : Int) (hz : z ≤ -126) :
    Carried z (valueFromFloat bits z) := by
  have hfraction : bits.toNat &&& 0x7fffff < 2 ^ 23 := Nat.and_lt_two_pow _ (by norm_num)
  have hexponent : bits.toNat >>> 23 &&& 0xff < 2 ^ 8 := Nat.and_lt_two_pow _ (by norm_num)
  have hor : bits.toNat &&& 0x7fffff ||| 0x800000 < 2 ^ 24 :=
    Nat.or_lt_two_pow (by omega) (by norm_num)
  unfold valueFromFloat
  dsimp only
  -- The three shapes of a word: zero, a subnormal without its hidden bit, and the rest.
  by_cases hzero : bits.toNat >>> 23 &&& 0xff = 0 ∧ bits.toNat &&& 0x7fffff = 0
  · rw [if_pos hzero]
    exact ⟨by norm_num, le_refl z⟩
  · rw [if_neg hzero]
    by_cases hsub : bits.toNat >>> 23 &&& 0xff = 0
    · exact ⟨by simp only [if_pos hsub]; omega, by simp only [if_pos hsub]; omega⟩
    · refine ⟨by simp only [if_neg hsub]; omega, ?_⟩
      simp only [if_neg hsub, toInt16]
      -- A biased exponent of eight bits is far from the ends of sixteen.
      rw [Int.bmod_eq_of_le (by omega) (by omega)]
      omega

theorem lt_two_pow_bitWidthU64 (n : Nat) : n < 2 ^ bitWidthU64 n := by
  unfold bitWidthU64
  by_cases h : n = 0
  · rw [if_pos h, h]
    exact Nat.one_pos
  · rw [if_neg h]
    exact Nat.lt_log2_self

/-- Renormalising leaves 24 bits, at an exponent binary32 has or at the one of zero. -/
theorem normalize_carried (width : Nat) (z m s : Int) (hw : 24 ≤ width) (hz : z ≤ -126) :
    Carried z (normalize width z m s) := by
  unfold normalize
  dsimp only
  by_cases hbits : bitWidthU64 s.natAbs = 0
  · rw [if_pos hbits]
    exact ⟨by norm_num, le_refl z⟩
  rw [if_neg hbits]
  -- The magnitude at the internal width, whichever way it has to move.
  set n := if bitWidthU64 s.natAbs > width then s.natAbs >>> (bitWidthU64 s.natAbs - width)
    else s.natAbs <<< (width - bitWidthU64 s.natAbs) with hn
  have hmagnitude := lt_two_pow_bitWidthU64 s.natAbs
  have hwidth : n < 2 ^ width := by
    rw [hn]
    by_cases hgt : bitWidthU64 s.natAbs > width
    · rw [if_pos hgt, Nat.shiftRight_eq_div_pow]
      apply Nat.div_lt_of_lt_mul
      rw [← pow_add]
      have hsum : bitWidthU64 s.natAbs - width + width = bitWidthU64 s.natAbs := by omega
      rw [hsum]
      exact hmagnitude
    · rw [if_neg hgt, Nat.shiftLeft_eq]
      have hsum : bitWidthU64 s.natAbs + (width - bitWidthU64 s.natAbs) = width := by omega
      calc s.natAbs * 2 ^ (width - bitWidthU64 s.natAbs)
          < 2 ^ bitWidthU64 s.natAbs * 2 ^ (width - bitWidthU64 s.natAbs) :=
            Nat.mul_lt_mul_of_pos_right hmagnitude (Nat.two_pow_pos _)
        _ = 2 ^ width := by rw [← pow_add, hsum]
  set e := toInt16 (m + bitWidthU64 s.natAbs - width) with he
  -- What underflows only loses bits, so the width still bounds it.
  set u := if decide (e < -126) then
    (if (-126 - e).toNat ≥ 64 then 0 else n >>> (-126 - e).toNat) else n with hu
  have hunder : u ≤ n := by
    rw [hu]
    split_ifs
    · exact Nat.zero_le n
    · exact Nat.shiftRight_le n _
    · exact le_refl n
  -- Dropping the bits below the significand leaves 24.
  have hlow : u >>> (width - 24) < 2 ^ 24 := by
    rw [Nat.shiftRight_eq_div_pow]
    apply Nat.div_lt_of_lt_mul
    rw [← pow_add]
    have hsum : width - 24 + 24 = width := by omega
    rw [hsum]
    omega
  by_cases hzero : u >>> (width - 24) = 0
  · rw [if_pos hzero]
    exact ⟨by norm_num, le_refl z⟩
  · rw [if_neg hzero]
    refine ⟨?_, ?_⟩
    · exact lt_of_le_of_lt (Nat.mod_le _ _) hlow
    · by_cases hneg : e < -126
      · simp only [hneg, decide_true, if_true]
        exact hz
      · simp only [hneg, decide_false, Bool.false_eq_true, if_false]
        omega

/-- A group sum is an accumulator again. -/
theorem groupSum_carried (width : Nat) (z : Int) (values : List Value) (hw : 24 ≤ width)
    (hz : z ≤ -126) : Carried z (groupSum width z values) :=
  normalize_carried width z _ _ hw hz

/-! ## One group -/

theorem le_foldl_maxExponent (values : List Value) (e : Int) :
    e ≤ maxExponent e values ∧ ∀ v ∈ values, v.exponent ≤ maxExponent e values := by
  unfold maxExponent
  induction values generalizing e with
  | nil => exact ⟨le_refl e, fun v hv => absurd hv List.not_mem_nil⟩
  | cons w values ih =>
      rw [List.foldl_cons]
      have hrest := ih (if w.exponent > e then w.exponent else e)
      -- The running maximum is above both what it was and the exponent it has just met.
      have hstep : e ≤ (if w.exponent > e then w.exponent else e) ∧
          w.exponent ≤ (if w.exponent > e then w.exponent else e) := by
        split_ifs <;> omega
      refine ⟨le_trans hstep.1 hrest.1, ?_⟩
      intro v hv
      rcases List.mem_cons.mp hv with rfl | hv
      · exact le_trans hstep.2 hrest.1
      · exact hrest.2 v hv

theorem maxExponent_le (values : List Value) (e b : Int) (he : e ≤ b)
    (hb : ∀ v ∈ values, v.exponent ≤ b) : maxExponent e values ≤ b := by
  unfold maxExponent
  induction values generalizing e with
  | nil => exact he
  | cons w values ih =>
      rw [List.foldl_cons]
      have hw := hb w List.mem_cons_self
      refine ih _ ?_ (fun v hv => hb v (List.mem_cons_of_mem w hv))
      split_ifs <;> omega

/-- A number read in the direction of a sign: its magnitude when it has that sign. -/
def toward (negative : Bool) (n : Int) : Int := if negative then -n else n

theorem toward_add (b : Bool) (m n : Int) : toward b (m + n) = toward b m + toward b n := by
  cases b with
  | false => rfl
  | true =>
      simp only [toward, if_true]
      ring

theorem toward_sum (b : Bool) (l : List Int) : toward b l.sum = (l.map (toward b)).sum := by
  induction l with
  | nil => cases b <;> rfl
  | cons n l ih => rw [List.sum_cons, toward_add, ih, List.map_cons, List.sum_cons]

/-- An addend counts fully in the direction of its own sign, and against the other. -/
theorem toward_term (b : Bool) (width : Nat) (m : Int) (v : Value) :
    toward b (term width m v) =
      if m - v.exponent ≥ 32 then 0
      else if v.negative = b then (aligned width (m - v.exponent) v : Int)
      else -(aligned width (m - v.exponent) v : Int) := by
  unfold term
  by_cases h : m - v.exponent ≥ 32
  · rw [if_pos h, if_pos h]
    cases b <;> rfl
  · rw [if_neg h, if_neg h]
    cases v.negative <;> cases b <;> simp [toward]

theorem aligned_le (width : Nat) (shift : Int) (v : Value) :
    aligned width shift v ≤ v.significand * 2 ^ (width - 24) := by
  unfold aligned
  rw [Nat.shiftLeft_eq]
  exact Nat.shiftRight_le _ _

/-- No addend exceeds its significand at the internal width, in either direction. -/
theorem toward_term_le (b : Bool) (width : Nat) (m : Int) (v : Value) :
    toward b (term width m v) ≤ (v.significand * 2 ^ (width - 24) : Nat) := by
  have ha := aligned_le width (m - v.exponent) v
  rw [toward_term]
  split_ifs <;> omega

/-- An addend of the other sign adds nothing. -/
theorem toward_term_nonpos (b : Bool) (width : Nat) (m : Int) (v : Value)
    (h : v.negative ≠ b) : toward b (term width m v) ≤ 0 := by
  rw [toward_term, if_neg h]
  split_ifs <;> omega

/-- A place lost in the alignment halves the bound. -/
theorem toward_term_shifted (b : Bool) (width : Nat) (m : Int) (v : Value) (k : Nat)
    (h : (k : Int) ≤ m - v.exponent) :
    toward b (term width m v) * 2 ^ k ≤ (v.significand * 2 ^ (width - 24) : Nat) := by
  have hpos : (0 : Int) ≤ (v.significand * 2 ^ (width - 24) : Nat) := Int.natCast_nonneg _
  -- Multiplying back by the places that were dropped cannot exceed the significand.
  have halign : aligned width (m - v.exponent) v * 2 ^ k ≤ v.significand * 2 ^ (width - 24) := by
    unfold aligned
    rw [Nat.shiftLeft_eq, Nat.shiftRight_eq_div_pow]
    have hk : k ≤ (m - v.exponent).toNat := by omega
    calc v.significand * 2 ^ (width - 24) / 2 ^ (m - v.exponent).toNat * 2 ^ k
        ≤ v.significand * 2 ^ (width - 24) / 2 ^ (m - v.exponent).toNat *
            2 ^ (m - v.exponent).toNat :=
          Nat.mul_le_mul_left _ (Nat.pow_le_pow_right (by norm_num) hk)
      _ ≤ v.significand * 2 ^ (width - 24) := Nat.div_mul_le_self _ _
  have hcast : (aligned width (m - v.exponent) v : Int) * 2 ^ k ≤
      (v.significand * 2 ^ (width - 24) : Nat) := by exact_mod_cast halign
  -- Against the sign the addend is negative, whatever the shift.
  have hneg : -(aligned width (m - v.exponent) v : Int) * 2 ^ k ≤ 0 := by
    rw [neg_mul]
    have : (0 : Int) ≤ (aligned width (m - v.exponent) v : Int) * 2 ^ k := by positivity
    omega
  rw [toward_term]
  split_ifs
  · rw [zero_mul]
    exact hpos
  · exact hcast
  · exact le_trans hneg hpos

theorem sum_le_length_mul (l : List Int) (bound : Int) (h : ∀ n ∈ l, n ≤ bound) :
    l.sum ≤ l.length * bound := by
  have := List.sum_le_card_nsmul l bound h
  simpa only [nsmul_eq_mul] using this

/-- One small element lowers the bound of a sum by what it lacks. -/
theorem sum_add_bound_le (l : List Int) (bound n : Int) (h : ∀ n ∈ l, n ≤ bound) (hn : n ∈ l) :
    l.sum + bound ≤ l.length * bound + n := by
  induction l with
  | nil => exact absurd hn List.not_mem_nil
  | cons k l ih =>
      have htail : ∀ n ∈ l, n ≤ bound := fun n hn => h n (List.mem_cons_of_mem k hn)
      rw [List.sum_cons, List.length_cons]
      push_cast
      -- The small element is the head, or the head is within the bound and the tail has it.
      rcases List.mem_cons.mp hn with rfl | hn
      · have := sum_le_length_mul l bound htail
        linarith
      · have := ih htail hn
        have hk := h k List.mem_cons_self
        linarith

/-! ## The wide group -/

/-- A full group of sixteen products that overruns a signed 32 bit sum: every product has
    the accumulator's sign, all are at one exponent at most two places above the
    accumulator's, and the aligned significands add up to `2 ^ 31` or more, or to more
    than that when the sum is negative. -/
structure Saturated (accumulator : Value) (products : List Value) : Prop where
  full : products.length = 16
  sign : ∀ p ∈ products, p.negative = accumulator.negative
  overrun : ∃ places : Nat, places ≤ 2 ∧
    (∀ p ∈ products, p.exponent = accumulator.exponent + places) ∧
    2 ^ 31 + accumulator.negative.toNat ≤
      4 * accumulator.significand / 2 ^ places + 4 * (products.map (·.significand)).sum

/-- Sixteen products of one sign at the group's exponent, on an accumulator of that sign
    at most two places down: nothing less reaches `2 ^ 31` in the direction of a sign. -/
theorem saturated_shape (b : Bool) (m : Int) (acc : Value) (ps : List Value)
    (hacc : acc.significand < 2 ^ 24) (hps : ∀ p ∈ ps, p.significand ≤ 33292800)
    (hlen : ps.length ≤ 16) (hmax : ∀ v ∈ acc :: ps, v.exponent ≤ m)
    (hbig : 2 ^ 31 ≤ toward b (((acc :: ps).map (term 26 m)).sum)) :
    ps.length = 16 ∧ acc.negative = b ∧ m - acc.exponent ≤ 2 ∧
      ∀ p ∈ ps, p.negative = b ∧ p.exponent = m := by
  -- Every product is at most 33292800 * 4, and sixteen of them do not reach the bound alone.
  have hterms : ∀ n ∈ ps.map (fun p => toward b (term 26 m p)), n ≤ 133171200 := by
    intro n hn
    rcases List.mem_map.mp hn with ⟨p, hp, rfl⟩
    have := toward_term_le b 26 m p
    have := hps p hp
    omega
  have hsum := sum_le_length_mul _ _ hterms
  have hfirst := toward_term_le b 26 m acc
  rw [toward_sum, List.map_map, List.map_cons, List.sum_cons] at hbig
  simp only [Function.comp_def] at hbig
  rw [List.length_map] at hsum
  refine ⟨by omega, ?_, ?_, ?_⟩
  -- Without the accumulator the products fall short.
  · by_contra hsign
    have := toward_term_nonpos b 26 m acc hsign
    omega
  -- Three places down the accumulator is worth an eighth, which is too little.
  · by_contra hplaces
    have := toward_term_shifted b 26 m acc 3 (by omega)
    omega
  · intro p hp
    -- A single product short of the full bound is already too much to lose.
    have hlow := sum_add_bound_le _ 133171200 _ hterms
      (List.mem_map.mpr ⟨p, hp, rfl⟩)
    rw [List.length_map] at hlow
    have hpsig := hps p hp
    constructor
    · by_contra hsign
      have := toward_term_nonpos b 26 m p hsign
      omega
    -- One place down a product is worth half, which is too little as well.
    · have hle := hmax p (List.mem_cons_of_mem acc hp)
      by_contra hexp
      have := toward_term_shifted b 26 m p 1 (by omega)
      omega

/-- In a group of that shape the sum is the plain sum of the aligned significands. -/
theorem toward_total_of_shape (b : Bool) (m : Int) (acc : Value) (ps : List Value) (places : Nat)
    (hplaces : places ≤ 2) (hm : m = acc.exponent + places) (hacc : acc.negative = b)
    (hps : ∀ p ∈ ps, p.negative = b ∧ p.exponent = m) :
    toward b (((acc :: ps).map (term 26 m)).sum) =
      (4 * acc.significand / 2 ^ places + 4 * (ps.map (·.significand)).sum : Nat) := by
  have hfirst : toward b (term 26 m acc) = (4 * acc.significand / 2 ^ places : Nat) := by
    rw [toward_term, if_neg (by omega), if_pos hacc]
    have hshift : (m - acc.exponent).toNat = places := by omega
    unfold aligned
    rw [hshift, Nat.shiftLeft_eq, Nat.shiftRight_eq_div_pow, Nat.mul_comm]
  -- Products at the group exponent are not shifted, so they add up as they are.
  have hrest : ∀ qs : List Value, (∀ p ∈ qs, p.negative = b ∧ p.exponent = m) →
      (qs.map (fun p => toward b (term 26 m p))).sum =
        (4 * (qs.map (·.significand)).sum : Nat) := by
    intro qs hqs
    induction qs with
    | nil => rfl
    | cons q qs ih =>
        have hq := hqs q List.mem_cons_self
        have hterm : toward b (term 26 m q) = (4 * q.significand : Nat) := by
          rw [toward_term, if_neg (by omega), if_pos hq.1]
          have hshift : (m - q.exponent).toNat = 0 := by omega
          unfold aligned
          rw [hshift, Nat.shiftLeft_eq, Nat.shiftRight_zero, Nat.mul_comm]
        rw [List.map_cons, List.sum_cons, List.map_cons, List.sum_cons, hterm,
          ih (fun p hp => hqs p (List.mem_cons_of_mem q hp))]
        push_cast
        ring
  rw [toward_sum, List.map_map, List.map_cons, List.sum_cons]
  have hps' := hrest ps hps
  simp only [Function.comp_def]
  rw [hfirst, hps']
  push_cast
  ring

/-- The range of a signed 32 bit word. -/
def InInt32 (n : Int) : Prop := -2 ^ 31 ≤ n ∧ n < 2 ^ 31

theorem not_inInt32_iff (n : Int) :
    ¬InInt32 n ↔ ∃ b : Bool, 2 ^ 31 + (b.toNat : Int) ≤ toward b n := by
  unfold InInt32
  constructor
  · intro h
    -- The range reaches one further below zero, which is the sign added to the bound.
    by_cases hneg : n < 0
    · refine ⟨true, ?_⟩
      simp only [toward, if_true, Bool.toNat_true]
      omega
    · refine ⟨false, ?_⟩
      simp only [toward, Bool.false_eq_true, if_false, Bool.toNat_false]
      omega
  · rintro ⟨b, hb⟩
    cases b with
    | false =>
        simp only [toward, Bool.false_eq_true, if_false, Bool.toNat_false] at hb
        omega
    | true =>
        simp only [toward, if_true, Bool.toNat_true] at hb
        omega

/-- A wide group leaves the range exactly when it is saturated. -/
theorem total_exceeds_iff (z : Int) (acc : Value) (ps : List Value) (hacc : Carried z acc)
    (hps : ∀ p ∈ ps, p.significand ≤ 33292800) (hlen : ps.length ≤ 16) :
    ¬InInt32 (((acc :: ps).map (term 26 (maxExponent z (acc :: ps)))).sum) ↔
      Saturated acc ps := by
  have hmax := le_foldl_maxExponent (acc :: ps) z
  set m := maxExponent z (acc :: ps) with hm
  rw [not_inInt32_iff]
  constructor
  · rintro ⟨b, hb⟩
    have hshape := saturated_shape b m acc ps hacc.significand_lt hps hlen hmax.2 (by omega)
    -- The distance of the accumulator is a natural number, since it is below the maximum.
    rcases hshape with ⟨hfull, hsign, hplaces, hall⟩
    have hle := hmax.2 acc List.mem_cons_self
    have hcast : m = acc.exponent + ((m - acc.exponent).toNat : Int) := by omega
    rw [toward_total_of_shape b m acc ps _ (by omega) hcast hsign hall] at hb
    refine ⟨hfull, fun p hp => by rw [(hall p hp).1, hsign],
      (m - acc.exponent).toNat, by omega, fun p hp => by rw [(hall p hp).2]; exact hcast, ?_⟩
    rw [hsign]
    exact_mod_cast hb
  · rintro ⟨hfull, hsign, places, hplaces, hexp, hsum⟩
    -- The products are above the accumulator, so the group's exponent is theirs.
    have hone : ∃ p, p ∈ ps := List.exists_mem_of_length_pos (by omega)
    rcases hone with ⟨p, hp⟩
    have hupper : m ≤ acc.exponent + places := by
      refine maxExponent_le _ _ _ (by have := hacc.zeroExponent_le; omega) ?_
      intro v hv
      rcases List.mem_cons.mp hv with rfl | hv
      · omega
      · rw [hexp v hv]
    have hlower := hmax.2 p (List.mem_cons_of_mem acc hp)
    rw [hexp p hp] at hlower
    have hmeq : m = acc.exponent + places := le_antisymm hupper hlower
    refine ⟨acc.negative, ?_⟩
    rw [toward_total_of_shape acc.negative m acc ps places hplaces hmeq rfl
      (fun p hp => ⟨hsign p hp, by rw [hexp p hp, hmeq]⟩)]
    exact_mod_cast hsum

/-! ## Whole runs -/

/-- A run agrees with the 32 bit accumulator: in each of its group sums every running sum
    is in range, and the sum taken in a signed 32 bit word gives the same value. -/
def AgreesWithInt32 (t : Instantiation) (initial : UInt32) (pairs : List (UInt16 × UInt16)) :
    Prop :=
  ∀ values ∈ groupSumCalls t initial pairs,
    (∀ s ∈ partialSums t.width t.zeroExponent values, InInt32 s) ∧
      groupSumInt32 t.width t.zeroExponent values = groupSum t.width t.zeroExponent values

theorem wrapInt32_eq (n : Int) (h : InInt32 n) : wrapInt32 n = n := by
  unfold InInt32 at h
  unfold wrapInt32
  exact Int.bmod_eq_of_le (by omega) (by omega)

theorem foldl_wrapInt32 (f : Int → Value → Int) (values : List Value) (sum : Int)
    (h : ∀ s ∈ values.scanl f sum, InInt32 s) :
    values.foldl (fun s v => wrapInt32 (f s v)) sum = values.foldl f sum := by
  induction values generalizing sum with
  | nil => rfl
  | cons v values ih =>
      rw [List.scanl_cons] at h
      have htail : ∀ s ∈ values.scanl f (f sum v), InInt32 s :=
        fun s hs => h s (List.mem_cons_of_mem _ hs)
      -- The first running sum after the step is the head of what remains.
      have hhead : InInt32 (f sum v) := by
        refine htail _ ?_
        cases values <;> simp
      rw [List.foldl_cons, List.foldl_cons, wrapInt32_eq _ hhead]
      exact ih _ htail

/-- Running sums in range give the same value in a signed 32 bit word. -/
theorem groupSumInt32_eq (width : Nat) (z : Int) (values : List Value)
    (h : ∀ s ∈ partialSums width z values, InInt32 s) :
    groupSumInt32 width z values = groupSum width z values := by
  unfold groupSumInt32 groupSum
  dsimp only
  rw [foldl_wrapInt32 _ _ _ h]

/-- The bound a prefix of a group gives: the accumulator and `n` products. -/
theorem toward_prefix_le (b : Bool) (width : Nat) (m : Int) (acc : Value) (ps : List Value)
    (hacc : acc.significand < 2 ^ 24) (hps : ∀ p ∈ ps, p.significand ≤ 33292800) :
    toward b (((acc :: ps).map (term width m)).sum) ≤
      (16777215 + ps.length * 33292800) * 2 ^ (width - 24) := by
  have hterms : ∀ n ∈ ps.map (fun p => toward b (term width m p)),
      n ≤ 33292800 * 2 ^ (width - 24) := by
    intro n hn
    rcases List.mem_map.mp hn with ⟨p, hp, rfl⟩
    refine le_trans (toward_term_le b width m p) ?_
    exact_mod_cast Nat.mul_le_mul_right _ (hps p hp)
  have hsum := sum_le_length_mul _ _ hterms
  have hfirst : toward b (term width m acc) ≤ 16777215 * 2 ^ (width - 24) := by
    refine le_trans (toward_term_le b width m acc) ?_
    have hle : acc.significand ≤ 16777215 := by omega
    exact_mod_cast Nat.mul_le_mul_right _ hle
  rw [toward_sum, List.map_map, List.map_cons, List.sum_cons]
  simp only [Function.comp_def]
  rw [List.length_map] at hsum
  linarith

/-- A prefix of a group whose bound is below `2 ^ 31` is in range. -/
theorem prefix_inInt32 (width : Nat) (m : Int) (acc : Value) (ps : List Value)
    (hacc : acc.significand < 2 ^ 24) (hps : ∀ p ∈ ps, p.significand ≤ 33292800)
    (hbound : (16777215 + (ps.length : Int) * 33292800) * 2 ^ (width - 24) < 2 ^ 31) :
    InInt32 (((acc :: ps).map (term width m)).sum) := by
  by_contra hout
  rcases (not_inInt32_iff _).mp hout with ⟨b, hb⟩
  have hle := toward_prefix_le b width m acc ps hacc hps
  omega

/-- What a run hands to one group sum beside the accumulator. -/
structure Products (t : Instantiation) (ps : List Value) : Prop where
  length_le : ps.length ≤ t.productsPerGroup
  significand_le : ∀ p ∈ ps, p.significand ≤ 33292800

/-- One group: every running sum is in range unless the group is wide and saturated. -/
theorem partialSums_inInt32_iff (t : Instantiation) (acc : Value) (ps : List Value)
    (hacc : Carried t.zeroExponent acc) (hps : Products t ps) :
    (∀ s ∈ partialSums t.width t.zeroExponent (acc :: ps), InInt32 s) ↔
      (t = .hopper → ¬Saturated acc ps) := by
  set m := maxExponent t.zeroExponent (acc :: ps) with hm
  -- The last running sum is the sum over the whole group.
  have htotal : ((acc :: ps).map (term t.width m)).sum ∈
      partialSums t.width t.zeroExponent (acc :: ps) := by
    refine (mem_scanl_sumStep _ _ _ _ _).mpr ⟨(acc :: ps).length, le_refl _, ?_⟩
    rw [List.take_length, zero_add]
  have hlen := hps.length_le
  constructor
  · intro hrange ht hsat
    subst ht
    exact (total_exceeds_iff _ acc ps hacc hps.significand_le hlen).mpr hsat (hrange _ htotal)
  · intro hfree s hs
    rcases (mem_scanl_sumStep _ _ _ _ _).mp hs with ⟨k, hk, rfl⟩
    rw [zero_add]
    -- Before the accumulator is added the running sum is zero.
    rcases k with _ | k
    · rw [List.take_zero]
      exact ⟨by norm_num, by norm_num⟩
    rw [List.take_succ_cons]
    rw [List.length_cons, Nat.succ_le_succ_iff] at hk
    have htake : (ps.take k).length = k := List.length_take_of_le hk
    have hsig : ∀ p ∈ ps.take k, p.significand ≤ 33292800 :=
      fun p hp => hps.significand_le p (List.mem_of_mem_take hp)
    by_cases hwide : t = .hopper ∧ k = 16
    · -- The last running sum of a full wide group is the one that can leave the range.
      rcases hwide with ⟨rfl, rfl⟩
      have hall : ps.take 16 = ps := List.take_of_length_le hlen
      rw [hall]
      by_contra hout
      exact hfree rfl ((total_exceeds_iff _ acc ps hacc hps.significand_le hlen).mp hout)
    -- Everywhere else the bound on the prefix is enough, one instantiation after the other.
    · refine prefix_inInt32 _ _ acc _ hacc.significand_lt hsig ?_
      rw [htake]
      cases t <;> simp only [Instantiation.width, Instantiation.productsPerGroup, true_and,
        reduceCtorEq, false_and] at hlen hwide ⊢ <;> omega

theorem products_spec (t : Instantiation) (pairs : List (UInt16 × UInt16)) :
    Products t (products t.zeroExponent (pairs.take t.productsPerGroup)) := by
  constructor
  · simp only [products, List.length_map, List.length_take]
    exact Nat.min_le_left _ _
  · intro p hp
    rcases List.mem_map.mp hp with ⟨pair, -, rfl⟩
    exact multiplyBf16_significand_le _ _ _

theorem zeroExponent_le (t : Instantiation) : t.zeroExponent ≤ -126 := by
  cases t <;> decide

theorem le_width (t : Instantiation) : 24 ≤ t.width := by
  cases t <;> decide

/-- Along a run the accumulator stays one, and each group holds products of BF16 words. -/
theorem accumulateLoop_spec (t : Instantiation) (fuel : Nat) (acc : Value)
    (pairs : List (UInt16 × UInt16)) (hacc : Carried t.zeroExponent acc) :
    (∀ step ∈ (accumulateLoop t fuel acc pairs).1,
        Carried t.zeroExponent step.1 ∧ Products t step.2) ∧
      Carried t.zeroExponent (accumulateLoop t fuel acc pairs).2 := by
  induction fuel generalizing acc pairs with
  | zero => exact ⟨fun step hstep => absurd hstep List.not_mem_nil, hacc⟩
  | succ fuel ih =>
      rcases pairs with _ | ⟨pair, pairs⟩
      · exact ⟨fun step hstep => absurd hstep List.not_mem_nil, hacc⟩
      -- The group sum is the accumulator that the rest of the run starts from.
      · have hsum := groupSum_carried t.width t.zeroExponent
          (acc :: products t.zeroExponent ((pair :: pairs).take t.productsPerGroup))
          (le_width t) (zeroExponent_le t)
        have hrest := ih _ ((pair :: pairs).drop t.productsPerGroup) hsum
        refine ⟨?_, hrest.2⟩
        intro step hstep
        rcases List.mem_cons.mp hstep with rfl | hstep
        · exact ⟨hacc, products_spec t (pair :: pairs)⟩
        · exact hrest.1 step hstep

theorem run_spec (t : Instantiation) (initial : UInt32) (pairs : List (UInt16 × UInt16)) :
    (∀ step ∈ groupSteps t initial pairs, Carried t.zeroExponent step.1 ∧ Products t step.2) ∧
      Carried t.zeroExponent (lastAccumulator t initial pairs) :=
  accumulateLoop_spec t _ _ _ (valueFromFloat_carried initial _ (zeroExponent_le t))

/-- A run agrees with the 32 bit accumulator exactly when it is not the wide one, or none
    of its groups is saturated. -/
theorem agreesWithInt32_iff (t : Instantiation) (initial : UInt32)
    (pairs : List (UInt16 × UInt16)) :
    AgreesWithInt32 t initial pairs ↔
      (t = .hopper → ∀ step ∈ groupSteps t initial pairs, ¬Saturated step.1 step.2) := by
  have hrun := run_spec t initial pairs
  constructor
  · intro hagrees ht step hstep
    have hvalues : step.1 :: step.2 ∈ groupSumCalls t initial pairs :=
      List.mem_append_left _ (List.mem_map.mpr ⟨step, hstep, rfl⟩)
    have hspec := hrun.1 step hstep
    exact (partialSums_inInt32_iff t _ _ hspec.1 hspec.2).mp (hagrees _ hvalues).1 ht
  · intro hfree values hvalues
    have hrange : ∀ s ∈ partialSums t.width t.zeroExponent values, InInt32 s := by
      rcases List.mem_append.mp hvalues with hvalues | hvalues
      · rcases List.mem_map.mp hvalues with ⟨step, hstep, rfl⟩
        have hspec := hrun.1 step hstep
        exact (partialSums_inInt32_iff t _ _ hspec.1 hspec.2).mpr (fun ht => hfree ht step hstep)
      · -- The closing sum is over the accumulator alone.
        rw [List.mem_singleton] at hvalues
        subst hvalues
        refine (partialSums_inInt32_iff t _ [] hrun.2 ⟨Nat.zero_le _, ?_⟩).mpr ?_
        · exact fun p hp => absurd hp List.not_mem_nil
        · exact fun _ hsat => absurd hsat.full (by decide)
    exact ⟨hrange, groupSumInt32_eq _ _ _ hrange⟩

/-- A BF16 word that is neither an infinity nor a NaN. -/
def FiniteBf16 (word : UInt16) : Prop := (word.toNat >>> 7) &&& 0xff ≠ 0xff

/-- A binary32 word that is neither an infinity nor a NaN. -/
def FiniteFloat (bits : UInt32) : Prop := (bits.toNat >>> 23) &&& 0xff ≠ 0xff

instance (word : UInt16) : Decidable (FiniteBf16 word) := inferInstanceAs (Decidable (_ ≠ _))

instance (bits : UInt32) : Decidable (FiniteFloat bits) := inferInstanceAs (Decidable (_ ≠ _))

/-- The largest finite accumulator and sixteen times the largest BF16 significands at its
    exponent overrun the 32 bit sum. -/
theorem hopper_overruns_int32 :
    FiniteFloat 0x7f7fffff ∧ FiniteBf16 0x7f7f ∧ FiniteBf16 0x3fff ∧
      ¬AgreesWithInt32 .hopper 0x7f7fffff (List.replicate 16 (0x7f7f, 0x3fff)) := by
  refine ⟨by decide, by decide, by decide, ?_⟩
  intro hagrees
  have hcall : valueFromFloat 0x7f7fffff (-133) ::
      products (-133) (List.replicate 16 (0x7f7f, 0x3fff)) ∈
        groupSumCalls .hopper 0x7f7fffff (List.replicate 16 (0x7f7f, 0x3fff)) :=
    List.mem_cons_self
  -- The last running sum, evaluated.
  have hsum : (2197848060 : Int) ∈ partialSums 26 (-133) (valueFromFloat 0x7f7fffff (-133) ::
      products (-133) (List.replicate 16 (0x7f7f, 0x3fff))) := by decide
  exact absurd ((hagrees _ hcall).1 _ hsum).2 (by norm_num)

end Accumulator

end QrtEngine
