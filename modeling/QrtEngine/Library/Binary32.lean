import Mathlib.Algebra.Order.Field.Power
import Mathlib.Data.Nat.Bitwise
import Mathlib.Data.Rat.Defs
import Mathlib.Algebra.Order.Ring.Rat
import Mathlib.Tactic.Linarith
import Mathlib.Tactic.NormNum

/-!
# The Fields of a binary32 Word

A binary32 word has a sign bit, eight bits of exponent and twenty-three bits of fraction. Words are
put together from their fields by shifts and disjunctions, and taken apart by shifts and masks; the
two are inverse to each other as long as each field fits. A word whose exponent field is not full
stands for a rational number.

## Main definitions

* `pack`: The word with the given fields.
* `negative`, `exponentField`, `fractionField`: The fields of a word.
* `toRat`: The number a finite word stands for.
* `magnitude`, `isNan`, `standing`: A word without its sign, and where it stands in the order.

## Theorems

* `pack_eq_add`: The fields of a word do not overlap.
* `negative_pack`, `exponentField_pack`, `fractionField_pack`: The fields of a packed word.
* `toRat_pack`: The number of a packed word.
* `abs_toRat_lt`: How large a finite word gets.
* `toRat_lt_iff`: Words stand in the order of their numbers.
-/

namespace QrtEngine

namespace Binary32

/-- The word with the given fields. -/
def pack (negative : Bool) (exponent fraction : Nat) : Nat :=
  (if negative then 0x80000000 else 0) ||| exponent <<< 23 ||| fraction

/-- The sign bit. -/
def negative (bits : UInt32) : Bool := bits &&& 0x80000000 != 0

/-- The eight bits of the exponent. -/
def exponentField (bits : UInt32) : Nat := (bits.toNat >>> 23) &&& 0xff

/-- The twenty-three bits of the fraction. -/
def fractionField (bits : UInt32) : Nat := bits.toNat &&& 0x7fffff

/-- The number that a word stands for, if its exponent field is not full. The smallest exponent
    field has no hidden bit. -/
def toRat (bits : UInt32) : ℚ :=
  (if negative bits then -1 else 1) *
    if exponentField bits = 0 then (fractionField bits : ℚ) * 2 ^ (-149 : ℤ)
    else ((fractionField bits + 2 ^ 23 : Nat) : ℚ) * 2 ^ ((exponentField bits : ℤ) - 150)

theorem and_0xff (n : Nat) : n &&& 0xff = n % 2 ^ 8 := Nat.and_two_pow_sub_one_eq_mod n 8

theorem and_0x7fffff (n : Nat) : n &&& 0x7fffff = n % 2 ^ 23 :=
  Nat.and_two_pow_sub_one_eq_mod n 23

/-- The hidden bit stands above the fraction. -/
theorem or_hidden_bit (f : Nat) (hf : f < 2 ^ 23) : f ||| 0x800000 = 0x800000 + f := by
  have h := Nat.two_pow_add_eq_or_of_lt hf 1
  rw [Nat.mul_one] at h
  rw [Nat.or_comm]
  exact h.symm

section Pack

variable (s : Bool) (e f : Nat) (he : e < 2 ^ 8) (hf : f < 2 ^ 23)

include he hf

theorem pack_eq_add : pack s e f = (if s then 2 ^ 31 else 0) + e * 2 ^ 23 + f := by
  have hlow : e <<< 23 ||| f = e * 2 ^ 23 + f := by
    rw [Nat.shiftLeft_eq, Nat.mul_comm, ← Nat.two_pow_add_eq_or_of_lt hf]
  have hbelow : e * 2 ^ 23 + f < 2 ^ 31 := by omega
  unfold pack
  rw [Nat.or_assoc, hlow]
  cases s with
  | false => simp only [Bool.false_eq_true, if_false, Nat.zero_or, Nat.zero_add]
  | true =>
      have h := Nat.two_pow_add_eq_or_of_lt hbelow 1
      rw [Nat.mul_one] at h
      simp only [if_true]
      rw [← h, Nat.add_assoc]

theorem pack_lt : pack s e f < 2 ^ 32 := by
  rw [pack_eq_add s e f he hf]
  split_ifs <;> omega

theorem toNat_pack : (UInt32.ofNat (pack s e f)).toNat = pack s e f :=
  UInt32.toNat_ofNat_of_lt' (pack_lt s e f he hf)

theorem exponentField_pack : exponentField (UInt32.ofNat (pack s e f)) = e := by
  unfold exponentField
  rw [toNat_pack s e f he hf, pack_eq_add s e f he hf, Nat.shiftRight_eq_div_pow, and_0xff]
  split_ifs <;> omega

theorem fractionField_pack : fractionField (UInt32.ofNat (pack s e f)) = f := by
  unfold fractionField
  rw [toNat_pack s e f he hf, pack_eq_add s e f he hf, and_0x7fffff]
  split_ifs <;> omega

theorem negative_pack : negative (UInt32.ofNat (pack s e f)) = s := by
  have hbit : (pack s e f).testBit 31 = s := by
    rw [Nat.testBit_eq_decide_div_mod_eq, pack_eq_add s e f he hf]
    cases s with
    | false => exact decide_eq_false (by simp only [Bool.false_eq_true, if_false]; omega)
    | true => exact decide_eq_true (by simp only [if_true]; omega)
  have hmask : (UInt32.ofNat (pack s e f) &&& 0x80000000).toNat = s.toNat * 2 ^ 31 := by
    rw [UInt32.toNat_and, toNat_pack s e f he hf]
    exact (Nat.and_two_pow _ 31).trans (by rw [hbit])
  unfold negative
  cases s with
  | false =>
      rw [Bool.toNat_false, Nat.zero_mul] at hmask
      rw [UInt32.toNat_inj.mp (hmask.trans rfl : _ = (0 : UInt32).toNat)]
      rfl
  | true =>
      refine bne_iff_ne.mpr fun hzero => ?_
      rw [hzero, Bool.toNat_true] at hmask
      exact absurd hmask (by decide)

/-- The number of a packed word. -/
theorem toRat_pack :
    toRat (UInt32.ofNat (pack s e f)) = (if s then -1 else 1) *
      if e = 0 then (f : ℚ) * 2 ^ (-149 : ℤ)
      else ((f + 2 ^ 23 : Nat) : ℚ) * 2 ^ ((e : ℤ) - 150) := by
  unfold toRat
  rw [negative_pack s e f he hf, exponentField_pack s e f he hf, fractionField_pack s e f he hf]

end Pack

/-- No finite word stands for a number of `2 ^ 128` or more. -/
theorem abs_toRat_lt (bits : UInt32) (h : exponentField bits ≠ 0xff) :
    |toRat bits| < 2 ^ (128 : ℤ) := by
  have hf : fractionField bits < 2 ^ 23 := Nat.and_lt_two_pow _ (by norm_num)
  have he : exponentField bits < 2 ^ 8 := Nat.and_lt_two_pow _ (by norm_num)
  have hsign : |(if negative bits then -1 else 1 : ℚ)| = 1 := by
    split_ifs
    · rw [abs_neg, abs_one]
    · exact abs_one
  have hunit : (0 : ℚ) < 2 ^ (104 : ℤ) := by positivity
  have hlast : (2 : ℚ) ^ 24 * 2 ^ (104 : ℤ) = 2 ^ (128 : ℤ) := by norm_num
  unfold toRat
  rw [abs_mul, hsign, one_mul, ← hlast]
  split_ifs with hzero
  · -- A subnormal is far below the largest unit.
    have hfraction : (fractionField bits : ℚ) < 2 ^ 24 := by
      exact_mod_cast lt_trans hf (by norm_num)
    rw [abs_of_nonneg (by positivity)]
    calc (fractionField bits : ℚ) * 2 ^ (-149 : ℤ)
        ≤ (fractionField bits : ℚ) * 2 ^ (104 : ℤ) :=
          mul_le_mul_of_nonneg_left (zpow_le_zpow_right₀ (by norm_num) (by norm_num))
            (by positivity)
      _ < 2 ^ 24 * 2 ^ (104 : ℤ) := mul_lt_mul_of_pos_right hfraction hunit
  · -- A normal number has twenty-four bits in a unit that is not above the largest.
    have hsignificand : ((fractionField bits + 2 ^ 23 : Nat) : ℚ) < 2 ^ 24 := by
      have : fractionField bits + 2 ^ 23 < 2 ^ 24 := by omega
      exact_mod_cast this
    rw [abs_of_nonneg (by positivity)]
    calc ((fractionField bits + 2 ^ 23 : Nat) : ℚ) * 2 ^ ((exponentField bits : ℤ) - 150)
        ≤ ((fractionField bits + 2 ^ 23 : Nat) : ℚ) * 2 ^ (104 : ℤ) :=
          mul_le_mul_of_nonneg_left (zpow_le_zpow_right₀ (by norm_num) (by omega))
            (by positivity)
      _ < 2 ^ 24 * 2 ^ (104 : ℤ) := mul_lt_mul_of_pos_right hsignificand hunit

/-! ## The order -/

/-- A word without its sign. -/
def magnitude (bits : UInt32) : Nat := bits.toNat % 2 ^ 31

/-- The word stands for no number, and not for an infinity either. -/
def isNan (bits : UInt32) : Bool := decide (0x7f800000 < magnitude bits)

/-- Where a word stands among all that are not of no number. The two zeros stand at one place. -/
def standing (bits : UInt32) : Int :=
  if negative bits then -(magnitude bits : Int) else magnitude bits

theorem negative_iff (bits : UInt32) : negative bits = true ↔ 2 ^ 31 ≤ bits.toNat := by
  have hmask : (bits &&& 0x80000000).toNat = (bits.toNat.testBit 31).toNat * 2 ^ 31 := by
    rw [UInt32.toNat_and]
    exact Nat.and_two_pow _ 31
  have hlt := bits.toNat_lt
  have hword : negative bits = true ↔ (bits.toNat.testBit 31).toNat * 2 ^ 31 ≠ 0 := by
    rw [negative, bne_iff_ne, ne_eq, ← UInt32.toNat_inj, hmask]
    rfl
  rw [hword, Nat.testBit_eq_decide_div_mod_eq]
  by_cases hbit : bits.toNat / 2 ^ 31 % 2 = 1
  · rw [decide_eq_true hbit, Bool.toNat_true]
    exact ⟨fun _ => by omega, fun _ => by norm_num⟩
  · rw [decide_eq_false hbit, Bool.toNat_false, Nat.zero_mul]
    exact ⟨fun h => absurd rfl h, fun h => absurd h (by omega)⟩

/-- There is one infinity of each sign. -/
theorem eq_of_infinite {bits : UInt32} (h : magnitude bits = 0x7f800000) :
    bits = if negative bits then 0xff800000 else 0x7f800000 := by
  have hsign := negative_iff bits
  have hlt := bits.toNat_lt
  unfold magnitude at h
  cases hneg : negative bits with
  | true =>
      have hhigh := hsign.mp hneg
      rw [if_pos rfl, ← UInt32.toNat_inj]
      change bits.toNat = 0xff800000
      omega
  | false =>
      have hlow : ¬ 2 ^ 31 ≤ bits.toNat := fun hge => by
        rw [hsign.mpr hge] at hneg
        cases hneg
      rw [if_neg Bool.false_ne_true, ← UInt32.toNat_inj]
      change bits.toNat = 0x7f800000
      omega

/-- A magnitude in units of the smallest number. -/
def unitsOf (m : Nat) : Nat :=
  if m / 2 ^ 23 = 0 then m else (m % 2 ^ 23 + 2 ^ 23) * 2 ^ (m / 2 ^ 23 - 1)

theorem unitsOf_strictMono : StrictMono unitsOf := by
  refine strictMono_nat_of_lt_succ fun m => ?_
  have hdiv := Nat.div_add_mod m (2 ^ 23)
  have hmod := Nat.mod_lt m (by decide : 0 < 2 ^ 23)
  by_cases hlast : m % 2 ^ 23 + 1 < 2 ^ 23
  · -- The exponent stays.
    have hexp : (m + 1) / 2 ^ 23 = m / 2 ^ 23 := by omega
    have hfrac : (m + 1) % 2 ^ 23 = m % 2 ^ 23 + 1 := by omega
    unfold unitsOf
    rw [hexp, hfrac]
    by_cases hzero : m / 2 ^ 23 = 0
    · rw [if_pos hzero, if_pos hzero]
      exact Nat.lt_succ_self m
    · rw [if_neg hzero, if_neg hzero]
      exact Nat.mul_lt_mul_of_pos_right (by omega) (Nat.two_pow_pos _)
  · -- The exponent goes up, and the fraction starts again.
    have hexp : (m + 1) / 2 ^ 23 = m / 2 ^ 23 + 1 := by omega
    have hfrac : (m + 1) % 2 ^ 23 = 0 := by omega
    unfold unitsOf
    rw [hexp, hfrac, if_neg (Nat.succ_ne_zero _), Nat.zero_add, Nat.add_sub_cancel]
    by_cases hzero : m / 2 ^ 23 = 0
    · rw [if_pos hzero, hzero, pow_zero, Nat.mul_one]
      omega
    · rw [if_neg hzero]
      obtain ⟨e, he⟩ := Nat.exists_eq_succ_of_ne_zero hzero
      rw [he, Nat.succ_eq_add_one, Nat.add_sub_cancel, pow_succ 2 e]
      have hlt : (m % 2 ^ 23 + 2 ^ 23) * 2 ^ e < 2 ^ 24 * 2 ^ e :=
        Nat.mul_lt_mul_of_pos_right (by omega) (Nat.two_pow_pos e)
      omega

theorem exponentField_eq (bits : UInt32) : exponentField bits = magnitude bits / 2 ^ 23 := by
  rw [exponentField, and_0xff, Nat.shiftRight_eq_div_pow, magnitude]
  omega

/-- A word below the infinity has an exponent field that is not full. -/
theorem exponentField_ne {bits : UInt32} (h : magnitude bits < 0x7f800000) :
    exponentField bits ≠ 0xff := by
  rw [exponentField_eq]
  omega

/-- The number of a word is its magnitude in units, with its sign. -/
theorem toRat_eq_units (bits : UInt32) :
    toRat bits = (if negative bits then -1 else 1) * (unitsOf (magnitude bits) : ℚ) *
      2 ^ (-149 : ℤ) := by
  have hfraction : fractionField bits = magnitude bits % 2 ^ 23 := by
    rw [fractionField, and_0x7fffff, magnitude]
    omega
  rw [toRat, mul_assoc, exponentField_eq, hfraction, unitsOf]
  congr 1
  by_cases hzero : magnitude bits / 2 ^ 23 = 0
  · rw [if_pos hzero, if_pos hzero, Nat.mod_eq_of_lt (by omega)]
  · rw [if_neg hzero, if_neg hzero]
    obtain ⟨e, he⟩ := Nat.exists_eq_succ_of_ne_zero hzero
    have hshift : ((e.succ : Nat) : ℤ) - 150 = (e : ℤ) + (-149) := by omega
    rw [he, hshift, zpow_add₀ (by norm_num), zpow_natCast, Nat.succ_sub_one, Nat.cast_mul,
      Nat.cast_pow, Nat.cast_ofNat, mul_assoc]

/-- Words stand in the order of their numbers. -/
theorem toRat_lt_iff (a b : UInt32) : toRat a < toRat b ↔ standing a < standing b := by
  have hunit : (0 : ℚ) < 2 ^ (-149 : ℤ) := by positivity
  have hpos : ∀ m : Nat, (0 : ℚ) ≤ (unitsOf m : ℚ) := fun m => Nat.cast_nonneg _
  have hmono : ∀ m n : Nat, ((unitsOf m : ℚ) < (unitsOf n : ℚ)) ↔ m < n := by
    intro m n
    rw [Nat.cast_lt]
    exact unitsOf_strictMono.lt_iff_lt
  have hzero : ∀ m : Nat, (unitsOf m : ℚ) = 0 ↔ m = 0 := by
    intro m
    have h0 : unitsOf 0 = 0 := by decide
    rw [Nat.cast_eq_zero]
    exact ⟨fun h => unitsOf_strictMono.injective (h.trans h0.symm), fun h => h ▸ h0⟩
  rw [toRat_eq_units, toRat_eq_units, mul_lt_mul_iff_left₀ hunit, standing, standing]
  generalize magnitude a = m
  generalize magnitude b = n
  by_cases ha : negative a = true <;> by_cases hb : negative b = true <;>
    simp only [ha, hb, Bool.false_eq_true, if_true, if_false, neg_one_mul, one_mul]
  · rw [neg_lt_neg_iff, hmono]
    omega
  · -- A number that is not positive against one that is not negative.
    rw [← not_le, ← not_le, not_iff_not]
    constructor
    · intro hle
      have hm : (unitsOf m : ℚ) = 0 := by linarith [hpos m, hpos n]
      have hn : (unitsOf n : ℚ) = 0 := by linarith [hpos m, hpos n]
      rw [hzero] at hm hn
      omega
    · intro hle
      obtain ⟨rfl, rfl⟩ : m = 0 ∧ n = 0 := by omega
      rw [(hzero 0).mpr rfl, neg_zero]
  · constructor
    · intro hlt
      linarith [hpos m, hpos n]
    · intro hlt
      omega
  · rw [hmono]
    omega

end Binary32

end QrtEngine
