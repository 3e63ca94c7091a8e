import QrtEngine.Library.Binary32
import Mathlib.Tactic.Positivity

/-!
# Values of Doubles

A double is no number, an infinity or a rational number. The two zeros are one number here. The
operations are exact up to a rounding, which is a parameter together with the exponential function
and the conversion to a float. What is known of these three are laws of C and of IEEE 754 that hold
in every rounding mode: nothing below `2 ^ 200` overflows, a result never crosses an integer that
is a double itself, and a float is no number exactly if the double was none.

## Main definitions

* `Double`, `Double.lt`: The values and their comparison.
* `Double.ofFloat`: The double of a float.
* `Arithmetic`: A rounding, an exponential function and a conversion to floats.
* `Arithmetic.add`, `Arithmetic.sub`, `Arithmetic.div`: The operations.

## Theorems

* `Arithmetic.round_between`: A result lies between the integers that the exact one lies between.
* `lt_ofFloat`: Floats in their order are doubles in their order.
* `exp_sub_ofFloat`: The exponential of a difference that is not positive.
-/

namespace QrtEngine

/-- The value of a double. -/
inductive Double where
  | nan
  | negInf
  | finite (value : ℚ)
  | posInf
deriving DecidableEq

namespace Double

open Binary32 (isNan magnitude negative standing toRat)

/-- The value with the other sign. -/
def neg : Double → Double
  | .nan => .nan
  | .negInf => .posInf
  | .finite value => .finite (-value)
  | .posInf => .negInf

/-- The comparison `a < b`, which is false if one of them is no number. -/
def lt : Double → Double → Bool
  | .negInf, .finite _ => true
  | .negInf, .posInf => true
  | .finite _, .posInf => true
  | .finite a, .finite b => decide (a < b)
  | _, _ => false

/-- The comparison `a <= b`. -/
def le : Double → Double → Bool
  | .nan, _ => false
  | _, .nan => false
  | a, b => !lt b a

/-- The double of a float. -/
def ofFloat (bits : UInt32) : Double :=
  if isNan bits then .nan
  else if magnitude bits = 0x7f800000 then if negative bits then .negInf else .posInf
  else .finite (toRat bits)

/-- A rounding of results, the exponential function and the conversion to floats. -/
structure Arithmetic where
  round : ℚ → Double
  exp : Double → Double
  toFloat : Double → UInt32
  /-- Nothing overflows that is far enough below the largest double. -/
  round_finite : ∀ q : ℚ, |q| ≤ 2 ^ 200 → ∃ v, round q = .finite v
  /-- Integers of fifty-three bits are doubles, and rounding is monotone. -/
  round_le : ∀ (q v : ℚ) (n : ℤ), |n| ≤ 2 ^ 53 → q ≤ n → round q = .finite v → v ≤ n
  le_round : ∀ (q v : ℚ) (n : ℤ), |n| ≤ 2 ^ 53 → n ≤ q → round q = .finite v → n ≤ v
  exp_nan : exp .nan = .nan
  exp_negInf : exp .negInf = .finite 0
  exp_zero : exp (.finite 0) = .finite 1
  exp_nonpos : ∀ v : ℚ, v ≤ 0 → ∃ w, exp (.finite v) = .finite w ∧ 0 ≤ w ∧ w ≤ 1
  isNan_toFloat : ∀ x, isNan (toFloat x) = true ↔ x = .nan

namespace Arithmetic

variable (arith : Arithmetic)

/-- The sum of two doubles. -/
def add : Double → Double → Double
  | .nan, _ => .nan
  | _, .nan => .nan
  | .finite a, .finite b => arith.round (a + b)
  | .posInf, .negInf => .nan
  | .negInf, .posInf => .nan
  | .posInf, _ => .posInf
  | _, .posInf => .posInf
  | .negInf, _ => .negInf
  | _, .negInf => .negInf

/-- The difference of two doubles. -/
def sub (a b : Double) : Double := arith.add a b.neg

/-- The quotient of two doubles. The zeros have no sign here, so what is divided by zero is no
    number; the code that uses this divides by positive numbers only. -/
def div : Double → Double → Double
  | .nan, _ => .nan
  | _, .nan => .nan
  | .finite a, .finite b => if b = 0 then .nan else arith.round (a / b)
  | .finite _, .posInf => .finite 0
  | .finite _, .negInf => .finite 0
  | .posInf, .finite b => if 0 < b then .posInf else if b = 0 then .nan else .negInf
  | .negInf, .finite b => if 0 < b then .negInf else if b = 0 then .nan else .posInf
  | _, _ => .nan

/-! ## Results between integers -/

/-- A result lies between the integers that the exact one lies between. -/
theorem round_between (m n : ℤ) (hm : |m| ≤ 2 ^ 53) (hn : |n| ≤ 2 ^ 53) (q : ℚ) (hlow : m ≤ q)
    (hhigh : q ≤ n) : ∃ v : ℚ, arith.round q = .finite v ∧ m ≤ v ∧ v ≤ n := by
  have hsize : |q| ≤ 2 ^ 200 := by
    have hm' : |(m : ℚ)| ≤ 2 ^ 53 := by exact_mod_cast hm
    have hn' : |(n : ℚ)| ≤ 2 ^ 53 := by exact_mod_cast hn
    have hwide : (2 : ℚ) ^ 53 ≤ 2 ^ 200 := pow_le_pow_right₀ (by norm_num) (by norm_num)
    rw [abs_le] at hm' hn' ⊢
    exact ⟨le_trans (neg_le_neg hwide) (le_trans hm'.1 hlow),
      le_trans hhigh (le_trans hn'.2 hwide)⟩
  obtain ⟨v, hv⟩ := arith.round_finite q hsize
  exact ⟨v, hv, arith.le_round q v m hm hlow hv, arith.round_le q v n hn hhigh hv⟩

@[simp] theorem add_nan (a : Double) : arith.add a .nan = .nan := by cases a <;> rfl

@[simp] theorem nan_add (a : Double) : arith.add .nan a = .nan := by cases a <;> rfl

/-- What a share in a sum is added to grows by one at most. -/
theorem add_share {a b : ℚ} {n : Nat} (hn : n + 1 ≤ 2 ^ 53) (ha : 0 ≤ a) (han : a ≤ n)
    (hb : 0 ≤ b) (hb1 : b ≤ 1) :
    ∃ c : ℚ, arith.add (.finite a) (.finite b) = .finite c ∧ 0 ≤ c ∧ c ≤ (n + 1 : Nat) ∧
      (1 ≤ a + b → 1 ≤ c) := by
  have hbound : |((n + 1 : Nat) : ℤ)| ≤ 2 ^ 53 := by
    rw [Nat.abs_cast]
    exact_mod_cast hn
  have hupper : a + b ≤ (((n + 1 : Nat) : ℤ) : ℚ) := by
    push_cast
    linarith
  obtain ⟨c, hc, hlow, hhigh⟩ := arith.round_between 0 (n + 1 : Nat) (by norm_num) hbound (a + b)
    (by push_cast; linarith) hupper
  refine ⟨c, hc, by exact_mod_cast hlow, by exact_mod_cast hhigh, fun hone => ?_⟩
  exact_mod_cast arith.le_round (a + b) c 1 (by norm_num) (by exact_mod_cast hone) hc

/-- A sum that starts with no number comes to none. -/
theorem foldl_add_nan (shares : List Double) : shares.foldl arith.add .nan = .nan := by
  induction shares with
  | nil => rfl
  | cons share shares ih => rw [List.foldl_cons, nan_add, ih]

/-- A sum of shares is a number, and it does not fall below one once it has got there. -/
theorem foldl_add_shares (shares : List Double)
    (hshares : ∀ share ∈ shares, ∃ w : ℚ, share = .finite w ∧ 0 ≤ w ∧ w ≤ 1) (a : ℚ) (n : Nat)
    (hn : n + shares.length ≤ 2 ^ 53) (ha : 0 ≤ a) (han : a ≤ n) :
    ∃ c : ℚ, shares.foldl arith.add (.finite a) = .finite c ∧ 0 ≤ c ∧ (1 ≤ a → 1 ≤ c) := by
  induction shares generalizing a n with
  | nil => exact ⟨a, rfl, ha, id⟩
  | cons share shares ih =>
      obtain ⟨w, rfl, hw, hw1⟩ := hshares _ List.mem_cons_self
      rw [List.length_cons] at hn
      obtain ⟨c, hc, hpos, hle, hone⟩ := @add_share arith a w n (by omega) ha han hw hw1
      obtain ⟨d, hd, hdpos, hdone⟩ := ih (fun share h => hshares share (List.mem_cons_of_mem _ h))
        c (n + 1) (by omega) hpos hle
      refine ⟨d, ?_, hdpos, fun h => hdone (hone (by linarith))⟩
      rw [List.foldl_cons, hc, hd]

/-- A share of at most one in a sum of at least one is a quotient between zero and one. -/
theorem div_share {a b : ℚ} (ha : 0 ≤ a) (ha1 : a ≤ 1) (hb : 1 ≤ b) :
    ∃ c : ℚ, arith.div (.finite a) (.finite b) = .finite c ∧ 0 ≤ c ∧ c ≤ 1 := by
  have hpos : 0 < b := by linarith
  obtain ⟨c, hc, hlow, hhigh⟩ := arith.round_between 0 1 (by norm_num) (by norm_num) (a / b)
    (by push_cast; positivity) (by push_cast; rw [div_le_one hpos]; linarith)
  refine ⟨c, ?_, by exact_mod_cast hlow, by exact_mod_cast hhigh⟩
  rw [div, if_neg hpos.ne', hc]

end Arithmetic

/-! ## Floats -/

theorem ofFloat_of_infinite {bits : UInt32} (h : magnitude bits = 0x7f800000) :
    ofFloat bits = if negative bits then .negInf else .posInf := by
  have hnumber : isNan bits = false := decide_eq_false (by omega)
  rw [ofFloat, hnumber, if_neg Bool.false_ne_true, if_pos h]

theorem ofFloat_of_finite {bits : UInt32} (h : magnitude bits < 0x7f800000) :
    ofFloat bits = .finite (toRat bits) := by
  have hnumber : isNan bits = false := decide_eq_false (by omega)
  rw [ofFloat, hnumber, if_neg Bool.false_ne_true, if_neg (by omega)]

/-- A float that is a number is finite or an infinity. -/
theorem finite_or_infinite {bits : UInt32} (h : isNan bits = false) :
    magnitude bits < 0x7f800000 ∨ magnitude bits = 0x7f800000 := by
  have hle := of_decide_eq_false h
  omega

theorem standing_of_finite {bits : UInt32} (h : magnitude bits < 0x7f800000) :
    -0x7f800000 < standing bits ∧ standing bits < 0x7f800000 := by
  unfold standing
  split_ifs <;> omega

theorem standing_of_infinite {bits : UInt32} (h : magnitude bits = 0x7f800000) :
    standing bits = if negative bits then -0x7f800000 else 0x7f800000 := by
  unfold standing
  rw [h]
  rfl

/-- Floats in their order are doubles in their order. -/
theorem lt_ofFloat {x y : UInt32} (hx : isNan x = false) (hy : isNan y = false)
    (h : standing y ≤ standing x) : lt (ofFloat x) (ofFloat y) = false := by
  rcases finite_or_infinite hx with hfx | hfx <;> rcases finite_or_infinite hy with hfy | hfy
  · rw [ofFloat_of_finite hfx, ofFloat_of_finite hfy]
    exact decide_eq_false (mt (Binary32.toRat_lt_iff x y).mp (not_lt.mpr h))
  · -- A float that is below a finite one is not the positive infinity.
    have hbound := (standing_of_finite hfx).2
    rw [standing_of_infinite hfy] at h
    rw [ofFloat_of_finite hfx, ofFloat_of_infinite hfy]
    cases hneg : negative y with
    | true => rfl
    | false =>
        rw [hneg, if_neg Bool.false_ne_true] at h
        omega
  · have hbound := (standing_of_finite hfy).1
    rw [standing_of_infinite hfx] at h
    rw [ofFloat_of_infinite hfx, ofFloat_of_finite hfy]
    cases hneg : negative x with
    | true =>
        rw [hneg, if_pos rfl] at h
        omega
    | false => rfl
  · rw [standing_of_infinite hfx, standing_of_infinite hfy] at h
    rw [ofFloat_of_infinite hfx, ofFloat_of_infinite hfy]
    cases hnx : negative x with
    | false => cases negative y <;> rfl
    | true =>
        cases hny : negative y with
        | true => rfl
        | false =>
            rw [hnx, hny] at h
            exact absurd h (by decide)

section Difference

variable (arith : Arithmetic)

/-- An infinity has no difference with itself. -/
theorem sub_self_of_infinite {x : UInt32} (h : magnitude x = 0x7f800000) :
    arith.sub (ofFloat x) (ofFloat x) = .nan := by
  rw [ofFloat_of_infinite h]
  cases negative x <;> rfl

/-- The exponential of the difference of a finite float with itself. -/
theorem exp_sub_self {x : UInt32} (h : magnitude x < 0x7f800000) :
    arith.exp (arith.sub (ofFloat x) (ofFloat x)) = .finite 1 := by
  obtain ⟨v, hv, hlow, hhigh⟩ := arith.round_between 0 0 (by norm_num) (by norm_num) 0
    (by norm_num) (by norm_num)
  have hzero : v = 0 := by
    push_cast at hlow hhigh
    linarith
  have hsub : arith.sub (ofFloat x) (ofFloat x) = .finite 0 := by
    rw [ofFloat_of_finite h, ← hzero, ← hv, ← add_neg_cancel (toRat x)]
    rfl
  rw [hsub, arith.exp_zero]

/-- The exponential of a difference that is not positive lies between zero and one. -/
theorem exp_sub_ofFloat {x y : UInt32} (hx : isNan x = false) (hy : magnitude y < 0x7f800000)
    (h : standing x ≤ standing y) :
    ∃ w : ℚ, arith.exp (arith.sub (ofFloat x) (ofFloat y)) = .finite w ∧ 0 ≤ w ∧ w ≤ 1 := by
  rw [ofFloat_of_finite hy]
  rcases finite_or_infinite hx with hfinite | hinfinite
  · rw [ofFloat_of_finite hfinite]
    have hle : toRat x ≤ toRat y :=
      not_lt.mp (mt (Binary32.toRat_lt_iff y x).mp (not_lt.mpr h))
    -- The difference of two floats is far from an overflow.
    have hsize : |toRat x - toRat y| ≤ 2 ^ 200 := by
      have hax := Binary32.abs_toRat_lt x (Binary32.exponentField_ne hfinite)
      have hay := Binary32.abs_toRat_lt y (Binary32.exponentField_ne hy)
      have hwide : (2 : ℚ) ^ (128 : ℤ) + 2 ^ (128 : ℤ) ≤ 2 ^ 200 := by norm_num
      have htriangle := abs_sub (toRat x) (toRat y)
      linarith
    obtain ⟨v, hv⟩ := arith.round_finite _ hsize
    have hnonpos : v ≤ 0 := by
      exact_mod_cast arith.round_le _ v 0 (by norm_num) (by push_cast; linarith) hv
    have hsub : arith.sub (.finite (toRat x)) (.finite (toRat y)) = .finite v := by
      rw [← hv, sub_eq_add_neg]
      rfl
    rw [hsub]
    exact arith.exp_nonpos v hnonpos
  · -- Only the negative infinity is below a finite float.
    rw [ofFloat_of_infinite hinfinite]
    cases hneg : negative x with
    | true => exact ⟨0, arith.exp_negInf, le_refl _, zero_le_one⟩
    | false =>
        have hbound := (standing_of_finite hy).2
        rw [standing_of_infinite hinfinite, hneg, if_neg Bool.false_ne_true] at h
        omega

end Difference

end Double

end QrtEngine
