import Mathlib.Data.BitVec

/-!
# The Bytes of a Word

A word as the row of its bytes, the lowest first. Masks, unions and shifts by whole bytes work byte
by byte, so an equation between words that are put together from bytes is one equation for each
byte.

## Main definitions

* `byteAt`: A byte of a word.
* `readWord`, `readHalf`: A word of a memory of bytes, the lowest byte first.

## Theorems

* `byteAt_or`, `byteAt_and`, `byteAt_shiftLeft`, `byteAt_setWidth`: The operations, byte by byte.
* `eq_of_bytes`: Words with the same bytes are the same.
* `readWord_eq`, `readHalf_eq`: A word whose bytes are in the memory is read back.
-/

namespace QrtEngine

namespace WordBytes

variable {n m : Nat}

/-- A byte of a word. -/
def byteAt (w : BitVec n) (i : Nat) : BitVec 8 := (w >>> (8 * i)).setWidth 8

theorem getLsbD_byteAt (w : BitVec n) (i k : Nat) (hk : k < 8) :
    (byteAt w i).getLsbD k = w.getLsbD (8 * i + k) := by
  simp [byteAt, hk]

/-- Bytes with the same bits are the same. -/
theorem byte_ext {b b' : BitVec 8} (h : ∀ k, k < 8 → b.getLsbD k = b'.getLsbD k) : b = b' :=
  BitVec.eq_of_getLsbD_eq h

@[simp] theorem byteAt_or (w w' : BitVec n) (i : Nat) :
    byteAt (w ||| w') i = byteAt w i ||| byteAt w' i := by
  refine byte_ext fun k hk => ?_
  rw [BitVec.getLsbD_or, getLsbD_byteAt _ _ _ hk, getLsbD_byteAt _ _ _ hk, getLsbD_byteAt _ _ _ hk,
    BitVec.getLsbD_or]

@[simp] theorem byteAt_and (w w' : BitVec n) (i : Nat) :
    byteAt (w &&& w') i = byteAt w i &&& byteAt w' i := by
  refine byte_ext fun k hk => ?_
  rw [BitVec.getLsbD_and, getLsbD_byteAt _ _ _ hk, getLsbD_byteAt _ _ _ hk, getLsbD_byteAt _ _ _ hk,
    BitVec.getLsbD_and]

@[simp] theorem byteAt_zero (i : Nat) : byteAt (0#n) i = 0#8 := by
  refine byte_ext fun k hk => ?_
  rw [getLsbD_byteAt _ _ _ hk, BitVec.getLsbD_zero, BitVec.getLsbD_zero]

/-- Behind the word there are no bytes. -/
theorem byteAt_eq_zero (w : BitVec n) (i : Nat) (h : n ≤ 8 * i) : byteAt w i = 0#8 := by
  refine byte_ext fun k hk => ?_
  rw [getLsbD_byteAt _ _ _ hk, BitVec.getLsbD_of_ge _ _ (by omega), BitVec.getLsbD_zero]

/-- A shift moves the bytes up. -/
theorem byteAt_shiftLeft (w : BitVec n) (s i : Nat) (h : 8 * i + 8 ≤ n) :
    byteAt (w <<< (8 * s)) i = if i < s then 0#8 else byteAt w (i - s) := by
  refine byte_ext fun k hk => ?_
  rw [getLsbD_byteAt _ _ _ hk, BitVec.getLsbD_shiftLeft]
  by_cases his : i < s
  · rw [if_pos his, BitVec.getLsbD_zero]
    simp [show 8 * i + k < 8 * s by omega]
  · rw [if_neg his, getLsbD_byteAt _ _ _ hk, show 8 * (i - s) + k = 8 * i + k - 8 * s by omega]
    simp [show 8 * i + k < n by omega, show ¬ 8 * i + k < 8 * s by omega]

/-- A wider word has the same bytes, and zeros behind them. -/
theorem byteAt_setWidth (w : BitVec n) (i : Nat) (h : 8 * i + 8 ≤ m) :
    byteAt (w.setWidth m) i = byteAt w i := by
  refine byte_ext fun k hk => ?_
  rw [getLsbD_byteAt _ _ _ hk, getLsbD_byteAt _ _ _ hk, BitVec.getLsbD_setWidth]
  simp [show 8 * i + k < m by omega]

/-- A byte is its own lowest byte. -/
@[simp] theorem byteAt_byte (b : BitVec 8) : byteAt b 0 = b := by
  refine byte_ext fun k hk => ?_
  rw [getLsbD_byteAt _ _ _ hk, Nat.mul_zero, Nat.zero_add]

/-- Words with the same bytes are the same. -/
theorem eq_of_bytes {w w' : BitVec n} (h : ∀ i, 8 * i < n → byteAt w i = byteAt w' i) : w = w' := by
  refine BitVec.eq_of_getLsbD_eq fun k hk => ?_
  have hbit := congrArg (fun b => b.getLsbD (k % 8)) (h (k / 8) (by omega))
  simp only [getLsbD_byteAt _ _ _ (Nat.mod_lt k (by decide : 0 < 8))] at hbit
  rwa [show 8 * (k / 8) + k % 8 = k by omega] at hbit

/-! ## Words in memory -/

/-- A word of two bytes. -/
def readHalf (memory : Nat → BitVec 8) (address : Nat) : BitVec 16 :=
  (memory address).setWidth 16 ||| ((memory (address + 1)).setWidth 16 <<< (8 * 1))

/-- A word of four bytes. -/
def readWord (memory : Nat → BitVec 8) (address : Nat) : BitVec 32 :=
  (memory address).setWidth 32 ||| ((memory (address + 1)).setWidth 32 <<< (8 * 1)) |||
    ((memory (address + 2)).setWidth 32 <<< (8 * 2)) |||
    ((memory (address + 3)).setWidth 32 <<< (8 * 3))

/-- A byte that is shifted to its place. -/
theorem byteAt_placed (b : BitVec 8) (s i : Nat) (h : 8 * i + 8 ≤ n) :
    byteAt (b.setWidth n <<< (8 * s)) i = if i = s then b else 0#8 := by
  rw [byteAt_shiftLeft _ _ _ h]
  by_cases hlt : i < s
  · rw [if_pos hlt, if_neg (by omega)]
  · rw [if_neg hlt, byteAt_setWidth _ _ (by omega)]
    by_cases hsame : i = s
    · rw [if_pos hsame, hsame, Nat.sub_self, byteAt_byte]
    · rw [if_neg hsame, byteAt_eq_zero _ _ (by omega)]

/-- A word of two bytes is read back. -/
theorem readHalf_eq {memory : Nat → BitVec 8} {address : Nat} {w : BitVec 16}
    (h : ∀ i, i < 2 → memory (address + i) = byteAt w i) : readHalf memory address = w := by
  have h0 := h 0 (by omega)
  rw [Nat.add_zero] at h0
  refine eq_of_bytes fun i hi => ?_
  rw [readHalf, byteAt_or, byteAt_placed _ _ _ (by omega), byteAt_setWidth _ _ (by omega), h0,
    h 1 (by omega)]
  rcases (show i = 0 ∨ i = 1 by omega) with rfl | rfl
  · simp
  · rw [byteAt_eq_zero _ _ (by omega)]
    simp

/-- A word of four bytes is read back. -/
theorem readWord_eq {memory : Nat → BitVec 8} {address : Nat} {w : BitVec 32}
    (h : ∀ i, i < 4 → memory (address + i) = byteAt w i) : readWord memory address = w := by
  have h0 := h 0 (by omega)
  rw [Nat.add_zero] at h0
  refine eq_of_bytes fun i hi => ?_
  rw [readWord, byteAt_or, byteAt_or, byteAt_or, byteAt_placed _ _ _ (by omega),
    byteAt_placed _ _ _ (by omega), byteAt_placed _ _ _ (by omega), byteAt_setWidth _ _ (by omega),
    h0, h 1 (by omega), h 2 (by omega), h 3 (by omega)]
  rcases (show i = 0 ∨ (0 < i ∧ i < 4) by omega) with rfl | hpos
  · simp
  · rw [byteAt_eq_zero _ _ (by omega)]
    rcases (show i = 1 ∨ i = 2 ∨ i = 3 by omega) with rfl | rfl | rfl <;> simp

end WordBytes

end QrtEngine
