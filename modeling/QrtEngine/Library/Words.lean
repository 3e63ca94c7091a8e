/-!
# Arithmetic on Words

Addition and subtraction of unsigned words as a machine has them: out of range they wrap
around. A run of a program with such operations notes whether one of them did, so that a result
comes with the answer to the question whether it is the mathematical one.

## Main definitions

* `Arith`: A computation on words with a note whether an operation wrapped around.
* `Arith.add64`, `Arith.sub64`, `Arith.add32`, `Arith.sub32`: The operations.
* `Arith.Yields`: A computation has a result, and nothing wraps around.

## Theorems

* `Arith.yields_bind`: Computations one after the other.
* `Arith.yields_add64`, `Arith.yields_sub64`, …: In range nothing wraps around.
-/

namespace QrtEngine

/-- A computation on words with a note whether an operation wrapped around. -/
abbrev Arith (α : Type) : Type := StateM Bool α

namespace Arith

/-- Addition of 64-bit words. -/
def add64 (a b : UInt64) : Arith UInt64 := fun wrapped =>
  (a + b, wrapped || decide (0x10000000000000000 ≤ a.toNat + b.toNat))

/-- Subtraction of 64-bit words. -/
def sub64 (a b : UInt64) : Arith UInt64 := fun wrapped => (a - b, wrapped || decide (a < b))

/-- Addition of 32-bit words. -/
def add32 (a b : UInt32) : Arith UInt32 := fun wrapped =>
  (a + b, wrapped || decide (0x100000000 ≤ a.toNat + b.toNat))

/-- Subtraction of 32-bit words. -/
def sub32 (a b : UInt32) : Arith UInt32 := fun wrapped => (a - b, wrapped || decide (a < b))

variable {α β : Type}

/-- A computation has a result, and nothing wraps around. -/
def Yields (program : Arith α) (x : α) : Prop := ∀ wrapped, program wrapped = (x, wrapped)

theorem yields_pure (x : α) : Yields (pure x) x := fun _ => rfl

theorem yields_pure_of_eq {x y : α} (h : x = y) : Yields (pure x) y := by
  rw [h]
  exact yields_pure y

/-- Computations one after the other. -/
theorem yields_bind {program : Arith α} {next : α → Arith β} {x : α} {y : β}
    (h : Yields program x) (hnext : Yields (next x) y) : Yields (program >>= next) y := by
  intro wrapped
  show (match program wrapped with | (x, wrapped) => next x wrapped) = _
  rw [h wrapped]
  exact hnext wrapped

/-- A result has one value. -/
theorem Yields.unique {program : Arith α} {x y : α} (h : Yields program x)
    (h' : Yields program y) : x = y :=
  congrArg Prod.fst ((h false).symm.trans (h' false))

theorem yields_add64 (a b : UInt64) (h : a.toNat + b.toNat < 0x10000000000000000) :
    Yields (add64 a b) (a + b) := by
  intro wrapped
  unfold add64
  rw [decide_eq_false (by omega), Bool.or_false]

theorem yields_sub64 (a b : UInt64) (h : b ≤ a) : Yields (sub64 a b) (a - b) := by
  intro wrapped
  unfold sub64
  rw [decide_eq_false (UInt64.not_lt.mpr h), Bool.or_false]

theorem yields_add32 (a b : UInt32) (h : a.toNat + b.toNat < 0x100000000) :
    Yields (add32 a b) (a + b) := by
  intro wrapped
  unfold add32
  rw [decide_eq_false (by omega), Bool.or_false]

theorem yields_sub32 (a b : UInt32) (h : b ≤ a) : Yields (sub32 a b) (a - b) := by
  intro wrapped
  unfold sub32
  rw [decide_eq_false (UInt32.not_lt.mpr h), Bool.or_false]

end Arith

end QrtEngine
