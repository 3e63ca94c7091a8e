import Mathlib.Logic.Basic

/-!
# Computations that can Fail

What holds of the result of a computation if it does not fail. The rules follow the ways in which
such computations are put together: a check, one after the other, and a loop.

## Main definitions

* `Yields`: What holds of the result.

## Theorems

* `Yields.bind`: One computation after the other.
* `Yields.guarded`: A check that fails or goes on.
* `Yields.foldlM`: A loop over a list, with an invariant that counts the rounds.
* `ok_bind`, `error_bind`: A step whose result is known.
* `bind_eq_ok_iff`: When one computation after the other does not fail.
* `bind_eq_map`, `map_eq_bind`: A function of the result, along a sequence of steps.
-/

namespace QrtEngine

variable {ε α β : Type}

/-- Something holds of the result, if there is one. -/
def Yields (done : α → Prop) : Except ε α → Prop
  | .error _ => True
  | .ok result => done result

namespace Yields

variable {done : α → Prop}

/-- If the first computation goes on, the second one begins where the first has ended. -/
theorem bind {next : β → Prop} {first : Except ε α} {second : α → Except ε β}
    (hfirst : Yields done first)
    (hsecond : ∀ result, done result → Yields next (second result)) :
    Yields next (first >>= second) := by
  cases first with
  | error failure => exact trivial
  | ok result => exact hsecond result hfirst

/-- A check that fails, or lets the computation go on. -/
theorem guarded {refuse : Bool} {failure : ε} {rest : Except ε α}
    (hrest : refuse = false → Yields done rest) :
    Yields done (if refuse then .error failure else rest) := by
  cases refuse with
  | true => exact trivial
  | false => exact hrest rfl

/-- A loop over a list. The invariant counts the rounds. -/
theorem foldlM {step : α → β → Except ε α} {invariant : Nat → α → Prop}
    (hstep : ∀ n state item, invariant n state → Yields (invariant (n + 1)) (step state item)) :
    ∀ (items : List β) (n : Nat) (state : α), invariant n state →
      Yields (invariant (n + items.length)) (items.foldlM step state) := by
  intro items
  induction items with
  | nil =>
      intro n state hstate
      exact hstate
  | cons item items ih =>
      intro n state hstate
      rw [List.foldlM_cons]
      refine bind (hstep n state item hstate) ?_
      intro next hnext
      have hrest := ih (n + 1) next hnext
      rw [List.length_cons, Nat.add_comm items.length, ← Nat.add_assoc]
      exact hrest

end Yields

/-! ## What a result says of the steps -/

/-- A step that has a result. -/
@[simp] theorem ok_bind (result : α) (second : α → Except ε β) :
    (Except.ok result >>= second) = second result := rfl

/-- A step that fails. -/
@[simp] theorem error_bind (failure : ε) (second : α → Except ε β) :
    (Except.error failure >>= second) = .error failure := rfl

/-- Two computations, one after the other, have a result if both have. -/
theorem bind_eq_ok_iff {first : Except ε α} {second : α → Except ε β} {result : β} :
    first >>= second = .ok result ↔ ∃ middle, first = .ok middle ∧ second middle = .ok result := by
  cases first with
  | error failure => exact ⟨fun h => (by cases h), fun ⟨_, h, _⟩ => (by cases h)⟩
  | ok middle =>
      constructor
      · intro h
        exact ⟨middle, rfl, h⟩
      · rintro ⟨middle', hmiddle, h⟩
        cases hmiddle
        exact h

theorem map_eq_ok_iff {f : α → β} {first : Except ε α} {result : β} :
    first.map f = .ok result ↔ ∃ middle, first = .ok middle ∧ f middle = result := by
  cases first with
  | error failure => exact ⟨fun h => (by cases h), fun ⟨_, h, _⟩ => (by cases h)⟩
  | ok middle => simp [Except.map]

/-! What is done with a result may be done by the last step, or handed to the next one. -/

theorem bind_eq_map {γ : Type} {f : β → γ} {first : Except ε α} {second : α → Except ε β}
    {second' : α → Except ε γ} (h : ∀ middle, second' middle = (second middle).map f) :
    first >>= second' = (first >>= second).map f := by
  cases first with
  | error failure => rfl
  | ok middle => exact h middle

theorem map_eq_bind {γ : Type} (f : α → β) (first : Except ε α) (second : β → Except ε γ) :
    first.map f >>= second = first >>= fun middle => second (f middle) := by
  cases first with
  | error failure => rfl
  | ok middle => rfl

theorem mapError_eq_ok_iff {ε' : Type} {f : ε → ε'} {first : Except ε α} {result : α} :
    first.mapError f = .ok result ↔ first = .ok result := by
  cases first with
  | error failure => exact ⟨fun h => (by cases h), fun h => (by cases h)⟩
  | ok middle =>
      refine ⟨fun h => ?_, fun h => ?_⟩
      · cases h
        rfl
      · cases h
        rfl

end QrtEngine
