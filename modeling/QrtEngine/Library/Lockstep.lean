import Mathlib.Data.List.Forall2

/-!
# Machines in Lockstep

A machine that is fed its own output: each step takes an input and a state, and either is rejected
or gives an output, which is the next input, and a state. A rejected step ends the run.

Two machines run in lockstep if from related states, and with the same input, they both reject or
both accept with the same output. What relates the states after a step may be more than what has
to relate them before it.

## Main definitions

* `trace`: The steps of a run, up to the first that is rejected.
* `Agree`: Two steps end alike.

## Theorems

* `trace_forall₂`: Machines in lockstep have traces of the same length, step by step alike.
-/

namespace QrtEngine

namespace Lockstep

variable {ι σ τ : Type}

/-- The steps of a run, up to the first that is rejected: what each has put out, and its state. -/
def trace (step : ι → σ → Option (ι × σ)) : Nat → ι → σ → List (ι × σ)
  | 0, _, _ => []
  | n + 1, input, state =>
      match step input state with
      | none => []
      | some (output, next) => (output, next) :: trace step n output next

/-- Two accepted steps have the same output, and related states. -/
def Agree (after : σ → τ → Prop) (a : ι × σ) (b : ι × τ) : Prop := a.1 = b.1 ∧ after a.2 b.2

theorem trace_forall₂ (step : ι → σ → Option (ι × σ)) (step' : ι → τ → Option (ι × τ))
    (before after : σ → τ → Prop) (hafter : ∀ s t, after s t → before s t)
    (hstep : ∀ input s t, before s t →
      Option.Rel (Agree after) (step input s) (step' input t)) :
    ∀ n input s t, before s t →
      List.Forall₂ (Agree after) (trace step n input s) (trace step' n input t) := by
  intro n
  induction n with
  | zero =>
      intro input s t _
      exact List.Forall₂.nil
  | succ n ih =>
      intro input s t hst
      have hrel := hstep input s t hst
      unfold trace
      -- Both runs end here, or both go on from related states with the same input.
      generalize step input s = first at hrel
      generalize step' input t = second at hrel
      cases hrel with
      | none => exact List.Forall₂.nil
      | @some a b hagree =>
          obtain ⟨output, next⟩ := a
          obtain ⟨output', next'⟩ := b
          obtain ⟨houtput, hnext⟩ := hagree
          dsimp only at houtput hnext ⊢
          subst houtput
          exact List.Forall₂.cons ⟨rfl, hnext⟩ (ih output next next' (hafter _ _ hnext))

end Lockstep

end QrtEngine
