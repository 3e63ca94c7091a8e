import Mathlib.Logic.Basic

/-!
# Runs of a Partial Machine

A machine is a partial step function: from a state, an action either is refused or leads
to one state. `Reaches` is the reflexive transitive closure of the steps whose actions
meet a condition, and `Reachable` adds a set of initial states. The condition is a
parameter, so that a result about every run and a result about the runs that avoid some
action in some states are the same rule at two conditions.

## Main definitions

* `Reaches`: A run from one state to another, every step meeting the condition.
* `Reachable`: The states such runs reach from the initial ones.
* `anyStep`: The condition every step meets.
* `runs`: The state a list of actions leads to.

## Theorems

* `Reaches.invariant`: What each step preserves, a run preserves.
* `Reachable.invariant`: What holds initially and is preserved holds in every reached
  state.
* `Reachable.mono`: Fewer steps refused, more states reached.
* `runs_length_add_le`: A measure that every step lowers bounds every run.
-/

namespace QrtEngine

namespace Run

variable {σ α : Type} {step : σ → α → Option σ} {ok ok' : σ → α → Prop} {init : σ → Prop}

/-- A run from one state to another, every step meeting the condition. -/
inductive Reaches (step : σ → α → Option σ) (ok : σ → α → Prop) (s : σ) : σ → Prop where
  | refl : Reaches step ok s s
  | tail (t u : σ) (a : α) : Reaches step ok s t → ok t a → step t a = some u →
      Reaches step ok s u

/-- A state some run reaches from an initial one. -/
def Reachable (step : σ → α → Option σ) (ok : σ → α → Prop) (init : σ → Prop) (s : σ) : Prop :=
  ∃ s₀, init s₀ ∧ Reaches step ok s₀ s

/-- The condition every step meets. -/
def anyStep : σ → α → Prop := fun _ _ => True

/-- Take a list of actions, one after the other. -/
def runs (step : σ → α → Option σ) (s : σ) (actions : List α) : Option σ :=
  actions.foldlM step s

/-- The run that a list of actions takes, if none of them is refused. -/
theorem reaches_of_runs (s t : σ) (actions : List α) (h : runs step s actions = some t) :
    Reaches step anyStep s t := by
  -- The run grows at its end while the list shrinks at its head.
  have hgen : ∀ actions u, Reaches step anyStep s u → runs step u actions = some t →
      Reaches step anyStep s t := by
    intro actions
    induction actions with
    | nil =>
        intro u hu ht
        obtain rfl := Option.some.inj ht
        exact hu
    | cons a actions ih =>
        intro u hu ht
        simp only [runs, List.foldlM_cons, Option.bind_eq_bind, Option.bind_eq_some_iff] at ht
        rcases ht with ⟨v, hv, hrest⟩
        exact ih v (Reaches.tail u v a hu trivial hv) hrest
  exact hgen actions s Reaches.refl h

theorem Reaches.invariant (inv : σ → Prop)
    (hstep : ∀ s a s', inv s → ok s a → step s a = some s' → inv s') {s t : σ}
    (h : Reaches step ok s t) (hs : inv s) : inv t := by
  induction h with
  | refl => exact hs
  | tail t u a _ hok hu ih => exact hstep t a u ih hok hu

theorem Reachable.invariant (inv : σ → Prop) (h0 : ∀ s, init s → inv s)
    (hstep : ∀ s a s', inv s → ok s a → step s a = some s' → inv s') {s : σ}
    (h : Reachable step ok init s) : inv s := by
  rcases h with ⟨s₀, hinit, hrun⟩
  exact hrun.invariant inv hstep (h0 s₀ hinit)

theorem Reachable.mono (hok : ∀ s a, ok s a → ok' s a) {s : σ}
    (h : Reachable step ok init s) : Reachable step ok' init s := by
  rcases h with ⟨s₀, hinit, hrun⟩
  refine ⟨s₀, hinit, ?_⟩
  induction hrun with
  | refl => exact Reaches.refl
  | tail t u a _ ha hu ih => exact Reaches.tail t u a ih (hok t a ha) hu

/-- A step from a reached state leads to one. -/
theorem Reachable.tail {s t : σ} {a : α} (h : Reachable step anyStep init s)
    (hstep : step s a = some t) : Reachable step anyStep init t := by
  rcases h with ⟨s₀, hinit, hrun⟩
  exact ⟨s₀, hinit, .tail s t a hrun trivial hstep⟩

/-- A run of steps each of which lowers a measure is no longer than what the measure lost. -/
theorem runs_length_add_le {p : α → Prop} (inv : σ → Prop) (measure : σ → Nat)
    (hstep : ∀ s a s', inv s → p a → step s a = some s' → inv s' ∧ measure s' < measure s)
    (actions : List α) (s t : σ) (hs : inv s) (hp : ∀ a ∈ actions, p a)
    (h : runs step s actions = some t) :
    inv t ∧ actions.length + measure t ≤ measure s := by
  induction actions generalizing s with
  | nil =>
      obtain rfl := Option.some.inj h
      exact ⟨hs, by simp⟩
  | cons a actions ih =>
      simp only [runs, List.foldlM_cons, Option.bind_eq_bind, Option.bind_eq_some_iff] at h
      obtain ⟨u, hu, hrest⟩ := h
      obtain ⟨hinv, hless⟩ := hstep s a u hs (hp a List.mem_cons_self) hu
      obtain ⟨ht, hle⟩ := ih u hinv (fun b hb => hp b (List.mem_cons_of_mem a hb)) hrest
      refine ⟨ht, ?_⟩
      rw [List.length_cons]
      omega

end Run

end QrtEngine
