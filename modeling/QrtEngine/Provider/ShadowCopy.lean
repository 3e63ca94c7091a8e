import QrtEngine.Provider.Shadow

/-!
# Copying the Layers of a Session

The loops that copy the layers keep two things at every point, so also where they fail. The
allocations of the original session and the copies made so far are all owned. And the session
points to the copies where there are any and to the originals elsewhere. Once both loops are
through, every layer that was captured has its copy, and then the allocations that a commit frees
and those that the session owns are the originals and the copies again.

## Main definitions

* `WellFormed`: Only layers that were captured own allocations, and a contiguous tail owns none.
* `Swapped`: A session points to the copies where there are any.
* `Complete`: Every layer that was captured has its copy.
* `Copying`: A loop in the middle.

## Theorems

* `Swapped.exchange`: Originals and copies are what a commit frees and what it keeps.
* `cloneLayers_copying`: A loop copies every layer or stops with what it has copied.
* `cloneSession_cloned`: What copying a session leaves behind, whether it fails or not.
-/

namespace QrtEngine

namespace Shadow

open QrtEngine.Layered

/-! ## Places -/

theorem mem_places (layer : Nat) (slot : Slot) : (layer, slot) ∈ places ↔ layer < layerCount := by
  unfold places
  cases slot <;> simp [List.product, layerCount]

theorem nodup_places : places.Nodup :=
  List.Nodup.product List.nodup_range (by decide)

theorem pointer_setLinear (session : SessionState) (layer : Nat) (entry : LinearLayer) :
    (session.setLinear layer entry).pointer =
      Function.update session.pointer (layer, .linear) entry.deviceAllocation := by
  funext ⟨other, slot⟩
  by_cases heq : other = layer
  · subst heq
    cases slot <;> simp [SessionState.pointer, SessionState.setLinear]
  · cases slot <;> simp [SessionState.pointer, SessionState.setLinear, heq]

theorem pointer_setFull (session : SessionState) (layer : Nat) (entry : FullLayer) :
    (session.setFull layer entry).pointer =
      Function.update
        (Function.update session.pointer (layer, .full) entry.deviceAllocation)
        (layer, .tail) entry.deviceDecodeTailAllocation := by
  funext ⟨other, slot⟩
  by_cases heq : other = layer
  · subst heq
    cases slot <;> simp [SessionState.pointer, SessionState.setFull]
  · cases slot <;> simp [SessionState.pointer, SessionState.setFull, heq]

/-! ## Owners -/

/-- Only layers that were captured own allocations, and a contiguous tail owns none. A fully
    attending layer that was captured has its allocation. -/
structure WellFormed (session : SessionState) : Prop where
  linear : ∀ layer < layerCount, (session.linearLayers layer).valid = false →
    session.pointer (layer, .linear) = none
  full : ∀ layer < layerCount, (session.fullAttentionLayers layer).valid = false →
    session.pointer (layer, .full) = none
  tail : ∀ layer < layerCount, (session.fullAttentionLayers layer).valid = false →
    session.pointer (layer, .tail) = none
  contiguous : ∀ layer < layerCount,
    (session.fullAttentionLayers layer).decodeTailContiguous = true →
      session.pointer (layer, .tail) = none
  captured : ∀ layer < layerCount, (session.fullAttentionLayers layer).valid = true →
    (session.pointer (layer, .full)).isSome = true

/-- The layers of two sessions are captured alike. -/
structure SameShape (session other : SessionState) : Prop where
  linear : ∀ layer < layerCount,
    (other.linearLayers layer).valid = (session.linearLayers layer).valid
  full : ∀ layer < layerCount,
    (other.fullAttentionLayers layer).valid = (session.fullAttentionLayers layer).valid
  contiguous : ∀ layer < layerCount,
    (other.fullAttentionLayers layer).decodeTailContiguous =
      (session.fullAttentionLayers layer).decodeTailContiguous

/-- The live session points to the copies where there are any. Only what decoding writes to is
    copied. -/
structure Swapped (original : SessionState) (shadow : Nat × Slot → Option Nat)
    (live : SessionState) : Prop where
  pointer : ∀ place ∈ places, live.pointer place = (shadow place).or (original.pointer place)
  shape : SameShape original live
  linear : ∀ layer < layerCount, (original.linearLayers layer).valid = false →
    shadow (layer, .linear) = none
  full : ∀ layer < layerCount, ((original.fullAttentionLayers layer).valid = false ∨
      (original.fullAttentionLayers layer).decodeTailContiguous = false) →
    shadow (layer, .full) = none
  tail : ∀ layer < layerCount, ((original.fullAttentionLayers layer).valid = false ∨
      (original.fullAttentionLayers layer).decodeTailContiguous = true) →
    shadow (layer, .tail) = none

/-- Every layer that was captured has its copy. -/
structure Complete (original : SessionState) (shadow : Nat × Slot → Option Nat) : Prop where
  linear : ∀ layer < layerCount, (original.linearLayers layer).valid = true →
    (shadow (layer, .linear)).isSome = true
  full : ∀ layer < layerCount, (original.fullAttentionLayers layer).valid = true →
    (original.fullAttentionLayers layer).decodeTailContiguous = true →
      (shadow (layer, .full)).isSome = true
  tail : ∀ layer < layerCount, (original.fullAttentionLayers layer).valid = true →
    (original.fullAttentionLayers layer).decodeTailContiguous = false →
      (shadow (layer, .tail)).isSome = true

/-- Nothing is copied yet. -/
theorem swapped_noShadow (session : SessionState) : Swapped session noShadow session :=
  { pointer := fun _ _ => rfl
    shape := ⟨fun _ _ => rfl, fun _ _ => rfl, fun _ _ => rfl⟩
    linear := fun _ _ _ => rfl
    full := fun _ _ _ => rfl
    tail := fun _ _ _ => rfl }

section Owners

variable {original live : SessionState} {shadow : Nat × Slot → Option Nat}

/-- Without copies the allocations are those of the original. -/
theorem Swapped.owned_eq (h : Swapped original noShadow live) : live.owned = original.owned :=
  pointersOf_congr places _ _ h.pointer

/-- A session with copies of well-formed layers is well formed. -/
theorem Swapped.wellFormed (h : Swapped original shadow live) (hwell : WellFormed original) :
    WellFormed live := by
  refine ⟨?_, ?_, ?_, ?_, ?_⟩
  · intro layer hlayer hvalid
    rw [h.shape.linear layer hlayer] at hvalid
    rw [h.pointer _ ((mem_places layer .linear).mpr hlayer), h.linear layer hlayer hvalid]
    exact hwell.linear layer hlayer hvalid
  · intro layer hlayer hvalid
    rw [h.shape.full layer hlayer] at hvalid
    rw [h.pointer _ ((mem_places layer .full).mpr hlayer), h.full layer hlayer (Or.inl hvalid)]
    exact hwell.full layer hlayer hvalid
  · intro layer hlayer hvalid
    rw [h.shape.full layer hlayer] at hvalid
    rw [h.pointer _ ((mem_places layer .tail).mpr hlayer), h.tail layer hlayer (Or.inl hvalid)]
    exact hwell.tail layer hlayer hvalid
  · intro layer hlayer hcontiguous
    rw [h.shape.contiguous layer hlayer] at hcontiguous
    rw [h.pointer _ ((mem_places layer .tail).mpr hlayer),
      h.tail layer hlayer (Or.inr hcontiguous)]
    exact hwell.contiguous layer hlayer hcontiguous
  · intro layer hlayer hvalid
    rw [h.shape.full layer hlayer] at hvalid
    rw [h.pointer _ ((mem_places layer .full).mpr hlayer), Option.isSome_or,
      hwell.captured layer hlayer hvalid, Bool.or_true]

/-- The original allocations that have a copy. -/
def copied (original : SessionState) (shadow : Nat × Slot → Option Nat) (place : Nat × Slot) :
    Option Nat :=
  if (shadow place).isSome then original.pointer place else none

/-- A commit frees the allocations that have a copy, and no other. -/
theorem Swapped.replaced_eq (h : Swapped original shadow live) (hwell : WellFormed original)
    (hcomplete : Complete original shadow) (place : Nat × Slot) (hplace : place ∈ places) :
    replaced original place = copied original shadow place := by
  rcases place with ⟨layer, slot⟩
  have hlayer := (mem_places layer slot).mp hplace
  unfold copied
  cases slot with
  | linear =>
      cases hvalid : (original.linearLayers layer).valid with
      | false => simp [replaced, hwell.linear layer hlayer hvalid]
      | true => simp [replaced, hcomplete.linear layer hlayer hvalid]
  | full =>
      cases hcontiguous : (original.fullAttentionLayers layer).decodeTailContiguous with
      | false => simp [replaced, hcontiguous, h.full layer hlayer (Or.inr hcontiguous)]
      | true =>
          cases hvalid : (original.fullAttentionLayers layer).valid with
          | false => simp [replaced, hwell.full layer hlayer hvalid]
          | true => simp [replaced, hcontiguous, hcomplete.full layer hlayer hvalid hcontiguous]
  | tail =>
      cases hcontiguous : (original.fullAttentionLayers layer).decodeTailContiguous with
      | true => simp [replaced, hcontiguous, h.tail layer hlayer (Or.inr hcontiguous)]
      | false =>
          cases hvalid : (original.fullAttentionLayers layer).valid with
          | false => simp [replaced, hwell.tail layer hlayer hvalid]
          | true => simp [replaced, hcontiguous, hcomplete.tail layer hlayer hvalid hcontiguous]

/-- Originals and copies are what a commit frees and what the session then owns. -/
theorem Swapped.exchange (h : Swapped original shadow live) (hwell : WellFormed original)
    (hcomplete : Complete original shadow) :
    (original.owned ++ pointersOf places shadow).Perm
      (pointersOf places (replaced original) ++ live.owned) := by
  refine pointersOf_exchange places _ _ _ _ ?_
  intro place hplace
  rw [h.replaced_eq hwell hcomplete place hplace, h.pointer place hplace]
  unfold copied
  cases shadow place <;> simp

end Owners

/-! ## Copying -/

/-- Originals, copies and the alternate branch are owned, and the session is swapped. -/
structure Cloned (original : SessionState) (dual : List Nat) (clone : Clone) : Prop where
  owns : clone.heap.Owns (original.owned ++ (pointersOf places clone.shadow ++ dual))
  swapped : Swapped original clone.shadow clone.session

section Cloning

variable {original : SessionState} {dual : List Nat} {clone : Clone}

/-- Copying one allocation keeps the heap owned, whether it fails or not. -/
theorem copyTo_owns (outcome : CopyOutcome) (place : Nat × Slot) (point : Nat → SessionState)
    (h : clone.heap.Owns (original.owned ++ (pointersOf places clone.shadow ++ dual)))
    (hplace : place ∈ places) (hnone : clone.shadow place = none) :
    (copyTo outcome place point clone).2.heap.Owns (original.owned ++
      (pointersOf places (copyTo outcome place point clone).2.shadow ++ dual)) := by
  cases outcome with
  | mallocFails => exact h
  | copyFails => exact h.alloc_free
  | copied =>
      have hfill := pointersOf_update places clone.shadow place clone.heap.allocated nodup_places
        hplace hnone
      refine h.alloc.perm ?_
      exact List.perm_middle.symm.trans ((hfill.symm.append_right dual).append_left _)

/-- A place that has no copy has none after another place got its copy. -/
theorem update_none {shadow : Nat × Slot → Option Nat} {place other : Nat × Slot} {copy : Nat}
    (hne : other ≠ place) (hnone : shadow other = none) :
    Function.update shadow place (some copy) other = none := by
  rw [Function.update_of_ne hne]
  exact hnone

/-- A linear layer that points to its copy. -/
theorem Swapped.pointLinear (h : Swapped original clone.shadow clone.session) (layer copy : Nat)
    (hvalid : (original.linearLayers layer).valid = true) :
    Swapped original (Function.update clone.shadow (layer, .linear) (some copy))
      (pointLinear original clone.session layer copy) := by
  refine ⟨?_, ⟨?_, h.shape.full, h.shape.contiguous⟩, ?_, ?_, ?_⟩
  · intro place hplace
    unfold Shadow.pointLinear
    rw [pointer_setLinear]
    by_cases heq : place = (layer, .linear)
    · simp [heq]
    · rw [Function.update_of_ne heq, Function.update_of_ne heq]
      exact h.pointer place hplace
  · intro other hother
    rw [← h.shape.linear other hother]
    by_cases heq : other = layer
    · simp [Shadow.pointLinear, SessionState.setLinear, heq]
    · simp [Shadow.pointLinear, SessionState.setLinear, heq]
  · intro other hother hinvalid
    refine update_none ?_ (h.linear other hother hinvalid)
    intro heq
    rw [(Prod.mk.inj heq).1, hvalid] at hinvalid
    exact Bool.noConfusion hinvalid
  · intro other hother hnone
    exact update_none (by simp) (h.full other hother hnone)
  · intro other hother hnone
    exact update_none (by simp) (h.tail other hother hnone)

/-- A copy changes where a layer points, and not what was captured of it. -/
theorem pointFull_sameShape {live : SessionState} (h : SameShape original live)
    (layer copy : Nat) : SameShape original (Shadow.pointFull original live layer copy) := by
  refine ⟨h.linear, ?_, ?_⟩
  · intro other hother
    rw [← h.full other hother]
    by_cases heq : other = layer
    · subst heq
      simp only [Shadow.pointFull, SessionState.setFull, Function.update_self]
      split_ifs <;> rfl
    · simp [Shadow.pointFull, SessionState.setFull, heq]
  · intro other hother
    rw [← h.contiguous other hother]
    by_cases heq : other = layer
    · subst heq
      simp only [Shadow.pointFull, SessionState.setFull, Function.update_self]
      split_ifs <;> rfl
    · simp [Shadow.pointFull, SessionState.setFull, heq]

/-- A fully attending layer that points to its copy, whole or only its tail. -/
theorem Swapped.pointFull (h : Swapped original clone.shadow clone.session)
    (hwell : WellFormed original) (layer copy : Nat) (hlayer : layer < layerCount)
    (hvalid : (original.fullAttentionLayers layer).valid = true) :
    Swapped original (Function.update clone.shadow
        (layer, if (original.fullAttentionLayers layer).decodeTailContiguous then .full else .tail)
        (some copy))
      (pointFull original clone.session layer copy) := by
  have hshape := pointFull_sameShape h.shape layer copy
  cases hcontiguous : (original.fullAttentionLayers layer).decodeTailContiguous with
  | true =>
      refine ⟨?_, hshape, ?_, ?_, ?_⟩
      · rintro ⟨other, slot⟩ hplace
        unfold Shadow.pointFull
        rw [pointer_setFull, hcontiguous]
        by_cases heq : other = layer
        · subst heq
          cases slot with
          | linear => simpa using h.pointer _ hplace
          | full => simp
          | tail =>
              -- A contiguous layer has its tail in the one allocation.
              have hnone := h.tail other hlayer (Or.inr hcontiguous)
              simp [hnone, hwell.contiguous other hlayer hcontiguous]
        · simpa [heq] using h.pointer _ hplace
      · intro other hother hinvalid
        exact update_none (by simp) (h.linear other hother hinvalid)
      · intro other hother hnone
        refine update_none ?_ (h.full other hother hnone)
        intro heq
        rw [(Prod.mk.inj heq).1, hvalid, hcontiguous] at hnone
        simp at hnone
      · intro other hother hnone
        exact update_none (by simp) (h.tail other hother hnone)
  | false =>
      refine ⟨?_, hshape, ?_, ?_, ?_⟩
      · rintro ⟨other, slot⟩ hplace
        unfold Shadow.pointFull
        rw [pointer_setFull, hcontiguous]
        by_cases heq : other = layer
        · subst heq
          cases slot with
          | linear => simpa using h.pointer _ hplace
          | full =>
              -- The history of a split layer stays where it was.
              simpa [SessionState.pointer] using h.pointer _ hplace
          | tail => simp
        · simpa [heq] using h.pointer _ hplace
      · intro other hother hinvalid
        exact update_none (by simp) (h.linear other hother hinvalid)
      · intro other hother hnone
        exact update_none (by simp) (h.full other hother hnone)
      · intro other hother hnone
        refine update_none ?_ (h.tail other hother hnone)
        intro heq
        rw [(Prod.mk.inj heq).1, hvalid, hcontiguous] at hnone
        simp at hnone

end Cloning

/-! ### The loops -/

/-- A loop that copies one place of each layer, in the middle: the layers that remain have no
    copy, the others have one if they were captured, and no other place has changed. -/
structure Copying (original : SessionState) (dual : List Nat) (place : Nat → Nat × Slot)
    (captured : Nat → Bool) (before : Nat × Slot → Option Nat) (remaining : List Nat)
    (clone : Clone) : Prop where
  cloned : Cloned original dual clone
  todo : ∀ layer ∈ remaining, clone.shadow (place layer) = none
  done : ∀ layer < layerCount, layer ∉ remaining → captured layer = true →
    (clone.shadow (place layer)).isSome = true
  kept : ∀ other, (∀ layer, other ≠ place layer) → clone.shadow other = before other

section Loops

variable {original : SessionState} {dual : List Nat} {place : Nat → Nat × Slot}
  {captured : Nat → Bool} {before : Nat × Slot → Option Nat} (outcome : Nat → CopyOutcome)
  (point : Nat → SessionState → Nat → SessionState)

/-- What the loops do with one layer. -/
def copyLayer (captured : Nat → Bool) (outcome : Nat → CopyOutcome) (place : Nat → Nat × Slot)
    (point : Nat → SessionState → Nat → SessionState) (layer : Nat) (clone : Clone) :
    Bool × Clone :=
  if !captured layer then (true, clone)
  else copyTo (outcome layer) (place layer) (point layer clone.session) clone

/-- One layer of a loop. -/
theorem copyLayer_copying (layer : Nat) (layers : List Nat) (clone : Clone)
    (hplace : ∀ layer, (place layer).1 = layer)
    (hpoint : ∀ (clone : Clone) (copy : Nat), captured layer = true →
      Swapped original clone.shadow clone.session →
        Swapped original (Function.update clone.shadow (place layer) (some copy))
          (point layer clone.session copy))
    (hlayer : layer < layerCount) (hnodup : layer ∉ layers)
    (h : Copying original dual place captured before (layer :: layers) clone) :
    ((copyLayer captured outcome place point layer clone).1 = true →
        Copying original dual place captured before layers
          (copyLayer captured outcome place point layer clone).2) ∧
      ((copyLayer captured outcome place point layer clone).1 = false →
        Cloned original dual (copyLayer captured outcome place point layer clone).2) := by
  have hplaces : place layer ∈ places := by
    rw [show place layer = (layer, (place layer).2) from Prod.ext (hplace layer) rfl]
    exact (mem_places layer _).mpr hlayer
  -- The places of two layers differ, so a copy changes nothing of another layer.
  have hinjective : ∀ other, other ≠ layer → place other ≠ place layer := by
    intro other hne heq
    exact hne ((hplace other).symm.trans ((congrArg Prod.fst heq).trans (hplace layer)))
  have hnone := h.todo layer List.mem_cons_self
  unfold copyLayer
  cases hcaptured : captured layer with
  | false =>
      refine ⟨fun _ => ?_, fun hfalse => Bool.noConfusion hfalse⟩
      refine ⟨h.cloned, fun other hother => h.todo other (List.mem_cons_of_mem _ hother), ?_,
        h.kept⟩
      intro other hother hremaining hvalid
      by_cases heq : other = layer
      · rw [heq, hcaptured] at hvalid
        exact Bool.noConfusion hvalid
      · exact h.done other hother (by simp [heq, hremaining]) hvalid
  | true =>
      have howns := copyTo_owns (outcome layer) (place layer) (point layer clone.session)
        h.cloned.owns hplaces hnone
      simp only [Bool.not_true, Bool.false_eq_true, if_false]
      cases houtcome : outcome layer with
      | mallocFails => exact ⟨fun hfalse => Bool.noConfusion hfalse, fun _ => h.cloned⟩
      | copyFails =>
          rw [houtcome] at howns
          exact ⟨fun hfalse => Bool.noConfusion hfalse, fun _ => ⟨howns, h.cloned.swapped⟩⟩
      | copied =>
          rw [houtcome] at howns
          refine ⟨fun _ => ?_, fun hfalse => Bool.noConfusion hfalse⟩
          refine ⟨⟨howns, hpoint clone _ hcaptured h.cloned.swapped⟩, ?_, ?_, ?_⟩
          · intro other hother
            have hne : other ≠ layer := fun heq => hnodup (heq ▸ hother)
            exact (Function.update_of_ne (hinjective other hne) _ _).trans
              (h.todo other (List.mem_cons_of_mem _ hother))
          · intro other hother hremaining hvalid
            by_cases heq : other = layer
            · subst heq
              simp [copyTo]
            · have hold := h.done other hother (by simp [heq, hremaining]) hvalid
              simpa [copyTo, Function.update_of_ne (hinjective other heq)] using hold
          · intro other hother
            exact (Function.update_of_ne (hother layer) _ _).trans (h.kept other hother)

/-- A whole loop: it copies every layer, or it stops with what it has copied. -/
theorem cloneLayers_copying (layers : List Nat) (clone : Clone)
    (hplace : ∀ layer, (place layer).1 = layer)
    (hpoint : ∀ (layer : Nat) (clone : Clone) (copy : Nat), layer < layerCount →
      captured layer = true → Swapped original clone.shadow clone.session →
        Swapped original (Function.update clone.shadow (place layer) (some copy))
          (point layer clone.session copy))
    (hlayers : ∀ layer ∈ layers, layer < layerCount) (hnodup : layers.Nodup)
    (h : Copying original dual place captured before layers clone) :
    ((cloneLayers (copyLayer captured outcome place point) layers clone).1 = true →
        Copying original dual place captured before []
          (cloneLayers (copyLayer captured outcome place point) layers clone).2) ∧
      ((cloneLayers (copyLayer captured outcome place point) layers clone).1 = false →
        Cloned original dual
          (cloneLayers (copyLayer captured outcome place point) layers clone).2) := by
  induction layers generalizing clone with
  | nil => exact ⟨fun _ => h, fun hfalse => Bool.noConfusion hfalse⟩
  | cons layer layers ih =>
      rw [List.nodup_cons] at hnodup
      have hlayer := hlayers layer List.mem_cons_self
      have hone := copyLayer_copying outcome point layer layers clone hplace
        (fun clone copy => hpoint layer clone copy hlayer) hlayer hnodup.1 h
      unfold cloneLayers
      dsimp only
      cases hok : (copyLayer captured outcome place point layer clone).1 with
      | true =>
          rw [if_pos rfl]
          exact ih _ (fun other hother => hlayers other (List.mem_cons_of_mem _ hother)) hnodup.2
            (hone.1 hok)
      | false =>
          rw [if_neg Bool.false_ne_true]
          exact ⟨fun htrue => absurd (htrue.symm.trans hok) (by simp), fun _ => hone.2 hok⟩

end Loops

/-- The place that is copied of a fully attending layer. -/
def fullPlace (original : SessionState) (layer : Nat) : Nat × Slot :=
  (layer, if (original.fullAttentionLayers layer).decodeTailContiguous then .full else .tail)

theorem fullPlace_ne_linear (original : SessionState) (layer other : Nat) :
    (other, Slot.linear) ≠ fullPlace original layer := by
  unfold fullPlace
  split_ifs <;> simp

section CloneSession

variable (outcome : OpenOutcome) (device : Device)

/-- The loop over the linear layers. -/
theorem linearLoop_copying
    (howns : device.heap.Owns (device.session.owned ++ device.dual)) :
    ((cloneLayers (cloneLinear device.session outcome.linear) (List.range layerCount)
          { heap := device.heap, session := device.session, shadow := noShadow }).1 = true →
        Copying device.session device.dual (fun layer => (layer, .linear))
          (fun layer => (device.session.linearLayers layer).valid) noShadow []
          (cloneLayers (cloneLinear device.session outcome.linear) (List.range layerCount)
            { heap := device.heap, session := device.session, shadow := noShadow }).2) ∧
      ((cloneLayers (cloneLinear device.session outcome.linear) (List.range layerCount)
          { heap := device.heap, session := device.session, shadow := noShadow }).1 = false →
        Cloned device.session device.dual
          (cloneLayers (cloneLinear device.session outcome.linear) (List.range layerCount)
            { heap := device.heap, session := device.session, shadow := noShadow }).2) := by
  refine cloneLayers_copying outcome.linear
    (fun layer session => pointLinear device.session session layer) _ _ (fun _ => rfl) ?_
    (fun layer hlayer => List.mem_range.mp hlayer) List.nodup_range ?_
  · intro layer clone copy _ hvalid hswapped
    exact hswapped.pointLinear layer copy hvalid
  · refine ⟨⟨?_, swapped_noShadow device.session⟩, fun _ _ => rfl, ?_, fun _ _ => rfl⟩
    · rw [pointersOf_none places noShadow fun _ _ => rfl]
      exact howns
    · intro layer hlayer hremaining
      exact absurd (List.mem_range.mpr hlayer) hremaining

/-- The loop over the fully attending layers, after the other. -/
theorem fullLoop_copying (clone : Clone) (hwell : WellFormed device.session)
    (h : Copying device.session device.dual (fun layer => (layer, .linear))
      (fun layer => (device.session.linearLayers layer).valid) noShadow [] clone) :
    ((cloneLayers (cloneFull device.session outcome.full) (List.range layerCount) clone).1 =
          true →
        Copying device.session device.dual (fullPlace device.session)
          (fun layer => (device.session.fullAttentionLayers layer).valid) clone.shadow []
          (cloneLayers (cloneFull device.session outcome.full) (List.range layerCount) clone).2) ∧
      ((cloneLayers (cloneFull device.session outcome.full) (List.range layerCount) clone).1 =
          false →
        Cloned device.session device.dual
          (cloneLayers (cloneFull device.session outcome.full) (List.range layerCount)
            clone).2) := by
  refine cloneLayers_copying outcome.full
    (fun layer session => pointFull device.session session layer) _ _ (fun _ => rfl) ?_
    (fun layer hlayer => List.mem_range.mp hlayer) List.nodup_range ?_
  · intro layer clone copy hlayer hvalid hswapped
    exact hswapped.pointFull hwell layer copy hlayer hvalid
  · refine ⟨h.cloned, ?_, ?_, fun _ _ => rfl⟩
    · intro layer _
      exact h.kept _ fun other => (fullPlace_ne_linear device.session layer other).symm
    · intro layer hlayer hremaining
      exact absurd (List.mem_range.mpr hlayer) hremaining

/-- What copying leaves behind, whether it fails or not. -/
theorem cloneSession_cloned (hwell : WellFormed device.session)
    (howns : device.heap.Owns (device.session.owned ++ device.dual)) :
    Cloned device.session device.dual (cloneSession outcome device).2 ∧
      ((cloneSession outcome device).1 = true →
        Complete device.session (cloneSession outcome device).2.shadow) := by
  have hlinear := linearLoop_copying outcome device howns
  unfold cloneSession
  dsimp only
  -- The copies can fail before the first loop, in it, or in the second.
  split_ifs with hpriority hfirst hsecond
  · refine ⟨⟨?_, swapped_noShadow device.session⟩, fun hfalse => absurd hfalse (by simp)⟩
    rw [pointersOf_none places noShadow fun _ _ => rfl]
    exact howns
  · rw [Bool.not_eq_true'] at hfirst
    exact ⟨hlinear.2 hfirst, fun htrue => absurd (htrue.symm.trans hfirst) (by simp)⟩
  · rw [Bool.not_eq_true', Bool.not_eq_false] at hfirst
    rw [Bool.not_eq_true'] at hsecond
    have hfull := fullLoop_copying outcome device _ hwell (hlinear.1 hfirst)
    exact ⟨hfull.2 hsecond, fun htrue => absurd (htrue.symm.trans hsecond) (by simp)⟩
  · rw [Bool.not_eq_true', Bool.not_eq_false] at hfirst hsecond
    -- The second loop keeps the copies of the first.
    have hfirstLoop := hlinear.1 hfirst
    have hfull := (fullLoop_copying outcome device _ hwell hfirstLoop).1 hsecond
    refine ⟨hfull.cloned, fun _ => ⟨?_, ?_, ?_⟩⟩
    · intro layer hlayer hvalid
      rw [hfull.kept _ fun other => fullPlace_ne_linear device.session other layer]
      exact hfirstLoop.done layer hlayer List.not_mem_nil hvalid
    · intro layer hlayer hvalid hcontiguous
      have hdone := hfull.done layer hlayer List.not_mem_nil hvalid
      unfold fullPlace at hdone
      rw [hcontiguous] at hdone
      exact hdone
    · intro layer hlayer hvalid hcontiguous
      have hdone := hfull.done layer hlayer List.not_mem_nil hvalid
      unfold fullPlace at hdone
      rw [hcontiguous] at hdone
      exact hdone

end CloneSession

end Shadow

end QrtEngine
