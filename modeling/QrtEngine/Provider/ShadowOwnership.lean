import QrtEngine.Library.Run
import QrtEngine.Provider.DecodeLease
import QrtEngine.Provider.ShadowCopy

/-!
# A Shadow Is Kept or Undone as a Whole

While a transaction is open the allocations of the original session and those of the copies are
all owned, and the session points to the copies. To turn the transaction back is to free the
copies and to point to the originals again. To commit it is to free the originals that have a
copy. Either way, what was freed and what the session then owns are together everything that was
ever allocated, each once: nothing is freed twice, and nothing is lost.

## Main definitions

* `Sound`: Who owns the allocations, with and without a transaction.
* `Refused`, `Opened`: How a transaction begins.

## Theorems

* `openTransaction_cases`: A transaction comes about, or everything is as before.
* `step_sound`: What one step does to the owners.
* `shadow_allOrNothing`: How a transaction ends.
* `performHeld_decodes`: What a lease does is decoding.
* `mixedTails_ended`: A transaction on a session with both kinds of tails.
-/

namespace QrtEngine

namespace Shadow

open QrtEngine.Layered

/-! ## Steps -/

/-- What holds while a transaction can be turned back. -/
structure Shadowed (original : SessionState) (shadow : Nat × Slot → Option Nat)
    (device : Device) : Prop where
  wellFormed : WellFormed original
  swapped : Swapped original shadow device.session
  owns : device.heap.Owns (original.owned ++ (pointersOf places shadow ++ device.dual))

/-- What holds while no transaction can be turned back. -/
structure Settled (device : Device) : Prop where
  wellFormed : WellFormed device.session
  owns : device.heap.Owns (device.session.owned ++ device.dual)

/-- Who owns the allocations, with and without a transaction. -/
inductive Sound (device : Device) : Prop where
  | settled (h : Settled device) (hclosed : ∀ transaction, device.transaction = some transaction →
      transaction.ready = false ∧ (transaction.original = none ∨ transaction.committed = true))
  | shadowed (original : SessionState) (transaction : Transaction)
      (h : Shadowed original transaction.shadow device)
      (hsome : device.transaction = some transaction)
      (horiginal : transaction.original = some original)
      (hcommitted : transaction.committed = false)
      (hcomplete : transaction.ready = true → Complete original transaction.shadow)
      (hclosed : transaction.ready = false → transaction.shadow = noShadow)

section Steps

variable {device : Device} {original : SessionState} {shadow : Nat × Slot → Option Nat}

/-- A session that is set back has the pointers of the original. -/
theorem swapped_restored (session : SessionState) (refreshed : Bool) :
    Swapped session noShadow (restored session refreshed) :=
  { pointer := fun _ _ => rfl
    shape := ⟨fun _ _ => rfl, fun _ _ => rfl, fun _ _ => rfl⟩
    linear := fun _ _ _ => rfl
    full := fun _ _ _ => rfl
    tail := fun _ _ _ => rfl }

theorem Swapped.trans_noShadow {live next : SessionState} (h : Swapped original shadow live)
    (hnext : Swapped live noShadow next) : Swapped original shadow next := by
  refine ⟨?_, ⟨?_, ?_, ?_⟩, h.linear, h.full, h.tail⟩
  · intro place hplace
    exact (hnext.pointer place hplace).trans (h.pointer place hplace)
  · intro layer hlayer
    exact (hnext.shape.linear layer hlayer).trans (h.shape.linear layer hlayer)
  · intro layer hlayer
    exact (hnext.shape.full layer hlayer).trans (h.shape.full layer hlayer)
  · intro layer hlayer
    exact (hnext.shape.contiguous layer hlayer).trans (h.shape.contiguous layer hlayer)

/-- A session with the same owners is one without copies. -/
theorem sameOwners_swapped (session other : SessionState)
    (h : sameOwners session other = true) : Swapped session noShadow other := by
  unfold sameOwners at h
  simp only [List.all_eq_true, List.mem_range, Bool.and_eq_true, beq_iff_eq] at h
  refine ⟨?_, ⟨?_, ?_, ?_⟩, fun _ _ _ => rfl, fun _ _ _ => rfl, fun _ _ _ => rfl⟩
  · rintro ⟨layer, slot⟩ hplace
    have hlayer := h layer ((mem_places layer slot).mp hplace)
    cases slot with
    | linear => exact hlayer.1.1.1.1.1
    | full => exact hlayer.1.1.1.2
    | tail => exact hlayer.1.1.2
  · exact fun layer hlayer => (h layer hlayer).1.1.1.1.2
  · exact fun layer hlayer => (h layer hlayer).2
  · exact fun layer hlayer => (h layer hlayer).1.2

/-- Retiring the alternate branch frees what it owns and leaves the session's pointers. -/
theorem releaseDual_owns (owned : List Nat) (released : Bool)
    (h : device.heap.Owns (owned ++ device.dual)) :
    (device.releaseDual released).heap.Owns owned :=
  Heap.Owns.freeAll device.dual (h.perm List.perm_append_comm)

theorem Settled.releaseDual (released : Bool) (h : Settled device) :
    Settled (device.releaseDual released) := by
  refine ⟨(swapped_restored device.session released).wellFormed h.wellFormed, ?_⟩
  have howns := releaseDual_owns device.session.owned released h.owns
  change (device.releaseDual released).heap.Owns (device.session.owned ++ [])
  rw [List.append_nil]
  exact howns

theorem Shadowed.releaseDual (released : Bool) (h : Shadowed original shadow device) :
    Shadowed original shadow (device.releaseDual released) := by
  refine ⟨h.wellFormed, h.swapped.trans_noShadow (swapped_restored device.session released), ?_⟩
  have howns := h.owns
  rw [← List.append_assoc] at howns
  have hfreed := releaseDual_owns (original.owned ++ pointersOf places shadow) released howns
  change (device.releaseDual released).heap.Owns
    (original.owned ++ (pointersOf places shadow ++ []))
  rw [List.append_nil]
  exact hfreed

/-- Setting the session back frees the copies. -/
theorem Shadowed.restore (refreshed : Bool) (h : Shadowed original shadow device) :
    Shadowed original noShadow
      (restoreOriginalAndFreeShadow original shadow refreshed device) := by
  refine ⟨h.wellFormed, swapped_restored original refreshed, ?_⟩
  rw [pointersOf_none places noShadow fun _ _ => rfl, List.nil_append]
  refine Heap.Owns.freeAll (pointersOf places shadow) (h.owns.perm ?_)
  exact (List.perm_append_comm_assoc _ _ _)

/-- Without copies nothing has to be turned back. -/
theorem Shadowed.settled (h : Shadowed original noShadow device) : Settled device := by
  refine ⟨h.swapped.wellFormed h.wellFormed, ?_⟩
  have howns := h.owns
  rw [pointersOf_none places noShadow fun _ _ => rfl, List.nil_append] at howns
  rw [h.swapped.owned_eq]
  exact howns

theorem restored_true (session : SessionState) : restored session true = session := by
  unfold restored
  rw [Bool.and_true]

/-- No transaction came about. The session is as before, and all that was copied is freed. -/
structure Refused (outcome : OpenOutcome) (device opened : Device) : Prop where
  session : ∃ kept, opened.session = restored device.session kept ∧
    (outcome.dualReleased = true → outcome.refreshed = true → kept = true)
  dual : opened.dual = []
  settled : Settled opened
  closed : ∃ transaction, opened.transaction = some transaction ∧
    transaction.ready = false ∧ transaction.committed = false ∧ transaction.shadow = noShadow ∧
    (transaction.original = none ∨ ∃ original, transaction.original = some original ∧
      Shadowed original noShadow opened)

/-- A transaction came about, and every layer has its copy. -/
structure Opened (device opened : Device) (transaction : Transaction) : Prop where
  isOpen : opened.transaction = some transaction
  ready : transaction.ready = true
  committed : transaction.committed = false
  original : transaction.original = some device.session
  complete : Complete device.session transaction.shadow
  shadowed : Shadowed device.session transaction.shadow opened

/-- A transaction comes about or it does not. -/
theorem openTransaction_cases (expectedGeneration expectedDigest : UInt64)
    (outcome : OpenOutcome) (h : Settled device) :
    Refused outcome device (openTransaction expectedGeneration expectedDigest outcome device) ∨
      ∃ transaction, Opened device
        (openTransaction expectedGeneration expectedDigest outcome device) transaction := by
  have hretired := h.releaseDual outcome.dualReleased
  unfold openTransaction
  dsimp only
  cases hdual : outcome.dualReleased with
  | false =>
      rw [hdual] at hretired
      -- The second branch is not released: the session is cut off from it and nothing is copied.
      refine Or.inl ⟨⟨false, rfl, fun hreleased => absurd (hdual.symm.trans hreleased) (by simp)⟩,
        rfl, ⟨hretired.wellFormed, hretired.owns⟩, _, rfl, rfl, rfl, rfl, Or.inl rfl⟩
  | true =>
      rw [hdual] at hretired
      have hsession : (device.releaseDual true).session = device.session :=
        restored_true device.session
      have hempty : (device.releaseDual true).dual = [] := rfl
      generalize device.releaseDual true = retired at *
      simp only [Bool.not_true, Bool.false_eq_true, if_false]
      rcases cloneSession_cloned outcome retired hretired.wellFormed hretired.owns with
        ⟨hcloned, hcomplete⟩
      have hclone : Shadowed retired.session (cloneSession outcome retired).2.shadow
          { retired with
            heap := (cloneSession outcome retired).2.heap
            session := (cloneSession outcome retired).2.session } :=
        ⟨hretired.wellFormed, hcloned.swapped, hcloned.owns⟩
      split_ifs with haccepts hok
      · -- The session is not one of which a shadow can be taken.
        have hnone : retired.heap.Owns
            (retired.session.owned ++ (pointersOf places noShadow ++ retired.dual)) := by
          rw [pointersOf_none places noShadow fun _ _ => rfl]
          exact hretired.owns
        exact Or.inl ⟨⟨true, hsession.trans (restored_true device.session).symm, fun _ _ => rfl⟩,
          hempty, ⟨hretired.wellFormed, hretired.owns⟩, _, rfl, rfl, rfl, rfl,
          Or.inr ⟨retired.session, rfl,
            ⟨hretired.wellFormed, swapped_noShadow retired.session, hnone⟩⟩⟩
      · -- A copy failed, and the copies before it are freed.
        have hrestored := hclone.restore outcome.refreshed
        have hsettled := hrestored.settled
        exact Or.inl ⟨⟨outcome.refreshed, hsession ▸ rfl, fun _ hrefreshed => hrefreshed⟩, hempty,
          ⟨hsettled.wellFormed, hsettled.owns⟩, _, rfl, rfl, rfl, rfl,
          Or.inr ⟨retired.session, rfl,
            ⟨hrestored.wellFormed, hrestored.swapped, hrestored.owns⟩⟩⟩
      · -- Every layer has its copy, and the transaction stands.
        have hdone : (cloneSession outcome retired).1 = true := by simpa using hok
        refine Or.inr ⟨_, rfl, rfl, rfl, congrArg some hsession, hsession ▸ hcomplete hdone, ?_⟩
        exact hsession ▸ ⟨hclone.wellFormed, hclone.swapped, hclone.owns⟩

/-- What turning back does. -/
theorem rollback_eq (outcome : EndOutcome) (transaction : Transaction) (device : Device)
    (horiginal : transaction.original = some original) :
    (rollback outcome transaction device).2 =
      { restoreOriginalAndFreeShadow original transaction.shadow outcome.refreshed
          (device.releaseDual outcome.dualReleased) with
        transaction := some { transaction with shadow := noShadow, ready := false } } := by
  unfold rollback
  rw [horiginal]

theorem rollback_shadowed (outcome : EndOutcome) (transaction : Transaction)
    (horiginal : transaction.original = some original)
    (h : Shadowed original transaction.shadow device) :
    Shadowed original noShadow (rollback outcome transaction device).2 := by
  have hrestored := (h.releaseDual outcome.dualReleased).restore outcome.refreshed
  rw [rollback_eq outcome transaction device horiginal]
  exact ⟨hrestored.wellFormed, hrestored.swapped, hrestored.owns⟩

/-- The state after a commit. -/
def committedDevice (outcome : EndOutcome) (original : SessionState) (transaction : Transaction)
    (device : Device) : Device :=
  { device.releaseDual outcome.dualReleased with
    heap := (device.releaseDual outcome.dualReleased).heap.freeAll
      (pointersOf places (replaced original))
    transaction := some { transaction with shadow := noShadow, ready := false, committed := true } }

/-- A commit succeeds, or it changes nothing, or it turns back. -/
theorem commit_cases (outcome : EndOutcome) (transaction : Transaction) (device : Device)
    (horiginal : transaction.original = some original) :
    (commit outcome transaction device =
        (true, committedDevice outcome original transaction device) ∧
        transaction.ready = true ∧ outcome.dualReleased = true) ∨
      commit outcome transaction device = (false, device) ∨
      commit outcome transaction device = (false,
        (rollback outcome transaction (device.releaseDual outcome.dualReleased)).2) := by
  unfold commit
  rw [horiginal]
  dsimp only
  split_ifs with hready hdual hsynced
  · exact Or.inr (Or.inl rfl)
  · exact Or.inr (Or.inr rfl)
  · exact Or.inr (Or.inr rfl)
  · simp only [Bool.not_eq_eq_eq_not, Bool.not_true, Bool.not_eq_false, Bool.and_eq_true] at hready
    refine Or.inl ⟨?_, hready.1.1, by simpa using hdual⟩
    unfold committedDevice
    rw [horiginal]

/-- When a commit of an open transaction succeeds: decoding has left the session valid and of the
    generation it had, and the device does what it is asked. -/
theorem commit_ok_iff (outcome : EndOutcome) (transaction : Transaction) (device : Device)
    (horiginal : transaction.original = some original) (hready : transaction.ready = true) :
    (commit outcome transaction device).1 = true ↔ device.session.valid = true ∧
      device.session.generation = original.generation ∧ outcome.dualReleased = true ∧
      outcome.synced = true := by
  unfold commit
  rw [horiginal, hready]
  dsimp only
  rw [Bool.true_and]
  cases hvalid : device.session.valid with
  | false => simp
  | true =>
      by_cases hgeneration : device.session.generation = original.generation
      · cases outcome.dualReleased <;> cases outcome.synced <;> simp [hgeneration]
      · simp [hgeneration]

/-- After a commit the session owns the copies, and what they replaced is freed. -/
theorem committed_settled (outcome : EndOutcome) (transaction : Transaction)
    (hcomplete : Complete original transaction.shadow)
    (h : Shadowed original transaction.shadow device) :
    Settled (committedDevice outcome original transaction device) := by
  have hretired := h.releaseDual outcome.dualReleased
  refine ⟨hretired.swapped.wellFormed h.wellFormed, ?_⟩
  have howns := hretired.owns
  change (device.releaseDual outcome.dualReleased).heap.Owns
    (original.owned ++ (pointersOf places transaction.shadow ++ [])) at howns
  rw [List.append_nil] at howns
  have hswap := howns.perm (hretired.swapped.exchange h.wellFormed hcomplete)
  have hfreed := Heap.Owns.freeAll (pointersOf places (replaced original)) hswap
  change (committedDevice outcome original transaction device).heap.Owns
    ((device.releaseDual outcome.dualReleased).session.owned ++ [])
  rw [List.append_nil]
  exact hfreed

end Steps

/-! ### Capturing and releasing -/

section Capture

variable {device : Device}

theorem captureLinear_settled (layer : Nat) (capture : LinearCapture) (outcome : CopyOutcome)
    (hlayer : layer < layerCount) (h : Settled device) :
    Settled (captureLinear layer capture outcome device) := by
  unfold captureLinear
  dsimp only
  split_ifs with hfree
  · exact h
  · have hnone : (device.session.linearLayers layer).deviceAllocation = none := by
      simpa using hfree
    cases outcome with
    | mallocFails => exact h
    | copyFails => exact ⟨h.wellFormed, h.owns.alloc_free⟩
    | copied =>
        refine ⟨⟨?_, ?_, ?_, ?_, ?_⟩, ?_⟩
        · intro other hother hvalid
          by_cases heq : other = layer
          · subst heq
            simp [SessionState.setLinear] at hvalid
          · have hold : (device.session.linearLayers other).valid = false := by
              simpa [SessionState.setLinear, heq] using hvalid
            simpa [SessionState.pointer, SessionState.setLinear, heq] using
              h.wellFormed.linear other hother hold
        · exact h.wellFormed.full
        · exact h.wellFormed.tail
        · exact h.wellFormed.contiguous
        · exact h.wellFormed.captured
        · -- The new allocation fills the place that was empty.
          refine h.owns.alloc.perm ?_
          unfold SessionState.owned
          rw [pointer_setLinear]
          exact (pointersOf_update places device.session.pointer (layer, .linear)
            device.heap.allocated nodup_places ((mem_places layer .linear).mpr hlayer)
            hnone).symm.append_right device.dual

/-- A layer that was just captured keeps the others as they were. -/
theorem setFull_wellFormed (session : SessionState) (layer : Nat) (capture : FullCapture)
    (allocation : Nat) (tail : Option Nat)
    (htail : capture.decodeTailContiguous = true → tail = none) (h : WellFormed session) :
    WellFormed (session.setFull layer (capturedFull capture allocation tail)) := by
  -- Each condition is about one layer: that of the capture by the new record, another one as
  -- before.
  refine ⟨h.linear, ?_, ?_, ?_, ?_⟩
  · intro other hother hvalid
    by_cases heq : other = layer
    · subst heq
      simp [SessionState.setFull, capturedFull] at hvalid
    · have hold : (session.fullAttentionLayers other).valid = false := by
        simpa [SessionState.setFull, heq] using hvalid
      simpa [SessionState.pointer, SessionState.setFull, heq] using h.full other hother hold
  · intro other hother hvalid
    by_cases heq : other = layer
    · subst heq
      simp [SessionState.setFull, capturedFull] at hvalid
    · have hold : (session.fullAttentionLayers other).valid = false := by
        simpa [SessionState.setFull, heq] using hvalid
      simpa [SessionState.pointer, SessionState.setFull, heq] using h.tail other hother hold
  · intro other hother hcontiguous
    by_cases heq : other = layer
    · subst heq
      have hcapture : capture.decodeTailContiguous = true := by
        simpa [SessionState.setFull, capturedFull] using hcontiguous
      simp [SessionState.pointer, SessionState.setFull, capturedFull, htail hcapture]
    · have hold : (session.fullAttentionLayers other).decodeTailContiguous = true := by
        simpa [SessionState.setFull, heq] using hcontiguous
      simpa [SessionState.pointer, SessionState.setFull, heq] using
        h.contiguous other hother hold
  · intro other hother hvalid
    by_cases heq : other = layer
    · subst heq
      simp [SessionState.pointer, SessionState.setFull, capturedFull]
    · have hold : (session.fullAttentionLayers other).valid = true := by
        simpa [SessionState.setFull, heq] using hvalid
      simpa [SessionState.pointer, SessionState.setFull, heq] using h.captured other hother hold

/-- What a layer owns that was just captured. -/
theorem setFull_owned (session : SessionState) (layer : Nat) (entry : FullLayer)
    (allocation : Nat) (hlayer : layer < layerCount)
    (hentry : entry.deviceAllocation = some allocation)
    (hfull : session.pointer (layer, .full) = none)
    (htail : session.pointer (layer, .tail) = none) :
    ((session.setFull layer entry).owned).Perm
      (entry.deviceDecodeTailAllocation.toList ++ allocation :: session.owned) := by
  unfold SessionState.owned
  rw [pointer_setFull, hentry]
  -- One place is filled after the other, each of them empty before.
  have hfirst := pointersOf_update places session.pointer (layer, .full) allocation nodup_places
    ((mem_places layer .full).mpr hlayer) hfull
  have hnone : Function.update session.pointer (layer, .full) (some allocation) (layer, .tail) =
      none := by
    rw [Function.update_of_ne (by simp)]
    exact htail
  cases hcase : entry.deviceDecodeTailAllocation with
  | none =>
      have hsame : Function.update
          (Function.update session.pointer (layer, .full) (some allocation)) (layer, .tail) none =
          Function.update session.pointer (layer, .full) (some allocation) := by
        rw [← hnone]
        exact Function.update_eq_self _ _
      rw [hsame]
      exact hfirst
  | some tail =>
      have hsecond := pointersOf_update places
        (Function.update session.pointer (layer, .full) (some allocation)) (layer, .tail) tail
        nodup_places ((mem_places layer .tail).mpr hlayer) hnone
      exact hsecond.trans (hfirst.cons tail)

theorem captureFull_settled (layer : Nat) (capture : FullCapture)
    (outcome tailOutcome : CopyOutcome) (hlayer : layer < layerCount) (h : Settled device) :
    Settled (captureFull layer capture outcome tailOutcome device) := by
  unfold captureFull
  dsimp only
  -- Only a layer without an allocation is captured, and such a layer has no tail either.
  by_cases hcaptured : (device.session.fullAttentionLayers layer).deviceAllocation = none
  · have hfull : device.session.pointer (layer, .full) = none := hcaptured
    have htail : device.session.pointer (layer, .tail) = none := by
      refine h.wellFormed.tail layer hlayer ?_
      by_contra hvalid
      have hsome := h.wellFormed.captured layer hlayer (by simpa using hvalid)
      rw [hfull] at hsome
      exact Bool.noConfusion hsome
    rw [if_neg (by simp [hcaptured])]
    cases outcome with
    | mallocFails => exact h
    | copyFails => exact ⟨h.wellFormed, h.owns.alloc_free⟩
    | copied =>
        dsimp only
        by_cases hcontiguous : capture.decodeTailContiguous = true
        · -- A contiguous layer has one allocation, and its tail is cleared in place.
          rw [if_pos hcontiguous]
          by_cases hcleared : (tailOutcome == .copied) = true
          · rw [if_pos hcleared]
            refine ⟨setFull_wellFormed _ layer capture _ none (fun _ => rfl) h.wellFormed, ?_⟩
            have howned := setFull_owned device.session layer
              (capturedFull capture device.heap.allocated none) device.heap.allocated hlayer rfl
              hfull htail
            exact h.owns.alloc.perm (howned.symm.append_right device.dual)
          · rw [if_neg hcleared]
            exact ⟨h.wellFormed, h.owns.alloc_free⟩
        · -- A split layer has a second allocation, and if that fails the first is freed.
          rw [if_neg hcontiguous]
          have hboth : device.heap.alloc.2.alloc.2.Owns
              ([device.heap.allocated + 1, device.heap.allocated] ++
                (device.session.owned ++ device.dual)) := h.owns.alloc.alloc
          cases tailOutcome with
          | mallocFails => exact ⟨h.wellFormed, h.owns.alloc_free⟩
          | copyFails => exact ⟨h.wellFormed, Heap.Owns.freeAll _ hboth⟩
          | copied =>
              refine ⟨setFull_wellFormed _ layer capture _ _
                (fun hc => absurd hc hcontiguous) h.wellFormed, ?_⟩
              have howned := setFull_owned device.session layer
                (capturedFull capture device.heap.allocated (some (device.heap.allocated + 1)))
                device.heap.allocated hlayer rfl hfull htail
              exact hboth.perm (howned.symm.append_right device.dual)
  · rw [if_pos (by simpa using hcaptured)]
    exact h

theorem captureLinear_transaction (layer : Nat) (capture : LinearCapture)
    (outcome : CopyOutcome) :
    (captureLinear layer capture outcome device).transaction = device.transaction := by
  unfold captureLinear
  cases outcome <;> dsimp only <;> split_ifs <;> rfl

theorem captureFull_transaction (layer : Nat) (capture : FullCapture)
    (outcome tailOutcome : CopyOutcome) :
    (captureFull layer capture outcome tailOutcome device).transaction = device.transaction := by
  unfold captureFull
  cases outcome <;> cases tailOutcome <;> dsimp only <;> split_ifs <;> rfl

theorem releaseSession_settled (h : Settled device) : Settled (releaseSession device) := by
  refine ⟨⟨?_, ?_, ?_, ?_, ?_⟩, ?_⟩
  · exact fun _ _ _ => rfl
  · exact fun _ _ _ => rfl
  · exact fun _ _ _ => rfl
  · exact fun _ _ _ => rfl
  · exact fun _ _ hvalid => Bool.noConfusion hvalid
  · have hdual := Heap.Owns.freeAll device.dual (h.owns.perm List.perm_append_comm)
    have hrelease : (pointersOf releasePlaces device.session.pointer).Perm
        device.session.owned := releasePlaces_perm.flatMap_right _
    change (releaseSession device).heap.Owns (SessionState.empty.owned ++ [])
    rw [owned_empty]
    refine Heap.Owns.freeAll _ (hdual.perm ?_)
    rw [List.append_nil, List.append_nil]
    exact hrelease.symm

end Capture

/-! ## Runs -/

section Runs

variable {device next : Device}

/-- Without a transaction the owners are settled. -/
theorem Sound.settled_of_none (h : Sound device) (hnone : device.transaction = none) :
    Settled device := by
  cases h with
  | settled h _ => exact h
  | shadowed original transaction _ hsome =>
      exact absurd (hnone.symm.trans hsome) (by simp)

theorem sound_of_settled (h : Settled device) (hnone : device.transaction = none) :
    Sound device :=
  Sound.settled h fun transaction hsome => absurd (hnone.symm.trans hsome) (by simp)

/-- Opening a transaction. -/
theorem openTransaction_sound (expectedGeneration expectedDigest : UInt64) (outcome : OpenOutcome)
    (h : Settled device) :
    Sound (openTransaction expectedGeneration expectedDigest outcome device) := by
  rcases openTransaction_cases expectedGeneration expectedDigest outcome h with
    hrefused | ⟨transaction, hopened⟩
  · rcases hrefused.closed with ⟨transaction, hsome, hready, hcommitted, hshadow, hcase⟩
    rcases hcase with hnone | ⟨original, horiginal, hshadowed⟩
    · refine Sound.settled hrefused.settled ?_
      intro other hother
      obtain rfl := Option.some.inj (hsome.symm.trans hother)
      exact ⟨hready, Or.inl hnone⟩
    · refine Sound.shadowed original transaction ?_ hsome horiginal hcommitted ?_ fun _ => hshadow
      · rw [hshadow]
        exact hshadowed
      · intro htrue
        exact absurd (htrue.symm.trans hready) (by simp)
  · exact Sound.shadowed device.session transaction hopened.shadowed hopened.isOpen
      hopened.original hopened.committed (fun _ => hopened.complete)
      fun hfalse => absurd (hfalse.symm.trans hopened.ready) (by simp)

/-- Turning a transaction back. -/
theorem rollback_sound (outcome : EndOutcome) (original : SessionState)
    (transaction : Transaction) (h : Shadowed original transaction.shadow device)
    (horiginal : transaction.original = some original)
    (hcommitted : transaction.committed = false) :
    Sound (rollback outcome transaction device).2 := by
  have hback := rollback_shadowed outcome transaction horiginal h
  have heq := rollback_eq outcome transaction device horiginal
  refine Sound.shadowed original { transaction with shadow := noShadow, ready := false } hback
    (by rw [heq]) horiginal hcommitted (fun hready => Bool.noConfusion hready) fun _ => rfl

/-- Decoding keeps the owners. -/
theorem decode_sound (session : SessionState) (h : Sound device)
    (hsame : sameOwners device.session session = true) :
    Sound { device with session := session } := by
  have hswapped := sameOwners_swapped device.session session hsame
  cases h with
  | settled hsettled hclosed =>
      refine Sound.settled ⟨hswapped.wellFormed hsettled.wellFormed, ?_⟩ hclosed
      have howned : session.owned = device.session.owned := hswapped.owned_eq
      change device.heap.Owns (session.owned ++ device.dual)
      rw [howned]
      exact hsettled.owns
  | shadowed original transaction hshadowed hsome horiginal hcommitted hcomplete hclosed =>
      exact Sound.shadowed original transaction
        ⟨hshadowed.wellFormed, hshadowed.swapped.trans_noShadow hswapped, hshadowed.owns⟩ hsome
        horiginal hcommitted hcomplete hclosed

/-- The alternate branch owns what it allocates. -/
theorem branch_sound (h : Sound device) :
    Sound { device with
      heap := device.heap.alloc.2, dual := device.heap.alloc.1 :: device.dual } := by
  cases h with
  | settled hsettled hclosed =>
      exact Sound.settled
        ⟨hsettled.wellFormed, hsettled.owns.alloc.perm List.perm_middle.symm⟩ hclosed
  | shadowed original transaction hshadowed hsome horiginal hcommitted hcomplete hclosed =>
      refine Sound.shadowed original transaction ⟨hshadowed.wellFormed, hshadowed.swapped, ?_⟩
        hsome horiginal hcommitted hcomplete hclosed
      refine hshadowed.owns.alloc.perm ?_
      exact List.perm_middle.symm.trans (List.perm_middle.symm.append_left _)

/-- Turning back, also a transaction that did not come about. -/
theorem rollbackStep_sound (outcome : EndOutcome) (transaction : Transaction) (h : Sound device)
    (hsome : device.transaction = some transaction) (hcommitted : ¬transaction.committed = true) :
    Sound (rollback outcome transaction device).2 := by
  cases h with
  | settled hsettled hclosed =>
      rcases hclosed transaction hsome with ⟨-, hnone | hcommit⟩
      · have hsame : (rollback outcome transaction device).2 = device := by
          unfold rollback
          rw [hnone]
        rw [hsame]
        exact Sound.settled hsettled hclosed
      · exact absurd hcommit hcommitted
  | shadowed original other hshadowed hother horiginal hfalse =>
      obtain rfl := Option.some.inj (hsome.symm.trans hother)
      exact rollback_sound outcome original transaction hshadowed horiginal hfalse

/-- A commit, also of a transaction that did not come about. -/
theorem commitStep_sound (outcome : EndOutcome) (transaction : Transaction) (h : Sound device)
    (hsome : device.transaction = some transaction) :
    Sound (commit outcome transaction device).2 := by
  cases h with
  | settled hsettled hclosed =>
      -- Without an open shadow a commit does nothing.
      have hsame : (commit outcome transaction device).2 = device := by
        unfold commit
        rw [(hclosed transaction hsome).1]
        cases transaction.original <;> rfl
      rw [hsame]
      exact Sound.settled hsettled hclosed
  | shadowed original other hshadowed hother horiginal hfalse hcomplete hclosed =>
      obtain rfl := Option.some.inj (hsome.symm.trans hother)
      rcases commit_cases outcome transaction device horiginal with
        ⟨hcommit, hready, -⟩ | hcommit | hcommit
      · rw [hcommit]
        refine Sound.settled
          (committed_settled outcome transaction (hcomplete hready) hshadowed) ?_
        intro other hother
        obtain rfl := Option.some.inj hother
        exact ⟨rfl, Or.inr rfl⟩
      · rw [hcommit]
        exact Sound.shadowed original transaction hshadowed hsome horiginal hfalse hcomplete hclosed
      · rw [hcommit]
        exact rollback_sound outcome original transaction
          (hshadowed.releaseDual outcome.dualReleased) horiginal hfalse

/-- The end of a transaction leaves the session the only owner. -/
theorem closeTransaction_sound (outcome : EndOutcome) (transaction : Transaction)
    (h : Sound device) (hsome : device.transaction = some transaction) :
    Sound (closeTransaction outcome transaction device) := by
  unfold closeTransaction
  dsimp only
  cases h with
  | settled hsettled hclosed =>
      rw [(hclosed transaction hsome).1, if_neg Bool.false_ne_true]
      exact sound_of_settled ⟨hsettled.wellFormed, hsettled.owns⟩ rfl
  | shadowed original other hshadowed hother horiginal _ _ hclosed =>
      obtain rfl := Option.some.inj (hsome.symm.trans hother)
      cases hready : transaction.ready with
      | true =>
          rw [if_pos rfl]
          have hback := (rollback_shadowed outcome transaction horiginal hshadowed).settled
          exact sound_of_settled ⟨hback.wellFormed, hback.owns⟩ rfl
      | false =>
          rw [if_neg Bool.false_ne_true]
          rw [hclosed hready] at hshadowed
          have hback := hshadowed.settled
          exact sound_of_settled ⟨hback.wellFormed, hback.owns⟩ rfl

/-- What one step does to the owners. -/
theorem step_sound (operation : DeviceOperation) (h : Sound device)
    (hstep : step device operation = some next) : Sound next := by
  unfold step at hstep
  split at hstep
  next layer capture outcome hnone =>
      split_ifs at hstep with hlayer
      obtain rfl := Option.some.inj hstep
      exact sound_of_settled
        (captureLinear_settled layer capture outcome hlayer (h.settled_of_none hnone))
        ((captureLinear_transaction layer capture outcome).trans hnone)
  next layer capture outcome tailOutcome hnone =>
      split_ifs at hstep with hlayer
      obtain rfl := Option.some.inj hstep
      exact sound_of_settled
        (captureFull_settled layer capture outcome tailOutcome hlayer (h.settled_of_none hnone))
        ((captureFull_transaction layer capture outcome tailOutcome).trans hnone)
  next session =>
      split_ifs at hstep with hsame
      obtain rfl := Option.some.inj hstep
      exact decode_sound session h hsame
  next =>
      obtain rfl := Option.some.inj hstep
      exact branch_sound h
  next expectedGeneration expectedDigest outcome hnone =>
      obtain rfl := Option.some.inj hstep
      exact openTransaction_sound _ _ _ (h.settled_of_none hnone)
  next outcome transaction hsome =>
      split_ifs at hstep with hcommitted
      obtain rfl := Option.some.inj hstep
      exact rollbackStep_sound outcome transaction h hsome hcommitted
  next outcome transaction hsome =>
      obtain rfl := Option.some.inj hstep
      exact commitStep_sound outcome transaction h hsome
  next outcome transaction hsome =>
      obtain rfl := Option.some.inj hstep
      exact closeTransaction_sound outcome transaction h hsome
  next hnone =>
      obtain rfl := Option.some.inj hstep
      exact sound_of_settled (releaseSession_settled (h.settled_of_none hnone)) hnone
  next => exact absurd hstep (by simp)

/-- A provider that was just started. -/
def Fresh (device : Device) : Prop :=
  device = { heap := Heap.empty, session := SessionState.empty, dual := [], transaction := none }

theorem fresh_settled (h : Fresh device) : Settled device := by
  rw [h]
  refine ⟨⟨fun _ _ _ => rfl, fun _ _ _ => rfl, fun _ _ _ => rfl, fun _ _ _ => rfl,
    fun _ _ hvalid => Bool.noConfusion hvalid⟩, ?_⟩
  change Heap.empty.Owns (SessionState.empty.owned ++ [])
  rw [owned_empty]
  exact Heap.owns_empty

theorem reachable_sound {ok : Device → DeviceOperation → Prop}
    (h : Run.Reachable step ok Fresh device) : Sound device := by
  refine h.invariant Sound ?_ ?_
  · intro device hfresh
    exact sound_of_settled (fresh_settled hfresh) (by rw [hfresh])
  · intro device operation next hsound _ hstep
    exact step_sound operation hsound hstep

/-- The steps that work on a shadow. -/
def Decodes (_ : Device) (operation : DeviceOperation) : Prop :=
  operation = .branch ∨ ∃ session, operation = .decode session

/-- Whether a transaction is open. -/
def Device.isOpen (device : Device) : Bool :=
  match device.transaction with
  | some transaction => transaction.ready
  | none => false

/-- Decoding on a shadow keeps the transaction and the owners. -/
theorem reaches_shadowed {opened shadow : Device} (original : SessionState)
    (transaction : Transaction) (h : Run.Reaches step Decodes opened shadow)
    (hopened : opened.transaction = some transaction ∧
      Shadowed original transaction.shadow opened) :
    shadow.transaction = some transaction ∧ Shadowed original transaction.shadow shadow := by
  refine h.invariant (fun device => device.transaction = some transaction ∧
    Shadowed original transaction.shadow device) ?_ hopened
  rintro device operation next ⟨hsome, hshadowed⟩ (rfl | ⟨session, rfl⟩) hstep
  · obtain rfl := Option.some.inj hstep
    refine ⟨hsome, hshadowed.wellFormed, hshadowed.swapped, ?_⟩
    refine hshadowed.owns.alloc.perm ?_
    exact List.perm_middle.symm.trans (List.perm_middle.symm.append_left _)
  · unfold step at hstep
    dsimp only at hstep
    split_ifs at hstep with hsame
    obtain rfl := Option.some.inj hstep
    have hswapped := sameOwners_swapped device.session session hsame
    exact ⟨hsome, hshadowed.wellFormed, hshadowed.swapped.trans_noShadow hswapped,
      hshadowed.owns⟩

/-- What is left of a transaction that was turned back: the session as it was, which owns
    everything that was not freed. -/
theorem rollback_ended (outcome : EndOutcome) (transaction : Transaction)
    (original : SessionState) (shadow : Device)
    (horiginal : transaction.original = some original)
    (h : Shadowed original transaction.shadow shadow) :
    (rollback outcome transaction shadow).2.session = restored original outcome.refreshed ∧
      (rollback outcome transaction shadow).2.heap.freed =
        shadow.heap.freed ++ shadow.dual ++ pointersOf places transaction.shadow ∧
      (rollback outcome transaction shadow).2.heap.Owns original.owned := by
  have hback := rollback_shadowed outcome transaction horiginal h
  have howns := hback.settled.owns
  rw [hback.swapped.owned_eq] at howns
  rw [rollback_eq outcome transaction shadow horiginal] at howns ⊢
  refine ⟨rfl, rfl, ?_⟩
  exact howns.perm (by rw [show (Device.dual _) = [] from rfl, List.append_nil])

/-- A transaction is turned back explicitly, or by its end while it is open. -/
theorem turnedBack_eq (outcome : EndOutcome) (transaction : Transaction)
    (shadow ended : Device) (hsome : shadow.transaction = some transaction)
    (hready : transaction.ready = true)
    (hstep : step shadow (.rollback outcome) = some ended ∨
      step shadow (.closeTransaction outcome) = some ended) :
    ended.session = (rollback outcome transaction shadow).2.session ∧
      ended.heap = (rollback outcome transaction shadow).2.heap := by
  unfold step at hstep
  rw [hsome] at hstep
  rcases hstep with hrollback | hclose
  · dsimp only at hrollback
    split_ifs at hrollback
    obtain rfl := Option.some.inj hrollback
    exact ⟨rfl, rfl⟩
  · obtain rfl := Option.some.inj hclose
    unfold closeTransaction
    rw [hready]
    exact ⟨rfl, rfl⟩

/-- What is left of a transaction that was committed: the session as it became, which owns
    everything that was not freed. -/
theorem commit_ended (outcome : EndOutcome) (transaction : Transaction)
    (original : SessionState) (shadow ended : Device)
    (horiginal : transaction.original = some original)
    (hcomplete : Complete original transaction.shadow)
    (h : Shadowed original transaction.shadow shadow)
    (hcommit : commit outcome transaction shadow = (true, ended)) :
    ended.session = shadow.session ∧
      ended.heap.freed = shadow.heap.freed ++ shadow.dual ++
        pointersOf places (copied original transaction.shadow) ∧
      ended.heap.Owns ended.session.owned := by
  -- Of the three endings only the first reports success.
  rcases commit_cases outcome transaction shadow horiginal with
    ⟨hdone, -, hdual⟩ | hfailed | hfailed
  · obtain rfl : committedDevice outcome original transaction shadow = ended :=
      (Prod.mk.inj (hdone.symm.trans hcommit)).2
    have hend := committed_settled outcome transaction hcomplete h
    refine ⟨?_, ?_, ?_⟩
    · unfold committedDevice Device.releaseDual
      rw [hdual]
      exact restored_true shadow.session
    · rw [← pointersOf_congr places (replaced original) _
        (h.swapped.replaced_eq h.wellFormed hcomplete)]
      rfl
    · have howns := hend.owns
      exact howns.perm (by rw [show (Device.dual _) = [] from rfl, List.append_nil])
  · exact absurd (hfailed.symm.trans hcommit) (by simp)
  · exact absurd (hfailed.symm.trans hcommit) (by simp)

/-- A commit that fails leaves the shadow for the end of the transaction, or turns it back. -/
theorem commit_failed (outcome : EndOutcome) (transaction : Transaction)
    (original : SessionState) (shadow ended : Device)
    (horiginal : transaction.original = some original)
    (h : Shadowed original transaction.shadow shadow)
    (hcommit : commit outcome transaction shadow = (false, ended)) :
    ended = shadow ∨ ended.session = restored original outcome.refreshed ∧
      ended.heap.freed =
        shadow.heap.freed ++ shadow.dual ++ pointersOf places transaction.shadow ∧
      ended.heap.Owns original.owned := by
  rcases commit_cases outcome transaction shadow horiginal with ⟨hdone, -⟩ | hkept | hback
  · exact absurd (hdone.symm.trans hcommit) (by simp)
  · exact Or.inl (Prod.mk.inj (hcommit.symm.trans hkept)).2
  · obtain rfl := (Prod.mk.inj (hback.symm.trans hcommit)).2
    rcases rollback_ended outcome transaction original
      (shadow.releaseDual outcome.dualReleased) horiginal (h.releaseDual outcome.dualReleased) with
      ⟨hsession, hfreed, howns⟩
    refine Or.inr ⟨hsession, ?_, howns⟩
    rw [hfreed, show (shadow.releaseDual outcome.dualReleased).dual = [] from rfl,
      List.append_nil]
    rfl

/-- A transaction is opened only if there is none. -/
theorem openStep_eq (device opened : Device) (expectedGeneration expectedDigest : UInt64)
    (outcome : OpenOutcome)
    (hopen : step device (.openTransaction expectedGeneration expectedDigest outcome) =
      some opened) :
    device.transaction = none ∧
      openTransaction expectedGeneration expectedDigest outcome device = opened := by
  unfold step at hopen
  cases hcase : device.transaction with
  | none =>
      rw [hcase] at hopen
      exact ⟨rfl, Option.some.inj hopen⟩
  | some transaction =>
      rw [hcase] at hopen
      exact absurd hopen (by simp)

end Runs

/-! ## Leases keep the owners -/

section Lease

variable (cfg : LeaseConfig) (held : Held)

/-- Only the owning pointers and the shape of a layer matter. -/
theorem sameOwners_intro (session other : SessionState)
    (hlinear : ∀ layer,
      (other.linearLayers layer).deviceAllocation =
          (session.linearLayers layer).deviceAllocation ∧
        (other.linearLayers layer).valid = (session.linearLayers layer).valid)
    (hfull : ∀ layer,
      (other.fullAttentionLayers layer).deviceAllocation =
          (session.fullAttentionLayers layer).deviceAllocation ∧
        (other.fullAttentionLayers layer).deviceDecodeTailAllocation =
          (session.fullAttentionLayers layer).deviceDecodeTailAllocation ∧
        (other.fullAttentionLayers layer).decodeTailContiguous =
          (session.fullAttentionLayers layer).decodeTailContiguous ∧
        (other.fullAttentionLayers layer).valid = (session.fullAttentionLayers layer).valid) :
    sameOwners session other = true := by
  unfold sameOwners
  simp only [List.all_eq_true, Bool.and_eq_true, beq_iff_eq]
  intro layer _
  exact ⟨⟨⟨⟨⟨(hlinear layer).1, (hlinear layer).2⟩, (hfull layer).1⟩, (hfull layer).2.1⟩,
    (hfull layer).2.2.1⟩, (hfull layer).2.2.2⟩

/-- The layers are the same. -/
def SameLayers (session other : SessionState) : Prop :=
  other.linearLayers = session.linearLayers ∧
    other.fullAttentionLayers = session.fullAttentionLayers

theorem SameLayers.sameOwners {session other : SessionState} (h : SameLayers session other) :
    sameOwners session other = true :=
  sameOwners_intro session other (fun layer => by rw [h.1]; exact ⟨rfl, rfl⟩)
    (fun layer => by rw [h.2]; exact ⟨rfl, rfl, rfl, rfl⟩)

theorem abort_sameLayers : SameLayers held.session held.abortActivationWorkspace.session := by
  unfold Held.abortActivationWorkspace
  dsimp only
  split_ifs
  · exact ⟨rfl, rfl⟩
  · exact ⟨rfl, rfl⟩

theorem corridorFailure_sameLayers :
    SameLayers held.session (corridorFailure held).2.session := by
  unfold corridorFailure
  split_ifs
  · exact abort_sameLayers held
  · exact ⟨rfl, rfl⟩

/-- A step moves counters and nothing else. -/
theorem stepAdvance_sameOwners (session : SessionState) (cache : CacheStep) (layer : Nat) :
    sameOwners session (stepAdvance session cache layer) = true := by
  refine sameOwners_intro _ _ ?_ ?_
  · intro other
    by_cases heq : other = layer
    · subst heq
      cases cache <;> simp [stepAdvance, SessionState.setLinear, SessionState.setFull]
    · cases cache <;> simp [stepAdvance, SessionState.setLinear, SessionState.setFull, heq]
  · intro other
    by_cases heq : other = layer
    · subst heq
      cases cache <;> simp [stepAdvance, SessionState.setLinear, SessionState.setFull]
    · cases cache <;> simp [stepAdvance, SessionState.setLinear, SessionState.setFull, heq]

/-- Whatever a lease does to the session is a step of decoding: it keeps the owners. -/
theorem performHeld_sameOwners (operation : Operation) (result : Bool × Held)
    (h : performHeld cfg operation held = some result) :
    sameOwners held.session result.2.session = true := by
  have habort := (abort_sameLayers held).sameOwners
  have hcorridor := (corridorFailure_sameLayers held).sameOwners
  have hsame : sameOwners held.session held.session = true := SameLayers.sameOwners ⟨rfl, rfl⟩
  -- An operation lets the session be, gives it up with its layers left in place, or moves counters
  -- of one layer.
  cases operation with
  | acquire => exact absurd h (by simp [performHeld])
  | release => exact absurd h (by simp [performHeld])
  | beginToken checks recorded position coldStartAllowed =>
      rw [← Option.some.inj h]
      unfold beginActivationToken
      dsimp only
      split_ifs
      · exact habort
      · exact (abort_sameLayers _).sameOwners
      · exact hsame
  | beginLayer checks layer kind element =>
      rw [← Option.some.inj h]
      unfold beginActivationLayer
      dsimp only
      split_ifs
      · exact habort
      · exact hsame
  | advance checks cache layer position contract surfaces launched =>
      rw [← Option.some.inj h]
      unfold advanceCache
      split_ifs
      · exact hcorridor
      · exact habort
      · exact habort
      · exact stepAdvance_sameOwners held.session cache layer
  | publish checks layer position contract completed =>
      rw [← Option.some.inj h]
      unfold publishHiddenCarrier
      dsimp only
      split_ifs
      · exact hcorridor
      · exact hcorridor
      · exact hcorridor
      · exact hsame
  | writeSide side =>
      rw [← Option.some.inj h]
      exact hsame
  | endLayer checks layer kind element =>
      rw [← Option.some.inj h]
      unfold endActivationLayer
      dsimp only
      split_ifs
      · exact habort
      · exact hsame
  | endToken checks position =>
      rw [← Option.some.inj h]
      unfold endActivationToken
      dsimp only
      split_ifs
      · exact habort
      · exact hsame
  | commit checks position nextTokenId =>
      rw [← Option.some.inj h]
      unfold commitToken
      dsimp only
      split_ifs
      · exact habort
      · exact habort
      · exact hsame
  | synchronize synced =>
      rw [← Option.some.inj h]
      unfold synchronize
      dsimp only
      split_ifs
      · exact hsame
      · exact hsame
      · exact hsame
      · exact hsame
      · exact (abort_sameLayers _).sameOwners
  | invalidate =>
      rw [← Option.some.inj h]
      exact habort

/-- So a lease on the session of the provider takes a step of decoding. -/
theorem performHeld_decodes (operation : Operation) (result : Bool × Held) (device : Device)
    (h : performHeld cfg operation held = some result) (hsession : held.session = device.session) :
    step device (.decode result.2.session) = some { device with session := result.2.session } := by
  have hsame := performHeld_sameOwners cfg held operation result h
  rw [hsession] at hsame
  unfold step
  dsimp only
  rw [if_pos hsame]

end Lease

/-! ## A session with both kinds of tails -/

/-- Everything succeeds. -/
def allCopied : OpenOutcome :=
  { dualReleased := true, prioritySynced := true, linear := fun _ => .copied
    full := fun _ => .copied, cloneSynced := true, refreshed := true }

/-- What is captured of a linear layer. -/
def someLinear : LinearCapture :=
  { recurrentStateBytes := 8, qkvRingBytes := 4, prefixTokens := 3, qkvElementKind := .f32
    recurrentStateKeyMajor := false }

/-- What is captured of a fully attending layer. -/
def someFull (contiguous : Bool) : FullCapture :=
  { kBytes := 3, vBytes := 3, decodeTailKBytes := 2, decodeTailVBytes := 2, historyTokens := 3
    decodeTailContiguous := contiguous, elementKind := .bf16 }

/-- A provider with one linear layer, one layer with a contiguous and one with a split tail. -/
def capturedDevice : Device :=
  captureFull 7 (someFull false) .copied .copied
    (captureFull 3 (someFull true) .copied .copied
      (captureLinear 0 someLinear .copied
        { heap := Heap.empty, session := SessionState.empty, dual := [], transaction := none }))

/-- Its session when the prefill is done. -/
def finishedSession : SessionState :=
  { capturedDevice.session with
    valid := true, providerCompleted := true, generation := 1, promptTokenIdsFnv1a64 := 9 }

theorem finishedDevice_reachable : Run.Reachable step Run.anyStep Fresh
    { capturedDevice with session := finishedSession } := by
  refine ⟨_, rfl, .tail _ _ (.decode finishedSession) (.tail _ _
    (.captureFull 7 (someFull false) .copied .copied) (.tail _ _
      (.captureFull 3 (someFull true) .copied .copied) (.tail _ _
        (.captureLinear 0 someLinear .copied) .refl trivial rfl) trivial rfl) trivial rfl)
    trivial ?_⟩
  have hsame : sameOwners capturedDevice.session finishedSession = true :=
    SameLayers.sameOwners ⟨rfl, rfl⟩
  change step capturedDevice (.decode finishedSession) = _
  unfold step
  dsimp only
  rw [if_pos hsame]

/-- A shadow of it. -/
def shadowDevice : Device :=
  openTransaction 1 9 allCopied { capturedDevice with session := finishedSession }

/-- A lease on the shadow that is given up. -/
def givenUp : Held :=
  { lease := { generation := 1, ready := true, workSubmitted := false, outputCopyFenced := false
               outputCopyComputePending := false }
    session := shadowDevice.session }

end Shadow

end QrtEngine
