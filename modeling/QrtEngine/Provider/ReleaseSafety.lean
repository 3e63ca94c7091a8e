import QrtEngine.Provider.Release

/-!
# What a Release Loses

A release accounts for everything if it either frees every allocation once and leaves an empty
session, or fails and leaves every allocation that it did not free where it can still be reached.

It does not always. The answer of a workspace is only about the stream of the experts. If the copy
that the first layer of the next token reads cannot be waited for, the workspace keeps its
allocations and yet answers that it is clean, so the session is reset over them. And the state of
the second branch is reset whatever its workspace answers. As long as freeing memory succeeds, these
two are the only ways to lose an allocation.

## Main definitions

* `ReleaseOutcome.FreesAll`: Freeing memory succeeds.
* `Accounted`: Everything was freed, or is still owned.
* `ReleaseAccounts`: The streams that decide whether it is.

## Theorems

* `releaseParts_owns`: What a release frees, keeps and loses is together what there was.
* `releaseSession_accounted_iff`: When a release accounts for everything.
-/

namespace QrtEngine

namespace Process

open QrtEngine.Layered

/-! ## Parts -/

/-- Every allocation that a release frees can be freed. -/
structure ReleaseOutcome.FreesAll (outcome : ReleaseOutcome) : Prop where
  workspace : ∀ pointer, outcome.workspace.free pointer = true
  concurrentWorkspace : ∀ pointer, outcome.concurrentWorkspace.free pointer = true
  free : ∀ pointer, outcome.free pointer = true

theorem ReleaseOutcome.healthy_freesAll : ReleaseOutcome.healthy.FreesAll :=
  ⟨fun _ => rfl, fun _ => rfl, fun _ => rfl⟩

section Parts

variable (hip : Hip) (outcome : ReleaseOutcome) (state : State) (rest : List Nat)

/-- A workspace frees what it owns or keeps it. -/
theorem releaseWorkspace_owns (hfree : ∀ pointer, hip.free pointer = true) (session : Session)
    (heap : Heap) (h : heap.Owns (session.resources.owned ++ rest)) :
    (releaseWorkspace hip session heap).heap.Owns
      ((releaseWorkspace hip session heap).session.resources.owned ++ rest) := by
  rw [releaseWorkspace_heap, releaseWorkspace_resources, freeEach_eq_freeAll hfree]
  cases quarantined hip session.resources with
  | true => exact h
  | false => exact Heap.Owns.freeAll _ h

/-- What is lost of the workspace of the session that runs the second branch. -/
def concurrentLost (hip : Hip) (dual : DualAttentionState) : List Nat :=
  if quarantined hip dual.concurrentAlternateSession.resources then
    dual.concurrentAlternateSession.resources.owned
  else []

theorem releaseConcurrent_owns (hfree : ∀ pointer, hip.free pointer = true)
    (dual : DualAttentionState) (heap : Heap)
    (h : heap.Owns (dual.concurrentAlternateSession.resources.owned ++ rest)) :
    (releaseConcurrent hip dual heap).2.Owns (concurrentLost hip dual ++ rest) := by
  unfold releaseConcurrent
  cases hallocated : dual.concurrentAlternateSession.resources.allocated with
  | true =>
      rw [if_pos rfl]
      unfold concurrentLost
      dsimp only
      rw [releaseWorkspace_heap, freeEach_eq_freeAll hfree]
      cases quarantined hip dual.concurrentAlternateSession.resources with
      | true => exact h
      | false => exact Heap.Owns.freeAll _ h
  | false =>
      -- Without memory there is nothing to free and nothing to lose.
      have howned := (Resources.owned_eq_nil_iff _).mpr hallocated
      have hlost : concurrentLost hip dual = [] := by
        unfold concurrentLost
        rw [howned, ite_self]
      rw [if_neg Bool.false_ne_true, hlost]
      rw [howned] at h
      exact h

/-- A second branch that was never set up owns nothing. -/
theorem owned_of_unused (dual : DualAttentionState) (h : dual.unused = true) :
    dual.owned = [] := by
  unfold DualAttentionState.unused at h
  simp only [Bool.and_eq_true, Bool.not_eq_true', beq_iff_eq] at h
  have hlayers : dual.layerAllocations = [] := by
    unfold DualAttentionState.layerAllocations
    rw [List.flatMap_eq_nil_iff]
    intro layer _
    rcases dual.bytes_counted h.1.1.1.2 layer with ⟨hlinear, hfull⟩
    rw [hlinear, hfull]
    rfl
  unfold DualAttentionState.owned
  rw [hlayers, (Resources.owned_eq_nil_iff _).mpr h.1.1.2]
  rfl

theorem concurrentLost_of_unused (dual : DualAttentionState) (h : dual.unused = true) :
    concurrentLost hip dual = [] := by
  have howned := owned_of_unused dual h
  unfold DualAttentionState.owned at howned
  unfold concurrentLost
  rw [(List.append_eq_nil_iff.mp howned).2, ite_self]

theorem releaseDual_owns (hfree : outcome.FreesAll)
    (h : state.heap.Owns (state.dual.owned ++ rest)) :
    (releaseDual outcome state).2.heap.Owns
      (concurrentLost outcome.concurrentWorkspace state.dual ++ rest) := by
  unfold releaseDual
  cases hunused : state.dual.unused with
  | true =>
      rw [owned_of_unused _ hunused] at h
      rw [if_pos rfl, concurrentLost_of_unused _ _ hunused]
      exact h
  | false =>
      rw [if_neg Bool.false_ne_true]
      -- The workspace goes first, then the layers.
      have hworkspace : state.heap.Owns (state.dual.concurrentAlternateSession.resources.owned ++
          (state.dual.layerAllocations ++ rest)) := by
        unfold DualAttentionState.owned at h
        rw [List.append_assoc] at h
        exact h.perm (by simpa using List.perm_append_comm_assoc _ _ _)
      have hconcurrent := releaseConcurrent_owns outcome.concurrentWorkspace _
        hfree.concurrentWorkspace _ _ hworkspace
      dsimp only
      rw [freeEach_eq_freeAll hfree.free]
      exact Heap.Owns.freeAll _ (hconcurrent.perm (List.perm_append_comm_assoc _ _ _))

theorem releaseActivation_owns (hfree : ∀ pointer, hip.free pointer = true)
    (h : state.heap.Owns (state.session.resources.owned ++ rest)) :
    (releaseActivation hip state).2.heap.Owns
      ((releaseActivation hip state).2.session.resources.owned ++ rest) :=
  releaseWorkspace_owns hip rest hfree state.session state.heap h

/-- A cache that can be freed is gone. -/
theorem released_of_freed {free : Nat → Bool} (hfree : ∀ pointer, free pointer = true)
    (cache : SuffixCacheState) : cache.released free = SuffixCacheState.empty :=
  if_pos (List.all_eq_true.mpr fun pointer _ => hfree pointer)

theorem releaseSuffixCache_owns {free : Nat → Bool} (hfree : ∀ pointer, free pointer = true)
    (h : state.heap.Owns (state.suffixCache.owned ++ rest)) :
    (releaseSuffixCache free state).2.heap.Owns rest := by
  unfold releaseSuffixCache
  dsimp only
  rw [freeEach_eq_freeAll hfree]
  exact Heap.Owns.freeAll _ h

end Parts

/-! ## The whole release -/

section Whole

variable (outcome : ReleaseOutcome) (state : State) (others : List Nat)

theorem releaseParts_resources :
    (releaseParts outcome state).2.session.resources =
      if quarantined outcome.workspace state.session.resources then state.session.resources
      else Resources.empty := by
  have hresources : (releaseDual outcome state).2.session.resources =
      state.session.resources := by
    rw [releaseDual_session]
  rw [releaseParts_session, releaseWorkspace_resources, hresources]

/-- The parts of a release leave the layers alone. -/
theorem releaseParts_layers :
    (releaseParts outcome state).2.session.owned = state.session.owned := by
  have hpointer : (releaseParts outcome state).2.session.pointer = state.session.pointer := by
    rw [releaseParts_session, releaseWorkspace_pointer, releaseDual_session]
    rfl
  unfold SessionState.owned
  rw [hpointer]

/-- What is left after the parts of a release: what was lost of the second branch, what the
    workspace has kept, and the layers. -/
theorem releaseParts_owns (hfree : outcome.FreesAll)
    (h : state.heap.Owns (state.owned ++ others)) :
    (releaseParts outcome state).2.heap.Owns
      (concurrentLost outcome.concurrentWorkspace state.dual ++
        ((releaseParts outcome state).2.session.resources.owned ++
          (state.session.owned ++ others))) := by
  have hdual : (releaseDual outcome state).2.heap.Owns
      (concurrentLost outcome.concurrentWorkspace state.dual ++ (state.session.resources.owned ++
        (state.suffixCache.owned ++ (state.session.owned ++ others)))) := by
    refine releaseDual_owns outcome state _ hfree ?_
    unfold State.owned at h
    simpa only [List.append_assoc] using h
  have hactivation := releaseActivation_owns outcome.workspace (releaseDual outcome state).2
    (concurrentLost outcome.concurrentWorkspace state.dual ++
      (state.suffixCache.owned ++ (state.session.owned ++ others))) hfree.workspace
    (by rw [releaseDual_session]; exact hdual.perm (List.perm_append_comm_assoc _ _ _))
  -- The cache comes to the front to be freed, and the kept workspace goes back behind the loss.
  have hsuffix := releaseSuffixCache_owns (releaseActivation outcome.workspace
    (releaseDual outcome state).2).2
    ((releaseParts outcome state).2.session.resources.owned ++
      (concurrentLost outcome.concurrentWorkspace state.dual ++ (state.session.owned ++ others)))
    hfree.free
    (by
      have hcache : (releaseActivation outcome.workspace
          (releaseDual outcome state).2).2.suffixCache = state.suffixCache :=
        releaseDual_suffixCache outcome state
      rw [hcache]
      refine hactivation.perm (List.Perm.trans ?_ (List.perm_append_comm_assoc _ _ _))
      exact (List.perm_append_comm_assoc _ _ _).append_left _)
  exact hsuffix.perm (List.perm_append_comm_assoc _ _ _)

/-- Everything was freed once and the session is empty, or everything that was not freed is still
    owned. -/
def Accounted (others : List Nat) (result : Bool × State) : Prop :=
  (result.1 = true ∧ result.2.session = Session.empty ∧ result.2.heap.Owns others) ∨
    (result.1 = false ∧ result.2.heap.Owns (result.2.owned ++ others))

/-- A release that succeeds accounts for everything if neither the second branch nor the workspace
    has kept anything. -/
theorem accounted_of_true (hfree : outcome.FreesAll) (h : state.heap.Owns (state.owned ++ others))
    (hparts : (releaseParts outcome state).1 = true) :
    Accounted others (releaseSession outcome state) ↔
      concurrentLost outcome.concurrentWorkspace state.dual ++
        (releaseParts outcome state).2.session.resources.owned = [] := by
  have howns := releaseParts_owns outcome state others hfree h
  rw [← releaseParts_layers outcome state] at howns
  have hfreed : (releaseSession outcome state).2.heap.Owns
      (concurrentLost outcome.concurrentWorkspace state.dual ++
        (releaseParts outcome state).2.session.resources.owned ++ others) := by
    rw [releaseSession_of_true outcome state hparts]
    dsimp only
    rw [freeEach_eq_freeAll hfree.free]
    refine Heap.Owns.freeAll _ (howns.perm ?_)
    have hlayers : (pointersOf Shadow.releasePlaces
        (releaseParts outcome state).2.session.pointer).Perm
        (releaseParts outcome state).2.session.owned :=
      Shadow.releasePlaces_perm.flatMap_right _
    rw [List.append_assoc]
    refine List.Perm.trans ?_ (hlayers.symm.append_right _)
    exact ((List.perm_append_comm_assoc _ _ _).append_left _).trans
      (List.perm_append_comm_assoc _ _ _)
  rw [← hfreed.lost_iff]
  unfold Accounted
  rw [releaseSession_of_true outcome state hparts]
  simp

/-- A release that fails accounts for everything if the second branch has kept nothing. -/
theorem accounted_of_false (hfree : outcome.FreesAll) (h : state.heap.Owns (state.owned ++ others))
    (hparts : (releaseParts outcome state).1 = false) :
    Accounted others (releaseSession outcome state) ↔
      concurrentLost outcome.concurrentWorkspace state.dual = [] := by
  have howns := releaseParts_owns outcome state others hfree h
  rw [← releaseParts_layers outcome state] at howns
  have howned : (releaseSession outcome state).2.owned ++ others =
      (releaseParts outcome state).2.session.resources.owned ++
        ((releaseParts outcome state).2.session.owned ++ others) := by
    rw [releaseSession_of_false outcome state hparts]
    unfold State.owned
    dsimp only
    rw [releaseParts_dual, releaseParts_suffixCache, released_of_freed hfree.free,
      List.append_assoc, List.append_assoc]
    rfl
  have hheap : (releaseSession outcome state).2.heap = (releaseParts outcome state).2.heap := by
    rw [releaseSession_of_false outcome state hparts]
  rw [← hheap, ← howned] at howns
  rw [← howns.lost_iff]
  unfold Accounted
  rw [releaseSession_fst, hparts]
  simp

/-! ## When nothing is lost -/

/-- The second branch was set up and cannot be released: its provider cannot be given back, or the
    default stream cannot be waited for. -/
def dualUnsettled (outcome : ReleaseOutcome) (state : State) : Bool :=
  !state.dual.unused && !(state.providerReturns && outcome.dualDefaultSync)

/-- The streams that decide whether a release loses something. The workspace of the second branch
    must not be quarantined. The workspace of the session may be quarantined for the copy alone
    only if the second branch makes the release fail. -/
def ReleaseAccounts (outcome : ReleaseOutcome) (state : State) : Prop :=
  (state.dual.concurrentAlternateSession.resources.allocated = true →
      quarantined outcome.concurrentWorkspace
        state.dual.concurrentAlternateSession.resources = false) ∧
    (state.session.resources.allocated = true →
      layer0Quarantined outcome.workspace state.session.resources = true →
      priorityQuarantined outcome.workspace state.session.resources = true ∨
        dualUnsettled outcome state = true)

theorem concurrentLost_eq_nil_iff (hip : Hip) (dual : DualAttentionState) :
    concurrentLost hip dual = [] ↔
      (dual.concurrentAlternateSession.resources.allocated = true →
        quarantined hip dual.concurrentAlternateSession.resources = false) := by
  unfold concurrentLost
  cases quarantined hip dual.concurrentAlternateSession.resources with
  | true =>
      rw [if_pos rfl, Resources.owned_eq_nil_iff]
      simp
  | false => simp

/-- If nothing is lost of the second branch, its release succeeds unless it is unsettled. -/
theorem releaseDual_fst (hfree : outcome.FreesAll)
    (h : concurrentLost outcome.concurrentWorkspace state.dual = []) :
    (releaseDual outcome state).1 = !dualUnsettled outcome state := by
  rw [concurrentLost_eq_nil_iff] at h
  have hconcurrent : (releaseConcurrent outcome.concurrentWorkspace state.dual state.heap).1 =
      true := by
    unfold releaseConcurrent
    cases hallocated : state.dual.concurrentAlternateSession.resources.allocated with
    | true =>
        have hquarantined := h hallocated
        unfold quarantined at hquarantined
        rw [Bool.or_eq_false_iff] at hquarantined
        simp [releaseWorkspace, hquarantined.1]
    | false => rfl
  unfold releaseDual dualUnsettled
  cases hunused : state.dual.unused with
  | true => rfl
  | false => simp [hconcurrent, hfree.free]

/-- What the workspace has kept is nothing if it has no memory or is not quarantined. -/
theorem resources_kept_iff :
    (releaseParts outcome state).2.session.resources.owned = [] ↔
      (state.session.resources.allocated = true →
        quarantined outcome.workspace state.session.resources = false) := by
  rw [releaseParts_resources]
  cases quarantined outcome.workspace state.session.resources with
  | true =>
      rw [if_pos rfl, Resources.owned_eq_nil_iff]
      simp
  | false => simp

/-- If memory can be freed, a release accounts for everything exactly if the streams do not make it
    lose something. -/
theorem releaseSession_accounted_iff (hfree : outcome.FreesAll)
    (h : state.heap.Owns (state.owned ++ others)) :
    Accounted others (releaseSession outcome state) ↔ ReleaseAccounts outcome state := by
  have hcache : state.suffixCache.owned.all outcome.free = true :=
    List.all_eq_true.mpr fun pointer _ => hfree.free pointer
  unfold ReleaseAccounts
  rw [← concurrentLost_eq_nil_iff]
  cases hparts : (releaseParts outcome state).1 with
  | true =>
      -- Everything that was kept is lost with the session.
      rw [accounted_of_true outcome state others hfree h hparts, List.append_eq_nil_iff,
        resources_kept_iff]
      refine and_congr_right fun hlost => ?_
      rw [releaseParts_fst, releaseDual_fst outcome state hfree hlost, hcache, Bool.and_true,
        Bool.and_eq_true,
        Bool.not_eq_true', Bool.not_eq_true'] at hparts
      unfold quarantined
      rw [hparts.1, hparts.2]
      simp
  | false =>
      -- What the workspace has kept stays with the session.
      rw [accounted_of_false outcome state others hfree h hparts]
      refine (and_iff_left_of_imp fun hlost => ?_).symm
      rw [releaseParts_fst, releaseDual_fst outcome state hfree hlost, hcache,
        Bool.and_true] at hparts
      intro _ _
      cases hpriority : priorityQuarantined outcome.workspace state.session.resources with
      | true => exact Or.inl rfl
      | false =>
          rw [hpriority] at hparts
          exact Or.inr (by simpa using hparts)

end Whole

/-! ## A session in use -/

/-- The resources of a workspace that copies each token on a stream of its own. -/
def copyingResources : Resources :=
  { Resources.empty with
    deviceAllocation := some 1
    fullAttentionScoreScratchAllocation := some 2
    directOutputAllocation := some 3
    layer0HostTopk := some 4
    layer0CopyStream := true
    layer0Top1ReadyEvent := true
    allocationBytes := 152064
    topk_with_output := fun _ => rfl }

/-- A session with one captured layer and such a workspace. -/
def copyingState : State :=
  { State.initial with
    session := { Session.empty with
      linearLayers := fun layer =>
        if layer = 0 then { LinearLayer.empty with deviceAllocation := some 0 }
        else LinearLayer.empty
      resources := copyingResources }
    heap := { allocated := 5, freed := [] } }

/-- The session owns the five allocations. -/
theorem copyingState_owns : copyingState.heap.Owns (copyingState.owned ++ []) := by
  unfold Heap.Owns
  decide +kernel

/-- With every stream at rest, all five allocations are freed. -/
theorem healthyRelease_accounts :
    copyingState.heap.Owns (copyingState.owned ++ []) ∧
      Accounted [] (releaseSession ReleaseOutcome.healthy copyingState) :=
  ⟨copyingState_owns,
    (releaseSession_accounted_iff ReleaseOutcome.healthy copyingState []
      ReleaseOutcome.healthy_freesAll copyingState_owns).mpr
      ⟨by decide +kernel, by decide +kernel⟩⟩

/-- The stream of the copy cannot be waited for. -/
def failedCopySync : ReleaseOutcome :=
  { ReleaseOutcome.healthy with
    workspace := { Hip.healthy with synchronize := fun handle => handle != .layer0CopyStream } }

/-- A release whose copy cannot be waited for answers that it is done, and forgets the
    workspace. -/
theorem failedCopySync_loses :
    ¬ ∀ (outcome : ReleaseOutcome) (state : State) (others : List Nat), outcome.FreesAll →
      state.heap.Owns (state.owned ++ others) →
        Accounted others (releaseSession outcome state) := by
  intro h
  have hfree : failedCopySync.FreesAll := ⟨fun _ => rfl, fun _ => rfl, fun _ => rfl⟩
  have haccounted := h failedCopySync copyingState [] hfree copyingState_owns
  rw [accounted_of_true failedCopySync copyingState [] hfree copyingState_owns (by decide +kernel)]
    at haccounted
  exact absurd haccounted (by decide +kernel)

end Process

end QrtEngine
