import QrtEngine.Provider.Process

/-!
# Releasing a Session

A session is released when another takes its place, when a reset asks for it, and when a capture
comes to nothing. Streams of the device may still use its memory. Each workspace therefore waits
for its streams and events before it frees anything, and if it cannot wait for them it keeps
everything: its cleanup is quarantined. The session is reset only if all parts could be cleaned
up.

What the device answers is a parameter. Everything may fail, stream by stream, event by event and
allocation by allocation. An allocation that could not be freed is forgotten like one that was,
except by the cache of the suffix, which keeps it and is not valid any more.

## Main definitions

* `Hip`: What the device answers about its streams, events and allocations.
* `priorityQuarantined`, `layer0Quarantined`: A workspace could not wait for its streams.
* `releaseWorkspace`, `releaseDual`, `releaseSuffixCache`: The parts.
* `releaseSession`: The release of a session.

## Theorems

* `releaseSession_session`, `releaseSession_ownedBytes`: A release that succeeds leaves nothing.
* `releaseSession_beside`: What a release does beside the session.
-/

namespace QrtEngine

namespace Process

open QrtEngine.Layered

/-! ## Workspaces -/

/-- The streams and events that a release waits for and destroys. -/
inductive Handle where
  | defaultStream
  | priorityStream
  | priorityEvent
  | routerEvent (slot : Nat)
  | tailEvent (slot : Nat)
  | profileEvent (slot : Nat)
  | layer0CopyStream
  | layer0Top1ReadyEvent
deriving DecidableEq, Repr

/-- What the device answers when a stream or an event is synchronized or destroyed, and when an
    allocation is freed. -/
structure Hip where
  synchronize : Handle → Bool
  destroy : Handle → Bool
  free : Nat → Bool

/-- A device on which everything succeeds. -/
def Hip.healthy : Hip :=
  { synchronize := fun _ => true, destroy := fun _ => true, free := fun _ => true }

/-- Free each of the allocations that can be freed. -/
def freeEach (free : Nat → Bool) (heap : Heap) (pointers : List Nat) : Heap :=
  heap.freeAll (pointers.filter free)

theorem freeEach_eq_freeAll {free : Nat → Bool} (h : ∀ pointer, free pointer = true) (heap : Heap)
    (pointers : List Nat) : freeEach free heap pointers = heap.freeAll pointers := by
  unfold freeEach
  rw [List.filter_eq_self.mpr fun pointer _ => h pointer]

/-- What is not there needs no waiting. -/
def Hip.quiet (hip : Hip) (isThere : Bool) (handle : Handle) : Bool :=
  !isThere || hip.synchronize handle

/-- Every layer whose experts run on a stream of their own has a pair of events. -/
def Resources.combinedEvents (resources : Resources) : Bool :=
  resources.priorityRouterEventCount == priorityEventSlotCount &&
    resources.priorityTailEventCount == priorityEventSlotCount

/-- The stream of the experts could not be waited for. -/
def priorityQuarantined (hip : Hip) (resources : Resources) : Bool :=
  if resources.combinedEvents then
    if !hip.synchronize .defaultStream ||
        !hip.quiet resources.priorityStream .priorityStream then
      true
    else
      -- The events are waited for only once the streams are quiet.
      !(List.range priorityEventSlotCount).all (fun slot => hip.synchronize (.routerEvent slot)) ||
        !(List.range priorityEventSlotCount).all fun slot => hip.synchronize (.tailEvent slot)
  else
    !hip.quiet resources.priorityEvent .priorityEvent ||
      !hip.quiet resources.priorityStream .priorityStream

/-- There is something to clean up that the first layer of the next token reads. -/
def Resources.layer0CleanupRequired (resources : Resources) : Bool :=
  resources.layer0CopyStream || resources.layer0Top1ReadyEvent || resources.layer0HostTopk.isSome

/-- What the first layer of the next token reads could not be waited for, or some of it is
    missing. With a copy on the stream of the computation there is no stream for the copy. -/
def layer0Quarantined (hip : Hip) (resources : Resources) : Bool :=
  if !resources.layer0CleanupRequired then false
  else if priorityQuarantined hip resources then true
  else if (if resources.layer0SameStreamCopyRequested then resources.layer0CopyStream
        else !resources.layer0CopyStream) ||
      !resources.layer0Top1ReadyEvent || resources.layer0HostTopk.isNone then
    true
  else !hip.quiet resources.layer0CopyStream .layer0CopyStream

/-- A workspace keeps everything it owns. -/
def quarantined (hip : Hip) (resources : Resources) : Bool :=
  priorityQuarantined hip resources || layer0Quarantined hip resources

/-- The streams and events that are destroyed. -/
def Resources.destroyed (resources : Resources) : List Handle :=
  (if resources.combinedEvents then
    (List.range priorityEventSlotCount).map Handle.routerEvent ++
      (List.range priorityEventSlotCount).map Handle.tailEvent ++
      (List.range resources.profileEventCount).map Handle.profileEvent
  else if resources.priorityEvent then [.priorityEvent] else []) ++
    (if resources.priorityStream then [.priorityStream] else []) ++
    (if resources.layer0CleanupRequired then
      .layer0Top1ReadyEvent :: (if resources.layer0CopyStream then [.layer0CopyStream] else [])
    else [])

/-- The session keeps its workspace but cannot be used any more. -/
def Session.quarantine (session : Session) : Session :=
  { session with
    activationWorkspace := { session.activationWorkspace with valid := false }
    valid := false }

/-- The session without its workspace. -/
def Session.clearWorkspace (session : Session) : Session :=
  { session with activationWorkspace := Workspace.empty, resources := Resources.empty }

/-- What a release of a workspace comes to: what it answers, the status it writes down, and what
    is left of the session and the heap. -/
structure WorkspaceRelease where
  safe : Bool
  status : Bool
  session : Session
  heap : Heap

/-- Release the workspace of a session. Everything is kept if anything is quarantined, but the
    answer is only about the stream of the experts. What could not be freed shows in the status
    alone. -/
def releaseWorkspace (hip : Hip) (session : Session) (heap : Heap) : WorkspaceRelease :=
  let resources := session.resources
  { safe := !priorityQuarantined hip resources
    status := !quarantined hip resources && resources.destroyed.all hip.destroy &&
      resources.owned.all hip.free
    session := if quarantined hip resources then session.quarantine else session.clearWorkspace
    heap := if quarantined hip resources then heap else freeEach hip.free heap resources.owned }

section Workspace

variable (hip : Hip) (session : Session) (heap : Heap)

theorem releaseWorkspace_heap :
    (releaseWorkspace hip session heap).heap =
      if quarantined hip session.resources then heap
      else freeEach hip.free heap session.resources.owned := rfl

theorem releaseWorkspace_resources :
    (releaseWorkspace hip session heap).session.resources =
      if quarantined hip session.resources then session.resources else Resources.empty := by
  dsimp only [releaseWorkspace]
  split <;> rfl

/-- The layers are no business of the workspace. -/
theorem releaseWorkspace_pointer :
    (releaseWorkspace hip session heap).session.pointer = session.pointer := by
  dsimp only [releaseWorkspace]
  split <;> rfl

end Workspace

/-! ## Beside the session -/

/-- What the device answers while a session is released. The allocations are those that belong to
    neither workspace. -/
structure ReleaseOutcome where
  workspace : Hip
  concurrentWorkspace : Hip
  dualDefaultSync : Bool
  free : Nat → Bool

/-- A release during which everything succeeds. -/
def ReleaseOutcome.healthy : ReleaseOutcome :=
  { workspace := Hip.healthy, concurrentWorkspace := Hip.healthy, dualDefaultSync := true
    free := fun _ => true }

/-- The second branch was never set up. -/
def DualAttentionState.unused (dual : DualAttentionState) : Bool :=
  !dual.valid && dual.allocationBytes == 0 &&
    !dual.concurrentAlternateSession.resources.allocated &&
    !dual.concurrentPrimaryMatrixProvider && !dual.concurrentAlternateMatrixProvider

/-- The provider of matrix products that the second branch has borrowed can be given back. -/
def State.providerReturns (state : State) : Bool :=
  !state.dual.concurrentPrimaryMatrixProvider || !state.matrixProvider

/-- Release the workspace of the session that runs the second branch, if it has memory. -/
def releaseConcurrent (hip : Hip) (dual : DualAttentionState) (heap : Heap) : Bool × Heap :=
  if dual.concurrentAlternateSession.resources.allocated then
    let released := releaseWorkspace hip dual.concurrentAlternateSession heap
    (released.safe, released.heap)
  else (true, heap)

/-- Release the second branch. Its state is reset in any case, and a failure is charged to the
    session. -/
def releaseDual (outcome : ReleaseOutcome) (state : State) : Bool × State :=
  if state.dual.unused then (true, { state with dual := DualAttentionState.empty })
  else
    let concurrent := releaseConcurrent outcome.concurrentWorkspace state.dual state.heap
    let safe := state.providerReturns && concurrent.1 && outcome.dualDefaultSync &&
      state.dual.layerAllocations.all outcome.free
    (safe,
      { state with
        session := { state.session with valid := state.session.valid && safe }
        dual := DualAttentionState.empty
        matrixProvider := state.matrixProvider || state.dual.concurrentPrimaryMatrixProvider
        heap := freeEach outcome.free concurrent.2 state.dual.layerAllocations })

/-- What is left of a place whose allocation was to be freed. -/
def unfreed (free : Nat → Bool) (allocation : Option Nat) : Option Nat :=
  allocation.filter fun pointer => !free pointer

/-- What is left of the cache of a suffix when its allocations were to be freed. One that could not
    be freed stays where it is, and the cache with it. -/
def SuffixCacheState.released (free : Nat → Bool) (cache : SuffixCacheState) : SuffixCacheState :=
  if cache.owned.all free then SuffixCacheState.empty
  else
    { cache with
      linearAllocations := fun layer => unfreed free (cache.linearAllocations layer)
      fullAttentionTailAllocations := fun layer =>
        unfreed free (cache.fullAttentionTailAllocations layer)
      valid := false }

/-- Release the cache of a suffix. -/
def releaseSuffixCache (free : Nat → Bool) (state : State) : Bool × State :=
  (state.suffixCache.owned.all free,
    { state with
      suffixCache := state.suffixCache.released free
      heap := freeEach free state.heap state.suffixCache.owned })

/-! ## The session -/

/-- Release the workspace of the session. -/
def releaseActivation (hip : Hip) (state : State) : Bool × State :=
  let released := releaseWorkspace hip state.session state.heap
  (released.safe, { state with session := released.session, heap := released.heap })

/-- The parts of a release, one after the other, whatever the others have answered. -/
def releaseParts (outcome : ReleaseOutcome) (state : State) : Bool × State :=
  let dual := releaseDual outcome state
  let activation := releaseActivation outcome.workspace dual.2
  let suffix := releaseSuffixCache outcome.free activation.2
  (dual.1 && activation.1 && suffix.1, suffix.2)

/-- Release the session. -/
def releaseSession (outcome : ReleaseOutcome) (state : State) : Bool × State :=
  let parts := releaseParts outcome state
  if parts.1 then
    (true,
      { parts.2 with
        session := Session.empty
        heap := freeEach outcome.free parts.2.heap
          (pointersOf Shadow.releasePlaces parts.2.session.pointer) })
  else
    (false,
      { parts.2 with session := { parts.2.session with valid := false, routeActive := false } })

/-! ## What a release leaves -/

variable (outcome : ReleaseOutcome) (state : State)

@[simp] theorem releaseDual_dual :
    (releaseDual outcome state).2.dual = DualAttentionState.empty := by
  unfold releaseDual
  cases state.dual.unused <;> rfl

@[simp] theorem releaseDual_suffixCache :
    (releaseDual outcome state).2.suffixCache = state.suffixCache := by
  unfold releaseDual
  cases state.dual.unused <;> rfl

@[simp] theorem releaseDual_telemetry :
    (releaseDual outcome state).2.telemetry = state.telemetry := by
  unfold releaseDual
  cases state.dual.unused <;> rfl

@[simp] theorem releaseDual_generationClock :
    (releaseDual outcome state).2.generationClock = state.generationClock := by
  unfold releaseDual
  cases state.dual.unused <;> rfl

/-- Releasing the second branch can only invalidate the session. -/
theorem releaseDual_session :
    (releaseDual outcome state).2.session =
      { state.session with valid := state.session.valid && (releaseDual outcome state).1 } := by
  unfold releaseDual
  cases state.dual.unused with
  | true => rw [if_pos rfl, Bool.and_true]
  | false => rfl

@[simp] theorem releaseParts_dual :
    (releaseParts outcome state).2.dual = DualAttentionState.empty :=
  releaseDual_dual outcome state

@[simp] theorem releaseParts_suffixCache :
    (releaseParts outcome state).2.suffixCache = state.suffixCache.released outcome.free :=
  congrArg (SuffixCacheState.released outcome.free) (releaseDual_suffixCache outcome state)

@[simp] theorem releaseParts_telemetry :
    (releaseParts outcome state).2.telemetry = state.telemetry :=
  releaseDual_telemetry outcome state

@[simp] theorem releaseParts_generationClock :
    (releaseParts outcome state).2.generationClock = state.generationClock :=
  releaseDual_generationClock outcome state

/-- What the parts leave of the session is what the workspace leaves of it. -/
theorem releaseParts_session :
    (releaseParts outcome state).2.session =
      (releaseWorkspace outcome.workspace (releaseDual outcome state).2.session
        (releaseDual outcome state).2.heap).session := rfl

/-- The parts succeed if the second branch and the workspace do, and the cache can be freed. -/
theorem releaseParts_fst :
    (releaseParts outcome state).1 =
      ((releaseDual outcome state).1 &&
        !priorityQuarantined outcome.workspace state.session.resources &&
        state.suffixCache.owned.all outcome.free) := by
  have hresources : (releaseDual outcome state).2.session.resources =
      state.session.resources := by
    rw [releaseDual_session]
  change ((releaseDual outcome state).1 &&
    !priorityQuarantined outcome.workspace (releaseDual outcome state).2.session.resources &&
    (releaseDual outcome state).2.suffixCache.owned.all outcome.free) = _
  rw [hresources, releaseDual_suffixCache]

theorem releaseSession_of_true (h : (releaseParts outcome state).1 = true) :
    releaseSession outcome state =
      (true,
        { (releaseParts outcome state).2 with
          session := Session.empty
          heap := freeEach outcome.free (releaseParts outcome state).2.heap
            (pointersOf Shadow.releasePlaces (releaseParts outcome state).2.session.pointer) }) :=
  if_pos h

theorem releaseSession_of_false (h : (releaseParts outcome state).1 = false) :
    releaseSession outcome state =
      (false,
        { (releaseParts outcome state).2 with
          session := { (releaseParts outcome state).2.session with
            valid := false
            routeActive := false } }) :=
  if_neg (by rw [h]; exact Bool.false_ne_true)

theorem releaseSession_fst :
    (releaseSession outcome state).1 = (releaseParts outcome state).1 := by
  cases h : (releaseParts outcome state).1 with
  | true => rw [releaseSession_of_true outcome state h]
  | false => rw [releaseSession_of_false outcome state h]

/-- Whatever a release answers, it does the same beside the session. -/
theorem releaseSession_beside :
    (releaseSession outcome state).2.dual = DualAttentionState.empty ∧
      (releaseSession outcome state).2.suffixCache = state.suffixCache.released outcome.free ∧
      (releaseSession outcome state).2.telemetry = state.telemetry ∧
      (releaseSession outcome state).2.generationClock = state.generationClock := by
  cases h : (releaseParts outcome state).1 with
  | true =>
      rw [releaseSession_of_true outcome state h]
      simp
  | false =>
      rw [releaseSession_of_false outcome state h]
      simp

/-- A release that succeeds leaves an empty session. -/
theorem releaseSession_session (h : (releaseSession outcome state).1 = true) :
    (releaseSession outcome state).2.session = Session.empty := by
  rw [releaseSession_fst] at h
  rw [releaseSession_of_true outcome state h]

/-- A release that succeeds leaves no suffix. -/
theorem releaseSession_suffixCache (h : (releaseSession outcome state).1 = true) :
    (releaseSession outcome state).2.suffixCache = SuffixCacheState.empty := by
  rw [releaseSession_fst, releaseParts_fst, Bool.and_eq_true] at h
  rw [(releaseSession_beside outcome state).2.1]
  exact if_pos h.2

/-- A release that succeeds leaves no bytes. -/
theorem releaseSession_ownedBytes (h : (releaseSession outcome state).1 = true) :
    (releaseSession outcome state).2.ownedBytes = 0 := by
  unfold State.ownedBytes
  rw [releaseSession_session outcome state h, (releaseSession_beside outcome state).1,
    releaseSession_suffixCache outcome state h]
  rfl

end Process

end QrtEngine
