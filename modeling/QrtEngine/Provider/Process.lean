import QrtEngine.Library.Heap
import QrtEngine.Provider.Layers
import QrtEngine.Provider.Shadow

/-!
# The State of the Provider Process

What the process of the provider keeps from one request to the next. There is one session, which
owns the allocations of its layers and the resources of its activation workspace. Beside it the
process keeps two things that are no part of a session: the state of the dual attention, which is
a second branch of the decoding with layers and a workspace of its own, and the cache of a suffix.
A clock numbers the sessions, and the telemetry says what the last replacement of a session did.

A branch of the decoding is what a decoded token changes of a session. `captureBranch` reads the
branch out of a session and `installBranch` puts one in.

Streams and events are only there or not there. Allocations are those of the heap.

## Main definitions

* `Resources`: What an activation workspace owns.
* `Session`: The session with the resources of its workspace.
* `BranchState`, `captureBranch`, `installBranch`: The branches of the decoding.
* `DualAttentionState`, `SuffixCacheState`: What is kept beside the session.
* `EvictionTelemetry`: What the last replacement of a session did.
* `State`: All of it.
* `State.owned`: The allocations that all of it owns.
-/

namespace QrtEngine

namespace Process

open QrtEngine.Layered

/-! ## The workspace -/

/-- How many events there are for the layers whose experts run on a stream of their own. -/
def priorityEventSlotCount : Nat := layerCount - 2

/-- What an activation workspace owns. The pinned page that the first layer of the next token
    reads is allocated together with the output plan, and never without it. -/
structure Resources where
  deviceAllocation : Option Nat
  fullAttentionScoreScratchAllocation : Option Nat
  directOutputAllocation : Option Nat
  layer0HostTopk : Option Nat
  layer0CopyStream : Bool
  layer0Top1ReadyEvent : Bool
  layer0SameStreamCopyRequested : Bool
  priorityStream : Bool
  priorityEvent : Bool
  priorityRouterEventCount : Nat
  priorityTailEventCount : Nat
  profileEventCount : Nat
  allocationBytes : Nat
  fullAttentionScoreScratchAllocationBytes : Nat
  directOutputAllocationBytes : Nat
  topk_with_output : layer0HostTopk.isSome → directOutputAllocation.isSome
deriving DecidableEq

/-- A workspace that owns nothing. -/
def Resources.empty : Resources :=
  { deviceAllocation := none, fullAttentionScoreScratchAllocation := none
    directOutputAllocation := none, layer0HostTopk := none, layer0CopyStream := false
    layer0Top1ReadyEvent := false, layer0SameStreamCopyRequested := false
    priorityStream := false, priorityEvent := false, priorityRouterEventCount := 0
    priorityTailEventCount := 0, profileEventCount := 0, allocationBytes := 0
    fullAttentionScoreScratchAllocationBytes := 0, directOutputAllocationBytes := 0
    topk_with_output := fun h => h }

/-- The allocations of a workspace, in the order in which they are freed. -/
def Resources.owned (resources : Resources) : List Nat :=
  resources.layer0HostTopk.toList ++ resources.fullAttentionScoreScratchAllocation.toList ++
    resources.deviceAllocation.toList ++ resources.directOutputAllocation.toList

/-- There is memory of the device in a workspace. -/
def Resources.allocated (resources : Resources) : Bool :=
  resources.deviceAllocation.isSome || resources.fullAttentionScoreScratchAllocation.isSome ||
    resources.directOutputAllocation.isSome

@[simp] theorem Resources.owned_empty : Resources.empty.owned = [] := rfl

/-- A workspace without memory of the device owns nothing. -/
theorem Resources.owned_eq_nil_iff (resources : Resources) :
    resources.owned = [] ↔ resources.allocated = false := by
  have htopk := resources.topk_with_output
  unfold Resources.owned Resources.allocated
  cases hhost : resources.layer0HostTopk <;>
    cases hscore : resources.fullAttentionScoreScratchAllocation <;>
    cases hdevice : resources.deviceAllocation <;>
    cases houtput : resources.directOutputAllocation <;>
    simp_all

/-! ## The session -/

/-- The session with the resources of its workspace and what was counted while its layers were
    captured. -/
structure Session extends SessionState where
  resources : Resources
  linearCapturedMask : UInt64
  fullAttentionCapturedMask : UInt64
  linearRecurrentStateBytes : Nat
  linearQkvRingBytes : Nat
  fullAttentionKvBytes : Nat
  fullAttentionDecodeTailBytes : Nat
  captureFailureCount : Nat

/-- A session that was released. -/
def Session.empty : Session :=
  { SessionState.empty with
    resources := Resources.empty
    linearCapturedMask := 0
    fullAttentionCapturedMask := 0
    linearRecurrentStateBytes := 0
    linearQkvRingBytes := 0
    fullAttentionKvBytes := 0
    fullAttentionDecodeTailBytes := 0
    captureFailureCount := 0 }

/-- The allocations of a session: those of its layers and those of its workspace. -/
def Session.ownedAllocations (session : Session) : List Nat :=
  session.owned ++ session.resources.owned

/-! ## Branches -/

/-- What a decoded token changes of a session. -/
structure BranchState where
  linearLayers : Nat → LinearLayer
  fullAttentionLayers : Nat → FullLayer
  committedDecodeTokenCount : Nat
  currentTokenId : UInt32
  currentTokenValid : Bool

/-- No branch. -/
def BranchState.empty : BranchState :=
  { linearLayers := fun _ => LinearLayer.empty
    fullAttentionLayers := fun _ => FullLayer.empty
    committedDecodeTokenCount := 0
    currentTokenId := 0
    currentTokenValid := false }

/-- The branch that a session is on. -/
def captureBranch (session : SessionState) : BranchState :=
  { linearLayers := session.linearLayers
    fullAttentionLayers := session.fullAttentionLayers
    committedDecodeTokenCount := session.committedDecodeTokenCount
    currentTokenId := session.currentTokenId
    currentTokenValid := session.currentTokenValid }

/-- The session on another branch. -/
def installBranch (branch : BranchState) (session : SessionState) : SessionState :=
  { session with
    linearLayers := branch.linearLayers
    fullAttentionLayers := branch.fullAttentionLayers
    committedDecodeTokenCount := branch.committedDecodeTokenCount
    currentTokenId := branch.currentTokenId
    currentTokenValid := branch.currentTokenValid }

/-! ## Beside the session -/

/-- The second branch of the dual attention. The two arrays own its layers. The layers of the
    branch and of the session that runs it only point there, and into the prompt of the session
    of the process. Each allocation is counted when it is made. -/
structure DualAttentionState where
  alternate : BranchState
  concurrentAlternateSession : Session
  concurrentPrimaryMatrixProvider : Bool
  concurrentAlternateMatrixProvider : Bool
  linearAllocations : Nat → Option Nat
  fullAllocations : Nat → Option Nat
  sessionGeneration : UInt64
  promptTokenIdsFnv1a64 : UInt64
  allocationBytes : Nat
  lazyAlternateStepsRemaining : Nat
  concurrentAlternateReady : Bool
  valid : Bool
  bytes_counted : allocationBytes = 0 →
    ∀ layer, linearAllocations layer = none ∧ fullAllocations layer = none

/-- No second branch. -/
def DualAttentionState.empty : DualAttentionState :=
  { alternate := BranchState.empty
    concurrentAlternateSession := Session.empty
    concurrentPrimaryMatrixProvider := false
    concurrentAlternateMatrixProvider := false
    linearAllocations := fun _ => none
    fullAllocations := fun _ => none
    sessionGeneration := 0
    promptTokenIdsFnv1a64 := 0
    allocationBytes := 0
    lazyAlternateStepsRemaining := 0
    concurrentAlternateReady := false
    valid := false
    bytes_counted := fun _ _ => ⟨rfl, rfl⟩ }

/-- The allocations of the layers of the second branch. -/
def DualAttentionState.layerAllocations (dual : DualAttentionState) : List Nat :=
  (List.range layerCount).flatMap fun layer =>
    (dual.linearAllocations layer).toList ++ (dual.fullAllocations layer).toList

/-- The allocations of the second branch: those of its layers and those of the workspace of the
    session that runs it. -/
def DualAttentionState.owned (dual : DualAttentionState) : List Nat :=
  dual.layerAllocations ++ dual.concurrentAlternateSession.resources.owned

/-- The layers that a suffix leads to. -/
structure SuffixCacheState where
  branch : BranchState
  linearAllocations : Nat → Option Nat
  fullAttentionTailAllocations : Nat → Option Nat
  fullAttentionTailContiguous : Nat → Bool
  sessionGeneration : UInt64
  promptTokenIdsFnv1a64 : UInt64
  suffixTokenIdsFnv1a64 : UInt64
  allocationBytes : Nat
  valid : Bool

/-- No suffix. -/
def SuffixCacheState.empty : SuffixCacheState :=
  { branch := BranchState.empty
    linearAllocations := fun _ => none
    fullAttentionTailAllocations := fun _ => none
    fullAttentionTailContiguous := fun _ => false
    sessionGeneration := 0
    promptTokenIdsFnv1a64 := 0
    suffixTokenIdsFnv1a64 := 0
    allocationBytes := 0
    valid := false }

/-- The allocations of the cache. -/
def SuffixCacheState.owned (cache : SuffixCacheState) : List Nat :=
  pointersOf (List.range layerCount) cache.linearAllocations ++
    pointersOf (List.range layerCount) cache.fullAttentionTailAllocations

/-- What the last replacement of a session did. -/
structure EvictionTelemetry where
  evictionCount : UInt64
  lastEvictedSessionGeneration : UInt64
  lastEvictedPromptTokenIdsFnv1a64 : UInt64
  lastResidentStateBytesBefore : Nat
  lastResidentStateBytesAfterRelease : Nat
  lastResidentStateBytesReleased : Nat
  lastReplacementSessionGeneration : UInt64
  lastReplacementPromptTokenIdsFnv1a64 : UInt64
  lastReplacementResidentStateBytes : Nat
  lastEvictionElapsedNs : Nat
  lastEvictionCompleted : Bool
  lastEvictionCleanupSafe : Bool
  lastEvictionSameOwner : Bool
  lastReplacementCompleted : Bool
  lastMarkerPending : Bool
deriving DecidableEq, Repr

/-- Nothing was replaced yet. -/
def EvictionTelemetry.empty : EvictionTelemetry :=
  { evictionCount := 0, lastEvictedSessionGeneration := 0
    lastEvictedPromptTokenIdsFnv1a64 := 0, lastResidentStateBytesBefore := 0
    lastResidentStateBytesAfterRelease := 0, lastResidentStateBytesReleased := 0
    lastReplacementSessionGeneration := 0, lastReplacementPromptTokenIdsFnv1a64 := 0
    lastReplacementResidentStateBytes := 0, lastEvictionElapsedNs := 0
    lastEvictionCompleted := false, lastEvictionCleanupSafe := false
    lastEvictionSameOwner := false, lastReplacementCompleted := false
    lastMarkerPending := false }

/-! ## The process -/

/-- What the process keeps. The session is the active one. The thread has a provider of matrix
    products, or the second branch has borrowed it. -/
structure State where
  session : Session
  dual : DualAttentionState
  suffixCache : SuffixCacheState
  matrixProvider : Bool
  generationClock : UInt64
  telemetry : EvictionTelemetry
  heap : Heap

/-- The process before the first request. -/
def State.initial : State :=
  { session := Session.empty
    dual := DualAttentionState.empty
    suffixCache := SuffixCacheState.empty
    matrixProvider := false
    generationClock := 0
    telemetry := EvictionTelemetry.empty
    heap := Heap.empty }

/-- The allocations of a process. -/
def State.owned (state : State) : List Nat :=
  state.dual.owned ++ state.session.resources.owned ++ state.suffixCache.owned ++
    state.session.owned

/-- The bytes that a process owns for its session. -/
def State.ownedBytes (state : State) : Nat :=
  state.session.linearRecurrentStateBytes + state.session.linearQkvRingBytes +
    state.session.fullAttentionKvBytes + state.session.fullAttentionDecodeTailBytes +
    state.dual.allocationBytes + state.suffixCache.allocationBytes +
    state.session.resources.allocationBytes +
    state.session.resources.fullAttentionScoreScratchAllocationBytes +
    state.session.resources.directOutputAllocationBytes

end Process

end QrtEngine
