import QrtEngine.Provider.Release
import QrtEngine.Provider.Session

/-!
# Capturing a Session

A prefill captures a session. The capture first releases the session that was there. If that one
was complete, it is a replacement, and the telemetry says what was evicted and that a replacement
is pending. The layers are captured while the prefill runs. In the end the capture is finalized:
the workspace of the session is set up, everything is checked, and a session that fails a check is
released again. A prefill that fails on the way destroys its capture without finalizing it.

The capacity snapshot reports the session and the telemetry. It refuses to report a session that
is neither complete nor empty, and a replacement that is not complete.

## Main definitions

* `beginCapture`, `finalizeCapture`, `destroyCapture`: The life of a capture.
* `prefill`, `decode`, `continueFrom`, `reset`: The requests.
* `capacitySnapshot`: The snapshot.
* `step`: The requests as one machine.
-/

namespace QrtEngine

namespace Process

open QrtEngine.Core
open QrtEngine.Layered

/-! ## Beginning -/

/-- What a prefill asks of the capture. -/
structure CaptureRequest where
  requested : Bool
  routeActive : Bool
  prefixTokens : Nat
  ownerEngine : Option Nat
  modelDir : String
deriving DecidableEq, Repr

/-- A capture: whether it captures a session, and whether the layers are captured. -/
structure Capture where
  requested : Bool
  active : Bool
deriving DecidableEq, Repr

/-- The session that is there is complete, so that a capture replaces it. -/
def State.replacementEviction (state : State) : Bool :=
  state.session.valid && state.session.providerCompleted && state.session.generation != 0 &&
    state.session.promptTokenIdsFnv1a64 != 0 && state.session.ownerEngine.isSome &&
    state.ownedBytes != 0

/-- What is written down about a session that is replaced. -/
def evicted (state released : State) (request : CaptureRequest) (elapsedNs : Nat) :
    EvictionTelemetry :=
  { evictionCount := released.telemetry.evictionCount + 1
    lastEvictedSessionGeneration := state.session.generation
    lastEvictedPromptTokenIdsFnv1a64 := state.session.promptTokenIdsFnv1a64
    lastResidentStateBytesBefore := state.ownedBytes
    lastResidentStateBytesAfterRelease := released.ownedBytes
    lastResidentStateBytesReleased := state.ownedBytes - released.ownedBytes
    lastReplacementSessionGeneration := Resident.nextGeneration released.generationClock
    lastReplacementPromptTokenIdsFnv1a64 := 0
    lastReplacementResidentStateBytes := 0
    lastEvictionElapsedNs := elapsedNs
    lastEvictionCompleted := true
    lastEvictionCleanupSafe := true
    lastEvictionSameOwner := state.session.ownerEngine == request.ownerEngine
    lastReplacementCompleted := false
    lastMarkerPending := true }

/-- A capture that captures a session. -/
def CaptureRequest.capture (request : CaptureRequest) : Capture :=
  { requested := true, active := request.routeActive && prefixSupported request.prefixTokens }

/-- The session of a capture, once the one that was there is released. -/
def beginSession (request : CaptureRequest) (elapsedNs : Nat) (state released : State) : State :=
  { released with
    session := { released.session with
      requested := true
      routeActive := request.routeActive
      prefixTokens := request.prefixTokens
      ownerEngine := request.ownerEngine
      modelDir := request.modelDir
      generation := Resident.nextGeneration released.generationClock }
    generationClock := Resident.nextGeneration released.generationClock
    telemetry := if state.replacementEviction then evicted state released request elapsedNs
      else released.telemetry }

/-- Begin a capture. A prefill that captures nothing releases the session all the same, and a
    session that cannot be released is not captured over. -/
def beginCapture (release : ReleaseOutcome) (elapsedNs : Nat) (request : CaptureRequest)
    (state : State) : Capture × State :=
  let released := releaseSession release state
  if !request.requested || !released.1 then
    ({ requested := false, active := false }, released.2)
  else (request.capture, beginSession request elapsedNs state released.2)

/-- What the layers of a session are when the prefill has run. -/
structure CapturedLayers where
  linearLayers : Nat → LinearLayer
  fullAttentionLayers : Nat → FullLayer
  linearCapturedMask : UInt64
  fullAttentionCapturedMask : UInt64
  linearRecurrentStateBytes : Nat
  linearQkvRingBytes : Nat
  fullAttentionKvBytes : Nat
  fullAttentionDecodeTailBytes : Nat
  captureFailureCount : Nat
  heap : Heap

/-- The session with the layers that were captured. -/
def captureLayers (layers : CapturedLayers) (state : State) : State :=
  { state with
    session := { state.session with
      linearLayers := layers.linearLayers
      fullAttentionLayers := layers.fullAttentionLayers
      linearCapturedMask := layers.linearCapturedMask
      fullAttentionCapturedMask := layers.fullAttentionCapturedMask
      linearRecurrentStateBytes := layers.linearRecurrentStateBytes
      linearQkvRingBytes := layers.linearQkvRingBytes
      fullAttentionKvBytes := layers.fullAttentionKvBytes
      fullAttentionDecodeTailBytes := layers.fullAttentionDecodeTailBytes
      captureFailureCount := layers.captureFailureCount }
    heap := layers.heap }

/-! ## Finalizing -/

/-- The mask of the layers that attend in one way. -/
def layerMask (kind : AttentionKind) : UInt64 :=
  ((List.range layerCount).filter fun layer => attentionKind layer == kind).foldl
    (fun mask layer => mask ||| ((1 : UInt64) <<< UInt64.ofNat layer)) 0

/-- How large the workspace is: three hidden states, a norm, two wide rows, the linear projections,
    two cores and the metadata. Each is a multiple of the alignment. -/
def activationWorkspaceBytes : Nat :=
  3 * (2048 * 4) + 2048 * 2 + 2 * (9216 * 4) + (4096 + 2 * 32) * 4 + 2 * (4096 * 4) + 256

/-- What happens when a capture is finalized: whether the provider has completed, what the prompt
    was, and how setting up the workspace ends. -/
structure FinalizeOutcome where
  providerCompleted : Bool
  promptDigest : UInt64
  workspaceStatus : Bool
  workspace : Workspace
  resources : Resources
  heap : Heap
  interiorLayoutValid : Bool
  directOutputPlanValid : Bool
  preboundLayerPlanValid : Bool
  aggregateRunMetadataRequested : Bool
  aggregateRunMetadataReady : Bool

/-- Everything is there that the workspace needs. -/
def workspacePrerequisites (capture : Capture) (outcome : FinalizeOutcome) (session : Session) :
    Bool :=
  capture.active && outcome.providerCompleted && session.ownerEngine.isSome &&
    session.modelDir != "" &&
    (session.linearCapturedMask &&& layerMask .linear) == layerMask .linear &&
    (layerMask .linear &&& ~~~session.linearCapturedMask) == 0 &&
    (layerMask .full &&& ~~~session.fullAttentionCapturedMask) == 0

/-- A session gets a workspace if everything is there and every layer was captured. -/
def setsUpWorkspace (capture : Capture) (outcome : FinalizeOutcome) (session : Session) : Bool :=
  workspacePrerequisites capture outcome session && session.captureFailureCount == 0

/-- The session with its workspace, if it gets one. -/
def setUpWorkspace (capture : Capture) (outcome : FinalizeOutcome) (session : Session) : Session :=
  if setsUpWorkspace capture outcome session then
    { session with
      activationWorkspace := outcome.workspace
      resources := outcome.resources
      captureFailureCount := if outcome.workspaceStatus then 0 else 1 }
  else session

/-- The workspace is laid out as it must be. -/
def workspaceLayoutValid (outcome : FinalizeOutcome) (session : Session) : Bool :=
  session.resources.deviceAllocation.isSome &&
    session.resources.fullAttentionScoreScratchAllocation.isSome &&
    session.resources.allocationBytes == activationWorkspaceBytes &&
    session.activationWorkspace.generation != 0 && outcome.interiorLayoutValid

/-- The session has passed every check. The status of a workspace that was not set up is not
    looked at, because the prerequisites were then not met or a layer was not captured. -/
def captureValid (capture : Capture) (outcome : FinalizeOutcome) (session : Session) : Bool :=
  workspacePrerequisites capture outcome session && outcome.workspaceStatus &&
    (session.activationWorkspace.valid &&
      session.activationWorkspace.generation == session.generation &&
      workspaceLayoutValid outcome session && outcome.directOutputPlanValid &&
      outcome.preboundLayerPlanValid &&
      (!outcome.aggregateRunMetadataRequested || outcome.aggregateRunMetadataReady)) &&
    session.captureFailureCount == 0

/-- What is written down when the capture of a replacement is finalized. -/
def replaced (state : State) (promptDigest : UInt64) (valid : Bool) : EvictionTelemetry :=
  if state.telemetry.lastMarkerPending &&
      state.telemetry.lastReplacementSessionGeneration == state.session.generation then
    { state.telemetry with
      lastReplacementPromptTokenIdsFnv1a64 := promptDigest
      lastReplacementResidentStateBytes := state.ownedBytes
      lastReplacementCompleted := valid
      lastMarkerPending := false }
  else state.telemetry

/-- The state in which a session has been checked. -/
def checked (capture : Capture) (outcome : FinalizeOutcome) (state : State) : State :=
  let session := setUpWorkspace capture outcome state.session
  let valid := captureValid capture outcome session
  { state with
    session := { session with
      providerCompleted := outcome.providerCompleted
      promptTokenIdsFnv1a64 := outcome.promptDigest
      valid := valid }
    telemetry := replaced { state with session := session } outcome.promptDigest valid
    heap := if setsUpWorkspace capture outcome state.session then outcome.heap else state.heap }

/-- Finalize a capture. A session that has failed a check is released. -/
def finalizeCapture (release : ReleaseOutcome) (capture : Capture) (outcome : FinalizeOutcome)
    (state : State) : State :=
  let finalized := checked capture outcome state
  if finalized.session.valid then finalized else (releaseSession release finalized).2

/-- Destroy a capture that was not finalized. -/
def destroyCapture (release : ReleaseOutcome) (capture : Capture) (state : State) : State :=
  if capture.requested then (releaseSession release state).2 else state

/-! ## Requests -/

/-- A prefill: whether it gets to the capture, what is captured, and how it ends. The first token
    is written down if it is one. -/
structure PrefillRun where
  captures : Bool
  request : CaptureRequest
  release : ReleaseOutcome
  releaseElapsedNs : Nat
  layers : CapturedLayers
  ending : Option FinalizeOutcome
  endRelease : ReleaseOutcome
  firstToken : Option UInt32

/-- Write down the first token. -/
def State.setFirstToken (state : State) (token : Option UInt32) : State :=
  match token with
  | some token =>
      if state.session.valid then
        { state with
          session := { state.session with currentTokenId := token, currentTokenValid := true } }
      else state
  | none => state

/-- The state of a prefill whose layers are captured. -/
def PrefillRun.captured (run : PrefillRun) (state : State) : Capture × State :=
  let begun := beginCapture run.release run.releaseElapsedNs run.request state
  if begun.1.requested then (begun.1, captureLayers run.layers begun.2) else begun

/-- A prefill. -/
def prefill (run : PrefillRun) (state : State) : State :=
  if !run.captures then state
  else
    let captured := run.captured state
    if !captured.1.requested then captured.2
    else
      match run.ending with
      | none => destroyCapture run.endRelease captured.1 captured.2
      | some outcome =>
          (finalizeCapture run.endRelease captured.1 outcome captured.2).setFirstToken
            run.firstToken

/-- A prefill that captures nothing only releases the session. -/
theorem prefill_unrequested (run : PrefillRun) (state : State) (hcaptures : run.captures = true)
    (hrequested : run.request.requested = false) :
    prefill run state = (releaseSession run.release state).2 := by
  unfold prefill PrefillRun.captured beginCapture
  rw [hcaptures, hrequested]
  rfl

/-- What serving a request leaves of the session and beside it, and whether the session can still
    be used. -/
structure Served where
  stillValid : Bool
  workspace : Workspace
  dual : DualAttentionState
  suffixCache : SuffixCacheState
  matrixProvider : Bool
  heap : Heap

/-- The state when a request was served. -/
def serve (served : Served) (state : State) : State :=
  { state with
    session := { state.session with
      activationWorkspace := served.workspace
      valid := state.session.valid && served.stillValid }
    dual := served.dual
    suffixCache := served.suffixCache
    matrixProvider := served.matrixProvider
    heap := served.heap }

/-- A decode: whether the session is the one it continues, what it leaves, and the branch it gets
    to. -/
structure DecodeRun where
  accepted : Bool
  served : Served
  branch : BranchState

/-- A decode. -/
def decode (run : DecodeRun) (state : State) : State :=
  if !(state.session.valid && run.accepted) then state
  else
    let served := serve run.served state
    { served with
      session := { served.session with
        toSessionState := installBranch run.branch served.session.toSessionState } }

/-- A prefix request: whether it gets to its shadow, whether the session is the one it continues,
    and what is left when the shadow was rolled back. -/
structure PrefixRun where
  reachesShadow : Bool
  release : ReleaseOutcome
  accepted : Bool
  served : Served

/-- A prefix request. The second branch is retired before the session is looked at. -/
def continueFrom (run : PrefixRun) (state : State) : State :=
  if !run.reachesShadow then state
  else
    let retired := releaseDual run.release state
    if !(retired.1 && retired.2.session.valid && run.accepted) then retired.2
    else serve run.served retired.2

/-- The session as a reset looks at it. There is one engine, so the owner is that engine or
    nobody. -/
def State.summary (state : State) : Resident.Session :=
  { valid := state.session.valid
    requested := state.session.requested
    routeActive := state.session.routeActive
    providerCompleted := state.session.providerCompleted
    owned := state.session.ownerEngine.isSome
    prefixTokens := state.session.prefixTokens
    generation := state.session.generation
    promptDigest := state.session.promptTokenIdsFnv1a64
    committedDecodeTokenCount := state.session.committedDecodeTokenCount
    currentTokenValid := state.session.currentTokenValid
    ownedBytes := state.ownedBytes }

/-- A reset. -/
def reset (release : ReleaseOutcome) (request : ResetRequest) (state : State) : State :=
  if Resident.resetRequestValid request && Resident.resetIdentityMatch state.summary request then
    (releaseSession release state).2
  else state

/-! ## The snapshot -/

/-- The slot holds a complete session. -/
def State.occupied (state : State) : Bool :=
  state.session.valid && state.session.providerCompleted && state.session.ownerEngine.isSome &&
    state.session.generation != 0 && state.session.promptTokenIdsFnv1a64 != 0

/-- The slot is empty or holds a complete session. -/
def State.currentStateValid (state : State) : Bool :=
  (!state.occupied && state.session.ownerEngine.isNone && state.session.generation == 0 &&
      state.session.promptTokenIdsFnv1a64 == 0 && state.ownedBytes == 0) ||
    (state.occupied && state.ownedBytes != 0)

/-- Nothing was replaced, or the last replacement is complete. -/
def EvictionTelemetry.stateValid (eviction : EvictionTelemetry) : Bool :=
  (eviction.evictionCount == 0 && !eviction.lastEvictionCompleted &&
      !eviction.lastReplacementCompleted) ||
    (eviction.evictionCount != 0 && eviction.lastEvictionCompleted &&
      eviction.lastEvictionCleanupSafe && eviction.lastResidentStateBytesBefore != 0 &&
      eviction.lastResidentStateBytesAfterRelease == 0 &&
      eviction.lastResidentStateBytesReleased == eviction.lastResidentStateBytesBefore &&
      eviction.lastReplacementSessionGeneration != 0 &&
      eviction.lastReplacementPromptTokenIdsFnv1a64 != 0 &&
      eviction.lastReplacementResidentStateBytes != 0 && eviction.lastReplacementCompleted)

/-- What the snapshot reports. -/
structure CapacityResult where
  completed : Bool
  engineRegistered : Bool
  occupiedSlots : Nat
  currentOwnerMatch : Bool
  providerGenerationClock : UInt64
  currentSessionGeneration : UInt64
  currentPromptTokenIdsFnv1a64 : UInt64
  currentResidentStateBytes : Nat
  lastSlotsBefore : Nat
  lastSlotsAfterRelease : Nat
  eviction : EvictionTelemetry
  failureStage : String
deriving DecidableEq, Repr

/-- The result of a snapshot that did not look at the state. -/
def snapshotRefused (stage : String) : CapacityResult :=
  { completed := false, engineRegistered := false, occupiedSlots := 0, currentOwnerMatch := false
    providerGenerationClock := 0, currentSessionGeneration := 0
    currentPromptTokenIdsFnv1a64 := 0, currentResidentStateBytes := 0, lastSlotsBefore := 0
    lastSlotsAfterRelease := 0, eviction := EvictionTelemetry.empty, failureStage := stage }

/-- The capacity snapshot. What was observed is reported even if it is refused. -/
def capacitySnapshot (engine : Option Nat) (liveEngines : List Nat) (state : State) :
    CapacityResult :=
  match engine with
  | none => snapshotRefused "qwen36_resident_prefix_cache_capacity_snapshot_request"
  | some engine =>
      if !liveEngines.contains engine then
        snapshotRefused "qwen36_resident_prefix_cache_capacity_snapshot_identity"
      else
        let incomplete := !state.currentStateValid || !state.telemetry.stateValid ||
          state.telemetry.lastMarkerPending
        { completed := !incomplete
          engineRegistered := true
          occupiedSlots := if state.occupied then 1 else 0
          currentOwnerMatch := state.occupied && state.session.ownerEngine == some engine
          providerGenerationClock := state.generationClock
          currentSessionGeneration := if state.occupied then state.session.generation else 0
          currentPromptTokenIdsFnv1a64 :=
            if state.occupied then state.session.promptTokenIdsFnv1a64 else 0
          currentResidentStateBytes := if state.occupied then state.ownedBytes else 0
          lastSlotsBefore := if state.telemetry.evictionCount != 0 then 1 else 0
          lastSlotsAfterRelease := 0
          eviction := state.telemetry
          failureStage :=
            if incomplete then "qwen36_resident_prefix_cache_capacity_snapshot_state" else "" }

/-! ## The machine -/

/-- The requests that an engine makes of the provider. -/
inductive Request where
  | prefill (run : PrefillRun)
  | decode (run : DecodeRun)
  | continueFrom (run : PrefixRun)
  | reset (release : ReleaseOutcome) (request : ResetRequest)

/-- The state after a request. -/
def perform (request : Request) (state : State) : State :=
  match request with
  | .prefill run => prefill run state
  | .decode run => decode run state
  | .continueFrom run => continueFrom run state
  | .reset release request => reset release request state

/-- A step of the provider. Every request is answered. -/
def step (state : State) (request : Request) : Option State := some (perform request state)

end Process

end QrtEngine
