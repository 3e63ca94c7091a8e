import QrtEngine.Provider.Layers

/-!
# The Decode Lease

Decoding works on the session through a lease. A token is begun, its layers are begun and ended
one after the other, the token is ended, and then it is committed. Between the begin and the end
of a layer its caches are advanced and its output is published for the next layer. Every
operation checks that it is its turn. If it is not, the token is aborted and the session is given
up.

What the device answers is a parameter of each operation: whether the layout and the plan of the
workspace are still in order, whether the surfaces of a kernel are those it expects, whether a
kernel was launched, an event recorded, or a stream synchronized. What the corridors write beside
the counters, the prefetch of the next token and the norm borrowed for the next layer, is an
operation of its own that writes anything.

## Main definitions

* `Lease`, `Held`: The lease, and the lease with the session it holds.
* `beginActivationToken`, `beginActivationLayer`, `endActivationLayer`, `endActivationToken`,
  `commitToken`: The operations on the token.
* `advanceCache`, `publishHiddenCarrier`: What the corridors do to the active layer.
* `Operation`, `perform`: The operations as one machine.
-/

namespace QrtEngine

namespace Layered

open QrtEngine.Core

/-! ## The lease -/

/-- What the environment asks for: layer 0 of the next token is computed ahead, and the last layer
    keeps narrow elements. -/
structure LeaseConfig where
  deviceTokenLayer0Overlap : Bool
  terminalBf16 : Bool
deriving DecidableEq, Repr

/-- The lease. -/
structure Lease where
  generation : UInt64
  ready : Bool
  workSubmitted : Bool
  outputCopyFenced : Bool
  outputCopyComputePending : Bool
deriving DecidableEq, Repr

/-- A lease and the session it holds. -/
structure Held where
  lease : Lease
  session : SessionState

/-- Whether the layout of the workspace and its plan of layers are in order. -/
structure Checks where
  layoutValid : Bool
  planValid : Bool
deriving DecidableEq, Repr

/-- Who asks for a lease, and for which session. Zero and `none` ask for any. -/
structure Expected where
  ownerEngine : Option Nat
  modelDir : Option String
  generation : UInt64
  promptTokenIdsFnv1a64 : UInt64
deriving DecidableEq, Repr

/-- Take a lease of the session. -/
def acquireLease (expected : Expected) (layoutValid : Bool) (session : SessionState) : Lease :=
  let workspace := session.activationWorkspace
  { generation := session.generation
    ready := session.valid && session.providerCompleted && prefixSupported session.prefixTokens &&
      workspace.valid && workspace.generation == session.generation && !workspace.inUse &&
      workspace.phase == .idle && layoutValid &&
      (expected.generation == 0 || expected.generation == session.generation) &&
      (expected.ownerEngine == none || expected.ownerEngine == session.ownerEngine) &&
      (expected.modelDir == none || expected.modelDir == some session.modelDir) &&
      (expected.promptTokenIdsFnv1a64 == 0 ||
        expected.promptTokenIdsFnv1a64 == session.promptTokenIdsFnv1a64)
    workSubmitted := false
    outputCopyFenced := false
    outputCopyComputePending := false }

namespace Held

/-- The lease is still one of this session. -/
def ready (held : Held) : Bool :=
  held.lease.ready && held.lease.generation == held.session.generation

/-- The workspace can be worked in. -/
def activationWorkspaceReady (held : Held) (checks : Checks) : Bool :=
  let workspace := held.session.activationWorkspace
  held.lease.ready && held.lease.generation != 0 &&
    held.lease.generation == held.session.generation && workspace.valid &&
    workspace.generation == held.lease.generation && checks.layoutValid && checks.planValid

/-- Give up the token and the session. A workspace that is not the lease's is left alone. -/
def abortActivationWorkspace (held : Held) : Held :=
  let workspace := held.session.activationWorkspace
  if workspace.generation != held.lease.generation || !workspace.allocated then
    { lease := { held.lease with ready := false }
      session := { held.session with valid := false } }
  else
    { lease := { held.lease with ready := false }
      session :=
        { held.session with
          activationWorkspace :=
            { ({ workspace with prefetch := none } : Workspace).resetSequence with valid := false }
          valid := false } }

/-- An operation out of turn. -/
def guardFailure (held : Held) : Bool × Held := (false, held.abortActivationWorkspace)

/-- Give up the lease. -/
def invalidate (held : Held) : Held :=
  let aborted := held.abortActivationWorkspace
  { lease := { aborted.lease with ready := false }
    session := { aborted.session with valid := false } }

/-- Kernels were launched. -/
def markWorkSubmitted (held : Held) : Held :=
  { held with lease := { held.lease with workSubmitted := true } }

/-- The position of the token that is decoded next. -/
def expectedPosition (held : Held) : Nat :=
  held.session.prefixTokens + held.session.committedDecodeTokenCount

end Held

/-! ## Operations on the token -/

/-- The element kind a layer works in. -/
def nativeKind (cfg : LeaseConfig) (kind : AttentionKind) (layer : Nat) : ElementKind :=
  match kind with
  | .full => if layer + 1 = layerCount ∧ cfg.terminalBf16 = false then .f32 else .bf16
  | .linear => if layer < 2 then .f32 else .bf16

/-- What was computed ahead belongs to the token that is begun, or there is nothing and the
    request may start without. -/
def prefetchStateValid (cfg : LeaseConfig) (workspace : Workspace) (position : Nat)
    (coldStartAllowed : Bool) : Bool :=
  if cfg.deviceTokenLayer0Overlap then
    match workspace.prefetch with
    | some prefetch => prefetch.position == position && decide (prefetch.tokenId < vocabSize)
    | none => coldStartAllowed
  else workspace.prefetch == none

/-- Begin a token. The event that marks the begin is recorded after the workspace is taken. -/
def beginActivationToken (cfg : LeaseConfig) (checks : Checks) (recorded : Bool) (position : Nat)
    (coldStartAllowed : Bool) (held : Held) : Bool × Held :=
  let workspace := held.session.activationWorkspace
  if !(held.activationWorkspaceReady checks && !workspace.inUse && workspace.phase == .idle &&
      workspace.activeLayerIndex == none && position == held.expectedPosition &&
      prefetchStateValid cfg workspace position coldStartAllowed) then
    held.guardFailure
  else
    let begun : Held :=
      { held with
        session := held.session.setWorkspace
          { workspace with
            inUse := true
            phase := .tokenActive
            activeTokenPosition := some position
            nextLayerIndex := 0
            hiddenCarrierTokenPosition := none
            hiddenCarrierProducerLayer := none
            hiddenCarrierReady := false
            nextInputRmsnorm := false
            requestColdStart := cfg.deviceTokenLayer0Overlap && coldStartAllowed &&
              workspace.prefetch == none } }
    if !recorded then begun.guardFailure else (true, begun)

/-- The caches of a layer stand where the token begins. -/
def cacheReady (session : SessionState) (kind : AttentionKind) (native : ElementKind)
    (layer : Nat) : Bool :=
  let committed := session.committedDecodeTokenCount
  let position := session.activationWorkspace.activeTokenPosition
  match kind with
  | .full =>
      let entry := session.fullAttentionLayers layer
      entry.valid && entry.elementKind == native && entry.decodeTailTokenCount == committed &&
        some (entry.historyTokens + entry.decodeTailTokenCount) == position
  | .linear =>
      let entry := session.linearLayers layer
      entry.valid && entry.qkvElementKind == native && entry.decodeQkvTokenCount == committed &&
        entry.decodeRecurrentTokenCount == committed &&
        some (entry.prefixTokens + entry.decodeQkvTokenCount) == position

/-- The output of the layer before is there. -/
def hiddenFrontierReady (workspace : Workspace) (position layer : Nat) : Bool :=
  if layer = 0 then
    !workspace.hiddenCarrierReady && workspace.hiddenCarrierProducerLayer == none
  else
    workspace.hiddenCarrierReady && workspace.hiddenCarrierTokenPosition == some position &&
      workspace.hiddenCarrierProducerLayer.map (· + 1) == some layer

/-- Begin a layer. -/
def beginActivationLayer (cfg : LeaseConfig) (checks : Checks) (layer : Nat)
    (kind : AttentionKind) (element : ElementKind) (held : Held) : Bool × Held :=
  let workspace := held.session.activationWorkspace
  if !(held.activationWorkspaceReady checks && workspace.inUse &&
      workspace.phase == .tokenActive &&
      workspace.activeTokenPosition == some held.expectedPosition &&
      layer == workspace.nextLayerIndex && decide (layer < layerCount) &&
      attentionKind layer == kind && element == nativeKind cfg kind layer &&
      cacheReady held.session kind (nativeKind cfg kind layer) layer &&
      hiddenFrontierReady workspace held.expectedPosition layer) then
    held.guardFailure
  else
    (true,
      { held with
        session := held.session.setWorkspace
          { workspace with
            activeLayerIndex := some layer
            activeAttentionKind := kind
            activeElementKind := element
            phase := .layerActive } })

/-- The caches of a layer have been advanced by one token. -/
def cacheAdvanced (session : SessionState) (kind : AttentionKind) (element : ElementKind)
    (layer : Nat) : Bool :=
  let expected := session.committedDecodeTokenCount + 1
  decide (layer < layerCount) &&
    match kind with
    | .full =>
        let entry := session.fullAttentionLayers layer
        entry.valid && entry.elementKind == element && entry.decodeTailTokenCount == expected
    | .linear =>
        let entry := session.linearLayers layer
        entry.valid && entry.qkvElementKind == element && entry.decodeQkvTokenCount == expected &&
          entry.decodeRecurrentTokenCount == expected

/-- End a layer. -/
def endActivationLayer (checks : Checks) (layer : Nat) (kind : AttentionKind)
    (element : ElementKind) (held : Held) : Bool × Held :=
  let workspace := held.session.activationWorkspace
  if !(held.activationWorkspaceReady checks && workspace.inUse &&
      workspace.phase == .layerActive && workspace.activeLayerIndex == some layer &&
      workspace.activeAttentionKind == kind && workspace.activeElementKind == element &&
      layer == workspace.nextLayerIndex && cacheAdvanced held.session kind element layer &&
      workspace.hiddenCarrierReady &&
      workspace.hiddenCarrierTokenPosition == workspace.activeTokenPosition &&
      workspace.hiddenCarrierProducerLayer == some layer) then
    held.guardFailure
  else
    (true,
      { held with
        session := held.session.setWorkspace
          { workspace with
            nextLayerIndex := layer + 1
            activeLayerIndex := none
            activeAttentionKind := .linear
            activeElementKind := .none
            phase := .tokenActive } })

/-- The output of the last layer is there. -/
def outputFrontierReady (workspace : Workspace) (position : Nat) : Bool :=
  workspace.activeLayerIndex == none && workspace.nextLayerIndex == layerCount &&
    workspace.activeTokenPosition == some position && workspace.hiddenCarrierReady &&
    workspace.hiddenCarrierTokenPosition == some position &&
    workspace.hiddenCarrierProducerLayer.map (· + 1) == some layerCount

/-- End a token. -/
def endActivationToken (checks : Checks) (position : Nat) (held : Held) : Bool × Held :=
  let workspace := held.session.activationWorkspace
  if !(held.activationWorkspaceReady checks && workspace.inUse &&
      workspace.phase == .tokenActive && outputFrontierReady workspace position &&
      position == held.expectedPosition && !workspace.nextInputRmsnorm &&
      held.lease.workSubmitted) then
    held.guardFailure
  else
    (true,
      { held with
        session := held.session.setWorkspace { workspace with phase := .tokenComplete } })

/-- A layer is complete for the commit. Layers are told apart by their number here. -/
def layerComplete (session : SessionState) (layer : Nat) : Bool :=
  let expected := session.committedDecodeTokenCount + 1
  if layer % 4 = 3 then
    let entry := session.fullAttentionLayers layer
    entry.valid && entry.decodeTailTokenCount == expected
  else
    let entry := session.linearLayers layer
    entry.valid && entry.decodeQkvTokenCount == expected &&
      entry.decodeRecurrentTokenCount == expected

/-- Commit a token. -/
def commitToken (checks : Checks) (position : Nat) (nextTokenId : UInt32) (held : Held) :
    Bool × Held :=
  let session := held.session
  let workspace := session.activationWorkspace
  if !(held.ready && position == held.expectedPosition && decide (nextTokenId < vocabSize) &&
      held.activationWorkspaceReady checks && workspace.inUse &&
      workspace.phase == .tokenComplete && outputFrontierReady workspace position) then
    held.guardFailure
  else if !(List.range layerCount).all (layerComplete session) then
    held.guardFailure
  else
    (true,
      { held with
        session :=
          { session with
            committedDecodeTokenCount := session.committedDecodeTokenCount + 1
            currentTokenId := nextTokenId
            currentTokenValid := true
            activationWorkspace := workspace.resetSequence } })

/-! ## What the corridors do -/

/-- How the caches of a layer are advanced: the ring of a linear layer, its recurrent state, both
    at once, or the tail of a fully attending layer. -/
inductive CacheStep where
  | conv
  | recurrent
  | fusedPost
  | tail
deriving DecidableEq, Repr

/-- The kind of layer a step is for. -/
def CacheStep.kind (cache : CacheStep) : AttentionKind :=
  match cache with
  | .conv => .linear
  | .recurrent => .linear
  | .fusedPost => .linear
  | .tail => .full

/-- A corridor works on the active layer. What else it compares, its inputs and its device
    surfaces, is the contract. -/
def corridorReady (checks : Checks) (kind : AttentionKind) (layer position : Nat)
    (contract : Bool) (held : Held) : Bool :=
  let workspace := held.session.activationWorkspace
  held.ready && held.activationWorkspaceReady checks && workspace.inUse &&
    workspace.phase == .layerActive && decide (layer < layerCount) &&
    attentionKind layer == kind && workspace.activeLayerIndex == some layer &&
    workspace.activeTokenPosition == some position && workspace.activeAttentionKind == kind &&
    contract

/-- A corridor that fails gives up the lease if it is still one. -/
def corridorFailure (held : Held) : Bool × Held :=
  if held.ready then (false, held.invalidate) else (false, held)

/-- What a step checks of the counters of its layer. The surfaces it checks are a parameter. -/
def stepReady (session : SessionState) (cache : CacheStep) (layer position : Nat)
    (surfaces : Bool) : Bool :=
  let committed := session.committedDecodeTokenCount
  let linear := session.linearLayers layer
  let full := session.fullAttentionLayers layer
  surfaces &&
    match cache with
    | .conv =>
        linear.valid && linear.decodeQkvTokenCount == committed &&
          position == linear.prefixTokens + linear.decodeQkvTokenCount
    | .recurrent =>
        linear.valid && linear.decodeRecurrentTokenCount == committed &&
          position == linear.prefixTokens + linear.decodeRecurrentTokenCount &&
          linear.decodeQkvTokenCount == linear.decodeRecurrentTokenCount + 1
    | .fusedPost =>
        decide (2 ≤ layer) && linear.valid && linear.decodeQkvTokenCount == committed &&
          linear.decodeRecurrentTokenCount == committed &&
          position == linear.prefixTokens + committed
    | .tail =>
        full.valid && decide (full.decodeTailTokenCount < full.decodeTailCapacityTokens) &&
          full.decodeTailCapacityTokens == maxTailTokens &&
          position == full.historyTokens + full.decodeTailTokenCount &&
          full.decodeTailTokenCount == committed

/-- The counters after a step. -/
def stepAdvance (session : SessionState) (cache : CacheStep) (layer : Nat) : SessionState :=
  let linear := session.linearLayers layer
  let full := session.fullAttentionLayers layer
  match cache with
  | .conv => session.setLinear layer
      { linear with decodeQkvTokenCount := linear.decodeQkvTokenCount + 1 }
  | .recurrent => session.setLinear layer
      { linear with decodeRecurrentTokenCount := linear.decodeRecurrentTokenCount + 1 }
  | .fusedPost => session.setLinear layer
      { linear with
        decodeQkvTokenCount := linear.decodeQkvTokenCount + 1
        decodeRecurrentTokenCount := linear.decodeRecurrentTokenCount + 1 }
  | .tail => session.setFull layer
      { full with decodeTailTokenCount := full.decodeTailTokenCount + 1 }

/-- Advance a cache of the active layer. The counter moves when the kernel was launched. A step
    that refuses only says so, and each of its callers then gives the lease up. -/
def advanceCache (checks : Checks) (cache : CacheStep) (layer position : Nat)
    (contract surfaces launched : Bool) (held : Held) : Bool × Held :=
  if !corridorReady checks cache.kind layer position contract held then
    corridorFailure held
  else if !stepReady held.session cache layer position surfaces then
    (false, held.invalidate)
  else if !launched then
    (false, held.invalidate)
  else
    (true,
      ({ held with session := stepAdvance held.session cache layer } : Held).markWorkSubmitted)

/-- Publish the output of the active layer. -/
def publishHiddenCarrier (checks : Checks) (layer position : Nat) (contract completed : Bool)
    (held : Held) : Bool × Held :=
  let workspace := held.session.activationWorkspace
  if !corridorReady checks workspace.activeAttentionKind layer position contract held then
    corridorFailure held
  else if !hiddenFrontierReady workspace position layer then
    corridorFailure held
  else if !completed then
    corridorFailure held
  else
    (true,
      { held with
        session := held.session.setWorkspace
          { workspace with
            hiddenCarrierReady := true
            hiddenCarrierTokenPosition := some position
            hiddenCarrierProducerLayer := some layer } })

/-- What the corridors leave beside the counters and the output. -/
structure SideState where
  nextInputRmsnorm : Bool
  prefetch : Option Prefetch
  requestColdStart : Bool
  workSubmitted : Bool
  outputCopyFenced : Bool
  outputCopyComputePending : Bool
deriving DecidableEq, Repr

/-- Leave it. -/
def writeSide (side : SideState) (held : Held) : Held :=
  { lease :=
      { held.lease with
        workSubmitted := side.workSubmitted
        outputCopyFenced := side.outputCopyFenced
        outputCopyComputePending := side.outputCopyComputePending }
    session := held.session.setWorkspace
      { held.session.activationWorkspace with
        nextInputRmsnorm := side.nextInputRmsnorm
        prefetch := side.prefetch
        requestColdStart := side.requestColdStart } }

/-! ## Waiting for the device -/

/-- Wait for the kernels of the lease. If the output was copied already, only what was computed
    ahead is still running, and there is nothing to wait for. -/
def synchronize (cfg : LeaseConfig) (synced : Bool) (held : Held) : Bool × Held :=
  if !held.ready then
    (false, held)
  else if !held.lease.workSubmitted then
    (true, held)
  else if cfg.deviceTokenLayer0Overlap && held.lease.outputCopyFenced &&
      held.session.activationWorkspace.prefetch.isSome == held.lease.outputCopyComputePending then
    (true,
      { held with
        lease :=
          { held.lease with
            workSubmitted := held.lease.outputCopyComputePending
            outputCopyFenced := false
            outputCopyComputePending := false } })
  else
    let waited : Held := { held with lease := { held.lease with workSubmitted := false } }
    if synced then (true, waited)
    else
      let aborted := waited.abortActivationWorkspace
      (false, { aborted with session := { aborted.session with valid := false } })

/-- The end of a lease. -/
def releaseLease (synced : Bool) (held : Held) : SessionState :=
  if held.lease.workSubmitted && !synced then
    { held.abortActivationWorkspace.session with valid := false }
  else held.session

/-! ## The machine -/

/-- The operations of the lease. -/
inductive Operation where
  | acquire (expected : Expected) (layoutValid : Bool)
  | beginToken (checks : Checks) (recorded : Bool) (position : Nat) (coldStartAllowed : Bool)
  | beginLayer (checks : Checks) (layer : Nat) (kind : AttentionKind) (element : ElementKind)
  | advance (checks : Checks) (cache : CacheStep) (layer position : Nat)
      (contract surfaces launched : Bool)
  | publish (checks : Checks) (layer position : Nat) (contract completed : Bool)
  | writeSide (side : SideState)
  | endLayer (checks : Checks) (layer : Nat) (kind : AttentionKind) (element : ElementKind)
  | endToken (checks : Checks) (position : Nat)
  | commit (checks : Checks) (position : Nat) (nextTokenId : UInt32)
  | synchronize (synced : Bool)
  | invalidate
  | release (synced : Bool)
deriving DecidableEq, Repr

/-- The session and the lease on it, if there is one. -/
structure LeaseState where
  session : SessionState
  lease : Option Lease

/-- What an operation does while a lease is held. There is no second lease, and the end of the
    lease is not an operation on it. -/
def performHeld (cfg : LeaseConfig) (operation : Operation) (held : Held) :
    Option (Bool × Held) :=
  match operation with
  | .acquire _ _ => none
  | .beginToken checks recorded position coldStartAllowed =>
      some (beginActivationToken cfg checks recorded position coldStartAllowed held)
  | .beginLayer checks layer kind element =>
      some (beginActivationLayer cfg checks layer kind element held)
  | .advance checks cache layer position contract surfaces launched =>
      some (advanceCache checks cache layer position contract surfaces launched held)
  | .publish checks layer position contract completed =>
      some (publishHiddenCarrier checks layer position contract completed held)
  | .writeSide side => some (true, Layered.writeSide side held)
  | .endLayer checks layer kind element =>
      some (endActivationLayer checks layer kind element held)
  | .endToken checks position => some (endActivationToken checks position held)
  | .commit checks position nextTokenId => some (commitToken checks position nextTokenId held)
  | .synchronize synced => some (Layered.synchronize cfg synced held)
  | .invalidate => some (true, held.invalidate)
  | .release _ => none

/-- What an operation does, and whether it succeeds. Whoever gets a lease that is not ready
    turns back at once. -/
def perform (cfg : LeaseConfig) (state : LeaseState) (operation : Operation) :
    Option (Bool × LeaseState) :=
  match state.lease, operation with
  | none, .acquire expected layoutValid =>
      let lease := acquireLease expected layoutValid state.session
      if lease.ready then some (true, { state with lease := some lease }) else some (false, state)
  | none, _ => none
  | some lease, .release synced =>
      let held : Held := { lease := lease, session := state.session }
      some (true, { session := releaseLease synced held, lease := none })
  | some lease, operation =>
      (performHeld cfg operation { lease := lease, session := state.session }).map fun result =>
        (result.1, { session := result.2.session, lease := some result.2.lease })

end Layered

end QrtEngine
