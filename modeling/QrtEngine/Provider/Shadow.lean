import QrtEngine.Library.Heap
import QrtEngine.Provider.Layers
import Mathlib.Data.List.ProdSigma

/-!
# The Shadow of a Session

A prefix request must not disturb the session it continues. It works on a shadow: every layer
that decoding writes to is copied to a new allocation, and the session is made to point to the
copies. In the end either the copies are kept and the allocations they replaced are freed, or the
session is set back to what it was and the copies are freed. Copying can fail at any layer.

Of a linear layer the one allocation is copied. Of a fully attending layer it is the allocation of
keys and values if the tail lies in it, and otherwise only the allocation of the tail, because the
prompt is never written to.

What the device answers is a parameter: how each copy ends, whether a stream could be
synchronized, whether the alternate branch could be retired, and whether the views of the weights
could be refreshed. Freeing succeeds.

## Main definitions

* `SessionState.pointer`: The allocations of a session, by place.
* `Transaction`: The session as it was and the copies.
* `openTransaction`, `rollback`, `commit`, `closeTransaction`: The transaction.
* `captureLinear`, `captureFull`: How a session gets its allocations.
* `step`: All of it as one machine.
-/

namespace QrtEngine

namespace Layered

/-! ## Allocations of a session -/

/-- The three pointers of a layer that own an allocation. -/
inductive Slot where
  | linear
  | full
  | tail
deriving DecidableEq, Repr

/-- The places of all owning pointers, layer by layer. -/
def places : List (Nat × Slot) := (List.range layerCount).product [.linear, .full, .tail]

/-- The owning pointer at a place. -/
def SessionState.pointer (session : SessionState) (place : Nat × Slot) : Option Nat :=
  match place.2 with
  | .linear => (session.linearLayers place.1).deviceAllocation
  | .full => (session.fullAttentionLayers place.1).deviceAllocation
  | .tail => (session.fullAttentionLayers place.1).deviceDecodeTailAllocation

/-- The allocations of a session. -/
def SessionState.owned (session : SessionState) : List Nat := pointersOf places session.pointer

/-- Two sessions have the same allocations, and layers of the same shape. Decoding keeps both. -/
def sameOwners (session other : SessionState) : Bool :=
  (List.range layerCount).all fun layer =>
    let linear := session.linearLayers layer
    let linear' := other.linearLayers layer
    let full := session.fullAttentionLayers layer
    let full' := other.fullAttentionLayers layer
    linear'.deviceAllocation == linear.deviceAllocation && linear'.valid == linear.valid &&
      full'.deviceAllocation == full.deviceAllocation &&
      full'.deviceDecodeTailAllocation == full.deviceDecodeTailAllocation &&
      full'.decodeTailContiguous == full.decodeTailContiguous && full'.valid == full.valid

end Layered

namespace Shadow

open QrtEngine.Layered

/-! ## The transaction -/

/-- The session as it was, if it was written down, and the copies, by the place of the pointer
    they replace. -/
structure Transaction where
  original : Option SessionState
  shadow : Nat × Slot → Option Nat
  ready : Bool
  committed : Bool

/-- The provider: the heap of the device, the session, what the alternate branch of an attention
    owns, and the transaction, if there is one. -/
structure Device where
  heap : Heap
  session : SessionState
  dual : List Nat
  transaction : Option Transaction

/-- Retire the alternate branch. If that fails, what it owns is freed all the same and the session
    is given up. -/
def Device.releaseDual (device : Device) (released : Bool) : Device :=
  { device with
    heap := device.heap.freeAll device.dual
    dual := []
    session := { device.session with valid := device.session.valid && released } }

/-! ### Copying -/

/-- How an allocation and a copy into it end. -/
inductive CopyOutcome where
  | mallocFails
  | copyFails
  | copied
deriving DecidableEq, Repr

/-- What the loops that copy the layers work on. -/
structure Clone where
  heap : Heap
  session : SessionState
  shadow : Nat × Slot → Option Nat

/-- The session with a copy of a linear layer. -/
def pointLinear (original session : SessionState) (layer allocation : Nat) : SessionState :=
  session.setLinear layer
    { session.linearLayers layer with
      deviceAllocation := some allocation
      deviceRecurrentState := some { allocation := allocation, offset := 0 }
      deviceQkvRing := some
        { allocation := allocation
          offset := (original.linearLayers layer).recurrentStateBytes } }

/-- The session with a copy of a fully attending layer, whole or only its tail. -/
def pointFull (original session : SessionState) (layer allocation : Nat) : SessionState :=
  let source := original.fullAttentionLayers layer
  let destination := session.fullAttentionLayers layer
  session.setFull layer
    (if source.decodeTailContiguous then
      { destination with
        deviceAllocation := some allocation
        deviceK := some { allocation := allocation, offset := 0 }
        deviceV := some
          { allocation := allocation, offset := source.kBytes + source.decodeTailKBytes }
        deviceDecodeTailAllocation := none
        deviceDecodeTailK := some { allocation := allocation, offset := source.kBytes }
        deviceDecodeTailV := some
          { allocation := allocation
            offset := source.kBytes + source.decodeTailKBytes + source.vBytes } }
    else
      { destination with
        deviceDecodeTailAllocation := some allocation
        deviceDecodeTailK := some { allocation := allocation, offset := 0 }
        deviceDecodeTailV := some
          { allocation := allocation, offset := source.decodeTailKBytes } })

/-- Allocate and copy. What was allocated is freed again if the copy fails. -/
def copyTo (outcome : CopyOutcome) (place : Nat × Slot) (point : Nat → SessionState)
    (clone : Clone) : Bool × Clone :=
  match outcome with
  | .mallocFails => (false, clone)
  | .copyFails =>
      (false, { clone with heap := clone.heap.alloc.2.freeAll [clone.heap.alloc.1] })
  | .copied =>
      (true,
        { heap := clone.heap.alloc.2
          session := point clone.heap.alloc.1
          shadow := Function.update clone.shadow place (some clone.heap.alloc.1) })

/-- Copy a linear layer, if it was captured. -/
def cloneLinear (original : SessionState) (outcome : Nat → CopyOutcome) (layer : Nat)
    (clone : Clone) : Bool × Clone :=
  if !(original.linearLayers layer).valid then (true, clone)
  else
    copyTo (outcome layer) (layer, .linear) (pointLinear original clone.session layer) clone

/-- Copy a fully attending layer, if it was captured. -/
def cloneFull (original : SessionState) (outcome : Nat → CopyOutcome) (layer : Nat)
    (clone : Clone) : Bool × Clone :=
  let source := original.fullAttentionLayers layer
  if !source.valid then (true, clone)
  else
    copyTo (outcome layer) (layer, if source.decodeTailContiguous then .full else .tail)
      (pointFull original clone.session layer) clone

/-- Copy layer after layer, up to the first that fails. -/
def cloneLayers (cloneLayer : Nat → Clone → Bool × Clone) : List Nat → Clone → Bool × Clone
  | [], clone => (true, clone)
  | layer :: layers, clone =>
      let result := cloneLayer layer clone
      if result.1 then cloneLayers cloneLayer layers result.2 else result

/-! ### Its operations -/

/-- What the device answers while a transaction is opened. -/
structure OpenOutcome where
  dualReleased : Bool
  prioritySynced : Bool
  linear : Nat → CopyOutcome
  full : Nat → CopyOutcome
  cloneSynced : Bool
  refreshed : Bool

/-- The session as it was. If the views of the weights are not refreshed it is given up. -/
def restored (original : SessionState) (refreshed : Bool) : SessionState :=
  { original with valid := original.valid && refreshed }

/-- Set the session back and free the copies. -/
def restoreOriginalAndFreeShadow (original : SessionState) (shadow : Nat × Slot → Option Nat)
    (refreshed : Bool) (device : Device) : Device :=
  { device with
    heap := device.heap.freeAll (pointersOf places shadow)
    session := restored original refreshed }

/-- A session of which a shadow can be taken. -/
def acceptsShadow (session : SessionState) (expectedGeneration expectedDigest : UInt64) : Bool :=
  session.valid && session.providerCompleted && session.generation != 0 &&
    session.generation == expectedGeneration &&
    session.promptTokenIdsFnv1a64 == expectedDigest && !session.activationWorkspace.inUse &&
    session.activationWorkspace.phase == .idle

/-- No copies. -/
def noShadow : Nat × Slot → Option Nat := fun _ => none

/-- Copy the layers of a session: first all linear ones, then those that attend fully. -/
def cloneSession (outcome : OpenOutcome) (device : Device) : Bool × Clone :=
  let original := device.session
  let begun : Clone := { heap := device.heap, session := original, shadow := noShadow }
  if !outcome.prioritySynced then (false, begun)
  else
    let linear := cloneLayers (cloneLinear original outcome.linear) (List.range layerCount) begun
    if !linear.1 then linear
    else
      let full := cloneLayers (cloneFull original outcome.full) (List.range layerCount) linear.2
      if !full.1 then full else (outcome.cloneSynced, full.2)

/-- Open a transaction. -/
def openTransaction (expectedGeneration expectedDigest : UInt64) (outcome : OpenOutcome)
    (device : Device) : Device :=
  let retired := device.releaseDual outcome.dualReleased
  if !outcome.dualReleased then
    { retired with
      transaction := some
        { original := none, shadow := noShadow, ready := false, committed := false } }
  else
    let closed : Transaction :=
      { original := some retired.session, shadow := noShadow, ready := false, committed := false }
    if !acceptsShadow retired.session expectedGeneration expectedDigest then
      { retired with transaction := some closed }
    else
      let clone := cloneSession outcome retired
      if !clone.1 then
        { restoreOriginalAndFreeShadow retired.session clone.2.shadow outcome.refreshed
            { retired with heap := clone.2.heap, session := clone.2.session } with
          transaction := some closed }
      else
        { retired with
          heap := clone.2.heap
          session := clone.2.session
          transaction := some { closed with shadow := clone.2.shadow, ready := true } }

/-- What the device answers at the end of a transaction. -/
structure EndOutcome where
  dualReleased : Bool
  synced : Bool
  refreshed : Bool
deriving DecidableEq, Repr

/-- The pointers to allocations are those of the original. -/
def originalAllocationsRestored (session original : SessionState) : Bool :=
  places.all fun place => session.pointer place == original.pointer place

/-- Set the session back to what it was. Whether the device could be synchronized is only
    reported. -/
def rollback (outcome : EndOutcome) (transaction : Transaction) (device : Device) :
    Bool × Device :=
  match transaction.original with
  | none => (false, device)
  | some original =>
      let retired := device.releaseDual outcome.dualReleased
      let back := restoreOriginalAndFreeShadow original transaction.shadow outcome.refreshed retired
      let unchanged := back.session.valid == original.valid &&
        back.session.generation == original.generation &&
        back.session.committedDecodeTokenCount == original.committedDecodeTokenCount &&
        back.session.currentTokenId == original.currentTokenId &&
        back.session.currentTokenValid == original.currentTokenValid &&
        originalAllocationsRestored back.session original
      (outcome.dualReleased && outcome.synced && unchanged,
        { back with
          transaction := some { transaction with shadow := noShadow, ready := false } })

/-- The allocations that a commit frees. -/
def replaced (original : SessionState) (place : Nat × Slot) : Option Nat :=
  match place.2 with
  | .linear => original.pointer place
  | .full =>
      if (original.fullAttentionLayers place.1).decodeTailContiguous then original.pointer place
      else none
  | .tail =>
      if (original.fullAttentionLayers place.1).decodeTailContiguous then none
      else original.pointer place

/-- Keep the copies and free what they replaced. -/
def commit (outcome : EndOutcome) (transaction : Transaction) (device : Device) :
    Bool × Device :=
  match transaction.original with
  | none => (false, device)
  | some original =>
      if !(transaction.ready && device.session.valid &&
          device.session.generation == original.generation) then
        (false, device)
      else
        let retired := device.releaseDual outcome.dualReleased
        if !outcome.dualReleased then
          (false, (rollback outcome transaction retired).2)
        else if !outcome.synced then
          (false, (rollback outcome transaction retired).2)
        else
          (true,
            { retired with
              heap := retired.heap.freeAll (pointersOf places (replaced original))
              transaction := some
                { transaction with shadow := noShadow, ready := false, committed := true } })

/-- The end of a transaction that was not ended otherwise. -/
def closeTransaction (outcome : EndOutcome) (transaction : Transaction) (device : Device) :
    Device :=
  let ended := if transaction.ready then (rollback outcome transaction device).2 else device
  { ended with transaction := none }

/-! ## Capturing and releasing -/

/-- What is captured of a linear layer. -/
structure LinearCapture where
  recurrentStateBytes : Nat
  qkvRingBytes : Nat
  prefixTokens : Nat
  qkvElementKind : ElementKind
  recurrentStateKeyMajor : Bool
deriving DecidableEq, Repr

/-- What is captured of a fully attending layer. -/
structure FullCapture where
  kBytes : Nat
  vBytes : Nat
  decodeTailKBytes : Nat
  decodeTailVBytes : Nat
  historyTokens : Nat
  decodeTailContiguous : Bool
  elementKind : ElementKind
deriving DecidableEq, Repr

/-- Capture a linear layer that was not captured yet. -/
def captureLinear (layer : Nat) (capture : LinearCapture) (outcome : CopyOutcome)
    (device : Device) : Device :=
  let destination := device.session.linearLayers layer
  let allocation := device.heap.alloc.1
  if destination.deviceAllocation != none then device
  else
    match outcome with
    | .mallocFails => device
    | .copyFails => { device with heap := device.heap.alloc.2.freeAll [allocation] }
    | .copied =>
        { device with
          heap := device.heap.alloc.2
          session := device.session.setLinear layer
            { destination with
              deviceAllocation := some allocation
              deviceRecurrentState := some { allocation := allocation, offset := 0 }
              deviceQkvRing := some
                { allocation := allocation, offset := capture.recurrentStateBytes }
              recurrentStateBytes := capture.recurrentStateBytes
              qkvRingBytes := capture.qkvRingBytes
              prefixTokens := capture.prefixTokens
              qkvElementKind := capture.qkvElementKind
              recurrentStateKeyMajor := capture.recurrentStateKeyMajor
              valid := true } }

/-- A fully attending layer as it is captured. -/
def capturedFull (capture : FullCapture) (allocation : Nat) (tail : Option Nat) : FullLayer :=
  let kCapacity := capture.kBytes +
    (if capture.decodeTailContiguous then capture.decodeTailKBytes else 0)
  let tailK : Address :=
    match tail with
    | some tail => { allocation := tail, offset := 0 }
    | none => { allocation := allocation, offset := capture.kBytes }
  let tailV : Address :=
    match tail with
    | some tail => { allocation := tail, offset := capture.decodeTailKBytes }
    | none => { allocation := allocation, offset := kCapacity + capture.vBytes }
  { deviceAllocation := some allocation
    deviceK := some { allocation := allocation, offset := 0 }
    deviceV := some { allocation := allocation, offset := kCapacity }
    deviceDecodeTailAllocation := tail
    deviceDecodeTailK := some tailK
    deviceDecodeTailV := some tailV
    kBytes := capture.kBytes
    vBytes := capture.vBytes
    decodeTailKBytes := capture.decodeTailKBytes
    decodeTailVBytes := capture.decodeTailVBytes
    decodeTailCapacityTokens := Core.maxTailTokens
    decodeTailTokenCount := 0
    historyTokens := capture.historyTokens
    decodeTailContiguous := capture.decodeTailContiguous
    elementKind := capture.elementKind
    valid := true }

/-- Capture a fully attending layer that was not captured yet. The tail is cleared, in the one
    allocation or in a second one. -/
def captureFull (layer : Nat) (capture : FullCapture) (outcome tailOutcome : CopyOutcome)
    (device : Device) : Device :=
  let destination := device.session.fullAttentionLayers layer
  let first := device.heap.alloc
  if destination.deviceAllocation != none then device
  else
    match outcome with
    | .mallocFails => device
    | .copyFails => { device with heap := first.2.freeAll [first.1] }
    | .copied =>
        if capture.decodeTailContiguous then
          if tailOutcome == .copied then
            { device with
              heap := first.2
              session := device.session.setFull layer (capturedFull capture first.1 none) }
          else { device with heap := first.2.freeAll [first.1] }
        else
          let second := first.2.alloc
          match tailOutcome with
          | .mallocFails => { device with heap := first.2.freeAll [first.1] }
          | .copyFails => { device with heap := second.2.freeAll [second.1, first.1] }
          | .copied =>
              { device with
                heap := second.2
                session :=
                  device.session.setFull layer (capturedFull capture first.1 (some second.1)) }

/-- The places in the order in which a session is released. -/
def releasePlaces : List (Nat × Slot) :=
  (List.range layerCount).map (fun layer => (layer, .linear)) ++
    (List.range layerCount).flatMap fun layer => [(layer, .tail), (layer, .full)]

theorem releasePlaces_perm : releasePlaces.Perm places := by
  decide +kernel

/-- A session that was released owns nothing. -/
theorem owned_empty : SessionState.empty.owned = [] :=
  pointersOf_none places _ fun place _ => by cases place with | mk layer slot => cases slot <;> rfl

/-- Release the session. -/
def releaseSession (device : Device) : Device :=
  { device with
    heap := (device.heap.freeAll device.dual).freeAll
      (pointersOf releasePlaces device.session.pointer)
    dual := []
    session := SessionState.empty }

/-! ## The machine -/

/-- The operations. Decoding changes the session and keeps its allocations, and may set up the
    alternate branch. -/
inductive DeviceOperation where
  | captureLinear (layer : Nat) (capture : LinearCapture) (outcome : CopyOutcome)
  | captureFull (layer : Nat) (capture : FullCapture) (outcome tailOutcome : CopyOutcome)
  | decode (session : SessionState)
  | branch
  | openTransaction (expectedGeneration expectedDigest : UInt64) (outcome : OpenOutcome)
  | rollback (outcome : EndOutcome)
  | commit (outcome : EndOutcome)
  | closeTransaction (outcome : EndOutcome)
  | release

/-- A step of the provider. Sessions are captured and released only while no transaction holds
    the lock, and nobody turns back a transaction that was committed. -/
def step (device : Device) (operation : DeviceOperation) : Option Device :=
  match operation, device.transaction with
  | .captureLinear layer capture outcome, none =>
      if layer < layerCount then some (captureLinear layer capture outcome device) else none
  | .captureFull layer capture outcome tailOutcome, none =>
      if layer < layerCount then some (captureFull layer capture outcome tailOutcome device)
      else none
  | .decode session, _ =>
      if sameOwners device.session session then some { device with session := session } else none
  | .branch, _ =>
      some { device with
        heap := device.heap.alloc.2
        dual := device.heap.alloc.1 :: device.dual }
  | .openTransaction expectedGeneration expectedDigest outcome, none =>
      some (openTransaction expectedGeneration expectedDigest outcome device)
  | .rollback outcome, some transaction =>
      if transaction.committed then none else some (rollback outcome transaction device).2
  | .commit outcome, some transaction => some (commit outcome transaction device).2
  | .closeTransaction outcome, some transaction =>
      some (closeTransaction outcome transaction device)
  | .release, none => some (releaseSession device)
  | _, _ => none

end Shadow

end QrtEngine
