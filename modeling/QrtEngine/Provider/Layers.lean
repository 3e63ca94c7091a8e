import QrtEngine.Core.Engine
import Mathlib.Logic.Function.Basic

/-!
# The Layers of a Session

What the session of the provider holds for each layer of the model. A layer attends either
linearly, and keeps a recurrent state and a ring of projections in one allocation, or fully, and
keeps the keys and values of the prompt and a tail for the tokens that are decoded. The tail lies
either behind the prompt in one allocation or in an allocation of its own.

Each layer counts the decoded tokens it has seen. The session counts the tokens that are
committed, and the activation workspace says how far the token that is being decoded has got.

The arrays of layers are functions of the index. Only the entries below `layerCount` are looked
at.

## Main definitions

* `attentionKind`: Which layers attend fully.
* `LinearLayer`, `FullLayer`: What is kept for a layer.
* `Workspace`: How far the token has got that is being decoded.
* `SessionState`: The session with its layers.
* `SessionState.At`: A layer has seen a number of tokens.
-/

namespace QrtEngine

namespace Layered

open QrtEngine.Core

/-! ## Layers -/

/-- The number of layers of the model. -/
def layerCount : Nat := 40

/-- How a layer attends. -/
inductive AttentionKind where
  | linear
  | full
deriving DecidableEq, Repr

/-- Every fourth layer attends fully. -/
def attentionKind (layer : Nat) : AttentionKind := if layer % 4 = 3 then .full else .linear

/-- How wide the elements are that a layer keeps. -/
inductive ElementKind where
  | none
  | bf16
  | f32
deriving DecidableEq, Repr

/-- A place in an allocation of the device. -/
structure Address where
  allocation : Nat
  offset : Nat
deriving DecidableEq, Repr

/-- What is kept for a layer that attends linearly. The allocation owns the other two. -/
structure LinearLayer where
  deviceAllocation : Option Nat
  deviceRecurrentState : Option Address
  deviceQkvRing : Option Address
  recurrentStateBytes : Nat
  qkvRingBytes : Nat
  prefixTokens : Nat
  decodeQkvTokenCount : Nat
  decodeRecurrentTokenCount : Nat
  qkvElementKind : ElementKind
  recurrentStateKeyMajor : Bool
  valid : Bool
deriving DecidableEq, Repr

/-- What is kept for a layer that attends fully. With a contiguous tail the tail lies in the
    allocation of the prompt, and the tail has no allocation of its own. -/
structure FullLayer where
  deviceAllocation : Option Nat
  deviceK : Option Address
  deviceV : Option Address
  deviceDecodeTailAllocation : Option Nat
  deviceDecodeTailK : Option Address
  deviceDecodeTailV : Option Address
  kBytes : Nat
  vBytes : Nat
  decodeTailKBytes : Nat
  decodeTailVBytes : Nat
  decodeTailCapacityTokens : Nat
  decodeTailTokenCount : Nat
  historyTokens : Nat
  decodeTailContiguous : Bool
  elementKind : ElementKind
  valid : Bool
deriving DecidableEq, Repr

/-- A layer that was never captured. -/
def LinearLayer.empty : LinearLayer :=
  { deviceAllocation := none, deviceRecurrentState := none, deviceQkvRing := none
    recurrentStateBytes := 0, qkvRingBytes := 0, prefixTokens := 0, decodeQkvTokenCount := 0
    decodeRecurrentTokenCount := 0, qkvElementKind := .none, recurrentStateKeyMajor := false
    valid := false }

/-- A layer that was never captured. -/
def FullLayer.empty : FullLayer :=
  { deviceAllocation := none, deviceK := none, deviceV := none
    deviceDecodeTailAllocation := none, deviceDecodeTailK := none, deviceDecodeTailV := none
    kBytes := 0, vBytes := 0, decodeTailKBytes := 0, decodeTailVBytes := 0
    decodeTailCapacityTokens := 0, decodeTailTokenCount := 0, historyTokens := 0
    decodeTailContiguous := false, elementKind := .none, valid := false }

/-! ## The workspace -/

/-- How far the token has got that is being decoded. -/
inductive Phase where
  | idle
  | tokenActive
  | layerActive
  | tokenComplete
deriving DecidableEq, Repr

/-- The first layer of a token, computed before the token was begun. -/
structure Prefetch where
  position : Nat
  tokenId : UInt32
deriving DecidableEq, Repr

/-- The workspace that the layers of one token share. An index or a position that is not set is
    `none`. The fields of a prefetch are set and cleared together, and so are those of the norm
    that a layer borrows for the next one, of which only its presence is kept. -/
structure Workspace where
  allocated : Bool
  valid : Bool
  inUse : Bool
  generation : UInt64
  phase : Phase
  activeTokenPosition : Option Nat
  activeLayerIndex : Option Nat
  nextLayerIndex : Nat
  activeAttentionKind : AttentionKind
  activeElementKind : ElementKind
  hiddenCarrierReady : Bool
  hiddenCarrierTokenPosition : Option Nat
  hiddenCarrierProducerLayer : Option Nat
  nextInputRmsnorm : Bool
  prefetch : Option Prefetch
  requestColdStart : Bool
deriving DecidableEq, Repr

/-- A workspace that was never allocated. -/
def Workspace.empty : Workspace :=
  { allocated := false, valid := false, inUse := false, generation := 0, phase := .idle
    activeTokenPosition := none, activeLayerIndex := none, nextLayerIndex := 0
    activeAttentionKind := .linear, activeElementKind := .none, hiddenCarrierReady := false
    hiddenCarrierTokenPosition := none, hiddenCarrierProducerLayer := none
    nextInputRmsnorm := false, prefetch := none, requestColdStart := false }

/-- Forget the token that is being decoded. -/
def Workspace.resetSequence (workspace : Workspace) : Workspace :=
  { workspace with
    activeTokenPosition := none
    activeLayerIndex := none
    nextLayerIndex := 0
    activeAttentionKind := .linear
    activeElementKind := .none
    hiddenCarrierTokenPosition := none
    hiddenCarrierProducerLayer := none
    hiddenCarrierReady := false
    nextInputRmsnorm := false
    requestColdStart := false
    phase := .idle
    inUse := false }

/-! ## The session -/

/-- The session with its layers. -/
structure SessionState where
  linearLayers : Nat → LinearLayer
  fullAttentionLayers : Nat → FullLayer
  activationWorkspace : Workspace
  prefixTokens : Nat
  ownerEngine : Option Nat
  modelDir : String
  promptTokenIdsFnv1a64 : UInt64
  generation : UInt64
  committedDecodeTokenCount : Nat
  currentTokenId : UInt32
  currentTokenValid : Bool
  requested : Bool
  routeActive : Bool
  providerCompleted : Bool
  valid : Bool

/-- A session that was released. -/
def SessionState.empty : SessionState :=
  { linearLayers := fun _ => LinearLayer.empty
    fullAttentionLayers := fun _ => FullLayer.empty
    activationWorkspace := Workspace.empty
    prefixTokens := 0
    ownerEngine := none
    modelDir := ""
    promptTokenIdsFnv1a64 := 0
    generation := 0
    committedDecodeTokenCount := 0
    currentTokenId := 0
    currentTokenValid := false
    requested := false
    routeActive := false
    providerCompleted := false
    valid := false }

/-- A prompt that a session can be kept for. -/
def prefixSupported (prefixTokens : Nat) : Bool :=
  decide (0 < prefixTokens) && decide (prefixTokens ≤ maxPositionEmbeddings)

namespace SessionState

/-- The session with another linear layer. -/
def setLinear (session : SessionState) (index : Nat) (layer : LinearLayer) : SessionState :=
  { session with linearLayers := Function.update session.linearLayers index layer }

/-- The session with another fully attending layer. -/
def setFull (session : SessionState) (index : Nat) (layer : FullLayer) : SessionState :=
  { session with fullAttentionLayers := Function.update session.fullAttentionLayers index layer }

/-- The session with another workspace. -/
def setWorkspace (session : SessionState) (workspace : Workspace) : SessionState :=
  { session with activationWorkspace := workspace }

/-- A layer has seen a number of decoded tokens. -/
def At (session : SessionState) (layer count : Nat) : Prop :=
  match attentionKind layer with
  | .linear => (session.linearLayers layer).decodeQkvTokenCount = count ∧
      (session.linearLayers layer).decodeRecurrentTokenCount = count
  | .full => (session.fullAttentionLayers layer).decodeTailTokenCount = count

/-- A layer's counters are all that matters. -/
theorem at_congr (session other : SessionState) (layer count : Nat)
    (hlinear : other.linearLayers layer = session.linearLayers layer)
    (hfull : other.fullAttentionLayers layer = session.fullAttentionLayers layer) :
    other.At layer count ↔ session.At layer count := by
  unfold At
  rw [hlinear, hfull]

@[simp] theorem at_setLinear_ne (session : SessionState) (index layer count : Nat)
    (entry : LinearLayer) (h : layer ≠ index) :
    (session.setLinear index entry).At layer count ↔ session.At layer count :=
  at_congr _ _ layer count (Function.update_of_ne h _ _) rfl

@[simp] theorem at_setFull_ne (session : SessionState) (index layer count : Nat)
    (entry : FullLayer) (h : layer ≠ index) :
    (session.setFull index entry).At layer count ↔ session.At layer count :=
  at_congr _ _ layer count rfl (Function.update_of_ne h _ _)

end SessionState

end Layered

end QrtEngine
