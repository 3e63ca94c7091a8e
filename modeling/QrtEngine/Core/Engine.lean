import Mathlib.Algebra.GroupWithZero.Nat
import QrtEngine.Library.Store

/-!
# The Engine and its Provider

The state of the core that the resident prefix cache is made of, and the interface to the
provider that computes. The core keeps an identity of the prefix the provider has cached: the
tokens, the generation of the provider's session and a digest of the tokens. The provider keeps
the session itself.

What the provider answers is a parameter: a function of its own state and of the request. The
state type is arbitrary, so an answer may depend on anything that happened before. A reply holds
the fields that the core reads, and the calls the provider made to the core's callback while it
ran. Timing that only reports and the sizes and versions of the records are left out.

## Main definitions

* `Status`, `FailureStage`: How a request ends.
* `digest`: The digest of a list of tokens.
* `Identity`: The core's record of the cached prefix.
* `StreamState`, `emit`: The events sent for a request.
* `Engine`: The state of the core.
* `Config`: What does not change while an engine lives.
* `Provider`: The entry points of the provider.
-/

namespace QrtEngine

namespace Core

/-! ## Constants -/

/-- The number of tokens in the vocabulary. -/
def vocabSize : UInt32 := 248320

/-- The largest context of the model. -/
def maxPositionEmbeddings : Nat := 262144

/-- The largest number of output tokens of a request. -/
def maxOutputTokens : Nat := 512

/-- The largest number of output tokens of one decode call, the token before included. -/
def decodeMaxOutputTokens : Nat := 64

/-- The largest suffix of a prefix request. -/
def maxSuffixTokens : Nat := 1024

/-- The largest number of positions a prefix request may use after the prefix. -/
def maxTailTokens : Nat := 1536

/-- The surfaces a prefill has to provide: selected experts, full attention, resident stack and
    request path. -/
def requiredSurfaces : UInt32 := 15

/-! ## Results -/

/-- The status of a request. -/
inductive Status where
  | ok
  | invalidArgument
  | outOfMemory
  | notImplemented
  | unsupported
  | ioError
  | parseError
deriving DecidableEq, Repr

/-- Where a request failed. The provider names its own stages, none of which is a stage of the
    core. -/
inductive FailureStage where
  | none
  | engineNotReady
  | requestShape
  | providerLoad
  | providerPrefill
  | providerContract
  | prefillOutputContract
  | streamPrefillContract
  | streamPrefillCancelled
  | decodeSession
  | decodeContract
  | streamCompletionContract
  | prefixRequest
  | prefixToken
  | prefixIdentity
  | prefixProvider
  | prefixProviderContract
  | prefixTeacherToken
  | prefixOutputToken
  | prefixStreamRequest
  | prefixStreamCompletionContract
  | fallbackSeed
  | resetRequest
  | resetCoreIdentity
  | resetProvider
  | resetProviderContract
  | provider (text : String)
deriving DecidableEq, Repr

/-- The text of a stage in a report. -/
def FailureStage.text : FailureStage → String
  | none => ""
  | engineNotReady => "engine_not_ready"
  | requestShape => "qwen36_whole_provider_request_shape"
  | providerLoad => "qwen36_whole_provider_load"
  | providerPrefill => "qwen36_whole_provider_prefill"
  | providerContract => "qwen36_whole_provider_contract"
  | prefillOutputContract => "qwen36_whole_provider_prefill_output_contract"
  | streamPrefillContract => "qwen36_token_stream_prefill_contract"
  | streamPrefillCancelled => "qwen36_token_stream_prefill_cancelled"
  | decodeSession => "qwen36_whole_provider_decode_session"
  | decodeContract => "qwen36_whole_provider_decode_contract"
  | streamCompletionContract => "token_stream_completion_contract"
  | prefixRequest => "resident_prefix_cache_request"
  | prefixToken => "resident_prefix_cache_token"
  | prefixIdentity => "resident_prefix_cache_identity"
  | prefixProvider => "resident_prefix_cache_provider"
  | prefixProviderContract => "resident_prefix_cache_provider_contract"
  | prefixTeacherToken => "resident_prefix_cache_teacher_token"
  | prefixOutputToken => "resident_prefix_cache_output_token"
  | prefixStreamRequest => "resident_prefix_stream_request"
  | prefixStreamCompletionContract => "resident_prefix_stream_completion_contract"
  | fallbackSeed => "resident_prefix_cache_fallback_seed"
  | resetRequest => "resident_prefix_cache_reset_request"
  | resetCoreIdentity => "resident_prefix_cache_reset_core_identity"
  | resetProvider => "resident_prefix_cache_reset_provider"
  | resetProviderContract => "resident_prefix_cache_reset_provider_contract"
  | provider text => text

/-- The provider's own stage, or the core's if the provider names none. -/
def FailureStage.ofProvider (text : String) (default : FailureStage) : FailureStage :=
  if text = "" then default else .provider text

/-- The little-endian bytes of a token. -/
def tokenBytes (token : UInt32) : List UInt64 :=
  [token.toUInt64 % 256, token.toUInt64 / 256 % 256, token.toUInt64 / 65536 % 256,
    token.toUInt64 / 16777216]

/-- The FNV-1a digest of the bytes of a list of tokens. -/
def digest (tokens : List UInt32) : UInt64 :=
  (tokens.flatMap tokenBytes).foldl (fun hash byte => (hash ^^^ byte) * 1099511628211)
    1469598103934665603

/-! ## State -/

/-- The core's record of the prefix the provider has cached. The tokens are allocated exactly
    when there are cells. -/
structure Identity where
  sessionValid : Bool
  tokens : Store UInt32
  sessionGeneration : UInt64
  promptDigest : UInt64
deriving DecidableEq, Repr

/-- No prefix is recorded and no tokens are allocated. -/
def Identity.empty : Identity :=
  { sessionValid := false, tokens := Store.empty, sessionGeneration := 0, promptDigest := 0 }

/-- Forget the prefix, and its tokens too if asked. -/
def Identity.clear (identity : Identity) (releaseTokenStorage : Bool) : Identity :=
  { sessionValid := false
    tokens := if releaseTokenStorage then Store.empty else identity.tokens.clear
    sessionGeneration := 0
    promptDigest := 0 }

/-- The phase of an event. -/
inductive Phase where
  | prefill
  | decode
deriving DecidableEq, Repr

/-- An event sent to the caller of a stream. -/
structure StreamEvent where
  phase : Phase
  outputIndex : Nat
  tokenId : UInt32
deriving DecidableEq, Repr

/-- The callback of a stream: whether it goes on, from the events so far. -/
abbrev Callback := List StreamEvent → Bool

/-- The state of the stream of the current request. -/
structure StreamState where
  active : Bool
  events : List StreamEvent
  cancelled : Bool
  contractFailed : Bool
deriving DecidableEq, Repr

/-- No stream. -/
def StreamState.idle : StreamState :=
  { active := false, events := [], cancelled := false, contractFailed := false }

/-- A stream that has sent nothing. -/
def StreamState.begin : StreamState :=
  { active := true, events := [], cancelled := false, contractFailed := false }

/-- The state of the core. -/
structure Engine where
  identity : Identity
  stream : StreamState
  failureStage : FailureStage
deriving DecidableEq, Repr

/-- An engine that was just loaded. -/
def Engine.loaded : Engine :=
  { identity := Identity.empty, stream := StreamState.idle, failureStage := .none }

/-- The engine with another failure stage. -/
def Engine.fail (engine : Engine) (stage : FailureStage) : Engine :=
  { engine with failureStage := stage }

/-- The phase of the event with an index. -/
def phaseOf (outputIndex : Nat) : Phase := if outputIndex = 0 then .prefill else .decode

/-- Send an event to the stream, if there is one. An event out of order breaks the contract; an
    event in order is sent, and the callback may cancel the stream on it. -/
def emit (callback : Callback) (stream : StreamState) (phase : Phase) (outputIndex : Nat)
    (tokenId : UInt32) : Bool × StreamState :=
  if !stream.active then (true, stream)
  else if outputIndex ≠ stream.events.length ∨ outputIndex ≥ maxOutputTokens ∨
      tokenId ≥ vocabSize ∨ phase ≠ phaseOf outputIndex then
    (false, { stream with contractFailed := true })
  else
    -- The event is counted before the callback is asked.
    let stream := { stream with
      events := stream.events ++ [{ phase := phase, outputIndex := outputIndex
                                    tokenId := tokenId }] }
    if callback stream.events then (true, stream)
    else (false, { stream with cancelled := true })

/-! ## The provider -/

/-- A prompt with a known answer, which is accepted under a switch of its own. The first prompt
    of the table needs none. -/
structure Probe where
  contextTokens : Nat
  promptDigest : UInt64
  expectedToken : Option UInt32
  longCold : Bool
deriving DecidableEq, Repr

/-- What does not change while an engine lives: its own settings and the switches of its
    environment. -/
structure Config where
  ready : Bool
  providerRequested : Bool
  contextTokens : Nat
  arbitraryContext : Bool
  q16384ColdProbe : Bool
  q32768ColdProbe : Bool
  q65536ColdProbe : Bool
  q131072ColdProbe : Bool
  endpointBoundary : Bool
  earlyPrefillStream : Bool
  ignoreEos : Bool
deriving DecidableEq, Repr

/-- What the system does during one request: whether the provider's library loads with the
    entry points needed, and whether the copy of the tokens can grow. -/
structure Host where
  prefillLoads : Bool
  decodeExported : Bool
  prefixLoads : Bool
  resetLoads : Bool
  tokenCopyGrows : Bool
deriving DecidableEq, Repr

/-- A prefill request. -/
structure PrefillRequest where
  input : List UInt32
  outputTokenCapacity : Nat
  arbitrary : Bool
  endpointBoundary : Bool
  emits : Bool
deriving DecidableEq, Repr

/-- The reply to a prefill request. -/
structure PrefillReply where
  ok : Bool
  completed : Bool
  providedSurfaces : UInt32
  emitAttempted : Nat
  emitCompleted : Nat
  emitRejected : Nat
  emitElapsedNs : Nat
  outputTokenCapacity : Nat
  outputTokens : List UInt32
  outputTokensDigest : UInt64
  outputTokenEmitted : Bool
  outputTokenId : UInt32
  outputLogitWithinTolerance : Bool
  promptDigest : UInt64
  sessionValid : Bool
  sessionPrefixTokenCount : Nat
  sessionGeneration : UInt64
  sessionPromptDigest : UInt64
  failureStage : String
  emissions : List UInt32
deriving DecidableEq, Repr

/-- A decode request. -/
structure DecodeRequest where
  expectedPrefixTokenCount : Nat
  outputTokenCapacity : Nat
  initialOutputTokenId : UInt32
  expectedSessionGeneration : UInt64
  expectedPromptDigest : UInt64
  emits : Bool
deriving DecidableEq, Repr

/-- A call of the core's callback from a decode or prefix request. -/
structure Emission where
  sessionGeneration : UInt64
  outputIndex : Nat
  tokenId : UInt32
deriving DecidableEq, Repr

/-- The duration and the end of one token. -/
structure TokenTiming where
  stepNs : Nat
  endNs : Nat
deriving DecidableEq, Repr

/-- The reply to a decode request. -/
structure DecodeReply where
  ok : Bool
  statusOk : Bool
  completed : Bool
  batchSize : Nat
  outputTokenCapacity : Nat
  outputTokens : List UInt32
  prefillTokenCount : Nat
  decodeTokenCount : Nat
  timing : List TokenTiming
  sessionGeneration : UInt64
  promptDigest : UInt64
  tpotElapsedNs : Nat
  wallClockNs : Nat
  outputTokensDigest : UInt64
  failureStage : String
  emissions : List Emission
deriving DecidableEq, Repr

/-- A prefix request. -/
structure PrefixRequest where
  input : List UInt32
  expectedPrefixTokenCount : Nat
  outputTokenCapacity : Nat
  expectedSessionGeneration : UInt64
  expectedPromptDigest : UInt64
  ignoreEos : Bool
  emits : Bool
deriving DecidableEq, Repr

/-- The reply to a prefix request. -/
structure PrefixReply where
  ok : Bool
  statusOk : Bool
  completed : Bool
  providerInvoked : Bool
  copyOnWriteTransaction : Bool
  stateRestored : Bool
  batchSize : Nat
  prefixTokenCount : Nat
  suffixTokenCount : Nat
  outputTokenCapacity : Nat
  outputTokens : List UInt32
  teacherForcedTokens : List UInt32
  baseCommittedTokenCount : Nat
  mutatedCommittedTokenCount : Nat
  restoredCommittedTokenCount : Nat
  sessionGeneration : UInt64
  promptDigest : UInt64
  suffixDigest : UInt64
  teacherForcedDigest : UInt64
  outputTokensDigest : UInt64
  shadowBytes : Nat
  ttftElapsedNs : Nat
  decodeElapsedNs : Nat
  tpotElapsedNs : Nat
  totalElapsedNs : Nat
  tpotSampleCount : Nat
  timing : List TokenTiming
  failureStage : String
  emissions : List Emission
deriving DecidableEq, Repr

/-- A reset request. The engine is the expected owner of the session. -/
structure ResetRequest where
  expectedSessionValid : Bool
  expectedPrefixTokenCount : Nat
  expectedSessionGeneration : UInt64
  expectedPromptDigest : UInt64
deriving DecidableEq, Repr

/-- The reply to a reset request. -/
structure ResetReply where
  ok : Bool
  statusOk : Bool
  completed : Bool
  providerInvoked : Bool
  providerCompleted : Bool
  ownerMatch : Bool
  idempotent : Bool
  sessionValidBefore : Bool
  sessionValidAfter : Bool
  prefixTokenCountBefore : Nat
  prefixTokenCountAfter : Nat
  committedTokenCountAfter : Nat
  sessionGenerationBefore : UInt64
  sessionGenerationAfter : UInt64
  promptDigestBefore : UInt64
  promptDigestAfter : UInt64
  generationClockBefore : UInt64
  generationClockAfter : UInt64
  stateBytesBefore : Nat
  stateBytesAfter : Nat
  stateBytesReleased : Nat
  sharedModelWeightsRetained : Bool
  resetElapsedNs : Nat
  totalElapsedNs : Nat
  failureStage : String
deriving DecidableEq, Repr

/-- What the core's own route answers. -/
structure LegacyReply where
  status : Status
  outputTokens : List UInt32
  failureStage : String
deriving DecidableEq, Repr

/-- The entry points of the provider, and the core's own route for engines that ask for no
    provider. -/
structure Provider (σ : Type) where
  prefillV1 : σ → PrefillRequest → PrefillReply × σ
  decodeV1 : σ → DecodeRequest → DecodeReply × σ
  prefixV1 : σ → PrefixRequest → PrefixReply × σ
  prefixResetV1 : σ → ResetRequest → ResetReply × σ
  legacy : σ → List UInt32 → Nat → LegacyReply × σ

end Core

end QrtEngine
