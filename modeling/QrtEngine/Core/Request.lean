import QrtEngine.Core.Engine

/-!
# Requests of the Core

The operations on one engine: an ordinary request, its stream, a request that continues a cached
prefix, its stream, a request that seeds the prefix if it is not cached, and the reset of the
cache. Each takes the engine and the provider's state to the next ones, with the outcome.

The identity of the cached prefix is touched in four places. An ordinary request that gets as far
as the provider clears it before the prefill and records it again when the prefill has retained
the session. A prefix request clears it when the provider failed without restoring its state. A
reset clears it and frees the tokens. A seed that fails takes back the valid bit only.

## Main definitions

* `requestTokens`, `requestTokensStreamV1`: An ordinary request.
* `prefixV1`, `prefixStreamV1`: A request that continues a cached prefix.
* `prefixFallbackV1`: The same with a seed after a miss.
* `resetPrefixCacheV1`: The reset.
-/

namespace QrtEngine

namespace Core

/-- How a request ends: its status and the output tokens counted. -/
structure Outcome where
  status : Status
  outputTokens : List UInt32
deriving DecidableEq, Repr

/-- A request that ends without output. -/
def Outcome.failed (status : Status) : Outcome := { status := status, outputTokens := [] }

/-! ## Shapes -/

/-- The prompt of 8192 tokens with a known answer. -/
def fixedProbe : Probe :=
  { contextTokens := 8192, promptDigest := 0xb297cf9095e0b024, expectedToken := some 16
    longCold := false }

/-- The long prompts with known answers that are switched on. Two of them have no claimed
    answer. -/
def coldProbes (cfg : Config) : List Probe :=
  let probe (contextTokens : Nat) (promptDigest : UInt64) (expectedToken : Option UInt32) :
      Probe :=
    { contextTokens := contextTokens, promptDigest := promptDigest
      expectedToken := expectedToken, longCold := true }
  (if cfg.q16384ColdProbe then [probe 16384 0x99f5fa54d03c1b87 (some 16)] else []) ++
  (if cfg.q32768ColdProbe then [probe 32768 0xfe649fae263118c3 (some 16)] else []) ++
  (if cfg.q65536ColdProbe then [probe 65536 0x11129a047cfb8ef2 (some 16)] else []) ++
  (if cfg.q131072ColdProbe then
    [probe 129536 0x3e788711f8ff7849 none, probe 130560 0x82acdd88537b169d (some 16),
      probe 131071 0x66cb7e229dbf7eef (some 16), probe 131072 0xffef18d340fb4fe8 (some 16),
      probe 262144 0x55ac49bb839b4fe8 none] else [])

/-- The prompt with a known answer that the input is. -/
def probeOf (cfg : Config) (input : List UInt32) : Option Probe :=
  (fixedProbe :: coldProbes cfg).find? fun probe =>
    probe.contextTokens = input.length ∧ probe.promptDigest = digest input

/-- The input is a prompt of its own, within the context. -/
def arbitraryPrefill (cfg : Config) (input : List UInt32) : Bool :=
  cfg.arbitraryContext && (probeOf cfg input).isNone && decide (0 < input.length) &&
    decide (input.length ≤ cfg.contextTokens) && decide (input.length ≤ maxPositionEmbeddings)

/-- The provider takes requests of this shape. -/
def supportedShape (cfg : Config) (input : List UInt32) (capacity : Nat) : Bool :=
  ((probeOf cfg input).isSome || arbitraryPrefill cfg input) && decide (capacity ≠ 0) &&
    decide (capacity ≤ maxOutputTokens)

/-! ## Contracts -/

/-- The calls of the early callback during a prefill. -/
def prefillEmissions (callback : Callback) (stream : StreamState) (tokens : List UInt32) :
    StreamState :=
  tokens.foldl (fun stream token => (emit callback stream .prefill 0 token).2) stream

/-- The reply to a prefill is what was asked for. The stream is that after the prefill. -/
def prefillContract (cfg : Config) (stream : StreamState) (request : PrefillRequest)
    (reply : PrefillReply) : Bool :=
  reply.completed && reply.providedSurfaces &&& requiredSurfaces == requiredSurfaces &&
  -- The early callback was called once with the token sampled, or not at all.
  (if request.emits then
    reply.emitAttempted == 1 && reply.emitCompleted == 1 && reply.emitRejected == 0 &&
      reply.emitElapsedNs != 0 &&
      stream.events.map StreamEvent.tokenId == [reply.outputTokenId]
  else
    reply.emitAttempted == 0 && reply.emitCompleted == 0 && reply.emitRejected == 0 &&
      reply.emitElapsedNs == 0) &&
  reply.outputTokenCapacity == request.outputTokenCapacity && reply.outputTokens != [] &&
  decide (reply.outputTokens.length ≤ request.outputTokenCapacity) &&
  decide (reply.outputTokens.length ≤ maxOutputTokens) &&
  reply.outputTokensDigest == digest reply.outputTokens && reply.outputTokenEmitted &&
  reply.promptDigest == digest request.input &&
  (match probeOf cfg request.input with
  | none => true
  | some probe =>
      (!probe.longCold || match probe.expectedToken with
        | none => true
        | some token => reply.outputTokens.head? == some token && reply.outputTokenId == token) &&
      (!request.endpointBoundary ||
        reply.outputTokens.head? == fixedProbe.expectedToken &&
          some reply.outputTokenId == fixedProbe.expectedToken &&
          reply.outputLogitWithinTolerance))

/-- The output of a prefill begins with the token it sampled. -/
def prefillOutputContract (reply : PrefillReply) : Bool :=
  reply.outputTokens.head? == some reply.outputTokenId && decide (reply.outputTokenId < vocabSize)

/-- The prefill has retained the session of the input. -/
def retainsSession (input : List UInt32) (reply : PrefillReply) : Bool :=
  reply.sessionValid && reply.sessionPrefixTokenCount == input.length % 2 ^ 32 &&
    reply.sessionGeneration != 0 && reply.sessionPromptDigest == digest input &&
    reply.outputTokens.length == 1

/-- The ends of the tokens from a place on are increasing and agree with their durations; the
    last end, if so. -/
def lastEnd (previousEnd : Nat) : List TokenTiming → Option Nat
  | [] => some previousEnd
  | token :: timing =>
      if token.stepNs = 0 ∨ token.endNs ≤ previousEnd ∨
          token.endNs - previousEnd ≠ token.stepNs then none
      else lastEnd token.endNs timing

/-- The reply to a decode request is what was asked for. -/
def decodeResultValid (request : DecodeRequest) (reply : DecodeReply) : Bool :=
  reply.statusOk && reply.completed && reply.batchSize == 1 &&
  reply.outputTokenCapacity == request.outputTokenCapacity &&
  reply.outputTokens.length == request.outputTokenCapacity &&
  decide (2 ≤ reply.outputTokens.length) &&
  decide (reply.outputTokens.length ≤ decodeMaxOutputTokens) &&
  reply.prefillTokenCount == 1 && reply.decodeTokenCount == reply.outputTokens.length - 1 &&
  reply.timing.length == reply.outputTokens.length &&
  reply.sessionGeneration == request.expectedSessionGeneration &&
  reply.promptDigest == request.expectedPromptDigest &&
  reply.outputTokens.head? == some request.initialOutputTokenId &&
  reply.outputTokens.all (· < vocabSize) &&
  reply.timing.head? == some { stepNs := 0, endNs := 0 } &&
  lastEnd 0 reply.timing.tail == some reply.tpotElapsedNs &&
  decide (reply.tpotElapsedNs ≤ reply.wallClockNs) &&
  reply.outputTokensDigest == digest reply.outputTokens

/-- The reply to a prefix request is what was asked for. -/
def prefixContract (request : PrefixRequest) (reply : PrefixReply) : Bool :=
  let suffix := request.input.drop request.expectedPrefixTokenCount
  reply.ok && reply.statusOk && reply.completed && reply.providerInvoked &&
  reply.copyOnWriteTransaction && reply.stateRestored && reply.batchSize == 1 &&
  reply.prefixTokenCount == request.expectedPrefixTokenCount &&
  reply.suffixTokenCount == suffix.length &&
  reply.outputTokenCapacity == request.outputTokenCapacity &&
  reply.outputTokens.length == request.outputTokenCapacity &&
  reply.teacherForcedTokens.length == reply.suffixTokenCount &&
  reply.baseCommittedTokenCount == 0 &&
  reply.mutatedCommittedTokenCount == reply.suffixTokenCount + reply.outputTokens.length - 1 &&
  reply.restoredCommittedTokenCount == 0 &&
  reply.sessionGeneration == request.expectedSessionGeneration &&
  reply.promptDigest == digest (request.input.take request.expectedPrefixTokenCount) &&
  reply.suffixDigest == digest suffix &&
  reply.teacherForcedDigest == digest reply.teacherForcedTokens &&
  reply.outputTokensDigest == digest reply.outputTokens && reply.shadowBytes != 0 &&
  reply.ttftElapsedNs != 0 && decide (reply.ttftElapsedNs ≤ reply.totalElapsedNs) &&
  reply.tpotSampleCount == request.outputTokenCapacity - 1 &&
  reply.timing.length == reply.outputTokens.length &&
  reply.timing.head? == some { stepNs := reply.ttftElapsedNs, endNs := 0 } &&
  lastEnd 0 reply.timing.tail == some reply.tpotElapsedNs &&
  decide (reply.tpotElapsedNs ≤ reply.decodeElapsedNs)

/-! ## Ordinary requests -/

/-- Record the input as the cached prefix, if the prefill has retained it and the copy of the
    tokens fits. -/
def Identity.record (identity : Identity) (grows : Bool) (input : List UInt32)
    (reply : PrefillReply) : Identity :=
  if retainsSession input reply then
    match identity.tokens.put grows input with
    | none => identity
    | some tokens =>
        -- Nothing to point at: the code asks for the pointer as well as for the copy.
        if tokens.cells = [] then identity
        else
          { sessionValid := true
            tokens := tokens
            sessionGeneration := reply.sessionGeneration
            promptDigest := reply.sessionPromptDigest }
  else identity

/-- A call of the callback from a decode request. The indices of a span are relative to the
    token before it. -/
def decodeEmission (callback : Callback) (sessionGeneration : UInt64) (outputBase : Nat)
    (stream : StreamState) (emission : Emission) : StreamState :=
  if emission.sessionGeneration ≠ sessionGeneration ∨ emission.outputIndex = 0 then
    { stream with contractFailed := true }
  else (emit callback stream .decode (outputBase + emission.outputIndex) emission.tokenId).2

/-- A call of the callback from a prefix request. -/
def prefixEmission (callback : Callback) (sessionGeneration : UInt64) (stream : StreamState)
    (emission : Emission) : StreamState :=
  if emission.sessionGeneration ≠ sessionGeneration ∨
      emission.outputIndex ≥ maxOutputTokens then
    { stream with contractFailed := true }
  else
    (emit callback stream (phaseOf emission.outputIndex) emission.outputIndex
      emission.tokenId).2

section Requests

variable {σ : Type} (cfg : Config) (provider : Provider σ) (host : Host) (callback : Callback)

/-- The request for the next span of a continuation. -/
def decodeRequest (engine : Engine) (input : List UInt32) (prefill : PrefillReply)
    (capacity : Nat) (outputs : List UInt32) : DecodeRequest :=
  { expectedPrefixTokenCount := input.length % 2 ^ 32
    outputTokenCapacity := min (capacity - outputs.length) (decodeMaxOutputTokens - 1) + 1
    initialOutputTokenId := outputs.getLastD 0
    expectedSessionGeneration := prefill.sessionGeneration
    expectedPromptDigest := prefill.sessionPromptDigest
    emits := engine.stream.active }

/-- Decode the continuation span by span. Every span yields a token at least, so there is fuel
    enough if it is not less than the tokens that are missing. -/
def decodeSpans (input : List UInt32) (prefill : PrefillReply) (capacity : Nat) :
    Nat → Engine → σ → List UInt32 → Outcome × Engine × σ
  | 0, engine, s, outputs => ({ status := .ok, outputTokens := outputs }, engine, s)
  | fuel + 1, engine, s, outputs =>
      if capacity ≤ outputs.length then
        ({ status := .ok, outputTokens := outputs }, engine, s)
      else
        -- The first token of a span repeats the last one of the output, so it is not counted.
        let request := decodeRequest engine input prefill capacity outputs
        let result := provider.decodeV1 s request
        let reply := result.1
        let stream :=
          if request.emits then
            reply.emissions.foldl
              (decodeEmission callback prefill.sessionGeneration (outputs.length - 1))
              engine.stream
          else engine.stream
        let engine := { engine with stream := stream }
        if !reply.ok || !decodeResultValid request reply then
          (.failed .unsupported,
            engine.fail (.ofProvider reply.failureStage .decodeContract), result.2)
        else
          decodeSpans input prefill capacity fuel engine result.2
            (outputs ++ reply.outputTokens.tail)

/-- The request for the prefill of an input. -/
def prefillRequest (engine : Engine) (input : List UInt32) (capacity : Nat) : PrefillRequest :=
  { input := input
    outputTokenCapacity := capacity
    arbitrary := arbitraryPrefill cfg input
    endpointBoundary := cfg.endpointBoundary && probeOf cfg input == some fixedProbe
    emits := engine.stream.active && cfg.earlyPrefillStream }

/-- The prefill: the identity is forgotten, the provider is called, and its calls of the early
    callback are served. -/
def prefill (engine : Engine) (s : σ) (request : PrefillRequest) :
    PrefillReply × Engine × σ :=
  let engine := { engine with identity := engine.identity.clear false }
  let result := provider.prefillV1 s request
  let stream :=
    if request.emits then prefillEmissions callback engine.stream result.1.emissions
    else engine.stream
  (result.1, { engine with stream := stream }, result.2)

/-- What follows a prefill whose reply has passed its contracts: the first token is sent, unless
    it was sent early, and the others are decoded. -/
def finishRequest (engine : Engine) (s : σ) (input : List UInt32) (capacity : Nat)
    (request : PrefillRequest) (reply : PrefillReply) : Outcome × Engine × σ :=
  let emitted :=
    if request.emits then (true, engine.stream)
    else emit callback engine.stream .prefill 0 (reply.outputTokens.headD 0)
  let engine := { engine with stream := emitted.2 }
  if !emitted.1 then
    (.failed .unsupported,
      engine.fail (if engine.stream.contractFailed then .streamPrefillContract
        else .streamPrefillCancelled), s)
  else if capacity > 1 then
    -- Only a continuation needs the session; one token is answered without it.
    if !retainsSession input reply || !host.decodeExported then
      (.failed .unsupported, engine.fail .decodeSession, s)
    else
      decodeSpans provider callback input reply capacity capacity engine s
        (reply.outputTokens.take 1)
  else ({ status := .ok, outputTokens := reply.outputTokens.take 1 }, engine, s)

/-- The checks of the reply to a prefill, and the record of the input as the cached prefix. -/
def acceptPrefill (engine : Engine) (s : σ) (input : List UInt32) (capacity : Nat)
    (request : PrefillRequest) (reply : PrefillReply) : Outcome × Engine × σ :=
  if !reply.ok then
    (.failed .unsupported, engine.fail (.ofProvider reply.failureStage .providerPrefill), s)
  else if !prefillContract cfg engine.stream request reply then
    (.failed .unsupported, engine.fail (.ofProvider reply.failureStage .providerContract), s)
  else if !prefillOutputContract reply then
    (.failed .unsupported, engine.fail .prefillOutputContract, s)
  else
    let engine :=
      { engine with identity := engine.identity.record host.tokenCopyGrows input reply }
    finishRequest provider host callback engine s input capacity request reply

/-- The whole-provider route of an ordinary request. -/
def tryWholeProviderPrefill (engine : Engine) (s : σ) (input : List UInt32) (capacity : Nat) :
    Outcome × Engine × σ :=
  if !supportedShape cfg input capacity then
    (.failed .unsupported, engine.fail .requestShape, s)
  else if !host.prefillLoads then
    (.failed .unsupported, engine.fail .providerLoad, s)
  else
    let request := prefillRequest cfg engine input capacity
    let called := prefill provider callback engine s request
    acceptPrefill cfg provider host callback called.2.1 called.2.2 input capacity request called.1

/-- An ordinary request. -/
def requestTokens (engine : Engine) (s : σ) (input : List UInt32) (capacity : Nat) :
    Outcome × Engine × σ :=
  if input = [] ∨ capacity = 0 then (.failed .invalidArgument, engine, s)
  else
    let engine := engine.fail .none
    if !cfg.ready then (.failed .unsupported, engine.fail .engineNotReady, s)
    else if !cfg.providerRequested then
      let result := provider.legacy s input capacity
      ({ status := result.1.status, outputTokens := result.1.outputTokens },
        engine.fail (.ofProvider result.1.failureStage .none), result.2)
    else tryWholeProviderPrefill cfg provider host callback engine s input capacity

/-- The events sent are the output tokens. -/
def StreamState.complete (stream : StreamState) (outputTokens : List UInt32) : Bool :=
  !stream.cancelled && !stream.contractFailed &&
    stream.events.map StreamEvent.tokenId == outputTokens

/-- The end of a stream: a request that succeeded has to have sent its output. -/
def closeStream (stage : FailureStage) (result : Outcome × Engine × σ) : Outcome × Engine × σ :=
  let engine := { result.2.1 with stream := { result.2.1.stream with active := false } }
  if result.1.status = .ok ∧ !engine.stream.complete result.1.outputTokens then
    ({ result.1 with status := .unsupported },
      { engine with stream := { engine.stream with contractFailed := true } }.fail stage,
      result.2.2)
  else (result.1, engine, result.2.2)

/-- An ordinary request with a stream. -/
def requestTokensStreamV1 (engine : Engine) (s : σ) (input : List UInt32) (capacity : Nat) :
    Outcome × Engine × σ :=
  if input = [] ∨ capacity = 0 ∨ capacity > maxOutputTokens ∨ engine.stream.active then
    (.failed .invalidArgument, engine, s)
  else
    closeStream .streamCompletionContract (requestTokens cfg provider host callback
      { engine with stream := StreamState.begin } s input capacity)

/-! ## Prefix requests -/

/-- The shape of a prefix request. -/
def prefixShape (input : List UInt32) (prefixCount capacity : Nat) : Bool :=
  input != [] && prefixCount != 0 && decide (prefixCount < input.length) &&
    decide (prefixCount ≤ 2 ^ 32 - 1) && decide (input.length - prefixCount ≤ maxSuffixTokens) &&
    capacity != 0 && decide (capacity ≤ maxOutputTokens) &&
    decide (input.length - prefixCount + capacity - 1 ≤ maxTailTokens)

/-- The core's identity is that of the prefix of the input. -/
def Identity.matches (identity : Identity) (input : List UInt32) (prefixCount : Nat) : Bool :=
  identity.sessionValid && identity.tokens.cells != [] && identity.tokens.count == prefixCount &&
    identity.tokens.contents == input.take prefixCount && identity.sessionGeneration != 0 &&
    identity.promptDigest == digest (input.take prefixCount)

/-- The call that a prefix request makes. -/
def prefixCall (streams : Bool) (engine : Engine) (input : List UInt32)
    (prefixCount capacity : Nat) : PrefixRequest :=
  { input := input
    expectedPrefixTokenCount := prefixCount
    outputTokenCapacity := capacity
    expectedSessionGeneration := engine.identity.sessionGeneration
    expectedPromptDigest := engine.identity.promptDigest
    ignoreEos := cfg.ignoreEos
    emits := streams }

/-- A request that continues the cached prefix. -/
def prefixV1 (streams : Bool) (engine : Engine) (s : σ) (input : List UInt32)
    (prefixCount capacity : Nat) : Outcome × Engine × σ :=
  if !prefixShape input prefixCount capacity || engine.stream.active != streams then
    (.failed .invalidArgument, engine.fail .prefixRequest, s)
  else if !input.all (· < vocabSize) then
    (.failed .invalidArgument, engine.fail .prefixToken, s)
  else if !cfg.ready || !engine.identity.matches input prefixCount then
    (.failed .unsupported, engine.fail .prefixIdentity, s)
  else if !host.prefixLoads then
    (.failed .unsupported, engine.fail .prefixProvider, s)
  else
    let request := prefixCall cfg streams engine input prefixCount capacity
    let result := provider.prefixV1 s request
    let reply := result.1
    let stream :=
      if streams then
        reply.emissions.foldl (prefixEmission callback engine.identity.sessionGeneration)
          engine.stream
      else engine.stream
    let engine := { engine.fail .none with stream := stream }
    if !prefixContract request reply then
      -- A session that was restored is still the one recorded.
      let identity :=
        if reply.stateRestored then engine.identity else engine.identity.clear false
      (.failed .unsupported,
        { engine with identity := identity }.fail
          (.ofProvider reply.failureStage .prefixProviderContract), result.2)
    else if !reply.teacherForcedTokens.all (· < vocabSize) then
      (.failed .unsupported, engine.fail .prefixTeacherToken, result.2)
    else if !reply.outputTokens.all (· < vocabSize) then
      (.failed .unsupported, engine.fail .prefixOutputToken, result.2)
    else ({ status := .ok, outputTokens := reply.outputTokens }, engine, result.2)

/-- A request that continues the cached prefix, with a stream. -/
def prefixStreamV1 (engine : Engine) (s : σ) (input : List UInt32) (prefixCount capacity : Nat) :
    Outcome × Engine × σ :=
  if engine.stream.active then
    (.failed .invalidArgument, engine.fail .prefixStreamRequest, s)
  else
    closeStream .prefixStreamCompletionContract (prefixV1 cfg provider host callback true
      { engine with stream := StreamState.begin } s input prefixCount capacity)

/-- Prefill a prefix for one token and continue it. -/
def seedAndRetry (engine : Engine) (s : σ) (input : List UInt32) (prefixCount capacity : Nat) :
    Outcome × Engine × σ :=
  let seed := requestTokens cfg provider host callback engine s (input.take prefixCount) 1
  let engine := seed.2.1
  let oneToken := seed.1.outputTokens.length = 1 ∧ seed.1.outputTokens.headD vocabSize < vocabSize
  if seed.1.status ≠ .ok ∨ ¬oneToken then
    -- The valid bit is taken back; the count, the generation and the digest stay.
    let identity :=
      if seed.1.status = .ok ∨ ¬oneToken then { engine.identity with sessionValid := false }
      else engine.identity
    (.failed (if seed.1.status = .ok then .unsupported else seed.1.status),
      { engine with
        identity := identity
        failureStage := if engine.failureStage = .none then .fallbackSeed
          else engine.failureStage }, seed.2.2)
  else prefixV1 cfg provider host callback false engine seed.2.2 input prefixCount capacity

/-- A request that continues a prefix, and seeds it first if it is not the one cached. -/
def prefixFallbackV1 (engine : Engine) (s : σ) (input : List UInt32)
    (prefixCount capacity : Nat) : Outcome × Engine × σ :=
  let initial := prefixV1 cfg provider host callback false engine s input prefixCount capacity
  -- The miss is recognised by the text of the failure stage.
  if initial.1.status = .unsupported ∧ initial.2.1.failureStage = .prefixIdentity then
    seedAndRetry cfg provider host callback initial.2.1 initial.2.2 input prefixCount capacity
  else initial

/-! ## Reset -/

/-- The core's identity is internally consistent. -/
def Identity.consistent (identity : Identity) : Bool :=
  if identity.sessionValid then
    identity.tokens.cells != [] && identity.tokens.count != 0 &&
      decide (identity.tokens.count ≤ 2 ^ 32 - 1) && identity.sessionGeneration != 0 &&
      identity.promptDigest != 0
  else
    identity.tokens.count == 0 && identity.sessionGeneration == 0 && identity.promptDigest == 0

/-- The reply to a reset request is what was asked for. -/
def resetContract (request : ResetRequest) (reply : ResetReply) : Bool :=
  reply.ok && reply.statusOk && reply.completed && reply.providerInvoked &&
  reply.providerCompleted && reply.ownerMatch &&
  reply.idempotent == !request.expectedSessionValid &&
  reply.sessionValidBefore == request.expectedSessionValid && !reply.sessionValidAfter &&
  reply.prefixTokenCountBefore == request.expectedPrefixTokenCount &&
  reply.prefixTokenCountAfter == 0 && reply.committedTokenCountAfter == 0 &&
  reply.sessionGenerationBefore == request.expectedSessionGeneration &&
  reply.sessionGenerationAfter == 0 &&
  reply.promptDigestBefore == request.expectedPromptDigest && reply.promptDigestAfter == 0 &&
  reply.generationClockAfter == reply.generationClockBefore && reply.stateBytesAfter == 0 &&
  reply.stateBytesReleased == reply.stateBytesBefore &&
  (!request.expectedSessionValid || decide (0 < reply.stateBytesBefore)) &&
  reply.sharedModelWeightsRetained && decide (reply.resetElapsedNs ≤ reply.totalElapsedNs)

/-- The reset of the prefix cache. -/
def resetPrefixCacheV1 (engine : Engine) (s : σ) : Status × Engine × σ :=
  if !cfg.ready || engine.stream.active then
    (.invalidArgument, engine.fail .resetRequest, s)
  else if !engine.identity.consistent then
    (.unsupported, engine.fail .resetCoreIdentity, s)
  else if !host.resetLoads then
    (.unsupported, engine.fail .resetProvider, s)
  else
    let request : ResetRequest :=
      { expectedSessionValid := engine.identity.sessionValid
        expectedPrefixTokenCount := engine.identity.tokens.count % 2 ^ 32
        expectedSessionGeneration := engine.identity.sessionGeneration
        expectedPromptDigest := engine.identity.promptDigest }
    let result := provider.prefixResetV1 s request
    let reply := result.1
    if !resetContract request reply then
      -- Once the provider reports an empty state, keeping the identity would leave the two apart.
      let identity :=
        if reply.providerCompleted && !reply.sessionValidAfter && reply.stateBytesAfter == 0 then
          engine.identity.clear true
        else engine.identity
      (.unsupported, { engine with identity := identity }.fail
        (.ofProvider reply.failureStage .resetProviderContract), result.2)
    else
      (.ok, { engine with identity := engine.identity.clear true }.fail .none, result.2)

end Requests

end Core

end QrtEngine
