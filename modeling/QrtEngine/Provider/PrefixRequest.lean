import QrtEngine.Provider.Shadow
import QrtEngine.Provider.Session

/-!
# A Prefix Request at the Provider

A prefix request is served on a shadow of the session. The request is checked, the matrix plans are
attached to the thread, the shadow is taken, the suffix is fed to it token by token or by its owner
in one piece, the last prediction may be verified, the first token is sent, and the others are
decoded in spans. Whatever stops the request after the shadow was taken rolls back, and so does its
end.

The request is answered with a report. What stops it before the shadow was taken leaves the report
as it is, with nothing said of the session.

What the device and the environment do is a parameter, the run: how the shadow is taken and rolled
back, what each decode answers and leaves of the session, what the owner and the verifier answer,
and which tokens the callback accepts. A decode commits the tokens it delivers. Only with the
product commit, a diagnostic, it may commit others too.

## Main definitions

* `PrefixCall`, `PrefixCall.ofCore`: A prefix request as the provider gets it, and as the core
  sends it.
* `PrefixRun`: What the device and the environment do.
* `decodeV1`: A decode within the request.
* `feed`, `verifyLast`, `sendFirst`, `decodeSpans`: The parts of the request.
* `rollbackFailure`, `finish`: Its ends.
* `prefixV1`: The request.
-/

namespace QrtEngine

namespace Continuation

open QrtEngine.Core
open QrtEngine.Layered
open QrtEngine.Shadow

/-! ## The request -/

/-- A prefix request as the provider gets it. A pointer that is null is `none`, and there are as
    many tokens behind a pointer as the request says. The first field says that there is a request
    at all, with the size and the version that are expected. -/
structure PrefixCall where
  abiValid : Bool
  flags : UInt32
  batchSize : Nat
  expectedPrefixTokenCount : Nat
  suffixTokens : Option (List UInt32)
  outputTokenCapacity : Nat
  expectedBaseCommittedTokenCount : Nat
  expectedSessionGeneration : UInt64
  expectedPromptTokenIdsFnv1a64 : UInt64
  expectedSuffixTokenIdsFnv1a64 : UInt64
  reserved0 : UInt32
  inputTokens : Option (List UInt32)
  expectedInputTokenIdsFnv1a64 : UInt64
  emitCallback : Bool
  emitUserData : Bool
deriving DecidableEq, Repr

namespace PrefixCall

/-- Stop tokens are published and decoding goes on. -/
def ignoreEosFlag : UInt32 := 1

/-- The tokens of the suffix. -/
def suffix (request : PrefixCall) : List UInt32 := request.suffixTokens.getD []

/-- The tokens of the whole input. -/
def input (request : PrefixCall) : List UInt32 := request.inputTokens.getD []

/-- Stop tokens are published. -/
def ignoreEos (request : PrefixCall) : Bool := request.flags &&& ignoreEosFlag != 0

/-- The shape of the request. -/
def shapeValid (request : PrefixCall) : Bool :=
  request.abiValid && request.flags &&& ~~~ignoreEosFlag == 0 && request.batchSize == 1 &&
    prefixSupported request.expectedPrefixTokenCount && request.suffixTokens.isSome &&
    request.suffix.length != 0 && decide (request.suffix.length ≤ maxSuffixTokens) &&
    request.outputTokenCapacity != 0 && decide (request.outputTokenCapacity ≤ maxOutputTokens) &&
    request.expectedBaseCommittedTokenCount == 0 && request.expectedSessionGeneration != 0 &&
    request.expectedPromptTokenIdsFnv1a64 != 0 && request.expectedSuffixTokenIdsFnv1a64 != 0 &&
    request.reserved0 == 0 && request.inputTokens.isSome &&
    request.input.length == request.expectedPrefixTokenCount + request.suffix.length &&
    request.expectedInputTokenIdsFnv1a64 != 0 &&
    (request.emitCallback || !request.emitUserData) &&
    decide (request.suffix.length + (request.outputTokenCapacity - 1) ≤ maxTailTokens)

/-- The suffix is the one that the request declares. -/
def suffixDigestValid (request : PrefixCall) : Bool :=
  digest request.suffix == request.expectedSuffixTokenIdsFnv1a64

/-- The input is the one that the request declares: the prefix, and then the suffix. -/
def inputDigestValid (request : PrefixCall) : Bool :=
  digest request.input == request.expectedInputTokenIdsFnv1a64 &&
    digest (request.input.take request.expectedPrefixTokenCount) ==
      request.expectedPromptTokenIdsFnv1a64 &&
    request.input.drop request.expectedPrefixTokenCount == request.suffix

/-- The session is the one that the request continues. -/
def holds (request : PrefixCall) (session : SessionState) : Bool :=
  session.valid && session.generation == request.expectedSessionGeneration &&
    session.promptTokenIdsFnv1a64 == request.expectedPromptTokenIdsFnv1a64

/-- The request as the core sends it. It declares what it sends. -/
def ofCore (request : PrefixRequest) : PrefixCall :=
  let suffix := request.input.drop request.expectedPrefixTokenCount
  { abiValid := true
    flags := if request.ignoreEos then ignoreEosFlag else 0
    batchSize := 1
    expectedPrefixTokenCount := request.expectedPrefixTokenCount
    suffixTokens := some suffix
    outputTokenCapacity := request.outputTokenCapacity
    expectedBaseCommittedTokenCount := 0
    expectedSessionGeneration := request.expectedSessionGeneration
    expectedPromptTokenIdsFnv1a64 := request.expectedPromptDigest
    expectedSuffixTokenIdsFnv1a64 := digest suffix
    reserved0 := 0
    inputTokens := some request.input
    expectedInputTokenIdsFnv1a64 := digest request.input
    emitCallback := request.emits
    emitUserData := request.emits }

end PrefixCall

/-! ## The run -/

/-- What the environment asks for. The continuation that is forced is `none` if it cannot be read,
    and empty if there is none. -/
structure Environment where
  matrixProvider : Bool
  q1024Owner : Bool
  teacherForced : Option (List UInt32)
  verifyAll : Bool
  verifyLowMargin : Bool
  productCommit : Bool
deriving DecidableEq, Repr

/-- What a computation leaves of the shadow and beside it. -/
structure Traces where
  linearLayers : Nat → LinearLayer
  fullAttentionLayers : Nat → FullLayer
  activationWorkspace : Workspace
  currentTokenId : UInt32
  currentTokenValid : Bool
  stillValid : Bool
  heap : Heap
  dual : List Nat

/-- A decode: what it answers, what it leaves, and how many tokens it commits if it fails or if it
    may commit others than those it delivers. -/
structure DecodeRun where
  reply : DecodeReply
  traces : Traces
  committed : Nat

/-- The owner of suffixes of a certain length. -/
structure OwnerRun where
  planValid : Bool
  completed : Bool
  failureStage : String
  tokens : List UInt32
  traces : Traces
  committed : Nat

/-- What is known of the last token of the suffix: whether its two best candidates were kept,
    whether their distance is a number, and whether it is small. -/
structure Frontier where
  present : Bool
  marginValid : Bool
  lowMargin : Bool
deriving DecidableEq, Repr

/-- What the device and the environment do while a request is served. -/
structure PrefixRun where
  environment : Environment
  prewarmed : Bool
  prewarmStage : String
  opening : OpenOutcome
  shadowBytes : Nat
  owner : OwnerRun
  decode : Nat → DecodeRun
  frontier : Frontier
  verifier : Except String UInt32
  verifierHeap : Heap
  verifierDual : List Nat
  accepts : Nat → Bool
  ttftElapsedNs : Nat
  decodeElapsedNs : Nat
  totalElapsedNs : Nat
  ending : EndOutcome

/-- How far the request has got: the provider, the decodes so far, the predictions of the suffix,
    whether they are complete, the output, and what the callback was called with. -/
structure Progress where
  device : Device
  calls : Nat
  predictions : List UInt32
  prefilled : Bool
  outputTokens : List UInt32
  timing : List TokenTiming
  decodeEndNs : Nat
  emissions : List Emission

/-- What has stopped the request, and how far it had got. -/
structure Stopped where
  stage : String
  progress : Progress

/-- The stage that was written down, or another if none was. -/
def stageOr (stage other : String) : String := if stage != "" then stage else other

section Request

variable (run : PrefixRun) (request : PrefixCall)

/-! ## Decodes -/

/-- A decode looks at its request and at the session. -/
def decodeAccepts (request : DecodeRequest) (session : SessionState) : Bool :=
  prefixSupported request.expectedPrefixTokenCount && decide (2 ≤ request.outputTokenCapacity) &&
    decide (request.outputTokenCapacity ≤ decodeMaxOutputTokens) &&
    decide (request.initialOutputTokenId < vocabSize) && request.expectedSessionGeneration != 0 &&
    request.expectedPromptDigest != 0 && session.valid && session.providerCompleted &&
    session.generation == request.expectedSessionGeneration &&
    session.promptTokenIdsFnv1a64 == request.expectedPromptDigest &&
    session.prefixTokens == request.expectedPrefixTokenCount && session.currentTokenValid &&
    session.ownerEngine.isSome && session.modelDir != ""

/-- The provider after a computation that has committed a number of tokens. -/
def Traces.leave (traces : Traces) (committed : Nat) (device : Device) : Device :=
  { device with
    heap := traces.heap
    dual := traces.dual
    session := { device.session with
      linearLayers := traces.linearLayers
      fullAttentionLayers := traces.fullAttentionLayers
      activationWorkspace := traces.activationWorkspace
      currentTokenId := traces.currentTokenId
      currentTokenValid := traces.currentTokenValid
      valid := device.session.valid && traces.stillValid
      committedDecodeTokenCount := device.session.committedDecodeTokenCount + committed } }

/-- How many tokens a decode commits. The token it begins with is not committed again. -/
def DecodeRun.commits (decode : DecodeRun) (productCommit : Bool) (request : DecodeRequest) : Nat :=
  if decode.reply.ok && !productCommit then request.outputTokenCapacity - 1 else decode.committed

/-- A decode within the request. -/
def decodeV1 (decode : DecodeRun) (productCommit : Bool) (request : DecodeRequest)
    (device : Device) : DecodeReply × Device :=
  if !decodeAccepts request device.session then ({ decode.reply with ok := false }, device)
  else (decode.reply, decode.traces.leave (decode.commits productCommit request) device)

/-- The request with the token that is decoded next. -/
def Progress.setToken (progress : Progress) (token : UInt32) : Progress :=
  { progress with
    device := { progress.device with
      session := { progress.device.session with
        currentTokenId := token
        currentTokenValid := true } } }

/-- The decode that continues from a token. -/
def decodeRequest (token : UInt32) (capacity : Nat) : DecodeRequest :=
  { expectedPrefixTokenCount := request.expectedPrefixTokenCount
    outputTokenCapacity := capacity
    initialOutputTokenId := token
    expectedSessionGeneration := request.expectedSessionGeneration
    expectedPromptDigest := request.expectedPromptTokenIdsFnv1a64
    emits := false }

/-- The next decode of the request. -/
def Progress.decode (progress : Progress) (token : UInt32) (capacity : Nat) :
    DecodeReply × Progress :=
  let called := decodeV1 (run.decode progress.calls) run.environment.productCommit
    (decodeRequest request token capacity) progress.device
  (called.1, { progress with device := called.2, calls := progress.calls + 1 })

/-! ## The suffix -/

/-- The reply to the decode of a token of the suffix is what was asked for. -/
def suffixContract (token : UInt32) (reply : DecodeReply) : Bool :=
  reply.ok && reply.completed && reply.statusOk && reply.outputTokens.length == 2 &&
    reply.outputTokens.getD 0 0 == token && decide (reply.outputTokens.getD 1 0 < vocabSize)

/-- Feed a token of the suffix, and keep what is predicted after it. -/
def suffixStep (progress : Progress) (token : UInt32) : Except Stopped Progress :=
  if !request.holds progress.device.session then
    .error { stage := "qwen36_resident_prefix_session", progress := progress }
  else
    let called := (progress.setToken token).decode run request token 2
    if !suffixContract token called.1 then
      .error
        { stage := stageOr called.1.failureStage "qwen36_resident_prefix_suffix"
          progress := called.2 }
    else
      .ok { called.2 with
        predictions := called.2.predictions ++ [called.1.outputTokens.getD 1 0] }

/-- Feed the suffix, token by token. -/
def runSuffix (progress : Progress) : Except Stopped Progress :=
  request.suffix.foldlM (suffixStep run request) progress

/-- The length of a suffix that has an owner. -/
def ownerSuffixTokens : Nat := 1024

/-- The lengths of the prefixes that the owner knows. -/
def ownerPrefixSupported (prefixTokens : Nat) : Bool :=
  [16384, 32768, 65536, 129536, 131072, 262144].contains prefixTokens

/-- The suffix goes to its owner. -/
def q1024OwnerShape : Bool :=
  run.environment.q1024Owner && ownerPrefixSupported request.expectedPrefixTokenCount &&
    request.suffix.length == ownerSuffixTokens

/-- The owner finds an untouched session that it can work on. -/
def ownerReady (session : SessionState) : Bool :=
  request.holds session && session.providerCompleted &&
    session.prefixTokens == request.expectedPrefixTokenCount &&
    session.committedDecodeTokenCount == 0 && !session.activationWorkspace.inUse &&
    session.activationWorkspace.phase == .idle && run.owner.planValid

/-- Give the suffix to its owner. The owner may also fail after it has committed. -/
def runOwner (progress : Progress) : Except Stopped Progress :=
  let owner := run.owner
  let complete := owner.completed && owner.tokens.length == ownerSuffixTokens
  let committed := if complete then ownerSuffixTokens else owner.committed
  let left := { progress with device := owner.traces.leave committed progress.device }
  if !ownerReady run request progress.device.session then
    .error { stage := "qwen36_q1024_owner_session", progress := progress }
  else if !complete then
    .error
      { stage := stageOr owner.failureStage "qwen36_resident_prefix_q1024_owner"
        progress := left }
  else .ok { left with predictions := owner.tokens }

/-- Feed the suffix, in one piece or token by token. -/
def feed (progress : Progress) : Except Stopped Progress :=
  if q1024OwnerShape run request then runOwner run request progress
  else runSuffix run request progress

/-! ## The first token -/

/-- The last prediction is to be verified. -/
def verifierRequested (forced : List UInt32) : Bool :=
  !q1024OwnerShape run request && forced.isEmpty &&
    (run.environment.verifyAll || run.environment.verifyLowMargin)

/-- Replace the last prediction. -/
def Progress.replaceLast (progress : Progress) (token : UInt32) : Progress :=
  { progress with predictions := progress.predictions.dropLast ++ [token] }

/-- The verifier leaves the session. It may retire the alternate branch. -/
def Progress.verified (progress : Progress) : Progress :=
  { progress with
    device := { progress.device with heap := run.verifierHeap, dual := run.verifierDual } }

/-- Verify the last prediction, if that is asked for and its margin is small. -/
def verifyLast (forced : List UInt32) (progress : Progress) : Except Stopped Progress :=
  if !verifierRequested run request forced then .ok progress
  else if !run.frontier.present then
    .error { stage := "qwen36_exact_low_margin_prefill_frontier", progress := progress }
  else if !run.frontier.marginValid then
    .error { stage := "qwen36_exact_low_margin_prefill_margin", progress := progress }
  else if !(run.environment.verifyAll || run.frontier.lowMargin) then .ok progress
  else
    let verified := progress.verified run
    match run.verifier with
    | .error stage =>
        .error
          { stage := stageOr stage "qwen36_exact_low_margin_prefill_verifier"
            progress := verified }
    | .ok token => .ok ((verified.replaceLast token).setToken token)

/-- The tokens that end an output. -/
def generationStopToken (token : UInt32) : Bool := token == 248044 || token == 248046

/-- How many tokens there must be before an output may end. -/
def minimumOutputTokens (forced : List UInt32) : Nat :=
  if q1024OwnerShape run request && forced.isEmpty && !request.ignoreEos then
    request.outputTokenCapacity
  else 0

/-- Call the callback with a token, if there is one. -/
def Progress.emit (progress : Progress) (index : Nat) (token : UInt32) : Bool × Progress :=
  if !request.emitCallback then (true, progress)
  else
    (run.accepts index,
      { progress with
        emissions := progress.emissions ++
          [{ sessionGeneration := request.expectedSessionGeneration
             outputIndex := index
             tokenId := token }] })

/-- The first token is the last prediction. -/
def Progress.withFirst (progress : Progress) : Progress :=
  { progress with
    prefilled := true
    outputTokens := [progress.predictions.getD (request.suffix.length - 1) 0]
    timing := [{ stepNs := run.ttftElapsedNs, endNs := 0 }] }

/-- Send the first token. -/
def sendFirst (forced : List UInt32) (progress : Progress) : Except Stopped Progress :=
  let first := progress.withFirst run request
  let token := first.outputTokens.headD 0
  if decide (1 < minimumOutputTokens run request forced) && generationStopToken token then
    .error { stage := "qwen36_resident_prefix_minimum_output_first_token", progress := first }
  else
    let sent := first.emit run request 0 token
    if !sent.1 then
      .error { stage := "qwen36_resident_prefix_prefill_callback_cancelled", progress := sent.2 }
    else .ok sent.2

/-! ## The other tokens -/

/-- The largest time that a clock can show. -/
def maxNs : Nat := 2 ^ 64 - 1

/-- Put the clock of a span behind the clock of the request, up to the first token whose clock is
    wrong. -/
def spanTiming (decodeEndNs : Nat) : List TokenTiming → Bool × List TokenTiming
  | [] => (true, [])
  | token :: tokens =>
      if token.stepNs == 0 || decide (token.endNs < token.stepNs) ||
          decide (maxNs < decodeEndNs + token.endNs) then
        (false, [])
      else
        let rest := spanTiming decodeEndNs tokens
        (rest.1, { stepNs := token.stepNs, endNs := decodeEndNs + token.endNs } :: rest.2)

/-- Call the callback with the tokens of a span, up to the first that is not accepted. -/
def Progress.emitSpan (progress : Progress) (index : Nat) : List UInt32 → Bool × Progress
  | [] => (true, progress)
  | token :: tokens =>
      let sent := progress.emit run request index token
      if !sent.1 then (false, sent.2) else sent.2.emitSpan (index + 1) tokens

/-- How many tokens the next span has. -/
def spanLength (forced : List UInt32) (progress : Progress) : Nat :=
  if forced.isEmpty then
    min (request.outputTokenCapacity - progress.outputTokens.length) (decodeMaxOutputTokens - 1)
  else 1

/-- The token that the next span begins with. -/
def spanToken (forced : List UInt32) (progress : Progress) : UInt32 :=
  if forced.isEmpty then progress.outputTokens.getLastD 0
  else forced.getD (progress.outputTokens.length - 1) 0

/-- The reply to the decode of a span is what was asked for. -/
def spanContract (token : UInt32) (span : Nat) (reply : DecodeReply) : Bool :=
  reply.ok && reply.completed && reply.statusOk && reply.outputTokens.length == span + 1 &&
    reply.timing.length == span + 1 && reply.outputTokens.getD 0 0 == token &&
    reply.timing.head? == some { stepNs := 0, endNs := 0 } && reply.tpotElapsedNs != 0

/-- The request with the tokens of a span, and with as much of its clock as could be read. -/
def Progress.addSpan (progress : Progress) (reply : DecodeReply) : Progress :=
  { progress with
    outputTokens := progress.outputTokens ++ reply.outputTokens.tail
    timing := progress.timing ++ (spanTiming progress.decodeEndNs reply.timing.tail).2 }

/-- Take over the tokens of a span and send them. -/
def acceptSpan (reply : DecodeReply) (progress : Progress) : Except Stopped Progress :=
  let added := progress.addSpan reply
  if !(spanTiming progress.decodeEndNs reply.timing.tail).1 ||
      decide (maxNs < progress.decodeEndNs + reply.tpotElapsedNs) then
    .error { stage := "qwen36_resident_prefix_decode_timing", progress := added }
  else
    let clocked := { added with decodeEndNs := progress.decodeEndNs + reply.tpotElapsedNs }
    let sent := clocked.emitSpan run request progress.outputTokens.length reply.outputTokens.tail
    if !sent.1 then
      .error { stage := "qwen36_resident_prefix_decode_callback_cancelled", progress := sent.2 }
    else .ok sent.2

/-- The request as the next span is decoded. A token that is forced is set. -/
def Progress.beginSpan (progress : Progress) (forced : List UInt32) : Progress :=
  if forced.isEmpty then progress else progress.setToken (spanToken forced progress)

/-- Decode a span. -/
def spanStep (forced : List UInt32) (progress : Progress) : Except Stopped Progress :=
  let span := spanLength request forced progress
  let token := spanToken forced progress
  if !forced.isEmpty && !request.holds progress.device.session then
    .error
      { stage := "qwen36_resident_prefix_gb10_teacher_forced_session", progress := progress }
  else
    let called := (progress.beginSpan forced).decode run request token (span + 1)
    if !spanContract token span called.1 then
      .error
        { stage := stageOr called.1.failureStage "qwen36_resident_prefix_decode"
          progress := called.2 }
    else acceptSpan run request called.1 called.2

/-- Decode span after span, until the output is complete. There are no more spans than tokens. -/
def decodeSpans (forced : List UInt32) : Nat → Progress → Except Stopped Progress
  | 0, progress => .ok progress
  | spans + 1, progress =>
      if progress.outputTokens.length < request.outputTokenCapacity then do
        let next ← spanStep run request forced progress
        decodeSpans forced spans next
      else .ok progress

/-! ## The whole request -/

/-- Serve the request on the shadow. -/
def serve (progress : Progress) : Except Stopped Progress :=
  match run.environment.teacherForced with
  | none =>
      .error { stage := "qwen36_resident_prefix_gb10_teacher_forced_parse", progress := progress }
  | some forced =>
      if !forced.isEmpty && decide (forced.length < request.outputTokenCapacity) then
        .error
          { stage := "qwen36_resident_prefix_gb10_teacher_forced_shape", progress := progress }
      else do
        let fed ← feed run request progress
        let verified ← verifyLast run request forced fed
        let first ← sendFirst run request forced verified
        decodeSpans run request forced request.outputTokenCapacity first

/-! ### The report -/

/-- The report of a request that was stopped before it began. -/
def refused (stage : String) : PrefixReply :=
  { ok := false, statusOk := false, completed := false, providerInvoked := true
    copyOnWriteTransaction := false, stateRestored := false, batchSize := 0, prefixTokenCount := 0
    suffixTokenCount := 0, outputTokenCapacity := 0, outputTokens := [], teacherForcedTokens := []
    baseCommittedTokenCount := 0, mutatedCommittedTokenCount := 0, restoredCommittedTokenCount := 0
    sessionGeneration := 0, promptDigest := 0, suffixDigest := 0, teacherForcedDigest := 0
    outputTokensDigest := 0, shadowBytes := 0, ttftElapsedNs := 0, decodeElapsedNs := 0
    tpotElapsedNs := 0, totalElapsedNs := run.totalElapsedNs, tpotSampleCount := 0, timing := []
    failureStage := stage, emissions := [] }

/-- The report of a request that was stopped when its shadow was taken. -/
def begun (stage : String) : PrefixReply :=
  { refused run stage with
    batchSize := 1
    copyOnWriteTransaction := true
    prefixTokenCount := request.expectedPrefixTokenCount
    suffixTokenCount := request.suffix.length
    outputTokenCapacity := request.outputTokenCapacity
    baseCommittedTokenCount := request.expectedBaseCommittedTokenCount
    sessionGeneration := request.expectedSessionGeneration
    promptDigest := request.expectedPromptTokenIdsFnv1a64
    suffixDigest := digest request.suffix
    shadowBytes := run.shadowBytes }

/-- The report with what the request has got to. The clock has a place for every token. -/
def progressed (stage : String) (progress : Progress) : PrefixReply :=
  let reply := { begun run request stage with emissions := progress.emissions }
  if !progress.prefilled then reply
  else
    let timing := progress.timing ++
      List.replicate (request.outputTokenCapacity - progress.timing.length)
        { stepNs := 0, endNs := 0 }
    { reply with
      ttftElapsedNs := run.ttftElapsedNs
      teacherForcedTokens := progress.predictions
      teacherForcedDigest := digest progress.predictions
      timing := timing }

/-- The report with what was rolled back. -/
def restoredReply (reply : PrefixReply) (mutated : SessionState) (back : Bool × Device) :
    PrefixReply :=
  { reply with
    mutatedCommittedTokenCount := Resident.reportedCount mutated.committedDecodeTokenCount
    stateRestored := back.1
    restoredCommittedTokenCount :=
      Resident.reportedCount back.2.session.committedDecodeTokenCount }

/-- The end of a request that was stopped after its shadow was taken. -/
def rollbackFailure (transaction : Transaction) (stopped : Stopped) : PrefixReply × Device :=
  let device := stopped.progress.device
  let back := rollback run.ending transaction device
  (restoredReply (progressed run request stopped.stage stopped.progress) device.session back,
    back.2)

/-- The report of a request that has got all its tokens. -/
def served (progress : Progress) : PrefixReply :=
  { progressed run request "" progress with
    decodeElapsedNs := run.decodeElapsedNs
    tpotElapsedNs := progress.decodeEndNs
    tpotSampleCount := request.outputTokenCapacity - 1
    outputTokens := progress.outputTokens
    outputTokensDigest := digest progress.outputTokens }

/-- The end of a request that has got all its tokens. It still fails if the session is not what it
    was. -/
def finish (transaction : Transaction) (progress : Progress) : PrefixReply × Device :=
  let back := rollback run.ending transaction progress.device
  let reply := restoredReply (served run request progress) progress.device.session back
  if !reply.stateRestored ||
      reply.restoredCommittedTokenCount != request.expectedBaseCommittedTokenCount then
    ({ reply with failureStage := "qwen36_resident_prefix_rollback" }, back.2)
  else ({ reply with ok := true, statusOk := true, completed := true }, back.2)

/-- The request when its shadow was taken. -/
def Progress.start (device : Device) : Progress :=
  { device := device, calls := 0, predictions := [], prefilled := false, outputTokens := []
    timing := [], decodeEndNs := 0, emissions := [] }

/-- Serve the request on the shadow, and end the transaction. -/
def serveShadow (transaction : Transaction) (opened : Device) : PrefixReply × Device :=
  match serve run request (Progress.start opened) with
  | .error stopped => rollbackFailure run request transaction stopped
  | .ok progress => finish run request transaction progress

/-- The end of the transaction, whatever became of it. -/
def closed (device : Device) : Device :=
  match device.transaction with
  | none => device
  | some transaction => closeTransaction run.ending transaction device

/-- The shadow was taken, and is still one of the session. -/
def shadowReady (transaction : Transaction) (device : Device) : Bool :=
  transaction.ready && device.session.valid &&
    some device.session.generation == transaction.original.map SessionState.generation

/-- How many tokens were committed to the session that was written down. -/
def baseCommitted (transaction : Transaction) : Nat :=
  (transaction.original.map SessionState.committedDecodeTokenCount).getD 0

/-- Why no shadow was taken. -/
def shadowStage (device : Device) : String :=
  if !run.opening.dualReleased then "qwen36_resident_shadow_transaction_dual_release"
  else if !acceptsShadow device.session request.expectedSessionGeneration
      request.expectedPromptTokenIdsFnv1a64 then
    "qwen36_resident_shadow_transaction_session"
  else if !(cloneSession run.opening (device.releaseDual true)).1 then
    "qwen36_resident_shadow_transaction_clone"
  else "qwen36_resident_prefix_shadow"

/-- Take the shadow and serve the request on it. -/
def transact (device : Device) : PrefixReply × Device :=
  let opened := openTransaction request.expectedSessionGeneration
    request.expectedPromptTokenIdsFnv1a64 run.opening device
  match opened.transaction with
  | none => (begun run request (shadowStage run request device), opened)
  | some transaction =>
      if !shadowReady transaction opened ||
          baseCommitted transaction != request.expectedBaseCommittedTokenCount then
        (begun run request (shadowStage run request device), closed run opened)
      else
        let answered := serveShadow run request transaction opened
        (answered.1, closed run answered.2)

/-- A prefix request. -/
def prefixV1 (device : Device) : PrefixReply × Device :=
  if !request.shapeValid then (refused run "qwen36_resident_prefix_request", device)
  else if !request.suffix.all (· < vocabSize) then
    (refused run "qwen36_resident_prefix_suffix_token", device)
  else if !request.suffixDigestValid then
    (refused run "qwen36_resident_prefix_suffix_digest", device)
  else if !request.inputDigestValid then
    (refused run "qwen36_resident_prefix_input_digest", device)
  else if run.environment.matrixProvider && !run.prewarmed then
    (refused run (stageOr run.prewarmStage "qwen36_resident_prefix_thread_plan_prewarm"), device)
  else transact run request device

end Request

end Continuation

end QrtEngine
