import QrtEngine.Core.Engine

/-!
# The Session of the Provider

The provider keeps one session, of the prompt that was prefilled last. A prefill that gets as far
as the capture releases the session that was there, and leaves a new one if every layer was
captured and the run completed. Decoding commits tokens to the session. A prefix request works on
a shadow of the session and rolls back. A reset releases the session, if it is the one the engine
expects.

What the device computes is a parameter, the script: for each call, by its number, what the call
answers and how far it gets. What follows for the session is what is modelled. Releasing a session
succeeds, each decoded token commits one, and a decode that fails leaves the session invalid.

## Main definitions

* `Session`, `ProviderState`: The session and what outlives it.
* `Script`: What the device does on each call.
* `prefillV1`, `decodeV1`, `prefixV1`, `prefixResetV1`: The entry points.
* `provider`: The provider of a script.
* `serving`: A script that serves every request with one token.
-/

namespace QrtEngine

namespace Resident

open QrtEngine.Core

/-! ## State -/

/-- The session. The owner is the engine or nobody. -/
structure Session where
  valid : Bool
  requested : Bool
  routeActive : Bool
  providerCompleted : Bool
  owned : Bool
  prefixTokens : Nat
  generation : UInt64
  promptDigest : UInt64
  committedDecodeTokenCount : Nat
  currentTokenValid : Bool
  ownedBytes : Nat
deriving DecidableEq, Repr

/-- A session that was released. -/
def Session.empty : Session :=
  { valid := false, requested := false, routeActive := false, providerCompleted := false
    owned := false, prefixTokens := 0, generation := 0, promptDigest := 0
    committedDecodeTokenCount := 0, currentTokenValid := false, ownedBytes := 0 }

/-- Nothing is left of a session. -/
def Session.isEmpty (session : Session) : Bool :=
  !session.valid && !session.requested && !session.routeActive && !session.owned &&
    session.prefixTokens == 0 && session.generation == 0 && session.promptDigest == 0 &&
    session.committedDecodeTokenCount == 0 && session.ownedBytes == 0

/-- The state of the provider: the session, the clock that numbers sessions, and how many calls
    there were. -/
structure ProviderState where
  session : Session
  generationClock : UInt64
  calls : Nat
deriving DecidableEq, Repr

/-- The provider before the first call. -/
def ProviderState.initial : ProviderState :=
  { session := Session.empty, generationClock := 0, calls := 0 }

/-- The next generation. Zero is no generation. -/
def nextGeneration (clock : UInt64) : UInt64 := if clock + 1 = 0 then 1 else clock + 1

theorem nextGeneration_ne_zero (clock : UInt64) : nextGeneration clock ≠ 0 := by
  unfold nextGeneration
  by_cases hzero : clock + 1 = 0
  · rw [if_pos hzero]
    decide
  · rw [if_neg hzero]
    exact hzero

/-! ## The device -/

/-- How far a prefill gets: to the capture, which ends the session that was there, and to a
    session with every layer captured. A session with layers owns memory. -/
structure PrefillOutcome where
  captures : Bool
  finalizes : Bool
  currentTokenValid : Bool
  ownedBytes : { bytes : Nat // 0 < bytes }
  reply : PrefillReply

/-- How a prefix request ends, and whether the session can still be used if it was not
    restored. -/
structure PrefixOutcome where
  stillValid : Bool
  reply : PrefixReply

/-- What the device does on each call, and whether sessions are kept at all. -/
structure Script where
  residentSession : Bool
  prefill : Nat → PrefillRequest → PrefillOutcome
  decode : Nat → DecodeRequest → DecodeReply
  continueFrom : Nat → PrefixRequest → PrefixOutcome
  resetElapsedNs : Nat → Nat
  resetOverheadNs : Nat → Nat
  legacy : Nat → List UInt32 → Nat → LegacyReply

section EntryPoints

variable (script : Script)

/-- The session a finished prefill leaves behind. -/
def captured (clock : UInt64) (request : PrefillRequest) (outcome : PrefillOutcome) : Session :=
  if script.residentSession && outcome.finalizes then
    { valid := true, requested := true, routeActive := true, providerCompleted := true
      owned := true, prefixTokens := request.input.length, generation := nextGeneration clock
      promptDigest := digest request.input, committedDecodeTokenCount := 0
      currentTokenValid := outcome.currentTokenValid, ownedBytes := outcome.ownedBytes }
  else Session.empty

/-- The reply with what it says about the session. -/
def reportSession (reply : PrefillReply) (session : Session) : PrefillReply :=
  { reply with
    sessionValid := session.valid && session.currentTokenValid
    sessionPrefixTokenCount :=
      if session.prefixTokens ≤ 2 ^ 32 - 1 then session.prefixTokens else 0
    sessionGeneration := session.generation
    sessionPromptDigest := session.promptDigest }

/-- A prefill. -/
def prefillV1 (s : ProviderState) (request : PrefillRequest) : PrefillReply × ProviderState :=
  let outcome := script.prefill s.calls request
  if !outcome.captures then
    -- It fails before the capture, and the session that was there stays.
    (reportSession { outcome.reply with ok := false } Session.empty,
      { s with calls := s.calls + 1 })
  else
    let session := captured script s.generationClock request outcome
    (reportSession outcome.reply session,
      { session := session
        generationClock := if script.residentSession then nextGeneration s.generationClock
          else s.generationClock
        calls := s.calls + 1 })

/-- The session is the one that a decode request continues. -/
def Session.continues (session : Session) (request : DecodeRequest) : Bool :=
  session.valid && session.providerCompleted &&
    session.generation == request.expectedSessionGeneration &&
    session.promptDigest == request.expectedPromptDigest &&
    session.prefixTokens == request.expectedPrefixTokenCount && session.currentTokenValid &&
    session.owned

/-- A decode. -/
def decodeV1 (s : ProviderState) (request : DecodeRequest) : DecodeReply × ProviderState :=
  let reply := script.decode s.calls request
  if !s.session.continues request then
    ({ reply with ok := false }, { s with calls := s.calls + 1 })
  -- The initial token of the request is not committed, the others are.
  else if reply.ok then
    (reply,
      { s with
        session := { s.session with
          committedDecodeTokenCount :=
            s.session.committedDecodeTokenCount + (reply.outputTokens.length - 1) }
        calls := s.calls + 1 })
  else
    -- A failed decode invalidates the session and keeps everything else of it.
    (reply, { s with session := { s.session with valid := false }, calls := s.calls + 1 })

/-- The session is one that a prefix request can take a shadow of. -/
def Session.shadows (session : Session) (request : PrefixRequest) : Bool :=
  session.valid && session.providerCompleted && session.generation != 0 &&
    session.generation == request.expectedSessionGeneration &&
    session.promptDigest == request.expectedPromptDigest &&
    session.committedDecodeTokenCount == 0

/-- A prefix request. -/
def prefixV1 (s : ProviderState) (request : PrefixRequest) : PrefixReply × ProviderState :=
  let outcome := script.continueFrom s.calls request
  if !s.session.shadows request then
    -- There was no shadow to roll back to, so the state is not reported as restored.
    ({ outcome.reply with ok := false, stateRestored := false }, { s with calls := s.calls + 1 })
  else if outcome.reply.stateRestored || outcome.stillValid then
    (outcome.reply, { s with calls := s.calls + 1 })
  else
    (outcome.reply,
      { s with session := { s.session with valid := false }, calls := s.calls + 1 })

/-- A number of tokens that the provider keeps sessions of. -/
def prefixSupported (prefixTokens : Nat) : Bool :=
  decide (0 < prefixTokens) && decide (prefixTokens ≤ maxPositionEmbeddings)

/-- The request for a reset names a session, or it names nothing. -/
def resetRequestValid (request : ResetRequest) : Bool :=
  if request.expectedSessionValid then
    prefixSupported request.expectedPrefixTokenCount && request.expectedSessionGeneration != 0 &&
      request.expectedPromptDigest != 0
  else
    request.expectedPrefixTokenCount == 0 && request.expectedSessionGeneration == 0 &&
      request.expectedPromptDigest == 0

/-- The session belongs to the engine that asks for the reset. -/
def resetOwnerMatch (session : Session) (request : ResetRequest) : Bool :=
  if request.expectedSessionValid then session.owned else session.isEmpty

/-- The session is the one that the request for a reset names. Committed tokens do not count. -/
def resetIdentityMatch (session : Session) (request : ResetRequest) : Bool :=
  if request.expectedSessionValid then
    session.valid && session.providerCompleted && resetOwnerMatch session request &&
      session.prefixTokens == request.expectedPrefixTokenCount &&
      session.generation == request.expectedSessionGeneration &&
      session.promptDigest == request.expectedPromptDigest
  else session.isEmpty && resetOwnerMatch session request

/-- A number of tokens as it is reported. -/
def reportedCount (count : Nat) : Nat := if count ≤ 2 ^ 32 - 1 then count else 2 ^ 32 - 1

/-- The reply to a reset that was refused. The session before it is reported if it was looked
    at. -/
def resetRefused (s : ProviderState) (request : ResetRequest) (looked : Bool) (elapsedNs : Nat)
    (stage : String) : ResetReply :=
  let session := if looked then s.session else Session.empty
  { ok := false
    statusOk := false
    completed := false
    providerInvoked := true
    providerCompleted := false
    ownerMatch := looked && resetOwnerMatch s.session request
    idempotent := false
    sessionValidBefore := session.valid
    sessionValidAfter := false
    prefixTokenCountBefore := reportedCount session.prefixTokens
    prefixTokenCountAfter := 0
    committedTokenCountAfter := 0
    sessionGenerationBefore := session.generation
    sessionGenerationAfter := 0
    promptDigestBefore := session.promptDigest
    promptDigestAfter := 0
    generationClockBefore := if looked then s.generationClock else 0
    generationClockAfter := 0
    stateBytesBefore := session.ownedBytes
    stateBytesAfter := 0
    stateBytesReleased := 0
    sharedModelWeightsRetained := true
    resetElapsedNs := 0
    totalElapsedNs := elapsedNs
    failureStage := stage }

/-- The reply to a reset that has released the session. -/
def resetDone (s : ProviderState) (request : ResetRequest) (resetNs totalNs : Nat) : ResetReply :=
  { ok := true
    statusOk := true
    completed := true
    providerInvoked := true
    providerCompleted := true
    ownerMatch := resetOwnerMatch s.session request
    idempotent := !request.expectedSessionValid
    sessionValidBefore := s.session.valid
    sessionValidAfter := Session.empty.valid
    prefixTokenCountBefore := reportedCount s.session.prefixTokens
    prefixTokenCountAfter := reportedCount Session.empty.prefixTokens
    committedTokenCountAfter := reportedCount Session.empty.committedDecodeTokenCount
    sessionGenerationBefore := s.session.generation
    sessionGenerationAfter := Session.empty.generation
    promptDigestBefore := s.session.promptDigest
    promptDigestAfter := Session.empty.promptDigest
    generationClockBefore := s.generationClock
    generationClockAfter := s.generationClock
    stateBytesBefore := s.session.ownedBytes
    stateBytesAfter := Session.empty.ownedBytes
    stateBytesReleased := s.session.ownedBytes - Session.empty.ownedBytes
    sharedModelWeightsRetained := true
    resetElapsedNs := resetNs
    totalElapsedNs := totalNs
    failureStage := "" }

/-- A reset. The time of the release is part of the whole time. -/
def prefixResetV1 (s : ProviderState) (request : ResetRequest) : ResetReply × ProviderState :=
  let overheadNs := script.resetOverheadNs s.calls
  let called := { s with calls := s.calls + 1 }
  if !resetRequestValid request then
    (resetRefused s request false overheadNs "qwen36_resident_prefix_cache_reset_request", called)
  else if !resetIdentityMatch s.session request then
    (resetRefused s request true overheadNs "qwen36_resident_prefix_cache_reset_identity", called)
  else
    let resetNs := script.resetElapsedNs s.calls
    (resetDone s request resetNs (resetNs + overheadNs), { called with session := Session.empty })

/-- The provider of a script. -/
def provider : Provider ProviderState :=
  { prefillV1 := prefillV1 script
    decodeV1 := decodeV1 script
    prefixV1 := prefixV1 script
    prefixResetV1 := prefixResetV1 script
    legacy := fun s input capacity =>
      (script.legacy s.calls input capacity, { s with calls := s.calls + 1 }) }

end EntryPoints

/-! ## A script that serves -/

/-- Tokens that take one nanosecond each. -/
def steadySteps : Nat → Nat → List TokenTiming
  | _, 0 => []
  | endNs, count + 1 => { stepNs := 1, endNs := endNs + 1 } :: steadySteps (endNs + 1) count

/-- The calls of the callback for tokens that are numbered from an index on. -/
def emissionsFrom (sessionGeneration : UInt64) : Nat → List UInt32 → List Emission
  | _, [] => []
  | index, token :: tokens =>
      { sessionGeneration := sessionGeneration, outputIndex := index, tokenId := token } ::
        emissionsFrom sessionGeneration (index + 1) tokens

/-- The reply that serves a prefill with a token. -/
def servePrefill (token : UInt32) (request : PrefillRequest) : PrefillReply :=
  let emits := if request.emits then 1 else 0
  { ok := true
    completed := true
    providedSurfaces := requiredSurfaces
    emitAttempted := emits
    emitCompleted := emits
    emitRejected := 0
    emitElapsedNs := emits
    outputTokenCapacity := request.outputTokenCapacity
    outputTokens := [token]
    outputTokensDigest := digest [token]
    outputTokenEmitted := true
    outputTokenId := token
    outputLogitWithinTolerance := true
    promptDigest := digest request.input
    sessionValid := false
    sessionPrefixTokenCount := 0
    sessionGeneration := 0
    sessionPromptDigest := 0
    failureStage := ""
    emissions := if request.emits then [token] else [] }

/-- The reply that serves a decode with tokens. -/
def serveDecode (tokens : List UInt32) (request : DecodeRequest) : DecodeReply :=
  let outputs := request.initialOutputTokenId :: tokens
  { ok := true
    statusOk := true
    completed := true
    batchSize := 1
    outputTokenCapacity := request.outputTokenCapacity
    outputTokens := outputs
    prefillTokenCount := 1
    decodeTokenCount := tokens.length
    timing := { stepNs := 0, endNs := 0 } :: steadySteps 0 tokens.length
    sessionGeneration := request.expectedSessionGeneration
    promptDigest := request.expectedPromptDigest
    tpotElapsedNs := tokens.length
    wallClockNs := tokens.length
    outputTokensDigest := digest outputs
    failureStage := ""
    emissions := if request.emits then emissionsFrom request.expectedSessionGeneration 1 tokens
      else [] }

/-- The reply that serves a prefix request with tokens. -/
def servePrefix (tokens : List UInt32) (request : PrefixRequest) : PrefixReply :=
  let suffix := request.input.drop request.expectedPrefixTokenCount
  { ok := true
    statusOk := true
    completed := true
    providerInvoked := true
    copyOnWriteTransaction := true
    stateRestored := true
    batchSize := 1
    prefixTokenCount := request.expectedPrefixTokenCount
    suffixTokenCount := suffix.length
    outputTokenCapacity := request.outputTokenCapacity
    outputTokens := tokens
    teacherForcedTokens := suffix
    baseCommittedTokenCount := 0
    mutatedCommittedTokenCount := suffix.length + tokens.length - 1
    restoredCommittedTokenCount := 0
    sessionGeneration := request.expectedSessionGeneration
    promptDigest := request.expectedPromptDigest
    suffixDigest := digest suffix
    teacherForcedDigest := digest suffix
    outputTokensDigest := digest tokens
    shadowBytes := 1
    ttftElapsedNs := 1
    decodeElapsedNs := tokens.length
    tpotElapsedNs := tokens.length - 1
    totalElapsedNs := tokens.length
    tpotSampleCount := tokens.length - 1
    timing := { stepNs := 1, endNs := 0 } :: steadySteps 0 (tokens.length - 1)
    failureStage := ""
    emissions := if request.emits then emissionsFrom request.expectedSessionGeneration 0 tokens
      else [] }

/-- A script that serves every request with one token, over and over. -/
def serving (token : UInt32) : Script :=
  { residentSession := true
    prefill := fun _ request =>
      { captures := true, finalizes := true, currentTokenValid := true
        ownedBytes := ⟨1, Nat.one_pos⟩, reply := servePrefill token request }
    decode := fun _ request =>
      serveDecode (List.replicate (request.outputTokenCapacity - 1) token) request
    continueFrom := fun _ request =>
      { stillValid := true
        reply := servePrefix (List.replicate request.outputTokenCapacity token) request }
    resetElapsedNs := fun _ => 1
    resetOverheadNs := fun _ => 1
    legacy := fun _ _ capacity =>
      { status := .ok, outputTokens := List.replicate capacity token, failureStage := "" } }

end Resident

end QrtEngine
