import QrtEngine.Bridge.Transparency
import QrtEngine.Provider.PrefixAtomicity

/-!
# Outputs in Spans

A decode yields no more than so many tokens, so a longer output is decoded in spans. There are two
loops that do this, the one of the core for an ordinary request and the one of the provider for a
prefix request, written apart. A span begins with the last token of the output so far, which it
repeats, and yields the tokens after it. The core adds a base to the indices that a span numbers
from one on, and the provider puts the clock of a span, which begins at zero, behind the clock of
the request.

How many tokens a span may have is a constant of the code. Here it is a parameter, the limit, and
nothing but two tokens at least is asked of it. The decodes of the provider are a parameter too,
and may depend on the request and on the device.

If each span is greedy, both loops answer with the greedy chain of the prompt, as one decode without
a limit would, and end when the output is complete. The clocks of the spans make up a clock that the
core accepts.

## Main definitions

* `Core.decodeSpansWith`, `Continuation.decodeSpansWith`: The two loops.
* `clockValid`, `SpanReply`: The two parts of what the core checks of a span.
* `SpanDecoder`: Each span is greedy.
* `CoreSpans`, `PrefixSpans`: What the two loops begin with.
* `CoreChunked`, `PrefixChunked`: What they do.

## Theorems

* `Core.decodeSpansWith_max`, `Continuation.decodeSpansWith_max`: With the constant of the code they
  are the loops of the code.
* `Core.decodeSpansWith_fuel`, `Continuation.decodeSpansWith_fuel`: They end by themselves.
* `spanTiming_lastEnd`: The clock of a span behind another one.
* `decodeSpansWith_chain`: Both loops answer with the chain.
-/

namespace QrtEngine

/-! ## The loop of the core -/

namespace Core

section Spans

variable {σ : Type} (limit : Nat) (provider : Provider σ) (callback : Callback)

/-- The request for the next span of a continuation. -/
def decodeRequestWith (engine : Engine) (input : List UInt32) (prefill : PrefillReply)
    (capacity : Nat) (outputs : List UInt32) : DecodeRequest :=
  { decodeRequest engine input prefill capacity outputs with
    outputTokenCapacity := min (capacity - outputs.length) (limit - 1) + 1 }

/-- The reply to a decode request is what was asked for. -/
def decodeResultValidWith (request : DecodeRequest) (reply : DecodeReply) : Bool :=
  reply.statusOk && reply.completed && reply.batchSize == 1 &&
  reply.outputTokenCapacity == request.outputTokenCapacity &&
  reply.outputTokens.length == request.outputTokenCapacity &&
  decide (2 ≤ reply.outputTokens.length) &&
  decide (reply.outputTokens.length ≤ limit) &&
  reply.prefillTokenCount == 1 && reply.decodeTokenCount == reply.outputTokens.length - 1 &&
  reply.timing.length == reply.outputTokens.length &&
  reply.sessionGeneration == request.expectedSessionGeneration &&
  reply.promptDigest == request.expectedPromptDigest &&
  reply.outputTokens.head? == some request.initialOutputTokenId &&
  reply.outputTokens.all (· < vocabSize) &&
  reply.timing.head? == some { stepNs := 0, endNs := 0 } &&
  lastEnd 0 reply.timing.tail == some reply.tpotElapsedNs &&
  decide (reply.tpotElapsedNs ≤ reply.wallClockNs) &&
  reply.outputTokensDigest == digest reply.outputTokens

/-- Decode the continuation span by span. -/
def decodeSpansWith (input : List UInt32) (prefill : PrefillReply) (capacity : Nat) :
    Nat → Engine → σ → List UInt32 → Outcome × Engine × σ
  | 0, engine, s, outputs => ({ status := .ok, outputTokens := outputs }, engine, s)
  | fuel + 1, engine, s, outputs =>
      if capacity ≤ outputs.length then
        ({ status := .ok, outputTokens := outputs }, engine, s)
      else
        let request := decodeRequestWith limit engine input prefill capacity outputs
        let result := provider.decodeV1 s request
        let reply := result.1
        let stream :=
          if request.emits then
            reply.emissions.foldl
              (decodeEmission callback prefill.sessionGeneration (outputs.length - 1))
              engine.stream
          else engine.stream
        let engine := { engine with stream := stream }
        if !reply.ok || !decodeResultValidWith limit request reply then
          (.failed .unsupported,
            engine.fail (.ofProvider reply.failureStage .decodeContract), result.2)
        else
          decodeSpansWith input prefill capacity fuel engine result.2
            (outputs ++ reply.outputTokens.tail)

/-- With the constant of the code it is the loop of the code. -/
theorem decodeSpansWith_max (input : List UInt32) (prefill : PrefillReply) (capacity fuel : Nat)
    (engine : Engine) (s : σ) (outputs : List UInt32) :
    decodeSpansWith decodeMaxOutputTokens provider callback input prefill capacity fuel engine s
        outputs =
      decodeSpans provider callback input prefill capacity fuel engine s outputs := by
  induction fuel generalizing engine s outputs with
  | zero => rfl
  | succ fuel ih =>
      have hrequest :
          decodeRequestWith decodeMaxOutputTokens engine input prefill capacity outputs =
            decodeRequest engine input prefill capacity outputs := rfl
      have hvalid : decodeResultValidWith decodeMaxOutputTokens = decodeResultValid := rfl
      simp only [decodeSpansWith, decodeSpans, hrequest, hvalid, ih]

/-- A span that passes the check adds to the output. -/
theorem two_le_of_decodeResultValidWith (request : DecodeRequest) (reply : DecodeReply)
    (h : decodeResultValidWith limit request reply = true) : 2 ≤ reply.outputTokens.length := by
  unfold decodeResultValidWith at h
  simp only [Bool.and_eq_true, decide_eq_true_eq] at h
  exact h.1.1.1.1.1.1.1.1.1.1.1.1.2

/-- The loop ends by itself: as much fuel as there are tokens missing is enough, and more changes
    nothing. -/
theorem decodeSpansWith_fuel (input : List UInt32) (prefill : PrefillReply)
    (capacity fuel more : Nat) (engine : Engine) (s : σ) (outputs : List UInt32)
    (hfuel : capacity ≤ outputs.length + fuel) :
    decodeSpansWith limit provider callback input prefill capacity (fuel + more) engine s outputs =
      decodeSpansWith limit provider callback input prefill capacity fuel engine s outputs := by
  induction fuel generalizing engine s outputs with
  | zero =>
      cases more with
      | zero => rfl
      | succ more =>
          rw [Nat.zero_add]
          unfold decodeSpansWith
          rw [if_pos (by omega)]
  | succ fuel ih =>
      rw [Nat.succ_add, decodeSpansWith, decodeSpansWith]
      by_cases hdone : capacity ≤ outputs.length
      · rw [if_pos hdone, if_pos hdone]
      · rw [if_neg hdone, if_neg hdone]
        dsimp only
        generalize decodeRequestWith limit engine input prefill capacity outputs = request
        by_cases hfailed : (!(provider.decodeV1 s request).1.ok ||
            !decodeResultValidWith limit request (provider.decodeV1 s request).1) = true
        · rw [if_pos hfailed, if_pos hfailed]
        · rw [if_neg hfailed, if_neg hfailed]
          simp only [Bool.or_eq_true, Bool.not_eq_true', not_or, Bool.not_eq_false] at hfailed
          have hgrows := two_le_of_decodeResultValidWith limit request _ hfailed.2
          refine ih _ _ _ ?_
          rw [List.length_append, List.length_tail]
          omega

end Spans

end Core

/-! ## The loop of the provider -/

namespace Continuation

open QrtEngine.Core
open QrtEngine.Layered
open QrtEngine.Shadow

/-- What a decode does, from the decodes before it, the device and the request. -/
abbrev Decodes := Nat → Device → DecodeRequest → DecodeRun

section Spans

variable (limit : Nat) (run : PrefixRun) (decodes : Decodes) (request : PrefixCall)

/-- A decode looks at its request and at the session. -/
def decodeAcceptsWith (request : DecodeRequest) (session : SessionState) : Bool :=
  prefixSupported request.expectedPrefixTokenCount && decide (2 ≤ request.outputTokenCapacity) &&
    decide (request.outputTokenCapacity ≤ limit) &&
    decide (request.initialOutputTokenId < vocabSize) && request.expectedSessionGeneration != 0 &&
    request.expectedPromptDigest != 0 && session.valid && session.providerCompleted &&
    session.generation == request.expectedSessionGeneration &&
    session.promptTokenIdsFnv1a64 == request.expectedPromptDigest &&
    session.prefixTokens == request.expectedPrefixTokenCount && session.currentTokenValid &&
    session.ownerEngine.isSome && session.modelDir != ""

/-- A decode within the request. It counts the decodes. -/
def decodeV1With (s : Nat × Device) (request : DecodeRequest) : DecodeReply × Nat × Device :=
  let decode := decodes s.1 s.2 request
  if !decodeAcceptsWith limit request s.2.session then
    ({ decode.reply with ok := false }, s.1 + 1, s.2)
  else
    (decode.reply, s.1 + 1,
      decode.traces.leave (decode.commits run.environment.productCommit request) s.2)

/-- The next decode of the request. -/
def Progress.decodeWith (progress : Progress) (token : UInt32) (capacity : Nat) :
    DecodeReply × Progress :=
  let called := decodeV1With limit run decodes (progress.calls, progress.device)
    (decodeRequest request token capacity)
  (called.1, { progress with device := called.2.2, calls := called.2.1 })

/-- How many tokens the next span has. -/
def spanLengthWith (forced : List UInt32) (progress : Progress) : Nat :=
  if forced.isEmpty then
    min (request.outputTokenCapacity - progress.outputTokens.length) (limit - 1)
  else 1

/-- Decode a span. -/
def spanStepWith (forced : List UInt32) (progress : Progress) : Except Stopped Progress :=
  let span := spanLengthWith limit request forced progress
  let token := spanToken forced progress
  if !forced.isEmpty && !request.holds progress.device.session then
    .error
      { stage := "qwen36_resident_prefix_gb10_teacher_forced_session", progress := progress }
  else
    let called := (progress.beginSpan forced).decodeWith limit run decodes request token (span + 1)
    if !spanContract token span called.1 then
      .error
        { stage := stageOr called.1.failureStage "qwen36_resident_prefix_decode"
          progress := called.2 }
    else acceptSpan run request called.1 called.2

/-- Decode span after span, until the output is complete. -/
def decodeSpansWith (forced : List UInt32) : Nat → Progress → Except Stopped Progress
  | 0, progress => .ok progress
  | spans + 1, progress =>
      if progress.outputTokens.length < request.outputTokenCapacity then do
        let next ← spanStepWith limit run decodes request forced progress
        decodeSpansWith forced spans next
      else .ok progress

/-- With the constant of the code and the decodes of the run it is the loop of the code. -/
theorem decodeSpansWith_max (forced : List UInt32) (spans : Nat) (progress : Progress) :
    decodeSpansWith decodeMaxOutputTokens run (fun calls _ _ => run.decode calls) request forced
        spans progress =
      decodeSpans run request forced spans progress := by
  have hdecode (progress : Progress) (token : UInt32) (capacity : Nat) :
      progress.decodeWith decodeMaxOutputTokens run (fun calls _ _ => run.decode calls) request
          token capacity =
        progress.decode run request token capacity := by
    have haccepts : decodeAcceptsWith decodeMaxOutputTokens = decodeAccepts := rfl
    unfold Progress.decodeWith Progress.decode decodeV1With decodeV1
    rw [haccepts]
    cases decodeAccepts (decodeRequest request token capacity) progress.device.session with
    | false => rfl
    | true => rfl
  have hlength : spanLengthWith decodeMaxOutputTokens request = spanLength request := rfl
  have hstep (progress : Progress) :
      spanStepWith decodeMaxOutputTokens run (fun calls _ _ => run.decode calls) request forced
          progress =
        spanStep run request forced progress := by
    simp only [spanStepWith, spanStep, hdecode, hlength]
  induction spans generalizing progress with
  | zero => rfl
  | succ spans ih => simp only [decodeSpansWith, decodeSpans, hstep, ih]

/-- A span that is taken over adds to the output. -/
theorem spanStepWith_grows (hlimit : 2 ≤ limit) (forced : List UInt32) (progress after : Progress)
    (hmissing : progress.outputTokens.length < request.outputTokenCapacity)
    (h : spanStepWith limit run decodes request forced progress = .ok after) :
    progress.outputTokens.length < after.outputTokens.length := by
  -- A span asks for a token more than the one it begins with.
  have hsome : 1 ≤ spanLengthWith limit request forced progress := by
    unfold spanLengthWith
    cases forced.isEmpty with
    | false => exact Nat.le_refl 1
    | true =>
        rw [if_pos rfl]
        omega
  have hbegun := (beginSpan_committed forced progress).2
  unfold spanStepWith at h
  dsimp only at h
  split_ifs at h with hlost hbad
  have hcalled : ((progress.beginSpan forced).decodeWith limit run decodes request
      (spanToken forced progress)
      (spanLengthWith limit request forced progress + 1)).2.outputTokens =
      progress.outputTokens := hbegun
  generalize (progress.beginSpan forced).decodeWith limit run decodes request
    (spanToken forced progress) (spanLengthWith limit request forced progress + 1) = called at *
  have haccepted := acceptSpan_yields run request called.1 called.2
  rw [h] at haccepted
  simp only [spanContract, Bool.not_eq_true', Bool.not_eq_false, Bool.and_eq_true,
    beq_iff_eq] at hbad
  -- Its reply repeats that one, and the others are new.
  rcases hbad with ⟨⟨⟨⟨⟨⟨⟨-, -⟩, -⟩, hlength⟩, -⟩, -⟩, -⟩, -⟩
  rw [haccepted.2, hcalled, List.length_append, List.length_tail, hlength]
  omega

/-- The loop ends by itself: as many spans as there are tokens missing are enough, and more change
    nothing. -/
theorem decodeSpansWith_fuel (hlimit : 2 ≤ limit) (forced : List UInt32) (spans more : Nat)
    (progress : Progress)
    (henough : request.outputTokenCapacity ≤ progress.outputTokens.length + spans) :
    decodeSpansWith limit run decodes request forced (spans + more) progress =
      decodeSpansWith limit run decodes request forced spans progress := by
  induction spans generalizing progress with
  | zero =>
      cases more with
      | zero => rfl
      | succ more =>
          rw [Nat.zero_add]
          unfold decodeSpansWith
          rw [if_neg (by omega)]
  | succ spans ih =>
      rw [Nat.succ_add, decodeSpansWith, decodeSpansWith]
      by_cases hmissing : progress.outputTokens.length < request.outputTokenCapacity
      · rw [if_pos hmissing, if_pos hmissing]
        cases hstep : spanStepWith limit run decodes request forced progress with
        | error stopped => rfl
        | ok after =>
            have hgrows := spanStepWith_grows limit run decodes request hlimit forced progress after
              hmissing hstep
            exact ih after (by omega)
      · rw [if_neg hmissing, if_neg hmissing]

end Spans

end Continuation

namespace Spans

open QrtEngine.Core
open QrtEngine.Layered
open QrtEngine.Shadow
open QrtEngine.Continuation
open Resident (LiveSession emissionsFrom serveDecode steadySteps)
open Bridge (decodeEmissions_sent span_goes)

/-! ## What a span answers -/

/-- The clock of a span is valid: it begins at zero, its steps are the differences of its ends, and
    the last end is the time that was reported. -/
def clockValid (reply : DecodeReply) : Bool :=
  reply.timing.head? == some { stepNs := 0, endNs := 0 } &&
    lastEnd 0 reply.timing.tail == some reply.tpotElapsedNs &&
    decide (reply.tpotElapsedNs ≤ reply.wallClockNs)

/-- The reply of a span, but for its clock. -/
structure SpanReply (request : DecodeRequest) (tokens : List UInt32) (reply : DecodeReply) :
    Prop where
  ok : reply.ok = true
  statusOk : reply.statusOk = true
  completed : reply.completed = true
  batchSize : reply.batchSize = 1
  outputTokenCapacity : reply.outputTokenCapacity = request.outputTokenCapacity
  outputTokens : reply.outputTokens = tokens
  prefillTokenCount : reply.prefillTokenCount = 1
  decodeTokenCount : reply.decodeTokenCount = tokens.length - 1
  timing : reply.timing.length = tokens.length
  sessionGeneration : reply.sessionGeneration = request.expectedSessionGeneration
  promptDigest : reply.promptDigest = request.expectedPromptDigest
  outputTokensDigest : reply.outputTokensDigest = digest tokens
  emissions : reply.emissions =
    if request.emits then emissionsFrom request.expectedSessionGeneration 1 tokens.tail else []

/-- A reply with the tokens that were asked for passes the check of the core if its clock does. -/
theorem SpanReply.decodeResultValidWith {request : DecodeRequest} {tokens : List UInt32}
    {reply : DecodeReply} (h : SpanReply request tokens reply) (limit : Nat)
    (hlength : tokens.length = request.outputTokenCapacity)
    (hmany : 2 ≤ request.outputTokenCapacity) (hfew : request.outputTokenCapacity ≤ limit)
    (hfirst : tokens.head? = some request.initialOutputTokenId)
    (hvocab : tokens.all (· < vocabSize) = true) :
    decodeResultValidWith limit request reply = clockValid reply := by
  unfold Core.decodeResultValidWith clockValid
  simp only [h.statusOk, h.completed, h.batchSize, h.outputTokenCapacity, h.outputTokens, hlength,
    h.prefillTokenCount, h.decodeTokenCount, h.timing, h.sessionGeneration, h.promptDigest, hfirst,
    hvocab, h.outputTokensDigest, beq_self_eq_true, hmany, hfew, decide_true, Bool.and_true,
    Bool.true_and]

/-- It passes the check of the provider, which reads less of the clock. -/
theorem SpanReply.spanContract {request : DecodeRequest} {tokens : List UInt32}
    {reply : DecodeReply} (h : SpanReply request tokens reply) {token : UInt32} (span : Nat)
    (hlength : tokens.length = span + 1) (hfirst : token = tokens.getD 0 0)
    (hhead : reply.timing.head? = some { stepNs := 0, endNs := 0 })
    (hpos : reply.tpotElapsedNs ≠ 0) :
    spanContract token span reply = true := by
  unfold Continuation.spanContract
  simp only [h.ok, h.statusOk, h.completed, h.outputTokens, h.timing, hlength, hfirst, hhead,
    beq_self_eq_true, Bool.and_self, Bool.true_and, bne_iff_ne, ne_eq, hpos, not_false_eq_true]

/-- A session that has seen some tokens more of the chain. -/
def seenAfter (next : List UInt32 → UInt32) (session : LiveSession) (count : Nat) : LiveSession :=
  { session with tokens := session.tokens ++ chain next session.tokens count }

theorem seenAfter_zero (next : List UInt32 → UInt32) (session : LiveSession) :
    seenAfter next session 0 = session := by
  unfold seenAfter
  rw [chain, List.append_nil]

theorem seenAfter_add (next : List UInt32 → UInt32) (session : LiveSession) (m n : Nat) :
    seenAfter next (seenAfter next session m) n = seenAfter next session (m + n) := by
  unfold seenAfter
  rw [List.append_assoc, ← chain_add]

/-- Each span is greedy. A session that a request names, with the greedy token as the one to begin
    with, answers with that token and those after it, and has then seen all of them but the last. -/
structure SpanDecoder {σ : Type} (limit : Nat) (decode : σ → DecodeRequest → DecodeReply × σ)
    (next : List UInt32 → UInt32) (live : σ → Option LiveSession) : Prop where
  vocab : ∀ tokens, next tokens < vocabSize
  answers : ∀ s request session, live s = some session → session.decodedBy request →
    request.initialOutputTokenId = next session.tokens →
    2 ≤ request.outputTokenCapacity → request.outputTokenCapacity ≤ limit →
    SpanReply request (chain next session.tokens request.outputTokenCapacity)
      (decode s request).1 ∧
    live (decode s request).2 = some (seenAfter next session (request.outputTokenCapacity - 1))

/-! ## Clocks -/

/-- The first token of a clock that is valid, and the others. -/
theorem lastEnd_cons (token : TokenTiming) (timing : List TokenTiming) (previousEnd endNs : Nat)
    (h : lastEnd previousEnd (token :: timing) = some endNs) :
    0 < token.stepNs ∧ token.endNs = previousEnd + token.stepNs ∧
      lastEnd token.endNs timing = some endNs := by
  unfold lastEnd at h
  by_cases hbad : token.stepNs = 0 ∨ token.endNs ≤ previousEnd ∨
      token.endNs - previousEnd ≠ token.stepNs
  · rw [if_pos hbad] at h
    cases h
  · rw [if_neg hbad] at h
    exact ⟨by omega, by omega, h⟩

/-- A token that goes on from an end, before the others. -/
theorem lastEnd_cons_of (token : TokenTiming) (timing : List TokenTiming) (previousEnd : Nat)
    (hstep : 0 < token.stepNs) (hend : token.endNs = previousEnd + token.stepNs) :
    lastEnd previousEnd (token :: timing) = lastEnd token.endNs timing := by
  rw [lastEnd, if_neg (by omega)]

/-- A clock ends no earlier than it begins. -/
theorem le_of_lastEnd (timing : List TokenTiming) (previousEnd endNs : Nat)
    (h : lastEnd previousEnd timing = some endNs) : previousEnd ≤ endNs := by
  induction timing generalizing previousEnd with
  | nil => exact Nat.le_of_eq (Option.some.inj h)
  | cons token timing ih =>
      rcases lastEnd_cons token timing previousEnd endNs h with ⟨-, hend, hrest⟩
      have hle := ih token.endNs hrest
      omega

/-- A clock with a token ends later than it begins. -/
theorem lt_of_lastEnd (timing : List TokenTiming) (previousEnd endNs : Nat)
    (h : lastEnd previousEnd timing = some endNs) (hne : timing ≠ []) : previousEnd < endNs := by
  cases timing with
  | nil => exact absurd rfl hne
  | cons token timing =>
      rcases lastEnd_cons token timing previousEnd endNs h with ⟨hstep, hend, hrest⟩
      have hle := le_of_lastEnd timing token.endNs endNs hrest
      omega

/-- A clock in two pieces. -/
theorem lastEnd_append (timing more : List TokenTiming) (previousEnd endNs : Nat)
    (h : lastEnd previousEnd timing = some endNs) :
    lastEnd previousEnd (timing ++ more) = lastEnd endNs more := by
  induction timing generalizing previousEnd with
  | nil =>
      rw [Option.some.inj h]
      rfl
  | cons token timing ih =>
      rcases lastEnd_cons token timing previousEnd endNs h with ⟨hstep, hend, hrest⟩
      rw [List.cons_append, lastEnd_cons_of token _ previousEnd hstep hend]
      exact ih token.endNs hrest

/-- The clock of a span behind another one goes on from where that one ended. -/
theorem spanTiming_lastEnd (base : Nat) (timing : List TokenTiming) (previousEnd endNs : Nat)
    (h : lastEnd previousEnd timing = some endNs) (hfits : base + endNs ≤ maxNs) :
    (spanTiming base timing).1 = true ∧ (spanTiming base timing).2.length = timing.length ∧
      lastEnd (base + previousEnd) (spanTiming base timing).2 = some (base + endNs) := by
  induction timing generalizing previousEnd with
  | nil =>
      rw [Option.some.inj h]
      exact ⟨rfl, rfl, rfl⟩
  | cons token timing ih =>
      rcases lastEnd_cons token timing previousEnd endNs h with ⟨hstep, hend, hrest⟩
      rcases ih token.endNs hrest with ⟨hread, hlength, hlast⟩
      have hle := le_of_lastEnd timing token.endNs endNs hrest
      -- What the provider checks of a token follows from what the core checks of it.
      have hgood : ¬((token.stepNs == 0 || decide (token.endNs < token.stepNs) ||
          decide (maxNs < base + token.endNs)) = true) := by
        simp only [Bool.or_eq_true, beq_iff_eq, decide_eq_true_eq]
        omega
      unfold spanTiming
      rw [if_neg hgood]
      refine ⟨hread, congrArg (· + 1) hlength, ?_⟩
      dsimp only
      rw [lastEnd_cons_of { stepNs := token.stepNs, endNs := base + token.endNs } _
        (base + previousEnd) hstep (by dsimp only; omega)]
      exact hlast

/-! ## One span -/

section OneSpan

variable {σ : Type} {limit : Nat} {decode : σ → DecodeRequest → DecodeReply × σ}
  {next : List UInt32 → UInt32} {live : σ → Option LiveSession}

/-- The span after so many tokens of a chain. The output has one more token than the session has
    seen; the span repeats that token, adds those after it, and leaves the session as far behind
    the output as before. -/
theorem SpanDecoder.span (hdecoder : SpanDecoder limit decode next live) (session : LiveSession)
    (count more : Nat) (s : σ) (request : DecodeRequest)
    (hlive : live s = some (seenAfter next session count)) (hnamed : session.decodedBy request)
    (hinitial : request.initialOutputTokenId = (chain next session.tokens (count + 1)).getLastD 0)
    (hcapacity : request.outputTokenCapacity = more + 1) (hmore : 0 < more) (hfew : more < limit) :
    SpanReply request (chain next (session.tokens ++ chain next session.tokens count) (more + 1))
        (decode s request).1 ∧
      (decode s request).1.outputTokens.tail =
        chain next (session.tokens ++ chain next session.tokens (count + 1)) more ∧
      decodeResultValidWith limit request (decode s request).1 = clockValid (decode s request).1 ∧
      live (decode s request).2 = some (seenAfter next session (count + more)) := by
  have hlast : request.initialOutputTokenId = next (seenAfter next session count).tokens := by
    rw [hinitial, chain_succ, List.getLastD_concat]
    rfl
  rcases hdecoder.answers s request _ hlive hnamed hlast (by omega) (by omega) with
    ⟨hreply, hafter⟩
  rw [hcapacity] at hreply
  refine ⟨hreply, ?_, ?_, ?_⟩
  · rw [hreply.outputTokens]
    exact tail_chain_chain next session.tokens count more
  · refine hreply.decodeResultValidWith limit ?_ (by omega) (by omega) ?_ ?_
    · rw [length_chain, hcapacity]
    · rw [hlast]
      rfl
    · exact Resident.chain_all_vocab next hdecoder.vocab _ _
  · rw [hafter, hcapacity, Nat.add_sub_cancel, seenAfter_add]

/-- The output with the tokens of a span. -/
theorem chain_append_more (next : List UInt32 → UInt32) (input : List UInt32) (count more : Nat) :
    chain next input (count + 1) ++ chain next (input ++ chain next input (count + 1)) more =
      chain next input (count + more + 1) := by
  rw [← chain_add, Nat.add_right_comm]

end OneSpan

/-! ## The loop of the core is greedy -/

/-- Sending keeps a stream on. -/
theorem decodeEmission_active (callback : Callback) (generation : UInt64) (outputBase : Nat)
    (stream : StreamState) (emission : Emission) :
    (decodeEmission callback generation outputBase stream emission).active = stream.active := by
  unfold decodeEmission emit
  dsimp only
  split_ifs <;> rfl

theorem foldl_decodeEmission_active (callback : Callback) (generation : UInt64) (outputBase : Nat)
    (emissions : List Emission) (stream : StreamState) :
    (emissions.foldl (decodeEmission callback generation outputBase) stream).active =
      stream.active := by
  induction emissions generalizing stream with
  | nil => rfl
  | cons emission emissions ih => rw [List.foldl_cons, ih, decodeEmission_active]

section CoreLoop

variable {σ : Type} {limit : Nat} {provider : Provider σ} {next : List UInt32 → UInt32}
  {live : σ → Option LiveSession}

/-- The replies that the loop of the core gets, with a stream or without. -/
def coreReplies (limit : Nat) (provider : Provider σ) (engine : Engine) (input : List UInt32)
    (prefill : PrefillReply) (capacity : Nat) : Nat → σ → List UInt32 → List DecodeReply :=
  spanReplies (fun s outputs =>
      provider.decodeV1 s (decodeRequestWith limit engine input prefill capacity outputs))
    (fun reply => reply.outputTokens.tail) capacity

/-- The engine when a span was decoded. -/
def coreSent (callback : Callback) (engine : Engine) (generation : UInt64) (outputBase : Nat)
    (reply : DecodeReply) : Engine :=
  { engine with
    stream :=
      if engine.stream.active then
        reply.emissions.foldl (decodeEmission callback generation outputBase) engine.stream
      else engine.stream }

theorem coreSent_active (callback : Callback) (engine : Engine) (generation : UInt64)
    (outputBase : Nat) (reply : DecodeReply) :
    (coreSent callback engine generation outputBase reply).stream.active =
      engine.stream.active := by
  unfold coreSent
  cases hactive : engine.stream.active with
  | false => exact hactive
  | true => exact (foldl_decodeEmission_active callback generation outputBase _ _).trans hactive

/-- A span of the loop, from the first token or from where the span before has ended. The clock
    decides whether the loop goes on, and the rest of the reply is what was asked for. -/
theorem coreSpan (hdecoder : SpanDecoder limit provider.decodeV1 next live) (hlimit : 2 ≤ limit)
    (callback : Callback) (prefill : PrefillReply) (session : LiveSession) (capacity fuel : Nat)
    (engine : Engine) (s : σ) (count : Nat)
    (hlive : live s = some (seenAfter next session count))
    (hnamed : session.generation = prefill.sessionGeneration ∧
      session.promptDigest = prefill.sessionPromptDigest ∧
      session.prefixTokenCount = session.tokens.length % 2 ^ 32)
    (hmissing : count + 1 < capacity) :
    let outputs := chain next session.tokens (count + 1)
    let request := decodeRequestWith limit engine session.tokens prefill capacity outputs
    let called := provider.decodeV1 s request
    let sent := coreSent callback engine prefill.sessionGeneration count called.1
    ∃ more, 0 < more ∧ count + more + 1 ≤ capacity ∧
      live called.2 = some (seenAfter next session (count + more)) ∧
      called.1.emissions = (if engine.stream.active then
        emissionsFrom prefill.sessionGeneration 1
          (chain next (session.tokens ++ outputs) more) else []) ∧
      coreReplies limit provider engine session.tokens prefill capacity (fuel + 1) s outputs =
        called.1 :: coreReplies limit provider sent session.tokens prefill capacity fuel called.2
          (chain next session.tokens (count + more + 1)) ∧
      Core.decodeSpansWith limit provider callback session.tokens prefill capacity (fuel + 1)
          engine s outputs =
        if clockValid called.1 = true then
          Core.decodeSpansWith limit provider callback session.tokens prefill capacity fuel sent
            called.2 (chain next session.tokens (count + more + 1))
        else
          (.failed .unsupported,
            sent.fail (.ofProvider called.1.failureStage .decodeContract), called.2) := by
  intro outputs request called sent
  have hlength : outputs.length = count + 1 := length_chain next session.tokens (count + 1)
  have hemits : request.emits = engine.stream.active := rfl
  have hcapacity : request.outputTokenCapacity =
      min (capacity - (count + 1)) (limit - 1) + 1 := by
    rw [← hlength]
    rfl
  rcases hdecoder.span session count _ s request hlive hnamed rfl hcapacity (by omega) (by omega)
    with ⟨hreply, htail, hvalid, hafter⟩
  have hnot : ¬(capacity ≤ outputs.length) := by omega
  have hgrown : outputs ++ called.1.outputTokens.tail =
      chain next session.tokens (count + min (capacity - (count + 1)) (limit - 1) + 1) := by
    rw [htail]
    exact chain_append_more next session.tokens count _
  refine ⟨min (capacity - (count + 1)) (limit - 1), by omega, by omega, hafter, ?_, ?_, ?_⟩
  · rw [hreply.emissions, hemits, tail_chain_chain]
    rfl
  -- What the next spans are asked for does not depend on what was sent.
  · have hasks (outputs' : List UInt32) :
        decodeRequestWith limit sent session.tokens prefill capacity outputs' =
          decodeRequestWith limit engine session.tokens prefill capacity outputs' := by
      unfold decodeRequestWith Core.decodeRequest
      rw [coreSent_active]
    unfold coreReplies
    rw [spanReplies, if_neg hnot]
    simp only [hasks]
    rw [← hgrown]
  · rw [Core.decodeSpansWith, if_neg hnot]
    have hbase : outputs.length - 1 = count := by omega
    have hok : called.1.ok = true := hreply.ok
    have hsent : ({ engine with
        stream :=
          if request.emits = true then
            called.1.emissions.foldl
              (decodeEmission callback prefill.sessionGeneration (outputs.length - 1))
              engine.stream
          else engine.stream } : Engine) = sent := by
      rw [hbase, hemits]
      rfl
    dsimp only
    rw [hsent, hok, hvalid, hgrown]
    cases clockValid called.1 with
    | false => rfl
    | true => rfl

/-- The output is complete: nothing more is asked for. -/
theorem coreSpans_done (limit : Nat) (provider : Provider σ) (callback : Callback)
    (prefill : PrefillReply) (input outputs : List UInt32) (capacity fuel : Nat) (engine : Engine)
    (s : σ) (h : capacity ≤ outputs.length) :
    coreReplies limit provider engine input prefill capacity fuel s outputs = [] ∧
      Core.decodeSpansWith limit provider callback input prefill capacity fuel engine s outputs =
        ({ status := .ok, outputTokens := outputs }, engine, s) := by
  cases fuel with
  | zero => exact ⟨rfl, rfl⟩
  | succ fuel =>
      unfold coreReplies spanReplies Core.decodeSpansWith
      rw [if_pos h, if_pos h]
      exact ⟨rfl, rfl⟩

/-- The loop succeeds if the clocks of all its spans are valid, and then its output is the
    chain. -/
theorem coreSpans_ok_iff (hdecoder : SpanDecoder limit provider.decodeV1 next live)
    (hlimit : 2 ≤ limit) (callback : Callback) (prefill : PrefillReply) (session : LiveSession)
    (capacity fuel : Nat) (engine : Engine) (s : σ) (count : Nat)
    (hlive : live s = some (seenAfter next session count))
    (hnamed : session.generation = prefill.sessionGeneration ∧
      session.promptDigest = prefill.sessionPromptDigest ∧
      session.prefixTokenCount = session.tokens.length % 2 ^ 32)
    (hle : count + 1 ≤ capacity) (hfuel : capacity ≤ count + 1 + fuel) :
    let outputs := chain next session.tokens (count + 1)
    let result := Core.decodeSpansWith limit provider callback session.tokens prefill capacity fuel
      engine s outputs
    (result.1.status = .ok ↔
        ∀ reply ∈ coreReplies limit provider engine session.tokens prefill capacity fuel s outputs,
          clockValid reply = true) ∧
      (result.1.status = .ok → result.1.outputTokens = chain next session.tokens capacity) := by
  induction fuel generalizing engine s count with
  | zero =>
      have hdone : count + 1 = capacity := by omega
      rw [← hdone]
      exact ⟨⟨fun _ _ hmem => absurd hmem List.not_mem_nil, fun _ => rfl⟩, fun _ => rfl⟩
  | succ fuel ih =>
      by_cases hmissing : count + 1 < capacity
      · rcases coreSpan hdecoder hlimit callback prefill session capacity fuel engine s count hlive
          hnamed hmissing with ⟨more, hpos, hfits, hafter, -, hreplies, hresult⟩
        dsimp only at hreplies hresult ⊢
        rw [hreplies, hresult, List.forall_mem_cons]
        generalize provider.decodeV1 s _ = called at hafter ⊢
        cases hclock : clockValid called.1 with
        -- A clock that is not valid ends the loop.
        | false =>
            rw [if_neg Bool.false_ne_true]
            exact ⟨⟨fun h => Status.noConfusion h, fun h => absurd h.1 Bool.false_ne_true⟩,
              fun h => Status.noConfusion h⟩
        | true =>
            rw [if_pos rfl]
            rcases ih (coreSent callback engine prefill.sessionGeneration count called.1) called.2
              (count + more) hafter (by omega) (by omega) with ⟨hiff, houtput⟩
            exact ⟨hiff.trans ⟨fun h => ⟨rfl, h⟩, fun h => h.2⟩, houtput⟩
      · have hdone : count + 1 = capacity := by omega
        rcases coreSpans_done limit provider callback prefill session.tokens
          (chain next session.tokens (count + 1)) capacity (fuel + 1) engine s
          (by rw [length_chain]; omega) with ⟨hreplies, hresult⟩
        dsimp only
        rw [hreplies, hresult, hdone]
        exact ⟨⟨fun _ _ hmem => absurd hmem List.not_mem_nil, fun _ => rfl⟩, fun _ => rfl⟩

/-- With a callback that goes on, the loop sends the events of the chain after those that were sent
    before. -/
theorem coreSpans_events (hdecoder : SpanDecoder limit provider.decodeV1 next live)
    (hlimit : 2 ≤ limit) (callback : Callback) (prefill : PrefillReply) (session : LiveSession)
    (capacity fuel : Nat) (engine : Engine) (s : σ) (count : Nat)
    (hlive : live s = some (seenAfter next session count))
    (hnamed : session.generation = prefill.sessionGeneration ∧
      session.promptDigest = prefill.sessionPromptDigest ∧
      session.prefixTokenCount = session.tokens.length % 2 ^ 32)
    (hle : count + 1 ≤ capacity) (hfuel : capacity ≤ count + 1 + fuel)
    (hfew : capacity ≤ maxOutputTokens) (hactive : engine.stream.active = true)
    (hgoes : ∀ n, 0 < n → n ≤ capacity →
      callback (eventsOf (chain next session.tokens n)) = true)
    (hevents : engine.stream.events = eventsOf (chain next session.tokens (count + 1)))
    (hok : (Core.decodeSpansWith limit provider callback session.tokens prefill capacity fuel
      engine s (chain next session.tokens (count + 1))).1.status = .ok) :
    (Core.decodeSpansWith limit provider callback session.tokens prefill capacity fuel engine s
        (chain next session.tokens (count + 1))).2.1.stream =
      { engine.stream with events := eventsOf (chain next session.tokens capacity) } := by
  induction fuel generalizing engine s count with
  | zero =>
      have hdone : count + 1 = capacity := by omega
      rw [← hdone, ← hevents]
      rfl
  | succ fuel ih =>
      by_cases hmissing : count + 1 < capacity
      · rcases coreSpan hdecoder hlimit callback prefill session capacity fuel engine s count hlive
          hnamed hmissing with ⟨more, hpos, hfits, hafter, hemissions, -, hresult⟩
        rw [hresult] at hok ⊢
        generalize provider.decodeV1 s _ = called at hafter hemissions hok ⊢
        cases hclock : clockValid called.1 with
        | false =>
            rw [hclock, if_neg Bool.false_ne_true] at hok
            exact Status.noConfusion hok
        | true =>
            rw [hclock, if_pos rfl] at hok
            rw [if_pos rfl]
            have hspan := chain_append_more next session.tokens count more
            have hlength := length_chain next session.tokens (count + 1)
            have hadded := length_chain next
              (session.tokens ++ chain next session.tokens (count + 1)) more
            -- The base and the indices of the span number on from the output before it.
            have hstream := decodeEmissions_sent callback prefill.sessionGeneration count 1
              (chain next (session.tokens ++ chain next session.tokens (count + 1)) more)
              (chain next session.tokens (count + 1)) engine.stream hactive hevents hlength.symm
              Nat.one_pos (by omega) (Resident.chain_all_vocab next hdecoder.vocab _ _)
              (span_goes next callback session.tokens _ _ capacity hgoes
                (by rw [hspan, length_chain]) (by omega))
            have hsent : (coreSent callback engine prefill.sessionGeneration count
                called.1).stream =
                { engine.stream with
                  events := eventsOf (chain next session.tokens (count + more + 1)) } := by
              unfold coreSent
              rw [hactive, if_pos rfl, hemissions, hactive, if_pos rfl, hstream, hspan]
            have hrest := ih _ _ (count + more) hafter (by omega) (by omega)
              (by rw [hsent]; exact hactive) (by rw [hsent]) hok
            rw [hrest, hsent]
      · have hdone : count + 1 = capacity := by omega
        rcases coreSpans_done limit provider callback prefill session.tokens
          (chain next session.tokens (count + 1)) capacity (fuel + 1) engine s
          (by rw [length_chain]; omega) with ⟨-, hresult⟩
        rw [hresult, ← hdone, ← hevents]

end CoreLoop

/-! ## The loop of the provider is greedy -/

theorem emissionsFrom_append (generation : UInt64) (index : Nat) (tokens more : List UInt32) :
    emissionsFrom generation index (tokens ++ more) =
      emissionsFrom generation index tokens ++
        emissionsFrom generation (index + tokens.length) more := by
  induction tokens generalizing index with
  | nil => rfl
  | cons token tokens ih =>
      rw [List.cons_append, emissionsFrom, emissionsFrom, ih, List.cons_append, List.length_cons,
        Nat.add_right_comm, Nat.add_assoc]

section Sending

variable (run : PrefixRun) (request : PrefixCall)

/-- What the callback is called with, if there is one. -/
def sentEmissions (index : Nat) (tokens : List UInt32) : List Emission :=
  if request.emitCallback then emissionsFrom request.expectedSessionGeneration index tokens else []

theorem sentEmissions_append (index : Nat) (tokens more : List UInt32) :
    sentEmissions request index (tokens ++ more) =
      sentEmissions request index tokens ++
        sentEmissions request (index + tokens.length) more := by
  unfold sentEmissions
  cases request.emitCallback with
  | false => rfl
  | true => exact emissionsFrom_append _ index tokens more

/-- A token that was sent is added to what the callback was called with. -/
theorem emit_eq (progress : Progress) (index : Nat) (token : UInt32) :
    (progress.emit run request index token).2 =
      { progress with emissions := progress.emissions ++ sentEmissions request index [token] } := by
  unfold Progress.emit sentEmissions
  cases request.emitCallback with
  | false =>
      simp only [Bool.not_false, if_true, Bool.false_eq_true, if_false, List.append_nil]
  | true => rfl

/-- A span that was sent is added to what the callback was called with. -/
theorem emitSpan_eq (tokens : List UInt32) (progress : Progress) (index : Nat)
    (h : (progress.emitSpan run request index tokens).1 = true) :
    (progress.emitSpan run request index tokens).2 =
      { progress with emissions := progress.emissions ++ sentEmissions request index tokens } := by
  induction tokens generalizing progress index with
  | nil =>
      have hnone : sentEmissions request index [] = [] := by
        unfold sentEmissions
        exact ite_self _
      rw [hnone, List.append_nil]
      rfl
  | cons token tokens ih =>
      unfold Progress.emitSpan at h ⊢
      dsimp only at h ⊢
      cases haccepted : (progress.emit run request index token).1 with
      | false =>
          rw [haccepted] at h
          exact absurd h Bool.false_ne_true
      | true =>
          rw [haccepted] at h
          have hrest := ih _ _ h
          -- What is sent for a span is sent token by token.
          have hsplit : sentEmissions request index (token :: tokens) =
              sentEmissions request index [token] ++ sentEmissions request (index + 1) tokens :=
            sentEmissions_append request index [token] tokens
          rw [Bool.not_true, if_neg Bool.false_ne_true, hrest, emit_eq run request, hsplit,
            List.append_assoc]

/-- A span is sent if the callback accepts each of its tokens. -/
theorem emitSpan_accepted (tokens : List UInt32) (progress : Progress) (index : Nat)
    (h : ∀ i, i < index + tokens.length → run.accepts i = true) :
    (progress.emitSpan run request index tokens).1 = true := by
  induction tokens generalizing progress index with
  | nil => rfl
  | cons token tokens ih =>
      rw [List.length_cons] at h
      have hfirst : (progress.emit run request index token).1 = true := by
        unfold Progress.emit
        cases request.emitCallback with
        | false => rfl
        | true => exact h index (by omega)
      unfold Progress.emitSpan
      dsimp only
      rw [hfirst, Bool.not_true, if_neg Bool.false_ne_true]
      exact ih _ _ fun i hi => h i (by omega)

/-- The request when a span was taken over and sent. -/
def spanTaken (progress : Progress) (reply : DecodeReply) : Progress :=
  { progress.addSpan reply with
    decodeEndNs := progress.decodeEndNs + reply.tpotElapsedNs
    emissions := progress.emissions ++
      sentEmissions request progress.outputTokens.length reply.outputTokens.tail }

/-- A span that is taken over. -/
theorem acceptSpan_ok (reply : DecodeReply) (progress after : Progress)
    (h : acceptSpan run request reply progress = .ok after) :
    after = spanTaken request progress reply := by
  unfold acceptSpan at h
  dsimp only at h
  split_ifs at h with hclock hsent
  injection h with h
  rw [← h, emitSpan_eq run request _ _ _ (by simpa using hsent)]
  rfl

/-- A span is taken over if its clock can be read and the callback accepts it. -/
theorem acceptSpan_accepted (reply : DecodeReply) (progress : Progress)
    (hclock : (spanTiming progress.decodeEndNs reply.timing.tail).1 = true)
    (hfits : progress.decodeEndNs + reply.tpotElapsedNs ≤ maxNs)
    (haccepts : ∀ i, i < progress.outputTokens.length + reply.outputTokens.tail.length →
      run.accepts i = true) :
    acceptSpan run request reply progress = .ok (spanTaken request progress reply) := by
  unfold acceptSpan
  dsimp only
  have hsent := emitSpan_accepted run request reply.outputTokens.tail
    { progress.addSpan reply with decodeEndNs := progress.decodeEndNs + reply.tpotElapsedNs }
    progress.outputTokens.length haccepts
  rw [hclock, decide_eq_false (Nat.not_lt.mpr hfits), Bool.not_true, Bool.or_self,
    if_neg Bool.false_ne_true, hsent, Bool.not_true, if_neg Bool.false_ne_true,
    emitSpan_eq run request _ _ _ hsent]
  rfl

end Sending

section PrefixLoop

variable {limit : Nat} {run : PrefixRun} {decodes : Decodes} {request : PrefixCall}
  {next : List UInt32 → UInt32} {live : Nat × Device → Option LiveSession}

/-- The request for the next span. -/
def prefixAsk (limit : Nat) (request : PrefixCall) (outputs : List UInt32) : DecodeRequest :=
  Continuation.decodeRequest request (outputs.getLastD 0)
    (min (request.outputTokenCapacity - outputs.length) (limit - 1) + 1)

/-- The replies that the loop of the provider gets. -/
def prefixReplies (limit : Nat) (run : PrefixRun) (decodes : Decodes) (request : PrefixCall) :
    Nat → Nat × Device → List UInt32 → List DecodeReply :=
  spanReplies (fun s outputs => decodeV1With limit run decodes s (prefixAsk limit request outputs))
    (fun reply => reply.outputTokens.tail) request.outputTokenCapacity

/-- How far the request has got: the session has seen so many tokens of the chain, the output has
    one more, and the callback was called once for each of them. -/
structure Spanned (request : PrefixCall) (next : List UInt32 → UInt32)
    (live : Nat × Device → Option LiveSession) (session : LiveSession) (count : Nat)
    (progress : Progress) : Prop where
  seen : live (progress.calls, progress.device) = some (seenAfter next session count)
  prefilled : progress.prefilled = true
  outputTokens : progress.outputTokens = chain next session.tokens (count + 1)
  emissions : progress.emissions =
    sentEmissions request 0 (chain next session.tokens (count + 1))

theorem Spanned.length_outputTokens {session : LiveSession} {count : Nat} {progress : Progress}
    (h : Spanned request next live session count progress) :
    progress.outputTokens.length = count + 1 := by
  rw [h.outputTokens, length_chain]

/-- The clock so far: that of the first token, and then one that the core accepts. -/
structure Clocked (ttftElapsedNs : Nat) (progress : Progress) : Prop where
  head : progress.timing.head? = some { stepNs := ttftElapsedNs, endNs := 0 }
  last : lastEnd 0 progress.timing.tail = some progress.decodeEndNs
  length : progress.timing.length = progress.outputTokens.length

/-- The clock of a span behind the clock so far. -/
theorem Clocked.span {ttftElapsedNs : Nat} {progress : Progress} {reply : DecodeReply}
    (h : Clocked ttftElapsedNs progress) (request : PrefixCall)
    (hclock : lastEnd 0 reply.timing.tail = some reply.tpotElapsedNs)
    (hlength : reply.timing.length = reply.outputTokens.length)
    (hfits : progress.decodeEndNs + reply.tpotElapsedNs ≤ maxNs) :
    (spanTiming progress.decodeEndNs reply.timing.tail).1 = true ∧
      Clocked ttftElapsedNs (spanTaken request progress reply) := by
  rcases spanTiming_lastEnd progress.decodeEndNs reply.timing.tail 0 reply.tpotElapsedNs hclock
    hfits with ⟨hread, hcount, hlast⟩
  have hne : progress.timing ≠ [] := by
    intro hnil
    have hhead := h.head
    rw [hnil] at hhead
    cases hhead
  refine ⟨hread, ?_, ?_, ?_⟩
  · exact (List.head?_append_of_ne_nil _ hne).trans h.head
  · -- The first end is that of the first token, and the span adds its own behind the last one.
    have htail : (spanTaken request progress reply).timing.tail =
        progress.timing.tail ++ (spanTiming progress.decodeEndNs reply.timing.tail).2 :=
      List.tail_append_of_ne_nil hne
    rw [htail, lastEnd_append _ _ 0 _ h.last]
    exact hlast
  · have hsum : (progress.timing ++
        (spanTiming progress.decodeEndNs reply.timing.tail).2).length =
        (progress.outputTokens ++ reply.outputTokens.tail).length := by
      rw [List.length_append, List.length_append, h.length, hcount, List.length_tail,
        List.length_tail, hlength]
    exact hsum

/-- A span of the loop. If it is taken over the request has got further by its tokens, and it is
    taken over if its clock is valid and does not overflow and the callback accepts. -/
theorem prefixSpan (hdecoder : SpanDecoder limit (decodeV1With limit run decodes) next live)
    (hlimit : 2 ≤ limit) (session : LiveSession) (fuel count : Nat) (progress : Progress)
    (h : Spanned request next live session count progress)
    (hnamed : session.decodedBy (prefixAsk limit request []))
    (hmissing : count + 1 < request.outputTokenCapacity) :
    let called := decodeV1With limit run decodes (progress.calls, progress.device)
      (prefixAsk limit request progress.outputTokens)
    ∃ more, 0 < more ∧ count + more + 1 ≤ request.outputTokenCapacity ∧
      prefixReplies limit run decodes request (fuel + 1) (progress.calls, progress.device)
          progress.outputTokens =
        called.1 :: prefixReplies limit run decodes request fuel called.2
          (chain next session.tokens (count + more + 1)) ∧
      (∀ after, spanStepWith limit run decodes request [] progress = .ok after →
        Spanned request next live session (count + more) after) ∧
      (clockValid called.1 = true → Clocked run.ttftElapsedNs progress →
        progress.decodeEndNs + called.1.tpotElapsedNs ≤ maxNs →
        (∀ i, i < request.outputTokenCapacity → run.accepts i = true) →
        ∃ after, spanStepWith limit run decodes request [] progress = .ok after ∧
          Clocked run.ttftElapsedNs after ∧
          after.decodeEndNs = progress.decodeEndNs + called.1.tpotElapsedNs ∧
          (after.calls, after.device) = called.2) := by
  intro called
  have hlength := h.length_outputTokens
  generalize hspan : min (request.outputTokenCapacity - progress.outputTokens.length) (limit - 1) =
    more
  have hcapacity : (prefixAsk limit request progress.outputTokens).outputTokenCapacity =
      more + 1 := by
    rw [← hspan]
    rfl
  have hinitial : (prefixAsk limit request progress.outputTokens).initialOutputTokenId =
      (chain next session.tokens (count + 1)).getLastD 0 := by
    rw [← h.outputTokens]
    rfl
  rcases hdecoder.span session count more (progress.calls, progress.device)
    (prefixAsk limit request progress.outputTokens) h.seen hnamed hinitial hcapacity (by omega)
    (by omega) with ⟨hreply, htail, -, hafter⟩
  have hgrown : progress.outputTokens ++ called.1.outputTokens.tail =
      chain next session.tokens (count + more + 1) := by
    rw [htail, h.outputTokens]
    exact chain_append_more next session.tokens count more
  have hadded : called.1.outputTokens.tail.length = more := by
    rw [htail, length_chain]
  -- The step is the decode, its contract, and the taking over.
  have hstep : spanStepWith limit run decodes request [] progress =
      if !spanContract (progress.outputTokens.getLastD 0) more called.1 then
        .error
          { stage := stageOr called.1.failureStage "qwen36_resident_prefix_decode"
            progress := { progress with device := called.2.2, calls := called.2.1 } }
      else acceptSpan run request called.1
        { progress with device := called.2.2, calls := called.2.1 } := by
    rw [← hspan]
    rfl
  refine ⟨more, by omega, by omega, ?_, ?_, ?_⟩
  · unfold prefixReplies
    rw [spanReplies, if_neg (by omega), ← hgrown]
  · intro after hok
    rw [hstep] at hok
    split_ifs at hok with hbad
    rw [acceptSpan_ok run request _ _ _ hok]
    refine ⟨hafter, h.prefilled, hgrown, ?_⟩
    rw [← chain_append_more, sentEmissions_append, length_chain, ← htail]
    unfold spanTaken
    dsimp only
    rw [h.emissions, hlength, Nat.zero_add]
  · intro hclock hclocked hfits haccepts
    simp only [clockValid, Bool.and_eq_true, beq_iff_eq, decide_eq_true_eq] at hclock
    rcases hclock with ⟨⟨hhead, hlast⟩, -⟩
    have htiming : called.1.timing.length = called.1.outputTokens.length := by
      rw [hreply.timing, hreply.outputTokens]
    have hcalled : Clocked run.ttftElapsedNs
        { progress with device := called.2.2, calls := called.2.1 } :=
      ⟨hclocked.head, hclocked.last, hclocked.length⟩
    rcases hcalled.span request hlast htiming hfits with ⟨hread, hclocked'⟩
    have hcontract : spanContract (progress.outputTokens.getLastD 0) more called.1 = true := by
      refine hreply.spanContract more (length_chain _ _ _) ?_ hhead (Nat.ne_of_gt ?_)
      · rw [h.outputTokens, chain_succ, List.getLastD_concat]
        rfl
      · refine lt_of_lastEnd _ 0 _ hlast (List.ne_nil_of_length_pos ?_)
        rw [List.length_tail, htiming, ← List.length_tail, hadded]
        omega
    refine ⟨spanTaken request { progress with device := called.2.2, calls := called.2.1 } called.1,
      ?_, hclocked', rfl, rfl⟩
    rw [hstep, hcontract, Bool.not_true, if_neg Bool.false_ne_true]
    refine acceptSpan_accepted run request _ _ hread hfits ?_
    intro i hi
    dsimp only at hi
    exact haccepts i (by omega)

/-- A loop that succeeds has got all tokens of the chain. -/
theorem prefixSpans_ok (hdecoder : SpanDecoder limit (decodeV1With limit run decodes) next live)
    (hlimit : 2 ≤ limit) (session : LiveSession) (fuel count : Nat) (progress final : Progress)
    (h : Spanned request next live session count progress)
    (hnamed : session.decodedBy (prefixAsk limit request []))
    (hle : count + 1 ≤ request.outputTokenCapacity)
    (hfuel : request.outputTokenCapacity ≤ count + 1 + fuel)
    (hok : Continuation.decodeSpansWith limit run decodes request [] fuel progress = .ok final) :
    Spanned request next live session (request.outputTokenCapacity - 1) final := by
  have hlength := h.length_outputTokens
  induction fuel generalizing count progress with
  | zero =>
      have hdone : count = request.outputTokenCapacity - 1 := by omega
      obtain rfl : progress = final := Except.ok.inj hok
      rw [← hdone]
      exact h
  | succ fuel ih =>
      unfold Continuation.decodeSpansWith at hok
      by_cases hmissing : count + 1 < request.outputTokenCapacity
      · rw [if_pos (by omega)] at hok
        -- The span gets the tokens that come next in the chain, as many as it has asked for.
        rcases prefixSpan hdecoder hlimit session fuel count progress h hnamed hmissing with
          ⟨more, hpos, hfits, -, hspanned, -⟩
        cases hstep : spanStepWith limit run decodes request [] progress with
        | error stopped =>
            rw [hstep] at hok
            cases hok
        | ok after =>
            rw [hstep] at hok
            have hafter := hspanned after hstep
            exact ih (count + more) after hafter (by omega) (by omega) hok
              hafter.length_outputTokens
      · have hdone : count = request.outputTokenCapacity - 1 := by omega
        rw [if_neg (by omega)] at hok
        obtain rfl : progress = final := Except.ok.inj hok
        rw [← hdone]
        exact h

/-- If the clocks of all spans are valid, their sum does not overflow and the callback accepts, the
    loop succeeds with a clock that the core accepts. -/
theorem prefixSpans_clocked
    (hdecoder : SpanDecoder limit (decodeV1With limit run decodes) next live)
    (hlimit : 2 ≤ limit) (session : LiveSession) (fuel count : Nat) (progress : Progress)
    (h : Spanned request next live session count progress)
    (hclocked : Clocked run.ttftElapsedNs progress)
    (hnamed : session.decodedBy (prefixAsk limit request []))
    (hle : count + 1 ≤ request.outputTokenCapacity)
    (hclocks : ∀ reply ∈ prefixReplies limit run decodes request fuel
      (progress.calls, progress.device) progress.outputTokens, clockValid reply = true)
    (hfits : progress.decodeEndNs + ((prefixReplies limit run decodes request fuel
      (progress.calls, progress.device) progress.outputTokens).map
        DecodeReply.tpotElapsedNs).sum ≤ maxNs)
    (haccepts : ∀ i, i < request.outputTokenCapacity → run.accepts i = true) :
    ∃ final, Continuation.decodeSpansWith limit run decodes request [] fuel progress = .ok final ∧
      Clocked run.ttftElapsedNs final := by
  have hlength := h.length_outputTokens
  induction fuel generalizing count progress with
  | zero => exact ⟨progress, rfl, hclocked⟩
  | succ fuel ih =>
      unfold Continuation.decodeSpansWith
      by_cases hmissing : count + 1 < request.outputTokenCapacity
      · rw [if_pos (by omega)]
        rcases prefixSpan hdecoder hlimit session fuel count progress h hnamed hmissing with
          ⟨more, hpos, hmore, hreplies, hspanned, htaken⟩
        rw [hreplies] at hclocks hfits
        rw [List.forall_mem_cons] at hclocks
        rw [List.map_cons, List.sum_cons] at hfits
        -- The time of this span is added, and what is left is the sum over the others.
        rcases htaken hclocks.1 hclocked (by omega) haccepts with
          ⟨after, hstep, hclocked', hend, hstate⟩
        have hafter := hspanned after hstep
        rw [← hstate, ← hafter.outputTokens] at hclocks hfits
        rw [hstep]
        exact ih (count + more) after hafter hclocked' (by omega) hclocks.2 (by omega)
          hafter.length_outputTokens
      · rw [if_neg (by omega)]
        exact ⟨progress, rfl, hclocked⟩

/-- The first token, which is sent before the loop. -/
theorem sendFirst_spanned (session : LiveSession) (progress first : Progress)
    (hseen : live (progress.calls, progress.device) = some session)
    (hprediction : progress.predictions.getD (request.suffix.length - 1) 0 = next session.tokens)
    (hunsent : progress.emissions = []) (hstart : progress.decodeEndNs = 0)
    (h : sendFirst run request [] progress = .ok first) :
    Spanned request next live session 0 first ∧ Clocked run.ttftElapsedNs first ∧
      first.decodeEndNs = 0 := by
  unfold sendFirst at h
  dsimp only at h
  split_ifs at h with hstop hrefused
  injection h with h
  rw [emit_eq run request] at h
  subst h
  refine ⟨⟨?_, rfl, ?_, ?_⟩, ⟨rfl, ?_, rfl⟩, hstart⟩
  · rw [seenAfter_zero]
    exact hseen
  · unfold Progress.withFirst
    dsimp only
    rw [hprediction]
    rfl
  · unfold Progress.withFirst
    dsimp only
    rw [hunsent, hprediction]
    rfl
  · exact congrArg some hstart.symm

end PrefixLoop

/-! ## Both loops answer with the chain -/

/-- The events of an output are numbered from zero on. -/
theorem map_outputIndex_eventsFrom (index : Nat) (tokens : List UInt32) :
    (eventsFrom index tokens).map StreamEvent.outputIndex = List.range' index tokens.length := by
  induction tokens generalizing index with
  | nil => rfl
  | cons token tokens ih => exact congrArg (index :: ·) (ih (index + 1))

theorem map_outputIndex_emissionsFrom (generation : UInt64) (index : Nat) (tokens : List UInt32) :
    (emissionsFrom generation index tokens).map Emission.outputIndex =
      List.range' index tokens.length := by
  induction tokens generalizing index with
  | nil => rfl
  | cons token tokens ih => exact congrArg (index :: ·) (ih (index + 1))

/-- The core enters its loop: the session is the one of the prefill and has seen the prompt, and if
    there is a stream the first token was sent. -/
structure CoreSpans {σ : Type} (next : List UInt32 → UInt32) (live : σ → Option LiveSession)
    (prefill : PrefillReply) (session : LiveSession) (engine : Engine) (s : σ) : Prop where
  seen : live s = some session
  generation : session.generation = prefill.sessionGeneration
  promptDigest : session.promptDigest = prefill.sessionPromptDigest
  prefixTokenCount : session.prefixTokenCount = session.tokens.length % 2 ^ 32
  sent : engine.stream.active = true → engine.stream.events = eventsOf [next session.tokens]

/-- The provider enters its loop: the session is the one that the request names and has seen the
    prompt, the last prediction is greedy, and the first token was sent. -/
structure PrefixSpans (run : PrefixRun) (request : PrefixCall) (next : List UInt32 → UInt32)
    (live : Nat × Device → Option LiveSession) (session : LiveSession)
    (progress first : Progress) : Prop where
  seen : live (progress.calls, progress.device) = some session
  generation : session.generation = request.expectedSessionGeneration
  promptDigest : session.promptDigest = request.expectedPromptTokenIdsFnv1a64
  prefixTokenCount : session.prefixTokenCount = request.expectedPrefixTokenCount
  prediction : progress.predictions.getD (request.suffix.length - 1) 0 = next session.tokens
  unsent : progress.emissions = []
  start : progress.decodeEndNs = 0
  first : sendFirst run request [] progress = .ok first

/-- The report of a request that has got all its tokens has the clock of the request. -/
theorem served_timing (run : PrefixRun) (request : PrefixCall) (final : Progress)
    (hprefilled : final.prefilled = true)
    (hlength : final.timing.length = request.outputTokenCapacity) :
    (served run request final).timing = final.timing ∧
      (served run request final).tpotElapsedNs = final.decodeEndNs := by
  unfold served progressed
  rw [hprefilled, hlength, Nat.sub_self]
  exact ⟨List.append_nil _, rfl⟩

/-- The loop of the core, from the first token on: it ends by itself; it succeeds exactly if the
    clocks of its spans are valid; then its output is the chain, and a callback that goes on gets
    the events of the chain, numbered from zero on. -/
structure CoreChunked {σ : Type} (limit : Nat) (next : List UInt32 → UInt32)
    (provider : Provider σ) (callback : Callback) (prefill : PrefillReply) (session : LiveSession)
    (capacity : Nat) (engine : Engine) (s : σ) (loop : Nat → Outcome × Engine × σ) : Prop where
  ends : ∀ fuel, capacity ≤ fuel → loop fuel = loop capacity
  succeeds : (loop capacity).1.status = .ok ↔
    ∀ reply ∈ coreReplies limit provider engine session.tokens prefill capacity capacity s
      [next session.tokens], clockValid reply = true
  outputTokens : (loop capacity).1.status = .ok →
    (loop capacity).1.outputTokens = chain next session.tokens capacity ∧
    (loop capacity).1.outputTokens.length = capacity
  events : (loop capacity).1.status = .ok → engine.stream.active = true →
    (∀ count, 0 < count → count ≤ capacity →
      callback (eventsOf (chain next session.tokens count)) = true) →
    (loop capacity).2.1.stream.events = eventsOf (chain next session.tokens capacity) ∧
    (loop capacity).2.1.stream.events.map StreamEvent.outputIndex = List.range capacity

/-- The loop of the provider, from the first token on: it ends by itself; if it succeeds its output
    is the chain, and the callback was called with the chain, numbered from zero on; if the clocks
    of its spans are valid, their sum does not overflow and the callback accepts, it succeeds, and
    the clock that is reported is one that the core accepts. -/
structure PrefixChunked (limit : Nat) (next : List UInt32 → UInt32) (run : PrefixRun)
    (decodes : Decodes) (request : PrefixCall) (session : LiveSession) (capacity : Nat)
    (first : Progress) (loop : Nat → Except Stopped Progress) : Prop where
  ends : ∀ fuel, capacity ≤ fuel → loop fuel = loop capacity
  outputTokens : ∀ final, loop capacity = .ok final →
    final.outputTokens = chain next session.tokens capacity ∧
    final.outputTokens.length = capacity
  emissions : ∀ final, loop capacity = .ok final →
    final.emissions = sentEmissions request 0 (chain next session.tokens capacity) ∧
    (request.emitCallback = true →
      final.emissions.map Emission.outputIndex = List.range capacity)
  clock : ∀ replies, replies = prefixReplies limit run decodes request capacity
      (first.calls, first.device) first.outputTokens →
    (∀ reply ∈ replies, clockValid reply = true) →
    (replies.map DecodeReply.tpotElapsedNs).sum ≤ maxNs →
    (∀ index, index < capacity → run.accepts index = true) →
    ∃ final, loop capacity = .ok final ∧
      (served run request final).timing.length = capacity ∧
      (served run request final).timing.head? =
        some { stepNs := run.ttftElapsedNs, endNs := 0 } ∧
      lastEnd 0 (served run request final).timing.tail =
        some (served run request final).tpotElapsedNs

section Loops

variable {σ : Type} (limit : Nat) (next : List UInt32 → UInt32)

/-- The loop of the core over a greedy provider. -/
theorem coreSpans_chunked (provider : Provider σ) (live : σ → Option LiveSession)
    (callback : Callback) (prefill : PrefillReply) (session : LiveSession) (engine : Engine) (s : σ)
    (capacity : Nat) (hlimit : 2 ≤ limit) (hpos : 0 < capacity) (hfew : capacity ≤ maxOutputTokens)
    (hdecoder : SpanDecoder limit provider.decodeV1 next live)
    (hbegun : CoreSpans next live prefill session engine s) :
    CoreChunked limit next provider callback prefill session capacity engine s fun fuel =>
      Core.decodeSpansWith limit provider callback session.tokens prefill capacity fuel engine s
        [next session.tokens] := by
  have hseen : live s = some (seenAfter next session 0) := by
    rw [seenAfter_zero]
    exact hbegun.seen
  have hnamed := And.intro hbegun.generation (And.intro hbegun.promptDigest hbegun.prefixTokenCount)
  rcases coreSpans_ok_iff hdecoder hlimit callback prefill session capacity capacity engine s 0
    hseen hnamed (by omega) (by omega) with ⟨hiff, houtput⟩
  refine ⟨?_, hiff, ?_, ?_⟩
  · intro fuel hfuel
    -- More fuel than there are tokens missing changes nothing.
    obtain ⟨more, rfl⟩ := Nat.exists_eq_add_of_le hfuel
    exact Core.decodeSpansWith_fuel limit provider callback session.tokens prefill capacity
      capacity more engine s [next session.tokens] (Nat.le_add_left _ _)
  · intro hok
    have hchain := houtput hok
    exact ⟨hchain, (congrArg List.length hchain).trans (length_chain next _ _)⟩
  · intro hok hactive hgoes
    have hstream := coreSpans_events hdecoder hlimit callback prefill session capacity capacity
      engine s 0 hseen hnamed (by omega) (by omega) hfew hactive hgoes (hbegun.sent hactive) hok
    have hevents : (Core.decodeSpansWith limit provider callback session.tokens prefill capacity
        capacity engine s [next session.tokens]).2.1.stream.events =
        eventsOf (chain next session.tokens capacity) := congrArg StreamState.events hstream
    refine ⟨hevents, ?_⟩
    rw [hevents, eventsOf, map_outputIndex_eventsFrom, length_chain, List.range_eq_range']

/-- The loop of the provider over greedy decodes. -/
theorem prefixSpans_chunked (run : PrefixRun) (decodes : Decodes) (request : PrefixCall)
    (live : Nat × Device → Option LiveSession) (session : LiveSession) (progress first : Progress)
    (capacity : Nat) (hlimit : 2 ≤ limit) (hpos : 0 < capacity)
    (hcapacity : request.outputTokenCapacity = capacity)
    (hdecoder : SpanDecoder limit (decodeV1With limit run decodes) next live)
    (hbegun : PrefixSpans run request next live session progress first) :
    PrefixChunked limit next run decodes request session capacity first fun fuel =>
      Continuation.decodeSpansWith limit run decodes request [] fuel first := by
  subst hcapacity
  have hnamed : session.decodedBy (prefixAsk limit request []) :=
    ⟨hbegun.generation, hbegun.promptDigest, hbegun.prefixTokenCount⟩
  rcases sendFirst_spanned session progress first hbegun.seen hbegun.prediction hbegun.unsent
    hbegun.start hbegun.first with ⟨hspanned, hclocked, hstart⟩
  have hall (final : Progress)
      (hok : Continuation.decodeSpansWith limit run decodes request [] request.outputTokenCapacity
        first = .ok final) :=
    prefixSpans_ok hdecoder hlimit session _ 0 first final hspanned hnamed hpos
      (Nat.le_add_left _ _) hok
  have hcount : request.outputTokenCapacity - 1 + 1 = request.outputTokenCapacity :=
    Nat.sub_add_cancel hpos
  refine ⟨?_, ?_, ?_, ?_⟩
  · intro fuel hfuel
    obtain ⟨more, rfl⟩ := Nat.exists_eq_add_of_le hfuel
    exact Continuation.decodeSpansWith_fuel limit run decodes request hlimit [] _ more first
      (Nat.le_add_left _ _)
  · intro final hok
    rw [(hall final hok).outputTokens, hcount]
    exact ⟨rfl, length_chain next _ _⟩
  · intro final hok
    rw [(hall final hok).emissions, hcount]
    refine ⟨rfl, fun hcallback => ?_⟩
    rw [sentEmissions, hcallback, if_pos rfl, map_outputIndex_emissionsFrom, length_chain,
      List.range_eq_range']
  · rintro replies rfl hclocks hfits haccepts
    rcases prefixSpans_clocked hdecoder hlimit session _ 0 first hspanned hclocked hnamed hpos
      hclocks (by rw [hstart, Nat.zero_add]; exact hfits) haccepts with ⟨final, hok, hclock⟩
    have hlength : final.timing.length = request.outputTokenCapacity := by
      rw [hclock.length, (hall final hok).outputTokens, length_chain, hcount]
    rcases served_timing run request final (hall final hok).prefilled hlength with
      ⟨htiming, helapsed⟩
    refine ⟨final, hok, ?_⟩
    rw [htiming, helapsed]
    exact ⟨hlength, hclock.head, hclock.last⟩

/-- However many tokens a span may have, the loop of the core and that of the provider answer with
    the one greedy chain of the prompt. -/
theorem decodeSpansWith_chain (hlimit : 2 ≤ limit) (capacity : Nat) (hpos : 0 < capacity)
    (hfew : capacity ≤ maxOutputTokens) (provider : Provider σ) (live : σ → Option LiveSession)
    (callback : Callback) (prefill : PrefillReply) (session : LiveSession) (engine : Engine) (s : σ)
    (hcore : SpanDecoder limit provider.decodeV1 next live)
    (hcoreBegun : CoreSpans next live prefill session engine s)
    (run : PrefixRun) (decodes : Decodes) (request : PrefixCall)
    (shadowLive : Nat × Device → Option LiveSession) (shadow : LiveSession)
    (progress first : Progress) (hprompt : shadow.tokens = session.tokens)
    (hcapacity : request.outputTokenCapacity = capacity)
    (hshadow : SpanDecoder limit (decodeV1With limit run decodes) next shadowLive)
    (hshadowBegun : PrefixSpans run request next shadowLive shadow progress first) :
    (CoreChunked limit next provider callback prefill session capacity engine s fun fuel =>
      Core.decodeSpansWith limit provider callback session.tokens prefill capacity fuel engine s
        [next session.tokens]) ∧
      PrefixChunked limit next run decodes request session capacity first fun fuel =>
        Continuation.decodeSpansWith limit run decodes request [] fuel first := by
  refine ⟨coreSpans_chunked limit next provider live callback prefill session engine s capacity
    hlimit hpos hfew hcore hcoreBegun, ?_⟩
  rcases prefixSpans_chunked limit next run decodes request shadowLive shadow progress first
    capacity hlimit hpos hcapacity hshadow hshadowBegun with ⟨hends, houtput, hemissions, hclock⟩
  rw [hprompt] at houtput hemissions
  exact ⟨hends, houtput, hemissions, hclock⟩

end Loops

/-! ## Spans of two tokens -/

/-- A decode that is served is a span, with a clock that is valid. -/
theorem serveDecode_spanReply (tokens : List UInt32) (request : DecodeRequest) :
    SpanReply request (request.initialOutputTokenId :: tokens) (serveDecode tokens request) := by
  unfold serveDecode
  refine ⟨rfl, rfl, rfl, rfl, rfl, rfl, rfl, rfl, ?_, rfl, rfl, ?_, rfl⟩
  · exact congrArg (· + 1) (Resident.length_steadySteps 0 tokens.length)
  · dsimp only

/-- The token after so many others is their number. -/
def counting (tokens : List UInt32) : UInt32 := UInt32.ofNat (tokens.length % 1000)

theorem counting_vocab (tokens : List UInt32) : counting tokens < vocabSize := by
  have hlt : tokens.length % 1000 < 1000 := Nat.mod_lt _ (Nat.succ_pos _)
  have hsize : vocabSize.toNat = 248320 := by simp [vocabSize]
  rw [counting, UInt32.lt_iff_toNat_lt, UInt32.toNat_ofNat', hsize]
  exact Nat.lt_of_le_of_lt (Nat.mod_le _ _) (by omega)

/-- A span that begins with the greedy token is a piece of the chain. -/
theorem chain_span (tokens : List UInt32) (request : DecodeRequest)
    (hinitial : request.initialOutputTokenId = counting tokens)
    (hmany : 2 ≤ request.outputTokenCapacity) :
    chain counting tokens request.outputTokenCapacity =
      request.initialOutputTokenId :: chain counting (tokens ++ [request.initialOutputTokenId])
        (request.outputTokenCapacity - 1) := by
  have hcapacity : request.outputTokenCapacity = request.outputTokenCapacity - 1 + 1 := by omega
  rw [hinitial, hcapacity, Nat.add_sub_cancel]
  rfl

/-- The ideal provider decodes spans of any length. -/
theorem ideal_spanDecoder (limit : Nat) :
    SpanDecoder limit (Resident.ideal counting).decodeV1 counting id := by
  refine ⟨counting_vocab, ?_⟩
  intro s request session hlive hnamed hinitial hmany _
  obtain rfl : s = some session := hlive
  have hchain := chain_span session.tokens request hinitial hmany
  have hcapacity : request.outputTokenCapacity = request.outputTokenCapacity - 1 + 1 := by omega
  have hdrop : (request.initialOutputTokenId ::
      chain counting (session.tokens ++ [request.initialOutputTokenId])
        (request.outputTokenCapacity - 1)).dropLast =
      chain counting session.tokens (request.outputTokenCapacity - 1) := by
    rw [← hchain, hcapacity, chain_succ, List.dropLast_concat, Nat.add_sub_cancel]
  simp only [Resident.ideal, if_pos hnamed]
  refine ⟨?_, ?_⟩
  · rw [hchain]
    exact serveDecode_spanReply _ request
  · exact congrArg (fun tokens => some { session with tokens := session.tokens ++ tokens }) hdrop

/-- How many tokens a session has seen. -/
def seenCount (session : SessionState) : Nat :=
  session.prefixTokens + session.committedDecodeTokenCount

/-- A session that can be decoded, and that has seen the numbers from zero on. -/
def countedLive (s : Nat × Device) : Option LiveSession :=
  let session := s.2.session
  if session.valid && session.providerCompleted && session.currentTokenValid &&
      session.ownerEngine.isSome && session.modelDir != "" && prefixSupported session.prefixTokens &&
      session.generation != 0 && session.promptTokenIdsFnv1a64 != 0 then
    some
      { generation := session.generation
        promptDigest := session.promptTokenIdsFnv1a64
        prefixTokenCount := session.prefixTokens
        tokens := chain counting [] (seenCount session) }
  else none

/-- Decodes that count on. -/
def countedDecodes : Decodes := fun _ device request =>
  { reply := serveDecode (chain counting (chain counting [] (seenCount device.session) ++
      [request.initialOutputTokenId]) (request.outputTokenCapacity - 1)) request
    traces := plainTraces 0
    committed := 0 }

/-- They are greedy spans of any length. -/
theorem countedDecodes_spanDecoder (limit : Nat) :
    SpanDecoder limit (decodeV1With limit (plainRun true) countedDecodes) counting countedLive := by
  refine ⟨counting_vocab, ?_⟩
  rintro ⟨calls, device⟩ request session hlive hnamed hinitial hmany hfew
  unfold countedLive at hlive
  dsimp only at hlive
  split_ifs at hlive with hgood
  obtain rfl := Option.some.inj hlive
  have hchain := chain_span (chain counting [] (seenCount device.session)) request hinitial hmany
  simp only [Bool.and_eq_true] at hgood
  rcases hgood with ⟨⟨⟨⟨⟨⟨⟨hvalid, hcompleted⟩, hcurrent⟩, howner⟩, hmodel⟩, hsupported⟩,
    hgeneration⟩, hdigest⟩
  rcases hnamed with ⟨hsameGeneration, hsameDigest, hsameCount⟩
  dsimp only at hsameGeneration hsameDigest hsameCount hinitial ⊢
  have haccepts : decodeAcceptsWith limit request device.session = true := by
    have hvocab : request.initialOutputTokenId < vocabSize := by
      rw [hinitial]
      exact counting_vocab _
    unfold decodeAcceptsWith
    simp only [← hsameGeneration, ← hsameDigest, ← hsameCount, hsupported, hmany, hfew, hvocab,
      hgeneration, hdigest, hvalid, hcompleted, hcurrent, howner, hmodel, decide_true,
      beq_self_eq_true, Bool.and_self]
  unfold decodeV1With
  dsimp only
  rw [haccepts, Bool.not_true, if_neg Bool.false_ne_true]
  refine ⟨?_, ?_⟩
  · rw [hchain]
    exact serveDecode_spanReply _ request
  -- The session has committed the tokens of the span but for the last.
  · have hcommits : (countedDecodes calls device request).commits
        (plainRun true).environment.productCommit request = request.outputTokenCapacity - 1 := rfl
    have hseen : chain counting [] (seenCount device.session) ++
        chain counting (chain counting [] (seenCount device.session))
          (request.outputTokenCapacity - 1) =
        chain counting [] (device.session.prefixTokens +
          (device.session.committedDecodeTokenCount + (request.outputTokenCapacity - 1))) := by
      rw [← Nat.add_assoc]
      exact (chain_add counting [] (seenCount device.session) _).symm
    rw [hcommits]
    unfold countedLive Traces.leave seenAfter
    dsimp only
    rw [hseen]
    simp only [hvalid, hcompleted, howner, hmodel, hsupported, hgeneration, hdigest, countedDecodes,
      plainTraces, seenCount, Bool.and_self, if_true]

/-- An engine with a stream that has sent the first token. -/
def firstSent : Engine :=
  { Engine.loaded with stream := { StreamState.begin with events := eventsOf [2] } }

/-- The request for six tokens after the prompt of two. -/
def sixTokens : PrefixCall :=
  { twoTokens with
    suffixTokens := some [1], outputTokenCapacity := 6
    expectedPromptTokenIdsFnv1a64 := digest [0], emitCallback := true, emitUserData := true }

/-- The progress when the suffix was fed. -/
def suffixFed : Progress :=
  { Progress.start
      { seededDevice with
        session := { seededDevice.session with
          promptTokenIdsFnv1a64 := digest [0]
          committedDecodeTokenCount := 1 } } with
    calls := 1
    predictions := [2] }

/-- The progress when the first token was sent. -/
def firstToken : Progress :=
  ((suffixFed.withFirst (plainRun true) sixTokens).emit (plainRun true) sixTokens 0 2).2

/-- The reply to the prefill of the prompt of two. -/
def promptPrefill : PrefillReply :=
  Resident.idealPrefill counting
    { input := [0, 1], outputTokenCapacity := 6, arbitrary := true, endpointBoundary := false
      emits := false }

/-- Six tokens in spans of two, by the core and by the provider. -/
theorem sixTokens_chain :
    let core := Core.decodeSpansWith 3 (Resident.ideal counting) (fun _ => true) [0, 1]
      promptPrefill 6 6 firstSent (some (Resident.idealSession [0, 1])) [2]
    (core.1.outputTokens = [2, 3, 4, 5, 6, 7] ∧
        core.2.1.stream.events = eventsOf [2, 3, 4, 5, 6, 7]) ∧
      ∃ final, Continuation.decodeSpansWith 3 (plainRun true) countedDecodes sixTokens [] 6
          firstToken = .ok final ∧ final.outputTokens = [2, 3, 4, 5, 6, 7] ∧
        lastEnd 0 (served (plainRun true) sixTokens final).timing.tail =
          some (served (plainRun true) sixTokens final).tpotElapsedNs := by
  intro core
  rcases decodeSpansWith_chain 3 counting (by decide) 6 (by decide) (by decide)
    (Resident.ideal counting) id (fun _ => true) promptPrefill (Resident.idealSession [0, 1])
    firstSent (some (Resident.idealSession [0, 1])) (ideal_spanDecoder 3)
    ⟨rfl, rfl, rfl, rfl, fun _ => by decide +kernel⟩ (plainRun true) countedDecodes sixTokens
    countedLive
    { generation := 1, promptDigest := digest [0], prefixTokenCount := 1, tokens := [0, 1] }
    suffixFed firstToken rfl rfl (countedDecodes_spanDecoder 3)
    ⟨by decide +kernel, rfl, rfl, rfl, by decide +kernel, rfl, rfl, rfl⟩ with ⟨hcore, hshadow⟩
  have hchain : chain counting [0, 1] 6 = [2, 3, 4, 5, 6, 7] := by decide +kernel
  have hok : core.1.status = .ok := hcore.succeeds.mpr (by decide +kernel)
  rcases hshadow.clock _ rfl (by decide +kernel) (by decide +kernel) (fun _ _ => rfl) with
    ⟨final, hfinal, -, -, hclock⟩
  refine ⟨⟨?_, ?_⟩, final, hfinal, ?_, hclock⟩
  · exact (hcore.outputTokens hok).1.trans hchain
  · exact (hcore.events hok rfl fun _ _ _ => rfl).1.trans (congrArg eventsOf hchain)
  · exact (hshadow.outputTokens final hfinal).1.trans hchain

end Spans

end QrtEngine
