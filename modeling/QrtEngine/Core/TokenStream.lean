import QrtEngine.Core.Stream

/-!
# The Token Stream with its Clock

The stream of a request field by field, with the clock that numbers its events in time. The model
of the requests leaves the clock out; here the request is what is left out. What a request does to
the stream is a list of calls of the bridges, in any order and with any arguments, and its result
is arbitrary. So whatever the provider answers, whatever it emits and whatever the caller's
callback says, there is a body that does just that.

A stream closes its request: the events that were sent are compared with the output, and the
callback and its data are forgotten.

## Main definitions

* `TokenStream`: The fields of the stream.
* `emitTokenStreamEvent`: Send an event to the callback.
* `BridgeCall`: The three bridges and the core's own event.
* `requestTokensStreamV1`, `requestTokensPrefixStreamV1`: The requests with a stream.
* `Completed`: What the events of a complete stream are.

## Theorems

* `serve_sends`: A call sends the next event or nothing.
* `serveAll_inStep`: The events that were sent are numbered, timed and stored.
* `closeTokenStream_completed`: A request that succeeds has sent its output.
* `tokenStream_contract`: That, and the clean start of the next request, over every run.
-/

namespace QrtEngine

namespace Core

namespace Timed

/-! ## Events -/

/-- The largest value of a clock. -/
def uint64Max : UInt64 := 18446744073709551615

/-- The largest size. -/
def sizeMax : Nat := 18446744073709551615

/-- An event as the callback gets it. -/
structure TokenStreamEvent where
  phase : Phase
  outputIndex : Nat
  tokenId : UInt32
  tokenStepElapsedNs : UInt64
  requestElapsedNs : UInt64
  providerDecodeElapsedNs : UInt64
deriving DecidableEq, Repr

/-- The fields of the stream of an engine. The types of callbacks and of their data are
    arbitrary; a null pointer is `none`. -/
structure TokenStream (φ υ : Type) where
  callback : Option φ
  userData : Option υ
  requestStartNs : UInt64
  lastRequestElapsedNs : UInt64
  callbackCount : Nat
  emittedTokens : List UInt32
  active : Bool
  cancelled : Bool
  contractFailed : Bool

/-- The stream of an engine that was just created. -/
def TokenStream.created {φ υ : Type} : TokenStream φ υ :=
  { callback := none, userData := none, requestStartNs := 0, lastRequestElapsedNs := 0
    callbackCount := 0, emittedTokens := List.replicate maxOutputTokens 0, active := false
    cancelled := false, contractFailed := false }

/-- Nothing of an earlier request is left. -/
def TokenStream.Cleared {φ υ : Type} (stream : TokenStream φ υ) : Prop :=
  stream.active = false ∧ stream.callback = none ∧ stream.userData = none

/-- The time from one reading of the clock to another, and zero if the clock went back. -/
def elapsedNs (startNs endNs : UInt64) : UInt64 :=
  if startNs ≤ endNs then endNs - startNs else 0

/-- The event of a token at a time. -/
def eventAt (phase : Phase) (outputIndex : Nat) (tokenId : UInt32)
    (tokenStepElapsedNs providerDecodeElapsedNs requestElapsedNs : UInt64) : TokenStreamEvent :=
  { phase := phase, outputIndex := outputIndex, tokenId := tokenId
    tokenStepElapsedNs := tokenStepElapsedNs, requestElapsedNs := requestElapsedNs
    providerDecodeElapsedNs := providerDecodeElapsedNs }

section Streams

variable {φ υ : Type}

/-- The event is not the next one of the stream. -/
def TokenStream.refuses (stream : TokenStream φ υ) (phase : Phase) (outputIndex : Nat)
    (tokenId : UInt32) : Prop :=
  stream.callback.isNone ∨ outputIndex ≠ stream.callbackCount ∨ outputIndex ≥ maxOutputTokens ∨
    tokenId ≥ vocabSize ∨ (outputIndex = 0 ∧ phase ≠ .prefill) ∨
    (outputIndex ≠ 0 ∧ phase ≠ .decode)

instance (stream : TokenStream φ υ) (phase : Phase) (outputIndex : Nat) (tokenId : UInt32) :
    Decidable (stream.refuses phase outputIndex tokenId) :=
  inferInstanceAs (Decidable (_ ∨ _))

/-- The time of the next event: the clock's, or just after the event before if the clock has not
    moved. There is none after the largest time. -/
def TokenStream.nextElapsedNs (stream : TokenStream φ υ) (outputIndex : Nat) (nowNs : UInt64) :
    Option UInt64 :=
  let elapsed := elapsedNs stream.requestStartNs nowNs
  if outputIndex ≠ 0 ∧ elapsed ≤ stream.lastRequestElapsedNs then
    if stream.lastRequestElapsedNs = uint64Max then none
    else some (stream.lastRequestElapsedNs + 1)
  else some elapsed

/-- What a call of the core's sender leaves: whether it goes on, the stream, and the event that
    the callback got. -/
structure Emitted (φ υ : Type) where
  goesOn : Bool
  stream : TokenStream φ υ
  event : Option TokenStreamEvent

/-- Send an event to the callback, if there is a stream. The clock is read once; `answer` is what
    the callback says, should it be asked. -/
def emitTokenStreamEvent (stream : TokenStream φ υ) (phase : Phase) (outputIndex : Nat)
    (tokenId : UInt32) (tokenStepElapsedNs providerDecodeElapsedNs nowNs : UInt64)
    (answer : Bool) : Emitted φ υ :=
  if !stream.active then { goesOn := true, stream := stream, event := none }
  else if stream.refuses phase outputIndex tokenId then
    { goesOn := false, stream := { stream with contractFailed := true }, event := none }
  else
    match stream.nextElapsedNs outputIndex nowNs with
    | none => { goesOn := false, stream := { stream with contractFailed := true }, event := none }
    | some requestElapsedNs =>
        { goesOn := answer
          -- The token is stored and counted before the callback is asked.
          stream :=
            { stream with
              emittedTokens := stream.emittedTokens.set outputIndex tokenId
              lastRequestElapsedNs := requestElapsedNs
              callbackCount := stream.callbackCount + 1
              cancelled := if answer then stream.cancelled else true }
          event := some (eventAt phase outputIndex tokenId tokenStepElapsedNs
            providerDecodeElapsedNs requestElapsedNs) }

/-! ## Bridges -/

/-- What a decode or prefix call of the provider is given to call back with. -/
structure StreamBridge where
  expectedSessionGeneration : UInt64
  outputBase : Nat
deriving DecidableEq, Repr

/-- One call that sends an event: the core's own after a prefill, the early one of a prefill, one
    of a decode span or one of a prefix request. -/
inductive BridgeCall where
  | core (tokenId : UInt32) (tokenStepElapsedNs : UInt64)
  | prefill (tokenId : UInt32) (tokenStepElapsedNs : UInt64)
  | decode (bridge : StreamBridge) (sessionGeneration : UInt64) (outputIndex tokenId : UInt32)
      (tokenStepElapsedNs tokenEndElapsedNs : UInt64)
  | prefixed (bridge : StreamBridge) (sessionGeneration : UInt64) (outputIndex tokenId : UInt32)
      (tokenStepElapsedNs tokenEndElapsedNs : UInt64)
deriving DecidableEq, Repr

/-- A call with the reading of the clock and what the callback says, should it be asked. -/
structure TimedCall where
  call : BridgeCall
  nowNs : UInt64
  answer : Bool
deriving DecidableEq, Repr

/-- The stream with its contract broken, and no event. -/
def TokenStream.broken (stream : TokenStream φ υ) : Emitted φ υ :=
  { goesOn := false, stream := { stream with contractFailed := true }, event := none }

/-- The bridge of a decode span. Its first token repeats the one before, so it is not sent. -/
def tokenStreamBridge (stream : TokenStream φ υ) (bridge : StreamBridge)
    (sessionGeneration : UInt64) (outputIndex tokenId : UInt32)
    (tokenStepElapsedNs tokenEndElapsedNs nowNs : UInt64) (answer : Bool) : Emitted φ υ :=
  if sessionGeneration ≠ bridge.expectedSessionGeneration ∨ outputIndex = 0 ∨
      outputIndex.toNat > sizeMax - bridge.outputBase then
    stream.broken
  else
    emitTokenStreamEvent stream .decode (bridge.outputBase + outputIndex.toNat) tokenId
      tokenStepElapsedNs tokenEndElapsedNs nowNs answer

/-- The bridge of a prefix request. -/
def prefixTokenStreamBridge (stream : TokenStream φ υ) (bridge : StreamBridge)
    (sessionGeneration : UInt64) (outputIndex tokenId : UInt32)
    (tokenStepElapsedNs tokenEndElapsedNs nowNs : UInt64) (answer : Bool) : Emitted φ υ :=
  if sessionGeneration ≠ bridge.expectedSessionGeneration ∨
      outputIndex.toNat ≥ maxOutputTokens then
    stream.broken
  else
    emitTokenStreamEvent stream (if outputIndex = 0 then .prefill else .decode) outputIndex.toNat
      tokenId tokenStepElapsedNs tokenEndElapsedNs nowNs answer

/-- Serve a call. The early bridge and the core itself send the first event. -/
def serve (stream : TokenStream φ υ) (timed : TimedCall) : Emitted φ υ :=
  match timed.call with
  | .core tokenId stepNs | .prefill tokenId stepNs =>
      emitTokenStreamEvent stream .prefill 0 tokenId stepNs 0 timed.nowNs timed.answer
  | .decode bridge sessionGeneration outputIndex tokenId stepNs endNs =>
      tokenStreamBridge stream bridge sessionGeneration outputIndex tokenId stepNs endNs
        timed.nowNs timed.answer
  | .prefixed bridge sessionGeneration outputIndex tokenId stepNs endNs =>
      prefixTokenStreamBridge stream bridge sessionGeneration outputIndex tokenId stepNs endNs
        timed.nowNs timed.answer

/-- A stream with what it has sent: every event the callback got, and what it said. -/
structure Served (φ υ : Type) where
  stream : TokenStream φ υ
  sent : List (TokenStreamEvent × Bool)

/-- The events the callback accepted. -/
def Served.accepted (served : Served φ υ) : List TokenStreamEvent :=
  (served.sent.filter Prod.snd).map Prod.fst

/-- Serve a call and note the event. -/
def Served.serve (served : Served φ υ) (timed : TimedCall) : Served φ υ :=
  let emitted := Timed.serve served.stream timed
  { stream := emitted.stream
    sent := served.sent ++ (emitted.event.map fun event => (event, timed.answer)).toList }

/-- Serve the calls of a request, one after the other. -/
def Served.serveAll (served : Served φ υ) (calls : List TimedCall) : Served φ υ :=
  calls.foldl Served.serve served

/-! ## Requests -/

/-- A stream that has sent nothing. -/
def TokenStream.beginRequest (stream : TokenStream φ υ) (callback : φ) (userData : Option υ)
    (startNs : UInt64) : TokenStream φ υ :=
  { stream with
    callback := some callback
    userData := userData
    requestStartNs := startNs
    lastRequestElapsedNs := 0
    callbackCount := 0
    emittedTokens := List.replicate maxOutputTokens 0
    cancelled := false
    contractFailed := false
    active := true }

/-- The tokens that were sent are those of the output. -/
def TokenStream.matchesOutput (stream : TokenStream φ υ) (outputTokens : List UInt32) : Bool :=
  (List.range outputTokens.length).all fun index =>
    stream.emittedTokens.getD index 0 == outputTokens.getD index 0

/-- The check at the end of a request that succeeded. -/
def TokenStream.checkCompletion (stream : TokenStream φ υ) (outputTokens : List UInt32) :
    TokenStream φ υ :=
  if stream.cancelled ∨ stream.contractFailed ∨ stream.callbackCount ≠ outputTokens.length then
    { stream with contractFailed := true }
  else if stream.matchesOutput outputTokens then stream
  else { stream with contractFailed := true }

/-- How a request with a stream ends: its status, the stage of its failure if the stream set one,
    the stream, and what was sent. -/
structure StreamResult (φ υ : Type) where
  status : Status
  stage : Option FailureStage
  served : Served φ υ

/-- What a request does while its stream is active, and what it returns. -/
structure Body where
  calls : List TimedCall
  status : Status
  outputTokens : List UInt32
deriving DecidableEq, Repr

/-- The end of a request with a stream. -/
def closeTokenStream (stage : FailureStage) (served : Served φ υ) (body : Body) :
    StreamResult φ υ :=
  let stream := { served.stream with active := false }
  let checked := if body.status = .ok then stream.checkCompletion body.outputTokens else stream
  let failed := body.status = .ok ∧ checked.contractFailed
  { status := if failed then .unsupported else body.status
    stage := if failed then some stage else none
    served := { served with stream := { checked with callback := none, userData := none } } }

/-- An ordinary request with a stream. -/
def requestTokensStreamV1 (stream : TokenStream φ υ) (inputTokenCount outputTokenCapacity : Nat)
    (callback : Option φ) (userData : Option υ) (startNs : UInt64) (body : Body) :
    StreamResult φ υ :=
  match callback with
  | none =>
      { status := .invalidArgument, stage := none, served := { stream := stream, sent := [] } }
  | some callback =>
      if inputTokenCount = 0 ∨ outputTokenCapacity = 0 ∨ outputTokenCapacity > maxOutputTokens ∨
          stream.active then
        { status := .invalidArgument, stage := none, served := { stream := stream, sent := [] } }
      else
        let begun : Served φ υ :=
          { stream := stream.beginRequest callback userData startNs, sent := [] }
        closeTokenStream .streamCompletionContract (begun.serveAll body.calls) body

/-- What a prefix request does while its stream is active. Its output is the caller's buffer, as
    long as the capacity. -/
structure PrefixBody (outputTokenCapacity : Nat) where
  calls : List TimedCall
  status : Status
  outputTokens : Vector UInt32 outputTokenCapacity

/-- A prefix request with a stream. -/
def requestTokensPrefixStreamV1 (stream : TokenStream φ υ) (outputTokenCapacity : Nat)
    (callback : Option φ) (userData : Option υ) (startNs : UInt64)
    (body : PrefixBody outputTokenCapacity) : StreamResult φ υ :=
  match callback with
  | none =>
      { status := .invalidArgument, stage := some .prefixStreamRequest
        served := { stream := stream, sent := [] } }
  | some callback =>
      if stream.active then
        { status := .invalidArgument, stage := some .prefixStreamRequest
          served := { stream := stream, sent := [] } }
      else
        let begun : Served φ υ :=
          { stream := stream.beginRequest callback userData startNs, sent := [] }
        closeTokenStream .prefixStreamCompletionContract (begun.serveAll body.calls)
          { calls := body.calls, status := body.status, outputTokens := body.outputTokens.toList }

/-! ## What one call sends -/

theorem uint64_lt_succ (value : UInt64) (h : value ≠ uint64Max) : value < value + 1 := by
  have hvalue : value.toNat ≠ 18446744073709551615 := by
    intro heq
    exact h (UInt64.toNat_inj.mp (heq.trans rfl))
  have hbound := value.toNat_lt
  rw [UInt64.lt_iff_toNat_lt, UInt64.toNat_add]
  simp only [UInt64.reduceToNat]
  omega

/-- The time of an event after the first is later than that of the event before. -/
theorem nextElapsedNs_later (stream : TokenStream φ υ) (outputIndex : Nat)
    (nowNs requestElapsedNs : UInt64) (hindex : outputIndex ≠ 0)
    (h : stream.nextElapsedNs outputIndex nowNs = some requestElapsedNs) :
    stream.lastRequestElapsedNs < requestElapsedNs := by
  unfold TokenStream.nextElapsedNs at h
  dsimp only at h
  by_cases hlate : elapsedNs stream.requestStartNs nowNs ≤ stream.lastRequestElapsedNs
  · rw [if_pos ⟨hindex, hlate⟩] at h
    by_cases hmax : stream.lastRequestElapsedNs = uint64Max
    · rw [if_pos hmax] at h
      exact absurd h (by simp)
    · rw [if_neg hmax] at h
      rw [← Option.some.inj h]
      exact uint64_lt_succ _ hmax
  · rw [if_neg (fun hboth => hlate hboth.2)] at h
    rw [← Option.some.inj h]
    exact UInt64.not_le.mp hlate

/-- The event is the next one of the stream, and the stream has stored it. -/
structure SendsNext (stream : TokenStream φ υ) (answer : Bool) (stream' : TokenStream φ υ)
    (event : TokenStreamEvent) : Prop where
  within : stream.callbackCount < maxOutputTokens
  index : event.outputIndex = stream.callbackCount
  phase : event.phase = phaseOf stream.callbackCount
  later : stream.callbackCount ≠ 0 → stream.lastRequestElapsedNs < event.requestElapsedNs
  stored : stream' =
    { stream with
      emittedTokens := stream.emittedTokens.set stream.callbackCount event.tokenId
      lastRequestElapsedNs := event.requestElapsedNs
      callbackCount := stream.callbackCount + 1
      cancelled := if answer then stream.cancelled else true }

/-- What a call does: it sends nothing, and at most breaks the contract, or it sends the next
    event. -/
def SendsAtMost (stream : TokenStream φ υ) (answer : Bool) (emitted : Emitted φ υ) : Prop :=
  (emitted.event = none ∧
    (emitted.stream = stream ∨ emitted.stream = { stream with contractFailed := true })) ∨
  ∃ event, emitted.event = some event ∧ SendsNext stream answer emitted.stream event

theorem emit_sends (stream : TokenStream φ υ) (phase : Phase) (outputIndex : Nat)
    (tokenId : UInt32) (stepNs decodeNs nowNs : UInt64) (answer : Bool) :
    SendsAtMost stream answer
      (emitTokenStreamEvent stream phase outputIndex tokenId stepNs decodeNs nowNs answer) := by
  unfold emitTokenStreamEvent
  by_cases hidle : (!stream.active) = true
  · rw [if_pos hidle]
    exact Or.inl ⟨rfl, Or.inl rfl⟩
  · rw [if_neg hidle]
    by_cases hrefuses : stream.refuses phase outputIndex tokenId
    · rw [if_pos hrefuses]
      exact Or.inl ⟨rfl, Or.inr rfl⟩
    · rw [if_neg hrefuses]
      cases hnext : stream.nextElapsedNs outputIndex nowNs with
      | none => exact Or.inl ⟨rfl, Or.inr rfl⟩
      | some requestElapsedNs =>
          unfold TokenStream.refuses at hrefuses
          simp only [not_or, not_and, not_not, Nat.not_le] at hrefuses
          rcases hrefuses with ⟨-, rfl, hwithin, -, hfirst, hrest⟩
          refine Or.inr ⟨_, rfl, hwithin, rfl, ?_, ?_, rfl⟩
          · -- The phase is the one of the index.
            unfold phaseOf
            by_cases hzero : stream.callbackCount = 0
            · rw [if_pos hzero]
              exact hfirst hzero
            · rw [if_neg hzero]
              exact hrest hzero
          · intro hzero
            exact nextElapsedNs_later stream _ nowNs _ hzero hnext

theorem serve_sends (stream : TokenStream φ υ) (timed : TimedCall) :
    SendsAtMost stream timed.answer (serve stream timed) := by
  unfold serve
  cases timed.call with
  | core tokenId stepNs => exact emit_sends stream _ _ _ _ _ _ _
  | prefill tokenId stepNs => exact emit_sends stream _ _ _ _ _ _ _
  | decode bridge sessionGeneration outputIndex tokenId stepNs endNs =>
      dsimp only
      unfold tokenStreamBridge
      split_ifs
      · exact Or.inl ⟨rfl, Or.inr rfl⟩
      · exact emit_sends stream _ _ _ _ _ _ _
  | prefixed bridge sessionGeneration outputIndex tokenId stepNs endNs =>
      dsimp only
      unfold prefixTokenStreamBridge
      by_cases hbad : sessionGeneration ≠ bridge.expectedSessionGeneration ∨
          outputIndex.toNat ≥ maxOutputTokens
      · rw [if_pos hbad]
        exact Or.inl ⟨rfl, Or.inr rfl⟩
      · rw [if_neg hbad]
        exact emit_sends stream _ _ _ _ _ _ _

/-! ## What a request sends -/

/-- The events that were accepted are numbered from zero, each later than the one before, and
    their tokens are stored. -/
structure InStep (stream : TokenStream φ υ) (accepted : List TokenStreamEvent) : Prop where
  count : stream.callbackCount = accepted.length
  within : stream.callbackCount ≤ maxOutputTokens
  cells : stream.emittedTokens.length = maxOutputTokens
  stored : stream.emittedTokens.take accepted.length = accepted.map TokenStreamEvent.tokenId
  numbered : ∀ index event, accepted[index]? = some event →
    event.outputIndex = index ∧ event.phase = phaseOf index
  timed : accepted.Pairwise fun event later => event.requestElapsedNs < later.requestElapsedNs
  last : ∀ event ∈ accepted, event.requestElapsedNs ≤ stream.lastRequestElapsedNs

/-- Sending the next event keeps the events in step. -/
theorem SendsNext.inStep {stream stream' : TokenStream φ υ} {event : TokenStreamEvent}
    {answer : Bool} (h : SendsNext stream answer stream' event)
    (accepted : List TokenStreamEvent) (hbefore : InStep stream accepted) :
    InStep stream' (accepted ++ [event]) := by
  have hcount := hbefore.count
  have hlength : stream.callbackCount < stream.emittedTokens.length := by
    rw [hbefore.cells]
    exact h.within
  rw [h.stored]
  refine ⟨?_, h.within, ?_, ?_, ?_, ?_, ?_⟩
  · simp only [List.length_append, List.length_singleton, hcount]
  · simp only [List.length_set, hbefore.cells]
  · -- The cells before the new one are those of the earlier events.
    simp only [List.length_append, List.length_singleton, List.map_append, List.map_singleton]
    rw [← hbefore.stored, ← hcount, List.take_succ_eq_append_getElem (by simpa using hlength),
      List.take_set_of_le (Nat.le_refl _), List.getElem_set_self]
  · intro index later hget
    rw [List.getElem?_append] at hget
    by_cases hindex : index < accepted.length
    · rw [if_pos hindex] at hget
      exact hbefore.numbered index later hget
    · rw [if_neg hindex] at hget
      have hzero : index = accepted.length := by
        by_contra hne
        rw [List.getElem?_eq_none (by simp; omega)] at hget
        exact absurd hget (by simp)
      rw [hzero, Nat.sub_self] at hget
      obtain rfl := Option.some.inj hget
      rw [hzero, ← hcount]
      exact ⟨h.index, h.phase⟩
  · rw [List.pairwise_append]
    refine ⟨hbefore.timed, List.pairwise_singleton _ _, ?_⟩
    intro earlier hearlier later hlater
    obtain rfl := List.mem_singleton.mp hlater
    -- There is an earlier event, so this one is not the first.
    have hpos : stream.callbackCount ≠ 0 := by
      rw [hcount]
      exact Nat.ne_of_gt (List.length_pos_of_mem hearlier)
    exact UInt64.lt_of_le_of_lt (hbefore.last earlier hearlier) (h.later hpos)
  · intro earlier hearlier
    rcases List.mem_append.mp hearlier with hmem | hmem
    · have hpos : stream.callbackCount ≠ 0 := by
        rw [hcount]
        exact Nat.ne_of_gt (List.length_pos_of_mem hmem)
      exact UInt64.le_of_lt
        (UInt64.lt_of_le_of_lt (hbefore.last earlier hmem) (h.later hpos))
    · rw [List.mem_singleton.mp hmem]
      exact UInt64.le_refl _

/-- The events stay in step as long as the callback accepts them. A stream that was cancelled
    stays cancelled, so nothing is said about it. -/
theorem serve_inStep (served : Served φ υ) (timed : TimedCall)
    (h : served.stream.cancelled = false → InStep served.stream served.accepted) :
    (served.serve timed).stream.cancelled = false →
      InStep (served.serve timed).stream (served.serve timed).accepted := by
  intro hcancelled
  unfold Served.serve Served.accepted at *
  dsimp only at *
  rcases serve_sends served.stream timed with ⟨hnone, hsame | hbroken⟩ | ⟨event, hevent, hsends⟩
  · rw [hsame] at hcancelled ⊢
    simpa only [hnone, Option.map_none, Option.toList_none, List.append_nil] using h hcancelled
  · rw [hbroken] at hcancelled ⊢
    have hbefore := h hcancelled
    simp only [hnone, Option.map_none, Option.toList_none, List.append_nil]
    exact ⟨hbefore.count, hbefore.within, hbefore.cells, hbefore.stored, hbefore.numbered,
      hbefore.timed, hbefore.last⟩
  · -- The callback has accepted the event, or the stream would be cancelled.
    rw [hsends.stored] at hcancelled
    dsimp only at hcancelled
    cases hanswer : timed.answer with
    | false =>
        rw [hanswer] at hcancelled
        exact absurd hcancelled (by simp)
    | true =>
        rw [hanswer, if_pos rfl] at hcancelled
        rw [hevent]
        simp only [Option.map_some, Option.toList_some, List.filter_append, List.map_append,
          List.filter_singleton]
        exact hsends.inStep _ (h hcancelled)

theorem serveAll_inStep (calls : List TimedCall) (served : Served φ υ)
    (h : served.stream.cancelled = false → InStep served.stream served.accepted) :
    (served.serveAll calls).stream.cancelled = false →
      InStep (served.serveAll calls).stream (served.serveAll calls).accepted := by
  induction calls generalizing served with
  | nil => exact h
  | cons timed calls ih => exact ih (served.serve timed) (serve_inStep served timed h)

theorem beginRequest_inStep (stream : TokenStream φ υ) (callback : φ) (userData : Option υ)
    (startNs : UInt64) : InStep (stream.beginRequest callback userData startNs) [] :=
  { count := rfl
    within := Nat.zero_le _
    cells := List.length_replicate
    stored := rfl
    numbered := by
      intro index event hget
      exact absurd hget (by simp)
    timed := List.Pairwise.nil
    last := by
      intro event hmem
      exact absurd hmem (by simp) }

/-! ## The end of a request -/

/-- The events of a complete stream: the tokens of the output, numbered from zero, the first from
    the prefill and no other, each later than the one before. -/
structure Completed (accepted : List TokenStreamEvent) (outputTokens : List UInt32) : Prop where
  tokens : accepted.map TokenStreamEvent.tokenId = outputTokens
  indices : accepted.map TokenStreamEvent.outputIndex = List.range outputTokens.length
  prefillFirst : ∀ event ∈ accepted, event.phase = .prefill ↔ event.outputIndex = 0
  timed : accepted.Pairwise fun event later => event.requestElapsedNs < later.requestElapsedNs

/-- Lists that agree at every index of the first and have one length are equal. -/
theorem eq_of_matches (emitted outputTokens : List UInt32) (hlength : outputTokens.length ≤
    emitted.length) (h : ∀ index < outputTokens.length,
      emitted.getD index 0 = outputTokens.getD index 0) :
    emitted.take outputTokens.length = outputTokens := by
  apply List.ext_getElem
  · rw [List.length_take]
    omega
  · intro index hleft hright
    have hindex := h index hright
    rw [List.getD_eq_getElem?_getD, List.getD_eq_getElem?_getD,
      List.getElem?_eq_getElem (by omega), List.getElem?_eq_getElem hright] at hindex
    rw [List.getElem_take]
    exact hindex

/-- A stream whose check passes has stored the output. -/
theorem checkCompletion_passed (stream : TokenStream φ υ) (outputTokens : List UInt32)
    (h : (stream.checkCompletion outputTokens).contractFailed = false) :
    stream.cancelled = false ∧ stream.callbackCount = outputTokens.length ∧
      ∀ index < outputTokens.length,
        stream.emittedTokens.getD index 0 = outputTokens.getD index 0 := by
  unfold TokenStream.checkCompletion at h
  by_cases hbad : stream.cancelled ∨ stream.contractFailed ∨
      stream.callbackCount ≠ outputTokens.length
  · rw [if_pos hbad] at h
    exact absurd h (by simp)
  · rw [if_neg hbad] at h
    simp only [not_or, Bool.not_eq_true, ne_eq, not_not] at hbad
    by_cases hmatches : stream.matchesOutput outputTokens = true
    · refine ⟨hbad.1, hbad.2.2, ?_⟩
      intro index hindex
      unfold TokenStream.matchesOutput at hmatches
      exact beq_iff_eq.mp (List.all_eq_true.mp hmatches index (List.mem_range.mpr hindex))
    · rw [if_neg hmatches] at h
      exact absurd h (by simp)

theorem InStep.completed (stream : TokenStream φ υ) (accepted : List TokenStreamEvent)
    (outputTokens : List UInt32) (h : InStep stream accepted)
    (hcount : stream.callbackCount = outputTokens.length)
    (hmatches : ∀ index < outputTokens.length,
      stream.emittedTokens.getD index 0 = outputTokens.getD index 0) :
    Completed accepted outputTokens := by
  -- As many events as tokens, each with its index, and the stored tokens are the output.
  have hlength : accepted.length = outputTokens.length := h.count.symm.trans hcount
  have hcells : outputTokens.length ≤ stream.emittedTokens.length := by
    rw [h.cells, ← hcount]
    exact h.within
  refine ⟨?_, ?_, ?_, h.timed⟩
  · rw [← h.stored, hlength]
    exact eq_of_matches _ _ hcells hmatches
  · apply List.ext_getElem
    · rw [List.length_map, List.length_range, hlength]
    · intro index hleft hright
      rw [List.length_map] at hleft
      rw [List.getElem_map, List.getElem_range]
      exact (h.numbered index _ (List.getElem?_eq_getElem hleft)).1
  · intro event hmem
    rcases List.mem_iff_getElem?.mp hmem with ⟨index, hget⟩
    rcases h.numbered index event hget with ⟨hindex, hphase⟩
    rw [hindex, hphase, phaseOf]
    by_cases hzero : index = 0
    · simp [hzero]
    · simp [hzero]

/-- A request that succeeds has sent its output. -/
theorem closeTokenStream_completed (stage : FailureStage) (served : Served φ υ) (body : Body)
    (h : served.stream.cancelled = false → InStep served.stream served.accepted)
    (hok : (closeTokenStream stage served body).status = .ok) :
    Completed (closeTokenStream stage served body).served.accepted body.outputTokens := by
  unfold closeTokenStream at hok ⊢
  dsimp only at hok ⊢
  by_cases hstatus : body.status = .ok
  · simp only [hstatus, if_true, true_and] at hok
    by_cases hfailed : (TokenStream.checkCompletion { served.stream with active := false }
        body.outputTokens).contractFailed = true
    · rw [if_pos hfailed] at hok
      exact absurd hok (by simp)
    · rw [Bool.not_eq_true] at hfailed
      rcases checkCompletion_passed _ _ hfailed with ⟨hcancelled, hcount, hmatches⟩
      exact (h hcancelled).completed served.stream _ body.outputTokens hcount hmatches
  · rw [if_neg (fun hboth => hstatus hboth.1)] at hok
    exact absurd hok hstatus

/-- The check at the end leaves the stream inactive. -/
theorem checkCompletion_active (stream : TokenStream φ υ) (outputTokens : List UInt32) :
    (stream.checkCompletion outputTokens).active = stream.active := by
  unfold TokenStream.checkCompletion
  split_ifs
  all_goals rfl

theorem closeTokenStream_cleared (stage : FailureStage) (served : Served φ υ) (body : Body) :
    (closeTokenStream stage served body).served.stream.Cleared := by
  unfold closeTokenStream TokenStream.Cleared
  dsimp only
  refine ⟨?_, rfl, rfl⟩
  by_cases hstatus : body.status = .ok
  · rw [if_pos hstatus, checkCompletion_active]
  · rw [if_neg hstatus]

/-! ## Runs -/

/-- A request of the caller. An ordinary request without a stream sends the core's own event too,
    and no bridge is given to the provider. -/
inductive StreamRequest (φ υ : Type) where
  | streamV1 (inputTokenCount outputTokenCapacity : Nat) (callback : Option φ)
      (userData : Option υ) (startNs : UInt64) (body : Body)
  | prefixStreamV1 (outputTokenCapacity : Nat) (callback : Option φ) (userData : Option υ)
      (startNs : UInt64) (body : PrefixBody outputTokenCapacity)
  | withoutStream (tokens : List UInt32) (stepNs nowNs : UInt64) (status : Status)

/-- The output of a request with a stream. -/
def StreamRequest.streamed : StreamRequest φ υ → Option (List UInt32)
  | streamV1 _ _ _ _ _ body => some body.outputTokens
  | prefixStreamV1 _ _ _ _ body => some body.outputTokens.toList
  | withoutStream _ _ _ _ => none

/-- What a request leaves. -/
def StreamRequest.perform (stream : TokenStream φ υ) : StreamRequest φ υ → StreamResult φ υ
  | streamV1 inputTokenCount outputTokenCapacity callback userData startNs body =>
      requestTokensStreamV1 stream inputTokenCount outputTokenCapacity callback userData startNs
        body
  | prefixStreamV1 outputTokenCapacity callback userData startNs body =>
      requestTokensPrefixStreamV1 stream outputTokenCapacity callback userData startNs body
  | withoutStream tokens stepNs nowNs status =>
      let served : Served φ υ := { stream := stream, sent := [] }
      { status := status
        stage := none
        served := served.serveAll (tokens.map fun token =>
          { call := .core token stepNs, nowNs := nowNs, answer := true }) }

/-- The stream after some requests, from the creation of the engine on. -/
def streamAfter (requests : List (StreamRequest φ υ)) : TokenStream φ υ :=
  requests.foldl (fun stream request => (request.perform stream).served.stream)
    TokenStream.created

/-- Without a stream nothing is sent. -/
theorem serveAll_core_idle (served : Served φ υ) (tokens : List UInt32) (stepNs nowNs : UInt64)
    (hidle : served.stream.active = false) :
    served.serveAll (tokens.map fun token =>
      { call := .core token stepNs, nowNs := nowNs, answer := true }) = served := by
  induction tokens with
  | nil => rfl
  | cons token tokens ih =>
      have hone : served.serve { call := .core token stepNs, nowNs := nowNs, answer := true } =
          served := by
        unfold Served.serve serve emitTokenStreamEvent
        simp [hidle]
      unfold Served.serveAll at ih ⊢
      rw [List.map_cons, List.foldl_cons, hone]
      exact ih

/-- A stream that is cleared is cleared again when a request is over. -/
theorem perform_cleared (stream : TokenStream φ υ) (request : StreamRequest φ υ)
    (h : stream.Cleared) : (request.perform stream).served.stream.Cleared := by
  -- A request with a callback closes the stream, and one that is refused leaves it.
  cases request with
  | streamV1 inputTokenCount outputTokenCapacity callback userData startNs body =>
      unfold StreamRequest.perform requestTokensStreamV1
      cases callback with
      | none => exact h
      | some callback =>
          dsimp only
          split_ifs
          · exact h
          · exact closeTokenStream_cleared _ _ _
  | prefixStreamV1 outputTokenCapacity callback userData startNs body =>
      unfold StreamRequest.perform requestTokensPrefixStreamV1
      cases callback with
      | none => exact h
      | some callback =>
          dsimp only
          split_ifs
          · exact h
          · exact closeTokenStream_cleared _ _ _
  | withoutStream tokens stepNs nowNs status =>
      unfold StreamRequest.perform
      dsimp only
      rw [serveAll_core_idle _ tokens stepNs nowNs h.1]
      exact h

theorem streamAfter_cleared (requests : List (StreamRequest φ υ)) :
    (streamAfter requests).Cleared := by
  unfold streamAfter
  have hgen : ∀ stream : TokenStream φ υ, stream.Cleared →
      (requests.foldl (fun stream request => (request.perform stream).served.stream)
        stream).Cleared := by
    induction requests with
    | nil =>
        intro stream h
        exact h
    | cons request requests ih =>
        intro stream h
        exact ih _ (perform_cleared stream request h)
  exact hgen _ ⟨rfl, rfl, rfl⟩

/-- A request with a stream that succeeds has sent its output, whatever stream it began with. -/
theorem perform_completed (stream : TokenStream φ υ) (request : StreamRequest φ υ)
    (outputTokens : List UInt32) (houtput : request.streamed = some outputTokens)
    (hok : (request.perform stream).status = .ok) :
    Completed (request.perform stream).served.accepted outputTokens := by
  -- A request that succeeds has closed its stream, and the check at the end has passed.
  cases request with
  | streamV1 inputTokenCount outputTokenCapacity callback userData startNs body =>
      obtain rfl := Option.some.inj houtput
      unfold StreamRequest.perform requestTokensStreamV1 at hok ⊢
      cases callback with
      | none => exact absurd hok (by simp)
      | some callback =>
          dsimp only at hok ⊢
          by_cases hbad : inputTokenCount = 0 ∨ outputTokenCapacity = 0 ∨
              outputTokenCapacity > maxOutputTokens ∨ stream.active = true
          · rw [if_pos hbad] at hok
            exact absurd hok (by simp)
          · rw [if_neg hbad] at hok ⊢
            exact closeTokenStream_completed _ _ _ (serveAll_inStep _ _
              (fun _ => beginRequest_inStep stream callback userData startNs)) hok
  | prefixStreamV1 outputTokenCapacity callback userData startNs body =>
      obtain rfl := Option.some.inj houtput
      unfold StreamRequest.perform requestTokensPrefixStreamV1 at hok ⊢
      cases callback with
      | none => exact absurd hok (by simp)
      | some callback =>
          dsimp only at hok ⊢
          by_cases hbad : stream.active = true
          · rw [if_pos hbad] at hok
            exact absurd hok (by simp)
          · rw [if_neg hbad] at hok ⊢
            exact closeTokenStream_completed _ _ _ (serveAll_inStep _ _
              (fun _ => beginRequest_inStep stream callback userData startNs)) hok
  | withoutStream tokens stepNs nowNs status =>
      exact absurd houtput (by simp [StreamRequest.streamed])

/-- After any requests, the next one starts clean and leaves a clean stream, and if it has a
    stream and succeeds, the events its callback accepted are those of its output. -/
theorem tokenStream_contract (before : List (StreamRequest φ υ)) (request : StreamRequest φ υ) :
    (streamAfter before).Cleared ∧
      (request.perform (streamAfter before)).served.stream.Cleared ∧
      ∀ outputTokens, request.streamed = some outputTokens →
        (request.perform (streamAfter before)).status = .ok →
        Completed (request.perform (streamAfter before)).served.accepted outputTokens :=
  ⟨streamAfter_cleared before, perform_cleared _ request (streamAfter_cleared before),
    fun outputTokens => perform_completed _ request outputTokens⟩

end Streams

/-- A request for two tokens. The clock has not moved at the second. -/
def twoTokens : StreamRequest Unit Unit :=
  .streamV1 1 2 (some ()) none 5
    { calls :=
        [{ call := .core 7 1, nowNs := 9, answer := true },
          { call := .decode ⟨3, 0⟩ 3 1 8 1 1, nowNs := 9, answer := true }]
      status := .ok
      outputTokens := [7, 8] }

/-- The request for two tokens succeeds after itself, and has sent its output. -/
theorem twoTokens_completed :
    (twoTokens.perform (streamAfter [twoTokens])).status = .ok ∧
      Completed (twoTokens.perform (streamAfter [twoTokens])).served.accepted [7, 8] := by
  have hok : (twoTokens.perform (streamAfter [twoTokens])).status = .ok := by decide
  exact ⟨hok, (tokenStream_contract [twoTokens] twoTokens).2.2 [7, 8] rfl hok⟩

end Timed

end Core

end QrtEngine
