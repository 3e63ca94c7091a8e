import QrtEngine.Core.TokenStream

/-!
# The Stream of the Requests and its Clock

The requests are modelled with a stream that has no clock. That stream is the timed one without
its times, as long as the clock has not reached its end, and what a request does to it is a list of
calls of the bridges. So what a request does to its stream, the timed stream does too, if it is
called at times that leave the clock room: here, all at the time at which the request began.

## Main definitions

* `Served.untimed`, `BridgeCall.untimed`: A stream and a call without the clock.
* `Slow`: The clock is not ahead of the events.
* `ReachedFrom`: A stream that calls of the bridges lead to.

## Theorems

* `untimed_emit`, `untimed_serve`: Sending is the same with and without the clock.
* `reachedFrom_served`: What calls of the bridges lead to, the timed stream is led to.
* `requests_served`: What a request does to its stream, the timed stream does.
-/

namespace QrtEngine

namespace Core

namespace Timed

section Streams

variable {φ υ : Type}

/-- The event without its times. -/
def TokenStreamEvent.untimed (event : TokenStreamEvent) : StreamEvent :=
  { phase := event.phase, outputIndex := event.outputIndex, tokenId := event.tokenId }

/-- The stream without its clock. -/
def Served.untimed (served : Served φ υ) : StreamState :=
  { active := served.stream.active
    events := served.sent.map fun sent => sent.1.untimed
    cancelled := served.stream.cancelled
    contractFailed := served.stream.contractFailed }

/-- The call in the model of the requests. -/
def BridgeCall.untimed (callback : Callback) (stream : StreamState) : BridgeCall → StreamState
  | core tokenId _ | prefill tokenId _ => (emit callback stream .prefill 0 tokenId).2
  | decode bridge sessionGeneration outputIndex tokenId _ _ =>
      decodeEmission callback bridge.expectedSessionGeneration bridge.outputBase stream
        { sessionGeneration := sessionGeneration, outputIndex := outputIndex.toNat
          tokenId := tokenId }
  | prefixed bridge sessionGeneration outputIndex tokenId _ _ =>
      prefixEmission callback bridge.expectedSessionGeneration stream
        { sessionGeneration := sessionGeneration, outputIndex := outputIndex.toNat
          tokenId := tokenId }

/-- The stream counts what it has sent, it has a callback while it is active, and its clock has
    not reached its end. -/
structure Ticking (served : Served φ υ) : Prop where
  count : served.stream.callbackCount = served.sent.length
  called : served.stream.active = true → served.stream.callback.isSome
  clock : served.stream.lastRequestElapsedNs ≠ uint64Max

/-- What a call of the sender leaves, with the event noted. -/
def Served.note (served : Served φ υ) (emitted : Emitted φ υ) (answer : Bool) : Served φ υ :=
  { stream := emitted.stream
    sent := served.sent ++ (emitted.event.map fun event => (event, answer)).toList }

/-- Sending an event is the same with and without the clock. -/
theorem untimed_emit (callback : Callback) (served : Served φ υ) (hticking : Ticking served)
    (phase : Phase) (outputIndex : Nat) (tokenId : UInt32) (stepNs decodeNs nowNs : UInt64)
    (answer : Bool)
    (hanswer : callback (served.untimed.events ++ [StreamEvent.mk phase outputIndex tokenId]) =
      answer) :
    (served.note (emitTokenStreamEvent served.stream phase outputIndex tokenId stepNs decodeNs
      nowNs answer) answer).untimed =
      (emit callback served.untimed phase outputIndex tokenId).2 := by
  have hlength : served.untimed.events.length = served.stream.callbackCount := by
    rw [hticking.count]
    exact List.length_map _
  have hphase : phase ≠ phaseOf outputIndex ↔
      (outputIndex = 0 ∧ phase ≠ .prefill) ∨ (outputIndex ≠ 0 ∧ phase ≠ .decode) := by
    unfold phaseOf
    by_cases hzero : outputIndex = 0
    · simp [hzero]
    · simp [hzero]
  unfold emitTokenStreamEvent emit
  by_cases hactive : served.stream.active = true
  · have huntimed : (!served.untimed.active) = false := by
      simp [Served.untimed, hactive]
    rw [if_neg (by simp [hactive]), huntimed, if_neg Bool.false_ne_true]
    -- With a callback in place, both refuse the same events.
    have hrefuses : served.stream.refuses phase outputIndex tokenId ↔
        (outputIndex ≠ served.untimed.events.length ∨ outputIndex ≥ maxOutputTokens ∨
          tokenId ≥ vocabSize ∨ phase ≠ phaseOf outputIndex) := by
      have hsome := hticking.called hactive
      unfold TokenStream.refuses
      rw [hlength, hphase]
      cases hcallback : served.stream.callback with
      | none =>
          rw [hcallback] at hsome
          exact absurd hsome (by simp)
      | some _ => simp
    by_cases hbad : served.stream.refuses phase outputIndex tokenId
    · rw [if_pos hbad, if_pos (hrefuses.mp hbad)]
      simp [Served.note, Served.untimed]
    · rw [if_neg hbad, if_neg (fun hbad' => hbad (hrefuses.mpr hbad'))]
      have hnext : ∃ requestElapsedNs,
          served.stream.nextElapsedNs outputIndex nowNs = some requestElapsedNs := by
        unfold TokenStream.nextElapsedNs
        dsimp only
        rw [if_neg hticking.clock]
        split_ifs
        · exact ⟨_, rfl⟩
        · exact ⟨_, rfl⟩
      rcases hnext with ⟨requestElapsedNs, hnext⟩
      rw [hnext]
      dsimp only
      rw [hanswer]
      cases answer with
      | true => simp [Served.note, Served.untimed, eventAt, TokenStreamEvent.untimed]
      | false => simp [Served.note, Served.untimed, eventAt, TokenStreamEvent.untimed]
  · have huntimed : (!served.untimed.active) = true := by
      simpa [Served.untimed] using hactive
    rw [if_pos (by simpa using hactive), if_pos huntimed]
    simp [Served.note, Served.untimed]

/-- The event a call asks for, if the bridge passes it on. -/
def BridgeCall.event : BridgeCall → StreamEvent
  | core tokenId _ | prefill tokenId _ => StreamEvent.mk .prefill 0 tokenId
  | decode bridge _ outputIndex tokenId _ _ =>
      StreamEvent.mk .decode (bridge.outputBase + outputIndex.toNat) tokenId
  | prefixed _ _ outputIndex tokenId _ _ =>
      StreamEvent.mk (phaseOf outputIndex.toNat) outputIndex.toNat tokenId

/-- The index a call asks for is a size. -/
def BridgeCall.Sized : BridgeCall → Prop
  | decode bridge _ outputIndex _ _ _ => outputIndex.toNat ≤ sizeMax - bridge.outputBase
  | _ => True

/-- Serving a call is the same with and without the clock. -/
theorem untimed_serve (callback : Callback) (served : Served φ υ) (hticking : Ticking served)
    (timed : TimedCall) (hsized : timed.call.Sized)
    (hanswer : callback (served.untimed.events ++ [timed.call.event]) = timed.answer) :
    (served.serve timed).untimed = timed.call.untimed callback served.untimed := by
  change (served.note (serve served.stream timed) timed.answer).untimed = _
  unfold serve
  cases hcall : timed.call with
  | core tokenId stepNs =>
      rw [hcall] at hanswer
      exact untimed_emit callback served hticking _ _ _ _ _ _ _ hanswer
  | prefill tokenId stepNs =>
      rw [hcall] at hanswer
      exact untimed_emit callback served hticking _ _ _ _ _ _ _ hanswer
  | decode bridge sessionGeneration outputIndex tokenId stepNs endNs =>
      rw [hcall] at hanswer hsized
      dsimp only [BridgeCall.untimed]
      unfold tokenStreamBridge decodeEmission
      -- The position is checked as a word, and here as a number; neither wraps.
      have hzero : outputIndex = 0 ↔ outputIndex.toNat = 0 := by
        rw [← UInt32.toNat_inj]
        rfl
      have hover : ¬outputIndex.toNat > sizeMax - bridge.outputBase := Nat.not_lt.mpr hsized
      simp only [hzero, hover, or_false]
      by_cases hbad : sessionGeneration ≠ bridge.expectedSessionGeneration ∨
          outputIndex.toNat = 0
      · rw [if_pos hbad, if_pos hbad]
        simp [TokenStream.broken, Served.note, Served.untimed]
      · rw [if_neg hbad, if_neg hbad]
        exact untimed_emit callback served hticking _ _ _ _ _ _ _ hanswer
  | prefixed bridge sessionGeneration outputIndex tokenId stepNs endNs =>
      rw [hcall] at hanswer
      dsimp only [BridgeCall.untimed]
      unfold prefixTokenStreamBridge prefixEmission
      dsimp only
      have hphase : (if outputIndex = 0 then Phase.prefill else .decode) =
          phaseOf outputIndex.toNat := by
        unfold phaseOf
        simp only [← UInt32.toNat_inj, UInt32.toNat_zero]
      rw [hphase]
      by_cases hbad : sessionGeneration ≠ bridge.expectedSessionGeneration ∨
          outputIndex.toNat ≥ maxOutputTokens
      · rw [if_pos hbad, if_pos hbad]
        simp [TokenStream.broken, Served.note, Served.untimed]
      · rw [if_neg hbad, if_neg hbad]
        exact untimed_emit callback served hticking _ _ _ _ _ _ _ hanswer

/-! ## A clock that stands still -/

/-- The stream counts what it has sent, and its last event is not later than it has sent events. -/
structure Slow (served : Served φ υ) : Prop where
  count : served.stream.callbackCount = served.sent.length
  called : served.stream.active = true → served.stream.callback.isSome
  within : served.stream.callbackCount ≤ maxOutputTokens
  clock : served.stream.lastRequestElapsedNs.toNat ≤ served.stream.callbackCount

theorem Slow.ticking {served : Served φ υ} (h : Slow served) : Ticking served where
  count := h.count
  called := h.called
  clock := by
    intro hlast
    have hclock := h.clock
    have hwithin := h.within
    have hmax : uint64Max.toNat = 18446744073709551615 := rfl
    rw [hlast, hmax] at hclock
    unfold maxOutputTokens at hwithin
    omega

/-- At the time at which the request began, an event is at most one later than the last. -/
theorem emit_slow (stream : TokenStream φ υ) (phase : Phase) (outputIndex : Nat) (tokenId : UInt32)
    (stepNs decodeNs : UInt64) (answer : Bool) :
    (emitTokenStreamEvent stream phase outputIndex tokenId stepNs decodeNs stream.requestStartNs
      answer).stream.lastRequestElapsedNs.toNat ≤ stream.lastRequestElapsedNs.toNat + 1 := by
  have helapsed : elapsedNs stream.requestStartNs stream.requestStartNs = 0 := by
    unfold elapsedNs
    rw [if_pos (UInt64.le_refl _), UInt64.sub_self]
  unfold emitTokenStreamEvent
  by_cases hidle : (!stream.active) = true
  · rw [if_pos hidle]
    exact Nat.le_succ _
  rw [if_neg hidle]
  by_cases hrefuses : stream.refuses phase outputIndex tokenId
  · rw [if_pos hrefuses]
    exact Nat.le_succ _
  rw [if_neg hrefuses]
  cases hnext : stream.nextElapsedNs outputIndex stream.requestStartNs with
  | none => exact Nat.le_succ _
  | some requestElapsedNs =>
      unfold TokenStream.nextElapsedNs at hnext
      rw [helapsed] at hnext
      dsimp only at hnext ⊢
      split_ifs at hnext
      · rw [← Option.some.inj hnext, UInt64.toNat_add, UInt64.toNat_one]
        exact Nat.mod_le _ _
      · rw [← Option.some.inj hnext]
        exact Nat.zero_le _

/-- So is what a call of a bridge sends. -/
theorem serve_slow (stream : TokenStream φ υ) (timed : TimedCall)
    (hnow : timed.nowNs = stream.requestStartNs) :
    (serve stream timed).stream.lastRequestElapsedNs.toNat ≤
      stream.lastRequestElapsedNs.toNat + 1 := by
  unfold serve
  cases timed.call with
  | core tokenId stepNs =>
      dsimp only
      rw [hnow]
      exact emit_slow stream _ _ _ _ _ _
  | prefill tokenId stepNs =>
      dsimp only
      rw [hnow]
      exact emit_slow stream _ _ _ _ _ _
  | decode bridge sessionGeneration outputIndex tokenId stepNs endNs =>
      dsimp only
      unfold tokenStreamBridge
      rw [hnow]
      split_ifs
      · exact Nat.le_succ _
      · exact emit_slow stream _ _ _ _ _ _
  | prefixed bridge sessionGeneration outputIndex tokenId stepNs endNs =>
      dsimp only
      unfold prefixTokenStreamBridge
      rw [hnow]
      by_cases hbad : sessionGeneration ≠ bridge.expectedSessionGeneration ∨
          outputIndex.toNat ≥ maxOutputTokens
      · rw [if_pos hbad]
        exact Nat.le_succ _
      · rw [if_neg hbad]
        exact emit_slow stream _ _ _ _ _ _

/-- A call at the time at which the request began, with the answer of the callback. -/
def BridgeCall.atStart (callback : Callback) (served : Served φ υ) (call : BridgeCall) :
    TimedCall :=
  { call := call
    nowNs := served.stream.requestStartNs
    answer := callback (served.untimed.events ++ [call.event]) }

theorem Slow.serve (callback : Callback) {served : Served φ υ} (h : Slow served)
    (call : BridgeCall) : Slow (served.serve (call.atStart callback served)) := by
  have hclock := h.clock
  have hlater := serve_slow served.stream (call.atStart callback served) rfl
  unfold Served.serve
  dsimp only
  rcases serve_sends served.stream (call.atStart callback served) with
    ⟨hnone, hsame | hbroken⟩ | ⟨event, hevent, hsends⟩
  · rw [hnone, hsame]
    exact ⟨by simpa using h.count, h.called, h.within, h.clock⟩
  · rw [hnone, hbroken]
    exact ⟨by simpa using h.count, h.called, h.within, h.clock⟩
  · -- The next event is counted, and no more than one later than the last.
    have hstored := hsends.stored
    rw [hstored] at hlater
    rw [hevent, hstored]
    refine ⟨?_, h.called, hsends.within, ?_⟩
    · simp [h.count]
    · dsimp only at hlater ⊢
      omega

/-! ## Calls of the bridges -/

/-- A stream that calls of the bridges lead to. -/
def ReachedFrom (callback : Callback) (start stream : StreamState) : Prop :=
  ∃ calls : List BridgeCall, (∀ call ∈ calls, call.Sized) ∧
    stream = calls.foldl (BridgeCall.untimed callback) start

theorem ReachedFrom.snoc (callback : Callback) (start stream : StreamState) (call : BridgeCall)
    (hsized : call.Sized) (h : ReachedFrom callback start stream) :
    ReachedFrom callback start (call.untimed callback stream) := by
  rcases h with ⟨calls, hcalls, rfl⟩
  refine ⟨calls ++ [call], ?_, by rw [List.foldl_append, List.foldl_cons, List.foldl_nil]⟩
  intro other hother
  rcases List.mem_append.mp hother with hother | hother
  · exact hcalls other hother
  · rw [List.mem_singleton.mp hother]
    exact hsized

/-- Whatever is done to a stream is done by some call of a bridge. -/
theorem reachedFrom_kept (callback : Callback) (start : StreamState) :
    Kept callback (ReachedFrom callback start) := by
  have hbreaking : ∀ stream, ReachedFrom callback start stream →
      ReachedFrom callback start { stream with contractFailed := true } := by
    intro stream h
    have hsized : BridgeCall.Sized (.decode ⟨0, 0⟩ 1 1 0 0 0) := by
      show 1 ≤ sizeMax
      decide
    -- A bridge that is called for another session breaks the contract and sends nothing.
    have hcall := h.snoc callback start stream (.decode ⟨0, 0⟩ 1 1 0 0 0) hsized
    simpa [BridgeCall.untimed, decodeEmission] using hcall
  refine ⟨?_, hbreaking⟩
  intro stream phase outputIndex tokenId h
  by_cases hsent : outputIndex < maxOutputTokens ∧ phase = phaseOf outputIndex
  · obtain ⟨hwithin, hphase⟩ := hsent
    by_cases hzero : outputIndex = 0
    · rw [hphase, hzero]
      exact h.snoc callback start stream (.core tokenId 0) trivial
    · have hsized : BridgeCall.Sized (.decode ⟨0, outputIndex - 1⟩ 0 1 tokenId 0 0) := by
        show 1 ≤ sizeMax - (outputIndex - 1)
        unfold maxOutputTokens at hwithin
        unfold sizeMax
        omega
      have hcall := h.snoc callback start stream _ hsized
      have hindex : outputIndex - 1 + 1 = outputIndex := by omega
      rw [hphase, phaseOf, if_neg hzero]
      simpa [BridgeCall.untimed, decodeEmission, hindex] using hcall
  · -- An event past the last index or of the wrong phase is never sent.
    have hrefused : outputIndex ≥ maxOutputTokens ∨ tokenId ≥ vocabSize ∨
        phase ≠ phaseOf outputIndex := by
      rcases Nat.lt_or_ge outputIndex maxOutputTokens with hwithin | hpast
      · exact Or.inr (Or.inr fun hphase => hsent ⟨hwithin, hphase⟩)
      · exact Or.inl hpast
    unfold emit
    by_cases hidle : (!stream.active) = true
    · rw [if_pos hidle]
      exact h
    · rw [if_neg hidle, if_pos (Or.inr hrefused)]
      exact hbreaking stream h

/-- What calls of the bridges do without a clock, they do to a timed stream, all at the time at
    which the request began. -/
theorem reachedFrom_served (callback : Callback) (calls : List BridgeCall)
    (hsized : ∀ call ∈ calls, call.Sized) {served : Served φ υ} (h : Slow served) :
    ∃ timed, (served.serveAll timed).untimed =
      calls.foldl (BridgeCall.untimed callback) served.untimed := by
  induction calls generalizing served with
  | nil => exact ⟨[], rfl⟩
  | cons call calls ih =>
      have hcall := untimed_serve callback served h.ticking (call.atStart callback served)
        (hsized call List.mem_cons_self) rfl
      obtain ⟨timed, htimed⟩ := ih (fun other hother => hsized other (List.mem_cons_of_mem _ hother))
        (h.serve callback call)
      refine ⟨call.atStart callback served :: timed, ?_⟩
      rw [List.foldl_cons]
      exact htimed.trans (congrArg (List.foldl _ · calls) hcall)

/-- What a request with a stream does to it, the timed stream does too: calls of the bridges lead
    from the one that has just begun to the one that the request leaves, but for the times. -/
theorem requests_served {σ : Type} (cfg : Config) (provider : Provider σ) (host : Host)
    (callback : Callback) (engine : Engine) (s : σ) (hbegin : engine.stream = StreamState.begin)
    (before : TokenStream φ υ) (send : φ) (userData : Option υ) (startNs : UInt64) :
    let begun : Served φ υ := ⟨before.beginRequest send userData startNs, []⟩
    (∀ input capacity, ∃ timed, (begun.serveAll timed).untimed =
      (requestTokens cfg provider host callback engine s input capacity).2.1.stream) ∧
    ∀ streams input prefixCount capacity, ∃ timed, (begun.serveAll timed).untimed =
      (prefixV1 cfg provider host callback streams engine s input prefixCount
        capacity).2.1.stream := by
  intro begun
  have hslow : Slow begun := ⟨rfl, fun _ => rfl, Nat.zero_le _, Nat.le_refl _⟩
  have hserved : ∀ stream, ReachedFrom callback engine.stream stream →
      ∃ timed, (begun.serveAll timed).untimed = stream := by
    rintro stream ⟨calls, hsized, rfl⟩
    rw [hbegin]
    exact reachedFrom_served callback calls hsized hslow
  have hkept := reachedFrom_kept callback engine.stream
  have hnone : ReachedFrom callback engine.stream engine.stream :=
    ⟨[], fun _ h => absurd h List.not_mem_nil, rfl⟩
  refine ⟨fun input capacity => hserved _ ?_, fun streams input prefixCount capacity =>
    hserved _ ?_⟩
  · exact requestTokens_keeps hkept cfg provider host engine s input capacity hnone
  · exact prefixV1_keeps hkept cfg provider host streams engine s input prefixCount capacity hnone

end Streams

end Timed

end Core

end QrtEngine
