import QrtEngine.Core.Exits

/-!
# What a Stream Sends

The events of a stream are numbered without gaps, whatever the provider does with the callbacks
it was given: a call out of order is not sent on. And as long as the stream is not cancelled, the
caller's callback has gone on after each of them. Both are kept by every operation, so a stream
that was complete has sent exactly the events of its output.

## Main definitions

* `eventsFrom`, `eventsOf`: The events of a list of tokens.
* `Ordered`: The events are numbered, and the callback has gone on after each.

## Theorems

* `emit_ordered`: Sending an event keeps the order.
* `requestTokens_keeps`, `prefixV1_keeps`: What sending an event keeps, a request keeps.
* `requestTokens_ordered`, `prefixV1_ordered`: So a request keeps the order.
* `complete_spec`: What a complete stream has sent.
-/

namespace QrtEngine

namespace Core

/-! ## Events -/

/-- The events of tokens that are numbered from an index on. -/
def eventsFrom : Nat → List UInt32 → List StreamEvent
  | _, [] => []
  | index, token :: tokens =>
      { phase := phaseOf index, outputIndex := index, tokenId := token } ::
        eventsFrom (index + 1) tokens

/-- The events of an output. -/
def eventsOf (tokens : List UInt32) : List StreamEvent := eventsFrom 0 tokens

theorem length_eventsFrom (index : Nat) (tokens : List UInt32) :
    (eventsFrom index tokens).length = tokens.length := by
  induction tokens generalizing index with
  | nil => rfl
  | cons token tokens ih => exact congrArg (· + 1) (ih _)

theorem map_tokenId_eventsFrom (index : Nat) (tokens : List UInt32) :
    (eventsFrom index tokens).map StreamEvent.tokenId = tokens := by
  induction tokens generalizing index with
  | nil => rfl
  | cons token tokens ih => exact congrArg (token :: ·) (ih _)

theorem eventsFrom_append (index : Nat) (tokens more : List UInt32) :
    eventsFrom index (tokens ++ more) =
      eventsFrom index tokens ++ eventsFrom (index + tokens.length) more := by
  induction tokens generalizing index with
  | nil => rfl
  | cons token tokens ih =>
      rw [List.cons_append, eventsFrom, eventsFrom, ih, List.cons_append, List.length_cons,
        Nat.add_right_comm, Nat.add_assoc]

theorem eventsOf_concat (tokens : List UInt32) (token : UInt32) :
    eventsOf (tokens ++ [token]) = eventsOf tokens ++
      [{ phase := phaseOf tokens.length, outputIndex := tokens.length, tokenId := token }] := by
  unfold eventsOf
  rw [eventsFrom_append, Nat.zero_add]
  rfl

theorem eventsOf_take (tokens : List UInt32) (count : Nat) :
    (eventsOf tokens).take count = eventsOf (tokens.take count) := by
  unfold eventsOf
  generalize 0 = index
  induction tokens generalizing index count with
  | nil => rw [List.take_nil, eventsFrom, List.take_nil]
  | cons token tokens ih =>
      cases count with
      | zero => rfl
      | succ count => exact congrArg (_ :: ·) (ih count (index + 1))

/-! ## Order -/

/-- The events are numbered without gaps, and unless the stream was cancelled the callback has
    gone on after each of them. -/
structure Ordered (callback : Callback) (stream : StreamState) : Prop where
  numbered : stream.events = eventsOf (stream.events.map StreamEvent.tokenId)
  wentOn : stream.cancelled = false → ∀ count, 0 < count → count ≤ stream.events.length →
    callback (stream.events.take count) = true

theorem ordered_begin (callback : Callback) : Ordered callback StreamState.begin :=
  ⟨rfl, fun _ _ hpos hle => absurd hpos (Nat.not_lt.mpr hle)⟩

/-- A stream that keeps its events and was not uncancelled is in order if it was. -/
theorem Ordered.congr (callback : Callback) (stream stream' : StreamState)
    (h : Ordered callback stream) (hevents : stream'.events = stream.events)
    (hcancelled : stream'.cancelled = false → stream.cancelled = false) :
    Ordered callback stream' := by
  refine ⟨?_, ?_⟩
  · rw [hevents]
    exact h.numbered
  · intro hnot
    rw [hevents]
    exact h.wentOn (hcancelled hnot)

/-- Sending an event keeps the order. -/
theorem emit_ordered (callback : Callback) (stream : StreamState) (phase : Phase)
    (outputIndex : Nat) (tokenId : UInt32) (h : Ordered callback stream) :
    Ordered callback (emit callback stream phase outputIndex tokenId).2 := by
  unfold emit
  by_cases hidle : (!stream.active) = true
  · rw [if_pos hidle]
    exact h
  · rw [if_neg hidle]
    by_cases hbad : outputIndex ≠ stream.events.length ∨ outputIndex ≥ maxOutputTokens ∨
        tokenId ≥ vocabSize ∨ phase ≠ phaseOf outputIndex
    -- Out of order: nothing is sent.
    · rw [if_pos hbad]
      exact Ordered.congr callback stream _ h rfl id
    · rw [if_neg hbad]
      simp only [not_or, not_not] at hbad
      rcases hbad with ⟨hindex, -, -, hphase⟩
      have hnumbered : stream.events ++ [StreamEvent.mk phase outputIndex tokenId] =
          eventsOf ((stream.events ++ [StreamEvent.mk phase outputIndex tokenId]).map
            StreamEvent.tokenId) := by
        rw [List.map_append, List.map_singleton, eventsOf_concat, ← h.numbered, List.length_map,
          hphase, hindex]
      dsimp only
      split_ifs with hgoes
      · refine ⟨hnumbered, ?_⟩
        intro hcancelled count hpos hle
        -- The callback has gone on after the earlier events, and just now after this one.
        rcases Nat.lt_or_eq_of_le hle with hlt | heq
        · rw [List.length_append, List.length_singleton] at hlt
          dsimp only
          rw [List.take_append_of_le_length (by omega)]
          exact h.wentOn hcancelled count hpos (by omega)
        · rw [heq, List.take_length]
          exact hgoes
      · refine ⟨hnumbered, ?_⟩
        intro hcancelled
        exact Bool.noConfusion hcancelled

/-! ## Requests

A request reaches the stream through its sender and its bridges only. So a property of streams that
sending an event keeps, and breaking the contract keeps, is kept by every request. -/

/-- A property of streams that whatever a request does to its stream keeps. -/
structure Kept (callback : Callback) (keeps : StreamState → Prop) : Prop where
  sending : ∀ stream phase outputIndex tokenId, keeps stream →
    keeps (emit callback stream phase outputIndex tokenId).2
  breaking : ∀ stream, keeps stream → keeps { stream with contractFailed := true }

/-- Calls that each keep a property keep it together. -/
theorem foldl_keeps {α : Type} (keeps : StreamState → Prop) (call : StreamState → α → StreamState)
    (hcall : ∀ stream item, keeps stream → keeps (call stream item)) (items : List α)
    (stream : StreamState) (h : keeps stream) : keeps (items.foldl call stream) := by
  induction items generalizing stream with
  | nil => exact h
  | cons item items ih => exact ih _ (hcall stream item h)

section Keeping

variable {callback : Callback} {keeps : StreamState → Prop} (hkept : Kept callback keeps)
include hkept

theorem decodeEmission_keeps (sessionGeneration : UInt64) (outputBase : Nat)
    (stream : StreamState) (emission : Emission) (h : keeps stream) :
    keeps (decodeEmission callback sessionGeneration outputBase stream emission) := by
  unfold decodeEmission
  split_ifs
  · exact hkept.breaking stream h
  · exact hkept.sending stream _ _ _ h

theorem prefixEmission_keeps (sessionGeneration : UInt64) (stream : StreamState)
    (emission : Emission) (h : keeps stream) :
    keeps (prefixEmission callback sessionGeneration stream emission) := by
  unfold prefixEmission
  split_ifs
  · exact hkept.breaking stream h
  · exact hkept.sending stream _ _ _ h

variable {σ : Type} (cfg : Config) (provider : Provider σ) (host : Host)

theorem decodeSpans_keeps (input : List UInt32) (reply : PrefillReply) (capacity fuel : Nat)
    (engine : Engine) (s : σ) (outputs : List UInt32) (h : keeps engine.stream) :
    keeps
      (decodeSpans provider callback input reply capacity fuel engine s outputs).2.1.stream := by
  induction fuel generalizing engine s outputs with
  | zero => exact h
  | succ fuel ih =>
      unfold decodeSpans
      by_cases hdone : capacity ≤ outputs.length
      · rw [if_pos hdone]
        exact h
      · rw [if_neg hdone]
        dsimp only
        -- The callbacks of one span, whatever the provider did with them.
        generalize hspan : (if (decodeRequest engine input reply capacity outputs).emits = true then
          ((provider.decodeV1 s (decodeRequest engine input reply capacity
            outputs)).1.emissions.foldl (decodeEmission callback reply.sessionGeneration
              (outputs.length - 1)) engine.stream) else engine.stream) = stream
        have hstream : keeps stream := by
          rw [← hspan]
          split_ifs
          · exact foldl_keeps keeps _ (decodeEmission_keeps hkept _ _) _ _ h
          · exact h
        split_ifs
        · exact hstream
        · exact ih _ _ _ hstream

theorem finishRequest_keeps (engine : Engine) (s : σ) (input : List UInt32) (capacity : Nat)
    (request : PrefillRequest) (reply : PrefillReply) (h : keeps engine.stream) :
    keeps (finishRequest provider host callback engine s input capacity request
      reply).2.1.stream := by
  unfold finishRequest
  dsimp only
  generalize hfirst : (if request.emits = true then (true, engine.stream)
    else emit callback engine.stream .prefill 0 (reply.outputTokens.headD 0)) = emitted
  have hstream : keeps emitted.2 := by
    rw [← hfirst]
    split_ifs
    · exact h
    · exact hkept.sending engine.stream _ _ _ h
  split_ifs
  all_goals first
    | exact hstream
    | exact decodeSpans_keeps hkept provider input reply capacity _ _ s _ hstream

/-- An ordinary request keeps the property. -/
theorem requestTokens_keeps (engine : Engine) (s : σ) (input : List UInt32) (capacity : Nat)
    (h : keeps engine.stream) :
    keeps (requestTokens cfg provider host callback engine s input capacity).2.1.stream := by
  cases hreaches : reachesProvider cfg host input capacity with
  | false =>
      rcases requestTokens_of_not_reaches cfg provider host callback engine s input capacity
        hreaches with ⟨status, stage, -, hresult⟩ | ⟨-, outcome, stage, hresult⟩
      · rw [hresult]
        exact h
      · rw [hresult]
        exact h
  | true =>
      -- The early callback is the only one a prefill has.
      have hprefill : keeps (prefill provider callback (engine.fail .none) s
          (prefillRequest cfg (engine.fail .none) input capacity)).2.1.stream := by
        unfold prefill prefillEmissions
        dsimp only
        split_ifs
        · exact foldl_keeps keeps _
            (fun stream token => hkept.sending stream _ _ token) _ _ h
        · exact h
      rcases requestTokens_cases cfg provider host callback engine s input capacity hreaches with
        ⟨-, hresult⟩ | ⟨-, stage, hresult⟩
      · rw [hresult]
        exact finishRequest_keeps hkept provider host _ _ input capacity _ _ hprefill
      · rw [hresult]
        exact hprefill

/-- A prefix request keeps the property. -/
theorem prefixV1_keeps (streams : Bool) (engine : Engine) (s : σ) (input : List UInt32)
    (prefixCount capacity : Nat) (h : keeps engine.stream) :
    keeps (prefixV1 cfg provider host callback streams engine s input prefixCount
      capacity).2.1.stream := by
  have hsent : ∀ reply, keeps (prefixSent callback streams engine reply) := by
    intro reply
    unfold prefixSent
    split_ifs
    · exact foldl_keeps keeps _ (prefixEmission_keeps hkept _) _ _ h
    · exact h
  have hexit := prefixV1_exit cfg provider host callback streams engine s input prefixCount
    capacity
  generalize prefixV1 cfg provider host callback streams engine s input prefixCount capacity =
    result at hexit ⊢
  cases hexit with
  | missed => exact h
  | refused => exact h
  | failed => exact hsent _
  | answered => exact hsent _

end Keeping

theorem ordered_kept (callback : Callback) : Kept callback (Ordered callback) :=
  { sending := fun stream phase outputIndex tokenId =>
      emit_ordered callback stream phase outputIndex tokenId
    breaking := fun stream h => Ordered.congr callback stream _ h rfl id }

section Requests

variable {σ : Type} (cfg : Config) (provider : Provider σ) (host : Host) (callback : Callback)

/-- An ordinary request keeps the order. -/
theorem requestTokens_ordered (engine : Engine) (s : σ) (input : List UInt32) (capacity : Nat)
    (h : Ordered callback engine.stream) :
    Ordered callback
      (requestTokens cfg provider host callback engine s input capacity).2.1.stream :=
  requestTokens_keeps (ordered_kept callback) cfg provider host engine s input capacity h

/-- A prefix request keeps the order. -/
theorem prefixV1_ordered (streams : Bool) (engine : Engine) (s : σ) (input : List UInt32)
    (prefixCount capacity : Nat) (h : Ordered callback engine.stream) :
    Ordered callback (prefixV1 cfg provider host callback streams engine s input prefixCount
      capacity).2.1.stream :=
  prefixV1_keeps (ordered_kept callback) cfg provider host streams engine s input prefixCount
    capacity h

end Requests

/-- A stream that is in order and complete has sent the events of its output, and the callback has
    gone on after each. -/
theorem complete_spec (callback : Callback) (stream : StreamState) (outputTokens : List UInt32)
    (hordered : Ordered callback stream) (h : stream.complete outputTokens = true) :
    stream.events = eventsOf outputTokens ∧
      ∀ count, 0 < count → count ≤ outputTokens.length →
        callback (eventsOf (outputTokens.take count)) = true := by
  unfold StreamState.complete at h
  simp only [Bool.and_eq_true, Bool.not_eq_true', beq_iff_eq] at h
  rcases h with ⟨⟨hcancelled, -⟩, htokens⟩
  have hevents : stream.events = eventsOf outputTokens := by
    rw [hordered.numbered, htokens]
  refine ⟨hevents, ?_⟩
  intro count hpos hle
  have hlength : stream.events.length = outputTokens.length := by
    rw [← htokens, List.length_map]
  rw [← eventsOf_take, ← hevents]
  exact hordered.wentOn hcancelled count hpos (by omega)

end Core

end QrtEngine
