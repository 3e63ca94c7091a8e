import QrtEngine.Bridge.Mirror
import QrtEngine.Core.Stream
import QrtEngine.Provider.Greedy

/-!
# The Prefix Cache Does not Show

Over a greedy provider a request that succeeds answers with the greedy chain of its prompt, and
its callback has seen the events of that chain, whichever route it took and whatever was cached.
So the copies of the bridge, the core's record and the session of the provider, however the
requests before have left them, do not show in the answer. The same request on an engine that was
just loaded, with the cache switched off, is an ordinary request. If its prompt is within the
context, it is served and answers the same. A longer one is refused there, while the route over a
prefix does not look at the context, so for such a prompt the cache shows.

## Main definitions

* `Request.uncached`: The same request with the cache switched off, where nothing fails.
* `BridgeConfig`: How the bridge loads an engine.
* `Admitted`: The engine takes the prompt without a cache.

## Theorems

* `decodeSpans_greedy`, `requestTokens_greedy`, `prefixV1_greedy`: What a request answers with.
* `decodeSpans_served`, `requestTokensStreamV1_served`: An ordinary request is served.
* `generate_transparent_iff`: When the cache does not show.
* `cachedRequest_transparent`: A request over a cached prefix and the same without the cache.
* `longRequest_shows`: A prompt beyond the context that only a cached prefix lets through.
-/

namespace QrtEngine

namespace Bridge

open QrtEngine.Core
open Resident (Greedy LiveSession Serves streamPrefill emissionsFrom ideal)

/-! ## Answers are greedy -/

section Greedy

variable {σ : Type} (cfg : Config) (provider : Provider σ) (next : List UInt32 → UInt32)
  (live : σ → Option LiveSession) (host : Host) (callback : Callback)

/-- The last output and what a session has seen before it. -/
theorem dropLast_append_getLastD (outputs : List UInt32) (h : outputs ≠ []) :
    outputs.dropLast ++ [outputs.getLastD 0] = outputs := by
  rw [List.getLastD_eq_getLast?, List.getLast?_eq_some_getLast h, Option.getD_some]
  exact List.dropLast_append_getLast h

/-- The size of a span. -/
theorem decodeResultValid_length (request : DecodeRequest) (reply : DecodeReply)
    (h : decodeResultValid request reply = true) :
    reply.outputTokens.length = request.outputTokenCapacity ∧
      reply.outputTokens.all (· < vocabSize) = true := by
  unfold decodeResultValid at h
  simp only [Bool.and_eq_true, beq_iff_eq] at h
  exact ⟨h.1.1.1.1.1.1.1.1.1.1.1.1.1.2, h.1.1.1.1.2⟩

/-- One span of a chain: what it answers with, and what the session has seen then. -/
theorem span_greedy (hgreedy : Greedy provider next live) (s : σ) (session : LiveSession)
    (input outputs : List UInt32) (request : DecodeRequest)
    (hlive : live s = some session) (htokens : session.tokens = input ++ outputs.dropLast)
    (hne : outputs ≠ []) (hinitial : request.initialOutputTokenId = outputs.getLastD 0)
    (hok : (provider.decodeV1 s request).1.ok = true)
    (hlength : (provider.decodeV1 s request).1.outputTokens.length =
      request.outputTokenCapacity)
    (hmany : 2 ≤ request.outputTokenCapacity) :
    let tail := (provider.decodeV1 s request).1.outputTokens.tail
    tail = chain next (input ++ outputs) (request.outputTokenCapacity - 1) ∧
      live (provider.decodeV1 s request).2 =
        some { session with tokens := input ++ (outputs ++ tail).dropLast } := by
  rcases hgreedy.decodeV1 s request session hlive hok with ⟨hreply, hafter⟩
  -- The session has not seen the last output yet; with it, it has seen the prompt and all the
  -- outputs.
  have hseen : session.tokens ++ [request.initialOutputTokenId] = input ++ outputs := by
    rw [htokens, hinitial, List.append_assoc, dropLast_append_getLastD outputs hne]
  rw [hseen, hlength] at hreply
  have htail : (provider.decodeV1 s request).1.outputTokens.tail =
      chain next (input ++ outputs) (request.outputTokenCapacity - 1) := by
    rw [hreply, List.tail_cons]
  have hmore : (provider.decodeV1 s request).1.outputTokens.tail ≠ [] := by
    rw [htail]
    refine List.ne_nil_of_length_pos ?_
    rw [length_chain]
    omega
  refine ⟨htail, ?_⟩
  rw [hafter]
  congr 2
  have hcons : (provider.decodeV1 s request).1.outputTokens =
      outputs.getLastD 0 :: (provider.decodeV1 s request).1.outputTokens.tail := by
    rw [← hinitial, htail]
    exact hreply
  rw [htokens, List.dropLast_append_of_ne_nil hmore, hcons, List.tail_cons,
    List.dropLast_cons_of_ne_nil hmore, List.append_assoc, List.append_cons,
    dropLast_append_getLastD outputs hne]

/-- A chain grows by its spans. -/
theorem chain_append_span (input outputs : List UInt32) (count : Nat)
    (h : outputs = chain next input outputs.length) :
    outputs ++ chain next (input ++ outputs) count =
      chain next input (outputs ++ chain next (input ++ outputs) count).length := by
  rw [List.length_append, length_chain, chain_add, ← h]

/-- The spans of a decode that succeeds make up the chain. -/
theorem decodeSpans_greedy (hgreedy : Greedy provider next live) (input : List UInt32)
    (prefill : PrefillReply) (capacity fuel : Nat) (engine : Engine) (s : σ)
    (outputs : List UInt32) (session : LiveSession) (hlive : live s = some session)
    (htokens : session.tokens = input ++ outputs.dropLast)
    (houtputs : outputs = chain next input outputs.length) (hne : outputs ≠ [])
    (hle : outputs.length ≤ capacity) (hfuel : capacity ≤ outputs.length + fuel)
    (hok : (decodeSpans provider callback input prefill capacity fuel engine s
      outputs).1.status = .ok) :
    (decodeSpans provider callback input prefill capacity fuel engine s outputs).1.outputTokens =
      chain next input capacity := by
  induction fuel generalizing engine s outputs session with
  -- No fuel is left and none is needed: the fuel was what is missing.
  | zero =>
      have hdone : outputs.length = capacity := by omega
      rw [hdone] at houtputs
      exact houtputs
  | succ fuel ih =>
      unfold decodeSpans at hok ⊢
      by_cases hdone : capacity ≤ outputs.length
      · rw [if_pos hdone]
        have heq : outputs.length = capacity := by omega
        rw [heq] at houtputs
        exact houtputs
      · rw [if_neg hdone] at hok ⊢
        dsimp only at hok ⊢
        generalize hrequest : decodeRequest engine input prefill capacity outputs = request
          at hok ⊢
        have hinitial : request.initialOutputTokenId = outputs.getLastD 0 := by
          rw [← hrequest]
          rfl
        have hcapacity : request.outputTokenCapacity =
            min (capacity - outputs.length) (decodeMaxOutputTokens - 1) + 1 := by
          rw [← hrequest]
          rfl
        have hmax : decodeMaxOutputTokens = 64 := rfl
        generalize (if request.emits = true then
            List.foldl (decodeEmission callback prefill.sessionGeneration (outputs.length - 1))
              engine.stream (provider.decodeV1 s request).1.emissions
          else engine.stream) = stream at hok ⊢
        by_cases hfailed : (!(provider.decodeV1 s request).1.ok ||
            !decodeResultValid request (provider.decodeV1 s request).1) = true
        · rw [if_pos hfailed] at hok
          exact Status.noConfusion hok
        · rw [if_neg hfailed] at hok ⊢
          simp only [Bool.or_eq_true, Bool.not_eq_true', not_or, Bool.not_eq_false] at hfailed
          have hlength := (decodeResultValid_length request _ hfailed.2).1
          rcases span_greedy provider next live hgreedy s session input outputs request hlive
            htokens hne hinitial hfailed.1 hlength (by omega) with ⟨htail, hafter⟩
          have hgrows : (provider.decodeV1 s request).1.outputTokens.tail.length =
              request.outputTokenCapacity - 1 := by
            rw [htail, length_chain]
          refine ih { engine with stream := stream } _ _ _ hafter rfl ?_ ?_ ?_ ?_ hok
          · rw [htail]
            exact chain_append_span next input outputs _ houtputs
          · exact List.append_ne_nil_of_left_ne_nil hne _
          · rw [List.length_append, hgrows]
            omega
          · rw [List.length_append, hgrows]
            omega

/-- What follows a prefill makes up the chain, if it succeeds. -/
theorem finishRequest_greedy (hgreedy : Greedy provider next live) (engine : Engine) (s : σ)
    (input : List UInt32) (capacity : Nat) (request : PrefillRequest) (reply : PrefillReply)
    (hpos : 0 < capacity) (hfirst : reply.outputTokens.take 1 = [next input])
    (hlive : reply.sessionValid = true →
      ∃ session, live s = some session ∧ session.tokens = input)
    (hok : (finishRequest provider host callback engine s input capacity request
      reply).1.status = .ok) :
    (finishRequest provider host callback engine s input capacity request
      reply).1.outputTokens = chain next input capacity := by
  unfold finishRequest at hok ⊢
  dsimp only at hok ⊢
  generalize (if request.emits = true then (true, engine.stream)
    else emit callback engine.stream .prefill 0 (reply.outputTokens.headD 0)) = emitted at hok ⊢
  by_cases hrefused : (!emitted.1) = true
  · rw [if_pos hrefused] at hok
    exact Status.noConfusion hok
  · rw [if_neg hrefused] at hok ⊢
    by_cases hmany : capacity > 1
    · rw [if_pos hmany] at hok ⊢
      by_cases hlost : (!retainsSession input reply || !host.decodeExported) = true
      · rw [if_pos hlost] at hok
        exact Status.noConfusion hok
      · rw [if_neg hlost] at hok ⊢
        simp only [Bool.or_eq_true, Bool.not_eq_true', not_or, Bool.not_eq_false] at hlost
        have hvalid : reply.sessionValid = true := by
          have hretains := hlost.1
          unfold retainsSession at hretains
          simp only [Bool.and_eq_true] at hretains
          exact hretains.1.1.1.1
        -- The session has seen the prompt, so the spans go on from its next token.
        rcases hlive hvalid with ⟨session, hsession, htokens⟩
        rw [hfirst] at hok ⊢
        refine decodeSpans_greedy provider next live callback hgreedy input reply capacity
          capacity _ s [next input] session hsession ?_ rfl ?_ ?_ ?_ hok
        · rw [htokens, List.dropLast_singleton, List.append_nil]
        · exact List.cons_ne_nil _ _
        · rw [List.length_singleton]
          omega
        · rw [List.length_singleton]
          omega
    · rw [if_neg hmany]
      have hone : capacity = 1 := by omega
      rw [hone, hfirst]
      rfl

/-- An ordinary request that succeeds answers with the chain of its prompt. -/
theorem requestTokens_greedy (hgreedy : Greedy provider next live)
    (hrequested : cfg.providerRequested = true) (engine : Engine) (s : σ) (input : List UInt32)
    (capacity : Nat)
    (hok : (requestTokens cfg provider host callback engine s input capacity).1.status = .ok) :
    (requestTokens cfg provider host callback engine s input capacity).1.outputTokens =
      chain next input capacity := by
  have hreaches := reachesProvider_of_ok cfg provider host callback hrequested engine s input
    capacity hok
  have hpos : 0 < capacity := by
    unfold reachesProvider at hreaches
    simp only [Bool.and_eq_true] at hreaches
    exact (supportedShape_spec cfg input capacity hreaches.1.2).2.2.1
  rcases requestTokens_cases cfg provider host callback engine s input capacity hreaches with
    ⟨haccepted, hresult⟩ | ⟨-, stage, hresult⟩
  · rw [hresult] at hok ⊢
    unfold accepted at haccepted
    simp only [Bool.and_eq_true] at haccepted
    rcases haccepted with ⟨⟨hreplied, -⟩, houtput⟩
    -- The first token is that of the prompt, and the session has seen the prompt.
    rcases hgreedy.prefillV1 s (prefillRequest cfg (engine.fail .none) input capacity) hreplied
      with ⟨htoken, hsession⟩
    refine finishRequest_greedy provider next live host callback hgreedy _ _ input capacity _ _
      hpos ?_ (fun hvalid => ⟨_, hsession hvalid, rfl⟩) hok
    rw [(prefillOutputContract_spec _ houtput).1]
    exact congrArg (fun token => [token]) htoken
  · rw [hresult] at hok
    exact Status.noConfusion hok

/-- A reply to a prefix request that keeps its contract is a success. -/
theorem prefixContract_ok (request : PrefixRequest) (reply : PrefixReply)
    (h : prefixContract request reply = true) : reply.ok = true := by
  unfold prefixContract at h
  simp only [Bool.and_eq_true] at h
  tauto

/-- A prefix request that succeeds answers with the chain of its prompt. -/
theorem prefixV1_greedy (hgreedy : Greedy provider next live) (streams : Bool) (engine : Engine)
    (s : σ) (input : List UInt32) (prefixCount capacity : Nat)
    (hok : (prefixV1 cfg provider host callback streams engine s input prefixCount
      capacity).1.status = .ok) :
    (prefixV1 cfg provider host callback streams engine s input prefixCount
      capacity).1.outputTokens = chain next input capacity := by
  have hexit := prefixV1_exit cfg provider host callback streams engine s input prefixCount
    capacity
  generalize prefixV1 cfg provider host callback streams engine s input prefixCount capacity =
    result at hexit hok ⊢
  cases hexit with
  | missed => exact Status.noConfusion hok
  | refused status stage hstatus => exact absurd hok hstatus
  | failed => exact Status.noConfusion hok
  | answered hcontract => exact (hgreedy.prefixV1 s _ (prefixContract_ok _ _ hcontract)).2

end Greedy

/-! ## Ordinary requests are served -/

/-- An event in order that the callback goes on after is sent. -/
theorem emit_sent (callback : Callback) (stream : StreamState) (sent : List UInt32)
    (token : UInt32) (hactive : stream.active = true) (hevents : stream.events = eventsOf sent)
    (hfew : sent.length < maxOutputTokens) (hvocab : token < vocabSize)
    (hgoes : callback (eventsOf (sent ++ [token])) = true) :
    emit callback stream (phaseOf sent.length) sent.length token =
      (true, { stream with events := eventsOf (sent ++ [token]) }) := by
  have hlength : stream.events.length = sent.length := by
    rw [hevents]
    exact length_eventsFrom 0 sent
  have hgood : ¬(sent.length ≠ stream.events.length ∨ sent.length ≥ maxOutputTokens ∨
      token ≥ vocabSize ∨ phaseOf sent.length ≠ phaseOf sent.length) := by
    simp only [not_or, not_not]
    exact ⟨hlength.symm, Nat.not_le.mpr hfew, fun h => absurd hvocab (UInt32.not_lt.mpr h), trivial⟩
  unfold emit
  rw [hactive, if_neg (by decide), if_neg hgood]
  dsimp only
  rw [hevents, ← eventsOf_concat, if_pos hgoes]

/-- The calls of the callback for a span are all sent. -/
theorem decodeEmissions_sent (callback : Callback) (generation : UInt64) (outputBase index : Nat)
    (tokens sent : List UInt32) (stream : StreamState) (hactive : stream.active = true)
    (hevents : stream.events = eventsOf sent) (hindex : outputBase + index = sent.length)
    (hpos : 0 < index) (hfew : sent.length + tokens.length ≤ maxOutputTokens)
    (hvocab : tokens.all (· < vocabSize) = true)
    (hgoes : ∀ count, 0 < count → count ≤ tokens.length →
      callback (eventsOf (sent ++ tokens.take count)) = true) :
    (emissionsFrom generation index tokens).foldl (decodeEmission callback generation outputBase)
      stream = { stream with events := eventsOf (sent ++ tokens) } := by
  induction tokens generalizing index sent stream with
  | nil =>
      rw [List.append_nil, ← hevents]
      rfl
  | cons token tokens ih =>
      rw [List.length_cons] at hfew
      rw [List.all_cons, Bool.and_eq_true, decide_eq_true_eq] at hvocab
      -- The first event of a span is never the first of the stream.
      have hphase : Phase.decode = phaseOf sent.length := by
        unfold phaseOf
        rw [if_neg (by omega)]
      have hfirst : callback (eventsOf (sent ++ [token])) = true :=
        hgoes 1 Nat.one_pos (Nat.succ_le_succ (Nat.zero_le _))
      have hemission : decodeEmission callback generation outputBase stream
          { sessionGeneration := generation, outputIndex := index, tokenId := token } =
          { stream with events := eventsOf (sent ++ [token]) } := by
        unfold decodeEmission
        rw [if_neg (by simp only [ne_eq, not_true_eq_false, false_or]; omega)]
        dsimp only
        rw [hindex, hphase, emit_sent callback stream sent token hactive hevents (by omega)
          hvocab.1 hfirst]
      have hlength : (sent ++ [token]).length = sent.length + 1 := by
        rw [List.length_append, List.length_singleton]
      have hrest := ih (index + 1) (sent ++ [token])
        { stream with events := eventsOf (sent ++ [token]) } hactive rfl (by omega)
        (Nat.succ_pos _) (by omega) hvocab.2 (by
          intro count _ hle
          rw [List.append_assoc, List.singleton_append, ← List.take_succ_cons]
          exact hgoes (count + 1) (Nat.succ_pos _) (Nat.succ_le_succ hle))
      unfold emissionsFrom
      rw [List.foldl_cons, hemission, hrest, List.append_assoc, List.singleton_append]

section Served

variable {σ : Type} (cfg : Config) (provider : Provider σ) (next : List UInt32 → UInt32)
  (live : σ → Option LiveSession) (healthy : σ → Prop) (callback : Callback)

/-- The last token of an output is in the vocabulary, as all of them are. -/
theorem getLastD_lt_vocabSize (outputs : List UInt32) (hne : outputs ≠ [])
    (hvocab : outputs.all (· < vocabSize) = true) : outputs.getLastD 0 < vocabSize := by
  have hlast : outputs.getLastD 0 ∈ outputs := by
    rw [List.getLastD_eq_getLast?, List.getLast?_eq_some_getLast hne, Option.getD_some]
    exact List.getLast_mem hne
  exact of_decide_eq_true (List.all_eq_true.mp hvocab _ hlast)

/-- The callback goes on after each token of a span, since the output up to there begins the
    chain. -/
theorem span_goes (input outputs span : List UInt32) (capacity : Nat)
    (hgoes : ∀ count, 0 < count → count ≤ capacity →
      callback (eventsOf (chain next input count)) = true)
    (hgrown : outputs ++ span = chain next input (outputs ++ span).length)
    (hfits : outputs.length + span.length ≤ capacity) (count : Nat) (hpos : 0 < count)
    (hcount : count ≤ span.length) :
    callback (eventsOf (outputs ++ span.take count)) = true := by
  have htake : outputs ++ span.take count = chain next input (outputs.length + count) := by
    rw [← List.take_length_add_append, hgrown, take_chain]
    rw [List.length_append]
    omega
  rw [htake]
  exact hgoes _ (by omega) (by omega)

/-- The spans of a decode are served: they make up the chain and send its events. -/
theorem decodeSpans_served (hgreedy : Greedy provider next live) (input : List UInt32)
    (capacity : Nat) (hserves : Serves cfg provider next live healthy input capacity)
    (hgoes : ∀ count, 0 < count → count ≤ capacity →
      callback (eventsOf (chain next input count)) = true)
    (hfew : capacity ≤ maxOutputTokens) (prefill : PrefillReply) (fuel : Nat) (engine : Engine)
    (s : σ) (outputs : List UInt32) (session : LiveSession) (hhealthy : healthy s)
    (hlive : live s = some session) (htokens : session.tokens = input ++ outputs.dropLast)
    (hnamed : session.generation = prefill.sessionGeneration ∧
      session.promptDigest = prefill.sessionPromptDigest ∧
      session.prefixTokenCount = input.length % 2 ^ 32)
    (houtputs : outputs = chain next input outputs.length) (hne : outputs ≠ [])
    (hle : outputs.length ≤ capacity) (hfuel : capacity ≤ outputs.length + fuel)
    (hvocab : outputs.all (· < vocabSize) = true) (hactive : engine.stream.active = true)
    (hevents : engine.stream.events = eventsOf outputs) :
    (decodeSpans provider callback input prefill capacity fuel engine s outputs).1 =
        { status := .ok, outputTokens := chain next input capacity } ∧
      (decodeSpans provider callback input prefill capacity fuel engine s outputs).2.1.stream =
        { engine.stream with events := eventsOf (chain next input capacity) } := by
  induction fuel generalizing engine s outputs session with
  | zero =>
      have hdone : outputs.length = capacity := by omega
      rw [hdone] at houtputs
      rw [← houtputs, ← hevents]
      exact ⟨rfl, rfl⟩
  | succ fuel ih =>
      unfold decodeSpans
      by_cases hdone : capacity ≤ outputs.length
      · have heq : outputs.length = capacity := by omega
        rw [heq] at houtputs
        rw [if_pos hdone, ← houtputs, ← hevents]
        exact ⟨rfl, rfl⟩
      · rw [if_neg hdone]
        dsimp only
        generalize hrequest : decodeRequest engine input prefill capacity outputs = request
        have hemits : request.emits = true := by
          rw [← hrequest]
          exact hactive
        have hgeneration : request.expectedSessionGeneration = prefill.sessionGeneration := by
          rw [← hrequest]
          rfl
        have hinitial : request.initialOutputTokenId = outputs.getLastD 0 := by
          rw [← hrequest]
          rfl
        have hfirst : request.initialOutputTokenId < vocabSize := by
          rw [hinitial]
          exact getLastD_lt_vocabSize outputs hne hvocab
        have hcapacity : request.outputTokenCapacity =
            min (capacity - outputs.length) (decodeMaxOutputTokens - 1) + 1 := by
          rw [← hrequest]
          rfl
        have hdecoded : session.decodedBy request := by
          rw [← hrequest]
          exact hnamed
        have hmax : decodeMaxOutputTokens = 64 := rfl
        rcases hserves.decodeV1 s request session hhealthy hlive hdecoded hfirst (by omega)
          (by omega) with ⟨hhealthy', hok, hvalid, hemissions⟩
        rcases decodeResultValid_length request _ hvalid with ⟨hlength, hall⟩
        rcases span_greedy provider next live hgreedy s session input outputs request hlive
          htokens hne hinitial hok hlength (by omega) with ⟨htail, hafter⟩
        have hgrows : (provider.decodeV1 s request).1.outputTokens.tail.length =
            request.outputTokenCapacity - 1 := by
          rw [htail, length_chain]
        have htailVocab : (provider.decodeV1 s request).1.outputTokens.tail.all
            (· < vocabSize) = true := by
          rw [List.all_eq_true] at hall ⊢
          exact fun token htoken => hall token (List.mem_of_mem_tail htoken)
        have hgrown : outputs ++ (provider.decodeV1 s request).1.outputTokens.tail = chain next
            input (outputs ++ (provider.decodeV1 s request).1.outputTokens.tail).length := by
          rw [htail]
          exact chain_append_span next input outputs _ houtputs
        have hspan := span_goes next callback input outputs _ capacity hgoes hgrown
          (by rw [hgrows]; omega)
        have hstream := decodeEmissions_sent callback prefill.sessionGeneration
          (outputs.length - 1) 1 _ outputs engine.stream hactive hevents
          (Nat.sub_add_cancel (List.length_pos_of_ne_nil hne)) Nat.one_pos
          (by rw [hgrows]; omega) htailVocab hspan
        -- The span passes its checks, and the next begins where it ends.
        rw [hemits, if_pos rfl, hemissions, hemits, if_pos rfl, hgeneration, hstream, hok, hvalid]
        simp only [Bool.not_true, Bool.or_self, Bool.false_eq_true, if_false]
        exact ih _ _ _ _ hhealthy' hafter rfl hnamed hgrown
          (List.append_ne_nil_of_left_ne_nil hne _)
          (by rw [List.length_append, hgrows]; omega)
          (by rw [List.length_append, hgrows]; omega)
          (by rw [List.all_append, hvocab, htailVocab, Bool.and_self]) hactive rfl

/-- What follows the prefill of a stream is served. -/
theorem finishRequest_served (hgreedy : Greedy provider next live) (input : List UInt32)
    (capacity : Nat) (hserves : Serves cfg provider next live healthy input capacity)
    (hgoes : ∀ count, 0 < count → count ≤ capacity →
      callback (eventsOf (chain next input count)) = true)
    (hpos : 0 < capacity) (hfew : capacity ≤ maxOutputTokens) (engine : Engine) (s : σ)
    (request : PrefillRequest) (reply : PrefillReply) (session : LiveSession)
    (hhealthy : healthy s) (hlive : live s = some session) (htokens : session.tokens = input)
    (hnamed : session.generation = reply.sessionGeneration ∧
      session.promptDigest = reply.sessionPromptDigest ∧
      session.prefixTokenCount = input.length % 2 ^ 32)
    (hfirst : reply.outputTokens.take 1 = [next input]) (hvocab : next input < vocabSize)
    (hretains : retainsSession input reply = true) (hactive : engine.stream.active = true)
    (hearly : request.emits = true → engine.stream.events = eventsOf [next input])
    (hlate : request.emits = false → engine.stream.events = []) :
    (finishRequest provider Host.sound callback engine s input capacity request reply).1 =
        { status := .ok, outputTokens := chain next input capacity } ∧
      (finishRequest provider Host.sound callback engine s input capacity request
        reply).2.1.stream =
        { engine.stream with events := eventsOf (chain next input capacity) } := by
  have hhead : reply.outputTokens.headD 0 = next input := by
    cases houtputs : reply.outputTokens with
    | nil =>
        rw [houtputs] at hfirst
        exact absurd hfirst (List.cons_ne_nil _ _).symm
    | cons token tokens =>
        rw [houtputs] at hfirst
        exact (List.cons.inj hfirst).1
  -- Sent early or sent now, the first event is the same.
  have hemitted : (if request.emits = true then (true, engine.stream)
      else emit callback engine.stream .prefill 0 (reply.outputTokens.headD 0)) =
      (true, { engine.stream with events := eventsOf [next input] }) := by
    cases hemits : request.emits with
    | true => rw [if_pos rfl, ← hearly hemits]
    | false =>
        rw [if_neg Bool.false_ne_true, hhead]
        exact emit_sent callback engine.stream [] (next input) hactive (hlate hemits)
          (by decide) hvocab (hgoes 1 Nat.one_pos hpos)
  unfold finishRequest
  dsimp only
  rw [hemitted, hfirst, hretains]
  simp only [Bool.not_true, Bool.false_eq_true, if_false, Host.sound, Bool.or_self]
  by_cases hmany : capacity > 1
  · rw [if_pos hmany]
    refine decodeSpans_served cfg provider next live healthy callback hgreedy input capacity
      hserves hgoes hfew reply capacity
      { engine with stream := { engine.stream with events := eventsOf [next input] } } s
      [next input] session hhealthy hlive ?_ hnamed rfl (List.cons_ne_nil _ _) ?_ ?_ ?_ hactive rfl
    · rw [htokens, List.dropLast_singleton, List.append_nil]
    · rw [List.length_singleton]
      exact hpos
    · omega
    · rw [List.all_cons, List.all_nil, Bool.and_true]
      exact decide_eq_true hvocab
  · have hone : capacity = 1 := by omega
    rw [if_neg hmany, hone]
    exact ⟨rfl, rfl⟩

/-- The stream after the prefill of a prompt that is served has sent the first token, if that is
    sent early. -/
theorem prefill_stream (input : List UInt32) (capacity : Nat) (engine : Engine) (s : σ)
    (hbegin : engine.stream = StreamState.begin) (hvocab : next input < vocabSize)
    (hgoes : callback (eventsOf [next input]) = true)
    (hemissions : (provider.prefillV1 s (streamPrefill cfg input capacity)).1.emissions =
      if (streamPrefill cfg input capacity).emits then [next input] else []) :
    (prefill provider callback engine s (streamPrefill cfg input capacity)).2.1.stream =
      { StreamState.begin with
        events := if (streamPrefill cfg input capacity).emits then eventsOf [next input]
          else [] } := by
  unfold prefill
  dsimp only
  rw [hbegin, hemissions]
  cases (streamPrefill cfg input capacity).emits with
  | true =>
      exact congrArg Prod.snd (emit_sent callback StreamState.begin [] (next input) rfl rfl
        (by decide) hvocab hgoes)
  | false => rfl

/-- An ordinary request on an engine that was just loaded is served. -/
theorem requestTokens_served (hgreedy : Greedy provider next live) (input : List UInt32)
    (capacity : Nat) (hserves : Serves cfg provider next live healthy input capacity)
    (hgoes : ∀ count, 0 < count → count ≤ capacity →
      callback (eventsOf (chain next input count)) = true) (s : σ) (hhealthy : healthy s)
    (hreaches : reachesProvider cfg Host.sound input capacity = true) :
    let result := requestTokens cfg provider Host.sound callback
      { Engine.loaded with stream := StreamState.begin } s input capacity
    result.1 = { status := .ok, outputTokens := chain next input capacity } ∧
      result.2.1.stream =
        { StreamState.begin with events := eventsOf (chain next input capacity) } := by
  have hshape : 0 < capacity ∧ capacity ≤ maxOutputTokens := by
    unfold reachesProvider at hreaches
    simp only [Bool.and_eq_true] at hreaches
    exact (supportedShape_spec cfg input capacity hreaches.1.2).2.2
  rcases hserves.prefillV1 s hhealthy with
    ⟨hhealthy', hok, houtput, hretains, hemissions, hcontract⟩
  rcases hgreedy.prefillV1 s (streamPrefill cfg input capacity) hok with ⟨htoken, hsession⟩
  rcases prefillOutputContract_spec _ houtput with ⟨htake, hvocab⟩
  have hinput : (streamPrefill cfg input capacity).input = input := rfl
  rw [hinput] at htoken hsession
  rw [htoken] at htake hvocab
  have hvalid : (provider.prefillV1 s (streamPrefill cfg input capacity)).1.sessionValid = true ∧
      (provider.prefillV1 s (streamPrefill cfg input capacity)).1.sessionPrefixTokenCount =
        input.length % 2 ^ 32 := by
    have hretains' := hretains
    unfold retainsSession at hretains'
    simp only [Bool.and_eq_true, beq_iff_eq] at hretains'
    exact ⟨hretains'.1.1.1.1, hretains'.1.1.1.2⟩
  have hcases := requestTokens_cases cfg provider Host.sound callback
    { Engine.loaded with stream := StreamState.begin } s input capacity hreaches
  have hplain : prefillRequest cfg ({ Engine.loaded with stream := StreamState.begin }.fail .none)
      input capacity = streamPrefill cfg input capacity := rfl
  unfold accepted at hcases
  dsimp only at hcases ⊢
  rw [hplain] at hcases
  generalize hengine : { Engine.loaded with stream := StreamState.begin }.fail .none = engine
    at hcases
  have hstream := prefill_stream cfg provider next callback input capacity engine s
    (by rw [← hengine]; rfl) hvocab (hgoes 1 Nat.one_pos hshape.1) hemissions
  have hreply : (prefill provider callback engine s (streamPrefill cfg input capacity)).1 =
      (provider.prefillV1 s (streamPrefill cfg input capacity)).1 := rfl
  have hstate : (prefill provider callback engine s (streamPrefill cfg input capacity)).2.2 =
      (provider.prefillV1 s (streamPrefill cfg input capacity)).2 := rfl
  generalize (prefill provider callback engine s (streamPrefill cfg input capacity)).2.1 = prefilled
    at hcases hstream
  -- The contract compares the token reported with the one sent early.
  have hchecked : prefillContract cfg prefilled.stream (streamPrefill cfg input capacity)
      (provider.prefillV1 s (streamPrefill cfg input capacity)).1 = true := by
    refine hcontract _ fun hemits => ?_
    rw [hstream, if_pos hemits]
    exact map_tokenId_eventsFrom 0 [next input]
  rw [hreply, hstate, hok, hchecked, houtput] at hcases
  rcases hcases with ⟨-, hresult⟩ | ⟨hrejected, -⟩
  · rw [hresult]
    have hserved := finishRequest_served cfg provider next live healthy callback hgreedy input
      capacity hserves hgoes hshape.1 hshape.2
      { prefilled with
        identity := prefilled.identity.record Host.sound.tokenCopyGrows input
          (provider.prefillV1 s (streamPrefill cfg input capacity)).1 }
      _ (streamPrefill cfg input capacity) _ _ hhealthy' (hsession hvalid.1) rfl
      ⟨rfl, rfl, hvalid.2⟩ htake hvocab hretains (by rw [hstream]; rfl)
      (fun hemits => by rw [hstream, if_pos hemits])
      (fun hemits => by rw [hstream, if_neg (Bool.eq_false_iff.mp hemits)])
    refine ⟨hserved.1, hserved.2.trans ?_⟩
    rw [hstream]
  · exact Bool.noConfusion hrejected

/-- So is its stream. -/
theorem requestTokensStreamV1_served (hgreedy : Greedy provider next live) (input : List UInt32)
    (capacity : Nat) (hserves : Serves cfg provider next live healthy input capacity)
    (hgoes : ∀ count, 0 < count → count ≤ capacity →
      callback (eventsOf (chain next input count)) = true) (s : σ) (hhealthy : healthy s)
    (hreaches : reachesProvider cfg Host.sound input capacity = true) :
    let result := requestTokensStreamV1 cfg provider Host.sound callback Engine.loaded s input
      capacity
    result.1 = { status := .ok, outputTokens := chain next input capacity } ∧
      result.2.1.stream.events = eventsOf (chain next input capacity) := by
  have hadmitted : streamAdmitted Engine.loaded input capacity = true := by
    unfold reachesProvider at hreaches
    simp only [Bool.and_eq_true] at hreaches
    rcases supportedShape_spec cfg input capacity hreaches.1.2 with ⟨hinput, -, hpos, hfew⟩
    unfold streamAdmitted
    simp only [Bool.and_eq_true, bne_iff_ne, decide_eq_true_eq]
    exact ⟨⟨⟨hinput, by omega⟩, hfew⟩, rfl⟩
  rcases requestTokens_served cfg provider next live healthy callback hgreedy input capacity
    hserves hgoes s hhealthy hreaches with ⟨houtcome, hstream⟩
  dsimp only
  rw [requestTokensStreamV1_eq, if_pos hadmitted]
  generalize requestTokens cfg provider Host.sound callback
    { Engine.loaded with stream := StreamState.begin } s input capacity = result
    at houtcome hstream ⊢
  have hcomplete : { result.2.1.stream with active := false }.complete
      result.1.outputTokens = true := by
    rw [houtcome, hstream]
    unfold StreamState.complete
    dsimp only [StreamState.begin]
    rw [eventsOf, map_tokenId_eventsFrom, beq_self_eq_true]
    rfl
  unfold closeStream
  dsimp only
  rw [hcomplete, if_neg fun h => Bool.noConfusion h.2]
  exact ⟨houtcome, by rw [hstream]⟩

end Served

/-! ## Every route answers with the chain -/

/-- A stream that succeeds ends as its request has. -/
theorem closeStream_of_ok {σ : Type} (stage : FailureStage) (result : Outcome × Engine × σ)
    (hok : (closeStream stage result).1.status = .ok) :
    (closeStream stage result).1 = result.1 ∧
      (closeStream stage result).2.1.stream.events = result.2.1.stream.events := by
  rw [closeStream_ok_iff] at hok
  have hcomplete : { result.2.1.stream with active := false }.complete result.1.outputTokens =
      true := hok.2
  unfold closeStream
  dsimp only
  rw [hcomplete, if_neg fun h => Bool.noConfusion h.2]
  exact ⟨rfl, rfl⟩

/-- The report changes neither the output nor the events, and not an error into a success. -/
theorem reported_spec (request : Request) (status : Status) (outputTokens : List UInt32)
    (events : List StreamEvent) (engine : Engine) :
    (reported request status outputTokens events engine).outputTokens = outputTokens ∧
      (reported request status outputTokens events engine).events = events ∧
      ((reported request status outputTokens events engine).status = .ok → status = .ok) := by
  unfold reported
  split_ifs with halloc hok
  · exact ⟨rfl, rfl, fun _ => hok⟩
  · exact ⟨rfl, rfl, id⟩
  · exact ⟨rfl, rfl, id⟩

/-- The response is the chain of the prompt, and the callback has gone on after each token. -/
structure Answers (next : List UInt32 → UInt32) (request : Request) (response : Response) :
    Prop where
  outputTokens : response.outputTokens = chain next request.input request.capacity
  events : response.events = eventsOf (chain next request.input request.capacity)
  wentOn : ∀ count, 0 < count → count ≤ request.capacity →
    request.callback (eventsOf (chain next request.input count)) = true
  few : request.capacity ≤ maxOutputTokens

section Routes

variable {σ : Type} (cfg : Config) (provider : Provider σ) (next : List UInt32 → UInt32)
  (live : σ → Option LiveSession)

/-- A stream whose request answers with the chain has sent its events. -/
theorem closeStream_sent (stage : FailureStage) (callback : Callback)
    (result : Outcome × Engine × σ) (input : List UInt32) (capacity : Nat)
    (hordered : Ordered callback result.2.1.stream)
    (hchain : result.1.status = .ok → result.1.outputTokens = chain next input capacity)
    (hok : (closeStream stage result).1.status = .ok) :
    (closeStream stage result).1.outputTokens = chain next input capacity ∧
      (closeStream stage result).2.1.stream.events = eventsOf (chain next input capacity) ∧
      ∀ count, 0 < count → count ≤ capacity →
        callback (eventsOf (chain next input count)) = true := by
  rcases closeStream_of_ok stage result hok with ⟨houtcome, hevents⟩
  rcases (closeStream_ok_iff stage result).mp hok with ⟨hstatus, hcomplete⟩
  rcases complete_spec callback _ _ hordered hcomplete with ⟨hsent, hwentOn⟩
  rw [hchain hstatus] at hsent hwentOn
  rw [houtcome, hevents]
  refine ⟨hchain hstatus, hsent, ?_⟩
  intro count hpos hle
  rw [← take_chain next input count capacity hle]
  exact hwentOn count hpos (by rw [length_chain]; exact hle)

/-- A stream that succeeds answers with the chain and has sent its events. -/
theorem requestTokensStreamV1_answers (hgreedy : Greedy provider next live)
    (hrequested : cfg.providerRequested = true) (host : Host) (callback : Callback)
    (engine : Engine) (s : σ) (input : List UInt32) (capacity : Nat)
    (hok : (requestTokensStreamV1 cfg provider host callback engine s input
      capacity).1.status = .ok) :
    (requestTokensStreamV1 cfg provider host callback engine s input capacity).1.outputTokens =
        chain next input capacity ∧
      (requestTokensStreamV1 cfg provider host callback engine s input
        capacity).2.1.stream.events = eventsOf (chain next input capacity) ∧
      (∀ count, 0 < count → count ≤ capacity →
        callback (eventsOf (chain next input count)) = true) ∧
      capacity ≤ maxOutputTokens := by
  rw [requestTokensStreamV1_eq] at hok ⊢
  by_cases hadmitted : streamAdmitted engine input capacity = true
  · rw [if_pos hadmitted] at hok ⊢
    rcases closeStream_sent next _ callback _ input capacity
      (requestTokens_ordered cfg provider host callback
        { engine with stream := StreamState.begin } s input capacity (ordered_begin callback))
      (requestTokens_greedy cfg provider next live host callback hgreedy hrequested
        { engine with stream := StreamState.begin } s input capacity) hok with
      ⟨houtputs, hevents, hwentOn⟩
    unfold streamAdmitted at hadmitted
    simp only [Bool.and_eq_true, decide_eq_true_eq] at hadmitted
    exact ⟨houtputs, hevents, hwentOn, hadmitted.1.2⟩
  · rw [if_neg hadmitted] at hok
    exact Status.noConfusion hok

/-- So does a stream over a prefix. -/
theorem prefixStreamV1_answers (hgreedy : Greedy provider next live) (host : Host)
    (callback : Callback) (engine : Engine) (s : σ) (input : List UInt32)
    (prefixCount capacity : Nat)
    (hok : (prefixStreamV1 cfg provider host callback engine s input prefixCount
      capacity).1.status = .ok) :
    (prefixStreamV1 cfg provider host callback engine s input prefixCount
        capacity).1.outputTokens = chain next input capacity ∧
      (prefixStreamV1 cfg provider host callback engine s input prefixCount
        capacity).2.1.stream.events = eventsOf (chain next input capacity) ∧
      (∀ count, 0 < count → count ≤ capacity →
        callback (eventsOf (chain next input count)) = true) ∧
      capacity ≤ maxOutputTokens := by
  unfold prefixStreamV1 at hok ⊢
  by_cases hactive : engine.stream.active = true
  · rw [if_pos hactive] at hok
    exact Status.noConfusion hok
  · rw [if_neg hactive] at hok ⊢
    rcases closeStream_sent next _ callback _ input capacity
      (prefixV1_ordered cfg provider host callback true
        { engine with stream := StreamState.begin } s input prefixCount capacity
        (ordered_begin callback))
      (prefixV1_greedy cfg provider next live host callback hgreedy true
        { engine with stream := StreamState.begin } s input prefixCount capacity) hok with
      ⟨houtputs, hevents, hwentOn⟩
    refine ⟨houtputs, hevents, hwentOn, ?_⟩
    -- The bound on the capacity is part of the shape that the core has checked.
    have hcontinued := ((closeStream_ok_iff _ _).mp hok).1
    cases hshape : prefixShape input prefixCount capacity with
    | false =>
        unfold prefixV1 at hcontinued
        rw [hshape] at hcontinued
        exact Status.noConfusion hcontinued
    | true =>
        unfold prefixShape at hshape
        simp only [Bool.and_eq_true, decide_eq_true_eq] at hshape
        exact hshape.1.2

/-- The ordinary route answers with the chain. -/
theorem plainRoute_answers (hgreedy : Greedy provider next live)
    (hrequested : cfg.providerRequested = true) (request : Request) (state : BridgeState σ)
    (hok : (plainRoute cfg provider request state).1.status = .ok) :
    Answers next request (plainRoute cfg provider request state).1 := by
  unfold plainRoute at hok ⊢
  dsimp only at hok ⊢
  have hstatus := (reported_spec request _ _ _ _).2.2 hok
  rcases requestTokensStreamV1_answers cfg provider next live hgreedy hrequested
    request.host.core request.callback state.engine state.provider request.input request.capacity
    hstatus with ⟨houtputs, hevents, hwentOn, hfew⟩
  rw [if_pos hstatus, if_neg (by rw [hstatus]; exact Status.noConfusion)]
  refine ⟨?_, ?_, hwentOn, hfew⟩
  · rw [(reported_spec request _ _ _ _).1, houtputs]
  · rw [(reported_spec request _ _ _ _).2.1, hevents]

/-- Continuing a prefix answers with the chain. -/
theorem prefixRoute_answers (hgreedy : Greedy provider next live) (request : Request)
    (state : BridgeState σ) (prefixCount : Nat)
    (hok : (prefixRoute cfg provider request state prefixCount).1.status = .ok) :
    Answers next request (prefixRoute cfg provider request state prefixCount).1 := by
  unfold prefixRoute at hok ⊢
  cases halloc : request.host.prefixResultAllocates with
  | false =>
      rw [halloc] at hok
      exact Status.noConfusion hok
  | true =>
      rw [halloc] at hok
      rw [Bool.not_true, if_neg Bool.false_ne_true] at hok ⊢
      dsimp only at hok ⊢
      by_cases hstatus : (prefixStreamV1 cfg provider request.host.core request.callback
          state.engine state.provider request.input prefixCount request.capacity).1.status = .ok
      · rcases prefixStreamV1_answers cfg provider next live hgreedy request.host.core
          request.callback state.engine state.provider request.input prefixCount request.capacity
          hstatus with ⟨houtputs, hevents, hwentOn, hfew⟩
        rw [if_pos hstatus, if_neg (by rw [hstatus]; exact Status.noConfusion)]
        refine ⟨?_, ?_, hwentOn, hfew⟩
        · rw [(reported_spec request _ _ _ _).1, houtputs]
        · rw [(reported_spec request _ _ _ _).2.1, hevents]
      · rw [if_neg hstatus] at hok
        exact absurd ((reported_spec request _ _ _ _).2.2 hok) hstatus

/-- So does continuing a seed. -/
theorem seedRoute_answers (hgreedy : Greedy provider next live) (request : Request)
    (state : BridgeState σ) (prefixCount : Nat)
    (hok : (seedRoute cfg provider request state prefixCount).1.status = .ok) :
    Answers next request (seedRoute cfg provider request state prefixCount).1 := by
  unfold seedRoute at hok ⊢
  dsimp only at hok ⊢
  generalize requestTokens cfg provider request.host.core request.callback state.engine
    state.provider (request.input.take prefixCount) 1 = seed at hok ⊢
  generalize (if seed.1.status = .ok ∧ seed.1.outputTokens.length = 1 ∧
      seed.1.outputTokens.headD vocabSize < vocabSize then
    storeTokens state.residentPrefix request.host.residentGrows (request.input.take prefixCount)
    else none) = stored at hok ⊢
  cases stored with
  -- A seed that fails has no success to report.
  | none =>
      by_cases hseed : seed.1.status = .ok
      · simp only [hseed, if_true] at hok
        exact Status.noConfusion hok
      · simp only [hseed, if_false] at hok
  | some residentPrefix =>
      exact prefixRoute_answers cfg provider next live hgreedy request _ prefixCount hok

/-- A request that succeeds answers with the chain of its prompt, unless it takes the exact
    route. -/
theorem generate_answers (hgreedy : Greedy provider next live)
    (hrequested : cfg.providerRequested = true) (request : Request) (state : BridgeState σ)
    (hexact : takesExactRoute request = false)
    (hok : (generate cfg provider request state).1.status = .ok) :
    Answers next request (generate cfg provider request state).1 := by
  unfold generate at hok ⊢
  by_cases hargs : request.input = [] ∨ request.capacity = 0
  · rw [if_pos hargs] at hok
    exact Status.noConfusion hok
  · rw [if_neg hargs, hexact, if_neg Bool.false_ne_true] at hok ⊢
    cases hroute : selectRoute request state with
    | plain =>
        rw [hroute] at hok
        exact plainRoute_answers cfg provider next live hgreedy hrequested request state hok
    | hit prefixCount =>
        rw [hroute] at hok
        exact prefixRoute_answers cfg provider next live hgreedy request state prefixCount hok
    | seed prefixCount =>
        rw [hroute] at hok
        exact seedRoute_answers cfg provider next live hgreedy request state prefixCount hok

end Routes

/-! ## The cache does not show -/

/-- The same request with the cache switched off, on a system where nothing fails. -/
def Request.uncached (request : Request) : Request :=
  { request with
    settings := { request.settings with prefixCache := false }
    host := BridgeHost.sound request.host.exactFirstToken }

/-- How the bridge loads an engine: ready, for the provider and for prompts of any kind, and with
    a context that the model has. -/
structure BridgeConfig (cfg : Config) : Prop where
  ready : cfg.ready = true
  providerRequested : cfg.providerRequested = true
  arbitraryContext : cfg.arbitraryContext = true
  contextTokens : cfg.contextTokens ≤ maxPositionEmbeddings

/-- On the exact route the two differ in what can be allocated only, and what was needed was. -/
theorem exactFirst_uncached (request : Request) (exact : List UInt32 → ExactReply)
    (hok : (exactFirst request exact).status = .ok) :
    exactFirst request.uncached exact = exactFirst request exact := by
  have hsettings : request.uncached.settings.exactLetterClassifier =
      request.settings.exactLetterClassifier := rfl
  have hallocates : request.uncached.host.continuationAllocates = true := rfl
  have hinput : request.uncached.input = request.input := rfl
  have hcapacity : request.uncached.capacity = request.capacity := rfl
  have hcallback : request.uncached.callback = request.callback := rfl
  unfold exactFirst at hok ⊢
  rw [hsettings, hallocates, hinput, hcapacity, hcallback]
  dsimp only at hok ⊢
  -- The guards of the two are the same but for the allocation.
  split_ifs at hok ⊢
  all_goals first
    | rfl
    | exact Status.noConfusion hok
    | simp_all only [Bool.not_true, Bool.false_eq_true]

theorem exactRoute_uncached (request : Request) (hok : (exactRoute request).status = .ok) :
    exactRoute request.uncached = exactRoute request := by
  have hentry : request.uncached.host.exactFirstToken = request.host.exactFirstToken := rfl
  have hinput : request.uncached.input = request.input := rfl
  unfold exactRoute at hok ⊢
  rw [hentry, hinput]
  cases hexact : request.host.exactFirstToken with
  | none => rfl
  | some exact =>
      rw [hexact] at hok
      dsimp only at hok ⊢
      by_cases hdigest : digest request.input = 0
      · rw [if_pos hdigest] at hok
        exact Status.noConfusion hok
      · rw [if_neg hdigest] at hok ⊢
        rw [if_neg hdigest]
        exact exactFirst_uncached request exact hok

section Transparency

variable {σ : Type} (cfg : Config) (provider : Provider σ) (next : List UInt32 → UInt32)
  (live : σ → Option LiveSession) (healthy : σ → Prop)

/-- The engine takes the prompt without a cache: on the exact route it is not asked, and else the
    prompt has a known answer or is within the context. -/
def Admitted (request : Request) : Prop :=
  takesExactRoute request = true ∨ (probeOf cfg request.input).isSome = true ∨
    request.input.length ≤ cfg.contextTokens

/-- Which prompts an engine takes that the bridge has loaded. -/
theorem reachesProvider_iff_of_bridgeConfig (hcfg : BridgeConfig cfg) (input : List UInt32)
    (capacity : Nat) (hne : input ≠ []) (hpos : 0 < capacity) (hfew : capacity ≤ maxOutputTokens) :
    reachesProvider cfg Host.sound input capacity = true ↔
      (probeOf cfg input).isSome = true ∨ input.length ≤ cfg.contextTokens := by
  have hshape : supportedShape cfg input capacity = true ↔
      (probeOf cfg input).isSome = true ∨ input.length ≤ cfg.contextTokens := by
    have hlength := List.length_pos_of_ne_nil hne
    have hmodel := hcfg.contextTokens
    unfold supportedShape arbitraryPrefill
    cases hprobe : probeOf cfg input with
    | some probe =>
        simp only [Option.isSome_some, Bool.true_or, Bool.true_and, Bool.and_eq_true,
          decide_eq_true_eq, true_or, iff_true]
        exact ⟨by omega, hfew⟩
    | none =>
        simp only [Option.isSome_none, Option.isNone_none, Bool.false_or, hcfg.arbitraryContext,
          Bool.and_self, Bool.true_and, Bool.and_eq_true, decide_eq_true_eq, Bool.false_eq_true,
          false_or]
        constructor
        · exact fun h => h.1.1.1.2
        · exact fun h => ⟨⟨⟨⟨hlength, h⟩, by omega⟩, by omega⟩, hfew⟩
  rw [← hshape]
  unfold reachesProvider
  rw [hcfg.ready, hcfg.providerRequested, Bool.and_self, Bool.true_and]
  exact iff_of_eq (congrArg (· = true) (Bool.and_true _))

/-- A prompt that an engine does not take is refused with no output. -/
theorem plainRoute_refused (hrequested : cfg.providerRequested = true) (request : Request)
    (state : BridgeState σ)
    (hnot : reachesProvider cfg request.host.core request.input request.capacity = false) :
    (plainRoute cfg provider request state).1.status ≠ .ok ∧
      (plainRoute cfg provider request state).1.outputTokens = [] := by
  have hanswer : ∃ status, status ≠ .ok ∧ (plainAnswer cfg provider request state).1 =
      .failed status := by
    unfold plainAnswer
    rw [requestTokensStreamV1_eq]
    by_cases hadmitted : streamAdmitted state.engine request.input request.capacity = true
    · rw [if_pos hadmitted]
      rcases requestTokens_of_not_reaches cfg provider request.host.core request.callback
        { state.engine with stream := StreamState.begin } state.provider request.input
        request.capacity hnot with ⟨status, stage, hstatus, hresult⟩ | ⟨hnone, -⟩
      · refine ⟨status, hstatus, ?_⟩
        unfold closeStream
        dsimp only
        rw [hresult, if_neg fun h => hstatus h.1]
      · exact Bool.noConfusion (hrequested.symm.trans hnone)
    · rw [if_neg hadmitted]
      exact ⟨.invalidArgument, Status.noConfusion, rfl⟩
  rcases hanswer with ⟨status, hstatus, houtcome⟩
  unfold plainAnswer at houtcome
  unfold plainRoute
  dsimp only
  rw [houtcome]
  exact ⟨fun h => hstatus ((reported_spec request _ _ _ _).2.2 h),
    (reported_spec request _ _ _ _).1⟩

/-- An ordinary request that was served is reported so where nothing fails. -/
theorem plainRoute_uncached (request : Request) (fresh : σ) (outputTokens : List UInt32)
    (houtcome : (requestTokensStreamV1 cfg provider Host.sound request.callback Engine.loaded fresh
      request.input request.capacity).1 = { status := .ok, outputTokens := outputTokens })
    (hevents : (requestTokensStreamV1 cfg provider Host.sound request.callback Engine.loaded fresh
      request.input request.capacity).2.1.stream.events = eventsOf outputTokens) :
    let response := (plainRoute cfg provider request.uncached (BridgeState.loaded fresh)).1
    response.status = .ok ∧ outputTokens = response.outputTokens ∧
      eventsOf outputTokens = response.events := by
  have hanswer : requestTokensStreamV1 cfg provider request.uncached.host.core
      request.uncached.callback (BridgeState.loaded fresh).engine
      (BridgeState.loaded fresh).provider request.uncached.input request.uncached.capacity =
      requestTokensStreamV1 cfg provider Host.sound request.callback Engine.loaded fresh
        request.input request.capacity := rfl
  have hreport : request.uncached.host.reportAllocates = true := rfl
  unfold plainRoute reported
  dsimp only
  rw [hanswer, hreport, houtcome]
  simp only [Bool.not_true, Bool.false_eq_true, if_false, if_true, reduceCtorEq, hevents,
    and_self]

/-- Whatever the requests before have left behind, a request that succeeds has the output and the
    events of the same request on an engine that was just loaded, with the cache switched off,
    exactly if that engine takes the prompt. The route over a prefix does not look at the context,
    and the ordinary one does. -/
theorem generate_transparent_iff (hcfg : BridgeConfig cfg) (hgreedy : Greedy provider next live)
    (request : Request)
    (hserves : Serves cfg provider next live healthy request.input request.capacity)
    (state : BridgeState σ) (fresh : σ) (hhealthy : healthy fresh)
    (hok : (generate cfg provider request state).1.status = .ok) :
    let cached := generate cfg provider request state
    let uncached := generate cfg provider request.uncached (BridgeState.loaded fresh)
    (uncached.1.status = .ok ↔ Admitted cfg request) ∧
      (cached.1.outputTokens = uncached.1.outputTokens ∧ cached.1.events = uncached.1.events ↔
        Admitted cfg request) := by
  have hargs : ¬(request.input = [] ∨ request.capacity = 0) := by
    intro hargs
    unfold generate at hok
    rw [if_pos hargs] at hok
    exact Status.noConfusion hok
  have hargs' : ¬(request.uncached.input = [] ∨ request.uncached.capacity = 0) := hargs
  have hroute : takesExactRoute request.uncached = takesExactRoute request := rfl
  dsimp only
  cases hexact : takesExactRoute request with
  -- The exact route reads nothing that a request before could have left.
  | true =>
      have hadmitted : Admitted cfg request := Or.inl hexact
      unfold generate at hok ⊢
      rw [if_neg hargs, hexact, if_pos rfl] at hok
      rw [if_neg hargs, if_neg hargs', hroute, hexact, if_pos rfl]
      dsimp only
      rw [if_pos rfl]
      have hsame := exactRoute_uncached request hok
      dsimp only
      rw [hsame]
      exact ⟨iff_of_true hok hadmitted, iff_of_true ⟨rfl, rfl⟩ hadmitted⟩
  | false =>
      have hanswers := generate_answers cfg provider next live hgreedy hcfg.providerRequested
        request state hexact hok
      rw [not_or] at hargs
      have hpos := Nat.pos_of_ne_zero hargs.2
      have hplain : selectRoute request.uncached (BridgeState.loaded fresh) = .plain := by
        unfold selectRoute
        rw [if_neg fun h => Bool.false_ne_true h.1]
      have huncached : generate cfg provider request.uncached (BridgeState.loaded fresh) =
          plainRoute cfg provider request.uncached (BridgeState.loaded fresh) := by
        unfold generate
        rw [if_neg hargs', hroute, hexact, if_neg Bool.false_ne_true, hplain]
      have hreaches := reachesProvider_iff_of_bridgeConfig cfg hcfg request.input request.capacity
        hargs.1 hpos hanswers.few
      have hadmitted : Admitted cfg request ↔
          reachesProvider cfg Host.sound request.input request.capacity = true := by
        rw [hreaches, Admitted, hexact]
        exact or_iff_right Bool.false_ne_true
      rw [hadmitted, huncached]
      cases hcalls : reachesProvider cfg Host.sound request.input request.capacity with
      -- Both answers are the chain of the prompt: the cached one because it has succeeded, the
      -- other because it is served.
      | true =>
          rcases requestTokensStreamV1_served cfg provider next live healthy request.callback
            hgreedy request.input request.capacity hserves hanswers.wentOn fresh hhealthy
            hcalls with ⟨houtcome, hevents⟩
          rcases plainRoute_uncached cfg provider request fresh _ houtcome hevents with
            ⟨hstatus, houtputs, hsent⟩
          refine ⟨iff_of_true hstatus rfl, iff_of_true ⟨?_, ?_⟩ rfl⟩
          · exact hanswers.outputTokens.trans houtputs
          · exact hanswers.events.trans hsent
      -- The engine refuses the prompt, and the chain is not empty.
      | false =>
          rcases plainRoute_refused cfg provider hcfg.providerRequested request.uncached
            (BridgeState.loaded fresh) hcalls with ⟨hstatus, houtputs⟩
          refine ⟨iff_of_false hstatus Bool.false_ne_true, iff_of_false ?_ Bool.false_ne_true⟩
          rintro ⟨hsame, -⟩
          have hlength := congrArg List.length (hanswers.outputTokens.symm.trans
            (hsame.trans houtputs))
          rw [length_chain, List.length_nil] at hlength
          omega

end Transparency

/-- A request that continues what the one before has cached, and the same request with the cache
    switched off. -/
theorem cachedRequest_transparent :
    let provider := ideal fun _ => 7
    let request := { oneTokenRequest goesOn [1, 2, 3] with capacity := 3 }
    let state := (generate smallConfig provider (oneTokenRequest goesOn [1, 2])
      (BridgeState.loaded none)).2
    selectRoute request state = .hit 1 ∧
      (generate smallConfig provider request state).1.outputTokens = [7, 7, 7] ∧
      (generate smallConfig provider request state).1.events =
        (generate smallConfig provider request.uncached (BridgeState.loaded none)).1.events := by
  intro provider request state
  have hvocab : (7 : UInt32) < vocabSize := by decide
  have hserves := Resident.ideal_serves (fun _ => 7) smallConfig request.input request.capacity
    (fun _ => hvocab) (by decide +kernel) (by decide)
  have h := generate_transparent_iff smallConfig provider (fun _ => 7) id (fun _ => True)
    ⟨rfl, rfl, rfl, by decide⟩ (Resident.ideal_greedy _) request hserves state none
    trivial (by decide +kernel)
  exact ⟨by decide +kernel, by decide +kernel, (h.2.mpr (Or.inr (Or.inr (by decide)))).2⟩

/-- A prompt of five tokens on an engine with a context of four: over the first two of them,
    which are cached, it is answered, and on an engine without a cache it is refused. The provider
    is greedy and serves it. -/
theorem longRequest_shows :
    let provider := ideal fun _ => 7
    let request := oneTokenRequest goesOn [1, 2, 3, 4, 5]
    Greedy provider (fun _ => 7) id ∧
    Serves smallConfig provider (fun _ => 7) id (fun _ => True) request.input request.capacity ∧
    ∃ state, Run.Reachable (step smallConfig provider) Run.anyStep
        (fun start => ∃ s, start = BridgeState.loaded s) state ∧
      selectRoute request state = .hit 2 ∧
      (generate smallConfig provider request state).1.status = .ok ∧
      (generate smallConfig provider request state).1.outputTokens = [7] ∧
      (generate smallConfig provider request.uncached (BridgeState.loaded none)).1.status =
        .unsupported ∧
      (generate smallConfig provider request.uncached
        (BridgeState.loaded none)).1.outputTokens = [] := by
  refine ⟨Resident.ideal_greedy _, Resident.ideal_serves _ smallConfig _ _ (fun _ => by decide)
    (by decide +kernel) (by decide), _, ⟨BridgeState.loaded none, ⟨_, rfl⟩,
      .tail _ _ (oneTokenRequest goesOn [1, 2, 3]) .refl trivial rfl⟩, ?_, ?_, ?_, ?_, ?_⟩
  · decide +kernel
  · decide +kernel
  · decide +kernel
  · decide +kernel
  · decide +kernel

end Bridge

end QrtEngine
