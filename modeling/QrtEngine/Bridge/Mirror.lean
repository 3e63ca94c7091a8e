import QrtEngine.Bridge.Request
import QrtEngine.Core.IdentityRecord

/-!
# The Bridge's Copy of the Cached Prefix

The bridge picks the route of a request by its own copy of the tokens that the core has cached.
The copy and the core's record agree after every request of a run whose requests keep to a
condition.

The core clears its record before it calls the provider, and the bridge changes its copy only
when the request has succeeded. The route that continues a prefix makes up for this: it forgets
the copy when it fails. The ordinary route does not. If such a request gets as far as the provider
and fails, or is cancelled by the callback, or its own copy cannot be allocated, then the old copy
stays and the core's record is gone or is that of the new prompt. The next request that begins
with the old copy is sent to the core and fails there.

## Main definitions

* `requestAnswered`: The provider and the callback let an ordinary request through.
* `Mirrors`: The copy is what the core has recorded.
* `PlainSafe`, `SeedSafe`, `Safe`: The condition on a request.

## Theorems

* `plainAnswer_ok_iff`: When the ordinary route succeeds.
* `requestTokensStreamV1_identity`: What the ordinary route does to the record.
* `plainRoute_mirrors`, `prefixRoute_mirrors`, `seedRoute_mirrors`: What each route preserves.
* `generate_mirrors`: One request keeps the copy right.
* `generate_unmissed`: One request does not fail at the record.
* `reachable_mirrors`: The copy is right in every run, and no request fails at the record.
* `mirroredRequest_mirrors`: A run it holds in.
* `cancelledRequest_stale`: A run that breaks it.
-/

namespace QrtEngine

namespace Bridge

open QrtEngine.Core

/-- A copy that was stored is read back. -/
theorem storeTokens_spec (store stored : Store UInt32) (grows : Bool) (source : List UInt32)
    (h : storeTokens store grows source = some stored) :
    stored.contents = source ∧ stored.count = source.length := by
  unfold storeTokens at h
  by_cases hsource : source = []
  · rw [if_pos hsource] at h
    exact absurd h (Option.some_ne_none stored).symm
  · rw [if_neg hsource] at h
    exact Store.contents_put store stored grows source h

section Routes

variable {σ : Type} (cfg : Config) (provider : Provider σ)

/-! ## The ordinary route -/

/-- The provider answers the decode calls of a continuation as the core asks, and in the end the
    events sent are the output. -/
def spansAnswered (callback : Callback) (input : List UInt32) (prefill : PrefillReply)
    (capacity : Nat) : Nat → Engine → σ → List UInt32 → Bool
  | 0, engine, _, outputs => engine.stream.complete outputs
  | fuel + 1, engine, s, outputs =>
      if capacity ≤ outputs.length then engine.stream.complete outputs
      else
        let request := decodeRequest engine input prefill capacity outputs
        let result := provider.decodeV1 s request
        let stream :=
          if request.emits then
            result.1.emissions.foldl
              (decodeEmission callback prefill.sessionGeneration (outputs.length - 1))
              engine.stream
          else engine.stream
        result.1.ok && decodeResultValid request result.1 &&
          spansAnswered callback input prefill capacity fuel { engine with stream := stream }
            result.2 (outputs ++ result.1.outputTokens.tail)

/-- What follows a prefill is answered: the callback takes the first token, and the others are
    decoded. -/
def restAnswered (host : Host) (callback : Callback) (engine : Engine) (s : σ)
    (input : List UInt32) (capacity : Nat) (request : PrefillRequest) (reply : PrefillReply) :
    Bool :=
  let emitted :=
    if request.emits then (true, engine.stream)
    else emit callback engine.stream .prefill 0 (reply.outputTokens.headD 0)
  let engine := { engine with stream := emitted.2 }
  emitted.1 &&
    if capacity > 1 then
      retainsSession input reply && host.decodeExported &&
        spansAnswered provider callback input reply capacity capacity engine s
          (reply.outputTokens.take 1)
    else engine.stream.complete (reply.outputTokens.take 1)

/-- The provider answers an ordinary request in full, and the callback takes every event. -/
def requestAnswered (host : Host) (callback : Callback) (engine : Engine) (s : σ)
    (input : List UInt32) (capacity : Nat) : Bool :=
  let request := prefillRequest cfg engine input capacity
  let called := prefill provider callback engine s request
  let engine' :=
    { called.2.1 with
      identity := called.2.1.identity.record host.tokenCopyGrows input called.1 }
  accepted cfg provider callback engine s input capacity &&
    restAnswered provider host callback engine' called.2.2 input capacity request called.1

/-- A result succeeded and the events sent are its output. -/
def Delivered (result : Outcome × Engine × σ) : Prop :=
  result.1.status = .ok ∧ result.2.1.stream.complete result.1.outputTokens = true

/-- A failure delivers nothing. -/
theorem failed_delivered_iff (engine : Engine) (s : σ) :
    Delivered (Outcome.failed .unsupported, engine, s) ↔ false = true :=
  iff_of_false (fun h => Status.noConfusion h.1) Bool.false_ne_true

theorem decodeSpans_delivered_iff (callback : Callback) (input : List UInt32)
    (prefill : PrefillReply) (capacity fuel : Nat) (engine : Engine) (s : σ)
    (outputs : List UInt32) :
    Delivered (decodeSpans provider callback input prefill capacity fuel engine s outputs) ↔
      spansAnswered provider callback input prefill capacity fuel engine s outputs = true := by
  induction fuel generalizing engine s outputs with
  | zero => exact and_iff_right rfl
  | succ fuel ih =>
      unfold decodeSpans spansAnswered
      by_cases hdone : capacity ≤ outputs.length
      · rw [if_pos hdone, if_pos hdone]
        exact and_iff_right rfl
      · rw [if_neg hdone, if_neg hdone]
        dsimp only
        cases hok : (provider.decodeV1 s
            (decodeRequest engine input prefill capacity outputs)).1.ok with
        | false => exact failed_delivered_iff _ _
        | true =>
            cases hvalid : decodeResultValid (decodeRequest engine input prefill capacity outputs)
                (provider.decodeV1 s
                  (decodeRequest engine input prefill capacity outputs)).1 with
            | false => exact failed_delivered_iff _ _
            -- The span is answered, and the stream it leaves is the one of the next round.
            | true => exact ih _ _ _

theorem finishRequest_delivered_iff (host : Host) (callback : Callback) (engine : Engine) (s : σ)
    (input : List UInt32) (capacity : Nat) (request : PrefillRequest) (reply : PrefillReply) :
    Delivered (finishRequest provider host callback engine s input capacity request reply) ↔
      restAnswered provider host callback engine s input capacity request reply = true := by
  unfold finishRequest restAnswered
  dsimp only
  generalize (if request.emits then (true, engine.stream)
    else emit callback engine.stream .prefill 0 (reply.outputTokens.headD 0)) = emitted
  cases emitted.1 with
  | false => exact failed_delivered_iff _ _
  | true =>
      rw [Bool.not_true, if_neg Bool.false_ne_true, Bool.true_and]
      by_cases hmany : capacity > 1
      · rw [if_pos hmany, if_pos hmany]
        cases retainsSession input reply with
        | false => exact failed_delivered_iff _ _
        | true =>
            cases host.decodeExported with
            | false => exact failed_delivered_iff _ _
            | true => exact decodeSpans_delivered_iff provider callback _ _ _ _ _ _ _
      · rw [if_neg hmany, if_neg hmany]
        exact and_iff_right rfl

/-- A request that gets as far as the provider delivers its output exactly when it is
    answered. -/
theorem requestTokens_delivered_iff (host : Host) (callback : Callback) (engine : Engine) (s : σ)
    (input : List UInt32) (capacity : Nat)
    (hreaches : reachesProvider cfg host input capacity = true) :
    Delivered (requestTokens cfg provider host callback engine s input capacity) ↔
      requestAnswered cfg provider host callback (engine.fail .none) s input capacity = true := by
  unfold requestAnswered
  rcases requestTokens_cases cfg provider host callback engine s input capacity hreaches with
    ⟨haccepted, hresult⟩ | ⟨hrejected, stage, hresult⟩
  · rw [hresult, haccepted]
    exact finishRequest_delivered_iff provider host callback _ _ _ _ _ _
  · rw [hresult, hrejected]
    exact failed_delivered_iff _ _

/-- An ordinary request gets as far as the provider. -/
def calls (request : Request) (state : BridgeState σ) : Bool :=
  streamAdmitted state.engine request.input request.capacity &&
    reachesProvider cfg request.host.core request.input request.capacity

/-- The engine as an ordinary request finds it. -/
def begun (state : BridgeState σ) : Engine :=
  { state.engine with stream := StreamState.begin }.fail .none

/-- The provider answers an ordinary request in full, and the callback takes every event. -/
def answers (request : Request) (state : BridgeState σ) : Bool :=
  requestAnswered cfg provider request.host.core request.callback (begun state) state.provider
    request.input request.capacity

/-- The core records the prompt of an ordinary request. -/
def records (request : Request) (state : BridgeState σ) : Bool :=
  retained cfg provider request.host.core request.callback (begun state) state.provider
    request.input request.capacity

/-- The core's answer to an ordinary request. -/
def plainAnswer (request : Request) (state : BridgeState σ) : Outcome × Engine × σ :=
  requestTokensStreamV1 cfg provider request.host.core request.callback state.engine
    state.provider request.input request.capacity

/-- An ordinary request for the provider succeeds exactly when it gets there and is answered. -/
theorem plainAnswer_ok_iff (request : Request) (state : BridgeState σ)
    (hrequested : cfg.providerRequested = true) :
    (plainAnswer cfg provider request state).1.status = .ok ↔
      calls cfg request state = true ∧ answers cfg provider request state = true := by
  unfold plainAnswer calls answers begun
  rw [requestTokensStreamV1_eq]
  cases streamAdmitted state.engine request.input request.capacity with
  | false => exact iff_of_false Status.noConfusion fun h => Bool.false_ne_true h.1
  | true =>
      rw [if_pos rfl, Bool.true_and, closeStream_ok_iff]
      cases hreaches : reachesProvider cfg request.host.core request.input request.capacity with
      | false =>
          -- A request for the provider cannot succeed without it.
          refine iff_of_false (fun h => ?_) fun h => Bool.false_ne_true h.1
          exact Bool.false_ne_true (hreaches.symm.trans (reachesProvider_of_ok cfg provider _ _
            hrequested _ _ _ _ h.1))
      | true =>
          rw [eq_self_iff_true, true_and]
          exact requestTokens_delivered_iff cfg provider request.host.core request.callback
            { state.engine with stream := StreamState.begin } state.provider request.input
            request.capacity hreaches

/-- What the ordinary route does to the record. -/
theorem requestTokensStreamV1_identity (request : Request) (state : BridgeState σ) :
    (calls cfg request state = false ∧
      (plainAnswer cfg provider request state).2.1.identity = state.engine.identity) ∨
    (calls cfg request state = true ∧ records cfg provider request state = true ∧
      Recorded (plainAnswer cfg provider request state).2.1.identity request.input) ∨
    (calls cfg request state = true ∧ records cfg provider request state = false ∧
      (plainAnswer cfg provider request state).2.1.identity =
        state.engine.identity.clear false) := by
  unfold calls records begun plainAnswer
  rw [requestTokensStreamV1_eq]
  cases streamAdmitted state.engine request.input request.capacity with
  | false => exact .inl ⟨rfl, rfl⟩
  | true =>
      rw [if_pos rfl, (closeStream_state _ _).1, Bool.true_and]
      exact requestTokens_identity cfg provider request.host.core request.callback
        { state.engine with stream := StreamState.begin } state.provider request.input
        request.capacity

/-- The copy is what the core has recorded. -/
def Mirrors (state : BridgeState σ) : Prop :=
  0 < state.residentPrefix.count →
    cfg.ready = true ∧ Recorded state.engine.identity state.residentPrefix.contents

/-- The condition on an ordinary request: a prompt that is answered and copied is recorded, and
    over a copy a call of the provider is answered and its own copy made, or it records the very
    tokens of the copy. -/
structure PlainSafe (request : Request) (state : BridgeState σ) : Prop where
  stored : request.capacity = 1 →
    (storeTokens state.residentPrefix request.host.residentGrows request.input).isSome = true →
    cfg.providerRequested = true ∧ (calls cfg request state = true →
      answers cfg provider request state = true → records cfg provider request state = true)
  kept : 0 < state.residentPrefix.count → calls cfg request state = true →
    (answers cfg provider request state = true ∧ (request.capacity = 1 →
      (storeTokens state.residentPrefix request.host.residentGrows request.input).isSome = true)) ∨
    (records cfg provider request state = true ∧ request.input = state.residentPrefix.contents)

/-- A copy that stays is right if it was. -/
theorem mirrors_of_kept (request : Request) (state next : BridgeState σ)
    (hmirrors : Mirrors cfg state) (hsafe : PlainSafe cfg provider request state)
    (hengine : next.engine = (plainAnswer cfg provider request state).2.1)
    (hcopy : next.residentPrefix = state.residentPrefix)
    (hstays : calls cfg request state = true → answers cfg provider request state = true →
      request.capacity = 1 ∧
      storeTokens state.residentPrefix request.host.residentGrows request.input = none) :
    Mirrors cfg next := by
  intro hcount
  rw [hcopy] at hcount ⊢
  rw [hengine]
  rcases hmirrors hcount with ⟨hready, hrecorded⟩
  refine ⟨hready, ?_⟩
  -- The copy stays although the provider was called, so the condition leaves one way.
  have hsame : calls cfg request state = true → records cfg provider request state = true ∧
      request.input = state.residentPrefix.contents := by
    intro hcalls
    rcases hsafe.kept hcount hcalls with ⟨hanswers, hstored⟩ | hsame
    · rcases hstays hcalls hanswers with ⟨hone, hnone⟩
      rw [hnone] at hstored
      exact Bool.noConfusion (hstored hone)
    · exact hsame
  rcases requestTokensStreamV1_identity cfg provider request state with
    ⟨-, hkept⟩ | ⟨hcalls, -, hnew⟩ | ⟨hcalls, hlost, -⟩
  · rw [hkept]
    exact hrecorded
  · rw [← (hsame hcalls).2]
    exact hnew
  · exact Bool.noConfusion (hlost.symm.trans (hsame hcalls).1)

/-- A request that gets as far as the provider is for the provider, on an engine that is ready. -/
theorem calls_spec (request : Request) (state : BridgeState σ)
    (h : calls cfg request state = true) :
    cfg.ready = true ∧ cfg.providerRequested = true := by
  unfold calls reachesProvider at h
  simp only [Bool.and_eq_true] at h
  exact h.2.1.1

/-- The ordinary route keeps the copy right. -/
theorem plainRoute_mirrors (request : Request) (state : BridgeState σ)
    (hmirrors : Mirrors cfg state) (hsafe : PlainSafe cfg provider request state) :
    Mirrors cfg (plainRoute cfg provider request state).2 := by
  have hstate : (plainRoute cfg provider request state).2.engine =
      (plainAnswer cfg provider request state).2.1 := by
    unfold plainRoute plainAnswer
    dsimp only
    split_ifs <;> rfl
  by_cases hok : (plainAnswer cfg provider request state).1.status = .ok
  · by_cases hone : request.capacity = 1
    · have hcopy : (plainRoute cfg provider request state).2.residentPrefix =
          storeTokensOrKeep state.residentPrefix request.host.residentGrows request.input := by
        unfold plainAnswer at hok
        unfold plainRoute
        dsimp only
        rw [if_pos hok, if_pos hone]
      unfold storeTokensOrKeep at hcopy
      cases hstored : storeTokens state.residentPrefix request.host.residentGrows
          request.input with
      -- The copy could not be made, and the old one stays.
      | none =>
          rw [hstored] at hcopy
          exact mirrors_of_kept cfg provider request state _ hmirrors hsafe hstate hcopy
            fun _ _ => ⟨hone, hstored⟩
      | some stored =>
          -- The copy is the prompt, and so is the record.
          rw [hstored] at hcopy
          rcases hsafe.stored hone (by rw [hstored]; rfl) with ⟨hrequested, hrecords⟩
          rcases (plainAnswer_ok_iff cfg provider request state hrequested).mp hok with
            ⟨hcalls, hanswers⟩
          intro _
          rw [hcopy, hstate, Option.getD_some, (storeTokens_spec _ stored _ _ hstored).1]
          rcases requestTokensStreamV1_identity cfg provider request state with
            ⟨hnot, -⟩ | ⟨-, -, hnew⟩ | ⟨-, hlost, -⟩
          · exact Bool.noConfusion (hnot.symm.trans hcalls)
          · exact ⟨(calls_spec cfg request state hcalls).1, hnew⟩
          · exact Bool.noConfusion (hlost.symm.trans (hrecords hcalls hanswers))
    · have hcopy : (plainRoute cfg provider request state).2.residentPrefix =
          state.residentPrefix.clear := by
        unfold plainAnswer at hok
        unfold plainRoute
        dsimp only
        rw [if_pos hok, if_neg hone]
      -- More than one token was decoded, so the session cannot be continued.
      intro hcount
      rw [hcopy, Store.clear_count] at hcount
      exact absurd hcount (Nat.lt_irrefl 0)
  · have hcopy : (plainRoute cfg provider request state).2.residentPrefix =
        state.residentPrefix := by
      unfold plainAnswer at hok
      unfold plainRoute
      dsimp only
      rw [if_neg hok]
    -- The request failed, so it was not answered in full, and the old copy stays.
    refine mirrors_of_kept cfg provider request state _ hmirrors hsafe hstate hcopy ?_
    intro hcalls hanswers
    exact absurd ((plainAnswer_ok_iff cfg provider request state
      (calls_spec cfg request state hcalls).2).mpr ⟨hcalls, hanswers⟩) hok

/-! ## The routes over a prefix -/

/-- A prefix request that succeeds has found its prefix recorded. -/
theorem prefixV1_recorded (host : Host) (callback : Callback) (streams : Bool) (engine : Engine)
    (s : σ) (input : List UInt32) (prefixCount capacity : Nat)
    (h : (prefixV1 cfg provider host callback streams engine s input prefixCount
      capacity).1.status = .ok) :
    cfg.ready = true ∧ Recorded engine.identity (input.take prefixCount) := by
  have hexit := prefixV1_exit cfg provider host callback streams engine s input prefixCount
    capacity
  generalize prefixV1 cfg provider host callback streams engine s input prefixCount capacity =
    result at hexit h
  have hmatches : cfg.ready = true ∧ engine.identity.matches input prefixCount = true := by
    cases hexit with
    | missed => exact Status.noConfusion h
    | refused status stage hstatus => exact absurd h hstatus
    | failed => exact Status.noConfusion h
    | answered _ _ hreaches =>
        unfold prefixReaches at hreaches
        simp only [Bool.and_eq_true] at hreaches
        exact ⟨hreaches.1.1.2, hreaches.1.2⟩
  refine ⟨hmatches.1, ?_⟩
  have hfields := hmatches.2
  unfold Identity.matches at hfields
  simp only [Bool.and_eq_true, bne_iff_ne, beq_iff_eq] at hfields
  rcases hfields with ⟨⟨⟨⟨⟨hvalid, hcells⟩, -⟩, hcontents⟩, hgeneration⟩, hdigest⟩
  exact ⟨hvalid, hcells, hcontents, hgeneration, hdigest⟩

/-- A stream that succeeds has found its prefix recorded, and leaves it so. -/
theorem prefixStreamV1_recorded (host : Host) (callback : Callback) (engine : Engine) (s : σ)
    (input : List UInt32) (prefixCount capacity : Nat)
    (h : (prefixStreamV1 cfg provider host callback engine s input prefixCount
      capacity).1.status = .ok) :
    cfg.ready = true ∧ Recorded (prefixStreamV1 cfg provider host callback engine s input
      prefixCount capacity).2.1.identity (input.take prefixCount) := by
  have hidentity : (prefixStreamV1 cfg provider host callback engine s input prefixCount
      capacity).2.1.identity = engine.identity := by
    rcases prefixStreamV1_identity cfg provider host callback engine s input prefixCount capacity
      with hsame | ⟨-, hfailed⟩
    · exact hsame
    · exact absurd h hfailed
  rw [hidentity]
  unfold prefixStreamV1 at h
  by_cases hactive : engine.stream.active = true
  · rw [if_pos hactive] at h
    exact Status.noConfusion h
  · rw [if_neg hactive, closeStream_ok_iff] at h
    exact prefixV1_recorded cfg provider host callback true
      { engine with stream := StreamState.begin } s input prefixCount capacity h.1

/-- Continuing a prefix that is the copy keeps the copy right. If the result can be allocated it
    does so even for a copy that was not. -/
theorem prefixRoute_mirrors (request : Request) (state : BridgeState σ) (prefixCount : Nat)
    (hcopy : state.residentPrefix.contents = request.input.take prefixCount)
    (hmirrors : request.host.prefixResultAllocates = false → Mirrors cfg state) :
    Mirrors cfg (prefixRoute cfg provider request state prefixCount).2 := by
  unfold prefixRoute
  cases halloc : request.host.prefixResultAllocates with
  | false => exact hmirrors halloc
  | true =>
      rw [Bool.not_true, if_neg Bool.false_ne_true]
      dsimp only
      by_cases hok : (prefixStreamV1 cfg provider request.host.core request.callback state.engine
          state.provider request.input prefixCount request.capacity).1.status = .ok
      -- A success means that the core has found the prefix in its record.
      · rw [if_pos hok]
        intro _
        rw [hcopy]
        exact prefixStreamV1_recorded cfg provider request.host.core request.callback
          state.engine state.provider request.input prefixCount request.capacity hok
      · rw [if_neg hok]
        intro hcount
        exact absurd hcount (Nat.lt_irrefl 0)

/-- The condition on a seed: one that is copied and whose prefill the core accepts is recorded. -/
def SeedSafe (request : Request) (state : BridgeState σ) (prefixCount : Nat) : Prop :=
  let seedTokens := request.input.take prefixCount
  let engine := state.engine.fail .none
  (storeTokens state.residentPrefix request.host.residentGrows seedTokens).isSome = true →
  cfg.providerRequested = true ∧ (reachesProvider cfg request.host.core seedTokens 1 = true →
    accepted cfg provider request.callback engine state.provider seedTokens 1 = true →
    retained cfg provider request.host.core request.callback engine state.provider seedTokens 1 =
      true)

/-- A seed that is copied is recorded. -/
theorem seed_mirrors (request : Request) (state : BridgeState σ) (prefixCount : Nat)
    (hsafe : SeedSafe cfg provider request state prefixCount) (stored : Store UInt32)
    (hstored : storeTokens state.residentPrefix request.host.residentGrows
      (request.input.take prefixCount) = some stored)
    (hok : (requestTokens cfg provider request.host.core request.callback state.engine
      state.provider (request.input.take prefixCount) 1).1.status = .ok) :
    cfg.ready = true ∧ Recorded (requestTokens cfg provider request.host.core request.callback
      state.engine state.provider (request.input.take prefixCount) 1).2.1.identity
        (request.input.take prefixCount) := by
  rcases hsafe (by rw [hstored]; rfl) with ⟨hrequested, hretained⟩
  have hreaches := reachesProvider_of_ok cfg provider request.host.core request.callback
    hrequested state.engine state.provider (request.input.take prefixCount) 1 hok
  have haccepted := accepted_of_ok cfg provider request.host.core request.callback
    state.engine state.provider (request.input.take prefixCount) 1 hreaches hok
  rcases requestTokens_identity cfg provider request.host.core request.callback
    state.engine state.provider (request.input.take prefixCount) 1 with
    ⟨hnot, -⟩ | ⟨-, -, hrecorded⟩ | ⟨-, hlost, -⟩
  · exact Bool.noConfusion (hnot.symm.trans hreaches)
  · refine ⟨?_, hrecorded⟩
    unfold reachesProvider at hreaches
    simp only [Bool.and_eq_true] at hreaches
    exact hreaches.1.1.1
  · exact Bool.noConfusion (hlost.symm.trans (hretained hreaches haccepted))

/-- A seed and the continuation keep the copy right. -/
theorem seedRoute_mirrors (request : Request) (state : BridgeState σ) (prefixCount : Nat)
    (hsafe : SeedSafe cfg provider request state prefixCount) :
    Mirrors cfg (seedRoute cfg provider request state prefixCount).2 := by
  have hmirrors := seed_mirrors cfg provider request state prefixCount hsafe
  unfold seedRoute
  dsimp only
  generalize requestTokens cfg provider request.host.core request.callback state.engine
    state.provider (request.input.take prefixCount) 1 = seed at hmirrors ⊢
  by_cases hseed : seed.1.status = .ok ∧ seed.1.outputTokens.length = 1 ∧
      seed.1.outputTokens.headD vocabSize < vocabSize
  · rw [if_pos hseed]
    cases hstored : storeTokens state.residentPrefix request.host.residentGrows
        (request.input.take prefixCount) with
    | none =>
        intro hcount
        exact absurd hcount (Nat.lt_irrefl 0)
    | some stored =>
        have hcopy := (storeTokens_spec _ stored _ _ hstored).1
        refine prefixRoute_mirrors cfg provider request _ prefixCount hcopy ?_
        intro _ _
        dsimp only
        rw [hcopy]
        exact hmirrors stored hstored hseed.1
  · rw [if_neg hseed]
    intro hcount
    exact absurd hcount (Nat.lt_irrefl 0)

/-! ## The exact route -/

/-- A stage that the provider names is not one of the core. -/
theorem Stage.ofProvider_ne_core (text : String) (default : Stage) (stage : FailureStage)
    (h : default ≠ .core stage) : Stage.ofProvider text default ≠ .core stage := by
  unfold Stage.ofProvider
  split_ifs
  · exact h
  · exact Stage.noConfusion

/-- The exact route never fails at a stage of the core. -/
theorem letterContinuation_stage (exact : List UInt32 → ExactReply) (callback : Callback)
    (input : List UInt32) (capacity fuel : Nat) (reply : ExactReply) (generated : List UInt32)
    (events : List StreamEvent) (elapsedNs : Nat) (stage : FailureStage) :
    (letterContinuation exact callback input capacity fuel reply generated events
      elapsedNs).stage ≠ .core stage := by
  induction fuel generalizing reply generated events elapsedNs with
  | zero => exact Stage.noConfusion
  | succ fuel ih =>
      unfold letterContinuation
      dsimp only
      split_ifs
      all_goals first
        | exact Stage.noConfusion
        | exact Stage.ofProvider_ne_core _ _ stage Stage.noConfusion
        | exact ih _ _ _ _

theorem exactRoute_stage (request : Request) (stage : FailureStage) :
    (exactRoute request).stage ≠ .core stage := by
  unfold exactRoute
  cases request.host.exactFirstToken with
  | none => exact Stage.noConfusion
  | some exact =>
      unfold exactFirst
      dsimp only
      split_ifs
      all_goals first
        | exact Stage.noConfusion
        | exact Stage.ofProvider_ne_core _ _ stage Stage.noConfusion
        | exact letterContinuation_stage _ _ _ _ _ _ _ _ _ stage

/-! ## Requests -/

/-- The condition on a request. -/
structure Safe (state : BridgeState σ) (request : Request) : Prop where
  plain : takesExactRoute request = false → selectRoute request state = .plain →
    PlainSafe cfg provider request state
  seed : ∀ prefixCount, takesExactRoute request = false →
    selectRoute request state = .seed prefixCount → SeedSafe cfg provider request state prefixCount

/-- A request is sent to continue the copy only if the copy begins its prompt. -/
theorem selectRoute_hit (request : Request) (state : BridgeState σ) (prefixCount : Nat)
    (h : selectRoute request state = .hit prefixCount) :
    prefixCount = state.residentPrefix.count ∧ 0 < prefixCount ∧
      state.residentPrefix.contents = request.input.take prefixCount := by
  -- No other route is one that continues the copy.
  have hcached : cachedRoute request state = some (.hit prefixCount) := by
    unfold selectRoute at h
    by_cases henabled : request.settings.prefixCache = true ∧
        request.input.length < retainedTokens
    · rw [if_pos henabled] at h
      cases hroute : cachedRoute request state with
      | none =>
          rw [hroute] at h
          dsimp only at h
          split_ifs at h
      | some route =>
          rw [hroute] at h
          exact congrArg some h
    · rw [if_neg henabled] at h
      exact Route.noConfusion h
  have hhit : residentHit request state = true ∧ state.residentPrefix.count = prefixCount := by
    unfold cachedRoute at hcached
    dsimp only at hcached
    split_ifs at hcached with hhit
    · exact ⟨hhit, Route.hit.inj (Option.some.inj hcached)⟩
    · exact Route.noConfusion (Option.some.inj hcached)
  rcases hhit with ⟨hhit, hcount⟩
  unfold residentHit prefixShapeSupported at hhit
  simp only [Bool.and_eq_true, decide_eq_true_eq, beq_iff_eq] at hhit
  rw [hcount] at hhit
  exact ⟨hcount.symm, hhit.1.2.1.1.1.1.1, hhit.2⟩

/-- One request keeps the copy right. -/
theorem generate_mirrors (request : Request) (state : BridgeState σ)
    (hmirrors : Mirrors cfg state) (hsafe : Safe cfg provider state request) :
    Mirrors cfg (generate cfg provider request state).2 := by
  unfold generate
  by_cases hargs : request.input = [] ∨ request.capacity = 0
  · rw [if_pos hargs]
    exact hmirrors
  · rw [if_neg hargs]
    cases hexact : takesExactRoute request with
    | true => exact hmirrors
    | false =>
        rw [if_neg Bool.false_ne_true]
        cases hroute : selectRoute request state with
        | plain =>
            exact plainRoute_mirrors cfg provider request state hmirrors (hsafe.plain hexact hroute)
        | hit prefixCount =>
            exact prefixRoute_mirrors cfg provider request state prefixCount
              (selectRoute_hit request state prefixCount hroute).2.2 fun _ => hmirrors
        | seed prefixCount =>
            exact seedRoute_mirrors cfg provider request state prefixCount
              (hsafe.seed prefixCount hexact hroute)

/-- A recorded prefix is one that a prefix request finds. -/
theorem matches_of_recorded (identity : Identity) (input : List UInt32) (prefixCount : Nat)
    (hrecorded : Recorded identity (input.take prefixCount))
    (hcount : identity.tokens.count = prefixCount) :
    identity.matches input prefixCount = true := by
  unfold Identity.matches
  simp only [Bool.and_eq_true, bne_iff_ne, beq_iff_eq]
  exact ⟨⟨⟨⟨⟨hrecorded.sessionValid, hrecorded.cells⟩, hcount⟩, hrecorded.contents⟩,
    hrecorded.sessionGeneration⟩, hrecorded.promptDigest⟩

/-- The spans of a decode do not fail at the record. -/
theorem decodeSpans_stage (callback : Callback) (input : List UInt32) (prefill : PrefillReply)
    (capacity fuel : Nat) (engine : Engine) (s : σ) (outputs : List UInt32)
    (hstage : engine.failureStage ≠ .prefixIdentity) :
    (decodeSpans provider callback input prefill capacity fuel engine s
      outputs).2.1.failureStage ≠ .prefixIdentity := by
  induction fuel generalizing engine s outputs with
  | zero => exact hstage
  | succ fuel ih =>
      unfold decodeSpans
      by_cases hdone : capacity ≤ outputs.length
      · rw [if_pos hdone]
        exact hstage
      · rw [if_neg hdone]
        dsimp only
        by_cases hfailed : (!(provider.decodeV1 s
              (decodeRequest engine input prefill capacity outputs)).1.ok ||
            !decodeResultValid (decodeRequest engine input prefill capacity outputs)
              (provider.decodeV1 s
                (decodeRequest engine input prefill capacity outputs)).1) = true
        · rw [if_pos hfailed]
          exact FailureStage.ofProvider_ne _ _ _ FailureStage.noConfusion
            fun _ => FailureStage.noConfusion
        · rw [if_neg hfailed]
          exact ih _ _ _ hstage

/-- What follows a prefill does not. -/
theorem finishRequest_stage (host : Host) (callback : Callback) (engine : Engine) (s : σ)
    (input : List UInt32) (capacity : Nat) (request : PrefillRequest) (reply : PrefillReply)
    (hstage : engine.failureStage ≠ .prefixIdentity) :
    (finishRequest provider host callback engine s input capacity request
      reply).2.1.failureStage ≠ .prefixIdentity := by
  unfold finishRequest
  dsimp only
  generalize (if request.emits = true then (true, engine.stream)
    else emit callback engine.stream .prefill 0 (reply.outputTokens.headD 0)) = emitted
  split_ifs
  · exact FailureStage.noConfusion
  · exact FailureStage.noConfusion
  · exact FailureStage.noConfusion
  · exact decodeSpans_stage provider callback input reply capacity capacity _ s _ hstage
  · exact hstage

/-- No ordinary request does. One that is refused leaves the stage of the request before. -/
theorem requestTokens_stage (host : Host) (callback : Callback) (engine : Engine) (s : σ)
    (input : List UInt32) (capacity : Nat) (hstage : engine.failureStage ≠ .prefixIdentity) :
    (requestTokens cfg provider host callback engine s input capacity).2.1.failureStage ≠
      .prefixIdentity := by
  have hprovider : ∀ text default, default ≠ .prefixIdentity →
      FailureStage.ofProvider text default ≠ .prefixIdentity := fun text default hdefault =>
    FailureStage.ofProvider_ne text default _ hdefault fun _ => FailureStage.noConfusion
  unfold requestTokens tryWholeProviderPrefill acceptPrefill
  dsimp only
  split_ifs
  · exact hstage
  · exact FailureStage.noConfusion
  · exact hprovider _ _ FailureStage.noConfusion
  · exact FailureStage.noConfusion
  · exact FailureStage.noConfusion
  · exact hprovider _ _ FailureStage.noConfusion
  · exact hprovider _ _ FailureStage.noConfusion
  · exact FailureStage.noConfusion
  · exact finishRequest_stage provider host callback _ _ input capacity _ _
      FailureStage.noConfusion

/-- The end of a stream keeps the stage or sets its own. -/
theorem closeStream_stage (stage : FailureStage) (result : Outcome × Engine × σ)
    (hown : stage ≠ .prefixIdentity) (hstage : result.2.1.failureStage ≠ .prefixIdentity) :
    (closeStream stage result).2.1.failureStage ≠ .prefixIdentity := by
  unfold closeStream
  dsimp only
  split_ifs
  · exact hown
  · exact hstage

theorem plainAnswer_stage (request : Request) (state : BridgeState σ)
    (hstage : state.engine.failureStage ≠ .prefixIdentity) :
    (plainAnswer cfg provider request state).2.1.failureStage ≠ .prefixIdentity := by
  unfold plainAnswer requestTokensStreamV1
  split_ifs
  · exact hstage
  · exact closeStream_stage _ _ FailureStage.noConfusion
      (requestTokens_stage cfg provider request.host.core request.callback _ _ _ _ hstage)

/-- A stream over a prefix that is recorded does not fail at the record. -/
theorem prefixStreamV1_stage (host : Host) (callback : Callback) (engine : Engine) (s : σ)
    (input : List UInt32) (prefixCount capacity : Nat) (hready : cfg.ready = true)
    (hmatches : prefixCount ≤ input.length → engine.identity.matches input prefixCount = true) :
    (prefixStreamV1 cfg provider host callback engine s input prefixCount
      capacity).2.1.failureStage ≠ .prefixIdentity := by
  unfold prefixStreamV1
  by_cases hactive : engine.stream.active = true
  · rw [if_pos hactive]
    exact FailureStage.noConfusion
  · rw [if_neg hactive]
    have hmisses : missesIdentity cfg true { engine with stream := StreamState.begin } input
        prefixCount capacity = false := by
      unfold missesIdentity
      -- A prefix that is longer than the prompt is refused for its shape.
      cases hshape : prefixShape input prefixCount capacity with
      | false => rfl
      | true =>
          unfold prefixShape at hshape
          simp only [Bool.and_eq_true, decide_eq_true_eq] at hshape
          have hle : prefixCount ≤ input.length := by omega
          rw [hready, hmatches hle, Bool.and_self, Bool.not_true, Bool.and_false]
    refine closeStream_stage _ _ FailureStage.noConfusion ?_
    have hexit := prefixV1_exit cfg provider host callback true
      { engine with stream := StreamState.begin } s input prefixCount capacity
    generalize prefixV1 cfg provider host callback true
      { engine with stream := StreamState.begin } s input prefixCount capacity = result at hexit ⊢
    -- The identity fails only where the record misses.
    cases hexit with
    | missed h => exact Bool.noConfusion (hmisses.symm.trans h)
    | refused _ _ _ hstage => exact hstage
    | failed _ _ hstage => exact hstage
    | answered => exact FailureStage.noConfusion

/-- An answer and the engine behind it do not name the record as what failed. -/
structure Unmissed (result : Response × BridgeState σ) : Prop where
  stage : result.1.stage ≠ .core .prefixIdentity
  engine : result.2.engine.failureStage ≠ .prefixIdentity

/-- A report names the stage of the engine. -/
theorem reported_stage (request : Request) (status : Status) (outputTokens : List UInt32)
    (events : List StreamEvent) (engine : Engine)
    (hstage : engine.failureStage ≠ .prefixIdentity) :
    (reported request status outputTokens events engine).stage ≠ .core .prefixIdentity := by
  unfold reported
  split_ifs
  · exact Stage.noConfusion
  · exact Stage.noConfusion
  · exact fun h => hstage (Stage.core.inj h)

theorem plainRoute_unmissed (request : Request) (state : BridgeState σ)
    (hstage : state.engine.failureStage ≠ .prefixIdentity) :
    Unmissed (plainRoute cfg provider request state) := by
  have hanswer := plainAnswer_stage cfg provider request state hstage
  unfold plainAnswer at hanswer
  unfold plainRoute
  dsimp only
  constructor
  case stage =>
    refine reported_stage request _ _ _ _ ?_
    split_ifs <;> exact hanswer
  case engine => split_ifs <;> exact hanswer

/-- Continuing a prefix that is recorded. -/
theorem prefixRoute_unmissed (request : Request) (state : BridgeState σ) (prefixCount : Nat)
    (hstage : state.engine.failureStage ≠ .prefixIdentity) (hready : cfg.ready = true)
    (hmatches : prefixCount ≤ request.input.length →
      state.engine.identity.matches request.input prefixCount = true) :
    Unmissed (prefixRoute cfg provider request state prefixCount) := by
  have hanswer := prefixStreamV1_stage cfg provider request.host.core request.callback
    state.engine state.provider request.input prefixCount request.capacity hready hmatches
  unfold prefixRoute
  cases halloc : request.host.prefixResultAllocates with
  | false => exact ⟨Stage.noConfusion, hstage⟩
  | true =>
      rw [Bool.not_true, if_neg Bool.false_ne_true]
      dsimp only
      split_ifs
      all_goals exact ⟨reported_stage request _ _ _ _ hanswer, hanswer⟩

/-- A seed that is copied is recorded, so its continuation finds it. -/
theorem seedRoute_unmissed (request : Request) (state : BridgeState σ) (prefixCount : Nat)
    (hstage : state.engine.failureStage ≠ .prefixIdentity)
    (hsafe : SeedSafe cfg provider request state prefixCount) :
    Unmissed (seedRoute cfg provider request state prefixCount) := by
  have hseeded := requestTokens_stage cfg provider request.host.core request.callback state.engine
    state.provider (request.input.take prefixCount) 1 hstage
  have hmirrors := seed_mirrors cfg provider request state prefixCount hsafe
  unfold seedRoute
  dsimp only
  generalize requestTokens cfg provider request.host.core request.callback state.engine
    state.provider (request.input.take prefixCount) 1 = seed at hseeded hmirrors ⊢
  by_cases hseed : seed.1.status = .ok ∧ seed.1.outputTokens.length = 1 ∧
      seed.1.outputTokens.headD vocabSize < vocabSize
  · rw [if_pos hseed]
    cases hstored : storeTokens state.residentPrefix request.host.residentGrows
        (request.input.take prefixCount) with
    | none => exact ⟨Stage.noConfusion, hseeded⟩
    | some stored =>
        rcases hmirrors stored hstored hseed.1 with ⟨hready, hrecorded⟩
        refine prefixRoute_unmissed cfg provider request _ prefixCount hseeded hready ?_
        intro hle
        refine matches_of_recorded _ _ _ hrecorded ?_
        rw [← Store.length_contents, hrecorded.contents, List.length_take, Nat.min_eq_left hle]
  · rw [if_neg hseed]
    exact ⟨Stage.noConfusion, hseeded⟩

/-- No request over a copy that is right fails at the record, if the seed it takes meets the
    condition. -/
theorem generate_unmissed (request : Request) (state : BridgeState σ)
    (hmirrors : Mirrors cfg state) (hstage : state.engine.failureStage ≠ .prefixIdentity)
    (hseed : ∀ prefixCount, takesExactRoute request = false →
      selectRoute request state = .seed prefixCount →
      SeedSafe cfg provider request state prefixCount) :
    Unmissed (generate cfg provider request state) := by
  unfold generate
  by_cases hargs : request.input = [] ∨ request.capacity = 0
  · rw [if_pos hargs]
    exact ⟨Stage.noConfusion, hstage⟩
  · rw [if_neg hargs]
    cases hexact : takesExactRoute request with
    | true => exact ⟨exactRoute_stage request _, hstage⟩
    | false =>
        rw [if_neg Bool.false_ne_true]
        cases hroute : selectRoute request state with
        | plain => exact plainRoute_unmissed cfg provider request state hstage
        | hit prefixCount =>
            rcases selectRoute_hit request state prefixCount hroute with ⟨hcount, hpos, hcopy⟩
            rcases hmirrors (by omega) with ⟨hready, hrecorded⟩
            refine prefixRoute_unmissed cfg provider request state prefixCount hstage hready ?_
            -- The count of the record is the length of what it names.
            intro _
            refine matches_of_recorded _ _ _ (hcopy ▸ hrecorded) ?_
            rw [← Store.length_contents, hrecorded.contents, Store.length_contents, hcount]
        | seed prefixCount =>
            exact seedRoute_unmissed cfg provider request state prefixCount hstage
              (hseed prefixCount hexact hroute)

end Routes

/-! ## Runs -/

section Runs

variable {σ : Type} (cfg : Config) (provider : Provider σ)

/-- One request. -/
def step (state : BridgeState σ) (request : Request) : Option (BridgeState σ) :=
  some (generate cfg provider request state).2

/-- In every run whose requests meet the condition the copy is what the core has recorded, and no
    request fails at the record, whether it continues the copy or a seed of its own, if the seed
    meets the condition. -/
theorem reachable_mirrors (state : BridgeState σ)
    (h : Run.Reachable (step cfg provider) (Safe cfg provider)
      (fun start => ∃ s, start = BridgeState.loaded s) state) :
    (0 < state.residentPrefix.count → state.engine.identity.sessionValid = true ∧
      state.engine.identity.tokens.contents = state.residentPrefix.contents) ∧
    ∀ request, (∀ prefixCount, takesExactRoute request = false →
        selectRoute request state = .seed prefixCount →
        SeedSafe cfg provider request state prefixCount) →
      (generate cfg provider request state).1.stage ≠ .core .prefixIdentity := by
  have hkept : Mirrors cfg state ∧ state.engine.failureStage ≠ .prefixIdentity := by
    refine h.invariant (fun state => Mirrors cfg state ∧
      state.engine.failureStage ≠ .prefixIdentity) ?_ ?_
    · rintro start ⟨s, rfl⟩
      exact ⟨fun hcount => absurd hcount (Nat.lt_irrefl 0), FailureStage.noConfusion⟩
    · rintro state request next ⟨hmirrors, hstage⟩ hsafe hstep
      rw [← Option.some.inj hstep]
      exact ⟨generate_mirrors cfg provider request state hmirrors hsafe,
        (generate_unmissed cfg provider request state hmirrors hstage hsafe.seed).engine⟩
  refine ⟨fun hcount => ?_, fun request hseed =>
    (generate_unmissed cfg provider request state hkept.1 hkept.2 hseed).stage⟩
  have hrecorded := (hkept.1 hcount).2
  exact ⟨hrecorded.sessionValid, hrecorded.contents⟩

end Runs

/-! ## A run that leaves an old copy behind -/

/-- A system on which nothing fails, with or without the exact entry point. -/
def BridgeHost.sound (exactFirstToken : Option (List UInt32 → ExactReply)) : BridgeHost :=
  { core := Host.sound, exactFirstToken := exactFirstToken, continuationAllocates := true
    residentGrows := true, previousGrows := true, prefixResultAllocates := true
    reportAllocates := true }

/-- A request for one token on a server that caches prefixes of any length. -/
def oneTokenRequest (callback : Callback) (input : List UInt32) : Request :=
  { settings := { Settings.unset with prefixCacheMinTokens := 1 }
    host := BridgeHost.sound none, callback := callback, forceExactFirstToken := false
    input := input, capacity := 1 }

/-- The same on a server that caches prefixes of two tokens and more. -/
def seedingRequest (input : List UInt32) : Request :=
  { oneTokenRequest goesOn input with
    settings := { Settings.unset with prefixCacheMinTokens := 2 } }

/-- The state after one request. -/
def mirroredState : BridgeState Resident.ProviderState :=
  (generate smallConfig (Resident.provider (Resident.serving 7)) (seedingRequest [1])
    (BridgeState.loaded Resident.ProviderState.initial)).2

/-- And after another that continues a seed, since the copy is too short for it. -/
def seededState : BridgeState Resident.ProviderState :=
  (generate smallConfig (Resident.provider (Resident.serving 7)) (seedingRequest [1, 5, 6])
    mirroredState).2

/-- A request whose prompt is copied and recorded, one whose seed is, and one that would continue
    the seed. -/
theorem mirroredRequest_mirrors :
    selectRoute (seedingRequest [1, 5, 6]) mirroredState = .seed 2 ∧
      seededState.residentPrefix.contents = [1, 5] ∧
      seededState.engine.identity.sessionValid = true ∧
      seededState.engine.identity.tokens.contents = seededState.residentPrefix.contents ∧
      (generate smallConfig (Resident.provider (Resident.serving 7))
        (seedingRequest [1, 5, 8]) seededState).1.stage ≠ .core .prefixIdentity := by
  have hplain : selectRoute (seedingRequest [1])
      (BridgeState.loaded Resident.ProviderState.initial) = .plain := by decide +kernel
  have hseed : selectRoute (seedingRequest [1, 5, 6]) mirroredState = .seed 2 := by
    decide +kernel
  have hhit : selectRoute (seedingRequest [1, 5, 8]) seededState = .hit 2 := by decide +kernel
  have hreachable : Run.Reachable (step smallConfig (Resident.provider (Resident.serving 7)))
      (Safe smallConfig (Resident.provider (Resident.serving 7)))
      (fun start => ∃ s, start = BridgeState.loaded s) seededState := by
    refine ⟨BridgeState.loaded Resident.ProviderState.initial, ⟨_, rfl⟩,
      .tail _ _ (seedingRequest [1, 5, 6])
        (.tail _ _ (seedingRequest [1]) .refl ⟨fun _ _ => ⟨?_, ?_⟩, ?_⟩ rfl) ⟨?_, ?_⟩ rfl⟩
    · intro _ _
      exact ⟨rfl, fun _ _ => by decide +kernel⟩
    · intro hcount
      exact absurd hcount (Nat.lt_irrefl 0)
    · intro prefixCount _ hroute
      exact Route.noConfusion (hplain.symm.trans hroute)
    · intro _ hroute
      exact Route.noConfusion (hseed.symm.trans hroute)
    · intro prefixCount _ hroute
      obtain rfl := Route.seed.inj (hseed.symm.trans hroute)
      exact fun _ => ⟨rfl, fun _ _ => by decide +kernel⟩
  have hmirrors := reachable_mirrors smallConfig (Resident.provider (Resident.serving 7))
    seededState hreachable
  have hkept := hmirrors.1 (by decide +kernel)
  exact ⟨hseed, by decide +kernel, hkept.1, hkept.2, hmirrors.2 _ fun prefixCount _ hroute =>
    Route.noConfusion (hhit.symm.trans hroute)⟩

/-- A request whose prompt is copied, and then one with another prompt whose callback cancels. The
    core has recorded the second prompt by then and the copy is still the first. A request that
    begins with the first is sent to continue it and fails at the record. -/
theorem cancelledRequest_stale :
    ∃ state, Run.Reachable (step smallConfig (Resident.provider (Resident.serving 7))) Run.anyStep
        (fun start => ∃ s, start = BridgeState.loaded s) state ∧
      state.residentPrefix.contents = [1] ∧ state.engine.identity.tokens.contents = [2] ∧
      selectRoute (oneTokenRequest goesOn [1, 5]) state = .hit 1 ∧
      (generate smallConfig (Resident.provider (Resident.serving 7))
        (oneTokenRequest goesOn [1, 5]) state).1.stage = .core .prefixIdentity := by
  refine ⟨_, ⟨BridgeState.loaded Resident.ProviderState.initial, ⟨_, rfl⟩,
    .tail _ _ (oneTokenRequest (fun _ => false) [2])
      (.tail _ _ (oneTokenRequest goesOn [1]) .refl trivial rfl) trivial rfl⟩, ?_, ?_, ?_, ?_⟩
  · decide +kernel
  · decide +kernel
  · decide +kernel
  · decide +kernel

end Bridge

end QrtEngine
