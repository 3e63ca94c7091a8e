import QrtEngine.Core.Exits
import QrtEngine.Library.Run
import QrtEngine.Provider.Session

/-!
# The Core's Record of the Cached Prefix

What each operation does to the identity of the cached prefix, and when the record stays
consistent: a valid identity names tokens, a session and a digest, and an invalid one names
nothing.

An ordinary request leaves the identity alone unless it gets as far as the provider. From there
on it is cleared, or it is the identity of the request's own input. The seed of a fallback is
such a request, and when it fails the fallback takes back the valid bit. That is harmless if the
seed got as far as the provider, which has cleared the other fields already. If the seed failed
before, over a valid identity, the other fields stay behind, and the reset refuses the record
from then on.

## Main definitions

* `Recorded`: The identity is that of an input.
* `retained`: The prefill of a request has retained its input.
* `Operation`, `step`: The operations on an engine, one after the other.
* `SeedReaches`: The condition on a step.

## Theorems

* `requestTokens_identity`: What an ordinary request does to the identity.
* `prefixV1_identity`: What a prefix request does to the identity.
* `step_consistent`: One operation keeps the record consistent.
* `reachable_consistent`: The record is consistent in every run.
* `recordedRequest_consistent`: A run it holds in.
* `seedAtLimit_inconsistent`: A run that breaks it.
-/

namespace QrtEngine

namespace Core

section Specs

variable {σ : Type} (cfg : Config) (provider : Provider σ) (host : Host) (callback : Callback)

/-! ## Ordinary requests -/

/-- The identity is that of an input. -/
structure Recorded (identity : Identity) (input : List UInt32) : Prop where
  sessionValid : identity.sessionValid = true
  cells : identity.tokens.cells ≠ []
  contents : identity.tokens.contents = input
  sessionGeneration : identity.sessionGeneration ≠ 0
  promptDigest : identity.promptDigest = digest input

/-- The prefill of a request has retained its input, and the copy of the tokens fits. -/
def retained (engine : Engine) (s : σ) (input : List UInt32) (capacity : Nat) : Bool :=
  accepted cfg provider callback engine s input capacity &&
    retainsSession input
      (prefill provider callback engine s (prefillRequest cfg engine input capacity)).1 &&
    (engine.identity.tokens.put host.tokenCopyGrows input).isSome

theorem decodeSpans_identity (input : List UInt32) (reply : PrefillReply) (capacity fuel : Nat)
    (engine : Engine) (s : σ) (outputs : List UInt32) :
    (decodeSpans provider callback input reply capacity fuel engine s outputs).2.1.identity =
      engine.identity := by
  induction fuel generalizing engine s outputs with
  | zero => rfl
  | succ fuel ih =>
      unfold decodeSpans
      by_cases hdone : capacity ≤ outputs.length
      · rw [if_pos hdone]
      · rw [if_neg hdone]
        dsimp only
        split_ifs
        · rfl
        · rfl
        · exact ih _ _ _
        · exact ih _ _ _

theorem finishRequest_identity (engine : Engine) (s : σ) (input : List UInt32) (capacity : Nat)
    (request : PrefillRequest) (reply : PrefillReply) :
    (finishRequest provider host callback engine s input capacity request
      reply).2.1.identity = engine.identity := by
  unfold finishRequest
  dsimp only
  split_ifs <;> first | rfl | exact decodeSpans_identity provider callback _ _ _ _ _ _ _

/-- A record that was made names the input. -/
theorem record_recorded (identity : Identity) (grows : Bool) (input : List UInt32)
    (reply : PrefillReply) (hinput : input ≠ []) (hretains : retainsSession input reply = true)
    (hput : (identity.tokens.put grows input).isSome = true) :
    Recorded (identity.record grows input reply) input := by
  rcases Option.isSome_iff_exists.mp hput with ⟨tokens, htokens⟩
  have hcells := Store.cells_ne_nil_of_put identity.tokens tokens grows input htokens hinput
  unfold Identity.record
  rw [if_pos hretains, htokens]
  dsimp only
  rw [if_neg hcells]
  unfold retainsSession at hretains
  simp only [Bool.and_eq_true, bne_iff_ne, beq_iff_eq] at hretains
  exact ⟨rfl, hcells, (Store.contents_put identity.tokens tokens grows input htokens).1,
    hretains.1.1.2, hretains.1.2⟩

theorem record_of_not_retained (identity : Identity) (grows : Bool) (input : List UInt32)
    (reply : PrefillReply)
    (h : (retainsSession input reply && (identity.tokens.put grows input).isSome) = false) :
    identity.record grows input reply = identity := by
  unfold Identity.record
  by_cases hretains : retainsSession input reply = true
  · rw [hretains, Bool.true_and, Option.isSome_eq_false_iff, Option.isNone_iff_eq_none] at h
    rw [if_pos hretains, h]
  · rw [if_neg hretains]

/-- What an ordinary request does to the identity: nothing before the provider; from there on it
    is the identity of the input if that was retained, and cleared if not. -/
theorem requestTokens_identity (engine : Engine) (s : σ) (input : List UInt32) (capacity : Nat) :
    (reachesProvider cfg host input capacity = false ∧
      (requestTokens cfg provider host callback engine s input capacity).2.1.identity =
        engine.identity) ∨
    (reachesProvider cfg host input capacity = true ∧
      retained cfg provider host callback (engine.fail .none) s input capacity = true ∧
      Recorded (requestTokens cfg provider host callback engine s input capacity).2.1.identity
        input) ∨
    (reachesProvider cfg host input capacity = true ∧
      retained cfg provider host callback (engine.fail .none) s input capacity = false ∧
      (requestTokens cfg provider host callback engine s input capacity).2.1.identity =
        engine.identity.clear false) := by
  cases hreaches : reachesProvider cfg host input capacity with
  | false =>
      refine .inl ⟨rfl, ?_⟩
      rcases requestTokens_of_not_reaches cfg provider host callback engine s input capacity
        hreaches with ⟨status, stage, -, hresult⟩ | ⟨-, outcome, stage, hresult⟩
      · rw [hresult]
        rfl
      · rw [hresult]
        rfl
  | true =>
      have hinput : input ≠ [] := by
        unfold reachesProvider at hreaches
        simp only [Bool.and_eq_true] at hreaches
        exact (supportedShape_spec cfg input capacity hreaches.1.2).1
      -- The rest of the request leaves the identity as the checks have left it.
      have hcases := requestTokens_cases cfg provider host callback engine s input capacity hreaches
      unfold retained
      dsimp only at hcases
      generalize hcalled : prefill provider callback (engine.fail .none) s
        (prefillRequest cfg (engine.fail .none) input capacity) = called at hcases ⊢
      have hclear : called.2.1.identity = engine.identity.clear false := by
        rw [← hcalled]
        rfl
      -- The copy goes into the cells that clearing has kept.
      have hcells : ((engine.identity.clear false).tokens.put host.tokenCopyGrows input).isSome =
          ((engine.fail .none).identity.tokens.put host.tokenCopyGrows input).isSome := rfl
      rcases hcases with ⟨haccepted, hresult⟩ | ⟨hrejected, stage, hresult⟩
      · rw [hresult, finishRequest_identity, haccepted, Bool.true_and, hclear, ← hcells]
        cases hkept : (retainsSession input called.1 &&
            ((engine.identity.clear false).tokens.put host.tokenCopyGrows input).isSome) with
        | false => exact .inr (.inr ⟨rfl, rfl, record_of_not_retained _ _ input called.1 hkept⟩)
        | true =>
            rw [Bool.and_eq_true] at hkept
            exact .inr (.inl ⟨rfl, rfl,
              record_recorded _ _ input called.1 hinput hkept.1 hkept.2⟩)
      · rw [hresult, hrejected]
        exact .inr (.inr ⟨rfl, rfl, hclear⟩)

/-! ## Prefix requests -/

/-- What a prefix request does to the identity: nothing, or it is cleared and the request
    fails. -/
theorem prefixV1_identity (streams : Bool) (engine : Engine) (s : σ) (input : List UInt32)
    (prefixCount capacity : Nat) :
    (prefixV1 cfg provider host callback streams engine s input prefixCount
        capacity).2.1.identity = engine.identity ∨
      (prefixV1 cfg provider host callback streams engine s input prefixCount
          capacity).2.1.identity = engine.identity.clear false ∧
        (prefixV1 cfg provider host callback streams engine s input prefixCount
          capacity).1.status ≠ .ok := by
  have hexit := prefixV1_exit cfg provider host callback streams engine s input prefixCount
    capacity
  generalize prefixV1 cfg provider host callback streams engine s input prefixCount capacity =
    result at hexit ⊢
  cases hexit with
  | missed => exact .inl rfl
  | refused => exact .inl rfl
  -- The only exit that touches the record, and only without a restored session.
  | failed stage identity _ hidentity =>
      rcases hidentity with rfl | ⟨-, rfl⟩
      · exact .inl rfl
      · exact .inr ⟨rfl, Status.noConfusion⟩
  | answered => exact .inl rfl

/-- A stream does to the identity what its prefix request does. -/
theorem prefixStreamV1_identity (engine : Engine) (s : σ) (input : List UInt32)
    (prefixCount capacity : Nat) :
    (prefixStreamV1 cfg provider host callback engine s input prefixCount
        capacity).2.1.identity = engine.identity ∨
      (prefixStreamV1 cfg provider host callback engine s input prefixCount
          capacity).2.1.identity = engine.identity.clear false ∧
        (prefixStreamV1 cfg provider host callback engine s input prefixCount
          capacity).1.status ≠ .ok := by
  unfold prefixStreamV1
  by_cases hactive : engine.stream.active = true
  · rw [if_pos hactive]
    exact .inl rfl
  · rw [if_neg hactive, (closeStream_state _ _).1, Ne, closeStream_ok_iff]
    have hcontinued := prefixV1_identity cfg provider host callback true
      { engine with stream := StreamState.begin } s input prefixCount capacity
    exact hcontinued.imp id fun h => ⟨h.1, fun hok => h.2 hok.1⟩

/-! ## Seeds -/

/-- Without a stream an event changes nothing. -/
theorem emit_of_idle (stream : StreamState) (phase : Phase) (outputIndex : Nat)
    (tokenId : UInt32) (h : stream.active = false) :
    emit callback stream phase outputIndex tokenId = (true, stream) := by
  unfold emit
  rw [h]
  rfl

/-- The output of a prefill that has passed its contracts begins with its token. -/
theorem prefillOutputContract_spec (reply : PrefillReply)
    (h : prefillOutputContract reply = true) :
    reply.outputTokens.take 1 = [reply.outputTokenId] ∧ reply.outputTokenId < vocabSize := by
  unfold prefillOutputContract at h
  rw [Bool.and_eq_true, beq_iff_eq, decide_eq_true_eq] at h
  rcases List.head?_eq_some_iff.mp h.1 with ⟨rest, hrest⟩
  rw [hrest]
  exact ⟨rfl, h.2⟩

/-- A request for one token without a stream ends with the token of the prefill exactly when the
    reply has passed its contracts. -/
theorem requestTokens_one (engine : Engine) (s : σ) (input : List UInt32)
    (hidle : engine.stream.active = false)
    (hreaches : reachesProvider cfg host input 1 = true) :
    (accepted cfg provider callback (engine.fail .none) s input 1 = true ∧
      ∃ token, token < vocabSize ∧
        (requestTokens cfg provider host callback engine s input 1).1 =
          { status := .ok, outputTokens := [token] }) ∨
    (accepted cfg provider callback (engine.fail .none) s input 1 = false ∧
      (requestTokens cfg provider host callback engine s input 1).1 = .failed .unsupported) := by
  -- Nobody listens, so neither callback is given to the provider.
  have hemits : (prefillRequest cfg (engine.fail .none) input 1).emits = false := by
    unfold prefillRequest Engine.fail
    dsimp only
    rw [hidle, Bool.false_and]
  have hcases := requestTokens_cases cfg provider host callback engine s input 1 hreaches
  dsimp only at hcases
  rcases hcases with ⟨haccepted, hresult⟩ | ⟨hrejected, stage, hresult⟩
  · refine .inl ⟨haccepted, ?_⟩
    rw [hresult]
    unfold accepted at haccepted
    dsimp only at haccepted
    generalize hcalled : prefill provider callback (engine.fail .none) s
      (prefillRequest cfg (engine.fail .none) input 1) = called at haccepted ⊢
    have hstream : called.2.1.stream.active = false := by
      rw [← hcalled]
      unfold prefill
      dsimp only
      rw [hemits]
      exact hidle
    rw [Bool.and_eq_true] at haccepted
    rcases prefillOutputContract_spec called.1 haccepted.2 with ⟨htake, hvocab⟩
    refine ⟨called.1.outputTokenId, hvocab, ?_⟩
    unfold finishRequest
    simp only [hemits, Bool.false_eq_true, if_false, emit_of_idle callback _ _ _ _ hstream,
      Bool.not_true, gt_iff_lt, Nat.lt_irrefl, htake]
  · rw [hresult]
    exact .inr ⟨hrejected, rfl⟩

end Specs

/-! ## Consistency -/

theorem consistent_clear (identity : Identity) (release : Bool) :
    (identity.clear release).consistent = true := by
  cases release <;> rfl

theorem consistent_recorded (identity : Identity) (input : List UInt32)
    (h : Recorded identity input) (hinput : input ≠ [])
    (hlength : input.length ≤ maxPositionEmbeddings) (hdigest : digest input ≠ 0) :
    identity.consistent = true := by
  -- The bounds on the count are those on the input, which the shape has checked.
  have hcount : identity.tokens.count = input.length := by
    rw [← Store.length_contents, h.contents]
  have hpos := List.length_pos_of_ne_nil hinput
  unfold maxPositionEmbeddings at hlength
  unfold Identity.consistent
  rw [h.sessionValid, if_pos rfl]
  simp only [Bool.and_eq_true, bne_iff_ne, decide_eq_true_eq]
  refine ⟨⟨⟨⟨h.cells, by omega⟩, by omega⟩, h.sessionGeneration⟩, ?_⟩
  rw [h.promptDigest]
  exact hdigest

section Consistency

variable {σ : Type} (cfg : Config) (provider : Provider σ) (host : Host) (callback : Callback)

theorem requestTokens_consistent (engine : Engine) (s : σ) (input : List UInt32) (capacity : Nat)
    (hconsistent : engine.identity.consistent = true) (hdigest : digest input ≠ 0) :
    (requestTokens cfg provider host callback engine s input
      capacity).2.1.identity.consistent = true := by
  have hspec := requestTokens_identity cfg provider host callback engine s input capacity
  rcases hspec with ⟨-, hsame⟩ | ⟨hreaches, -, hrecorded⟩ | ⟨-, -, hclear⟩
  · rw [hsame]
    exact hconsistent
  · unfold reachesProvider at hreaches
    simp only [Bool.and_eq_true] at hreaches
    rcases supportedShape_spec cfg input capacity hreaches.1.2 with ⟨hinput, hlength, -⟩
    exact consistent_recorded _ input hrecorded hinput hlength hdigest
  · rw [hclear]
    exact consistent_clear _ _

theorem prefixV1_consistent (streams : Bool) (engine : Engine) (s : σ) (input : List UInt32)
    (prefixCount capacity : Nat) (hconsistent : engine.identity.consistent = true) :
    (prefixV1 cfg provider host callback streams engine s input prefixCount
      capacity).2.1.identity.consistent = true := by
  rcases prefixV1_identity cfg provider host callback streams engine s input prefixCount capacity
    with hsame | ⟨hclear, -⟩
  · rw [hsame]
    exact hconsistent
  · rw [hclear]
    exact consistent_clear _ _

/-- Taking back the valid bit of a record that is not valid changes nothing. -/
theorem takeBack_of_not_valid (identity : Identity) (h : identity.sessionValid = false) :
    { identity with sessionValid := false } = identity := by
  rw [← h]

/-- If a seed over a valid identity gets as far as the provider, then a seed and its retry end as
    the seed has left things, or they are the retry after the seed. -/
theorem seedAndRetry_cases (engine : Engine) (s : σ) (input : List UInt32)
    (prefixCount capacity : Nat) (hidle : engine.stream.active = false)
    (hseed : engine.identity.sessionValid = true →
      reachesProvider cfg host (input.take prefixCount) 1 = true) :
    let seed := requestTokens cfg provider host callback engine s (input.take prefixCount) 1
    let result := seedAndRetry cfg provider host callback engine s input prefixCount capacity
    (result.2.1.identity = seed.2.1.identity ∧ result.2.2 = seed.2.2) ∨
      result = prefixV1 cfg provider host callback false seed.2.1 seed.2.2 input prefixCount
        capacity := by
  have hspec := requestTokens_identity cfg provider host callback engine s
    (input.take prefixCount) 1
  have hone := requestTokens_one cfg provider host callback engine s (input.take prefixCount) hidle
  unfold seedAndRetry
  dsimp only
  generalize requestTokens cfg provider host callback engine s (input.take prefixCount) 1 = seed
    at hspec hone ⊢
  by_cases hfailed : seed.1.status ≠ .ok ∨ ¬(seed.1.outputTokens.length = 1 ∧
      seed.1.outputTokens.headD vocabSize < vocabSize)
  · rw [if_pos hfailed]
    dsimp only
    -- The seed failed, so it has not left a valid identity: it did not get as far as the
    -- provider, where none was valid, or it did and a retained prefix would have succeeded.
    have hinvalid : seed.2.1.identity.sessionValid = false := by
      rcases hspec with ⟨hreaches, hsame⟩ | ⟨hreaches, hretained, -⟩ | ⟨-, -, hclear⟩
      · rw [hsame]
        cases hvalid : engine.identity.sessionValid with
        | false => rfl
        | true => exact Bool.noConfusion (hreaches.symm.trans (hseed hvalid))
      · rcases hone hreaches with ⟨-, token, hvocab, houtcome⟩ | ⟨hrejected, -⟩
        · refine absurd hfailed ?_
          rw [houtcome]
          simp only [ne_eq, not_true_eq_false, List.length_singleton, List.headD_cons, hvocab,
            and_self, or_self, not_false_eq_true]
        · unfold retained at hretained
          rw [hrejected] at hretained
          exact Bool.noConfusion hretained
      · rw [hclear]
        rfl
    rw [takeBack_of_not_valid _ hinvalid, ite_self]
    exact .inl ⟨rfl, rfl⟩
  · rw [if_neg hfailed]
    exact .inr rfl

/-- A seed and its retry keep the record consistent if a seed over a valid identity gets as far
    as the provider. -/
theorem seedAndRetry_consistent (engine : Engine) (s : σ) (input : List UInt32)
    (prefixCount capacity : Nat) (hconsistent : engine.identity.consistent = true)
    (hdigest : digest (input.take prefixCount) ≠ 0) (hidle : engine.stream.active = false)
    (hseed : engine.identity.sessionValid = true →
      reachesProvider cfg host (input.take prefixCount) 1 = true) :
    (seedAndRetry cfg provider host callback engine s input prefixCount
      capacity).2.1.identity.consistent = true := by
  have hkept := requestTokens_consistent cfg provider host callback engine s
    (input.take prefixCount) 1 hconsistent hdigest
  rcases seedAndRetry_cases cfg provider host callback engine s input prefixCount capacity hidle
    hseed with ⟨hidentity, -⟩ | hretry
  · rw [hidentity]
    exact hkept
  · rw [hretry]
    exact prefixV1_consistent cfg provider host callback false _ _ input prefixCount capacity hkept

/-- The fallback keeps the record consistent if a seed that runs over a valid identity gets as
    far as the provider. -/
theorem prefixFallbackV1_consistent (engine : Engine) (s : σ) (input : List UInt32)
    (prefixCount capacity : Nat) (hconsistent : engine.identity.consistent = true)
    (hdigest : digest (input.take prefixCount) ≠ 0)
    (hseed : engine.identity.sessionValid = true →
      missesIdentity cfg false engine input prefixCount capacity = true →
      reachesProvider cfg host (input.take prefixCount) 1 = true) :
    (prefixFallbackV1 cfg provider host callback engine s input prefixCount
      capacity).2.1.identity.consistent = true := by
  rw [prefixFallbackV1_eq]
  cases hmisses : missesIdentity cfg false engine input prefixCount capacity with
  | false =>
      rw [if_neg Bool.false_ne_true]
      exact prefixV1_consistent cfg provider host callback false engine s input prefixCount
        capacity hconsistent
  | true =>
      -- A miss is only reported without a stream, so the seed has none either.
      have hidle : engine.stream.active = false := by
        unfold missesIdentity at hmisses
        simp only [Bool.and_eq_true, beq_iff_eq] at hmisses
        exact hmisses.1.1.2
      rw [if_pos rfl]
      exact seedAndRetry_consistent cfg provider host callback (engine.fail .prefixIdentity) s
        input prefixCount capacity hconsistent hdigest hidle fun hvalid => hseed hvalid hmisses

theorem resetPrefixCacheV1_consistent (engine : Engine) (s : σ)
    (hconsistent : engine.identity.consistent = true) :
    (resetPrefixCacheV1 cfg provider host engine s).2.1.identity.consistent = true := by
  unfold resetPrefixCacheV1
  dsimp only
  split_ifs
  all_goals first
    | exact hconsistent
    | exact consistent_clear _ _

/-- A consistent record is never what a reset fails at. -/
theorem resetPrefixCacheV1_stage (engine : Engine) (s : σ)
    (hconsistent : engine.identity.consistent = true) :
    (resetPrefixCacheV1 cfg provider host engine s).2.1.failureStage ≠ .resetCoreIdentity := by
  have hprovider : ∀ text : String, FailureStage.ofProvider text .resetProviderContract ≠
      .resetCoreIdentity := fun text =>
    FailureStage.ofProvider_ne text _ _ FailureStage.noConfusion fun _ => FailureStage.noConfusion
  unfold resetPrefixCacheV1
  rw [hconsistent]
  dsimp only
  split_ifs
  all_goals first
    | exact FailureStage.noConfusion
    | exact hprovider _
    | exact absurd ‹_› Bool.false_ne_true

end Consistency

/-! ## Runs -/

/-- An operation on an engine, with what the system and the caller do during it. -/
inductive Operation where
  | request (host : Host) (callback : Callback) (input : List UInt32) (capacity : Nat)
  | stream (host : Host) (callback : Callback) (input : List UInt32) (capacity : Nat)
  | prefixRequest (host : Host) (callback : Callback) (input : List UInt32)
      (prefixCount capacity : Nat)
  | prefixStream (host : Host) (callback : Callback) (input : List UInt32)
      (prefixCount capacity : Nat)
  | prefixFallback (host : Host) (callback : Callback) (input : List UInt32)
      (prefixCount capacity : Nat)
  | reset (host : Host)

/-- The prompt an operation may prefill. -/
def Operation.prompt : Operation → Option (List UInt32)
  | request _ _ input _ => some input
  | stream _ _ input _ => some input
  | prefixRequest _ _ _ _ _ => none
  | prefixStream _ _ _ _ _ => none
  | prefixFallback _ _ input prefixCount _ => some (input.take prefixCount)
  | reset _ => none

section Runs

variable {σ : Type} (cfg : Config) (provider : Provider σ)

/-- One operation. -/
def step (state : Engine × σ) : Operation → Option (Engine × σ)
  | .request host callback input capacity =>
      some (requestTokens cfg provider host callback state.1 state.2 input capacity).2
  | .stream host callback input capacity =>
      some (requestTokensStreamV1 cfg provider host callback state.1 state.2 input capacity).2
  | .prefixRequest host callback input prefixCount capacity =>
      some (prefixV1 cfg provider host callback false state.1 state.2 input prefixCount capacity).2
  | .prefixStream host callback input prefixCount capacity =>
      some (prefixStreamV1 cfg provider host callback state.1 state.2 input prefixCount capacity).2
  | .prefixFallback host callback input prefixCount capacity =>
      some (prefixFallbackV1 cfg provider host callback state.1 state.2 input prefixCount
        capacity).2
  | .reset host => some (resetPrefixCacheV1 cfg provider host state.1 state.2).2

/-- The condition on a step: its prompt has a digest, and the seed of a fallback that misses
    over a valid identity gets as far as the provider. -/
def SeedReaches (state : Engine × σ) (operation : Operation) : Prop :=
  (∀ prompt, operation.prompt = some prompt → digest prompt ≠ 0) ∧
    ∀ host callback input prefixCount capacity,
      operation = .prefixFallback host callback input prefixCount capacity →
      state.1.identity.sessionValid = true →
      missesIdentity cfg false state.1 input prefixCount capacity = true →
      reachesProvider cfg host (input.take prefixCount) 1 = true

/-- One operation keeps the record consistent. -/
theorem step_consistent (state next : Engine × σ) (operation : Operation)
    (hconsistent : state.1.identity.consistent = true)
    (hok : SeedReaches cfg state operation)
    (hstep : step cfg provider state operation = some next) :
    next.1.identity.consistent = true := by
  rcases hok with ⟨hdigest, hseed⟩
  cases operation with
  | request host callback input capacity =>
      rw [← Option.some.inj hstep]
      exact requestTokens_consistent cfg provider host callback state.1 state.2 input capacity
        hconsistent (hdigest input rfl)
  | stream host callback input capacity =>
      rw [← Option.some.inj hstep, requestTokensStreamV1_eq]
      split_ifs
      · rw [(closeStream_state _ _).1]
        exact requestTokens_consistent cfg provider host callback _ state.2 input capacity
          hconsistent (hdigest input rfl)
      · exact hconsistent
  | prefixRequest host callback input prefixCount capacity =>
      rw [← Option.some.inj hstep]
      exact prefixV1_consistent cfg provider host callback false state.1 state.2 input prefixCount
        capacity hconsistent
  | prefixStream host callback input prefixCount capacity =>
      rw [← Option.some.inj hstep]
      rcases prefixStreamV1_identity cfg provider host callback state.1 state.2 input prefixCount
        capacity with hsame | ⟨hclear, -⟩
      · rw [hsame]
        exact hconsistent
      · rw [hclear]
        exact consistent_clear _ _
  -- The one operation that needs the condition.
  | prefixFallback host callback input prefixCount capacity =>
      rw [← Option.some.inj hstep]
      exact prefixFallbackV1_consistent cfg provider host callback state.1 state.2 input
        prefixCount capacity hconsistent (hdigest _ rfl)
        (hseed host callback input prefixCount capacity rfl)
  | reset host =>
      rw [← Option.some.inj hstep]
      exact resetPrefixCacheV1_consistent cfg provider host state.1 state.2 hconsistent

/-- In every run whose steps meet the condition the record is consistent in every state, and no
    reset fails at it. -/
theorem reachable_consistent (state : Engine × σ)
    (h : Run.Reachable (step cfg provider) (SeedReaches cfg)
      (fun start => start.1 = Engine.loaded) state) :
    (state.1.identity.sessionValid = true →
      state.1.identity.tokens.cells ≠ [] ∧ 0 < state.1.identity.tokens.count ∧
      state.1.identity.tokens.count ≤ 2 ^ 32 - 1 ∧ state.1.identity.sessionGeneration ≠ 0 ∧
      state.1.identity.promptDigest ≠ 0) ∧
    (state.1.identity.sessionValid = false →
      state.1.identity.tokens.count = 0 ∧ state.1.identity.sessionGeneration = 0 ∧
      state.1.identity.promptDigest = 0) ∧
    ∀ host, (resetPrefixCacheV1 cfg provider host state.1 state.2).2.1.failureStage ≠
      .resetCoreIdentity := by
  have hconsistent : state.1.identity.consistent = true := by
    refine h.invariant (fun state => state.1.identity.consistent = true) ?_ ?_
    · intro start hstart
      rw [hstart]
      rfl
    · intro state operation next hconsistent hok hstep
      exact step_consistent cfg provider state next operation hconsistent hok hstep
  refine ⟨fun hvalid => ?_, fun hvalid => ?_, fun host =>
    resetPrefixCacheV1_stage cfg provider host state.1 state.2 hconsistent⟩
  · unfold Identity.consistent at hconsistent
    rw [hvalid, if_pos rfl] at hconsistent
    simp only [Bool.and_eq_true, bne_iff_ne, decide_eq_true_eq] at hconsistent
    rcases hconsistent with ⟨⟨⟨⟨hcells, hcount⟩, hlarge⟩, hgeneration⟩, hdigest⟩
    exact ⟨hcells, Nat.pos_of_ne_zero hcount, hlarge, hgeneration, hdigest⟩
  · unfold Identity.consistent at hconsistent
    rw [hvalid, if_neg Bool.false_ne_true] at hconsistent
    simp only [Bool.and_eq_true, beq_iff_eq] at hconsistent
    exact ⟨hconsistent.1.1, hconsistent.1.2, hconsistent.2⟩

end Runs

/-! ## A run that breaks the record -/

/-- An engine for prompts of up to four tokens. -/
def smallConfig : Config :=
  { ready := true, providerRequested := true, contextTokens := 4, arbitraryContext := true
    q16384ColdProbe := false, q32768ColdProbe := false, q65536ColdProbe := false
    q131072ColdProbe := false, endpointBoundary := false, earlyPrefillStream := false
    ignoreEos := true }

/-- A system on which nothing fails. -/
def Host.sound : Host :=
  { prefillLoads := true, decodeExported := true, prefixLoads := true, resetLoads := true
    tokenCopyGrows := true }

/-- A callback that never cancels. -/
def goesOn : Callback := fun _ => true

/-- A request that was recorded, and then a fallback over it whose seed is recorded in its place. -/
theorem recordedRequest_consistent :
    let provider := Resident.provider (Resident.serving 7)
    let recorded := (requestTokens smallConfig provider Host.sound goesOn Engine.loaded
      Resident.ProviderState.initial [1, 2] 1).2
    let state := (prefixFallbackV1 smallConfig provider Host.sound goesOn recorded.1 recorded.2
      [1, 3, 5] 2 1).2
    recorded.1.identity.tokens.contents = [1, 2] ∧ state.1.identity.tokens.contents = [1, 3] ∧
      state.1.identity.sessionValid = true ∧ 0 < state.1.identity.tokens.count := by
  intro provider recorded state
  have hvalid : state.1.identity.sessionValid = true := by decide +kernel
  have hdigest : digest [1, 2] ≠ 0 := by decide +kernel
  have hseedDigest : digest [1, 3] ≠ 0 := by decide +kernel
  have hreachable : Run.Reachable (step smallConfig provider) (SeedReaches smallConfig)
      (fun start => start.1 = Engine.loaded) state := by
    refine ⟨(Engine.loaded, Resident.ProviderState.initial), rfl,
      .tail recorded _ (.prefixFallback Host.sound goesOn [1, 3, 5] 2 1)
        (.tail _ _ (.request Host.sound goesOn [1, 2] 1) .refl ⟨?_, ?_⟩ rfl) ⟨?_, ?_⟩ rfl⟩
    · intro prompt hprompt
      rw [← Option.some.inj hprompt]
      exact hdigest
    · intro host callback input prefixCount capacity hoperation
      exact Operation.noConfusion hoperation
    · intro prompt hprompt
      rw [← Option.some.inj hprompt]
      exact hseedDigest
    -- The fallback misses over a valid identity, and its seed gets as far as the provider.
    · intro host callback input prefixCount capacity hoperation _ _
      cases hoperation
      decide +kernel
  exact ⟨by decide +kernel, by decide +kernel, hvalid,
    ((reachable_consistent smallConfig provider state hreachable).1 hvalid).2.1⟩

/-- A recorded request, and then a fallback whose prefix is longer than the context. Its seed
    fails at the shape, before the provider, and the count of the record stays behind. -/
theorem seedAtLimit_inconsistent :
    let provider := Resident.provider (Resident.serving 7)
    ∃ state, Run.Reachable (step smallConfig provider)
        (fun _ operation => ∀ prompt, operation.prompt = some prompt → digest prompt ≠ 0)
        (fun start => start.1 = Engine.loaded) state ∧
      state.1.identity.sessionValid = false ∧ state.1.identity.tokens.count = 2 ∧
      (resetPrefixCacheV1 smallConfig provider Host.sound state.1 state.2).2.1.failureStage =
        .resetCoreIdentity := by
  intro provider
  refine ⟨_, ⟨(Engine.loaded, Resident.ProviderState.initial), rfl,
    .tail _ _ (.prefixFallback Host.sound goesOn [1, 2, 3, 4, 5, 6] 5 1)
      (.tail _ _ (.request Host.sound goesOn [1, 2] 1) .refl ?_ rfl) ?_ rfl⟩, ?_, ?_, ?_⟩
  · intro prompt hprompt
    rw [← Option.some.inj hprompt]
    decide +kernel
  · intro prompt hprompt
    rw [← Option.some.inj hprompt]
    decide +kernel
  · decide +kernel
  · decide +kernel
  · decide +kernel

end Core

end QrtEngine
