import QrtEngine.Provider.Capture

/-!
# The Exact Verifier

A token can be verified by an ordinary prefill of the whole prompt. The prefill runs with a private
session in the place of the session of the process, and with capturing switched off, so that it
should leave no trace.

It leaves one. A prefill that captures nothing still releases the session it finds. The private
session is empty, but a release also releases the second branch and the cache of the suffix, and
these belong to the process and not to a session. The cache survives only if it is not valid and
the device can free nothing of it. The session of the process, the clock and the telemetry are left
as they were.

## Main definitions

* `runVerifier`: The verifier.
* `exactFirstToken`: A request for one verified token.
* `Isolated`: A request leaves everything that the process keeps.
* `State.Unreleased`: A release would find nothing to take.

## Theorems

* `verifierPrefill_beside`: What the prefill of a verifier does to the process.
* `verifier_isolated_iff`: When a verifier leaves everything.
-/

namespace QrtEngine

namespace Process

open QrtEngine.Core

/-! ## The verifier -/

/-- Prompts of this length and more are prefilled in another shape. -/
def retainedPrefillTokens : Nat := 8192

/-- What is to be verified. -/
structure VerifierRequest where
  inputTokens : List UInt32
  expectedInputTokenIdsFnv1a64 : UInt64
  forcedInputTokenCount : Nat
deriving DecidableEq, Repr

/-- What the environment and the device do while a verifier runs. The reply is that of the
    prefill. -/
structure VerifierRun where
  paddedPrefillVerify : Bool
  prefill : PrefillRun
  raises : Bool
  synchronized : Bool
  reply : PrefillReply

/-- The length that a prompt is padded to, or zero. -/
def paddedInputTokenCount (run : VerifierRun) (request : VerifierRequest) : Nat :=
  if request.forcedInputTokenCount == 0 && run.paddedPrefillVerify &&
      decide (request.inputTokens.length < retainedPrefillTokens) then
    retainedPrefillTokens
  else request.forcedInputTokenCount

/-- The prompt with its padding. -/
def verifierInput (run : VerifierRun) (request : VerifierRequest) : List UInt32 :=
  request.inputTokens ++
    List.replicate (paddedInputTokenCount run request - request.inputTokens.length) 0

/-- There is a prompt, and a session says which model it is for. -/
def verifierRequestValid (request : VerifierRequest) (session : Session) : Bool :=
  !request.inputTokens.isEmpty && request.expectedInputTokenIdsFnv1a64 != 0 &&
    session.ownerEngine.isSome && session.modelDir != ""

/-- The prompt is padded to something longer that the model can take. -/
def verifierPaddingValid (run : VerifierRun) (request : VerifierRequest) : Bool :=
  let padded := paddedInputTokenCount run request
  padded == 0 ||
    (decide (request.inputTokens.length < padded) && decide (padded ≤ maxPositionEmbeddings))

/-- The prefill that a verifier runs. While a verifier is active nothing is captured. -/
def verifierPrefill (run : VerifierRun) (request : VerifierRequest) (session : Session) :
    PrefillRun :=
  { run.prefill with
    request :=
      { requested := false
        routeActive := run.prefill.request.routeActive
        prefixTokens := (verifierInput run request).length
        ownerEngine := session.ownerEngine
        modelDir := session.modelDir } }

/-- The token that a prefill has verified, or where it has failed. -/
def verifiedToken (run : VerifierRun) (request : VerifierRequest) : Except String UInt32 :=
  let reply := run.reply
  if run.raises then .error "qwen36_exact_low_margin_prefill_verifier_exception"
  else
    match reply.outputTokens with
    | [token] =>
        if reply.ok && run.synchronized && reply.completed && decide (token < vocabSize) &&
            reply.promptDigest == digest (verifierInput run request) &&
            reply.providedSurfaces &&& requiredSurfaces == requiredSurfaces then
          .ok token
        else failed reply
    | _ => failed reply
where
  /-- Where a prefill has failed. -/
  failed (reply : PrefillReply) : Except String UInt32 :=
    .error
      (if reply.failureStage != "" then reply.failureStage
      else if !run.synchronized then "qwen36_exact_low_margin_prefill_verifier_sync"
      else "qwen36_exact_low_margin_prefill_verifier")

/-- Run the verifier: a prefill on a private session, in the place of the active one. -/
def runVerifier (run : VerifierRun) (request : VerifierRequest) (state : State) :
    Except String UInt32 × State :=
  if !verifierRequestValid request state.session then
    (.error "qwen36_exact_low_margin_prefill_verifier_request", state)
  else if !verifierPaddingValid run request then
    (.error "qwen36_exact_low_margin_prefill_verifier_padding", state)
  else
    let verified := prefill (verifierPrefill run request state.session)
      { state with session := Session.empty }
    (verifiedToken run request, { verified with session := state.session })

/-! ## A verified token -/

/-- A request for one verified token. -/
structure ExactFirstTokenRequest where
  inputTokens : List UInt32
  expectedInputTokenIdsFnv1a64 : UInt64
  residentEngine : Option Nat
deriving DecidableEq, Repr

/-- The request has an engine and a prompt of the right length. -/
def exactRequestValid (request : ExactFirstTokenRequest) : Bool :=
  request.residentEngine.isSome && !request.inputTokens.isEmpty &&
    decide (request.inputTokens.length < retainedPrefillTokens) &&
    request.expectedInputTokenIdsFnv1a64 != 0

/-- The session that only says which model a prompt is for. -/
def bindingSession (modelDir : String) (request : ExactFirstTokenRequest) : Session :=
  { Session.empty with
    valid := true
    ownerEngine := request.residentEngine
    modelDir := modelDir }

/-- What the verifier is asked for one verified token. -/
def ExactFirstTokenRequest.verifier (request : ExactFirstTokenRequest) : VerifierRequest :=
  { inputTokens := request.inputTokens
    expectedInputTokenIdsFnv1a64 := digest request.inputTokens
    forcedInputTokenCount := 0 }

/-- A request for one verified token. The verifier runs while a session that only binds the model is
    active. -/
def exactFirstToken (modelDir : Option String) (run : VerifierRun)
    (request : ExactFirstTokenRequest) (state : State) : Except String UInt32 × State :=
  if !exactRequestValid request then (.error "qwen36_exact_first_token_request", state)
  else if digest request.inputTokens != request.expectedInputTokenIdsFnv1a64 then
    (.error "qwen36_exact_first_token_identity", state)
  else
    match modelDir with
    | none => (.error "qwen36_exact_first_token_model", state)
    | some modelDir =>
        if modelDir == "" then (.error "qwen36_exact_first_token_model", state)
        else
          let verified := runVerifier run request.verifier
            { state with session := bindingSession modelDir request }
          let answer :=
            match verified.1 with
            | .ok token =>
                if (verifierInput run request.verifier).length == request.inputTokens.length then
                  .ok token
                else .error "qwen36_exact_first_token_verifier"
            | .error stage => .error stage
          (answer, { verified.2 with session := state.session })

/-! ## Isolation -/

/-- A request leaves everything that the process keeps. -/
structure Isolated (before after : State) : Prop where
  session : after.session = before.session
  dual : after.dual = before.dual
  suffixCache : after.suffixCache = before.suffixCache
  generationClock : after.generationClock = before.generationClock
  telemetry : after.telemetry = before.telemetry

theorem Isolated.refl (state : State) : Isolated state state := ⟨rfl, rfl, rfl, rfl, rfl⟩

/-- The cache is not valid, and none of the allocations it has can be freed. -/
structure SuffixCacheState.Stuck (free : Nat → Bool) (cache : SuffixCacheState) : Prop where
  invalid : cache.valid = false
  owned : cache.owned ≠ []
  linear : ∀ layer pointer, cache.linearAllocations layer = some pointer → free pointer = false
  tail : ∀ layer pointer, cache.fullAttentionTailAllocations layer = some pointer →
    free pointer = false

/-- Nothing beside the session would change if it were released: there is no second branch, and
    the cache is empty or stuck. -/
def State.Unreleased (free : Nat → Bool) (state : State) : Prop :=
  state.dual = DualAttentionState.empty ∧
    (state.suffixCache = SuffixCacheState.empty ∨ state.suffixCache.Stuck free)

/-- A place keeps its allocation if it has none or cannot free it. -/
theorem unfreed_eq_self_iff (free : Nat → Bool) (allocation : Option Nat) :
    unfreed free allocation = allocation ↔
      ∀ pointer, allocation = some pointer → free pointer = false := by
  cases allocation with
  | none => simp [unfreed]
  | some pointer =>
      cases hfree : free pointer <;> simp [unfreed, hfree]

/-- A cache stays what it is when it is empty or stuck, and not otherwise. -/
theorem released_eq_self_iff (free : Nat → Bool) (cache : SuffixCacheState) :
    cache.released free = cache ↔ cache = SuffixCacheState.empty ∨ cache.Stuck free := by
  unfold SuffixCacheState.released
  by_cases hall : cache.owned.all free = true
  · rw [if_pos hall]
    refine ⟨fun h => Or.inl h.symm, ?_⟩
    rintro (hempty | hstuck)
    · exact hempty.symm
    -- A stuck cache has an allocation, and that one cannot be freed.
    · rcases List.exists_mem_of_ne_nil _ hstuck.owned with ⟨pointer, hpointer⟩
      have hfreed := List.all_eq_true.mp hall pointer hpointer
      unfold SuffixCacheState.owned pointersOf at hpointer
      simp only [List.mem_append, List.mem_flatMap, Option.mem_toList] at hpointer
      rcases hpointer with ⟨layer, _, hplace⟩ | ⟨layer, _, hplace⟩
      · rw [hstuck.linear layer pointer hplace] at hfreed
        exact absurd hfreed Bool.false_ne_true
      · rw [hstuck.tail layer pointer hplace] at hfreed
        exact absurd hfreed Bool.false_ne_true
  · rw [if_neg hall]
    constructor
    · intro h
      have hvalid : false = cache.valid := congrArg SuffixCacheState.valid h
      refine Or.inr ⟨hvalid.symm, ?_, ?_, ?_⟩
      · intro hnil
        rw [hnil] at hall
        exact hall rfl
      · exact fun layer => (unfreed_eq_self_iff free _).mp
          (congrFun (congrArg SuffixCacheState.linearAllocations h) layer)
      · exact fun layer => (unfreed_eq_self_iff free _).mp
          (congrFun (congrArg SuffixCacheState.fullAttentionTailAllocations h) layer)
    · rintro (hempty | hstuck)
      · rw [hempty] at hall
        exact absurd rfl hall
      · have hlinear : (fun layer => unfreed free (cache.linearAllocations layer)) =
            cache.linearAllocations :=
          funext fun layer => (unfreed_eq_self_iff free _).mpr (hstuck.linear layer)
        have htail : (fun layer => unfreed free (cache.fullAttentionTailAllocations layer)) =
            cache.fullAttentionTailAllocations :=
          funext fun layer => (unfreed_eq_self_iff free _).mpr (hstuck.tail layer)
        rw [hlinear, htail, ← hstuck.invalid]

/-- The verifier gets as far as the capture of its prefill. -/
def verifierCaptures (run : VerifierRun) (request : VerifierRequest) (session : Session) : Bool :=
  verifierRequestValid request session && verifierPaddingValid run request && run.prefill.captures

/-- The request for a verified token gets as far as the capture. -/
def exactCaptures (modelDir : Option String) (run : VerifierRun)
    (request : ExactFirstTokenRequest) : Bool :=
  exactRequestValid request &&
    digest request.inputTokens == request.expectedInputTokenIdsFnv1a64 &&
    match modelDir with
    | none => false
    | some modelDir => modelDir != "" &&
        verifierCaptures run request.verifier (bindingSession modelDir request)

/-- What a request that may get to a capture does to a process. -/
def Retires (captures : Bool) (free : Nat → Bool) (before after : State) : Prop :=
  (captures = false ∧ Isolated before after) ∨
    (captures = true ∧ after.session = before.session ∧
      after.dual = DualAttentionState.empty ∧
      after.suffixCache = before.suffixCache.released free ∧
      after.generationClock = before.generationClock ∧ after.telemetry = before.telemetry)

theorem Retires.isolated_iff {captures : Bool} {free : Nat → Bool} {before after : State}
    (h : Retires captures free before after) :
    Isolated before after ↔ (captures = true → before.Unreleased free) := by
  rcases h with ⟨hcaptures, hisolated⟩ | ⟨hcaptures, hsession, hdual, hsuffix, hclock, htelemetry⟩
  · simp [hcaptures, hisolated]
  · constructor
    · intro hisolated _
      exact ⟨hisolated.dual.symm.trans hdual,
        (released_eq_self_iff free _).mp (hsuffix.symm.trans hisolated.suffixCache)⟩
    · intro hbefore
      rcases hbefore hcaptures with ⟨hempty, hkept⟩
      exact ⟨hsession, hdual.trans hempty.symm,
        hsuffix.trans ((released_eq_self_iff free _).mpr hkept), hclock, htelemetry⟩

section Verifier

variable (run : VerifierRun) (request : VerifierRequest) (state : State)

/-- What the prefill of a verifier does to the process: once it gets to its capture, the second
    branch is gone and the cache of the suffix is released, and everything else is left. -/
theorem verifierPrefill_beside (hcaptures : run.prefill.captures = true) (session : Session) :
    let verified := prefill (verifierPrefill run request session)
      { state with session := Session.empty }
    verified.dual = DualAttentionState.empty ∧
      verified.suffixCache = state.suffixCache.released run.prefill.release.free ∧
      verified.telemetry = state.telemetry ∧
      verified.generationClock = state.generationClock := by
  intro verified
  have hverified : verified = (releaseSession run.prefill.release
      { state with session := Session.empty }).2 :=
    prefill_unrequested (verifierPrefill run request session)
      { state with session := Session.empty } hcaptures rfl
  rw [hverified]
  exact releaseSession_beside run.prefill.release { state with session := Session.empty }

/-- What a verifier does to a process: nothing before its capture, and after it what is beside the
    session is released. -/
theorem runVerifier_retires :
    Retires (verifierCaptures run request state.session) run.prefill.release.free state
      (runVerifier run request state).2 := by
  unfold verifierCaptures runVerifier
  cases hrequest : verifierRequestValid request state.session with
  | false => exact Or.inl ⟨rfl, Isolated.refl state⟩
  | true =>
      cases hpadding : verifierPaddingValid run request with
      | false => exact Or.inl ⟨rfl, Isolated.refl state⟩
      | true =>
          cases hcaptures : run.prefill.captures with
          | false =>
              -- The prefill fails before its capture and touches nothing.
              have hverified : prefill (verifierPrefill run request state.session)
                  { state with session := Session.empty } =
                  { state with session := Session.empty } :=
                if_pos (by change (!run.prefill.captures) = true; rw [hcaptures]; rfl)
              refine Or.inl ⟨rfl, ?_⟩
              dsimp only [Bool.not_true]
              rw [hverified]
              exact Isolated.refl state
          | true =>
              rcases verifierPrefill_beside run request state hcaptures state.session with
                ⟨hdual, hsuffix, htelemetry, hclock⟩
              exact Or.inr ⟨rfl, rfl, hdual, hsuffix, hclock, htelemetry⟩

/-- A request for one verified token does to a process what its verifier does. -/
theorem exactFirstToken_retires (modelDir : Option String) (exact : ExactFirstTokenRequest) :
    Retires (exactCaptures modelDir run exact) run.prefill.release.free state
      (exactFirstToken modelDir run exact state).2 := by
  unfold exactCaptures exactFirstToken
  cases hrequest : exactRequestValid exact with
  | false => exact Or.inl ⟨rfl, Isolated.refl state⟩
  | true =>
      by_cases hdigest : digest exact.inputTokens = exact.expectedInputTokenIdsFnv1a64
      · rw [if_neg (by simp), if_neg (by simp [hdigest]), beq_iff_eq.mpr hdigest]
        cases modelDir with
        | none => exact Or.inl ⟨rfl, Isolated.refl state⟩
        | some modelDir =>
            by_cases hdir : modelDir = ""
            · simp only [hdir]
              exact Or.inl ⟨rfl, Isolated.refl state⟩
            · have hverifier := runVerifier_retires run exact.verifier
                { state with session := bindingSession modelDir exact }
              dsimp only
              rw [if_neg (by simpa using hdir), bne_iff_ne.mpr hdir]
              -- The verifier ran on the binding session, and that is taken back too.
              rcases hverifier with ⟨hcaptures, hisolated⟩ | ⟨hcaptures, _, hrest⟩
              · exact Or.inl ⟨hcaptures, rfl, hisolated.dual, hisolated.suffixCache,
                  hisolated.generationClock, hisolated.telemetry⟩
              · exact Or.inr ⟨hcaptures, rfl, hrest⟩
      · rw [if_neg (by simp), if_pos (by simpa using hdigest), beq_eq_false_iff_ne.mpr hdigest]
        exact Or.inl ⟨rfl, Isolated.refl state⟩

/-- A verifier leaves everything exactly if there is nothing beside the session that its release
    would change, or if it does not get to its capture. The same holds of a request for one verified
    token. -/
theorem verifier_isolated_iff (modelDir : Option String) (exact : ExactFirstTokenRequest) :
    (Isolated state (runVerifier run request state).2 ↔
        (verifierCaptures run request state.session = true →
          state.Unreleased run.prefill.release.free)) ∧
      (Isolated state (exactFirstToken modelDir run exact state).2 ↔
        (exactCaptures modelDir run exact = true →
          state.Unreleased run.prefill.release.free)) :=
  ⟨(runVerifier_retires run request state).isolated_iff,
    (exactFirstToken_retires run state modelDir exact).isolated_iff⟩

end Verifier

/-! ## A second branch -/

/-- A session with a second branch, between two decodes. -/
def branchedState : State :=
  { State.initial with
    session := { Session.empty with
      valid := true
      providerCompleted := true
      ownerEngine := some 7
      modelDir := "model"
      generation := 1
      promptTokenIdsFnv1a64 := digest [1] }
    dual := { DualAttentionState.empty with
      linearAllocations := fun layer => if layer = 0 then some 0 else none
      sessionGeneration := 1
      promptTokenIdsFnv1a64 := digest [1]
      allocationBytes := 4096
      valid := true
      bytes_counted := fun h => absurd h (by decide) }
    generationClock := 1
    heap := { allocated := 1, freed := [] } }

/-- A verifier whose prefill gets to its capture and succeeds. -/
def verifying : VerifierRun :=
  { paddedPrefillVerify := false
    prefill :=
      { captures := true
        request := { requested := false, routeActive := true, prefixTokens := 0
                     ownerEngine := none, modelDir := "" }
        release := ReleaseOutcome.healthy
        releaseElapsedNs := 0
        layers :=
          { linearLayers := fun _ => Layered.LinearLayer.empty
            fullAttentionLayers := fun _ => Layered.FullLayer.empty
            linearCapturedMask := 0
            fullAttentionCapturedMask := 0
            linearRecurrentStateBytes := 0
            linearQkvRingBytes := 0
            fullAttentionKvBytes := 0
            fullAttentionDecodeTailBytes := 0
            captureFailureCount := 0
            heap := Heap.empty }
        ending := none
        endRelease := ReleaseOutcome.healthy
        firstToken := none }
    raises := false
    synchronized := true
    reply := Resident.servePrefill 5
      { input := [1, 2], outputTokenCapacity := 1, arbitrary := true, endpointBoundary := false
        emits := false } }

/-- A verified token costs the session its second branch. -/
theorem exactFirstToken_retiresBranch :
    ¬ ∀ (modelDir : Option String) (run : VerifierRun) (request : VerifierRequest)
      (exact : ExactFirstTokenRequest) (state : State),
      Isolated state (runVerifier run request state).2 ∧
        Isolated state (exactFirstToken modelDir run exact state).2 := by
  intro h
  have hisolated := h (some "model") verifying
    { inputTokens := [1, 2], expectedInputTokenIdsFnv1a64 := digest [1, 2]
      forcedInputTokenCount := 0 }
    { inputTokens := [1, 2], expectedInputTokenIdsFnv1a64 := digest [1, 2]
      residentEngine := some 7 }
    branchedState
  exact absurd (congrArg DualAttentionState.valid hisolated.2.dual) (by decide +kernel)

end Process

end QrtEngine
