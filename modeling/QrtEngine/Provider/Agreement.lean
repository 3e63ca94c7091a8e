import QrtEngine.Core.IdentityRecord

/-!
# The Core and the Provider on the Cached Session

The core's record names the session that the provider owns, and a reset goes through only if the
two agree. They agree in every run whose operations keep to a condition, and the condition names
the exits on which one side changes and the other does not:

* A prefill that fails before the capture leaves the old session, and the core has cleared its
  record already.
* A session that was captured is not recorded: the reply breaks a contract, or the copy of the
  tokens does not fit.
* A decode commits tokens to the session that was just recorded, or fails and invalidates it.
* A prefix request fails without having restored the session, and the core clears its record of
  a session that is still there.

## Main definitions

* `Agrees`: What the two sides have to agree on.
* `decodes`: A request gets as far as the first decode.
* `PrefillKept`, `PrefixKept`, `Kept`: The condition on a step.

## Theorems

* `requestTokens_state`: What an ordinary request does to the provider.
* `requestTokens_agreement`: One ordinary request keeps the agreement.
* `step_agreement`: One operation keeps the agreement.
* `reachable_agrees`: The two sides agree in every run, and every reset goes through.
* `recordedRequest_agrees`: A run it holds in.
* `decodedRequest_disagrees`: A run that breaks it.
-/

namespace QrtEngine

namespace Resident

open QrtEngine.Core

/-! ## What a request does to the provider -/

section States

variable {σ : Type} (cfg : Config) (provider : Provider σ) (host : Host) (callback : Callback)

/-- A request gets as far as the first decode. -/
def decodes (engine : Engine) (s : σ) (input : List UInt32) (capacity : Nat) : Bool :=
  let request := prefillRequest cfg engine input capacity
  let called := prefill provider callback engine s request
  accepted cfg provider callback engine s input capacity &&
    (request.emits ||
      (emit callback called.2.1.stream .prefill 0 (called.1.outputTokens.headD 0)).1) &&
    decide (1 < capacity) && retainsSession input called.1 && host.decodeExported

/-- A request that does not decode leaves the provider as its prefill has. -/
theorem requestTokens_state (engine : Engine) (s : σ) (input : List UInt32) (capacity : Nat)
    (hreaches : reachesProvider cfg host input capacity = true)
    (hdecodes : decodes cfg provider host callback (engine.fail .none) s input capacity = false) :
    (requestTokens cfg provider host callback engine s input capacity).2.2 =
      (provider.prefillV1 s (prefillRequest cfg (engine.fail .none) input capacity)).2 := by
  have hcases := requestTokens_cases cfg provider host callback engine s input capacity hreaches
  dsimp only at hcases
  have hcalled : (prefill provider callback (engine.fail .none) s
      (prefillRequest cfg (engine.fail .none) input capacity)).2.2 =
      (provider.prefillV1 s (prefillRequest cfg (engine.fail .none) input capacity)).2 := rfl
  rw [← hcalled]
  rcases hcases with ⟨haccepted, hresult⟩ | ⟨-, stage, hresult⟩
  · rw [hresult]
    unfold decodes at hdecodes
    dsimp only at hdecodes
    rw [haccepted, Bool.true_and] at hdecodes
    generalize prefillRequest cfg (engine.fail .none) input capacity = request at hdecodes ⊢
    generalize prefill provider callback (engine.fail .none) s request = called at hdecodes ⊢
    unfold finishRequest
    dsimp only
    -- Every exit but the last hands on the state of the prefill.
    split_ifs with hemit hrefused hmany hretains
    all_goals try rfl
    all_goals
      exfalso
      simp only [Bool.not_eq_true', Bool.not_eq_false, Bool.or_eq_true, not_or] at *
      simp only [*, Bool.and_true, Bool.or_true, Bool.true_or, decide_true,
        Bool.true_eq_false] at hdecodes
  · rw [hresult]

/-- What a request records when the reply to its prefill has passed the contracts. -/
theorem requestTokens_record (engine : Engine) (s : σ) (input : List UInt32) (capacity : Nat)
    (hreaches : reachesProvider cfg host input capacity = true)
    (haccepted : accepted cfg provider callback (engine.fail .none) s input capacity = true) :
    (requestTokens cfg provider host callback engine s input capacity).2.1.identity =
      (engine.identity.clear false).record host.tokenCopyGrows input
        (provider.prefillV1 s (prefillRequest cfg (engine.fail .none) input capacity)).1 := by
  rcases requestTokens_cases cfg provider host callback engine s input capacity hreaches with
    ⟨-, hresult⟩ | ⟨hrejected, -⟩
  · rw [hresult, finishRequest_identity]
    rfl
  · exact Bool.noConfusion (hrejected.symm.trans haccepted)

/-- A record takes the generation of the reply. -/
theorem record_sessionGeneration (identity : Identity) (grows : Bool) (input : List UInt32)
    (reply : PrefillReply) (hrecorded : (identity.record grows input reply).sessionValid = true)
    (hclear : identity.sessionValid = false) :
    (identity.record grows input reply).sessionGeneration = reply.sessionGeneration := by
  unfold Identity.record at hrecorded ⊢
  by_cases hretains : retainsSession input reply = true
  · rw [if_pos hretains] at hrecorded ⊢
    cases hput : identity.tokens.put grows input with
    | none =>
        rw [hput] at hrecorded
        exact Bool.noConfusion (hclear.symm.trans hrecorded)
    | some tokens =>
        rw [hput] at hrecorded
        dsimp only at hrecorded ⊢
        by_cases hcells : tokens.cells = []
        · rw [if_pos hcells] at hrecorded
          exact Bool.noConfusion (hclear.symm.trans hrecorded)
        · rw [if_neg hcells]
  · rw [if_neg hretains] at hrecorded
    exact Bool.noConfusion (hclear.symm.trans hrecorded)

/-- The record that a request has made has its generation from the reply to the prefill. -/
theorem requestTokens_sessionGeneration (engine : Engine) (s : σ) (input : List UInt32)
    (capacity : Nat) (hreaches : reachesProvider cfg host input capacity = true)
    (haccepted : accepted cfg provider callback (engine.fail .none) s input capacity = true)
    (hvalid : (requestTokens cfg provider host callback engine s input
      capacity).2.1.identity.sessionValid = true) :
    (requestTokens cfg provider host callback engine s input
        capacity).2.1.identity.sessionGeneration =
      (provider.prefillV1 s
        (prefillRequest cfg (engine.fail .none) input capacity)).1.sessionGeneration := by
  have hrecord := requestTokens_record cfg provider host callback engine s input capacity hreaches
    haccepted
  rw [hrecord] at hvalid ⊢
  exact record_sessionGeneration _ _ input _ hvalid rfl

/-- What a prefix request does to both sides: nothing, unless it gets as far as the provider, and
    the record is cleared only if the provider has not restored its state. -/
theorem prefixV1_state (streams : Bool) (engine : Engine) (s : σ) (input : List UInt32)
    (prefixCount capacity : Nat) :
    let result := Core.prefixV1 cfg provider host callback streams engine s input prefixCount
      capacity
    let called := provider.prefixV1 s (prefixCall cfg streams engine input prefixCount capacity)
    (prefixReaches cfg host streams engine input prefixCount capacity = false ∧
      result.2.1.identity = engine.identity ∧ result.2.2 = s) ∨
    (prefixReaches cfg host streams engine input prefixCount capacity = true ∧
      (result.2.1.identity = engine.identity ∨ called.1.stateRestored = false) ∧
      result.2.2 = called.2) := by
  have hexit := prefixV1_exit cfg provider host callback streams engine s input prefixCount
    capacity
  dsimp only
  generalize Core.prefixV1 cfg provider host callback streams engine s input prefixCount capacity =
    result at hexit ⊢
  cases hexit with
  | missed _ hreaches => exact .inl ⟨hreaches, rfl, rfl⟩
  | refused _ _ _ _ _ hreaches => exact .inl ⟨hreaches, rfl, rfl⟩
  | failed _ identity _ hidentity _ hreaches =>
      exact .inr ⟨hreaches, hidentity.imp id And.left, rfl⟩
  | answered _ _ hreaches => exact .inr ⟨hreaches, .inl rfl, rfl⟩

end States

/-! ## Agreement -/

/-- What the two sides have to agree on: the session that the record names is there, untouched,
    and without a record there is none. -/
structure Agrees (identity : Identity) (session : Session) : Prop where
  live : identity.sessionValid = true →
    session.valid = true ∧ session.providerCompleted = true ∧ session.owned = true ∧
    session.prefixTokens = identity.tokens.count ∧
    session.generation = identity.sessionGeneration ∧
    session.promptDigest = identity.promptDigest ∧ session.committedDecodeTokenCount = 0
  released : identity.sessionValid = false → session.isEmpty = true

/-- The agreement with what a reset needs besides: a consistent record, of a length that the
    provider keeps sessions of, and a session that owns memory. -/
structure Agreement (identity : Identity) (session : Session) : Prop where
  consistent : identity.consistent = true
  agrees : Agrees identity session
  supported : identity.sessionValid = true → identity.tokens.count ≤ maxPositionEmbeddings
  owns : identity.sessionValid = true → 0 < session.ownedBytes

/-- Without a record and without a session the two sides agree. -/
theorem agreement_clear (identity : Identity) (release : Bool) (session : Session)
    (h : session.isEmpty = true) : Agreement (identity.clear release) session :=
  { consistent := consistent_clear identity release
    agrees := ⟨fun hvalid => Bool.noConfusion hvalid, fun _ => h⟩
    supported := fun hvalid => Bool.noConfusion hvalid
    owns := fun hvalid => Bool.noConfusion hvalid }

section Steps

variable (cfg : Config) (script : Script) (host : Host) (callback : Callback)

/-- The condition on the prefill of a request. -/
structure PrefillKept (engine : Engine) (s : ProviderState) (input : List UInt32)
    (capacity : Nat) : Prop where
  hashed : digest input ≠ 0
  captures : (script.prefill s.calls (prefillRequest cfg engine input capacity)).captures = true ∨
    s.session.isEmpty = true
  recorded :
    (script.prefill s.calls (prefillRequest cfg engine input capacity)).captures = true →
    script.residentSession = true →
    (script.prefill s.calls (prefillRequest cfg engine input capacity)).finalizes = true →
    retained cfg (provider script) host callback engine s input capacity = true
  undecoded : decodes cfg (provider script) host callback engine s input capacity = false

/-- The failure stage of an engine does not matter to the condition. -/
theorem PrefillKept.fail (engine : Engine) (stage : FailureStage) (s : ProviderState)
    (input : List UInt32) (capacity : Nat)
    (h : PrefillKept cfg script host callback engine s input capacity) :
    PrefillKept cfg script host callback (engine.fail stage) s input capacity :=
  ⟨h.hashed, h.captures, h.recorded, h.undecoded⟩

/-- The condition on a prefix request: the device restores the session. -/
def PrefixKept (streams : Bool) (engine : Engine) (s : ProviderState) (input : List UInt32)
    (prefixCount capacity : Nat) : Prop :=
  prefixReaches cfg host streams engine input prefixCount capacity = true →
    (script.continueFrom s.calls (prefixCall cfg streams engine input prefixCount
      capacity)).reply.stateRestored = true

/-- A prefill that fails before the capture says so. -/
theorem prefillV1_of_not_captures (s : ProviderState) (request : PrefillRequest)
    (h : (script.prefill s.calls request).captures = false) :
    (prefillV1 script s request).1.ok = false ∧
      (prefillV1 script s request).2.session = s.session := by
  unfold prefillV1
  dsimp only
  rw [h]
  exact ⟨rfl, rfl⟩

/-- A prefill that gets as far as the capture answers with the session it leaves behind. -/
theorem prefillV1_of_captures (s : ProviderState) (request : PrefillRequest)
    (h : (script.prefill s.calls request).captures = true) :
    let session := captured script s.generationClock request (script.prefill s.calls request)
    (prefillV1 script s request).1 =
        reportSession (script.prefill s.calls request).reply session ∧
      (prefillV1 script s request).2.session = session := by
  unfold prefillV1
  dsimp only
  rw [h]
  exact ⟨rfl, rfl⟩

/-- A reply that reports a session reports the one that was captured for its input. -/
theorem captured_of_valid (clock : UInt64) (request : PrefillRequest) (outcome : PrefillOutcome)
    (h : (captured script clock request outcome).valid = true) :
    let session := captured script clock request outcome
    session.providerCompleted = true ∧ session.owned = true ∧
      session.prefixTokens = request.input.length ∧ session.promptDigest = digest request.input ∧
      session.committedDecodeTokenCount = 0 ∧ 0 < session.ownedBytes := by
  unfold captured at h ⊢
  by_cases hkept : (script.residentSession && outcome.finalizes) = true
  · rw [if_pos hkept]
    exact ⟨rfl, rfl, rfl, rfl, rfl, outcome.ownedBytes.2⟩
  · rw [if_neg hkept] at h
    exact Bool.noConfusion h

/-- A request that does not get as far as the provider leaves the session alone. -/
theorem requestTokens_session (engine : Engine) (s : ProviderState) (input : List UInt32)
    (capacity : Nat) (h : reachesProvider cfg host input capacity = false) :
    (requestTokens cfg (provider script) host callback engine s input capacity).2.2.session =
      s.session := by
  rcases requestTokens_of_not_reaches cfg (provider script) host callback engine s input capacity h
    with ⟨status, stage, -, hresult⟩ | ⟨-, outcome, stage, hresult⟩
  · rw [hresult]
  · rw [hresult]
    rfl

/-- A request that was recorded leaves its session with the provider. -/
theorem requestTokens_agreement_of_retained (engine : Engine) (s : ProviderState)
    (input : List UInt32) (capacity : Nat)
    (hreaches : reachesProvider cfg host input capacity = true)
    (hretained : retained cfg (provider script) host callback (engine.fail .none) s input
      capacity = true)
    (hkept : PrefillKept cfg script host callback (engine.fail .none) s input capacity)
    (hrecorded : Recorded (requestTokens cfg (provider script) host callback engine s input
      capacity).2.1.identity input) :
    Agreement
      (requestTokens cfg (provider script) host callback engine s input capacity).2.1.identity
      (requestTokens cfg (provider script) host callback engine s input
        capacity).2.2.session := by
  have hshape : input ≠ [] ∧ input.length ≤ maxPositionEmbeddings := by
    unfold reachesProvider at hreaches
    simp only [Bool.and_eq_true] at hreaches
    rcases supportedShape_spec cfg input capacity hreaches.1.2 with ⟨hinput, hlength, -⟩
    exact ⟨hinput, hlength⟩
  have haccepted : accepted cfg (provider script) callback (engine.fail .none) s input
      capacity = true := by
    unfold retained at hretained
    simp only [Bool.and_eq_true] at hretained
    exact hretained.1.1
  have hok : (prefillV1 script s
      (prefillRequest cfg (engine.fail .none) input capacity)).1.ok = true := by
    unfold accepted at haccepted
    simp only [Bool.and_eq_true] at haccepted
    exact haccepted.1.1
  have hsays : retainsSession input (prefillV1 script s
      (prefillRequest cfg (engine.fail .none) input capacity)).1 = true := by
    unfold retained at hretained
    simp only [Bool.and_eq_true] at hretained
    exact hretained.1.2
  have hgeneration : (requestTokens cfg (provider script) host callback engine s input
      capacity).2.1.identity.sessionGeneration = (prefillV1 script s
        (prefillRequest cfg (engine.fail .none) input capacity)).1.sessionGeneration :=
    requestTokens_sessionGeneration cfg (provider script) host callback engine s input capacity
      hreaches haccepted hrecorded.sessionValid
  -- Nothing was decoded, so the session is the one that the prefill has left.
  rw [requestTokens_state cfg (provider script) host callback engine s input capacity hreaches
    hkept.undecoded]
  generalize (requestTokens cfg (provider script) host callback engine s input
    capacity).2.1.identity = identity at hrecorded hgeneration ⊢
  -- The reply says that it has succeeded, so the prefill got as far as the capture.
  cases hcaptures : (script.prefill s.calls
      (prefillRequest cfg (engine.fail .none) input capacity)).captures with
  | false =>
      have hfailed := (prefillV1_of_not_captures script s _ hcaptures).1
      exact Bool.noConfusion (hfailed.symm.trans hok)
  | true =>
      rcases prefillV1_of_captures script s _ hcaptures with ⟨hreply, hsession⟩
      have hstate : ((provider script).prefillV1 s
          (prefillRequest cfg (engine.fail .none) input capacity)).2.session =
          captured script s.generationClock
            (prefillRequest cfg (engine.fail .none) input capacity) (script.prefill s.calls
              (prefillRequest cfg (engine.fail .none) input capacity)) := hsession
      rw [hreply] at hgeneration hsays
      rw [hstate]
      have hvalid : (captured script s.generationClock
          (prefillRequest cfg (engine.fail .none) input capacity) (script.prefill s.calls
            (prefillRequest cfg (engine.fail .none) input capacity))).valid = true := by
        unfold retainsSession reportSession at hsays
        simp only [Bool.and_eq_true] at hsays
        exact hsays.1.1.1.1.1
      -- The reply reports this session, and the record was made from the reply.
      rcases captured_of_valid script _ _ _ hvalid with
        ⟨hcompleted, howned, htokens, hdigest, hcommitted, hbytes⟩
      have hcount : identity.tokens.count = input.length := by
        rw [← Store.length_contents, hrecorded.contents]
      have hprompt : identity.promptDigest = digest input := hrecorded.promptDigest
      exact
        { consistent := consistent_recorded identity input hrecorded hshape.1 hshape.2
            hkept.hashed
          agrees := ⟨fun _ => ⟨hvalid, hcompleted, howned, htokens.trans hcount.symm,
              hgeneration.symm, hdigest.trans hprompt.symm, hcommitted⟩,
            fun hnone => Bool.noConfusion (hrecorded.sessionValid.symm.trans hnone)⟩
          supported := fun _ => Nat.le_trans (Nat.le_of_eq hcount) hshape.2
          owns := fun _ => hbytes }

/-- A request that was not recorded leaves no session with the provider. -/
theorem requestTokens_released_of_not_retained (engine : Engine) (s : ProviderState)
    (input : List UInt32) (capacity : Nat)
    (hreaches : reachesProvider cfg host input capacity = true)
    (hretained : retained cfg (provider script) host callback (engine.fail .none) s input
      capacity = false)
    (hkept : PrefillKept cfg script host callback (engine.fail .none) s input capacity) :
    (requestTokens cfg (provider script) host callback engine s input
      capacity).2.2.session.isEmpty = true := by
  rw [requestTokens_state cfg (provider script) host callback engine s input capacity hreaches
    hkept.undecoded]
  cases hcaptures : (script.prefill s.calls
      (prefillRequest cfg (engine.fail .none) input capacity)).captures with
  -- The old session stays, so there must have been none.
  | false =>
      have hsession := (prefillV1_of_not_captures script s _ hcaptures).2
      rcases hkept.captures with hcaptured | hempty
      · exact Bool.noConfusion (hcaptures.symm.trans hcaptured)
      · exact (congrArg Session.isEmpty hsession).trans hempty
  -- A session is left only if it was finalized, and then it would have been recorded.
  | true =>
      have hsession := (prefillV1_of_captures script s _ hcaptures).2
      refine (congrArg Session.isEmpty hsession).trans ?_
      unfold captured
      by_cases hfinal : (script.residentSession && (script.prefill s.calls
          (prefillRequest cfg (engine.fail .none) input capacity)).finalizes) = true
      · rw [Bool.and_eq_true] at hfinal
        have hrecorded := hkept.recorded hcaptures hfinal.1 hfinal.2
        exact Bool.noConfusion (hretained.symm.trans hrecorded)
      · rw [if_neg hfinal]
        rfl

/-- An ordinary request keeps the agreement. -/
theorem requestTokens_agreement (engine : Engine) (s : ProviderState) (input : List UInt32)
    (capacity : Nat) (hagreement : Agreement engine.identity s.session)
    (hkept : reachesProvider cfg host input capacity = true →
      PrefillKept cfg script host callback engine s input capacity) :
    Agreement
      (requestTokens cfg (provider script) host callback engine s input capacity).2.1.identity
      (requestTokens cfg (provider script) host callback engine s input
        capacity).2.2.session := by
  rcases requestTokens_identity cfg (provider script) host callback engine s input capacity with
    ⟨hreaches, hsame⟩ | ⟨hreaches, hretained, hrecorded⟩ | ⟨hreaches, hretained, hclear⟩
  · rw [hsame, requestTokens_session cfg script host callback engine s input capacity hreaches]
    exact hagreement
  · exact requestTokens_agreement_of_retained cfg script host callback engine s input capacity
      hreaches hretained (PrefillKept.fail cfg script host callback engine .none s input capacity
        (hkept hreaches)) hrecorded
  · rw [hclear]
    exact agreement_clear _ _ _ (requestTokens_released_of_not_retained cfg script host callback
      engine s input capacity hreaches hretained (PrefillKept.fail cfg script host callback engine
        .none s input capacity (hkept hreaches)))

/-- A session that the core's record names can be continued. -/
theorem shadows_of_agreement (streams : Bool) (engine : Engine) (session : Session)
    (input : List UInt32) (prefixCount capacity : Nat)
    (hagreement : Agreement engine.identity session)
    (hreaches : prefixReaches cfg host streams engine input prefixCount capacity = true) :
    session.shadows (prefixCall cfg streams engine input prefixCount capacity) = true := by
  unfold prefixReaches Identity.matches at hreaches
  simp only [Bool.and_eq_true, bne_iff_ne] at hreaches
  rcases hreaches with ⟨⟨-, ⟨⟨⟨⟨hvalid, -⟩, -⟩, -⟩, hnonzero⟩, -⟩, -⟩
  rcases hagreement.agrees.live hvalid with
    ⟨hlive, hcompleted, -, -, hgeneration, hdigest, hcommitted⟩
  unfold Session.shadows prefixCall
  simp only [Bool.and_eq_true, bne_iff_ne, beq_iff_eq]
  rw [hgeneration]
  exact ⟨⟨⟨⟨⟨hlive, hcompleted⟩, hnonzero⟩, rfl⟩, hdigest⟩, hcommitted⟩

/-- A prefix request that the device restores the session after leaves the session alone. -/
theorem prefixV1_of_restored (s : ProviderState) (request : PrefixRequest)
    (hshadows : s.session.shadows request = true)
    (hrestored : (script.continueFrom s.calls request).reply.stateRestored = true) :
    (prefixV1 script s request).1.stateRestored = true ∧
      (prefixV1 script s request).2.session = s.session := by
  unfold prefixV1
  dsimp only
  rw [hshadows, hrestored, Bool.true_or]
  exact ⟨hrestored, rfl⟩

/-- A prefix request keeps the agreement. -/
theorem prefixV1_agreement (streams : Bool) (engine : Engine) (s : ProviderState)
    (input : List UInt32) (prefixCount capacity : Nat)
    (hagreement : Agreement engine.identity s.session)
    (hkept : PrefixKept cfg script host streams engine s input prefixCount capacity) :
    let result := Core.prefixV1 cfg (provider script) host callback streams engine s input
      prefixCount capacity
    Agreement result.2.1.identity result.2.2.session := by
  dsimp only
  rcases prefixV1_state cfg (provider script) host callback streams engine s input prefixCount
    capacity with ⟨-, hidentity, hstate⟩ | ⟨hreaches, hidentity, hstate⟩
  · rw [hidentity, hstate]
    exact hagreement
  -- The session is restored, so neither side has changed.
  · rcases prefixV1_of_restored script s _ (shadows_of_agreement cfg host streams engine s.session
      input prefixCount capacity hagreement hreaches) (hkept hreaches) with ⟨hrestored, hsession⟩
    rcases hidentity with hidentity | hlost
    · rw [hidentity, hstate]
      exact (congrArg (Agreement engine.identity) hsession).mpr hagreement
    · exact Bool.noConfusion (hlost.symm.trans hrestored)

/-- A seed and its retry keep the agreement. -/
theorem seedAndRetry_agreement (engine : Engine) (s : ProviderState) (input : List UInt32)
    (prefixCount capacity : Nat) (hagreement : Agreement engine.identity s.session)
    (hidle : engine.stream.active = false)
    (hseed : engine.identity.sessionValid = true →
      reachesProvider cfg host (input.take prefixCount) 1 = true)
    (hprefill : reachesProvider cfg host (input.take prefixCount) 1 = true →
      PrefillKept cfg script host callback engine s (input.take prefixCount) 1)
    (hcontinued :
      let seed := requestTokens cfg (provider script) host callback engine s
        (input.take prefixCount) 1
      PrefixKept cfg script host false seed.2.1 seed.2.2 input prefixCount capacity) :
    let result := seedAndRetry cfg (provider script) host callback engine s input prefixCount
      capacity
    Agreement result.2.1.identity result.2.2.session := by
  dsimp only
  have hseeded := requestTokens_agreement cfg script host callback engine s
    (input.take prefixCount) 1 hagreement hprefill
  rcases seedAndRetry_cases cfg (provider script) host callback engine s input prefixCount capacity
    hidle hseed with ⟨hidentity, hstate⟩ | hretry
  · rw [hidentity, hstate]
    exact hseeded
  · rw [hretry]
    exact prefixV1_agreement cfg script host callback false _ _ input prefixCount capacity hseeded
      hcontinued

/-- A reset that names the session releases it. -/
theorem prefixResetV1_of_match (s : ProviderState) (request : ResetRequest)
    (hvalid : resetRequestValid request = true)
    (hmatch : resetIdentityMatch s.session request = true) :
    let resetNs := script.resetElapsedNs s.calls
    (prefixResetV1 script s request).1 =
        resetDone s request resetNs (resetNs + script.resetOverheadNs s.calls) ∧
      (prefixResetV1 script s request).2.session = Session.empty := by
  unfold prefixResetV1
  dsimp only
  rw [hvalid, hmatch]
  exact ⟨rfl, rfl⟩

/-- The reply to a reset that names the session keeps its contract. -/
theorem resetContract_resetDone (s : ProviderState) (request : ResetRequest)
    (resetNs overheadNs : Nat) (howner : resetOwnerMatch s.session request = true)
    (hvalid : s.session.valid = request.expectedSessionValid)
    (htokens : s.session.prefixTokens = request.expectedPrefixTokenCount)
    (hlarge : s.session.prefixTokens ≤ 2 ^ 32 - 1)
    (hgeneration : s.session.generation = request.expectedSessionGeneration)
    (hdigest : s.session.promptDigest = request.expectedPromptDigest)
    (hbytes : request.expectedSessionValid = true → 0 < s.session.ownedBytes) :
    resetContract request (resetDone s request resetNs (resetNs + overheadNs)) = true := by
  have hreported : reportedCount s.session.prefixTokens = request.expectedPrefixTokenCount := by
    unfold reportedCount
    rw [if_pos hlarge, htokens]
  -- A session that is there owns memory, and one that is not is not asked for it.
  have howns : (!request.expectedSessionValid || decide (0 < s.session.ownedBytes)) = true := by
    cases hexpected : request.expectedSessionValid with
    | false => rfl
    | true => rw [decide_eq_true (hbytes hexpected), Bool.or_true]
  have htime : decide (resetNs ≤ resetNs + overheadNs) = true :=
    decide_eq_true (Nat.le_add_right _ _)
  have hzero : reportedCount 0 = 0 := rfl
  unfold resetContract resetDone
  simp only [howner, hvalid, hgeneration, hdigest, hreported, howns, htime, hzero,
    beq_self_eq_true, Session.empty, Nat.sub_zero, Bool.not_false, Bool.and_self]

/-- The reset of an engine that agrees with the provider releases the session and keeps its
    contract. -/
theorem prefixResetV1_of_agreement (identity : Identity) (s : ProviderState)
    (hagreement : Agreement identity s.session) :
    let request : ResetRequest :=
      { expectedSessionValid := identity.sessionValid
        expectedPrefixTokenCount := identity.tokens.count % 2 ^ 32
        expectedSessionGeneration := identity.sessionGeneration
        expectedPromptDigest := identity.promptDigest }
    resetContract request (prefixResetV1 script s request).1 = true ∧
      (prefixResetV1 script s request).2.session = Session.empty := by
  intro request
  have hconsistent := hagreement.consistent
  unfold Identity.consistent at hconsistent
  cases hvalid : identity.sessionValid with
  -- The record names the session field by field.
  | true =>
      rcases hagreement.agrees.live hvalid with
        ⟨hlive, hcompleted, howned, htokens, hgeneration, hdigest, -⟩
      have hsupported := hagreement.supported hvalid
      rw [hvalid, if_pos rfl] at hconsistent
      simp only [Bool.and_eq_true, bne_iff_ne, decide_eq_true_eq] at hconsistent
      rcases hconsistent with ⟨⟨⟨⟨-, hcount⟩, hlarge⟩, hgenerated⟩, hhashed⟩
      have hmod : request.expectedPrefixTokenCount = identity.tokens.count :=
        Nat.mod_eq_of_lt (by omega)
      have hexpected : request.expectedSessionValid = true := hvalid
      have howner : resetOwnerMatch s.session request = true := by
        unfold resetOwnerMatch
        rw [if_pos hexpected, howned]
      have hrequest : resetRequestValid request = true := by
        unfold resetRequestValid prefixSupported
        rw [if_pos hexpected, hmod]
        simp only [Bool.and_eq_true, decide_eq_true_eq, bne_iff_ne]
        exact ⟨⟨⟨Nat.pos_of_ne_zero hcount, hsupported⟩, hgenerated⟩, hhashed⟩
      have hmatch : resetIdentityMatch s.session request = true := by
        unfold resetIdentityMatch
        rw [if_pos hexpected, howner, hlive, hcompleted, hmod]
        simp only [Bool.and_eq_true, beq_iff_eq]
        exact ⟨⟨⟨⟨⟨trivial, trivial⟩, trivial⟩, htokens⟩, hgeneration⟩, hdigest⟩
      rcases prefixResetV1_of_match script s request hrequest hmatch with ⟨hreply, hsession⟩
      refine ⟨?_, hsession⟩
      rw [hreply]
      exact resetContract_resetDone s request _ _ howner (hlive.trans hexpected.symm)
        (htokens.trans hmod.symm) (by omega) hgeneration hdigest
        fun _ => hagreement.owns hvalid
  -- The record names nothing and there is nothing: the reset is idempotent.
  | false =>
      have hempty := hagreement.agrees.released hvalid
      rw [hvalid, if_neg Bool.false_ne_true] at hconsistent
      simp only [Bool.and_eq_true, beq_iff_eq] at hconsistent
      rcases hconsistent with ⟨⟨hcount, hgeneration⟩, hdigest⟩
      have hmod : request.expectedPrefixTokenCount = 0 := by
        change identity.tokens.count % 2 ^ 32 = 0
        rw [hcount, Nat.zero_mod]
      have hexpected : ¬request.expectedSessionValid = true := by
        change ¬identity.sessionValid = true
        rw [hvalid]
        exact Bool.false_ne_true
      have howner : resetOwnerMatch s.session request = true := by
        unfold resetOwnerMatch
        rw [if_neg hexpected, hempty]
      have hrequest : resetRequestValid request = true := by
        unfold resetRequestValid
        rw [if_neg hexpected, hmod]
        simp only [Bool.and_eq_true, beq_iff_eq]
        exact ⟨⟨trivial, hgeneration⟩, hdigest⟩
      have hmatch : resetIdentityMatch s.session request = true := by
        unfold resetIdentityMatch
        rw [if_neg hexpected, howner, hempty]
        rfl
      rcases prefixResetV1_of_match script s request hrequest hmatch with ⟨hreply, hsession⟩
      refine ⟨?_, hsession⟩
      rw [hreply]
      unfold Session.isEmpty at hempty
      simp only [Bool.and_eq_true, Bool.not_eq_true', beq_iff_eq] at hempty
      rcases hempty with
        ⟨⟨⟨⟨⟨⟨⟨⟨hlive, -⟩, -⟩, -⟩, htokens⟩, hgenerated⟩, hhashed⟩, -⟩, -⟩
      exact resetContract_resetDone s request _ _ howner
        (hlive.trans (Bool.eq_false_iff.mpr hexpected).symm) (htokens.trans hmod.symm) (by omega)
        (hgenerated.trans hgeneration.symm) (hhashed.trans hdigest.symm)
        fun hcontra => absurd hcontra hexpected

/-- A reset of an engine that agrees with the provider goes through. -/
theorem resetPrefixCacheV1_ok (engine : Engine) (s : ProviderState)
    (hagreement : Agreement engine.identity s.session) (hready : cfg.ready = true)
    (hidle : engine.stream.active = false) (hloads : host.resetLoads = true) :
    (resetPrefixCacheV1 cfg (provider script) host engine s).1 = .ok ∧
      (resetPrefixCacheV1 cfg (provider script) host engine s).2.1.identity =
        engine.identity.clear true ∧
      (resetPrefixCacheV1 cfg (provider script) host engine s).2.2.session = Session.empty := by
  rcases prefixResetV1_of_agreement script engine.identity s hagreement with ⟨hcontract, hsession⟩
  unfold resetPrefixCacheV1
  simp only [hready, hidle, hloads, hagreement.consistent, Bool.not_true, Bool.or_false,
    Bool.false_eq_true, if_false]
  have hcalled : (provider script).prefixResetV1 = prefixResetV1 script := rfl
  rw [hcalled]
  simp only [hcontract, Bool.not_true, Bool.false_eq_true, if_false]
  exact ⟨trivial, rfl, hsession⟩

/-- A reset keeps the agreement, whether it goes through or not. -/
theorem resetPrefixCacheV1_agreement (engine : Engine) (s : ProviderState)
    (hagreement : Agreement engine.identity s.session) :
    Agreement (resetPrefixCacheV1 cfg (provider script) host engine s).2.1.identity
      (resetPrefixCacheV1 cfg (provider script) host engine s).2.2.session := by
  by_cases hcalled : cfg.ready = true ∧ engine.stream.active = false ∧ host.resetLoads = true
  · rcases hcalled with ⟨hready, hidle, hloads⟩
    rcases resetPrefixCacheV1_ok cfg script host engine s hagreement hready hidle hloads with
      ⟨-, hidentity, hsession⟩
    rw [hidentity, hsession]
    exact agreement_clear _ _ _ rfl
  · -- The provider is not called, and nothing changes.
    unfold resetPrefixCacheV1
    rw [hagreement.consistent]
    cases hready : cfg.ready with
    | false => exact hagreement
    | true =>
        cases hidle : engine.stream.active with
        | true => exact hagreement
        | false =>
            cases hloads : host.resetLoads with
            | false => exact hagreement
            | true => exact absurd ⟨hready, hidle, hloads⟩ hcalled

end Steps

/-! ## Runs -/

section Runs

variable (cfg : Config) (script : Script)

/-- The condition on a fallback: its prefix request is kept, or it misses and the seed and the
    retry are. -/
structure FallbackKept (host : Host) (callback : Callback) (engine : Engine) (s : ProviderState)
    (input : List UInt32) (prefixCount capacity : Nat) : Prop where
  hit : missesIdentity cfg false engine input prefixCount capacity = false →
    PrefixKept cfg script host false engine s input prefixCount capacity
  seedReaches : missesIdentity cfg false engine input prefixCount capacity = true →
    engine.identity.sessionValid = true →
    reachesProvider cfg host (input.take prefixCount) 1 = true
  seed : missesIdentity cfg false engine input prefixCount capacity = true →
    reachesProvider cfg host (input.take prefixCount) 1 = true →
    PrefillKept cfg script host callback engine s (input.take prefixCount) 1
  retry : missesIdentity cfg false engine input prefixCount capacity = true →
    let seeded := requestTokens cfg (provider script) host callback
      (engine.fail .prefixIdentity) s (input.take prefixCount) 1
    PrefixKept cfg script host false seeded.2.1 seeded.2.2 input prefixCount capacity

/-- The condition on a step. -/
def Kept (state : Engine × ProviderState) : Operation → Prop
  | .request host callback input capacity =>
      reachesProvider cfg host input capacity = true →
        PrefillKept cfg script host callback state.1 state.2 input capacity
  | .stream host callback input capacity =>
      streamAdmitted state.1 input capacity = true →
        reachesProvider cfg host input capacity = true →
        PrefillKept cfg script host callback { state.1 with stream := StreamState.begin } state.2
          input capacity
  | .prefixRequest host _ input prefixCount capacity =>
      PrefixKept cfg script host false state.1 state.2 input prefixCount capacity
  | .prefixStream host _ input prefixCount capacity =>
      state.1.stream.active = false →
        PrefixKept cfg script host true { state.1 with stream := StreamState.begin } state.2
          input prefixCount capacity
  | .prefixFallback host callback input prefixCount capacity =>
      FallbackKept cfg script host callback state.1 state.2 input prefixCount capacity
  | .reset _ => True

/-- One operation keeps the agreement. -/
theorem step_agreement (state next : Engine × ProviderState) (operation : Operation)
    (hagreement : Agreement state.1.identity state.2.session)
    (hkept : Kept cfg script state operation)
    (hstep : step cfg (provider script) state operation = some next) :
    Agreement next.1.identity next.2.session := by
  cases operation with
  | request host callback input capacity =>
      rw [← Option.some.inj hstep]
      exact requestTokens_agreement cfg script host callback state.1 state.2 input capacity
        hagreement hkept
  | stream host callback input capacity =>
      rw [← Option.some.inj hstep, requestTokensStreamV1_eq]
      by_cases hadmitted : streamAdmitted state.1 input capacity = true
      · rw [if_pos hadmitted, (closeStream_state _ _).1, (closeStream_state _ _).2]
        exact requestTokens_agreement cfg script host callback
          { state.1 with stream := StreamState.begin } state.2 input capacity hagreement
          (hkept hadmitted)
      · rw [if_neg hadmitted]
        exact hagreement
  | prefixRequest host callback input prefixCount capacity =>
      rw [← Option.some.inj hstep]
      exact prefixV1_agreement cfg script host callback false state.1 state.2 input prefixCount
        capacity hagreement hkept
  | prefixStream host callback input prefixCount capacity =>
      rw [← Option.some.inj hstep]
      unfold prefixStreamV1
      by_cases hactive : state.1.stream.active = true
      · rw [if_pos hactive]
        exact hagreement
      · rw [if_neg hactive, (closeStream_state _ _).1, (closeStream_state _ _).2]
        exact prefixV1_agreement cfg script host callback true
          { state.1 with stream := StreamState.begin } state.2 input prefixCount capacity
          hagreement (hkept (Bool.eq_false_iff.mpr hactive))
  -- A hit is a prefix request, and a miss an ordinary request and a prefix request.
  | prefixFallback host callback input prefixCount capacity =>
      rw [← Option.some.inj hstep]
      rw [prefixFallbackV1_eq]
      cases hmisses : missesIdentity cfg false state.1 input prefixCount capacity with
      | false =>
          rw [if_neg Bool.false_ne_true]
          exact prefixV1_agreement cfg script host callback false state.1 state.2 input
            prefixCount capacity hagreement (hkept.hit hmisses)
      | true =>
          have hidle : state.1.stream.active = false := by
            unfold missesIdentity at hmisses
            simp only [Bool.and_eq_true, beq_iff_eq] at hmisses
            exact hmisses.1.1.2
          rw [if_pos rfl]
          exact seedAndRetry_agreement cfg script host callback (state.1.fail .prefixIdentity)
            state.2 input prefixCount capacity hagreement hidle (hkept.seedReaches hmisses)
            (fun hreaches => PrefillKept.fail cfg script host callback state.1 .prefixIdentity
              state.2 (input.take prefixCount) 1 (hkept.seed hmisses hreaches))
            (hkept.retry hmisses)
  | reset host =>
      rw [← Option.some.inj hstep]
      exact resetPrefixCacheV1_agreement cfg script host state.1 state.2 hagreement

/-- In every run whose steps meet the condition the core and the provider agree in every state,
    and a reset of an engine that is ready and does not stream goes through. -/
theorem reachable_agrees (state : Engine × ProviderState)
    (h : Run.Reachable (step cfg (provider script)) (Kept cfg script)
      (fun start => start.1 = Engine.loaded ∧ start.2.session = Session.empty) state) :
    Agrees state.1.identity state.2.session ∧
      ∀ host, cfg.ready = true → state.1.stream.active = false → host.resetLoads = true →
        (resetPrefixCacheV1 cfg (provider script) host state.1 state.2).1 = .ok := by
  have hagreement : Agreement state.1.identity state.2.session := by
    refine h.invariant (fun state => Agreement state.1.identity state.2.session) ?_ ?_
    · rintro start ⟨hengine, hsession⟩
      rw [hengine, hsession]
      exact agreement_clear Identity.empty true Session.empty rfl
    · intro state operation next hagreement hkept hstep
      exact step_agreement cfg script state next operation hagreement hkept hstep
  refine ⟨hagreement.agrees, ?_⟩
  intro host hready hidle hloads
  exact (resetPrefixCacheV1_ok cfg script host state.1 state.2 hagreement hready hidle hloads).1

end Runs

/-! ## A run that breaks the agreement -/

/-- The state after an ordinary request for one token. -/
def recordedState : Engine × ProviderState :=
  (requestTokens smallConfig (provider (serving 7)) Host.sound goesOn Engine.loaded
    ProviderState.initial [1, 2] 1).2

/-- A request that was recorded and can be reset. -/
theorem recordedRequest_agrees :
    recordedState.1.identity.sessionValid = true ∧
      Agrees recordedState.1.identity recordedState.2.session ∧
      (resetPrefixCacheV1 smallConfig (provider (serving 7)) Host.sound recordedState.1
        recordedState.2).1 = .ok := by
  have hreachable : Run.Reachable (step smallConfig (provider (serving 7)))
      (Kept smallConfig (serving 7))
      (fun start => start.1 = Engine.loaded ∧ start.2.session = Session.empty)
      recordedState := by
    refine ⟨(Engine.loaded, ProviderState.initial), ⟨rfl, rfl⟩,
      .tail _ _ (.request Host.sound goesOn [1, 2] 1) .refl ?_ rfl⟩
    intro _
    exact { hashed := by decide +kernel
            captures := .inl rfl
            recorded := fun _ _ _ => by decide +kernel
            undecoded := by decide +kernel }
  have h := reachable_agrees smallConfig (serving 7) recordedState hreachable
  exact ⟨by decide +kernel, h.1, h.2 Host.sound rfl (by decide +kernel) rfl⟩

/-- A request for two tokens leaves one committed to the session that was recorded. The provider
    refuses to continue it, the core clears its record, and no reset goes through any more. -/
theorem decodedRequest_disagrees :
    ∃ decoded refused,
      Run.Reachable (step smallConfig (provider (serving 7))) Run.anyStep
        (fun start => start.1 = Engine.loaded ∧ start.2.session = Session.empty) decoded ∧
      decoded.1.identity.sessionValid = true ∧
      decoded.2.session.committedDecodeTokenCount = 1 ∧
      Run.Reachable (step smallConfig (provider (serving 7))) Run.anyStep
        (fun start => start.1 = Engine.loaded ∧ start.2.session = Session.empty) refused ∧
      refused.1.identity = decoded.1.identity.clear false ∧
      refused.2.session.isEmpty = false ∧ refused.1.stream.active = false ∧
      (resetPrefixCacheV1 smallConfig (provider (serving 7)) Host.sound refused.1
        refused.2).1 = .unsupported := by
  have hdecoded : Run.Reaches (step smallConfig (provider (serving 7))) Run.anyStep
      (Engine.loaded, ProviderState.initial) _ :=
    .tail _ _ (.request Host.sound goesOn [1, 2] 2) .refl trivial rfl
  have hrefused : Run.Reaches (step smallConfig (provider (serving 7))) Run.anyStep
      (Engine.loaded, ProviderState.initial) _ :=
    .tail _ _ (.prefixRequest Host.sound goesOn [1, 2, 3] 2 1) hdecoded trivial rfl
  refine ⟨_, _, ⟨_, ⟨rfl, rfl⟩, hdecoded⟩, ?_, ?_, ⟨_, ⟨rfl, rfl⟩, hrefused⟩, ?_, ?_, ?_, ?_⟩
  · decide +kernel
  · decide +kernel
  · decide +kernel
  · decide +kernel
  · decide +kernel
  · decide +kernel

end Resident

end QrtEngine
