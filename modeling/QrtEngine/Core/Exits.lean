import QrtEngine.Core.Request

/-!
# The Exits of a Request

Every way in which a request of the core can end, said once. An ordinary request fails before the
provider, fails at the checks of its prefill, or goes on to the first token and the decodes. A
prefix request fails before the provider, fails after it, or succeeds. What a request does to the
record of the cached prefix, to the stream and to the provider is read off these.

## Main definitions

* `reachesProvider`, `accepted`: How far an ordinary request gets.
* `prefixReaches`, `missesIdentity`: How far a prefix request gets.
* `PrefixExit`: The exits of a prefix request.
* `streamAdmitted`: A stream can begin.

## Theorems

* `requestTokens_of_not_reaches`, `requestTokens_cases`: The exits of an ordinary request.
* `prefixV1_exit`: A prefix request takes one of its exits.
* `prefixFallbackV1_eq`: What a fallback does.
* `closeStream_ok_iff`: When a stream succeeds.
-/

namespace QrtEngine

namespace Core

section Exits

variable {σ : Type} (cfg : Config) (provider : Provider σ) (host : Host) (callback : Callback)

/-! ## Ordinary requests -/

/-- A request gets as far as the provider. -/
def reachesProvider (input : List UInt32) (capacity : Nat) : Bool :=
  cfg.ready && cfg.providerRequested && supportedShape cfg input capacity && host.prefillLoads

/-- The reply to a prefill has passed its contracts. -/
def accepted (engine : Engine) (s : σ) (input : List UInt32) (capacity : Nat) : Bool :=
  let request := prefillRequest cfg engine input capacity
  let called := prefill provider callback engine s request
  called.1.ok && prefillContract cfg called.2.1.stream request called.1 &&
    prefillOutputContract called.1

/-- The shapes the provider takes are not empty and within the context of the model. -/
theorem supportedShape_spec (input : List UInt32) (capacity : Nat)
    (h : supportedShape cfg input capacity = true) :
    input ≠ [] ∧ input.length ≤ maxPositionEmbeddings ∧ 0 < capacity ∧
      capacity ≤ maxOutputTokens := by
  unfold supportedShape at h
  simp only [Bool.and_eq_true, Bool.or_eq_true, decide_eq_true_eq] at h
  rcases h with ⟨⟨hinput, hpos⟩, hle⟩
  have hlength : 0 < input.length ∧ input.length ≤ maxPositionEmbeddings := by
    rcases hinput with hprobe | harbitrary
    · rcases Option.isSome_iff_exists.mp hprobe with ⟨probe, hprobe⟩
      have hmem := List.mem_of_find?_eq_some hprobe
      have hmatch := List.find?_some hprobe
      simp only [decide_eq_true_eq] at hmatch
      rw [← hmatch.1]
      -- The table is finite, so the bounds are read off its entries.
      unfold coldProbes at hmem
      simp only [List.mem_cons, List.mem_append] at hmem
      rcases hmem with rfl | ((hmem | hmem) | hmem) | hmem
      · decide
      all_goals split_ifs at hmem <;> simp only [List.mem_cons, List.not_mem_nil, or_false] at hmem
      · rw [hmem]
        decide
      · rw [hmem]
        decide
      · rw [hmem]
        decide
      · rcases hmem with rfl | rfl | rfl | rfl | rfl <;> decide
    -- An arbitrary prompt is checked against the context of the model.
    · unfold arbitraryPrefill at harbitrary
      simp only [Bool.and_eq_true, decide_eq_true_eq] at harbitrary
      exact ⟨harbitrary.1.1.2, harbitrary.2⟩
  exact ⟨List.ne_nil_of_length_pos hlength.1, hlength.2, Nat.pos_of_ne_zero hpos, hle⟩

/-- A request that does not get as far as the provider fails and leaves everything as it was, or it
    is one for the core's own route. -/
theorem requestTokens_of_not_reaches (engine : Engine) (s : σ) (input : List UInt32)
    (capacity : Nat) (h : reachesProvider cfg host input capacity = false) :
    let result := requestTokens cfg provider host callback engine s input capacity
    (∃ status stage, status ≠ .ok ∧ result = (.failed status, engine.fail stage, s)) ∨
    (cfg.providerRequested = false ∧ ∃ outcome stage,
      result = (outcome, engine.fail stage, (provider.legacy s input capacity).2)) := by
  unfold reachesProvider at h
  unfold requestTokens tryWholeProviderPrefill
  -- The guards one after the other, in the order of the code.
  by_cases hargs : input = [] ∨ capacity = 0
  · rw [if_pos hargs]
    exact .inl ⟨_, engine.failureStage, Status.noConfusion, rfl⟩
  · rw [if_neg hargs]
    dsimp only
    cases hready : cfg.ready with
    | false => exact .inl ⟨_, _, Status.noConfusion, rfl⟩
    | true =>
        cases hrequested : cfg.providerRequested with
        | false => exact .inr ⟨rfl, _, _, rfl⟩
        | true =>
            cases hshape : supportedShape cfg input capacity with
            | false => exact .inl ⟨_, _, Status.noConfusion, rfl⟩
            | true =>
                cases hload : host.prefillLoads with
                | false => exact .inl ⟨_, _, Status.noConfusion, rfl⟩
                | true =>
                    rw [hready, hrequested, hshape, hload] at h
                    exact Bool.noConfusion h

/-- A request that gets as far as the provider makes its prefill. If the reply passes the
    contracts, the input is recorded and the rest of the request follows. If not, the request
    fails there. -/
theorem requestTokens_cases (engine : Engine) (s : σ) (input : List UInt32) (capacity : Nat)
    (h : reachesProvider cfg host input capacity = true) :
    let request := prefillRequest cfg (engine.fail .none) input capacity
    let called := prefill provider callback (engine.fail .none) s request
    let result := requestTokens cfg provider host callback engine s input capacity
    (accepted cfg provider callback (engine.fail .none) s input capacity = true ∧
      result = finishRequest provider host callback
        { called.2.1 with
          identity := called.2.1.identity.record host.tokenCopyGrows input called.1 }
        called.2.2 input capacity request called.1) ∨
    (accepted cfg provider callback (engine.fail .none) s input capacity = false ∧
      ∃ stage, result = (.failed .unsupported, called.2.1.fail stage, called.2.2)) := by
  unfold reachesProvider at h
  simp only [Bool.and_eq_true] at h
  rcases h with ⟨⟨⟨hready, hrequested⟩, hshape⟩, hload⟩
  rcases supportedShape_spec cfg input capacity hshape with ⟨hinput, -, hpos, -⟩
  have hargs : ¬(input = [] ∨ capacity = 0) := by
    rw [not_or]
    exact ⟨hinput, by omega⟩
  unfold requestTokens tryWholeProviderPrefill acceptPrefill accepted
  rw [if_neg hargs]
  simp only [hready, hrequested, hshape, hload, Bool.not_true, Bool.false_eq_true, if_false]
  -- What the provider said matters only through the checks.
  generalize prefillRequest cfg (engine.fail .none) input capacity = request
  generalize prefill provider callback (engine.fail .none) s request = called
  -- The three checks of the reply, in the order of the code.
  cases called.1.ok with
  | false => exact .inr ⟨rfl, _, rfl⟩
  | true =>
      cases prefillContract cfg called.2.1.stream request called.1 with
      | false => exact .inr ⟨rfl, _, rfl⟩
      | true =>
          cases prefillOutputContract called.1 with
          | false => exact .inr ⟨rfl, _, rfl⟩
          | true => exact .inl ⟨rfl, rfl⟩

/-- A request for the provider that succeeds got as far as the provider. -/
theorem reachesProvider_of_ok (hrequested : cfg.providerRequested = true) (engine : Engine)
    (s : σ) (input : List UInt32) (capacity : Nat)
    (hok : (requestTokens cfg provider host callback engine s input capacity).1.status = .ok) :
    reachesProvider cfg host input capacity = true := by
  cases hreaches : reachesProvider cfg host input capacity with
  | true => rfl
  | false =>
      rcases requestTokens_of_not_reaches cfg provider host callback engine s input capacity
        hreaches with ⟨status, stage, hfailed, hresult⟩ | ⟨hlegacy, -⟩
      · rw [hresult] at hok
        exact absurd hok hfailed
      · exact Bool.noConfusion (hlegacy.symm.trans hrequested)

/-- The reply to the prefill of a request that succeeds has passed its contracts. -/
theorem accepted_of_ok (engine : Engine) (s : σ) (input : List UInt32) (capacity : Nat)
    (hreaches : reachesProvider cfg host input capacity = true)
    (hok : (requestTokens cfg provider host callback engine s input capacity).1.status = .ok) :
    accepted cfg provider callback (engine.fail .none) s input capacity = true := by
  rcases requestTokens_cases cfg provider host callback engine s input capacity hreaches with
    ⟨haccepted, -⟩ | ⟨-, stage, hresult⟩
  · exact haccepted
  · rw [hresult] at hok
    exact Status.noConfusion hok

/-! ## Streams -/

/-- The arguments of a stream are in order and no other stream is running. -/
def streamAdmitted (engine : Engine) (input : List UInt32) (capacity : Nat) : Bool :=
  input != [] && capacity != 0 && decide (capacity ≤ maxOutputTokens) && !engine.stream.active

/-- The end of a stream changes neither the record nor the provider. -/
theorem closeStream_state (stage : FailureStage) (result : Outcome × Engine × σ) :
    (closeStream stage result).2.1.identity = result.2.1.identity ∧
      (closeStream stage result).2.2 = result.2.2 := by
  unfold closeStream
  dsimp only
  split_ifs <;> exact ⟨rfl, rfl⟩

/-- A stream succeeds exactly when its request does and has sent its output. -/
theorem closeStream_ok_iff (stage : FailureStage) (result : Outcome × Engine × σ) :
    (closeStream stage result).1.status = .ok ↔ result.1.status = .ok ∧
      result.2.1.stream.complete result.1.outputTokens = true := by
  -- Whether a stream is complete does not depend on its being active.
  have hcomplete : { result.2.1.stream with active := false }.complete result.1.outputTokens =
      result.2.1.stream.complete result.1.outputTokens := rfl
  unfold closeStream
  dsimp only
  rw [hcomplete]
  by_cases hok : result.1.status = .ok
  · cases result.2.1.stream.complete result.1.outputTokens with
    | false =>
        rw [if_pos ⟨hok, rfl⟩]
        exact iff_of_false Status.noConfusion fun h => Bool.false_ne_true h.2
    | true =>
        rw [if_neg fun h => Bool.noConfusion h.2]
        exact iff_of_true hok ⟨hok, rfl⟩
  · rw [if_neg fun h => hok h.1]
    exact iff_of_false hok fun h => hok h.1

/-- A stream that is admitted is its request and the end of the stream. -/
theorem requestTokensStreamV1_eq (engine : Engine) (s : σ) (input : List UInt32)
    (capacity : Nat) :
    requestTokensStreamV1 cfg provider host callback engine s input capacity =
      if streamAdmitted engine input capacity then
        closeStream .streamCompletionContract (requestTokens cfg provider host callback
          { engine with stream := StreamState.begin } s input capacity)
      else (.failed .invalidArgument, engine, s) := by
  have hargs : (input = [] ∨ capacity = 0 ∨ capacity > maxOutputTokens ∨
      engine.stream.active = true) ↔ streamAdmitted engine input capacity = false := by
    unfold streamAdmitted
    rw [Bool.eq_false_iff, Ne, Bool.and_eq_true, Bool.and_eq_true, Bool.and_eq_true, bne_iff_ne,
      bne_iff_ne, decide_eq_true_eq, Bool.not_eq_true']
    cases engine.stream.active <;>
      simp only [Bool.false_eq_true, Bool.true_eq_false, or_false, or_true, and_false,
        not_false_eq_true, and_true, not_and_or, not_not, Nat.not_le, gt_iff_lt, or_assoc]
  unfold requestTokensStreamV1
  cases hadmitted : streamAdmitted engine input capacity with
  | false => rw [if_pos (hargs.mpr hadmitted), if_neg Bool.false_ne_true]
  | true => rw [if_neg (fun h => Bool.noConfusion (hadmitted.symm.trans (hargs.mp h))), if_pos rfl]

/-! ## Prefix requests -/

/-- The provider is called by a prefix request. -/
def prefixReaches (streams : Bool) (engine : Engine) (input : List UInt32)
    (prefixCount capacity : Nat) : Bool :=
  prefixShape input prefixCount capacity && engine.stream.active == streams &&
    input.all (· < vocabSize) && cfg.ready && engine.identity.matches input prefixCount &&
    host.prefixLoads

/-- A prefix request is in order, but the prefix is not the one recorded. -/
def missesIdentity (streams : Bool) (engine : Engine) (input : List UInt32)
    (prefixCount capacity : Nat) : Bool :=
  prefixShape input prefixCount capacity && engine.stream.active == streams &&
    input.all (· < vocabSize) && !(cfg.ready && engine.identity.matches input prefixCount)

/-- The stream after the provider's calls of the callback during a prefix request. -/
def prefixSent (streams : Bool) (engine : Engine) (reply : PrefixReply) : StreamState :=
  if streams then
    reply.emissions.foldl (prefixEmission callback engine.identity.sessionGeneration)
      engine.stream
  else engine.stream

/-- A stage that the provider names is not one of the core. -/
theorem FailureStage.ofProvider_ne (text : String) (default stage : FailureStage)
    (hdefault : default ≠ stage) (hcore : ∀ text, stage ≠ .provider text) :
    FailureStage.ofProvider text default ≠ stage := by
  unfold FailureStage.ofProvider
  split_ifs
  · exact hdefault
  · exact (hcore text).symm

/-- The exits of a prefix request. The prefix is missed; the request is refused for another reason
    before the provider; it fails after the provider, and the record is forgotten only if the
    session was not restored; or the reply has kept its contract and is the output. -/
inductive PrefixExit (streams : Bool) (engine : Engine) (s : σ) (input : List UInt32)
    (prefixCount capacity : Nat) (called : PrefixReply × σ) : Outcome × Engine × σ → Prop where
  | missed (hmisses : missesIdentity cfg streams engine input prefixCount capacity = true)
      (hreaches : prefixReaches cfg host streams engine input prefixCount capacity = false) :
      PrefixExit streams engine s input prefixCount capacity called
        (.failed .unsupported, engine.fail .prefixIdentity, s)
  | refused (status : Status) (stage : FailureStage) (hstatus : status ≠ .ok)
      (hstage : stage ≠ .prefixIdentity)
      (hmisses : missesIdentity cfg streams engine input prefixCount capacity = false)
      (hreaches : prefixReaches cfg host streams engine input prefixCount capacity = false) :
      PrefixExit streams engine s input prefixCount capacity called
        (.failed status, engine.fail stage, s)
  | failed (stage : FailureStage) (identity : Identity) (hstage : stage ≠ .prefixIdentity)
      (hidentity : identity = engine.identity ∨
        called.1.stateRestored = false ∧ identity = engine.identity.clear false)
      (hmisses : missesIdentity cfg streams engine input prefixCount capacity = false)
      (hreaches : prefixReaches cfg host streams engine input prefixCount capacity = true) :
      PrefixExit streams engine s input prefixCount capacity called
        (.failed .unsupported,
          { identity := identity, stream := prefixSent callback streams engine called.1
            failureStage := stage }, called.2)
  | answered
      (hcontract : prefixContract (prefixCall cfg streams engine input prefixCount capacity)
        called.1 = true)
      (hmisses : missesIdentity cfg streams engine input prefixCount capacity = false)
      (hreaches : prefixReaches cfg host streams engine input prefixCount capacity = true) :
      PrefixExit streams engine s input prefixCount capacity called
        ({ status := .ok, outputTokens := called.1.outputTokens },
          { engine with
            stream := prefixSent callback streams engine called.1, failureStage := .none },
          called.2)

/-- A prefix request takes one of its exits. -/
theorem prefixV1_exit (streams : Bool) (engine : Engine) (s : σ) (input : List UInt32)
    (prefixCount capacity : Nat) :
    PrefixExit cfg host callback streams engine s input prefixCount capacity
      (provider.prefixV1 s (prefixCall cfg streams engine input prefixCount capacity))
      (prefixV1 cfg provider host callback streams engine s input prefixCount capacity) := by
  have hreaches : prefixReaches cfg host streams engine input prefixCount capacity =
      (prefixShape input prefixCount capacity && engine.stream.active == streams &&
        input.all (· < vocabSize) && cfg.ready && engine.identity.matches input prefixCount &&
        host.prefixLoads) := rfl
  have hmisses : missesIdentity cfg streams engine input prefixCount capacity =
      (prefixShape input prefixCount capacity && engine.stream.active == streams &&
        input.all (· < vocabSize) &&
        !(cfg.ready && engine.identity.matches input prefixCount)) := rfl
  unfold prefixV1
  cases hshape : prefixShape input prefixCount capacity with
  | false =>
      rw [hshape] at hreaches hmisses
      exact .refused _ _ Status.noConfusion FailureStage.noConfusion hmisses hreaches
  | true =>
      rw [hshape] at hreaches hmisses
      by_cases hactive : engine.stream.active = streams
      · have hbne : (engine.stream.active != streams) = false := by
          rw [bne, beq_iff_eq.mpr hactive, Bool.not_true]
        rw [beq_iff_eq.mpr hactive] at hreaches hmisses
        rw [hbne]
        cases hvocab : input.all (· < vocabSize) with
        | false =>
            rw [hvocab] at hreaches hmisses
            exact .refused _ _ Status.noConfusion FailureStage.noConfusion hmisses hreaches
        | true =>
            rw [hvocab] at hreaches hmisses
            cases hready : cfg.ready with
            | false =>
                rw [hready] at hreaches hmisses
                exact .missed hmisses hreaches
            | true =>
                rw [hready] at hreaches hmisses
                cases hmatch : engine.identity.matches input prefixCount with
                | false =>
                    rw [hmatch] at hreaches hmisses
                    exact .missed hmisses hreaches
                | true =>
                    rw [hmatch] at hreaches hmisses
                    cases hloads : host.prefixLoads with
                    | false =>
                        rw [hloads] at hreaches
                        exact .refused _ _ Status.noConfusion FailureStage.noConfusion hmisses
                          hreaches
                    | true =>
                        rw [hloads] at hreaches
                        simp only [Bool.not_true, Bool.or_self, Bool.false_eq_true, if_false]
                        generalize provider.prefixV1 s
                          (prefixCall cfg streams engine input prefixCount capacity) = called
                        -- The checks of the reply, in the order of the code.
                        cases hcontract : prefixContract
                            (prefixCall cfg streams engine input prefixCount capacity)
                            called.1 with
                        | false =>
                            cases hrestored : called.1.stateRestored with
                            | false =>
                                exact .failed _ _ (FailureStage.ofProvider_ne _ _ _
                                  FailureStage.noConfusion fun _ => FailureStage.noConfusion)
                                  (.inr ⟨hrestored, rfl⟩) hmisses hreaches
                            | true =>
                                exact .failed _ _ (FailureStage.ofProvider_ne _ _ _
                                  FailureStage.noConfusion fun _ => FailureStage.noConfusion)
                                  (.inl rfl) hmisses hreaches
                        | true =>
                            cases called.1.teacherForcedTokens.all (· < vocabSize) with
                            | false =>
                                exact .failed _ _ FailureStage.noConfusion (.inl rfl) hmisses
                                  hreaches
                            | true =>
                                cases called.1.outputTokens.all (· < vocabSize) with
                                | false =>
                                    exact .failed _ _ FailureStage.noConfusion (.inl rfl) hmisses
                                      hreaches
                                | true => exact .answered hcontract hmisses hreaches
      · have hbne : (engine.stream.active != streams) = true := bne_iff_ne.mpr hactive
        rw [beq_eq_false_iff_ne.mpr hactive] at hreaches hmisses
        rw [hbne]
        exact .refused _ _ Status.noConfusion FailureStage.noConfusion hmisses hreaches

/-- A fallback is a seed and a retry if the prefix is missed, and its first attempt if not. -/
theorem prefixFallbackV1_eq (engine : Engine) (s : σ) (input : List UInt32)
    (prefixCount capacity : Nat) :
    prefixFallbackV1 cfg provider host callback engine s input prefixCount capacity =
      if missesIdentity cfg false engine input prefixCount capacity then
        seedAndRetry cfg provider host callback (engine.fail .prefixIdentity) s input prefixCount
          capacity
      else prefixV1 cfg provider host callback false engine s input prefixCount capacity := by
  have hexit := prefixV1_exit cfg provider host callback false engine s input prefixCount capacity
  unfold prefixFallbackV1
  generalize prefixV1 cfg provider host callback false engine s input prefixCount capacity =
    initial at hexit ⊢
  dsimp only
  cases hexit with
  | missed hmisses _ => rw [if_pos ⟨rfl, rfl⟩, if_pos hmisses]
  | refused status stage _ hstage hmisses _ =>
      rw [if_neg fun h => hstage h.2, hmisses, if_neg Bool.false_ne_true]
  | failed stage identity hstage _ hmisses _ =>
      rw [if_neg fun h => hstage h.2, hmisses, if_neg Bool.false_ne_true]
  | answered _ hmisses _ =>
      rw [if_neg fun h => Status.noConfusion h.1, hmisses, if_neg Bool.false_ne_true]

end Exits

end Core

end QrtEngine
