import QrtEngine.Core.Exits
import QrtEngine.Library.Outcome
import QrtEngine.Provider.PrefixRequest

/-!
# What a Prefix Request Leaves and Reports

A prefix request leaves the session as it was. If it has taken its shadow, it says so, however it
ends, and if it succeeds it reports how far the shadow had got.

The gap is what happens before. A request that is stopped before its shadow was taken leaves the
session as it was too, but reports that nothing was restored. The core reads this as a session that
was lost, and forgets a prefix that the provider still has.

## Main definitions

* `Kept`: The identity and the counts of a session are as they were.
* `Honest`: A request leaves the session and says so.
* `admits`, `takesShadow`: How far a request gets.

## Theorems

* `cloneSession_spec`: When a session is copied, and what copying it keeps.
* `serve_yields`: How many tokens a request that succeeds has committed.
* `serveShadow_restores`: However the request ends, the session is the one of before.
* `prefixV1_restores_iff`: When a request leaves the session and says so.
* `prefixV1_honest_iff`: The same with what a success reports.
* `core_remembers_iff`: When the core keeps its record of the cached prefix.
-/

namespace QrtEngine

namespace Continuation

open QrtEngine.Core
open QrtEngine.Layered
open QrtEngine.Shadow

/-! ## Sessions -/

/-- The identity of a session, the length of its prefix and the number of its tokens are as they
    were. -/
structure Kept (before after : SessionState) : Prop where
  valid : after.valid = before.valid
  generation : after.generation = before.generation
  promptDigest : after.promptTokenIdsFnv1a64 = before.promptTokenIdsFnv1a64
  ownerEngine : after.ownerEngine = before.ownerEngine
  modelDir : after.modelDir = before.modelDir
  prefixTokens : after.prefixTokens = before.prefixTokens
  committed : after.committedDecodeTokenCount = before.committedDecodeTokenCount

theorem Kept.refl (session : SessionState) : Kept session session :=
  ⟨rfl, rfl, rfl, rfl, rfl, rfl, rfl⟩

theorem Kept.trans {first second third : SessionState} (h : Kept first second)
    (h' : Kept second third) : Kept first third :=
  ⟨h'.valid.trans h.valid, h'.generation.trans h.generation, h'.promptDigest.trans h.promptDigest,
    h'.ownerEngine.trans h.ownerEngine, h'.modelDir.trans h.modelDir,
    h'.prefixTokens.trans h.prefixTokens, h'.committed.trans h.committed⟩

/-! ## Taking the shadow -/

/-- A layer is copied, if it was captured. -/
def copiesLayer (valid : Nat → Bool) (outcome : Nat → CopyOutcome) (layer : Nat) : Bool :=
  !valid layer || outcome layer == .copied

/-- Every layer that was captured is copied, and the streams can be waited for. -/
def copies (outcome : OpenOutcome) (session : SessionState) : Bool :=
  outcome.prioritySynced &&
    (List.range layerCount).all
      (copiesLayer (fun layer => (session.linearLayers layer).valid) outcome.linear) &&
    (List.range layerCount).all
      (copiesLayer (fun layer => (session.fullAttentionLayers layer).valid) outcome.full) &&
    outcome.cloneSynced

/-- What copying one layer does: it succeeds or not, and keeps the session. -/
def LayerSpec (cloneLayer : Nat → Clone → Bool × Clone) (copied : Nat → Bool) : Prop :=
  ∀ layer clone, (cloneLayer layer clone).1 = copied layer ∧
    Kept clone.session (cloneLayer layer clone).2.session

theorem copyTo_spec (outcome : CopyOutcome) (place : Nat × Slot) (point : Nat → SessionState)
    (clone : Clone) (hpoint : ∀ allocation, Kept clone.session (point allocation)) :
    (copyTo outcome place point clone).1 = (outcome == .copied) ∧
      Kept clone.session (copyTo outcome place point clone).2.session := by
  cases outcome with
  | mallocFails => exact ⟨rfl, Kept.refl _⟩
  | copyFails => exact ⟨rfl, Kept.refl _⟩
  | copied => exact ⟨rfl, hpoint _⟩

theorem cloneLinear_spec (original : SessionState) (outcome : Nat → CopyOutcome) :
    LayerSpec (cloneLinear original outcome)
      (copiesLayer (fun layer => (original.linearLayers layer).valid) outcome) := by
  intro layer clone
  have hcopy := copyTo_spec (outcome layer) (layer, .linear)
    (pointLinear original clone.session layer) clone fun _ => ⟨rfl, rfl, rfl, rfl, rfl, rfl, rfl⟩
  unfold cloneLinear copiesLayer
  dsimp only
  cases (original.linearLayers layer).valid with
  | false => exact ⟨rfl, Kept.refl _⟩
  | true => exact hcopy

theorem cloneFull_spec (original : SessionState) (outcome : Nat → CopyOutcome) :
    LayerSpec (cloneFull original outcome)
      (copiesLayer (fun layer => (original.fullAttentionLayers layer).valid) outcome) := by
  intro layer clone
  have hcopy := copyTo_spec (outcome layer)
    (layer, if (original.fullAttentionLayers layer).decodeTailContiguous then .full else .tail)
    (pointFull original clone.session layer) clone fun _ => ⟨rfl, rfl, rfl, rfl, rfl, rfl, rfl⟩
  unfold cloneFull copiesLayer
  dsimp only
  cases (original.fullAttentionLayers layer).valid with
  | false => exact ⟨rfl, Kept.refl _⟩
  | true => exact hcopy

/-- The loop succeeds if every layer does. -/
theorem cloneLayers_spec (cloneLayer : Nat → Clone → Bool × Clone) (copied : Nat → Bool)
    (h : LayerSpec cloneLayer copied) (layers : List Nat) (clone : Clone) :
    (cloneLayers cloneLayer layers clone).1 = layers.all copied ∧
      Kept clone.session (cloneLayers cloneLayer layers clone).2.session := by
  induction layers generalizing clone with
  | nil => exact ⟨rfl, Kept.refl _⟩
  | cons layer layers ih =>
      rcases h layer clone with ⟨hcopied, hkept⟩
      unfold cloneLayers
      rw [List.all_cons, ← hcopied]
      cases hone : (cloneLayer layer clone).1 with
      | false => simp [hone, hkept]
      | true =>
          rcases ih (cloneLayer layer clone).2 with ⟨hall, hrest⟩
          simp [hone, hall, hkept.trans hrest]

/-- When a session is copied, and what copying it keeps. -/
theorem cloneSession_spec (outcome : OpenOutcome) (device : Device) :
    (cloneSession outcome device).1 = copies outcome device.session ∧
      Kept device.session (cloneSession outcome device).2.session := by
  unfold cloneSession copies
  cases outcome.prioritySynced with
  | false => exact ⟨rfl, Kept.refl _⟩
  | true =>
      rcases cloneLayers_spec _ _ (cloneLinear_spec device.session outcome.linear)
        (List.range layerCount)
        { heap := device.heap, session := device.session, shadow := noShadow }
        with ⟨hlinear, hlinearKept⟩
      dsimp only
      generalize cloneLayers (cloneLinear device.session outcome.linear) (List.range layerCount)
        { heap := device.heap, session := device.session, shadow := noShadow } = linear at *
      rcases cloneLayers_spec _ _ (cloneFull_spec device.session outcome.full)
        (List.range layerCount) linear.2 with ⟨hfull, hfullKept⟩
      generalize cloneLayers (cloneFull device.session outcome.full) (List.range layerCount)
        linear.2 = full at *
      rw [← hlinear, ← hfull]
      -- The loop over the linear layers decides whether the other one is begun.
      cases hfirst : linear.1 with
      | false => simp [hfirst, hlinearKept]
      | true =>
          cases hsecond : full.1 with
          | false => simp [hsecond, hlinearKept.trans hfullKept]
          | true => simp [hlinearKept.trans hfullKept]

section Request

variable (run : PrefixRun) (request : PrefixCall)

/-- The request gets as far as its shadow: it has the right shape and is for the tokens it declares,
    and the thread gets its plans. -/
def admits : Bool :=
  request.shapeValid && request.suffix.all (· < vocabSize) && request.suffixDigestValid &&
    request.inputDigestValid && !(run.environment.matrixProvider && !run.prewarmed)

/-- The shadow is taken: the alternate branch is retired, the session is the one that the request
    continues and idle, and all of it is copied. -/
def opens (device : Device) : Bool :=
  run.opening.dualReleased &&
    acceptsShadow device.session request.expectedSessionGeneration
      request.expectedPromptTokenIdsFnv1a64 &&
    copies run.opening device.session

/-- The request takes its shadow, of a session to which nothing was committed. -/
def takesShadow (device : Device) : Bool :=
  admits run request && opens run request device &&
    device.session.committedDecodeTokenCount == request.expectedBaseCommittedTokenCount

/-- The transaction after it was opened: it is ready exactly if the shadow is taken. The session
    that was written down is then the one of before, and the shadow keeps its identity. -/
theorem openTransaction_opens (device : Device) :
    ∃ transaction,
      (openTransaction request.expectedSessionGeneration request.expectedPromptTokenIdsFnv1a64
        run.opening device).transaction = some transaction ∧
      transaction.ready = opens run request device ∧
      (opens run request device = true → transaction.original = some device.session ∧
        Kept device.session (openTransaction request.expectedSessionGeneration
          request.expectedPromptTokenIdsFnv1a64 run.opening device).session) := by
  unfold opens openTransaction
  cases hdual : run.opening.dualReleased with
  | false => exact ⟨_, rfl, rfl, fun h => Bool.noConfusion h⟩
  | true =>
      have hretired : (device.releaseDual true).session = device.session := by
        simp [Device.releaseDual]
      rcases cloneSession_spec run.opening (device.releaseDual true) with ⟨hcopies, hkept⟩
      rw [hretired] at hcopies hkept
      simp only [hretired, Bool.not_true, Bool.false_eq_true, if_false, Bool.true_and]
      cases acceptsShadow device.session request.expectedSessionGeneration
          request.expectedPromptTokenIdsFnv1a64 with
      | false => exact ⟨_, rfl, rfl, fun h => Bool.noConfusion h⟩
      | true =>
          simp only [Bool.not_true, Bool.false_eq_true, if_false, Bool.true_and, ← hcopies]
          cases hclone : (cloneSession run.opening (device.releaseDual true)).1 with
          | false => exact ⟨_, rfl, rfl, fun h => Bool.noConfusion h⟩
          | true => exact ⟨_, rfl, rfl, fun _ => ⟨rfl, hkept⟩⟩

/-! ## Committed tokens -/

section Commits

variable (hcommit : run.environment.productCommit = false)

/-- The number of tokens committed to the shadow. -/
def Progress.committed (progress : Progress) : Nat :=
  progress.device.session.committedDecodeTokenCount

include hcommit in
/-- A decode that succeeds has committed what it has delivered. -/
theorem decode_committed (progress : Progress) (token : UInt32) (capacity : Nat)
    (hok : (progress.decode run request token capacity).1.ok = true) :
    (progress.decode run request token capacity).2.committed =
      progress.committed + (capacity - 1) := by
  unfold Progress.decode decodeV1 at hok ⊢
  dsimp only at hok ⊢
  cases haccepts : decodeAccepts (decodeRequest request token capacity)
      progress.device.session with
  | false => simp [haccepts] at hok
  | true =>
      have hreply : (run.decode progress.calls).reply.ok = true := by
        simpa [haccepts] using hok
      simp [Progress.committed, Traces.leave, DecodeRun.commits, hreply, hcommit, decodeRequest]

include hcommit in
theorem suffixStep_yields (n : Nat) (progress : Progress) (token : UInt32)
    (h : progress.committed = n) :
    Yields (fun next => next.committed = n + 1) (suffixStep run request progress token) := by
  unfold suffixStep
  refine Yields.guarded fun _ => Yields.guarded fun hcontract => ?_
  have hok : ((progress.setToken token).decode run request token 2).1.ok = true := by
    simp only [suffixContract, Bool.not_eq_false', Bool.and_eq_true] at hcontract
    exact hcontract.1.1.1.1.1
  have hcommitted := decode_committed run request hcommit (progress.setToken token) token 2 hok
  change ((progress.setToken token).decode run request token 2).2.committed = n + 1
  rw [hcommitted]
  exact congrArg (· + 1) h

include hcommit in
/-- The suffix is committed, one token after the other. -/
theorem runSuffix_yields (progress : Progress) (h : progress.committed = 0) :
    Yields (fun next => next.committed = request.suffix.length)
      (runSuffix run request progress) := by
  have hloop := Yields.foldlM (suffixStep_yields run request hcommit) request.suffix 0 progress h
  rw [Nat.zero_add] at hloop
  exact hloop

/-- The owner commits the whole suffix. -/
theorem runOwner_yields (progress : Progress) (h : progress.committed = 0)
    (howner : q1024OwnerShape run request = true) :
    Yields (fun next => next.committed = request.suffix.length)
      (runOwner run request progress) := by
  unfold runOwner
  refine Yields.guarded fun _ => Yields.guarded fun hcomplete => ?_
  have hlength : request.suffix.length = ownerSuffixTokens := by
    simp only [q1024OwnerShape, Bool.and_eq_true, beq_iff_eq] at howner
    exact howner.2
  have hdone : (run.owner.completed && run.owner.tokens.length == ownerSuffixTokens) = true := by
    simpa using hcomplete
  unfold Yields Progress.committed Traces.leave
  dsimp only
  rw [if_pos hdone, hlength, show progress.device.session.committedDecodeTokenCount = 0 from h]
  exact Nat.zero_add _

include hcommit in
/-- However the suffix is fed, all of it is committed. -/
theorem feed_yields (progress : Progress) (h : progress.committed = 0) :
    Yields (fun next => next.committed = request.suffix.length) (feed run request progress) := by
  unfold feed
  cases howner : q1024OwnerShape run request with
  | false => exact runSuffix_yields run request hcommit progress h
  | true => exact runOwner_yields run request progress h howner

/-- The verifier commits nothing. -/
theorem verifyLast_yields (forced : List UInt32) (progress : Progress) (n : Nat)
    (h : progress.committed = n) :
    Yields (fun next => next.committed = n) (verifyLast run request forced progress) := by
  unfold verifyLast
  cases verifierRequested run request forced with
  | false => exact h
  | true =>
      refine Yields.guarded fun _ => Yields.guarded fun _ => ?_
      cases run.environment.verifyAll || run.frontier.lowMargin with
      | false => exact h
      | true =>
          cases run.verifier with
          | error stage => exact trivial
          | ok token => exact h

/-- As many tokens are committed as were fed and decoded. The last token of the output is not
    committed yet. -/
structure Counted (request : PrefixCall) (progress : Progress) : Prop where
  committed : progress.committed + 1 = request.suffix.length + progress.outputTokens.length
  started : 1 ≤ progress.outputTokens.length
  bounded : progress.outputTokens.length ≤ request.outputTokenCapacity

/-- Calling the callback changes only what it was called with. -/
theorem emit_device (progress : Progress) (index : Nat) (token : UInt32) :
    (progress.emit run request index token).2.device = progress.device ∧
      (progress.emit run request index token).2.outputTokens = progress.outputTokens := by
  unfold Progress.emit
  cases request.emitCallback with
  | false => exact ⟨rfl, rfl⟩
  | true => exact ⟨rfl, rfl⟩

theorem emitSpan_device (tokens : List UInt32) (progress : Progress) (index : Nat) :
    (progress.emitSpan run request index tokens).2.device = progress.device ∧
      (progress.emitSpan run request index tokens).2.outputTokens = progress.outputTokens := by
  induction tokens generalizing progress index with
  | nil => exact ⟨rfl, rfl⟩
  | cons token tokens ih =>
      rcases emit_device run request progress index token with ⟨hdevice, houtput⟩
      unfold Progress.emitSpan
      cases haccepted : (progress.emit run request index token).1 with
      | false => simp [haccepted, hdevice, houtput]
      | true =>
          rcases ih (progress.emit run request index token).2 (index + 1) with
            ⟨hrestDevice, hrestOutput⟩
          simp [haccepted, hrestDevice, hrestOutput, hdevice, houtput]

/-- With the first token the output is begun. -/
theorem sendFirst_yields (forced : List UInt32) (progress : Progress)
    (h : progress.committed = request.suffix.length) (hcapacity : 1 ≤ request.outputTokenCapacity) :
    Yields (Counted request) (sendFirst run request forced progress) := by
  unfold sendFirst
  refine Yields.guarded fun _ => Yields.guarded fun _ => ?_
  rcases emit_device run request (progress.withFirst run request) 0
    ((progress.withFirst run request).outputTokens.headD 0) with ⟨hdevice, houtput⟩
  refine ⟨?_, ?_, ?_⟩
  · rw [houtput]
    unfold Progress.committed
    rw [hdevice]
    exact congrArg (· + 1) h
  · rw [houtput]
    exact Nat.le_refl 1
  · rw [houtput]
    exact hcapacity

/-- A span has at least one token, and no more than are asked for. -/
theorem spanLength_bounds (forced : List UInt32) (progress : Progress)
    (hmore : progress.outputTokens.length < request.outputTokenCapacity) :
    1 ≤ spanLength request forced progress ∧
      progress.outputTokens.length + spanLength request forced progress ≤
        request.outputTokenCapacity := by
  unfold spanLength decodeMaxOutputTokens
  cases forced.isEmpty with
  | false => exact ⟨Nat.le_refl 1, hmore⟩
  | true =>
      rw [if_pos rfl]
      omega

/-- Before the decode of a span at most a token is set. -/
theorem beginSpan_committed (forced : List UInt32) (progress : Progress) :
    (progress.beginSpan forced).committed = progress.committed ∧
      (progress.beginSpan forced).outputTokens = progress.outputTokens := by
  unfold Progress.beginSpan
  cases forced.isEmpty with
  | false => exact ⟨rfl, rfl⟩
  | true => exact ⟨rfl, rfl⟩

/-- Taking over a span adds its tokens, and commits nothing. -/
theorem acceptSpan_yields (reply : DecodeReply) (progress : Progress) :
    Yields (fun next => next.committed = progress.committed ∧
        next.outputTokens = progress.outputTokens ++ reply.outputTokens.tail)
      (acceptSpan run request reply progress) := by
  unfold acceptSpan
  refine Yields.guarded fun _ => Yields.guarded fun _ => ?_
  rcases emitSpan_device run request reply.outputTokens.tail
    { progress.addSpan reply with
      decodeEndNs := progress.decodeEndNs + reply.tpotElapsedNs }
    progress.outputTokens.length with ⟨hdevice, houtput⟩
  refine ⟨?_, houtput⟩
  unfold Progress.committed
  rw [hdevice]
  rfl

include hcommit in
/-- A span adds its tokens to the output, and commits as many. -/
theorem spanStep_yields (forced : List UInt32) (progress : Progress) (h : Counted request progress)
    (hmore : progress.outputTokens.length < request.outputTokenCapacity) :
    Yields (fun next => Counted request next ∧
        progress.outputTokens.length < next.outputTokens.length)
      (spanStep run request forced progress) := by
  rcases spanLength_bounds request forced progress hmore with ⟨hsome, hfits⟩
  rcases beginSpan_committed forced progress with ⟨hbegun, hbegunOutput⟩
  unfold spanStep
  refine Yields.guarded fun _ => Yields.guarded fun hcontract => ?_
  have hdecoded := decode_committed run request hcommit (progress.beginSpan forced)
    (spanToken forced progress) (spanLength request forced progress + 1)
  have houtput : ((progress.beginSpan forced).decode run request (spanToken forced progress)
      (spanLength request forced progress + 1)).2.outputTokens = progress.outputTokens :=
    hbegunOutput
  -- The reply matters only through its contract: it succeeds, and it has the tokens asked for.
  generalize (progress.beginSpan forced).decode run request (spanToken forced progress)
    (spanLength request forced progress + 1) = called at *
  simp only [spanContract, Bool.not_eq_false', Bool.and_eq_true, beq_iff_eq] at hcontract
  rcases hcontract with ⟨⟨⟨⟨⟨⟨⟨hok, _⟩, _⟩, hlength⟩, _⟩, _⟩, _⟩, _⟩
  have hcommitted := hdecoded hok
  have hstarted := h.started
  have hcounted := h.committed
  have haccepted := acceptSpan_yields run request called.1 called.2
  cases hspan : acceptSpan run request called.1 called.2 with
  | error stopped => exact trivial
  | ok next =>
      rw [hspan] at haccepted
      rcases haccepted with ⟨hnext, hnextOutput⟩
      have hadded : next.outputTokens.length =
          progress.outputTokens.length + spanLength request forced progress := by
        simp [hnextOutput, houtput, hlength]
      exact ⟨⟨by omega, by omega, by omega⟩, by omega⟩

include hcommit in
/-- The loop ends with all tokens. Each span has at least one, so there are enough spans. -/
theorem decodeSpans_yields (forced : List UInt32) (spans : Nat) (progress : Progress)
    (h : Counted request progress)
    (henough : request.outputTokenCapacity ≤ progress.outputTokens.length + spans) :
    Yields (fun next => Counted request next ∧
        next.outputTokens.length = request.outputTokenCapacity)
      (decodeSpans run request forced spans progress) := by
  induction spans generalizing progress with
  | zero => exact ⟨h, Nat.le_antisymm h.bounded henough⟩
  | succ spans ih =>
      unfold decodeSpans
      by_cases hmore : progress.outputTokens.length < request.outputTokenCapacity
      · rw [if_pos hmore]
        refine Yields.bind (spanStep_yields run request hcommit forced progress h hmore) ?_
        intro next hnext
        exact ih next hnext.1 (by omega)
      · rw [if_neg hmore]
        exact ⟨h, Nat.le_antisymm h.bounded (Nat.le_of_not_lt hmore)⟩

include hcommit in
/-- A request that gets all its tokens has committed the suffix and the output, but for the last
    token. -/
theorem serve_yields (device : Device) (hcapacity : 1 ≤ request.outputTokenCapacity)
    (h : device.session.committedDecodeTokenCount = 0) :
    Yields (fun progress => Counted request progress ∧
        progress.outputTokens.length = request.outputTokenCapacity)
      (serve run request (Progress.start device)) := by
  unfold serve
  cases run.environment.teacherForced with
  | none => exact trivial
  | some forced =>
      refine Yields.guarded fun _ => ?_
      refine Yields.bind (feed_yields run request hcommit (Progress.start device) h) ?_
      intro fed hfed
      refine Yields.bind (verifyLast_yields run request forced fed _ hfed) ?_
      intro verified hverified
      refine Yields.bind (sendFirst_yields run request forced verified hverified hcapacity) ?_
      intro first hfirst
      exact decodeSpans_yields run request hcommit forced _ first hfirst (Nat.le_add_left _ _)

end Commits

/-! ## Rolling back -/

/-- Rolling back succeeds: the alternate branch is retired, the device can be waited for, and the
    views of the weights are refreshed. -/
def rollsBack (outcome : EndOutcome) : Bool :=
  outcome.dualReleased && outcome.synced && outcome.refreshed

/-- A rollback that succeeds says so, and leaves the session that was written down. -/
theorem rollback_restores (outcome : EndOutcome) (transaction : Transaction)
    (original : SessionState) (device : Device) (h : rollsBack outcome = true)
    (horiginal : transaction.original = some original) :
    (rollback outcome transaction device).1 = true ∧
      (rollback outcome transaction device).2.session = original ∧
      (rollback outcome transaction device).2.transaction =
        some { transaction with shadow := noShadow, ready := false } := by
  simp only [rollsBack, Bool.and_eq_true] at h
  rcases h with ⟨⟨hdual, hsynced⟩, hrefreshed⟩
  have hsession : restored original true = original := by
    simp [restored]
  unfold rollback restoreOriginalAndFreeShadow
  rw [horiginal]
  simp [hdual, hsynced, hrefreshed, hsession, originalAllocationsRestored]

/-- What closing a transaction does that was rolled back. -/
theorem closed_session (transaction : Transaction) (device : Device)
    (h : device.transaction = some { transaction with shadow := noShadow, ready := false }) :
    (closed run device).session = device.session := by
  unfold closed closeTransaction
  rw [h]
  rfl

/-- However the request ends, the session is the one that was written down, and the report says
    so. -/
theorem serveShadow_restores (transaction : Transaction) (original : SessionState)
    (opened : Device) (h : rollsBack run.ending = true)
    (horiginal : transaction.original = some original) :
    (serveShadow run request transaction opened).1.stateRestored = true ∧
      (closed run (serveShadow run request transaction opened).2).session = original := by
  unfold serveShadow
  cases serve run request (Progress.start opened) with
  | error stopped =>
      rcases rollback_restores run.ending transaction original stopped.progress.device h horiginal
        with ⟨hreported, hsession, htransaction⟩
      exact ⟨hreported, (closed_session run transaction _ htransaction).trans hsession⟩
  | ok progress =>
      rcases rollback_restores run.ending transaction original progress.device h horiginal with
        ⟨hreported, hsession, htransaction⟩
      have hclosed := (closed_session run transaction _ htransaction).trans hsession
      unfold finish
      dsimp only
      split_ifs
      · exact ⟨hreported, hclosed⟩
      · exact ⟨hreported, hclosed⟩

/-- The report of a request that was stopped does not say that it is complete. -/
theorem progressed_completed (stage : String) (progress : Progress) :
    (progressed run request stage progress).completed = false := by
  unfold progressed
  cases progress.prefilled with
  | false => rfl
  | true => rfl

/-- What a success reports: the suffix and the output were committed, but for the last token. -/
theorem serveShadow_mutated (transaction : Transaction) (opened : Device)
    (hcommit : run.environment.productCommit = false) (hshape : request.shapeValid = true)
    (h : opened.session.committedDecodeTokenCount = 0)
    (hcompleted : (serveShadow run request transaction opened).1.completed = true) :
    (serveShadow run request transaction opened).1.mutatedCommittedTokenCount =
      request.suffix.length +
        (serveShadow run request transaction opened).1.outputTokens.length - 1 := by
  have hbounds : 1 ≤ request.outputTokenCapacity ∧
      request.suffix.length + (request.outputTokenCapacity - 1) ≤ maxTailTokens := by
    simp only [PrefixCall.shapeValid, Bool.and_eq_true, decide_eq_true_eq, bne_iff_ne] at hshape
    exact ⟨by omega, hshape.2⟩
  have hserved := serve_yields run request hcommit opened hbounds.1 h
  unfold serveShadow at hcompleted ⊢
  cases hresult : serve run request (Progress.start opened) with
  | error stopped =>
      rw [hresult] at hcompleted
      exact absurd (hcompleted.symm.trans (progressed_completed run request _ _)) (by simp)
  | ok progress =>
      rw [hresult] at hserved
      rcases hserved with ⟨hcounted, hlength⟩
      -- The tail is short, so the number of tokens is reported as it is.
      have hreported : Resident.reportedCount progress.device.session.committedDecodeTokenCount =
          request.suffix.length + progress.outputTokens.length - 1 := by
        have hcommitted := hcounted.committed
        unfold Progress.committed at hcommitted
        unfold Resident.reportedCount maxTailTokens at *
        rw [if_pos (by omega)]
        omega
      dsimp only
      unfold finish
      dsimp only
      split_ifs
      · exact hreported
      · exact hreported

/-! ## The request -/

/-- A request whose shadow is not taken reports nothing of the session. -/
theorem prefixV1_of_not_takes (device : Device) (h : takesShadow run request device = false) :
    (prefixV1 run request device).1.stateRestored = false := by
  rcases openTransaction_opens run request device with ⟨transaction, htransaction, hready, hopens⟩
  unfold prefixV1
  split_ifs with hshape htokens hsuffix hinput hprewarm
  · rfl
  · rfl
  · rfl
  · rfl
  · rfl
  · have hadmits : admits run request = true := by
      simp only [Bool.not_eq_true', Bool.not_eq_false] at hshape htokens hsuffix hinput
      rw [admits, hshape, htokens, hsuffix, hinput, eq_false_of_ne_true hprewarm]
      rfl
    unfold transact
    dsimp only
    rw [htransaction]
    dsimp only
    rw [if_pos]
    · rfl
    · -- The shadow does not open, or what is committed is not what the request expects.
      cases hopened : opens run request device with
      | false => simp [shadowReady, hready, hopened]
      | true =>
          have hbase : device.session.committedDecodeTokenCount ≠
              request.expectedBaseCommittedTokenCount := by
            simpa [takesShadow, hadmits, hopened] using h
          simp [baseCommitted, (hopens hopened).1, hbase]

/-- A request whose shadow is taken is served on it. -/
theorem prefixV1_of_takes (device : Device) (h : takesShadow run request device = true) :
    ∃ transaction opened, transaction.original = some device.session ∧
      opened.session.committedDecodeTokenCount = 0 ∧ request.shapeValid = true ∧
      prefixV1 run request device =
        ((serveShadow run request transaction opened).1,
          closed run (serveShadow run request transaction opened).2) := by
  simp only [takesShadow, Bool.and_eq_true, beq_iff_eq] at h
  rcases h with ⟨⟨hadmits, hopened⟩, hbase⟩
  rcases openTransaction_opens run request device with ⟨transaction, htransaction, hready, hopens⟩
  rcases hopens hopened with ⟨horiginal, hkept⟩
  simp only [admits, Bool.and_eq_true] at hadmits
  rcases hadmits with ⟨⟨⟨⟨hshape, htokens⟩, hsuffix⟩, hinput⟩, hprewarm⟩
  rw [Bool.not_eq_true'] at hprewarm
  -- The shape asks for a base without decoded tokens, so the shadow has none.
  have hzero : request.expectedBaseCommittedTokenCount = 0 := by
    simp only [PrefixCall.shapeValid, Bool.and_eq_true, beq_iff_eq] at hshape
    exact hshape.1.1.1.1.1.1.1.1.1.2
  have hvalid : device.session.valid = true := by
    simp only [opens, acceptsShadow, Bool.and_eq_true] at hopened
    exact hopened.1.2.1.1.1.1.1.1
  refine ⟨transaction, _, horiginal, hkept.committed.trans (hbase.trans hzero), hshape, ?_⟩
  unfold prefixV1
  rw [hshape, htokens, hsuffix, hinput, hprewarm]
  simp only [Bool.not_true, Bool.false_eq_true, if_false]
  unfold transact
  dsimp only
  rw [htransaction]
  dsimp only
  rw [if_neg]
  simp [shadowReady, hready, hopened, horiginal, hkept.valid, hvalid, hkept.generation,
    baseCommitted, hbase]

/-! ## Honesty -/

/-- The core forgets nothing because of a report: whichever core gets it, its record of the cached
    prefix stays. -/
def Remembered (reply : PrefixReply) : Prop :=
  ∀ (σ : Type) (cfg : Config) (provider : Provider σ) (host : Host) (callback : Callback)
    (streams : Bool) (engine : Engine) (s : σ) (input : List UInt32) (prefixCount capacity : Nat),
    (provider.prefixV1 s (prefixCall cfg streams engine input prefixCount capacity)).1 = reply →
      (Core.prefixV1 cfg provider host callback streams engine s input prefixCount
        capacity).2.1.identity = engine.identity

/-- A report that the session was restored is enough for the core. -/
theorem remembered_of_restored (reply : PrefixReply) (h : reply.stateRestored = true) :
    Remembered reply := by
  intro σ cfg provider host callback streams engine s input prefixCount capacity hreply
  have hexit := prefixV1_exit cfg provider host callback streams engine s input prefixCount capacity
  generalize Core.prefixV1 cfg provider host callback streams engine s input prefixCount capacity =
    result at hexit ⊢
  cases hexit with
  | missed hmisses hreaches => rfl
  | refused status stage hstatus hstage hmisses hreaches => rfl
  | failed stage identity hstage hidentity hmisses hreaches =>
      rcases hidentity with hidentity | ⟨hlost, _⟩
      · exact hidentity
      · rw [hreply, h] at hlost
        exact Bool.noConfusion hlost
  | answered hcontract hmisses hreaches => rfl

/-- A report that it was not restored makes the core forget the cached prefix. -/
theorem forgotten_of_not_restored {σ : Type} (cfg : Config) (provider : Provider σ) (host : Host)
    (callback : Callback) (streams : Bool) (engine : Engine) (s : σ) (input : List UInt32)
    (prefixCount capacity : Nat)
    (hreaches : prefixReaches cfg host streams engine input prefixCount capacity = true)
    (h : (provider.prefixV1 s
      (prefixCall cfg streams engine input prefixCount capacity)).1.stateRestored = false) :
    (Core.prefixV1 cfg provider host callback streams engine s input prefixCount
      capacity).2.1.identity = engine.identity.clear false := by
  simp only [prefixReaches, Bool.and_eq_true, beq_iff_eq] at hreaches
  rcases hreaches with ⟨⟨⟨⟨⟨hshape, hactive⟩, htokens⟩, hready⟩, hmatches⟩, hloads⟩
  unfold Core.prefixV1
  rw [hshape, htokens, hready, hmatches, hloads, hactive]
  simp only [Bool.not_true, bne_self_eq_false, Bool.or_false, Bool.false_eq_true, if_false]
  rw [if_pos (by simp [prefixContract, h]), h]
  rfl

/-- A request leaves the session as it was, says so whenever that is so, and reports on success how
    far the shadow had got. The core does not forget a session that was left as it was. -/
structure Honest (device : Device) (answered : PrefixReply × Device) : Prop where
  kept : Kept device.session answered.2.session
  reported : Kept device.session answered.2.session → answered.1.stateRestored = true
  mutated : answered.1.completed = true → answered.1.mutatedCommittedTokenCount =
    request.suffix.length + answered.1.outputTokens.length - 1
  remembered : Kept device.session answered.2.session → Remembered answered.1

/-- A request leaves the session as it was and says so exactly if it takes its shadow. -/
theorem prefixV1_restores_iff (device : Device) (h : rollsBack run.ending = true) :
    (Kept device.session (prefixV1 run request device).2.session ∧
        (prefixV1 run request device).1.stateRestored = true) ↔
      takesShadow run request device = true := by
  constructor
  · intro hrestores
    by_contra htakes
    have hsilent := prefixV1_of_not_takes run request device (eq_false_of_ne_true htakes)
    exact absurd (hrestores.2.symm.trans hsilent) (by simp)
  · intro htakes
    rcases prefixV1_of_takes run request device htakes with
      ⟨transaction, opened, horiginal, _, _, hserved⟩
    rcases serveShadow_restores run request transaction device.session opened h horiginal with
      ⟨hreported, hsession⟩
    rw [hserved]
    exact ⟨hsession ▸ Kept.refl device.session, hreported⟩

/-- Without the product commit a request is honest exactly if it takes its shadow. -/
theorem prefixV1_honest_iff (device : Device) (hrollback : rollsBack run.ending = true)
    (hcommit : run.environment.productCommit = false) :
    Honest request device (prefixV1 run request device) ↔
      takesShadow run request device = true := by
  have hrestores := prefixV1_restores_iff run request device hrollback
  constructor
  · intro hhonest
    exact hrestores.mp ⟨hhonest.kept, hhonest.reported hhonest.kept⟩
  · intro htakes
    rcases hrestores.mpr htakes with ⟨hkept, hreported⟩
    refine ⟨hkept, fun _ => hreported, ?_, fun _ => remembered_of_restored _ hreported⟩
    rcases prefixV1_of_takes run request device htakes with
      ⟨transaction, opened, _, hzero, hshape, hserved⟩
    rw [hserved]
    exact serveShadow_mutated run request transaction opened hcommit hshape hzero

/-- Through the core: its record of the cached prefix stays exactly if the request takes its
    shadow. -/
theorem core_remembers_iff {σ : Type} (cfg : Config) (provider : Provider σ) (host : Host)
    (callback : Callback) (streams : Bool) (engine : Engine) (s : σ) (input : List UInt32)
    (prefixCount capacity : Nat) (device : Device) (hrollback : rollsBack run.ending = true)
    (hreaches : prefixReaches cfg host streams engine input prefixCount capacity = true)
    (hreply : (provider.prefixV1 s (prefixCall cfg streams engine input prefixCount capacity)).1 =
      (prefixV1 run (.ofCore (prefixCall cfg streams engine input prefixCount capacity))
        device).1) :
    (Core.prefixV1 cfg provider host callback streams engine s input prefixCount
        capacity).2.1.identity = engine.identity ↔
      takesShadow run (.ofCore (prefixCall cfg streams engine input prefixCount capacity))
        device = true := by
  generalize PrefixCall.ofCore (prefixCall cfg streams engine input prefixCount capacity) =
    sent at hreply ⊢
  constructor
  · intro hidentity
    by_contra htakes
    have hsilent := prefixV1_of_not_takes run sent device (eq_false_of_ne_true htakes)
    have hforgotten := forgotten_of_not_restored cfg provider host callback streams engine s input
      prefixCount capacity hreaches (hreply ▸ hsilent)
    -- The record was valid, and what is forgotten is not.
    have hvalid : engine.identity.sessionValid = true := by
      simp only [prefixReaches, Identity.matches, Bool.and_eq_true] at hreaches
      exact hreaches.1.2.1.1.1.1.1
    rw [← hidentity, hforgotten] at hvalid
    exact Bool.noConfusion hvalid
  · intro htakes
    have hrestored := ((prefixV1_restores_iff run sent device hrollback).mpr htakes).2
    exact remembered_of_restored _ hrestored σ cfg provider host callback streams engine s input
      prefixCount capacity hreply

end Request

/-! ## A request that is served, and one whose thread gets no plans -/

/-- A session of one token, and nothing beside it. -/
def seededDevice : Device :=
  { heap := Heap.empty
    session := { SessionState.empty with
      prefixTokens := 1
      ownerEngine := some 7
      modelDir := "model"
      promptTokenIdsFnv1a64 := digest [1]
      generation := 1
      currentTokenId := 5
      currentTokenValid := true
      requested := true
      routeActive := true
      providerCompleted := true
      valid := true }
    dual := []
    transaction := none }

/-- The request for two tokens after one more token of input. -/
def twoTokens : PrefixCall :=
  { abiValid := true, flags := 0, batchSize := 1, expectedPrefixTokenCount := 1
    suffixTokens := some [2], outputTokenCapacity := 2, expectedBaseCommittedTokenCount := 0
    expectedSessionGeneration := 1, expectedPromptTokenIdsFnv1a64 := digest [1]
    expectedSuffixTokenIdsFnv1a64 := digest [2], reserved0 := 0, inputTokens := some [1, 2]
    expectedInputTokenIdsFnv1a64 := digest [1, 2], emitCallback := false, emitUserData := false }

/-- What a computation leaves that leaves the layers alone. -/
def plainTraces (token : UInt32) : Traces :=
  { linearLayers := fun _ => LinearLayer.empty
    fullAttentionLayers := fun _ => FullLayer.empty
    activationWorkspace := Workspace.empty
    currentTokenId := token
    currentTokenValid := true
    stillValid := true
    heap := Heap.empty
    dual := [] }

/-- A decode that delivers the token 5. -/
def plainDecode (token : UInt32) : DecodeRun :=
  { reply := Resident.serveDecode [5] (decodeRequest twoTokens token 2)
    traces := plainTraces 5
    committed := 0 }

/-- A run in which everything succeeds, but for the plans of the thread if they are asked for. -/
def plainRun (prewarmed : Bool) : PrefixRun :=
  { environment :=
      { matrixProvider := true, q1024Owner := false, teacherForced := some [], verifyAll := false
        verifyLowMargin := false, productCommit := false }
    prewarmed := prewarmed
    prewarmStage := ""
    opening :=
      { dualReleased := true, prioritySynced := true, linear := fun _ => .copied
        full := fun _ => .copied, cloneSynced := true, refreshed := true }
    shadowBytes := 4096
    owner :=
      { planValid := false, completed := false, failureStage := "", tokens := []
        traces := plainTraces 0, committed := 0 }
    decode := fun call => plainDecode (if call = 0 then 2 else 5)
    frontier := { present := false, marginValid := false, lowMargin := false }
    verifier := .error ""
    verifierHeap := Heap.empty
    verifierDual := []
    accepts := fun _ => true
    ttftElapsedNs := 1
    decodeElapsedNs := 1
    totalElapsedNs := 2
    ending := { dualReleased := true, synced := true, refreshed := true } }

/-- A request that is served, with what its report says. -/
theorem twoTokens_honest :
    Honest twoTokens seededDevice (prefixV1 (plainRun true) twoTokens seededDevice) ∧
      (prefixV1 (plainRun true) twoTokens seededDevice).1.completed = true ∧
      (prefixV1 (plainRun true) twoTokens seededDevice).1.outputTokens = [5, 5] :=
  ⟨(prefixV1_honest_iff (plainRun true) twoTokens seededDevice rfl rfl).mpr (by decide +kernel),
    by decide +kernel, by decide +kernel⟩

/-- A request whose thread gets no plans leaves the session, but does not say so. -/
theorem failedPrewarm_notReported :
    ¬ ∀ (run : PrefixRun) (request : PrefixCall) (device : Device),
      rollsBack run.ending = true →
        Honest request device (prefixV1 run request device) := by
  intro h
  have hhonest := h (plainRun false) twoTokens seededDevice rfl
  exact absurd (hhonest.reported hhonest.kept) (by decide +kernel)

end Continuation

end QrtEngine
