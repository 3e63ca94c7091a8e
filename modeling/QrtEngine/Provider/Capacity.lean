import QrtEngine.Library.Run
import QrtEngine.Provider.Capture

/-!
# The Capacity Snapshot over Whole Runs

Between any two requests the slot of the provider should be empty or hold a complete session, and
the last replacement should be complete, for otherwise the capacity snapshot is refused.

It holds as long as no request breaks it, and three kinds of requests do. A capture that replaces
a session and then fails leaves a replacement that never completes, and one that is destroyed
leaves the marker pending as well. The next capture replaces nothing, so it mends neither. A
request that invalidates a session leaves it in the slot. And a prompt whose digest is zero is
captured, but does not count as one.

## Main definitions

* `ReleasesSucceed`: Every release of a request succeeds.
* `Settles`: A request does not break the accounting.
* `Sound`: The slot is empty or complete, and so is the last replacement.

## Theorems

* `perform_sound`, `perform_unready`: What one request does to the accounting.
* `capacitySnapshot_succeeds`: What every run of requests does to it.
-/

namespace QrtEngine

namespace Process

open QrtEngine.Core
open QrtEngine.Layered

/-! ## Conditions on requests -/

/-- The session of a prefill when its layers are captured. -/
def PrefillRun.session (run : PrefillRun) (generation : UInt64) : Session :=
  { Session.empty with
    requested := true
    routeActive := run.request.routeActive
    prefixTokens := run.request.prefixTokens
    ownerEngine := run.request.ownerEngine
    modelDir := run.request.modelDir
    generation := generation
    linearLayers := run.layers.linearLayers
    fullAttentionLayers := run.layers.fullAttentionLayers
    linearCapturedMask := run.layers.linearCapturedMask
    fullAttentionCapturedMask := run.layers.fullAttentionCapturedMask
    linearRecurrentStateBytes := run.layers.linearRecurrentStateBytes
    linearQkvRingBytes := run.layers.linearQkvRingBytes
    fullAttentionKvBytes := run.layers.fullAttentionKvBytes
    fullAttentionDecodeTailBytes := run.layers.fullAttentionDecodeTailBytes
    captureFailureCount := run.layers.captureFailureCount }

/-- The session of a prefill passes every check when it is finalized like this. -/
def PrefillRun.passes (run : PrefillRun) (generation : UInt64) (outcome : FinalizeOutcome) : Bool :=
  captureValid run.request.capture outcome
    (setUpWorkspace run.request.capture outcome (run.session generation))

/-- A prefill ends with a complete session. -/
def PrefillRun.completes (run : PrefillRun) (generation : UInt64) : Bool :=
  match run.ending with
  | none => false
  | some outcome => run.passes generation outcome

/-- If the capture of a prefill comes to nothing, its session is released. -/
def PrefillRun.endReleaseSucceeds (run : PrefillRun) (state : State) : Prop :=
  match run.ending with
  | none => (releaseSession run.endRelease (run.captured state).2).1 = true
  | some outcome =>
      (checked run.request.capture outcome (run.captured state).2).session.valid = false →
        (releaseSession run.endRelease
          (checked run.request.capture outcome (run.captured state).2)).1 = true

/-- Every release of a request succeeds: the one that a capture begins with, the one of a capture
    that comes to nothing, and that of a reset. -/
def ReleasesSucceed (state : State) : Request → Prop
  | .prefill run => run.captures = true → (releaseSession run.release state).1 = true ∧
      (run.request.requested = true → run.endReleaseSucceeds state)
  | .decode _ => True
  | .continueFrom _ => True
  | .reset release _ => (releaseSession release state).1 = true

/-- A request does not break the accounting. A capture that replaces a session completes, and no
    prompt that is captured has the digest zero. The counter of the evictions does not overflow.
    A request that continues a session leaves it valid. -/
def Settles (state : State) : Request → Prop
  | .prefill run => run.captures = true → run.request.requested = true →
      (state.replacementEviction = true →
        run.completes (Resident.nextGeneration state.generationClock) = true ∧
          state.telemetry.evictionCount + 1 ≠ 0) ∧
      (run.completes (Resident.nextGeneration state.generationClock) = true →
        ∀ outcome, run.ending = some outcome → outcome.promptDigest ≠ 0)
  | .decode run => state.session.valid = true → run.accepted = true →
      run.served.stillValid = true
  | .continueFrom run => run.reachesShadow = true → state.session.valid = true →
      (releaseDual run.release state).1 = true ∧
        (run.accepted = true → run.served.stillValid = true)
  | .reset _ _ => True

/-! ## The accounting -/

/-- The snapshot finds nothing to refuse. -/
def State.snapshotReady (state : State) : Bool :=
  state.currentStateValid && state.telemetry.stateValid && !state.telemetry.lastMarkerPending

/-- Nothing is in the slot. -/
structure Vacant (state : State) : Prop where
  session : state.session = Session.empty
  dual : state.dual.allocationBytes = 0
  suffixCache : state.suffixCache.allocationBytes = 0

/-- A complete session is in the slot. -/
structure Complete (state : State) : Prop where
  occupied : state.occupied = true
  workspace : state.session.resources.allocationBytes ≠ 0

/-- The slot is empty or complete, and so is the last replacement. -/
structure Sound (state : State) : Prop where
  slot : Vacant state ∨ Complete state
  eviction : state.telemetry.stateValid = true
  marker : state.telemetry.lastMarkerPending = false

variable {state : State}

theorem Vacant.currentStateValid (h : Vacant state) : state.currentStateValid = true := by
  unfold State.currentStateValid State.occupied State.ownedBytes
  rw [h.session, h.dual, h.suffixCache]
  rfl

theorem Complete.ownedBytes (h : Complete state) : state.ownedBytes ≠ 0 := by
  have hworkspace := h.workspace
  unfold State.ownedBytes
  omega

theorem Complete.currentStateValid (h : Complete state) : state.currentStateValid = true := by
  unfold State.currentStateValid
  rw [h.occupied]
  simp [h.ownedBytes]

theorem Sound.ready (h : Sound state) : state.snapshotReady = true := by
  have hcurrent : state.currentStateValid = true := by
    rcases h.slot with hvacant | hcomplete
    · exact hvacant.currentStateValid
    · exact hcomplete.currentStateValid
  unfold State.snapshotReady
  rw [hcurrent, h.eviction, h.marker]
  rfl

/-- A session that is in the slot and not complete is refused. -/
theorem not_ready_of_owner (howner : state.session.ownerEngine.isSome = true)
    (hoccupied : state.occupied = false) : state.snapshotReady = false := by
  have hcurrent : state.currentStateValid = false := by
    unfold State.currentStateValid
    rw [hoccupied]
    cases hnone : state.session.ownerEngine with
    | none => rw [hnone] at howner; exact absurd howner Bool.false_ne_true
    | some engine => simp
  unfold State.snapshotReady
  rw [hcurrent]
  rfl

theorem not_ready_of_marker (h : state.telemetry.lastMarkerPending = true) :
    state.snapshotReady = false := by
  unfold State.snapshotReady
  rw [h, Bool.not_true, Bool.and_false]

theorem not_ready_of_eviction (h : state.telemetry.stateValid = false) :
    state.snapshotReady = false := by
  unfold State.snapshotReady
  rw [h, Bool.and_false, Bool.false_and]

/-- Emptying the slot keeps the accounting. -/
theorem Sound.vacated {after : State} (h : Sound state) (hvacant : Vacant after)
    (htelemetry : after.telemetry = state.telemetry) : Sound after := by
  refine ⟨Or.inl hvacant, ?_, ?_⟩
  · rw [htelemetry]
    exact h.eviction
  · rw [htelemetry]
    exact h.marker

/-- A sound slot is replaced if it is not empty. -/
theorem Sound.replacementEviction (h : Sound state) :
    (Vacant state ∧ state.replacementEviction = false) ∨
      (Complete state ∧ state.replacementEviction = true) := by
  rcases h.slot with hvacant | hcomplete
  · refine Or.inl ⟨hvacant, ?_⟩
    unfold State.replacementEviction
    rw [hvacant.session]
    rfl
  · refine Or.inr ⟨hcomplete, ?_⟩
    have hoccupied := hcomplete.occupied
    have hbytes := hcomplete.ownedBytes
    unfold State.occupied at hoccupied
    unfold State.replacementEviction
    simp only [Bool.and_eq_true, bne_iff_ne] at hoccupied ⊢
    exact ⟨⟨⟨⟨⟨hoccupied.1.1.1.1, hoccupied.1.1.1.2⟩, hoccupied.1.2⟩, hoccupied.2⟩,
      hoccupied.1.1.2⟩, hbytes⟩

theorem capacitySnapshot_completed (engine : Nat) (liveEngines : List Nat)
    (hlive : engine ∈ liveEngines) :
    (capacitySnapshot (some engine) liveEngines state).completed = state.snapshotReady := by
  unfold capacitySnapshot State.snapshotReady
  simp [hlive]

/-! ## One request -/

section Requests

/-- A release that succeeds empties the slot. -/
theorem releaseSession_vacant (release : ReleaseOutcome) (state : State)
    (h : (releaseSession release state).1 = true) : Vacant (releaseSession release state).2 := by
  refine ⟨releaseSession_session release state h, ?_, ?_⟩
  · rw [(releaseSession_beside release state).1]
    rfl
  · rw [releaseSession_suffixCache release state h]
    rfl

theorem releaseSession_telemetry (release : ReleaseOutcome) (state : State) :
    (releaseSession release state).2.telemetry = state.telemetry :=
  (releaseSession_beside release state).2.2.1

/-! ### Captures -/

variable (run : PrefillRun)

/-- What a prefill has captured, once the session that was there is released. -/
theorem captured_eq (hrequested : run.request.requested = true)
    (hrelease : (releaseSession run.release state).1 = true) :
    run.captured state = (run.request.capture,
      captureLayers run.layers (beginSession run.request run.releaseElapsedNs state
        (releaseSession run.release state).2)) := by
  have hbegun : beginCapture run.release run.releaseElapsedNs run.request state =
      (run.request.capture, beginSession run.request run.releaseElapsedNs state
        (releaseSession run.release state).2) :=
    if_neg (by rw [hrequested, hrelease]; exact Bool.false_ne_true)
  unfold PrefillRun.captured
  rw [hbegun]
  rfl

theorem captured_session (hrequested : run.request.requested = true)
    (hrelease : (releaseSession run.release state).1 = true) :
    (run.captured state).2.session =
      run.session (Resident.nextGeneration state.generationClock) := by
  rcases releaseSession_beside run.release state with ⟨_, _, _, hclock⟩
  rw [captured_eq run hrequested hrelease]
  unfold captureLayers beginSession PrefillRun.session
  dsimp only
  rw [releaseSession_session run.release state hrelease, hclock]

theorem captured_telemetry (hrequested : run.request.requested = true)
    (hrelease : (releaseSession run.release state).1 = true) :
    (run.captured state).2.telemetry =
      if state.replacementEviction then
        evicted state (releaseSession run.release state).2 run.request run.releaseElapsedNs
      else state.telemetry := by
  rw [captured_eq run hrequested hrelease, ← releaseSession_telemetry run.release state]
  rfl

theorem prefill_eq (hcaptures : run.captures = true) (hrequested : run.request.requested = true)
    (hrelease : (releaseSession run.release state).1 = true) :
    prefill run state =
      match run.ending with
      | none => (releaseSession run.endRelease (run.captured state).2).2
      | some outcome => (finalizeCapture run.endRelease run.request.capture outcome
          (run.captured state).2).setFirstToken run.firstToken := by
  unfold prefill
  rw [hcaptures, captured_eq run hrequested hrelease]
  cases run.ending <;> rfl

/-- What the checks of a capture ensure. -/
theorem captureValid_facts (capture : Capture) (outcome : FinalizeOutcome) (session : Session)
    (h : captureValid capture outcome session = true) :
    outcome.providerCompleted = true ∧ session.ownerEngine.isSome = true ∧
      session.resources.allocationBytes = activationWorkspaceBytes := by
  unfold captureValid workspacePrerequisites workspaceLayoutValid at h
  simp only [Bool.and_eq_true, beq_iff_eq] at h
  rcases h with ⟨⟨⟨hprerequisites, _⟩, hworkspace⟩, _⟩
  rcases hprerequisites with ⟨⟨⟨⟨⟨⟨_, hcompleted⟩, howner⟩, _⟩, _⟩, _⟩, _⟩
  rcases hworkspace with ⟨⟨⟨⟨_, hlayout⟩, _⟩, _⟩, _⟩
  exact ⟨hcompleted, howner, hlayout.1.1.2⟩

theorem setUpWorkspace_generation (capture : Capture) (outcome : FinalizeOutcome)
    (session : Session) :
    (setUpWorkspace capture outcome session).generation = session.generation := by
  unfold setUpWorkspace
  split <;> rfl

section Checked

variable (outcome : FinalizeOutcome) (hrequested : run.request.requested = true)
  (hrelease : (releaseSession run.release state).1 = true)

include hrequested hrelease

theorem checked_valid :
    (checked run.request.capture outcome (run.captured state).2).session.valid =
      run.passes (Resident.nextGeneration state.generationClock) outcome := by
  unfold checked PrefillRun.passes
  dsimp only
  rw [captured_session run hrequested hrelease]

theorem checked_generation :
    (checked run.request.capture outcome (run.captured state).2).session.generation =
      Resident.nextGeneration state.generationClock := by
  unfold checked
  dsimp only
  rw [setUpWorkspace_generation, captured_session run hrequested hrelease]
  rfl

/-- A session that has passed every check owns a workspace. -/
theorem checked_workspace
    (hpasses : run.passes (Resident.nextGeneration state.generationClock) outcome = true) :
    (checked run.request.capture outcome
        (run.captured state).2).session.ownerEngine.isSome = true ∧
      (checked run.request.capture outcome
        (run.captured state).2).session.resources.allocationBytes ≠ 0 := by
  rcases captureValid_facts _ _ _ hpasses with ⟨_, howner, hbytes⟩
  unfold checked
  dsimp only
  rw [captured_session run hrequested hrelease]
  refine ⟨howner, ?_⟩
  rw [hbytes]
  decide

/-- The session in the slot is complete if it has passed every check and its prompt has a
    digest. -/
theorem checked_occupied
    (hpasses : run.passes (Resident.nextGeneration state.generationClock) outcome = true) :
    (checked run.request.capture outcome (run.captured state).2).occupied =
      (outcome.promptDigest != 0) := by
  have hvalid := checked_valid run outcome hrequested hrelease
  have hgeneration := checked_generation run outcome hrequested hrelease
  have howner := (checked_workspace run outcome hrequested hrelease hpasses).1
  have hcompleted : (checked run.request.capture outcome
      (run.captured state).2).session.providerCompleted = true :=
    (captureValid_facts _ _ _ hpasses).1
  unfold State.occupied
  rw [hvalid, hpasses, hcompleted, howner, hgeneration]
  have hdigest : (checked run.request.capture outcome
      (run.captured state).2).session.promptTokenIdsFnv1a64 = outcome.promptDigest := rfl
  rw [hdigest]
  simp [Resident.nextGeneration_ne_zero]

/-- A capture that replaces nothing leaves the telemetry alone. -/
theorem checked_telemetry_first (hfirst : state.replacementEviction = false)
    (hmarker : state.telemetry.lastMarkerPending = false) :
    (checked run.request.capture outcome (run.captured state).2).telemetry =
      state.telemetry := by
  have htelemetry := captured_telemetry run hrequested hrelease
  rw [hfirst, if_neg Bool.false_ne_true] at htelemetry
  unfold checked replaced
  dsimp only
  rw [htelemetry, hmarker]
  rfl

/-- The replacement is complete if its session has passed every check, and if the counter of the
    evictions and the digest of the prompt are not zero. -/
theorem checked_telemetry_replacement (hreplaces : state.replacementEviction = true) :
    (checked run.request.capture outcome (run.captured state).2).telemetry.lastMarkerPending =
        false ∧
      (checked run.request.capture outcome (run.captured state).2).telemetry.stateValid =
        (state.telemetry.evictionCount + 1 != 0 && outcome.promptDigest != 0 &&
          run.passes (Resident.nextGeneration state.generationClock) outcome) := by
  have htelemetry := captured_telemetry run hrequested hrelease
  rw [hreplaces, if_pos rfl] at htelemetry
  have hbefore : state.ownedBytes ≠ 0 := by
    unfold State.replacementEviction at hreplaces
    simp only [Bool.and_eq_true, bne_iff_ne] at hreplaces
    exact hreplaces.2
  have hafter := releaseSession_ownedBytes run.release state hrelease
  have hgeneration := checked_generation run outcome hrequested hrelease
  have hvalid := checked_valid run outcome hrequested hrelease
  rcases releaseSession_beside run.release state with ⟨_, _, hreleased, hclock⟩
  -- The marker is of this very session, so it is the one that is completed.
  have hpending : ((run.captured state).2.telemetry.lastMarkerPending &&
      (run.captured state).2.telemetry.lastReplacementSessionGeneration ==
        (setUpWorkspace run.request.capture outcome
          (run.captured state).2.session).generation) = true := by
    rw [htelemetry]
    change (true && _) = true
    rw [show (setUpWorkspace run.request.capture outcome
      (run.captured state).2.session).generation = _ from hgeneration]
    simp [evicted, hclock]
  have hchecked : (checked run.request.capture outcome (run.captured state).2).telemetry =
      { evicted state (releaseSession run.release state).2 run.request run.releaseElapsedNs with
        lastReplacementPromptTokenIdsFnv1a64 := outcome.promptDigest
        lastReplacementResidentStateBytes :=
          (checked run.request.capture outcome (run.captured state).2).ownedBytes
        lastReplacementCompleted :=
          run.passes (Resident.nextGeneration state.generationClock) outcome
        lastMarkerPending := false } := by
    rw [← hvalid, ← htelemetry]
    exact if_pos hpending
  refine ⟨by rw [hchecked], ?_⟩
  rw [hchecked]
  cases hpasses : run.passes (Resident.nextGeneration state.generationClock) outcome with
  | false => simp [EvictionTelemetry.stateValid, evicted]
  | true =>
      have hworkspace := (checked_workspace run outcome hrequested hrelease hpasses).2
      have hbytes :
          (checked run.request.capture outcome (run.captured state).2).ownedBytes ≠ 0 := by
        unfold State.ownedBytes
        omega
      have hgenerated := Resident.nextGeneration_ne_zero
        (releaseSession run.release state).2.generationClock
      simp [EvictionTelemetry.stateValid, evicted, hafter, hreleased, bne_iff_ne.mpr hbefore,
        bne_iff_ne.mpr hbytes, bne_iff_ne.mpr hgenerated]

end Checked

/-! ### Prefills -/

theorem setFirstToken_snapshotReady (token : Option UInt32) :
    (state.setFirstToken token).snapshotReady = state.snapshotReady := by
  unfold State.setFirstToken
  cases token with
  | none => rfl
  | some token =>
      dsimp only
      split <;> rfl

theorem Sound.setFirstToken (token : Option UInt32) (h : Sound state) :
    Sound (state.setFirstToken token) := by
  unfold State.setFirstToken
  cases token with
  | none => exact h
  | some token =>
      dsimp only
      split
      · rename_i hvalid
        refine ⟨?_, h.eviction, h.marker⟩
        rcases h.slot with hvacant | hcomplete
        · rw [hvacant.session] at hvalid
          exact absurd hvalid Bool.false_ne_true
        · exact Or.inr ⟨hcomplete.occupied, hcomplete.workspace⟩
      · exact h

section Endings

variable (outcome : FinalizeOutcome) (hrequested : run.request.requested = true)
  (hrelease : (releaseSession run.release state).1 = true)

include hrequested hrelease

/-- A capture that is destroyed empties the slot. It leaves a marker if it was a replacement. -/
theorem destroyed_sound (hsound : Sound state) (hfirst : state.replacementEviction = false)
    (hend : (releaseSession run.endRelease (run.captured state).2).1 = true) :
    Sound (releaseSession run.endRelease (run.captured state).2).2 := by
  have htelemetry := captured_telemetry run hrequested hrelease
  rw [hfirst, if_neg Bool.false_ne_true] at htelemetry
  refine hsound.vacated (releaseSession_vacant _ _ hend) ?_
  rw [releaseSession_telemetry, htelemetry]

theorem destroyed_unready (hreplaces : state.replacementEviction = true) :
    (releaseSession run.endRelease (run.captured state).2).2.snapshotReady = false := by
  have htelemetry := captured_telemetry run hrequested hrelease
  rw [hreplaces, if_pos rfl] at htelemetry
  refine not_ready_of_marker ?_
  rw [releaseSession_telemetry, htelemetry]
  rfl

/-- A capture that fails a check empties the slot. It leaves a replacement that is not complete if
    it was one. -/
theorem failed_sound (hsound : Sound state) (hfirst : state.replacementEviction = false)
    (hend : (releaseSession run.endRelease
      (checked run.request.capture outcome (run.captured state).2)).1 = true) :
    Sound (releaseSession run.endRelease
      (checked run.request.capture outcome (run.captured state).2)).2 := by
  refine hsound.vacated (releaseSession_vacant _ _ hend) ?_
  rw [releaseSession_telemetry]
  exact checked_telemetry_first run outcome hrequested hrelease hfirst hsound.marker

theorem failed_unready (hreplaces : state.replacementEviction = true)
    (hpasses : run.passes (Resident.nextGeneration state.generationClock) outcome = false) :
    (releaseSession run.endRelease
      (checked run.request.capture outcome (run.captured state).2)).2.snapshotReady = false := by
  refine not_ready_of_eviction ?_
  rw [releaseSession_telemetry,
    (checked_telemetry_replacement run outcome hrequested hrelease hreplaces).2, hpasses,
    Bool.and_false]

/-- A capture that passes every check leaves a complete session, unless the digest of its prompt
    is zero. -/
theorem passed_sound (hsound : Sound state) (hdigest : outcome.promptDigest ≠ 0)
    (hcount : state.replacementEviction = true → state.telemetry.evictionCount + 1 ≠ 0)
    (hpasses : run.passes (Resident.nextGeneration state.generationClock) outcome = true) :
    Sound (checked run.request.capture outcome (run.captured state).2) := by
  have hcomplete : Complete (checked run.request.capture outcome (run.captured state).2) := by
    refine ⟨?_, (checked_workspace run outcome hrequested hrelease hpasses).2⟩
    rw [checked_occupied run outcome hrequested hrelease hpasses]
    exact bne_iff_ne.mpr hdigest
  cases hcase : state.replacementEviction with
  | false =>
      have htelemetry :=
        checked_telemetry_first run outcome hrequested hrelease hcase hsound.marker
      refine ⟨Or.inr hcomplete, ?_, ?_⟩
      · rw [htelemetry]
        exact hsound.eviction
      · rw [htelemetry]
        exact hsound.marker
  | true =>
      rcases checked_telemetry_replacement run outcome hrequested hrelease hcase with
        ⟨hmarker, hvalid⟩
      refine ⟨Or.inr hcomplete, ?_, hmarker⟩
      rw [hvalid, hpasses, bne_iff_ne.mpr hdigest, bne_iff_ne.mpr (hcount hcase)]
      rfl

theorem passed_unready
    (hbreaks : outcome.promptDigest = 0 ∨
      (state.replacementEviction = true ∧ state.telemetry.evictionCount + 1 = 0))
    (hpasses : run.passes (Resident.nextGeneration state.generationClock) outcome = true) :
    (checked run.request.capture outcome (run.captured state).2).snapshotReady = false := by
  rcases hbreaks with hdigest | ⟨hreplaces, hcount⟩
  · refine not_ready_of_owner (checked_workspace run outcome hrequested hrelease hpasses).1 ?_
    rw [checked_occupied run outcome hrequested hrelease hpasses, hdigest]
    rfl
  · refine not_ready_of_eviction ?_
    rw [(checked_telemetry_replacement run outcome hrequested hrelease hreplaces).2, hcount]
    rfl

/-- A capture that was finalized keeps a session that has passed every check, and no other. -/
theorem finalizeCapture_eq :
    finalizeCapture run.endRelease run.request.capture outcome (run.captured state).2 =
      if run.passes (Resident.nextGeneration state.generationClock) outcome then
        checked run.request.capture outcome (run.captured state).2
      else (releaseSession run.endRelease
        (checked run.request.capture outcome (run.captured state).2)).2 := by
  rw [← checked_valid run outcome hrequested hrelease]
  rfl

end Endings

/-- A prefill that settles keeps the accounting. -/
theorem prefill_sound (hsound : Sound state) (hreleases : ReleasesSucceed state (.prefill run))
    (hsettles : Settles state (.prefill run)) : Sound (prefill run state) := by
  by_cases hcaptures : run.captures = true
  · rcases hreleases hcaptures with ⟨hrelease, hend⟩
    by_cases hrequested : run.request.requested = true
    · rcases hsettles hcaptures hrequested with ⟨hreplaces, hdigest⟩
      have hended := hend hrequested
      have hfirst (hfails : run.completes (Resident.nextGeneration state.generationClock) = false) :
          state.replacementEviction = false := by
        cases hcase : state.replacementEviction with
        | true => exact absurd (hreplaces hcase).1 (by rw [hfails]; exact Bool.false_ne_true)
        | false => rfl
      rw [prefill_eq run hcaptures hrequested hrelease]
      unfold PrefillRun.endReleaseSucceeds at hended
      unfold PrefillRun.completes at hfirst hdigest
      -- The capture is given up, or it is checked at the end and passes or fails.
      cases hending : run.ending with
      | none =>
          rw [hending] at hended hfirst
          exact destroyed_sound run hrequested hrelease hsound (hfirst rfl) hended
      | some outcome =>
          rw [hending] at hended hfirst hdigest
          refine Sound.setFirstToken _ ?_
          rw [finalizeCapture_eq run outcome hrequested hrelease]
          cases hpasses : run.passes (Resident.nextGeneration state.generationClock) outcome with
          | false =>
              rw [if_neg Bool.false_ne_true]
              refine failed_sound run outcome hrequested hrelease hsound (hfirst hpasses)
                (hended ?_)
              rw [checked_valid run outcome hrequested hrelease, hpasses]
          | true =>
              rw [if_pos rfl]
              exact passed_sound run outcome hrequested hrelease hsound
                (hdigest hpasses outcome rfl) (fun h => (hreplaces h).2) hpasses
    · rw [Bool.not_eq_true] at hrequested
      rw [prefill_unrequested run state hcaptures hrequested]
      exact hsound.vacated (releaseSession_vacant _ _ hrelease) (releaseSession_telemetry _ _)
  · rw [Bool.not_eq_true] at hcaptures
    unfold prefill
    rw [hcaptures]
    exact hsound

/-- A prefill that does not settle breaks the accounting. -/
theorem prefill_unready (hreleases : ReleasesSucceed state (.prefill run))
    (hsettles : ¬ Settles state (.prefill run)) : (prefill run state).snapshotReady = false := by
  have hcaptures : run.captures = true := by
    by_contra hnot
    exact hsettles fun h => absurd h hnot
  have hrequested : run.request.requested = true := by
    by_contra hnot
    exact hsettles fun _ h => absurd h hnot
  have hrelease := (hreleases hcaptures).1
  have hbreaks := mt (fun h => fun _ _ => h) hsettles
  rw [prefill_eq run hcaptures hrequested hrelease]
  unfold PrefillRun.completes at hbreaks
  -- If any of these endings kept the accounting, the prefill would settle.
  cases hending : run.ending with
  | none =>
      rw [hending] at hbreaks
      refine destroyed_unready run hrequested hrelease ?_
      by_contra hfirst
      exact hbreaks ⟨fun h => absurd h hfirst, fun h => absurd h Bool.false_ne_true⟩
  | some outcome =>
      rw [hending] at hbreaks
      rw [setFirstToken_snapshotReady, finalizeCapture_eq run outcome hrequested hrelease]
      cases hpasses : run.passes (Resident.nextGeneration state.generationClock) outcome with
      | false =>
          rw [if_neg Bool.false_ne_true]
          refine failed_unready run outcome hrequested hrelease ?_ hpasses
          by_contra hfirst
          refine hbreaks ⟨fun h => absurd h hfirst, fun h => ?_⟩
          exact absurd (hpasses.symm.trans h) Bool.false_ne_true
      | true =>
          rw [if_pos rfl]
          refine passed_unready run outcome hrequested hrelease ?_ hpasses
          by_contra hneither
          rw [not_or, not_and] at hneither
          refine hbreaks ⟨fun h => ⟨hpasses, hneither.2 h⟩, fun _ other hother => ?_⟩
          rw [← Option.some.inj hother]
          exact hneither.1

/-! ### Requests that continue a session -/

/-- The session stays complete if it stays valid. -/
theorem Complete.serve (served : Served) (h : Complete state) (hvalid : served.stillValid = true) :
    Complete (serve served state) := by
  have hoccupied := h.occupied
  refine ⟨?_, h.workspace⟩
  unfold State.occupied at hoccupied ⊢
  unfold Process.serve
  dsimp only
  rw [hvalid, Bool.and_true]
  exact hoccupied

/-- A session that is no longer valid stays in the slot. -/
theorem unready_of_invalid (h : Complete state) {after : State}
    (howner : after.session.ownerEngine = state.session.ownerEngine)
    (hvalid : after.session.valid = false) : after.snapshotReady = false := by
  have hoccupied := h.occupied
  unfold State.occupied at hoccupied
  simp only [Bool.and_eq_true] at hoccupied
  refine not_ready_of_owner ?_ ?_
  · rw [howner]
    exact hoccupied.1.1.2
  · unfold State.occupied
    rw [hvalid]
    rfl

theorem Complete.valid (h : Complete state) : state.session.valid = true := by
  have hoccupied := h.occupied
  unfold State.occupied at hoccupied
  simp only [Bool.and_eq_true] at hoccupied
  exact hoccupied.1.1.1.1

theorem decode_sound (run : DecodeRun) (hsound : Sound state)
    (hsettles : Settles state (.decode run)) : Sound (decode run state) := by
  unfold decode
  rcases hsound.slot with hvacant | hcomplete
  · -- There is nothing to decode from.
    rw [if_pos (by rw [hvacant.session]; rfl)]
    exact hsound
  · by_cases haccepted : run.accepted = true
    · rw [if_neg (by rw [hcomplete.valid, haccepted]; exact Bool.false_ne_true)]
      have hserved := hcomplete.serve run.served (hsettles hcomplete.valid haccepted)
      exact ⟨Or.inr ⟨hserved.occupied, hserved.workspace⟩, hsound.eviction, hsound.marker⟩
    · rw [Bool.not_eq_true] at haccepted
      rw [if_pos (by rw [haccepted, Bool.and_false]; rfl)]
      exact hsound

theorem decode_unready (run : DecodeRun) (hsound : Sound state)
    (hsettles : ¬ Settles state (.decode run)) : (decode run state).snapshotReady = false := by
  have hvalid : state.session.valid = true := by
    by_contra hnot
    exact hsettles fun h => absurd h hnot
  have haccepted : run.accepted = true := by
    by_contra hnot
    exact hsettles fun _ h => absurd h hnot
  have hinvalid : run.served.stillValid = false := by
    rw [← Bool.not_eq_true]
    exact fun h => hsettles fun _ _ => h
  unfold decode
  rw [if_neg (by rw [hvalid, haccepted]; exact Bool.false_ne_true)]
  rcases hsound.slot with hvacant | hcomplete
  · rw [hvacant.session] at hvalid
    exact absurd hvalid Bool.false_ne_true
  · refine unready_of_invalid hcomplete rfl ?_
    change (state.session.valid && run.served.stillValid) = false
    rw [hinvalid, Bool.and_false]

/-- Retiring the second branch leaves the slot as it is, if it succeeds. -/
theorem releaseDual_slot (release : ReleaseOutcome) (hslot : Vacant state ∨ Complete state)
    (h : state.session.valid = true → (releaseDual release state).1 = true) :
    Vacant (releaseDual release state).2 ∨ Complete (releaseDual release state).2 := by
  have hsession := releaseDual_session release state
  rcases hslot with hvacant | hcomplete
  · refine Or.inl ⟨?_, ?_, ?_⟩
    · rw [hsession, hvacant.session]
      rfl
    · rw [releaseDual_dual]
      rfl
    · rw [releaseDual_suffixCache]
      exact hvacant.suffixCache
  · rw [h hcomplete.valid, Bool.and_true] at hsession
    have hoccupied := hcomplete.occupied
    refine Or.inr ⟨?_, ?_⟩
    · unfold State.occupied at hoccupied ⊢
      rw [hsession]
      exact hoccupied
    · rw [hsession]
      exact hcomplete.workspace

theorem continueFrom_sound (run : PrefixRun) (hsound : Sound state)
    (hsettles : Settles state (.continueFrom run)) : Sound (continueFrom run state) := by
  unfold continueFrom
  by_cases hreaches : run.reachesShadow = true
  · rw [if_neg (by rw [hreaches]; exact Bool.false_ne_true)]
    have hsettled := hsettles hreaches
    have hretired : Sound (releaseDual run.release state).2 := by
      refine ⟨releaseDual_slot run.release hsound.slot fun h => (hsettled h).1, ?_, ?_⟩
      · rw [releaseDual_telemetry]
        exact hsound.eviction
      · rw [releaseDual_telemetry]
        exact hsound.marker
    dsimp only
    split
    · exact hretired
    · rename_i haccepted
      simp only [Bool.not_eq_true', Bool.not_eq_false, Bool.and_eq_true] at haccepted
      have hvalid : state.session.valid = true := by
        have hkept := haccepted.1.2
        rw [releaseDual_session] at hkept
        exact (Bool.and_eq_true_iff.mp hkept).1
      -- The provider goes on only with a session, and with the one that is held complete.
      rcases hretired.slot with hvacant | hcomplete
      · rw [hvacant.session] at haccepted
        exact absurd haccepted.1.2 Bool.false_ne_true
      · have hserved := hcomplete.serve run.served ((hsettled hvalid).2 haccepted.2)
        exact ⟨Or.inr hserved, hretired.eviction, hretired.marker⟩
  · rw [Bool.not_eq_true] at hreaches
    rw [if_pos (by rw [hreaches]; rfl)]
    exact hsound

theorem continueFrom_unready (run : PrefixRun) (hsound : Sound state)
    (hsettles : ¬ Settles state (.continueFrom run)) :
    (continueFrom run state).snapshotReady = false := by
  have hreaches : run.reachesShadow = true := by
    by_contra hnot
    exact hsettles fun h => absurd h hnot
  have hvalid : state.session.valid = true := by
    by_contra hnot
    exact hsettles fun _ h => absurd h hnot
  have hbreaks := mt (fun h => fun _ _ => h) hsettles
  have hcomplete : Complete state := by
    rcases hsound.slot with hvacant | hcomplete
    · rw [hvacant.session] at hvalid
      exact absurd hvalid Bool.false_ne_true
    · exact hcomplete
  have hsession := releaseDual_session run.release state
  unfold continueFrom
  rw [if_neg (by rw [hreaches]; exact Bool.false_ne_true)]
  cases hretired : (releaseDual run.release state).1 with
  | false =>
      -- The failure to retire the second branch is charged to the session.
      dsimp only
      rw [hretired, Bool.false_and, Bool.false_and, Bool.not_false, if_pos rfl]
      refine unready_of_invalid hcomplete ?_ ?_
      · rw [hsession]
      · rw [hsession, hretired, Bool.and_false]
  | true =>
      rw [hretired, hvalid] at hsession
      have haccepted : run.accepted = true := by
        by_contra hnot
        exact hbreaks ⟨hretired, fun h => absurd h hnot⟩
      have hinvalid : run.served.stillValid = false := by
        rw [← Bool.not_eq_true]
        exact fun h => hbreaks ⟨hretired, fun _ => h⟩
      dsimp only
      rw [if_neg (by rw [hretired, hsession, haccepted]; exact Bool.false_ne_true)]
      refine unready_of_invalid hcomplete ?_ ?_
      · change (releaseDual run.release state).2.session.ownerEngine = _
        rw [hsession]
      · change ((releaseDual run.release state).2.session.valid && run.served.stillValid) = false
        rw [hinvalid, Bool.and_false]

theorem reset_sound (release : ReleaseOutcome) (request : ResetRequest) (hsound : Sound state)
    (hreleases : ReleasesSucceed state (.reset release request)) :
    Sound (reset release request state) := by
  unfold reset
  split
  · exact hsound.vacated (releaseSession_vacant release state hreleases)
      (releaseSession_telemetry release state)
  · exact hsound

end Requests

/-! ## Runs -/

/-- A request that settles keeps the accounting. -/
theorem perform_sound (request : Request) (hsound : Sound state)
    (hreleases : ReleasesSucceed state request) (hsettles : Settles state request) :
    Sound (perform request state) := by
  cases request with
  | prefill run => exact prefill_sound run hsound hreleases hsettles
  | decode run => exact decode_sound run hsound hsettles
  | continueFrom run => exact continueFrom_sound run hsound hsettles
  | reset release request => exact reset_sound release request hsound hreleases

/-- A request that does not settle breaks it. -/
theorem perform_unready (request : Request) (hsound : Sound state)
    (hreleases : ReleasesSucceed state request) (hsettles : ¬ Settles state request) :
    (perform request state).snapshotReady = false := by
  cases request with
  | prefill run => exact prefill_unready run hreleases hsettles
  | decode run => exact decode_unready run hsound hsettles
  | continueFrom run => exact continueFrom_unready run hsound hsettles
  | reset release request => exact absurd trivial hsettles

theorem initial_sound : Sound State.initial :=
  ⟨Or.inl ⟨rfl, rfl, rfl⟩, rfl, rfl⟩

/-- In every run of requests that settle, the accounting is kept. -/
theorem reachable_sound (h : Run.Reachable step
    (fun state request => ReleasesSucceed state request ∧ Settles state request)
    (· = State.initial) state) : Sound state := by
  refine Run.Reachable.invariant Sound ?_ ?_ h
  · rintro _ rfl
    exact initial_sound
  · intro before request after hsound hok hstep
    rw [← Option.some.inj hstep]
    exact perform_sound request hsound hok.1 hok.2

/-- In every run of requests that settle, the snapshot succeeds in every state that is reached, and
    after one more request it succeeds exactly if that one settles too. -/
theorem capacitySnapshot_succeeds (engine : Nat) (liveEngines : List Nat)
    (hlive : engine ∈ liveEngines) (h : Run.Reachable step
      (fun state request => ReleasesSucceed state request ∧ Settles state request)
      (· = State.initial) state) :
    (capacitySnapshot (some engine) liveEngines state).completed = true ∧
      ∀ request, ReleasesSucceed state request →
        ((capacitySnapshot (some engine) liveEngines (perform request state)).completed = true ↔
          Settles state request) := by
  have hsound := reachable_sound h
  refine ⟨?_, ?_⟩
  · rw [capacitySnapshot_completed engine liveEngines hlive]
    exact hsound.ready
  · intro request hreleases
    rw [capacitySnapshot_completed engine liveEngines hlive]
    constructor
    · intro hready
      by_contra hsettles
      rw [perform_unready request hsound hreleases hsettles] at hready
      exact absurd hready Bool.false_ne_true
    · exact fun hsettles => (perform_sound request hsound hreleases hsettles).ready

/-! ## Runs of an engine -/

/-- The layers of a prefill that captures all of them, with allocations from a number on. -/
def wholeLayers (base : Nat) : CapturedLayers :=
  { linearLayers := fun layer =>
      if attentionKind layer = .linear then
        { LinearLayer.empty with deviceAllocation := some (base + layer), valid := true }
      else LinearLayer.empty
    fullAttentionLayers := fun layer =>
      if attentionKind layer = .full then
        { FullLayer.empty with deviceAllocation := some (base + layer), valid := true }
      else FullLayer.empty
    linearCapturedMask := layerMask .linear
    fullAttentionCapturedMask := layerMask .full
    linearRecurrentStateBytes := 62914560
    linearQkvRingBytes := 1966080
    fullAttentionKvBytes := 40960
    fullAttentionDecodeTailBytes := 0
    captureFailureCount := 0
    heap := { allocated := base + layerCount, freed := List.range base } }

/-- A capture that is finalized, with a workspace that could be set up or not. -/
def finalizing (base : Nat) (generation : UInt64) (status : Bool) : FinalizeOutcome :=
  { providerCompleted := true
    promptDigest := digest [1]
    workspaceStatus := status
    workspace := { Workspace.empty with allocated := true, valid := true, generation := generation }
    resources := { Resources.empty with
      deviceAllocation := some (base + layerCount)
      fullAttentionScoreScratchAllocation := some (base + layerCount + 1)
      allocationBytes := activationWorkspaceBytes
      fullAttentionScoreScratchAllocationBytes := 1024 }
    heap := { allocated := base + layerCount + 2, freed := List.range base }
    interiorLayoutValid := true
    directOutputPlanValid := status
    preboundLayerPlanValid := true
    aggregateRunMetadataRequested := false
    aggregateRunMetadataReady := false }

/-- A prefill of an engine, which ends in one way or another. -/
def prefilling (base : Nat) (ending : Option FinalizeOutcome) : PrefillRun :=
  { captures := true
    request := { requested := true, routeActive := true, prefixTokens := 1, ownerEngine := some 7
                 modelDir := "model" }
    release := ReleaseOutcome.healthy
    releaseElapsedNs := 1
    layers := wholeLayers base
    ending := ending
    endRelease := ReleaseOutcome.healthy
    firstToken := some 5 }

/-- A first prefill, with a session of its own. -/
def firstPrefill : Request := .prefill (prefilling 0 (some (finalizing 0 1 true)))

/-- A prefill that replaces the session. -/
def secondPrefill : Request := .prefill (prefilling 42 (some (finalizing 42 2 true)))

/-- A prefill that would replace the session, but whose workspace cannot be set up. -/
def failedPrefill : Request := .prefill (prefilling 42 (some (finalizing 42 2 false)))

/-- A prefill after that. -/
def thirdPrefill : Request := .prefill (prefilling 84 (some (finalizing 84 3 true)))

theorem firstPrefill_settles :
    ReleasesSucceed State.initial firstPrefill ∧ Settles State.initial firstPrefill := by
  refine ⟨fun _ => ⟨by decide +kernel, fun _ => ?_⟩,
    fun _ _ => ⟨fun h => ?_, fun _ outcome h => ?_⟩⟩
  · change _ = false → _
    exact fun h => absurd h (by decide +kernel)
  · exact absurd h (by decide +kernel)
  · obtain rfl := Option.some.inj h
    decide +kernel

/-- After a first prefill the snapshot succeeds, and a replacement that completes keeps it so. -/
theorem replacement_keepsSnapshot :
    (capacitySnapshot (some 7) [7] (perform firstPrefill State.initial)).completed = true ∧
      (capacitySnapshot (some 7) [7]
        (perform secondPrefill (perform firstPrefill State.initial))).completed = true := by
  have hreachable : Run.Reachable step
      (fun state request => ReleasesSucceed state request ∧ Settles state request)
      (· = State.initial) (perform firstPrefill State.initial) :=
    ⟨_, rfl, Run.Reaches.tail _ _ firstPrefill Run.Reaches.refl firstPrefill_settles rfl⟩
  have hsnapshot := capacitySnapshot_succeeds 7 [7] List.mem_cons_self hreachable
  refine ⟨hsnapshot.1, (hsnapshot.2 secondPrefill ?_).mpr ?_⟩
  · refine fun _ => ⟨by decide +kernel, fun _ => ?_⟩
    change _ = false → _
    exact fun h => absurd h (by decide +kernel)
  · refine fun _ _ => ⟨fun _ => ⟨by decide +kernel, by decide +kernel⟩, fun _ outcome h => ?_⟩
    obtain rfl := Option.some.inj h
    decide +kernel

/-- A prefill, a replacement that fails and another prefill leave a complete session in the slot,
    and a snapshot that is refused. -/
theorem failedReplacement_sticks :
    ¬ ∀ (engine : Nat) (liveEngines : List Nat) (state : State), engine ∈ liveEngines →
      Run.Reachable step ReleasesSucceed (· = State.initial) state →
        (capacitySnapshot (some engine) liveEngines state).completed = true := by
  intro h
  have hfirst : Run.Reaches step ReleasesSucceed State.initial
      (perform firstPrefill State.initial) :=
    Run.Reaches.tail _ _ firstPrefill Run.Reaches.refl firstPrefill_settles.1 rfl
  have hfailed : Run.Reaches step ReleasesSucceed State.initial
      (perform failedPrefill (perform firstPrefill State.initial)) := by
    refine Run.Reaches.tail _ _ failedPrefill hfirst ?_ rfl
    refine fun _ => ⟨by decide +kernel, fun _ => ?_⟩
    change _ = false → _
    exact fun _ => by decide +kernel
  have hthird : Run.Reaches step ReleasesSucceed State.initial
      (perform thirdPrefill (perform failedPrefill (perform firstPrefill State.initial))) := by
    refine Run.Reaches.tail _ _ thirdPrefill hfailed ?_ rfl
    refine fun _ => ⟨by decide +kernel, fun _ => ?_⟩
    change _ = false → _
    exact fun h => absurd h (by decide +kernel)
  exact absurd (h 7 [7] _ List.mem_cons_self ⟨_, rfl, hthird⟩) (by decide +kernel)

end Process

end QrtEngine
