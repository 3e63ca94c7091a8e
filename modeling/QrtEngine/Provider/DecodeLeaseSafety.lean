import QrtEngine.Provider.DecodeLease
import QrtEngine.Library.Run

/-!
# A Lease Never Leaves a Token Half Decoded

In a session that is still valid the counters of the layers say how far the token has got. While
no token is being decoded every layer has seen the tokens that are committed. While one is, the
layers that were ended have seen one more, the layers that were not begun have not, and only the
active layer may be between. A commit finds all layers one further and adds one to the count.

An operation out of turn gives the session up, so there is no lease on a session whose layers
stand at different tokens.

## Main definitions

* `Progress`: Where the layers stand, by the phase of the workspace.
* `Sound`: The lease and the session agree, and the layers stand where the phase says.
* `logged`: The layers that were advanced since the token was begun.

## Theorems

* `performHeld_turned`: What one operation does to a sound lease.
* `reachable_sound`: What holds in every state that is reached.
* `lease_phases`: Where the layers stand, what a refusal and what a commit does.
-/

namespace QrtEngine

namespace Layered

open QrtEngine.Core

/-! ## Where the layers stand -/

/-- The layers below the next one have seen one token more than is committed. The others have
    not, except for the active one. -/
def Standing (session : SessionState) (next : Nat) (active : Option Nat) : Prop :=
  ∀ layer < layerCount,
    (layer < next → session.At layer (session.committedDecodeTokenCount + 1)) ∧
      (next ≤ layer → active ≠ some layer → session.At layer session.committedDecodeTokenCount)

/-- How far the active layer is, and the layers that were advanced so far. The ring of a linear
    layer is advanced before its recurrent state. -/
def ActiveLayer (session : SessionState) (layer : Nat) (order : List Nat) : Prop :=
  let committed := session.committedDecodeTokenCount
  match attentionKind layer with
  | .linear =>
      let entry := session.linearLayers layer
      (entry.decodeRecurrentTokenCount = committed ∧ order = List.range layer ∧
        (entry.decodeQkvTokenCount = committed ∨ entry.decodeQkvTokenCount = committed + 1)) ∨
      (entry.decodeRecurrentTokenCount = committed + 1 ∧ order = List.range (layer + 1) ∧
        entry.decodeQkvTokenCount = committed + 1)
  | .full =>
      let entry := session.fullAttentionLayers layer
      (entry.decodeTailTokenCount = committed ∧ order = List.range layer) ∨
      (entry.decodeTailTokenCount = committed + 1 ∧ order = List.range (layer + 1))

/-- Where the layers stand, by the phase of the workspace. -/
def Progress (session : SessionState) (order : List Nat) : Prop :=
  let workspace := session.activationWorkspace
  let next := workspace.nextLayerIndex
  match workspace.phase with
  | .idle => ∀ layer < layerCount, session.At layer session.committedDecodeTokenCount
  | .tokenActive => workspace.activeLayerIndex = none ∧ Standing session next none ∧
      order = List.range next
  | .layerActive => workspace.activeLayerIndex = some next ∧ next < layerCount ∧
      workspace.activeAttentionKind = attentionKind next ∧
      Standing session next (some next) ∧ ActiveLayer session next order
  | .tokenComplete => workspace.activeLayerIndex = none ∧ next = layerCount ∧
      Standing session next none ∧ order = List.range next

section Phases

variable (session : SessionState) (order : List Nat)

theorem progress_idle (h : session.activationWorkspace.phase = .idle) :
    Progress session order ↔
      ∀ layer < layerCount, session.At layer session.committedDecodeTokenCount := by
  unfold Progress
  dsimp only
  rw [h]

theorem progress_tokenActive (h : session.activationWorkspace.phase = .tokenActive) :
    Progress session order ↔ session.activationWorkspace.activeLayerIndex = none ∧
      Standing session session.activationWorkspace.nextLayerIndex none ∧
      order = List.range session.activationWorkspace.nextLayerIndex := by
  unfold Progress
  dsimp only
  rw [h]

theorem progress_layerActive (h : session.activationWorkspace.phase = .layerActive) :
    Progress session order ↔
      session.activationWorkspace.activeLayerIndex =
          some session.activationWorkspace.nextLayerIndex ∧
        session.activationWorkspace.nextLayerIndex < layerCount ∧
        session.activationWorkspace.activeAttentionKind =
          attentionKind session.activationWorkspace.nextLayerIndex ∧
        Standing session session.activationWorkspace.nextLayerIndex
          (some session.activationWorkspace.nextLayerIndex) ∧
        ActiveLayer session session.activationWorkspace.nextLayerIndex order := by
  unfold Progress
  dsimp only
  rw [h]

theorem progress_tokenComplete (h : session.activationWorkspace.phase = .tokenComplete) :
    Progress session order ↔ session.activationWorkspace.activeLayerIndex = none ∧
      session.activationWorkspace.nextLayerIndex = layerCount ∧
      Standing session session.activationWorkspace.nextLayerIndex none ∧
      order = List.range session.activationWorkspace.nextLayerIndex := by
  unfold Progress
  dsimp only
  rw [h]

/-- Of the workspace only the phase and the two indices matter. -/
theorem progress_setWorkspace (workspace : Workspace)
    (hphase : workspace.phase = session.activationWorkspace.phase)
    (hactive : workspace.activeLayerIndex = session.activationWorkspace.activeLayerIndex)
    (hnext : workspace.nextLayerIndex = session.activationWorkspace.nextLayerIndex)
    (hkind : workspace.activeAttentionKind = session.activationWorkspace.activeAttentionKind) :
    Progress (session.setWorkspace workspace) order ↔ Progress session order := by
  unfold Progress SessionState.setWorkspace
  dsimp only
  rw [hphase, hactive, hnext, hkind]
  rfl

/-- Whatever the phase, the layers stand by the indices of the workspace. -/
theorem progress_standing (h : Progress session order) :
    (session.activationWorkspace.phase = .idle → ∀ layer < layerCount,
        session.At layer session.committedDecodeTokenCount) ∧
      (session.activationWorkspace.phase ≠ .idle →
        Standing session session.activationWorkspace.nextLayerIndex
          session.activationWorkspace.activeLayerIndex) := by
  cases hphase : session.activationWorkspace.phase with
  | idle =>
      refine ⟨fun _ => (progress_idle session order hphase).mp h, fun hne => absurd rfl hne⟩
  | tokenActive =>
      rcases (progress_tokenActive session order hphase).mp h with ⟨hactive, hstand, -⟩
      rw [hactive]
      exact ⟨fun hidle => Phase.noConfusion hidle, fun _ => hstand⟩
  | layerActive =>
      rcases (progress_layerActive session order hphase).mp h with ⟨hactive, -, -, hstand, -⟩
      rw [hactive]
      exact ⟨fun hidle => Phase.noConfusion hidle, fun _ => hstand⟩
  | tokenComplete =>
      rcases (progress_tokenComplete session order hphase).mp h with ⟨hactive, -, hstand, -⟩
      rw [hactive]
      exact ⟨fun hidle => Phase.noConfusion hidle, fun _ => hstand⟩

end Phases

/-- The lease and the session agree, and the layers stand where the phase says. -/
structure Sound (held : Held) (order : List Nat) : Prop where
  generation : held.lease.generation = held.session.generation
  ready : held.lease.ready = held.session.valid
  progress : held.session.valid = true → Progress held.session order

/-- The session was given up. -/
structure GivenUp (held : Held) : Prop where
  generation : held.lease.generation = held.session.generation
  ready : held.lease.ready = false
  invalid : held.session.valid = false

theorem GivenUp.sound {held : Held} (h : GivenUp held) (order : List Nat) : Sound held order :=
  { generation := h.generation
    ready := by rw [h.ready, h.invalid]
    progress := fun hvalid => absurd hvalid (by rw [h.invalid]; exact Bool.false_ne_true) }

/-- An operation succeeds and leaves a sound lease, or it is refused and gives the session up. -/
def Turned (result : Bool × Held) (order : List Nat) : Prop :=
  (result.1 = true → Sound result.2 order) ∧ (result.1 = false → GivenUp result.2)

theorem turned_refused (held : Held) (order : List Nat) (h : GivenUp held) :
    Turned (false, held) order :=
  ⟨fun hok => Bool.noConfusion hok, fun _ => h⟩

theorem turned_done (held : Held) (order : List Nat) (h : Sound held order) :
    Turned (true, held) order :=
  ⟨fun _ => h, fun hrefused => Bool.noConfusion hrefused⟩

/-! ## Giving up -/

theorem abort_givenUp (held : Held)
    (h : held.lease.generation = held.session.generation) :
    GivenUp held.abortActivationWorkspace := by
  unfold Held.abortActivationWorkspace
  dsimp only
  split_ifs
  · exact ⟨h, rfl, rfl⟩
  · exact ⟨h, rfl, rfl⟩

theorem invalidate_givenUp (held : Held)
    (h : held.lease.generation = held.session.generation) : GivenUp held.invalidate :=
  ⟨(abort_givenUp held h).generation, rfl, rfl⟩

theorem guardFailure_turned (held : Held) (order : List Nat)
    (h : held.lease.generation = held.session.generation) : Turned held.guardFailure order :=
  turned_refused _ order (abort_givenUp held h)

/-- A corridor that fails without giving up finds the session given up already. -/
theorem corridorFailure_turned (held : Held) (order logged : List Nat) (h : Sound held order) :
    Turned (corridorFailure held) logged := by
  unfold corridorFailure
  by_cases hready : held.ready = true
  · rw [if_pos hready]
    exact turned_refused _ logged (invalidate_givenUp held h.generation)
  · rw [if_neg hready]
    have hlease : held.lease.ready = false := by
      unfold Held.ready at hready
      simpa [h.generation] using hready
    exact turned_refused _ logged ⟨h.generation, hlease, h.ready ▸ hlease⟩

/-! ## Operations on the token -/

section Operations

variable (cfg : LeaseConfig) (checks : Checks) (held : Held) (order : List Nat)

theorem beginActivationToken_turned (recorded : Bool) (position : Nat) (coldStartAllowed : Bool)
    (h : Sound held order) :
    Turned (beginActivationToken cfg checks recorded position coldStartAllowed held) [] := by
  unfold beginActivationToken
  dsimp only
  split_ifs with hguard hrecorded
  · exact guardFailure_turned held [] h.generation
  · exact guardFailure_turned _ [] h.generation
  · simp only [Bool.not_eq_eq_eq_not, Bool.not_true, Bool.not_eq_false, Bool.and_eq_true,
      beq_iff_eq] at hguard
    rcases hguard with ⟨⟨⟨⟨-, hidle⟩, hinactive⟩, -⟩, -⟩
    refine turned_done _ [] ⟨h.generation, h.ready, ?_⟩
    intro hvalid
    have hstand := (progress_idle held.session order hidle).mp (h.progress hvalid)
    refine (progress_tokenActive _ [] rfl).mpr ⟨hinactive, ?_, rfl⟩
    intro layer hlayer
    exact ⟨fun hbelow => absurd hbelow (Nat.not_lt_zero layer), fun _ _ => hstand layer hlayer⟩

/-- A layer that is begun stands where the token begins. -/
theorem cacheReady_active (kind : AttentionKind) (native : ElementKind) (layer : Nat)
    (hkind : attentionKind layer = kind)
    (h : cacheReady held.session kind native layer = true) :
    ActiveLayer held.session layer (List.range layer) := by
  unfold ActiveLayer
  unfold cacheReady at h
  dsimp only at h ⊢
  rw [hkind]
  cases kind with
  | linear =>
      simp only [Bool.and_eq_true, beq_iff_eq] at h
      rcases h with ⟨⟨⟨-, hqkv⟩, hrecurrent⟩, -⟩
      exact Or.inl ⟨hrecurrent, rfl, Or.inl hqkv⟩
  | full =>
      simp only [Bool.and_eq_true, beq_iff_eq] at h
      rcases h with ⟨⟨-, htail⟩, -⟩
      exact Or.inl ⟨htail, rfl⟩

theorem beginActivationLayer_turned (layer : Nat) (kind : AttentionKind) (element : ElementKind)
    (h : Sound held order) :
    Turned (beginActivationLayer cfg checks layer kind element held) order := by
  unfold beginActivationLayer
  dsimp only
  split_ifs with hguard
  · exact guardFailure_turned held order h.generation
  · simp only [Bool.not_eq_eq_eq_not, Bool.not_true, Bool.not_eq_false, Bool.and_eq_true,
      beq_iff_eq, decide_eq_true_eq] at hguard
    rcases hguard with ⟨⟨⟨⟨⟨⟨⟨⟨-, hphase⟩, -⟩, hnext⟩, hlayer⟩, hkind⟩, -⟩, hcache⟩, -⟩
    refine turned_done _ order ⟨h.generation, h.ready, ?_⟩
    intro hvalid
    rcases (progress_tokenActive held.session order hphase).mp (h.progress hvalid) with
      ⟨-, hstand, horder⟩
    rw [← hnext] at hstand horder
    refine (progress_layerActive _ order rfl).mpr ⟨congrArg some hnext, hnext ▸ hlayer,
      hnext ▸ hkind.symm, ?_, ?_⟩
    · intro other hother
      rcases hstand other hother with ⟨hbelow, habove⟩
      refine ⟨fun hlt => hbelow (hnext ▸ hlt), fun hle _ => ?_⟩
      exact habove (hnext ▸ hle) (Option.some_ne_none other).symm
    · have hactive := cacheReady_active held kind _ layer hkind hcache
      rw [horder]
      rw [hnext] at hactive ⊢
      exact hactive

/-- A layer that is complete has seen one token more, and it is the last that was advanced. -/
theorem cacheAdvanced_active (kind : AttentionKind) (element : ElementKind) (layer : Nat)
    (hkind : attentionKind layer = kind) (hactive : ActiveLayer held.session layer order)
    (h : cacheAdvanced held.session kind element layer = true) :
    held.session.At layer (held.session.committedDecodeTokenCount + 1) ∧
      order = List.range (layer + 1) := by
  unfold ActiveLayer at hactive
  unfold cacheAdvanced at h
  unfold SessionState.At
  dsimp only at h hactive
  rw [hkind] at hactive ⊢
  cases kind with
  | linear =>
      simp only [Bool.and_eq_true, beq_iff_eq, decide_eq_true_eq] at h
      rcases h with ⟨-, ⟨-, hqkv⟩, hrecurrent⟩
      rcases hactive with ⟨hbefore, -, -⟩ | ⟨-, horder, -⟩
      · omega
      · exact ⟨⟨hqkv, hrecurrent⟩, horder⟩
  | full =>
      simp only [Bool.and_eq_true, beq_iff_eq, decide_eq_true_eq] at h
      rcases h with ⟨-, -, htail⟩
      rcases hactive with ⟨hbefore, -⟩ | ⟨-, horder⟩
      · omega
      · exact ⟨htail, horder⟩

theorem endActivationLayer_turned (layer : Nat) (kind : AttentionKind) (element : ElementKind)
    (h : Sound held order) :
    Turned (endActivationLayer checks layer kind element held) order := by
  unfold endActivationLayer
  dsimp only
  split_ifs with hguard
  · exact guardFailure_turned held order h.generation
  · simp only [Bool.not_eq_eq_eq_not, Bool.not_true, Bool.not_eq_false, Bool.and_eq_true,
      beq_iff_eq] at hguard
    rcases hguard with ⟨⟨⟨⟨⟨⟨⟨⟨⟨-, hphase⟩, -⟩, hkind⟩, -⟩, hnext⟩, hcache⟩, -⟩, -⟩, -⟩
    refine turned_done _ order ⟨h.generation, h.ready, ?_⟩
    intro hvalid
    rcases (progress_layerActive held.session order hphase).mp (h.progress hvalid) with
      ⟨-, -, hactiveKind, hstand, hactive⟩
    rw [← hnext] at hactiveKind hstand hactive
    rcases cacheAdvanced_active held order kind element layer (hactiveKind ▸ hkind) hactive hcache
      with ⟨hat, horder⟩
    refine (progress_tokenActive _ order rfl).mpr ⟨rfl, ?_, horder⟩
    -- The layer that ends joins the ones below, and those above are still one behind.
    intro other hother
    rcases hstand other hother with ⟨hbelow, habove⟩
    constructor
    · intro hlt
      by_cases heq : other = layer
      · rw [heq]
        exact hat
      · exact hbelow (by change other < layer + 1 at hlt; omega)
    · intro hle _
      change layer + 1 ≤ other at hle
      exact habove (by omega) (by rw [ne_eq, Option.some.injEq]; omega)

theorem endActivationToken_turned (position : Nat) (h : Sound held order) :
    Turned (endActivationToken checks position held) order := by
  unfold endActivationToken
  dsimp only
  split_ifs with hguard
  · exact guardFailure_turned held order h.generation
  · simp only [Bool.not_eq_eq_eq_not, Bool.not_true, Bool.not_eq_false, Bool.and_eq_true,
      beq_iff_eq, outputFrontierReady] at hguard
    rcases hguard with ⟨⟨⟨⟨⟨-, hphase⟩, ⟨⟨⟨⟨⟨hinactive, hnext⟩, -⟩, -⟩, -⟩, -⟩⟩, -⟩, -⟩, -⟩
    refine turned_done _ order ⟨h.generation, h.ready, ?_⟩
    intro hvalid
    rcases (progress_tokenActive held.session order hphase).mp (h.progress hvalid) with
      ⟨-, hstand, horder⟩
    exact (progress_tokenComplete _ order rfl).mpr ⟨hinactive, hnext, hstand, horder⟩

theorem commitToken_turned (position : Nat) (nextTokenId : UInt32) (h : Sound held order) :
    Turned (commitToken checks position nextTokenId held) order := by
  unfold commitToken
  dsimp only
  split_ifs with hguard hlayers
  · exact guardFailure_turned held order h.generation
  · exact guardFailure_turned held order h.generation
  · simp only [Bool.not_eq_eq_eq_not, Bool.not_true, Bool.not_eq_false, Bool.and_eq_true,
      beq_iff_eq] at hguard
    rcases hguard with ⟨⟨-, hphase⟩, -⟩
    refine turned_done _ order ⟨h.generation, h.ready, ?_⟩
    intro hvalid
    rcases (progress_tokenComplete held.session order hphase).mp (h.progress hvalid) with
      ⟨-, hnext, hstand, -⟩
    refine (progress_idle _ order rfl).mpr ?_
    intro layer hlayer
    exact (hstand layer hlayer).1 (hnext ▸ hlayer)

/-- A commit that succeeds finds all layers advanced in their order, and adds one. -/
theorem commitToken_done (position : Nat) (nextTokenId : UInt32) (committed : Held)
    (h : Sound held order)
    (hcommit : commitToken checks position nextTokenId held = (true, committed)) :
    order = List.range layerCount ∧
      (∀ layer < layerCount,
        held.session.At layer (held.session.committedDecodeTokenCount + 1)) ∧
      committed.session.committedDecodeTokenCount =
        held.session.committedDecodeTokenCount + 1 := by
  unfold commitToken at hcommit
  dsimp only at hcommit
  split_ifs at hcommit with hguard hlayers
  · exact absurd (congrArg Prod.fst hcommit) (by simp [Held.guardFailure])
  · exact absurd (congrArg Prod.fst hcommit) (by simp [Held.guardFailure])
  · simp only [Bool.not_eq_eq_eq_not, Bool.not_true, Bool.not_eq_false, Bool.and_eq_true,
      beq_iff_eq] at hguard
    rcases hguard with ⟨⟨⟨⟨⟨⟨hready, -⟩, -⟩, -⟩, -⟩, hphase⟩, -⟩
    have hvalid : held.session.valid = true := by
      unfold Held.ready at hready
      simp only [Bool.and_eq_true] at hready
      exact h.ready ▸ hready.1
    rcases (progress_tokenComplete held.session order hphase).mp (h.progress hvalid) with
      ⟨-, hnext, hstand, horder⟩
    refine ⟨hnext ▸ horder, ?_, ?_⟩
    · intro layer hlayer
      exact (hstand layer hlayer).1 (hnext ▸ hlayer)
    · rw [← (Prod.mk.inj hcommit).2]

end Operations

/-! ## What the corridors do -/

section Corridors

variable (session : SessionState) (cache : CacheStep) (layer : Nat)

@[simp] theorem stepAdvance_committed :
    (stepAdvance session cache layer).committedDecodeTokenCount =
      session.committedDecodeTokenCount := by
  cases cache <;> rfl

@[simp] theorem stepAdvance_workspace : (stepAdvance session cache layer).activationWorkspace =
    session.activationWorkspace := by
  cases cache <;> rfl

@[simp] theorem stepAdvance_valid : (stepAdvance session cache layer).valid = session.valid := by
  cases cache <;> rfl

@[simp] theorem stepAdvance_generation :
    (stepAdvance session cache layer).generation = session.generation := by
  cases cache <;> rfl

/-- A step leaves the other layers alone. -/
theorem stepAdvance_at (other count : Nat) (h : other ≠ layer) :
    (stepAdvance session cache layer).At other count ↔ session.At other count := by
  cases cache with
  | conv => exact SessionState.at_setLinear_ne session layer other count _ h
  | recurrent => exact SessionState.at_setLinear_ne session layer other count _ h
  | fusedPost => exact SessionState.at_setLinear_ne session layer other count _ h
  | tail => exact SessionState.at_setFull_ne session layer other count _ h

/-- The layers that were advanced, after a step. The ring alone does not complete a layer. -/
def CacheStep.logged (cache : CacheStep) (layer : Nat) (order : List Nat) : List Nat :=
  if cache = .conv then order else order ++ [layer]

/-- The active layer after a step. -/
theorem stepAdvance_active (order : List Nat) (position : Nat) (surfaces : Bool)
    (hkind : attentionKind layer = cache.kind) (hactive : ActiveLayer session layer order)
    (h : stepReady session cache layer position surfaces = true) :
    ActiveLayer (stepAdvance session cache layer) layer (cache.logged layer order) := by
  unfold ActiveLayer at hactive ⊢
  unfold stepReady at h
  dsimp only at h hactive ⊢
  rw [hkind] at hactive ⊢
  rw [stepAdvance_committed]
  -- A step is taken only in the half of the layer that it belongs to; the other half would
  -- contradict the counters it checks.
  cases cache with
  | conv =>
      simp only [Bool.and_eq_true, beq_iff_eq] at h
      rcases h with ⟨-, ⟨-, hqkv⟩, -⟩
      rcases hactive with ⟨hrecurrent, horder, -⟩ | ⟨-, -, hcontra⟩
      · refine Or.inl ⟨?_, horder, Or.inr ?_⟩
        · simpa [stepAdvance, SessionState.setLinear] using hrecurrent
        · simp [stepAdvance, SessionState.setLinear, hqkv]
      · omega
  | recurrent =>
      simp only [Bool.and_eq_true, beq_iff_eq] at h
      rcases h with ⟨-, ⟨⟨-, hrecurrent⟩, -⟩, hqkv⟩
      rcases hactive with ⟨-, horder, -⟩ | ⟨hcontra, -, -⟩
      · refine Or.inr ⟨?_, ?_, ?_⟩
        · simp [stepAdvance, SessionState.setLinear, hrecurrent]
        · simp [CacheStep.logged, horder, List.range_succ]
        · simp [stepAdvance, SessionState.setLinear, hqkv, hrecurrent]
      · omega
  | fusedPost =>
      simp only [Bool.and_eq_true, beq_iff_eq] at h
      rcases h with ⟨-, ⟨⟨-, hqkv⟩, hrecurrent⟩, -⟩
      rcases hactive with ⟨-, horder, -⟩ | ⟨hcontra, -, -⟩
      · refine Or.inr ⟨?_, ?_, ?_⟩
        · simp [stepAdvance, SessionState.setLinear, hrecurrent]
        · simp [CacheStep.logged, horder, List.range_succ]
        · simp [stepAdvance, SessionState.setLinear, hqkv]
      · omega
  | tail =>
      simp only [Bool.and_eq_true, beq_iff_eq] at h
      rcases h with ⟨-, -, htail⟩
      rcases hactive with ⟨-, horder⟩ | ⟨hcontra, -⟩
      · refine Or.inr ⟨?_, ?_⟩
        · simp [stepAdvance, SessionState.setFull, htail]
        · simp [CacheStep.logged, horder, List.range_succ]
      · omega

end Corridors

section Corridors

variable (cfg : LeaseConfig) (checks : Checks) (held : Held) (order : List Nat)

/-- What a corridor knows of the workspace. -/
theorem corridorReady_spec (kind : AttentionKind) (layer position : Nat) (contract : Bool)
    (h : corridorReady checks kind layer position contract held = true) :
    held.session.activationWorkspace.phase = .layerActive ∧
      held.session.activationWorkspace.activeLayerIndex = some layer ∧
      attentionKind layer = kind := by
  unfold corridorReady at h
  simp only [Bool.and_eq_true, beq_iff_eq] at h
  rcases h with ⟨⟨⟨⟨⟨⟨⟨-, hphase⟩, -⟩, hkind⟩, hactive⟩, -⟩, -⟩, -⟩
  exact ⟨hphase, hactive, hkind⟩

theorem advanceCache_turned (cache : CacheStep) (layer position : Nat)
    (contract surfaces launched : Bool) (h : Sound held order) :
    Turned (advanceCache checks cache layer position contract surfaces launched held)
      (cache.logged layer order) := by
  unfold advanceCache
  split_ifs with hcorridor hstep hlaunched
  · exact corridorFailure_turned held order _ h
  · exact turned_refused _ _ (invalidate_givenUp held h.generation)
  · exact turned_refused _ _ (invalidate_givenUp held h.generation)
  · rw [Bool.not_eq_true', Bool.not_eq_false] at hcorridor hstep
    rcases corridorReady_spec checks held cache.kind layer position contract hcorridor with
      ⟨hphase, hactive, hkind⟩
    refine turned_done _ _ ⟨?_, ?_, ?_⟩
    · exact h.generation.trans (stepAdvance_generation held.session cache layer).symm
    · exact h.ready.trans (stepAdvance_valid held.session cache layer).symm
    · intro hvalid
      change (stepAdvance held.session cache layer).valid = true at hvalid
      rw [stepAdvance_valid] at hvalid
      rcases (progress_layerActive held.session order hphase).mp (h.progress hvalid) with
        ⟨hsome, hlayer, hactiveKind, hstand, hlayers⟩
      have hnext : held.session.activationWorkspace.nextLayerIndex = layer :=
        Option.some.inj (hsome.symm.trans hactive)
      rw [hnext] at hlayer hactiveKind hstand hlayers
      change Progress (stepAdvance held.session cache layer) (cache.logged layer order)
      refine (progress_layerActive _ _ (by rw [stepAdvance_workspace]; exact hphase)).mpr ?_
      rw [stepAdvance_workspace, hnext]
      refine ⟨hactive, hlayer, hactiveKind, ?_, stepAdvance_active held.session cache layer order
        position surfaces hkind hlayers hstep⟩
      -- The step moves the counters of its own layer only.
      intro other hother
      rcases hstand other hother with ⟨hbelow, habove⟩
      rw [stepAdvance_committed]
      constructor
      · intro hlt
        rw [stepAdvance_at held.session cache layer other _ (by omega)]
        exact hbelow hlt
      · intro hle hne
        rw [stepAdvance_at held.session cache layer other _ (fun heq => hne (heq ▸ rfl))]
        exact habove hle hne

theorem publishHiddenCarrier_turned (layer position : Nat) (contract completed : Bool)
    (h : Sound held order) :
    Turned (publishHiddenCarrier checks layer position contract completed held) order := by
  unfold publishHiddenCarrier
  dsimp only
  split_ifs
  · exact corridorFailure_turned held order order h
  · exact corridorFailure_turned held order order h
  · exact corridorFailure_turned held order order h
  · refine turned_done _ order ⟨h.generation, h.ready, fun hvalid => ?_⟩
    exact (progress_setWorkspace held.session order _ rfl rfl rfl rfl).mpr (h.progress hvalid)

theorem writeSide_sound (side : SideState) (h : Sound held order) :
    Sound (writeSide side held) order := by
  refine ⟨h.generation, h.ready, fun hvalid => ?_⟩
  exact (progress_setWorkspace held.session order _ rfl rfl rfl rfl).mpr (h.progress hvalid)

theorem synchronize_turned (synced : Bool) (h : Sound held order) :
    Turned (synchronize cfg synced held) order := by
  unfold synchronize
  dsimp only
  split_ifs with hready
  · have hlease : held.lease.ready = false := by
      unfold Held.ready at hready
      simpa [h.generation] using hready
    exact turned_refused held order ⟨h.generation, hlease, h.ready ▸ hlease⟩
  · exact turned_done held order h
  · exact turned_done _ order ⟨h.generation, h.ready, h.progress⟩
  · exact turned_done _ order ⟨h.generation, h.ready, h.progress⟩
  · have haborted := abort_givenUp { held with lease := { held.lease with workSubmitted := false } }
      h.generation
    exact turned_refused _ order ⟨haborted.generation, haborted.ready, rfl⟩

end Corridors

/-! ## Runs -/

/-- The layers that were advanced since the token was begun. -/
def logged (operation : Operation) (order : List Nat) : List Nat :=
  match operation with
  | .beginToken _ _ _ _ => []
  | .advance _ cache layer _ _ _ _ => cache.logged layer order
  | _ => order

/-- What one operation does to a sound lease. -/
theorem performHeld_turned (cfg : LeaseConfig) (operation : Operation) (held : Held)
    (order : List Nat) (result : Bool × Held) (h : Sound held order)
    (hresult : performHeld cfg operation held = some result) :
    Turned result (logged operation order) := by
  cases operation with
  | acquire => exact absurd hresult (by simp [performHeld])
  | release => exact absurd hresult (by simp [performHeld])
  | beginToken checks recorded position coldStartAllowed =>
      rw [← Option.some.inj hresult]
      exact beginActivationToken_turned cfg checks held order recorded position coldStartAllowed h
  | beginLayer checks layer kind element =>
      rw [← Option.some.inj hresult]
      exact beginActivationLayer_turned cfg checks held order layer kind element h
  | advance checks cache layer position contract surfaces launched =>
      rw [← Option.some.inj hresult]
      exact advanceCache_turned checks held order cache layer position contract surfaces launched h
  | publish checks layer position contract completed =>
      rw [← Option.some.inj hresult]
      exact publishHiddenCarrier_turned checks held order layer position contract completed h
  | writeSide side =>
      rw [← Option.some.inj hresult]
      exact turned_done _ _ (writeSide_sound held order side h)
  | endLayer checks layer kind element =>
      rw [← Option.some.inj hresult]
      exact endActivationLayer_turned checks held order layer kind element h
  | endToken checks position =>
      rw [← Option.some.inj hresult]
      exact endActivationToken_turned checks held order position h
  | commit checks position nextTokenId =>
      rw [← Option.some.inj hresult]
      exact commitToken_turned checks held order position nextTokenId h
  | synchronize synced =>
      rw [← Option.some.inj hresult]
      exact synchronize_turned cfg held order synced h
  | invalidate =>
      rw [← Option.some.inj hresult]
      exact turned_done _ _ ((invalidate_givenUp held h.generation).sound order)

section Runs

variable (cfg : LeaseConfig)

/-- A step of the machine, with the layers that were advanced written down. -/
def tracedStep (state : LeaseState × List Nat) (operation : Operation) :
    Option (LeaseState × List Nat) :=
  (perform cfg state.1 operation).map fun result =>
    (result.2, if result.1 then logged operation state.2 else state.2)

/-- A session that no lease was taken of: no token is being decoded, and every layer has seen the
    tokens that are committed. -/
def Start (start : LeaseState × List Nat) : Prop :=
  start.1.lease = none ∧ start.1.session.activationWorkspace.phase = .idle ∧
    ∀ layer < layerCount,
      start.1.session.At layer start.1.session.committedDecodeTokenCount

/-- The layers stand where the phase says, and a lease agrees with its session. -/
structure Safe (state : LeaseState) (order : List Nat) : Prop where
  progress : state.session.valid = true → Progress state.session order
  sound : ∀ lease, state.lease = some lease →
    Sound { lease := lease, session := state.session } order

/-- What `perform` does, by whether there is a lease. -/
theorem perform_cases (state next : LeaseState) (operation : Operation) (ok : Bool)
    (h : perform cfg state operation = some (ok, next)) :
    (∃ expected layoutValid, operation = .acquire expected layoutValid ∧ state.lease = none ∧
        ok = (acquireLease expected layoutValid state.session).ready ∧
        next = { state with
          lease := if ok then some (acquireLease expected layoutValid state.session) else none }) ∨
      (∃ lease synced, operation = .release synced ∧ state.lease = some lease ∧ ok = true ∧
        next = { session := releaseLease synced { lease := lease, session := state.session }
                 lease := none }) ∨
      (∃ lease held, state.lease = some lease ∧
        performHeld cfg operation { lease := lease, session := state.session } =
          some (ok, held) ∧
        next = { session := held.session, lease := some held.lease }) := by
  unfold perform at h
  split at h
  next expected layoutValid hlease =>
      refine Or.inl ⟨expected, layoutValid, rfl, hlease, ?_⟩
      dsimp only at h
      split_ifs at h with hready
      · obtain ⟨rfl, rfl⟩ := Prod.mk.inj (Option.some.inj h)
        exact ⟨hready.symm, rfl⟩
      · obtain ⟨rfl, rfl⟩ := Prod.mk.inj (Option.some.inj h)
        exact ⟨(Bool.not_eq_true _ ▸ hready).symm, by cases state; simp_all⟩
  next => exact absurd h (by simp)
  next lease synced hlease =>
      obtain ⟨rfl, rfl⟩ := Prod.mk.inj (Option.some.inj h)
      exact Or.inr (Or.inl ⟨lease, synced, rfl, hlease, rfl, rfl⟩)
  next lease hlease _ =>
      rw [Option.map_eq_some_iff] at h
      rcases h with ⟨⟨result, held⟩, hheld, heq⟩
      obtain ⟨rfl, rfl⟩ := Prod.mk.inj heq
      exact Or.inr (Or.inr ⟨lease, held, hlease, hheld, rfl⟩)

/-- A lease that is ready is one of a session that is valid and idle. -/
theorem acquireLease_ready (expected : Expected) (layoutValid : Bool) (session : SessionState)
    (h : (acquireLease expected layoutValid session).ready = true) :
    session.valid = true ∧ session.activationWorkspace.phase = .idle := by
  unfold acquireLease at h
  simp only [Bool.and_eq_true, beq_iff_eq] at h
  exact ⟨h.1.1.1.1.1.1.1.1.1.1.1, h.1.1.1.1.1.2⟩

/-- What one step does to a safe state. -/
theorem perform_safe (state next : LeaseState) (order : List Nat) (operation : Operation)
    (ok : Bool) (hsafe : Safe state order) (h : perform cfg state operation = some (ok, next)) :
    Safe next (if ok then logged operation order else order) := by
  rcases perform_cases cfg state next operation ok h with
    ⟨expected, layoutValid, rfl, hnone, hok, rfl⟩ | ⟨lease, synced, rfl, hlease, rfl, rfl⟩ |
    ⟨lease, held, hlease, hheld, rfl⟩
  · -- A lease is given for a session in which no token has begun.
    have horder : (if ok then logged (.acquire expected layoutValid) order else order) = order := by
      cases ok <;> rfl
    rw [horder]
    refine ⟨hsafe.progress, ?_⟩
    intro lease hlease
    cases ok with
    | false => exact absurd hlease (by simp)
    | true =>
        have hready := acquireLease_ready expected layoutValid state.session hok.symm
        obtain rfl := Option.some.inj hlease
        exact ⟨rfl, hok.symm.trans hready.1.symm, hsafe.progress⟩
  · -- A release leaves the layers as they are, or gives the session up.
    have hprogress := (hsafe.sound lease hlease).progress
    refine ⟨?_, fun other hother => absurd hother (by simp)⟩
    intro hvalid
    rw [if_pos rfl]
    unfold releaseLease at hvalid ⊢
    split_ifs at hvalid ⊢ with hwork
    exact hprogress hvalid
  · -- An operation on a lease keeps its phase, or gives the session up.
    have hturned := performHeld_turned cfg operation _ order _ (hsafe.sound lease hlease) hheld
    cases ok with
    | true =>
        have hsound := hturned.1 rfl
        exact ⟨hsound.progress, fun other hother => Option.some.inj hother ▸ hsound⟩
    | false =>
        have hsound := (hturned.2 rfl).sound order
        exact ⟨hsound.progress, fun other hother => Option.some.inj hother ▸ hsound⟩

theorem reachable_safe (state : LeaseState × List Nat)
    (h : Run.Reachable (tracedStep cfg) Run.anyStep Start state) : Safe state.1 state.2 := by
  refine h.invariant (fun state => Safe state.1 state.2) ?_ ?_
  · rintro ⟨start, order⟩ ⟨hnone, hidle, hstand⟩
    refine ⟨fun _ => (progress_idle start.session order hidle).mpr hstand, ?_⟩
    intro lease hlease
    exact absurd (hnone.symm.trans hlease) (by simp)
  · rintro ⟨state, order⟩ operation ⟨next, order'⟩ hsafe - hstep
    unfold tracedStep at hstep
    rw [Option.map_eq_some_iff] at hstep
    rcases hstep with ⟨⟨ok, _⟩, hperform, heq⟩
    obtain ⟨rfl, rfl⟩ := Prod.mk.inj heq
    exact perform_safe cfg state _ order operation ok hsafe hperform

/-- In every state that is reached: if the session is valid, the layers stand where the phase
    says. An operation that a lease is refused gives the session up. A commit succeeds only when
    all layers were advanced, in their order, and adds one to the count. A lease is given only if
    every layer has seen the tokens that are committed. -/
theorem lease_phases (state : LeaseState) (order : List Nat)
    (h : Run.Reachable (tracedStep cfg) Run.anyStep Start (state, order)) :
    (state.session.valid = true →
        (state.session.activationWorkspace.phase = .idle → ∀ layer < layerCount,
          state.session.At layer state.session.committedDecodeTokenCount) ∧
        (state.session.activationWorkspace.phase ≠ .idle →
          Standing state.session state.session.activationWorkspace.nextLayerIndex
            state.session.activationWorkspace.activeLayerIndex)) ∧
      (∀ operation next, state.lease.isSome = true →
        perform cfg state operation = some (false, next) → next.session.valid = false) ∧
      (∀ checks position nextTokenId next,
        perform cfg state (.commit checks position nextTokenId) = some (true, next) →
          order = List.range layerCount ∧
          (∀ layer < layerCount,
            state.session.At layer (state.session.committedDecodeTokenCount + 1)) ∧
          next.session.committedDecodeTokenCount =
            state.session.committedDecodeTokenCount + 1) ∧
      (∀ expected layoutValid next,
        perform cfg state (.acquire expected layoutValid) = some (true, next) →
          ∀ layer < layerCount,
            state.session.At layer state.session.committedDecodeTokenCount) := by
  have hsafe := reachable_safe cfg (state, order) h
  refine ⟨?_, ?_, ?_, ?_⟩
  · intro hvalid
    exact progress_standing state.session order (hsafe.progress hvalid)
  · intro operation next hlease hrefused
    -- A refusal comes from an operation on the lease, since a release always succeeds.
    rcases perform_cases cfg state next operation false hrefused with
      ⟨_, _, _, hnone, _⟩ | ⟨_, _, _, _, hok, _⟩ | ⟨lease, held, hsome, hheld, rfl⟩
    · rw [hnone] at hlease
      exact Bool.noConfusion hlease
    · exact Bool.noConfusion hok
    · have hturned := performHeld_turned cfg operation _ order _ (hsafe.sound lease hsome) hheld
      exact (hturned.2 rfl).invalid
  · intro checks position nextTokenId next hcommit
    rcases perform_cases cfg state next _ true hcommit with
      ⟨_, _, hop, _⟩ | ⟨_, _, hop, _⟩ | ⟨lease, held, hsome, hheld, rfl⟩
    · exact Operation.noConfusion hop
    · exact Operation.noConfusion hop
    · exact commitToken_done checks _ order position nextTokenId held
        (hsafe.sound lease hsome) (Option.some.inj hheld)
  · intro expected layoutValid next hacquire
    rcases perform_cases cfg state next _ true hacquire with
      ⟨_, _, hop, _, hok, _⟩ | ⟨_, _, hop, _⟩ | ⟨_, _, _, hheld, _⟩
    · have hready := acquireLease_ready _ _ state.session hok.symm
      exact (progress_idle state.session order hready.2).mp (hsafe.progress hready.1)
    · exact Operation.noConfusion hop
    · exact absurd hheld (by simp [performHeld])

end Runs

/-! ## A whole token -/

/-- No layer is computed ahead, and the last layer keeps wide elements. -/
def plainLease : LeaseConfig := { deviceTokenLayer0Overlap := false, terminalBf16 := false }

/-- A session of a prompt of three tokens, just captured. -/
def capturedSession : SessionState :=
  { SessionState.empty with
    linearLayers := fun layer =>
      { LinearLayer.empty with
        prefixTokens := 3
        qkvElementKind := nativeKind plainLease .linear layer
        valid := true }
    fullAttentionLayers := fun layer =>
      { FullLayer.empty with
        decodeTailCapacityTokens := maxTailTokens
        historyTokens := 3
        elementKind := nativeKind plainLease .full layer
        valid := true }
    activationWorkspace :=
      { Workspace.empty with allocated := true, valid := true, generation := 1 }
    prefixTokens := 3
    generation := 1
    providerCompleted := true
    valid := true }

theorem capturedSession_start : Start ({ session := capturedSession, lease := none }, []) := by
  refine ⟨rfl, rfl, ?_⟩
  intro layer _
  unfold SessionState.At
  cases attentionKind layer with
  | linear => exact ⟨rfl, rfl⟩
  | full => rfl

/-- Everything is in order. -/
def allChecked : Checks := { layoutValid := true, planValid := true }

/-- The operations of one layer. -/
def layerOperations (layer : Nat) : List Operation :=
  let kind := attentionKind layer
  let element := nativeKind plainLease kind layer
  [.beginLayer allChecked layer kind element] ++
    (match kind with
      | .linear => [.advance allChecked .conv layer 3 true true true,
          .advance allChecked .recurrent layer 3 true true true]
      | .full => [.advance allChecked .tail layer 3 true true true]) ++
    [.publish allChecked layer 3 true true, .endLayer allChecked layer kind element]

/-- The operations of one token, up to its commit. -/
def tokenOperations : List Operation :=
  [.acquire { ownerEngine := none, modelDir := none, generation := 1, promptTokenIdsFnv1a64 := 0 }
      true,
    .beginToken allChecked true 3 true] ++ (List.range layerCount).flatMap layerOperations ++
    [.endToken allChecked 3, .synchronize true]

/-- The state before the commit. -/
def wholeToken : Option (LeaseState × List Nat) :=
  Run.runs (tracedStep plainLease) ({ session := capturedSession, lease := none }, [])
    tokenOperations

/-- A token that runs through all layers is committed. -/
theorem wholeToken_commits : ∃ state order next, wholeToken = some (state, order) ∧
    perform plainLease state (.commit allChecked 3 7) = some (true, next) ∧
    next.session.committedDecodeTokenCount = state.session.committedDecodeTokenCount + 1 ∧
    order = List.range layerCount := by
  have hcommits : (wholeToken.bind fun state =>
      (perform plainLease state.1 (.commit allChecked 3 7)).map Prod.fst) = some true := by
    decide +kernel
  simp only [Option.bind_eq_some_iff, Option.map_eq_some_iff] at hcommits
  rcases hcommits with ⟨⟨state, order⟩, hruns, ⟨ok, next⟩, hcommit, hok⟩
  obtain rfl : ok = true := hok
  have hreachable : Run.Reachable (tracedStep plainLease) Run.anyStep Start (state, order) :=
    ⟨_, capturedSession_start, Run.reaches_of_runs _ _ tokenOperations hruns⟩
  rcases (lease_phases plainLease state order hreachable).2.2.1 allChecked 3 7 next hcommit with
    ⟨horder, -, hcount⟩
  exact ⟨state, order, next, hruns, hcommit, hcount, horder⟩

end Layered

end QrtEngine
