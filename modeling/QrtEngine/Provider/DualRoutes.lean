import QrtEngine.Library.Lockstep
import QrtEngine.Provider.Process

/-!
# The Routes of the Dual Attention

Each token is decoded on two branches that attend in different ways, and of their two answers one
is selected: that of the alternate branch if the primary one is uncertain and the alternate one has
a smaller margin still. Both branches then continue with the token that was selected.

There are two routes. The concurrent route runs the branches side by side, each in a session of its
own, and compares them afterwards. The sequential route has one session. It runs the primary branch
in it, puts that branch aside, installs the alternate branch, runs it, puts it away and installs the
primary branch again, and it compares as it goes along. The two routes agree on every token.

What the device computes for a branch depends on its layers, on how many tokens it has committed
and on the token it is given, and on nothing of the other branch. Margins are rational.

## Main definitions

* `Forward`, `decodeToken`: What a branch computes.
* `selectToken`: Which answer is selected.
* `concurrentStep`, `sequentialStep`: One token on either route.
* `State.onBranches`: A session with two branches.

## Theorems

* `dualStep_agree`: The routes agree on one token.
* `dualRoutes_agree`: The routes agree on all tokens.
-/

namespace QrtEngine

namespace Process

open QrtEngine.Layered

/-! ## Branches -/

/-- What a branch publishes for a token: the next token, the best of its two best tokens, and by how
    much it is better. -/
structure TokenOutput where
  tokenId : UInt32
  top2Valid : Bool
  top2Id : UInt32
  margin : Rat
deriving DecidableEq, Repr

/-- What a branch has computed for a token. -/
structure Advance where
  linearLayers : Nat → LinearLayer
  fullAttentionLayers : Nat → FullLayer
  output : TokenOutput

/-- What a branch computes from its layers, the number of its committed tokens and the token it is
    given, if the device does not fail. -/
def Forward : Type :=
  (Nat → LinearLayer) → (Nat → FullLayer) → Nat → UInt32 → Option Advance

/-- Decode a token in a session. It commits the token and leaves the next one as the current
    one. -/
def decodeToken (forward : Forward) (token : UInt32) (session : SessionState) :
    Option (TokenOutput × SessionState) :=
  match forward session.linearLayers session.fullAttentionLayers
      session.committedDecodeTokenCount token with
  | none => none
  | some advance =>
      some (advance.output,
        { session with
          linearLayers := advance.linearLayers
          fullAttentionLayers := advance.fullAttentionLayers
          committedDecodeTokenCount := session.committedDecodeTokenCount + 1
          currentTokenId := advance.output.tokenId
          currentTokenValid := true })

/-- The best token is the one that was published. -/
def TokenOutput.ordered (output : TokenOutput) : Bool :=
  output.top2Valid && output.top2Id == output.tokenId

/-- A primary branch that is better by no more than this is uncertain. -/
def primaryUncertaintyMargin : Rat := 1 / 4

/-- The token that is selected: that of the alternate branch if they differ, the primary branch is
    uncertain and the alternate one has a smaller margin. -/
def selectToken (primary alternate : TokenOutput) : UInt32 :=
  let useAlternate := primary.tokenId != alternate.tokenId &&
    decide (primary.margin ≤ primaryUncertaintyMargin) &&
    decide (alternate.margin < primary.margin)
  if useAlternate then alternate.tokenId else primary.tokenId

/-- The session continues with a token. -/
def setCurrentToken (token : UInt32) (session : SessionState) : SessionState :=
  { session with currentTokenId := token, currentTokenValid := true }

/-- The branch continues with a token. -/
def BranchState.setCurrentToken (token : UInt32) (branch : BranchState) : BranchState :=
  { branch with currentTokenId := token, currentTokenValid := true }

/-- The state with another session of the process and another second branch. -/
def State.withBranches (state : State) (session : SessionState) (dual : DualAttentionState) :
    State :=
  { state with
    session := { state.session with toSessionState := session }
    dual := dual }

/-! ## The concurrent route -/

/-- The second branch with its session where the concurrent route has left it. -/
def DualAttentionState.concurrently (dual : DualAttentionState) (session : SessionState) :
    DualAttentionState :=
  { dual with
    alternate := captureBranch session
    concurrentAlternateSession :=
      { dual.concurrentAlternateSession with toSessionState := session } }

/-- A token on the concurrent route. Both branches run to their end before anything is looked at. -/
def concurrentStep (primary alternate : Forward) (token : UInt32) (state : State) :
    Option (UInt32 × State) :=
  let primarySession := state.session.toSessionState
  let alternateSession := state.dual.concurrentAlternateSession.toSessionState
  if !state.dual.concurrentAlternateReady || !alternateSession.valid ||
      alternateSession.committedDecodeTokenCount != primarySession.committedDecodeTokenCount then
    none
  else
    match decodeToken primary token primarySession,
        decodeToken alternate token alternateSession with
    | some (primaryOutput, primaryAfter), some (alternateOutput, alternateAfter) =>
        if !primaryOutput.ordered || !alternateOutput.ordered ||
            primaryAfter.committedDecodeTokenCount !=
              alternateAfter.committedDecodeTokenCount then
          none
        else if decide (primaryOutput.margin < 0) || decide (alternateOutput.margin < 0) then none
        else
          let next := selectToken primaryOutput alternateOutput
          some (next, state.withBranches (setCurrentToken next primaryAfter)
            (state.dual.concurrently (setCurrentToken next alternateAfter)))
    | _, _ => none

/-! ## The sequential route -/

/-- A token on the sequential route, without laziness. Each branch is looked at when it has run. -/
def sequentialStep (primary alternate : Forward) (token : UInt32) (state : State) :
    Option (UInt32 × State) :=
  match decodeToken primary token state.session.toSessionState with
  | none => none
  | some (primaryOutput, session) =>
      let primaryAfter := captureBranch session
      if !state.dual.valid ||
          state.dual.alternate.committedDecodeTokenCount + 1 !=
            primaryAfter.committedDecodeTokenCount then
        none
      else if !primaryOutput.ordered then none
      else if decide (primaryOutput.margin < 0) then none
      else
        let installed := setCurrentToken token (installBranch state.dual.alternate session)
        match decodeToken alternate token installed with
        | none => none
        | some (alternateOutput, session) =>
            let alternateAfter := captureBranch session
            let restored := installBranch primaryAfter session
            if !alternateOutput.ordered then none
            else if decide (alternateOutput.margin < 0) then none
            else
              let next := selectToken primaryOutput alternateOutput
              some (next, state.withBranches (setCurrentToken next restored)
                { state.dual with alternate := alternateAfter.setCurrentToken next })

/-! ## Agreement -/

/-- Both routes are about to decode the same token on the same branches. What the current tokens are
    does not matter. -/
structure SameFrontier (concurrent sequential : State) : Prop where
  primaryLinear : concurrent.session.linearLayers = sequential.session.linearLayers
  primaryFull : concurrent.session.fullAttentionLayers = sequential.session.fullAttentionLayers
  primaryCommitted : concurrent.session.committedDecodeTokenCount =
    sequential.session.committedDecodeTokenCount
  alternateLinear : concurrent.dual.concurrentAlternateSession.linearLayers =
    sequential.dual.alternate.linearLayers
  alternateFull : concurrent.dual.concurrentAlternateSession.fullAttentionLayers =
    sequential.dual.alternate.fullAttentionLayers
  alternateCommitted : concurrent.dual.concurrentAlternateSession.committedDecodeTokenCount =
    sequential.dual.alternate.committedDecodeTokenCount
  concurrentReady : concurrent.dual.concurrentAlternateReady = true
  concurrentValid : concurrent.dual.concurrentAlternateSession.valid = true
  sequentialValid : sequential.dual.valid = true

/-- Both routes have left the same two branches. -/
structure SameBranches (concurrent sequential : State) : Prop where
  frontier : SameFrontier concurrent sequential
  primary : captureBranch concurrent.session.toSessionState =
    captureBranch sequential.session.toSessionState
  alternate : concurrent.dual.alternate = sequential.dual.alternate
  alternateSession : captureBranch concurrent.dual.concurrentAlternateSession.toSessionState =
    sequential.dual.alternate

/-- A branch computes the same in any session, and leaves the same branch there. -/
theorem decodeToken_same (forward : Forward) (token : UInt32) (session other : SessionState)
    (hlinear : session.linearLayers = other.linearLayers)
    (hfull : session.fullAttentionLayers = other.fullAttentionLayers)
    (hcommitted : session.committedDecodeTokenCount = other.committedDecodeTokenCount) :
    (decodeToken forward token session = none ∧ decodeToken forward token other = none) ∨
      ∃ output after after', decodeToken forward token session = some (output, after) ∧
        decodeToken forward token other = some (output, after') ∧
        captureBranch after = captureBranch after' := by
  unfold decodeToken
  rw [hlinear, hfull, hcommitted]
  cases forward other.linearLayers other.fullAttentionLayers other.committedDecodeTokenCount
      token with
  | none => exact Or.inl ⟨rfl, rfl⟩
  | some advance => exact Or.inr ⟨_, _, _, rfl, rfl, rfl⟩

/-- A decoded token is committed, and the session is as valid as before. -/
theorem decodeToken_some (forward : Forward) (token : UInt32) (session after : SessionState)
    (output : TokenOutput) (h : decodeToken forward token session = some (output, after)) :
    after.committedDecodeTokenCount = session.committedDecodeTokenCount + 1 ∧
      after.valid = session.valid := by
  unfold decodeToken at h
  cases hforward : forward session.linearLayers session.fullAttentionLayers
      session.committedDecodeTokenCount token with
  | none => rw [hforward] at h; exact absurd h (by simp)
  | some advance =>
      rw [hforward] at h
      obtain ⟨_, rfl⟩ := Prod.mk.inj (Option.some.inj h)
      exact ⟨rfl, rfl⟩

/-- The two answers of a token are accepted. -/
def accepted (primary alternate : TokenOutput) : Bool :=
  primary.ordered && alternate.ordered && !decide (primary.margin < 0) &&
    !decide (alternate.margin < 0)

section Step

variable (primary alternate : Forward) (token : UInt32) {concurrent sequential : State}

/-- The concurrent route, once both branches have run. -/
theorem concurrentStep_eq (primaryOutput alternateOutput : TokenOutput)
    (primaryAfter alternateAfter : SessionState)
    (hready : concurrent.dual.concurrentAlternateReady = true)
    (hvalid : concurrent.dual.concurrentAlternateSession.valid = true)
    (hcommitted : concurrent.dual.concurrentAlternateSession.committedDecodeTokenCount =
      concurrent.session.committedDecodeTokenCount)
    (hprimary : decodeToken primary token concurrent.session.toSessionState =
      some (primaryOutput, primaryAfter))
    (halternate : decodeToken alternate token
      concurrent.dual.concurrentAlternateSession.toSessionState =
        some (alternateOutput, alternateAfter)) :
    concurrentStep primary alternate token concurrent =
      if accepted primaryOutput alternateOutput then
        some (selectToken primaryOutput alternateOutput,
          concurrent.withBranches
            (setCurrentToken (selectToken primaryOutput alternateOutput) primaryAfter)
            (concurrent.dual.concurrently
              (setCurrentToken (selectToken primaryOutput alternateOutput) alternateAfter)))
      else none := by
  have hafter := (decodeToken_some primary token _ _ _ hprimary).1
  have hafter' := (decodeToken_some alternate token _ _ _ halternate).1
  unfold concurrentStep accepted
  simp only [hready, hvalid, hcommitted, hprimary, halternate, hafter, hafter']
  cases primaryOutput.ordered <;> cases alternateOutput.ordered <;>
    cases decide (primaryOutput.margin < 0) <;> cases decide (alternateOutput.margin < 0) <;> simp

/-- The sequential route, once both branches have run. -/
theorem sequentialStep_eq (primaryOutput alternateOutput : TokenOutput)
    (primaryAfter alternateAfter : SessionState)
    (hvalid : sequential.dual.valid = true)
    (hcommitted : sequential.dual.alternate.committedDecodeTokenCount =
      sequential.session.committedDecodeTokenCount)
    (hprimary : decodeToken primary token sequential.session.toSessionState =
      some (primaryOutput, primaryAfter))
    (halternate : decodeToken alternate token
      (setCurrentToken token (installBranch sequential.dual.alternate primaryAfter)) =
        some (alternateOutput, alternateAfter)) :
    sequentialStep primary alternate token sequential =
      if accepted primaryOutput alternateOutput then
        some (selectToken primaryOutput alternateOutput,
          sequential.withBranches
            (setCurrentToken (selectToken primaryOutput alternateOutput)
              (installBranch (captureBranch primaryAfter) alternateAfter))
            { sequential.dual with
              alternate := (captureBranch alternateAfter).setCurrentToken
                (selectToken primaryOutput alternateOutput) })
      else none := by
  -- Taking a branch out and putting another in does not change the count of tokens.
  have hafter := (decodeToken_some primary token _ _ _ hprimary).1
  have hcaptured : (captureBranch primaryAfter).committedDecodeTokenCount =
      primaryAfter.committedDecodeTokenCount := rfl
  unfold sequentialStep accepted
  simp only [hvalid, hcommitted, hprimary, halternate, hcaptured, hafter]
  cases primaryOutput.ordered <;> cases alternateOutput.ordered <;>
    cases decide (primaryOutput.margin < 0) <;> cases decide (alternateOutput.margin < 0) <;> simp

/-- If the branches have not committed the same number of tokens, both routes reject. -/
theorem dualStep_rejects_frontier (h : SameFrontier concurrent sequential)
    (hcommitted : ¬ concurrent.dual.concurrentAlternateSession.committedDecodeTokenCount =
      concurrent.session.committedDecodeTokenCount) :
    concurrentStep primary alternate token concurrent = none ∧
      sequentialStep primary alternate token sequential = none := by
  refine ⟨?_, ?_⟩
  · unfold concurrentStep
    exact if_pos (by simp [hcommitted])
  · rw [h.alternateCommitted, h.primaryCommitted] at hcommitted
    unfold sequentialStep
    cases hprimary : decodeToken primary token sequential.session.toSessionState with
    | none => rfl
    | some result =>
        have hafter := (decodeToken_some primary token _ result.2 result.1 hprimary).1
        refine if_pos ?_
        change (_ || _ != result.2.committedDecodeTokenCount) = true
        rw [hafter]
        simp [hcommitted]

/-- If a branch fails, both routes reject. -/
theorem concurrentStep_of_none
    (h : decodeToken primary token concurrent.session.toSessionState = none ∨
      decodeToken alternate token
        concurrent.dual.concurrentAlternateSession.toSessionState = none) :
    concurrentStep primary alternate token concurrent = none := by
  unfold concurrentStep
  dsimp only
  split
  · rfl
  · rcases h with hprimary | halternate
    · rw [hprimary]
    · rw [halternate]
      split
      · rename_i halternate
        exact absurd halternate (by simp)
      · rfl

theorem sequentialStep_of_none (primaryOutput : TokenOutput) (primaryAfter : SessionState)
    (hprimary : decodeToken primary token sequential.session.toSessionState =
      some (primaryOutput, primaryAfter))
    (halternate : decodeToken alternate token
      (setCurrentToken token (installBranch sequential.dual.alternate primaryAfter)) = none) :
    sequentialStep primary alternate token sequential = none := by
  unfold sequentialStep
  simp only [hprimary, halternate, ite_self]

/-- What the routes leave of two branches that have run alike. -/
theorem sameBranches_of_decoded (h : SameFrontier concurrent sequential) (next : UInt32)
    (primaryAfter primaryAfter' alternateAfter alternateAfter' : SessionState)
    (hprimary : captureBranch primaryAfter = captureBranch primaryAfter')
    (halternate : captureBranch alternateAfter = captureBranch alternateAfter')
    (hvalid : alternateAfter.valid = true) :
    SameBranches
      (concurrent.withBranches (setCurrentToken next primaryAfter)
        (concurrent.dual.concurrently (setCurrentToken next alternateAfter)))
      (sequential.withBranches
        (setCurrentToken next (installBranch (captureBranch primaryAfter') alternateAfter'))
        { sequential.dual with
          alternate := (captureBranch alternateAfter').setCurrentToken next }) := by
  refine ⟨⟨?_, ?_, ?_, ?_, ?_, ?_, h.concurrentReady, hvalid, h.sequentialValid⟩, ?_, ?_, ?_⟩
  · exact congrArg BranchState.linearLayers hprimary
  · exact congrArg BranchState.fullAttentionLayers hprimary
  · exact congrArg BranchState.committedDecodeTokenCount hprimary
  · exact congrArg BranchState.linearLayers halternate
  · exact congrArg BranchState.fullAttentionLayers halternate
  · exact congrArg BranchState.committedDecodeTokenCount halternate
  · exact congrArg (BranchState.setCurrentToken next) hprimary
  · exact congrArg (BranchState.setCurrentToken next) halternate
  · exact congrArg (BranchState.setCurrentToken next) halternate

/-- The routes agree on one token: both reject, or both select the same token and leave the same
    branches. -/
theorem dualStep_agree (h : SameFrontier concurrent sequential) :
    Option.Rel (Lockstep.Agree SameBranches) (concurrentStep primary alternate token concurrent)
      (sequentialStep primary alternate token sequential) := by
  by_cases hcommitted : concurrent.dual.concurrentAlternateSession.committedDecodeTokenCount =
      concurrent.session.committedDecodeTokenCount
  · have hsequential : sequential.dual.alternate.committedDecodeTokenCount =
        sequential.session.committedDecodeTokenCount := by
      rw [← h.alternateCommitted, ← h.primaryCommitted]
      exact hcommitted
    rcases decodeToken_same primary token concurrent.session.toSessionState
      sequential.session.toSessionState h.primaryLinear h.primaryFull h.primaryCommitted with
      ⟨hfirst, hsecond⟩ | ⟨primaryOutput, primaryAfter, primaryAfter', hfirst, hsecond, hcaptured⟩
    · -- The primary branch fails on both routes.
      have hrejects : sequentialStep primary alternate token sequential = none := by
        unfold sequentialStep
        rw [hsecond]
      rw [concurrentStep_of_none primary alternate token (Or.inl hfirst), hrejects]
      exact Option.Rel.none
    · rcases decodeToken_same alternate token
        concurrent.dual.concurrentAlternateSession.toSessionState
        (setCurrentToken token (installBranch sequential.dual.alternate primaryAfter'))
        h.alternateLinear h.alternateFull h.alternateCommitted with
        ⟨hthird, hfourth⟩ |
        ⟨alternateOutput, alternateAfter, alternateAfter', hthird, hfourth, hcaptured'⟩
      · -- The alternate branch fails on both routes.
        rw [concurrentStep_of_none primary alternate token (Or.inr hthird),
          sequentialStep_of_none primary alternate token _ _ hsecond hfourth]
        exact Option.Rel.none
      · -- Both branches have run, and the routes test the same outputs.
        rw [concurrentStep_eq primary alternate token _ _ _ _ h.concurrentReady
            h.concurrentValid hcommitted hfirst hthird,
          sequentialStep_eq primary alternate token _ _ _ _ h.sequentialValid hsequential
            hsecond hfourth]
        cases accepted primaryOutput alternateOutput with
        | false => exact Option.Rel.none
        | true =>
            have hvalid : alternateAfter.valid = true :=
              (decodeToken_some alternate token _ _ _ hthird).2.trans h.concurrentValid
            exact Option.Rel.some ⟨rfl, sameBranches_of_decoded h _ _ _ _ _ hcaptured
              hcaptured' hvalid⟩
  · rcases dualStep_rejects_frontier primary alternate token h hcommitted with ⟨hc, hs⟩
    rw [hc, hs]
    exact Option.Rel.none

end Step

/-! ## Runs -/

/-- A session with two branches, each of them where it is said to be. -/
def State.onBranches (state : State) (primary alternate : BranchState) : State :=
  state.withBranches (installBranch primary state.session.toSessionState)
    { state.dual with
      alternate := alternate
      concurrentAlternateSession := { state.dual.concurrentAlternateSession with
        toSessionState := { installBranch alternate
          state.dual.concurrentAlternateSession.toSessionState with valid := true } }
      concurrentAlternateReady := true
      valid := true }

/-- From any two branches and for any number of tokens, the routes accept the same tokens, select
    the same token each time, and leave the same branches after each of them. -/
theorem dualRoutes_agree (primary alternate : Forward) (state : State)
    (primaryBranch alternateBranch : BranchState) (count : Nat) (token : UInt32) :
    List.Forall₂
      (fun concurrent sequential =>
        concurrent.1 = sequential.1 ∧
          captureBranch concurrent.2.session.toSessionState =
            captureBranch sequential.2.session.toSessionState ∧
          concurrent.2.dual.alternate = sequential.2.dual.alternate ∧
          captureBranch concurrent.2.dual.concurrentAlternateSession.toSessionState =
            sequential.2.dual.alternate)
      (Lockstep.trace (concurrentStep primary alternate) count token
        (state.onBranches primaryBranch alternateBranch))
      (Lockstep.trace (sequentialStep primary alternate) count token
        (state.onBranches primaryBranch alternateBranch)) := by
  have hstart : SameFrontier (state.onBranches primaryBranch alternateBranch)
      (state.onBranches primaryBranch alternateBranch) :=
    ⟨rfl, rfl, rfl, rfl, rfl, rfl, rfl, rfl, rfl⟩
  have htrace := Lockstep.trace_forall₂ (concurrentStep primary alternate)
    (sequentialStep primary alternate) SameFrontier SameBranches (fun _ _ h => h.frontier)
    (fun token _ _ h => dualStep_agree primary alternate token h) count token _ _ hstart
  exact htrace.imp fun concurrent sequential hagree =>
    ⟨hagree.1, hagree.2.primary, hagree.2.alternate, hagree.2.alternateSession⟩

/-- A branch that answers every token with a token of its own. -/
def steadyForward (tokenId : UInt32) (margin : Rat) : Forward :=
  fun linearLayers fullAttentionLayers _ _ =>
    some
      { linearLayers := linearLayers
        fullAttentionLayers := fullAttentionLayers
        output := { tokenId := tokenId, top2Valid := true, top2Id := tokenId, margin := margin } }

/-- An uncertain primary branch loses to an alternate branch with a smaller margin. -/
example : (Lockstep.trace (concurrentStep (steadyForward 3 (1 / 4)) (steadyForward 4 (1 / 8))) 2 1
    (State.initial.onBranches BranchState.empty BranchState.empty)).map Prod.fst = [4, 4] := by
  decide +kernel

end Process

end QrtEngine
