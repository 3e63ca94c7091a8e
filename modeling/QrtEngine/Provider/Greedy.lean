import QrtEngine.Core.Request
import QrtEngine.Library.Chain
import QrtEngine.Provider.Session

/-!
# Providers that Decode Greedily

What the prefix cache relies on. A provider is greedy if every token it answers with is one fixed
function of all the tokens before it, on each of its routes: the prefill, the decode of a session
from what the session has seen, and the continuation of a cached prefix. Nothing is said about
when it answers. A provider serves a prompt if it also answers, with replies that keep their
contracts.

The ideal provider does both. It keeps the tokens of the session themselves.

## Main definitions

* `LiveSession`: What a session has seen.
* `Greedy`: Every answer is greedy.
* `Serves`: A prompt is answered.
* `ideal`: A greedy provider that serves.

## Theorems

* `ideal_greedy`, `ideal_serves`: The ideal provider is what it should be.
-/

namespace QrtEngine

namespace Resident

open QrtEngine.Core

/-! ## What is relied on -/

/-- The session that a provider keeps: its identity, and the tokens it has seen. -/
structure LiveSession where
  generation : UInt64
  promptDigest : UInt64
  prefixTokenCount : Nat
  tokens : List UInt32
deriving DecidableEq, Repr

/-- The session is the one that a decode request names. -/
def LiveSession.decodedBy (session : LiveSession) (request : DecodeRequest) : Prop :=
  session.generation = request.expectedSessionGeneration ∧
    session.promptDigest = request.expectedPromptDigest ∧
    session.prefixTokenCount = request.expectedPrefixTokenCount

/-- The session is the one that a prefix request names. -/
def LiveSession.continuedBy (session : LiveSession) (request : PrefixRequest) : Prop :=
  session.generation = request.expectedSessionGeneration ∧
    session.promptDigest = request.expectedPromptDigest ∧
    session.prefixTokenCount = request.expectedPrefixTokenCount

instance (session : LiveSession) (request : DecodeRequest) :
    Decidable (session.decodedBy request) := inferInstanceAs (Decidable (_ ∧ _ ∧ _))

instance (session : LiveSession) (request : PrefixRequest) :
    Decidable (session.continuedBy request) := inferInstanceAs (Decidable (_ ∧ _ ∧ _))

section Contract

variable {σ : Type} (cfg : Config) (provider : Provider σ) (next : List UInt32 → UInt32)
  (live : σ → Option LiveSession)

/-- Every token that the provider answers with is a function of the tokens before it. A prefill
    that reports a session has seen its prompt, a decode goes on from what the session has seen,
    and a prefix request is answered only over the session that it names. -/
structure Greedy : Prop where
  prefillV1 : ∀ s request, (provider.prefillV1 s request).1.ok = true →
    (provider.prefillV1 s request).1.outputTokenId = next request.input ∧
    ((provider.prefillV1 s request).1.sessionValid = true →
      live (provider.prefillV1 s request).2 = some
        { generation := (provider.prefillV1 s request).1.sessionGeneration
          promptDigest := (provider.prefillV1 s request).1.sessionPromptDigest
          prefixTokenCount := (provider.prefillV1 s request).1.sessionPrefixTokenCount
          tokens := request.input })
  decodeV1 : ∀ s request session, live s = some session →
    (provider.decodeV1 s request).1.ok = true →
    (provider.decodeV1 s request).1.outputTokens = request.initialOutputTokenId ::
      chain next (session.tokens ++ [request.initialOutputTokenId])
        ((provider.decodeV1 s request).1.outputTokens.length - 1) ∧
    live (provider.decodeV1 s request).2 = some
      { session with
        tokens := session.tokens ++ (provider.decodeV1 s request).1.outputTokens.dropLast }
  prefixV1 : ∀ s request, (provider.prefixV1 s request).1.ok = true →
    (∃ session, live s = some session ∧ session.continuedBy request) ∧
    (provider.prefixV1 s request).1.outputTokens =
      chain next request.input request.outputTokenCapacity

/-- The prefill that an engine makes for a stream. -/
def streamPrefill (input : List UInt32) (capacity : Nat) : PrefillRequest :=
  prefillRequest cfg { Engine.loaded with stream := StreamState.begin } input capacity

/-- From a healthy state the provider answers the prefill of a prompt and the decodes after it,
    keeps the contracts of its replies, calls the callback once for each token, and stays
    healthy. -/
structure Serves (healthy : σ → Prop) (input : List UInt32) (capacity : Nat) : Prop where
  prefillV1 : ∀ s, healthy s →
    healthy (provider.prefillV1 s (streamPrefill cfg input capacity)).2 ∧
    (provider.prefillV1 s (streamPrefill cfg input capacity)).1.ok = true ∧
    prefillOutputContract (provider.prefillV1 s (streamPrefill cfg input capacity)).1 = true ∧
    retainsSession input (provider.prefillV1 s (streamPrefill cfg input capacity)).1 = true ∧
    (provider.prefillV1 s (streamPrefill cfg input capacity)).1.emissions =
      (if (streamPrefill cfg input capacity).emits then [next input] else []) ∧
    ∀ stream : StreamState, ((streamPrefill cfg input capacity).emits = true →
        stream.events.map StreamEvent.tokenId = [next input]) →
      prefillContract cfg stream (streamPrefill cfg input capacity)
        (provider.prefillV1 s (streamPrefill cfg input capacity)).1 = true
  decodeV1 : ∀ s request session, healthy s → live s = some session →
    session.decodedBy request → request.initialOutputTokenId < vocabSize →
    2 ≤ request.outputTokenCapacity → request.outputTokenCapacity ≤ decodeMaxOutputTokens →
    healthy (provider.decodeV1 s request).2 ∧
    (provider.decodeV1 s request).1.ok = true ∧
    decodeResultValid request (provider.decodeV1 s request).1 = true ∧
    (provider.decodeV1 s request).1.emissions =
      (if request.emits then
        emissionsFrom request.expectedSessionGeneration 1
          (provider.decodeV1 s request).1.outputTokens.tail
      else [])

end Contract

/-! ## The ideal provider -/

section Ideal

variable (next : List UInt32 → UInt32)

/-- The session that a prefill leaves behind. -/
def idealSession (input : List UInt32) : LiveSession :=
  { generation := 1, promptDigest := digest input, prefixTokenCount := input.length % 2 ^ 32
    tokens := input }

/-- The reply to a prefill, with its session. -/
def idealPrefill (request : PrefillRequest) : PrefillReply :=
  { servePrefill (next request.input) request with
    sessionValid := true
    sessionPrefixTokenCount := (idealSession request.input).prefixTokenCount
    sessionGeneration := (idealSession request.input).generation
    sessionPromptDigest := (idealSession request.input).promptDigest }

/-- The tokens that a decode adds to a session. -/
def idealDecode (session : LiveSession) (request : DecodeRequest) : List UInt32 :=
  chain next (session.tokens ++ [request.initialOutputTokenId]) (request.outputTokenCapacity - 1)

/-- A provider that keeps the tokens of its session and always answers a request that names it. -/
def ideal : Provider (Option LiveSession) :=
  { prefillV1 := fun _ request =>
      (idealPrefill next request, some (idealSession request.input))
    decodeV1 := fun live request =>
      match live with
      | none => ({ serveDecode [] request with ok := false }, none)
      | some session =>
          if session.decodedBy request then
            let reply := serveDecode (idealDecode next session request) request
            (reply,
              some { session with tokens := session.tokens ++ reply.outputTokens.dropLast })
          else ({ serveDecode [] request with ok := false }, some session)
    prefixV1 := fun live request =>
      match live with
      | none => ({ servePrefix [] request with ok := false }, none)
      | some session =>
          if session.continuedBy request then
            (servePrefix (chain next request.input request.outputTokenCapacity) request,
              some session)
          else ({ servePrefix [] request with ok := false }, some session)
    prefixResetV1 := fun _ request =>
      (resetDone ProviderState.initial request 0 0, none)
    legacy := fun live input capacity =>
      ({ status := .ok, outputTokens := chain next input capacity, failureStage := "" }, live) }

/-- The ideal provider is greedy. -/
theorem ideal_greedy : Greedy (ideal next) next id := by
  refine ⟨?_, ?_, ?_⟩
  · intro s request _
    exact ⟨rfl, fun _ => rfl⟩
  -- An answer means that the session was the one named.
  · intro s request session hlive hok
    obtain rfl : s = some session := hlive
    by_cases hnamed : session.decodedBy request
    · simp only [ideal, if_pos hnamed]
      refine ⟨?_, rfl⟩
      simp only [serveDecode, idealDecode, List.length_cons, length_chain, Nat.add_sub_cancel]
    · simp only [ideal, if_neg hnamed] at hok
      exact Bool.noConfusion hok
  · intro s request hok
    cases s with
    | none => exact Bool.noConfusion hok
    | some session =>
        by_cases hnamed : session.continuedBy request
        · refine ⟨⟨session, rfl, hnamed⟩, ?_⟩
          simp only [ideal, if_pos hnamed]
          rfl
        · simp only [ideal, if_neg hnamed] at hok
          exact Bool.noConfusion hok

/-- Tokens that take one nanosecond each end after as many nanoseconds as there are. -/
theorem lastEnd_steadySteps (endNs count : Nat) :
    lastEnd endNs (steadySteps endNs count) = some (endNs + count) := by
  induction count generalizing endNs with
  | zero => rfl
  | succ count ih =>
      unfold steadySteps lastEnd
      rw [if_neg (by simp only [Nat.add_sub_cancel_left, Nat.one_ne_zero, ne_eq, not_true_eq_false,
        or_false, false_or]; omega), ih, Nat.add_right_comm, Nat.add_assoc]

theorem length_steadySteps (endNs count : Nat) : (steadySteps endNs count).length = count := by
  induction count generalizing endNs with
  | zero => rfl
  | succ count ih => exact congrArg (· + 1) (ih _)

/-- A chain of tokens from the vocabulary. -/
theorem chain_all_vocab (hnext : ∀ tokens, next tokens < vocabSize) (input : List UInt32)
    (count : Nat) : (chain next input count).all (· < vocabSize) = true := by
  induction count generalizing input with
  | zero => rfl
  | succ count ih =>
      rw [chain, List.all_cons, ih, Bool.and_true]
      exact decide_eq_true (hnext input)

/-- A decode that is served keeps the contract of its reply. -/
theorem decodeResultValid_serveDecode (tokens : List UInt32) (request : DecodeRequest)
    (hcount : tokens.length + 1 = request.outputTokenCapacity)
    (hmany : 2 ≤ request.outputTokenCapacity)
    (hfew : request.outputTokenCapacity ≤ decodeMaxOutputTokens)
    (hfirst : request.initialOutputTokenId < vocabSize)
    (hvocab : tokens.all (· < vocabSize) = true) :
    decodeResultValid request (serveDecode tokens request) = true := by
  have hlast : lastEnd 0 (steadySteps 0 tokens.length) = some tokens.length := by
    rw [lastEnd_steadySteps, Nat.zero_add]
  unfold decodeResultValid serveDecode
  simp only [List.length_cons, List.head?_cons, List.tail_cons, List.all_cons, hcount, hmany, hfew,
    hfirst, hvocab, hlast, length_steadySteps, Nat.le_refl, decide_true, beq_self_eq_true,
    Bool.and_self, Bool.and_true]
  -- What is left is the number of decoded tokens.
  rw [← hcount, Nat.add_sub_cancel, beq_self_eq_true]
  rfl

/-- The ideal provider serves every prompt without a known answer. -/
theorem ideal_serves (cfg : Config) (input : List UInt32) (capacity : Nat)
    (hnext : ∀ tokens, next tokens < vocabSize) (hprobe : probeOf cfg input = none)
    (hpos : 0 < capacity) :
    Serves cfg (ideal next) next id (fun _ => True) input capacity := by
  refine ⟨?_, ?_⟩
  · intro s _
    refine ⟨trivial, rfl, ?_, ?_, rfl, ?_⟩
    · simp only [prefillOutputContract, ideal, idealPrefill, servePrefill, List.head?_cons,
        beq_self_eq_true, Bool.true_and]
      exact decide_eq_true (hnext input)
    · simp only [retainsSession, ideal, idealPrefill, idealSession, streamPrefill, prefillRequest,
        servePrefill, List.length_singleton, beq_self_eq_true, Bool.and_self, Bool.and_true,
        Bool.true_and]
      rfl
    · intro stream hstream
      have hinput : (streamPrefill cfg input capacity).input = input := rfl
      have hcapacity : (streamPrefill cfg input capacity).outputTokenCapacity = capacity := rfl
      have hsurfaces : requiredSurfaces &&& requiredSurfaces = requiredSurfaces := rfl
      -- The counters of the early callback are the two cases of the contract.
      cases hemits : (streamPrefill cfg input capacity).emits with
      | false =>
          simp only [prefillContract, ideal, idealPrefill, servePrefill, hinput, hcapacity,
            hprobe, hemits, hsurfaces, List.length_singleton, Nat.succ_le_of_lt hpos,
            beq_self_eq_true, Bool.false_eq_true, if_false, decide_true, Bool.and_true,
            Bool.and_self]
          rfl
      | true =>
          simp only [prefillContract, ideal, idealPrefill, servePrefill, hinput, hcapacity,
            hprobe, hemits, hstream hemits, hsurfaces, List.length_singleton,
            Nat.succ_le_of_lt hpos, beq_self_eq_true, if_true, decide_true, Bool.and_true,
            Bool.and_self]
          rfl
  · intro s request session _ hlive hnamed hfirst hmany hfew
    obtain rfl : s = some session := hlive
    simp only [ideal, if_pos hnamed]
    refine ⟨trivial, rfl, ?_, rfl⟩
    refine decodeResultValid_serveDecode _ request ?_ hmany hfew hfirst
      (chain_all_vocab next hnext _ _)
    rw [idealDecode, length_chain]
    omega

end Ideal

end Resident

end QrtEngine
