import QrtEngine.Bridge.Mirror
import QrtEngine.Core.Stream
import QrtEngine.Library.Cells
import QrtEngine.Library.Chain

/-!
# The Letter Continuation

With the letter classifier the exact route goes on after a first token that is no letter. It
allocates a block for the prompt and the whole output, copies the prompt to its front and writes
each token behind what is there; the provider is then asked about the front of the same block. The
output goes to the caller's block, whose cells are counted. Here both are blocks of cells, and
every store, copy and read is checked.

The block model never fails and gives what `exactRoute` gives on lists. What that is follows from
an invariant of the loop: the tokens so far are a chain without a letter, and everything that ends
the loop is met at the same count of them.

## Main definitions

* `LetterBlocks`: The two blocks of a request.
* `letterLoop`, `exactRouteIn`: The exact route on its blocks.
* `untilLetter`: The chain of a prompt, cut after its first letter.
* `RouteFailure`: What the exact route fails for.

## Theorems

* `letterLoop_eq`, `exactRouteIn_eq`: The blocks hold what the lists say, and no access fails.
* `letterContinuation_spec`: What ends the loop.
* `exactRouteIn_untilLetter`: The exact route answers with the chain of its prompt up to the first
  letter, and fails for few reasons.
-/

namespace QrtEngine

namespace Bridge

open QrtEngine.Core

/-! ## The route on its blocks -/

/-- The caller's block for the output and the block that is allocated for the continuation. What
    they hold before they are written is not known. -/
structure LetterBlocks (request : Request) where
  output : List UInt32
  continued : List UInt32
  output_length : output.length = request.capacity
  continued_length : continued.length = request.input.length + request.capacity

/-- What the loop keeps from one round to the next: its two blocks, how many tokens it has counted,
    the reply it has not used yet, the events sent and the time the replies took. -/
structure LetterState where
  output : List UInt32
  continued : List UInt32
  generatedCount : Nat
  reply : ExactReply
  events : List StreamEvent
  elapsedNs : Nat

/-- The loop on its blocks, failing where an access leaves a block, and where the fuel does not
    last. -/
def letterLoop (exact : List UInt32 → ExactReply) (callback : Callback)
    (inputCount capacity : Nat) : Nat → LetterState → Option Response
  | 0, _ => none
  | fuel + 1, state => do
      let token := state.reply.outputTokenId
      let output ← storeCell state.output state.generatedCount token
      let events := state.events ++ [{ phase := phaseOf state.generatedCount
                                       outputIndex := state.generatedCount % 2 ^ 32
                                       tokenId := token }]
      let generatedCount := state.generatedCount + 1
      -- The caller finds the counted cells in its own block, whatever the status.
      let outputTokens ← firstCells output generatedCount
      let ends (status : Status) (stage : Stage) : Response :=
        { status := status, outputTokens := outputTokens, events := events, stage := stage }
      if !callback events then some (ends .unsupported .classifierCallback)
      else if isLetter token || generatedCount == capacity then some (ends .ok .none)
      else do
        let continued ← storeCell state.continued (inputCount + generatedCount - 1) token
        let continuedCount := inputCount + generatedCount
        if continuedCount ≥ retainedTokens ∨ continuedCount > 2 ^ 32 - 1 then
          some (ends .unsupported .classifierContext)
        else do
          let tokens ← firstCells continued continuedCount
          let reply := exact tokens
          if !reply.valid tokens then
            some (ends reply.failure (.ofProvider reply.failureStage .classifierProvider))
          else if 2 ^ 64 - 1 - state.elapsedNs < reply.totalElapsedNs then
            some (ends .unsupported .classifierTiming)
          else
            letterLoop exact callback inputCount capacity fuel
              { output := output, continued := continued, generatedCount := generatedCount
                reply := reply, events := events
                elapsedNs := state.elapsedNs + reply.totalElapsedNs }

/-- What the exact route does with the first token, on its blocks. -/
def exactFirstIn (request : Request) (exact : List UInt32 → ExactReply)
    (blocks : LetterBlocks request) : Option Response :=
  let ends (status : Status) (stage : Stage) : Response :=
    { status := status, outputTokens := [], events := [], stage := stage }
  let reply := exact request.input
  if !reply.valid request.input then
    some (ends reply.failure (.ofProvider reply.failureStage .exactProvider))
  else if request.settings.exactLetterClassifier ∧ request.capacity > 1 ∧
      !isLetter reply.outputTokenId then
    if request.capacity > 2 ^ 64 - 1 - request.input.length ∨
        request.input.length + request.capacity > (2 ^ 64 - 1) / 4 then
      some (ends .invalidArgument .classifierCapacity)
    else if !request.host.continuationAllocates then
      some (ends .outOfMemory .classifierAllocation)
    else do
      let continued ← copyCells blocks.continued request.input
      letterLoop exact request.callback request.input.length request.capacity request.capacity
        { output := blocks.output, continued := continued, generatedCount := 0, reply := reply
          events := [], elapsedNs := 0 }
  else do
    let output ← storeCell blocks.output 0 reply.outputTokenId
    let outputTokens ← firstCells output 1
    let event : StreamEvent :=
      { phase := .prefill, outputIndex := 0, tokenId := reply.outputTokenId }
    if !request.callback [event] then
      some { status := .unsupported, outputTokens := [], events := [event]
             stage := .exactCallback }
    else
      some { status := .ok, outputTokens := outputTokens, events := [event], stage := .none }

/-- The exact route on its blocks. -/
def exactRouteIn (request : Request) (blocks : LetterBlocks request) : Option Response :=
  let ends (status : Status) (stage : Stage) : Response :=
    { status := status, outputTokens := [], events := [], stage := stage }
  match request.host.exactFirstToken with
  | none => some (ends .unsupported .exactSymbol)
  | some exact =>
      if digest request.input = 0 then some (ends .invalidArgument .exactIdentity)
      else exactFirstIn request exact blocks

/-! ## The blocks hold the lists -/

/-- The loop on its blocks gives what the loop on lists gives. A round is entered with room for
    one more token in either block. -/
theorem letterLoop_eq (exact : List UInt32 → ExactReply) (callback : Callback)
    (input : List UInt32) (capacity fuel : Nat) (generated : List UInt32) (state : LetterState)
    (hoLen : state.output.length = capacity)
    (hcLen : state.continued.length = input.length + capacity)
    (hoFront : generated <+: state.output) (hcFront : input ++ generated <+: state.continued)
    (hcount : state.generatedCount = generated.length) (hfuel : generated.length + fuel = capacity)
    (hroom : generated.length < capacity)
    (hshort : input.length + generated.length < retainedTokens) :
    letterLoop exact callback input.length capacity fuel state =
      some (letterContinuation exact callback input capacity fuel state.reply generated
        state.events state.elapsedNs) := by
  induction fuel generalizing generated state with
  | zero => omega
  | succ fuel ih =>
      rcases state with ⟨output, continued, generatedCount, reply, events, elapsedNs⟩
      dsimp only at hoLen hcLen hoFront hcFront hcount ⊢
      subst hcount
      have hindex : generated.length % 2 ^ 32 = generated.length := by
        rw [retainedTokens] at hshort
        exact Nat.mod_eq_of_lt (by omega)
      rcases storeCell_front output generated reply.outputTokenId hoFront (by omega) with
        ⟨output', hstore, hoFront', hoLen'⟩
      have hcounted : firstCells output' (generated.length + 1) =
          some (generated ++ [reply.outputTokenId]) := by
        have := firstCells_front output' _ hoFront'
        rwa [List.length_append, List.length_singleton] at this
      rw [letterLoop, letterContinuation]
      simp only [hstore, hcounted, hindex, Option.bind_eq_bind, Option.bind_some,
        List.length_append, List.length_singleton]
      generalize events ++ [StreamEvent.mk (phaseOf generated.length) generated.length
        reply.outputTokenId] = sent
      by_cases hcallback : (!callback sent) = true
      · rw [if_pos hcallback, if_pos hcallback]
      rw [if_neg hcallback, if_neg hcallback]
      by_cases hends : (isLetter reply.outputTokenId || generated.length + 1 == capacity) = true
      · rw [if_pos hends, if_pos hends]
      rw [if_neg hends, if_neg hends]
      rw [Bool.or_eq_true, not_or, beq_iff_eq] at hends
      have hcRoom : (input ++ generated).length < continued.length := by
        rw [List.length_append]
        omega
      rcases storeCell_front continued (input ++ generated) reply.outputTokenId hcFront hcRoom
        with ⟨continued', hstore', hcFront', hcLen'⟩
      rw [List.append_assoc] at hcFront'
      -- The offset computed by hand is the length of what the block begins with.
      have hoffset : input.length + (generated.length + 1) - 1 = (input ++ generated).length := by
        rw [List.length_append]
        omega
      have hasked : firstCells continued' (input.length + (generated.length + 1)) =
          some (input ++ (generated ++ [reply.outputTokenId])) := by
        have := firstCells_front continued' _ hcFront'
        rwa [List.length_append, List.length_append, List.length_singleton] at this
      rw [hoffset, hstore', Option.bind_some]
      by_cases hcontext : input.length + (generated.length + 1) ≥ retainedTokens ∨
          input.length + (generated.length + 1) > 2 ^ 32 - 1
      · rw [if_pos hcontext, if_pos hcontext]
      rw [if_neg hcontext, if_neg hcontext, hasked, Option.bind_some]
      rw [not_or] at hcontext
      split_ifs with hvalid htiming
      · rfl
      · rfl
      · refine ih _ _ ?_ ?_ hoFront' hcFront' ?_ ?_ ?_ ?_
        · exact hoLen'.trans hoLen
        · exact hcLen'.trans hcLen
        · rw [List.length_append, List.length_singleton]
        all_goals
          rw [List.length_append, List.length_singleton]
          omega

theorem exactFirstIn_eq (request : Request) (exact : List UInt32 → ExactReply)
    (blocks : LetterBlocks request) (hpos : 0 < request.capacity)
    (hshort : request.input.length < retainedTokens) :
    exactFirstIn request exact blocks = some (exactFirst request exact) := by
  unfold exactFirstIn exactFirst
  dsimp only
  split_ifs with hvalid hgoes hsize hallocates hcallback
  · rfl
  · rfl
  · rfl
  · rcases copyCells_front blocks.continued request.input
      (by rw [blocks.continued_length]; omega) with ⟨continued, hcopy, hfront, hlength⟩
    rw [hcopy]
    refine letterLoop_eq exact request.callback request.input request.capacity _ [] _
      blocks.output_length (hlength.trans blocks.continued_length) List.nil_prefix ?_ rfl ?_ hpos
      hshort
    · rw [List.append_nil]
      exact hfront
    · exact Nat.zero_add _
  -- Without a continuation there is one store, into the first cell.
  all_goals
    rcases storeCell_front blocks.output [] (exact request.input).outputTokenId List.nil_prefix
      (by rw [blocks.output_length]; exact hpos) with ⟨output, hstore, hfront, -⟩
    have hcounted := firstCells_front output _ hfront
    rw [List.length_nil] at hstore
    simp only [List.nil_append, List.length_singleton] at hcounted
    rw [hstore, Option.bind_eq_bind, Option.bind_some, hcounted, Option.bind_some]

/-- No access of the exact route leaves its block, the loop ends within as many rounds as the
    output has cells, and the response is the one of the lists. -/
theorem exactRouteIn_eq (request : Request) (blocks : LetterBlocks request)
    (hpos : 0 < request.capacity) (htakes : takesExactRoute request = true) :
    exactRouteIn request blocks = some (exactRoute request) := by
  have hshort : request.input.length < retainedTokens := by
    unfold takesExactRoute at htakes
    simp only [Bool.and_eq_true, decide_eq_true_eq] at htakes
    exact htakes.1.2
  unfold exactRouteIn exactRoute
  cases request.host.exactFirstToken with
  | none => rfl
  | some exact =>
      dsimp only
      split_ifs
      · rfl
      · exact exactFirstIn_eq request exact blocks hpos hshort

/-! ## What the route answers -/

/-- The chain of a prompt, no longer than the capacity and cut after its first letter. -/
def untilLetter (next : List UInt32 → UInt32) (input : List UInt32) (capacity : Nat) :
    List UInt32 :=
  cutAfter isLetter (chain next input capacity)

/-- The time taken by the replies that the loop asks for, up to so many of them. -/
def elapsedFor (exact : List UInt32 → ExactReply) (input answer : List UInt32) (count : Nat) :
    Nat :=
  ((List.range count).map fun index =>
    (exact (input ++ answer.take (index + 1))).totalElapsedNs).sum

/-- What keeps a request from the answer: the provider fails on the prompt and a part of the
    answer, the callback cancels on the events of a part, the prompt and a part are too long to go
    on, the block is not allocated, or the time of the replies leaves its word. -/
inductive RouteFailure (request : Request) (exact : List UInt32 → ExactReply)
    (answer : List UInt32) : Prop where
  | provider (count : Nat) (hcount : count < answer.length)
      (hinvalid : (exact (request.input ++ answer.take count)).valid
        (request.input ++ answer.take count) = false)
  | callback (count : Nat) (hpos : 0 < count) (hcount : count ≤ answer.length)
      (hcancels : request.callback (eventsOf (answer.take count)) = false)
  | context (count : Nat) (hpos : 0 < count) (hcount : count < answer.length)
      (hlong : retainedTokens ≤ request.input.length + count)
  | allocation (hfails : request.host.continuationAllocates = false)
  | clock (count : Nat) (hcount : count < answer.length)
      (hlong : 2 ^ 64 ≤ elapsedFor exact request.input answer count)

/-- How the exact route ends: it has sent the events of a part of the answer; if it succeeds the
    output is the answer and all of its events are sent; and if it fails there is a reason, of
    those above or one of two guards at its start. -/
structure AnswersUntilLetter (next : List UInt32 → UInt32) (request : Request)
    (exact : List UInt32 → ExactReply) (response : Response) : Prop where
  events : ∃ count ≤ (untilLetter next request.input request.capacity).length,
    response.events = eventsOf ((untilLetter next request.input request.capacity).take count)
  success : response.status = .ok →
    response.outputTokens = untilLetter next request.input request.capacity ∧
      response.events = eventsOf (untilLetter next request.input request.capacity)
  failure : response.status ≠ .ok →
    RouteFailure request exact (untilLetter next request.input request.capacity) ∨
      digest request.input = 0 ∨
      (2 ^ 64 - 1) / 4 < request.input.length + request.capacity

section Answer

variable (next : List UInt32 → UInt32) (request : Request) (exact : List UInt32 → ExactReply)

/-- A part of the answer was sent, and what failed is one of the reasons. -/
theorem answersUntilLetter_of_failure (status : Status) (outputTokens : List UInt32)
    (stage : Stage) (count : Nat)
    (hcount : count ≤ (untilLetter next request.input request.capacity).length)
    (hstatus : status ≠ .ok)
    (hfailure : RouteFailure request exact (untilLetter next request.input request.capacity) ∨
      digest request.input = 0 ∨
      (2 ^ 64 - 1) / 4 < request.input.length + request.capacity) :
    AnswersUntilLetter next request exact
      { status := status, outputTokens := outputTokens
        events := eventsOf ((untilLetter next request.input request.capacity).take count)
        stage := stage } :=
  ⟨⟨count, hcount, rfl⟩, fun hok => absurd hok hstatus, fun _ => hfailure⟩

theorem answersUntilLetter_of_answer :
    AnswersUntilLetter next request exact
      { status := .ok, outputTokens := untilLetter next request.input request.capacity
        events := eventsOf (untilLetter next request.input request.capacity), stage := .none } :=
  ⟨⟨_, Nat.le_refl _, by rw [List.take_length]⟩, fun _ => ⟨rfl, rfl⟩, fun h => absurd rfl h⟩

theorem ExactReply.failure_ne_ok (reply : ExactReply) : reply.failure ≠ .ok := by
  unfold ExactReply.failure
  split
  · exact Status.noConfusion
  · split_ifs with hok
    · exact Status.noConfusion
    · exact hok

/-- What the loop makes of a chain without a letter and the valid reply about it. -/
theorem letterContinuation_spec
    (hnext : ∀ tokens, (exact tokens).valid tokens = true →
      (exact tokens).outputTokenId = next tokens)
    (fuel count : Nat) (hfuel : count + fuel = request.capacity) (hroom : count < request.capacity)
    (hnone : ∀ token ∈ chain next request.input count, isLetter token = false)
    (hvalid : (exact (request.input ++ chain next request.input count)).valid
      (request.input ++ chain next request.input count) = true) :
    AnswersUntilLetter next request exact
      (letterContinuation exact request.callback request.input request.capacity fuel
        (exact (request.input ++ chain next request.input count))
        (chain next request.input count) (eventsOf (chain next request.input count))
        (elapsedFor exact request.input (untilLetter next request.input request.capacity)
          count)) := by
  set answer := untilLetter next request.input request.capacity
  induction fuel generalizing count with
  | zero => omega
  | succ fuel ih =>
      have hcut := chain_cutAfter next request.input isLetter count request.capacity hroom hnone
      change (_ → answer = _) ∧ (_ → _ → _ < answer.length) ∧ answer.take _ = _ at hcut
      rw [← hnext _ hvalid] at hcut
      rcases hcut with ⟨hlast, hmore, htake⟩
      have hsucc := chain_succ next request.input count
      rw [← hnext _ hvalid] at hsucc
      have hlength : (chain next request.input (count + 1)).length = count + 1 :=
        length_chain next request.input (count + 1)
      rw [letterContinuation]
      simp only [← eventsOf_concat, ← hsucc, hlength]
      -- However the round ends, it has sent the events of one more token of the answer.
      rw [← htake]
      have hcount : count + 1 ≤ answer.length := by
        rw [← hlength, ← htake]
        exact List.length_take_le' _ _
      by_cases hcallback : (!request.callback (eventsOf (answer.take (count + 1)))) = true
      · rw [if_pos hcallback]
        refine answersUntilLetter_of_failure next request exact _ _ _ _ hcount Status.noConfusion
          (Or.inl (.callback (count + 1) (Nat.succ_pos _) hcount ?_))
        rwa [Bool.not_eq_true'] at hcallback
      rw [if_neg hcallback]
      by_cases hends : (isLetter
          (exact (request.input ++ chain next request.input count)).outputTokenId ||
          count + 1 == request.capacity) = true
      · rw [if_pos hends]
        rw [Bool.or_eq_true, beq_iff_eq] at hends
        rw [htake, ← hlast hends]
        exact answersUntilLetter_of_answer next request exact
      rw [if_neg hends]
      rw [Bool.or_eq_true, not_or, beq_iff_eq, Bool.not_eq_true] at hends
      -- The answer goes on, so what fails now is asked about a part of it.
      have hless := hmore hends.1 (by omega)
      by_cases hcontext : (request.input ++ answer.take (count + 1)).length ≥ retainedTokens ∨
          (request.input ++ answer.take (count + 1)).length > 2 ^ 32 - 1
      · rw [if_pos hcontext]
        refine answersUntilLetter_of_failure next request exact _ _ _ _ hcount Status.noConfusion
          (Or.inl (.context (count + 1) (Nat.succ_pos _) hless ?_))
        rw [htake, List.length_append, hlength] at hcontext
        rw [retainedTokens] at hcontext ⊢
        omega
      rw [if_neg hcontext]
      by_cases hnext' : (!(exact (request.input ++ answer.take (count + 1))).valid
          (request.input ++ answer.take (count + 1))) = true
      · rw [if_pos hnext']
        refine answersUntilLetter_of_failure next request exact _ _ _ _ hcount
          (ExactReply.failure_ne_ok _) (Or.inl (.provider (count + 1) hless ?_))
        rwa [Bool.not_eq_true'] at hnext'
      rw [if_neg hnext']
      rw [Bool.not_eq_true', Bool.not_eq_false] at hnext'
      have helapsed : elapsedFor exact request.input answer (count + 1) =
          elapsedFor exact request.input answer count +
            (exact (request.input ++ answer.take (count + 1))).totalElapsedNs := by
        unfold elapsedFor
        rw [List.range_succ, List.map_append, List.sum_append, List.map_singleton,
          List.sum_singleton]
      split_ifs with htiming
      · refine answersUntilLetter_of_failure next request exact _ _ _ _ hcount Status.noConfusion
          (Or.inl (.clock (count + 1) hless ?_))
        change 2 ^ 64 ≤ elapsedFor exact request.input answer (count + 1)
        omega
      · rw [← helapsed]
        rw [htake] at hnext' ⊢
        refine ih (count + 1) (by omega) (by omega) ?_ hnext'
        intro token hmem
        rw [hsucc] at hmem
        rcases List.mem_append.mp hmem with hold | hnew
        · exact hnone token hold
        · rw [List.mem_singleton.mp hnew]
          exact hends.1

theorem exactFirst_spec
    (hnext : ∀ tokens, (exact tokens).valid tokens = true →
      (exact tokens).outputTokenId = next tokens)
    (hclassifier : request.settings.exactLetterClassifier = true)
    (hpos : 0 < request.capacity) :
    AnswersUntilLetter next request exact (exactFirst request exact) := by
  have hcut := chain_cutAfter next request.input isLetter 0 request.capacity hpos
    (fun _ h => absurd h List.not_mem_nil)
  dsimp only [chain] at hcut
  rw [List.append_nil] at hcut
  rcases hcut with ⟨hlast, -, htake⟩
  have hlength : 0 < (untilLetter next request.input request.capacity).length := by
    have := congrArg List.length htake
    rw [List.length_take, List.length_singleton] at this
    exact Nat.pos_of_ne_zero fun h => by rw [untilLetter] at h; omega
  unfold exactFirst
  dsimp only
  split_ifs with hinvalid hgoes hsize hallocates hcallback
  · refine answersUntilLetter_of_failure next request exact _ _ _ 0 (Nat.zero_le _)
      (ExactReply.failure_ne_ok _) (Or.inl (.provider 0 hlength ?_))
    rw [List.take_zero, List.append_nil]
    rwa [Bool.not_eq_true'] at hinvalid
  · refine answersUntilLetter_of_failure next request exact _ _ _ 0 (Nat.zero_le _)
      Status.noConfusion (Or.inr (Or.inr ?_))
    omega
  · refine answersUntilLetter_of_failure next request exact _ _ _ 0 (Nat.zero_le _)
      Status.noConfusion (Or.inl (.allocation ?_))
    rwa [Bool.not_eq_true'] at hallocates
  · rw [Bool.not_eq_true', Bool.not_eq_false] at hinvalid
    have hspec := letterContinuation_spec next request exact hnext request.capacity 0
      (Nat.zero_add _) hpos (fun _ h => absurd h List.not_mem_nil)
    rw [chain, List.append_nil] at hspec
    exact hspec hinvalid
  all_goals
    rw [Bool.not_eq_true', Bool.not_eq_false] at hinvalid
    -- A first token that is a letter, or that fills the output, is the whole answer.
    have hwhole : untilLetter next request.input request.capacity =
        [(exact request.input).outputTokenId] := by
      rw [hnext _ hinvalid]
      refine hlast ?_
      rw [← hnext _ hinvalid]
      rw [hclassifier, Bool.not_eq_true'] at hgoes
      by_cases hletter : isLetter (exact request.input).outputTokenId = true
      · exact Or.inl hletter
      · rw [Bool.not_eq_true] at hletter
        exact Or.inr (by by_contra hone; exact hgoes ⟨rfl, by omega, hletter⟩)
  · have hevent : [StreamEvent.mk .prefill 0 (exact request.input).outputTokenId] =
        eventsOf ((untilLetter next request.input request.capacity).take 1) := by
      rw [hwhole]
      rfl
    rw [hevent] at hcallback ⊢
    refine answersUntilLetter_of_failure next request exact _ _ _ 1 hlength Status.noConfusion
      (Or.inl (.callback 1 Nat.one_pos hlength ?_))
    rwa [Bool.not_eq_true'] at hcallback
  · have hanswer := answersUntilLetter_of_answer next request exact
    rw [hwhole] at hanswer
    exact hanswer

/-- With the letter classifier, and a provider whose valid replies name a function of the prompt,
    the exact route never leaves its blocks and ends; it answers with the chain of its prompt up
    to the first letter, and fails for one of the reasons listed only. A provider may fail on any
    prompt: the loop asks about each prompt once, so what it does there is a reply to the
    prompt. -/
theorem exactRouteIn_untilLetter (hsymbol : request.host.exactFirstToken = some exact)
    (hnext : ∀ tokens, (exact tokens).valid tokens = true →
      (exact tokens).outputTokenId = next tokens)
    (hclassifier : request.settings.exactLetterClassifier = true)
    (htakes : takesExactRoute request = true) (hpos : 0 < request.capacity)
    (blocks : LetterBlocks request) :
    ∃ response, exactRouteIn request blocks = some response ∧
      AnswersUntilLetter next request exact response := by
  refine ⟨exactRoute request, exactRouteIn_eq request blocks hpos htakes, ?_⟩
  unfold exactRoute
  rw [hsymbol]
  dsimp only
  split_ifs with hdigest
  · exact answersUntilLetter_of_failure next request exact _ _ _ 0 (Nat.zero_le _)
      Status.noConfusion (Or.inr (Or.inl hdigest))
  · exact exactFirst_spec next request exact hnext hclassifier hpos

end Answer

/-! ## Instances -/

/-- A provider that answers every prompt. -/
def answering (next : List UInt32 → UInt32) (tokens : List UInt32) : ExactReply :=
  { ok := true, completed := true, status := some .ok, batchSize := 1, outputTokenId := next tokens
    verifierInputTokenCount := tokens.length % 2 ^ 32, inputDigest := digest tokens
    totalElapsedNs := 5, failureStage := "" }

/-- A request for tokens up to a letter, where nothing else fails. -/
def letterRequest (next : List UInt32 → UInt32) (input : List UInt32) (capacity : Nat) : Request :=
  { settings := { Settings.unset with exactLetterClassifier := true }
    host := BridgeHost.sound (some (answering next)), callback := fun _ => true
    forceExactFirstToken := false, input := input, capacity := capacity }

/-- The blocks of a request, full of zeros. -/
def LetterBlocks.zeros (request : Request) : LetterBlocks request :=
  { output := List.replicate request.capacity 0
    continued := List.replicate (request.input.length + request.capacity) 0
    output_length := List.length_replicate, continued_length := List.length_replicate }

theorem answering_valid (next : List UInt32 → UInt32) (tokens : List UInt32)
    (h : next tokens < vocabSize) : (answering next tokens).valid tokens = true := by
  simp [ExactReply.valid, answering, h]

/-- The third token is a letter. -/
def lateLetter (tokens : List UInt32) : UInt32 := if tokens.length < 3 then 7 else 35

/-- The chain goes on twice and is cut after the letter, long before the output is full. -/
theorem lateLetter_answers :
    ∃ response, exactRouteIn (letterRequest lateLetter [1] 8) (LetterBlocks.zeros _) =
        some response ∧
      AnswersUntilLetter lateLetter (letterRequest lateLetter [1] 8) (answering lateLetter)
        response ∧
      response.outputTokens = [7, 7, 35] := by
  have hrun := exactRouteIn_untilLetter lateLetter (letterRequest lateLetter [1] 8)
    (answering lateLetter) rfl (fun _ _ => rfl) rfl (by decide) (by decide) (LetterBlocks.zeros _)
  rcases hrun with ⟨response, hresponse, hanswers⟩
  refine ⟨response, hresponse, hanswers, ?_⟩
  have hok : (exactRouteIn (letterRequest lateLetter [1] 8) (LetterBlocks.zeros _)).map
      Response.status = some .ok := by decide +kernel
  rw [hresponse, Option.map_some, Option.some.injEq] at hok
  rw [(hanswers.success hok).1]
  decide +kernel

/-- A prompt whose digest is zero is refused, although the provider would answer it with a letter
    and nothing else fails. -/
theorem zeroDigest_refused :
    ¬∀ (next : List UInt32 → UInt32) (request : Request) (exact : List UInt32 → ExactReply)
      (blocks : LetterBlocks request) (response : Response),
      request.host.exactFirstToken = some exact →
      (∀ tokens, (exact tokens).valid tokens = true →
        (exact tokens).outputTokenId = next tokens) →
      request.settings.exactLetterClassifier = true → takesExactRoute request = true →
      0 < request.capacity → exactRouteIn request blocks = some response →
      response.status ≠ .ok →
      RouteFailure request exact (untilLetter next request.input request.capacity) := by
  intro h
  have hdigest : digest [73090, 117352, 192111, 35818] = 0 := by decide +kernel
  have hvalid : (answering (fun _ => 32) [73090, 117352, 192111, 35818]).valid
      [73090, 117352, 192111, 35818] = true := answering_valid _ _ (by decide)
  have hanswer : untilLetter (fun _ => 32) [73090, 117352, 192111, 35818] 2 = [32] := by decide
  have hfails := h (fun _ => 32) (letterRequest (fun _ => 32) [73090, 117352, 192111, 35818] 2)
    (answering fun _ => 32) (LetterBlocks.zeros _)
    { status := .invalidArgument, outputTokens := [], events := [], stage := .exactIdentity } rfl
    (fun _ _ => rfl) rfl (by decide) (by decide)
    (by unfold exactRouteIn letterRequest BridgeHost.sound; exact if_pos hdigest)
    (fun hok => Status.noConfusion hok)
  change RouteFailure _ _ (untilLetter (fun _ => 32) [73090, 117352, 192111, 35818] 2) at hfails
  rw [hanswer] at hfails
  -- Neither the provider nor the callback nor a bound is to blame.
  cases hfails with
  | provider count hcount hinvalid =>
      rw [List.length_singleton, Nat.lt_one_iff] at hcount
      subst hcount
      exact Bool.noConfusion (hvalid.symm.trans hinvalid)
  | callback _ _ _ hcancels => exact Bool.noConfusion hcancels
  | context count hpos hcount _ => exact absurd hpos (Nat.not_lt.mpr (Nat.le_of_lt_succ hcount))
  | allocation hfails => exact Bool.noConfusion hfails
  | clock count hcount hlong =>
      rw [List.length_singleton, Nat.lt_one_iff] at hcount
      subst hcount
      exact absurd hlong (by decide)

end Bridge

end QrtEngine
