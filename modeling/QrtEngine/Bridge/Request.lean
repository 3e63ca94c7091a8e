import QrtEngine.Core.Request

/-!
# Requests of the Bridge

The bridge between the server and the core. It keeps a copy of the tokens it believes the core has
cached, and the tokens of the request before. From these it picks a route for a request: continue
the cached prefix, prefill a prefix first and continue that, or an ordinary request. Short prompts
can take a route of their own, which asks the provider for exact tokens one at a time and leaves
the cache alone.

The callback is called by the core while a stream runs and by the bridge itself on the exact
route. A response lists the events it was called with.

## Main definitions

* `Settings`: The environment of the server.
* `BridgeState`: The core, the provider and the two copies.
* `exactRoute`, `letterContinuation`: The exact route.
* `selectRoute`: The choice between the other routes.
* `plainRoute`, `prefixRoute`, `seedRoute`: These routes.
* `generate`: A request.
-/

namespace QrtEngine

namespace Bridge

open QrtEngine.Core

/-- The length from which a prompt has a retained route of its own. -/
def retainedTokens : Nat := 8192

/-- The tokens of the letters A to J. -/
def isLetter (token : UInt32) : Bool := decide (32 ≤ token) && decide (token ≤ 41)

/-! ## State -/

/-- The environment of the server, which each request reads: whether the prefix cache is on, how
    short a cached prefix may be, and the switches of the exact route. -/
structure Settings where
  prefixCache : Bool
  prefixCacheMinTokens : Nat
  exactFirstToken : Bool
  exactLetterClassifier : Bool
deriving DecidableEq, Repr

/-- The environment in which nothing is set. -/
def Settings.unset : Settings :=
  { prefixCache := true, prefixCacheMinTokens := 256, exactFirstToken := false
    exactLetterClassifier := false }

/-- The core, the provider, the tokens that the core is believed to have cached, and the tokens of
    the request before. -/
structure BridgeState (σ : Type) where
  engine : Engine
  provider : σ
  residentPrefix : Store UInt32
  previousRequest : Store UInt32

/-- A bridge whose engine was just loaded. -/
def BridgeState.loaded {σ : Type} (provider : σ) : BridgeState σ :=
  { engine := Engine.loaded, provider := provider, residentPrefix := Store.empty
    previousRequest := Store.empty }

/-- What the provider answers to a request for an exact token. A status may be a number that
    means nothing. -/
structure ExactReply where
  ok : Bool
  completed : Bool
  status : Option Status
  batchSize : Nat
  outputTokenId : UInt32
  verifierInputTokenCount : Nat
  inputDigest : UInt64
  totalElapsedNs : Nat
  failureStage : String
deriving DecidableEq, Repr

/-- What the system does during one request: what the core meets, the provider's entry point for
    exact tokens, if there is one, and which allocations of the bridge succeed. -/
structure BridgeHost where
  core : Host
  exactFirstToken : Option (List UInt32 → ExactReply)
  continuationAllocates : Bool
  residentGrows : Bool
  previousGrows : Bool
  prefixResultAllocates : Bool
  reportAllocates : Bool

/-- A request: what the server reads and what it is given. -/
structure Request where
  settings : Settings
  host : BridgeHost
  callback : Callback
  forceExactFirstToken : Bool
  input : List UInt32
  capacity : Nat

/-- Where a request failed: at a stage of the exact route, or where the core says. -/
inductive Stage where
  | none
  | core (stage : FailureStage)
  | exactSymbol
  | exactIdentity
  | exactProvider
  | exactCallback
  | classifierCapacity
  | classifierAllocation
  | classifierCallback
  | classifierContext
  | classifierProvider
  | classifierTiming
  | provider (text : String)
deriving DecidableEq, Repr

/-- The text of a stage in a report. -/
def Stage.text : Stage → String
  | none => ""
  | core stage => stage.text
  | exactSymbol => "exact_first_token_symbol"
  | exactIdentity => "exact_first_token_identity"
  | exactProvider => "exact_first_token_provider"
  | exactCallback => "exact_first_token_callback"
  | classifierCapacity => "exact_letter_classifier_capacity"
  | classifierAllocation => "exact_letter_classifier_allocation"
  | classifierCallback => "exact_letter_classifier_callback"
  | classifierContext => "exact_letter_classifier_context"
  | classifierProvider => "exact_letter_classifier_provider"
  | classifierTiming => "exact_letter_classifier_timing"
  | provider text => text

/-- The provider's own stage, or the bridge's if the provider names none. -/
def Stage.ofProvider (text : String) (default : Stage) : Stage :=
  if text = "" then default else .provider text

/-- How a request ends: the status, the output tokens counted, the events that the callback was
    called with, and the stage in the report. -/
structure Response where
  status : Status
  outputTokens : List UInt32
  events : List StreamEvent
  stage : Stage
deriving DecidableEq, Repr

/-! ## Copies of tokens -/

/-- Store tokens in a copy. Nothing is stored if there are none. -/
def storeTokens (store : Store UInt32) (grows : Bool) (source : List UInt32) :
    Option (Store UInt32) :=
  if source = [] then none else store.put grows source

/-- Store tokens in a copy, and leave it alone if that fails. -/
def storeTokensOrKeep (store : Store UInt32) (grows : Bool) (source : List UInt32) :
    Store UInt32 :=
  (storeTokens store grows source).getD store

/-- How many tokens two prompts have in common at the start. -/
def commonPrefixTokens : List UInt32 → List UInt32 → Nat
  | left :: lefts, right :: rights =>
      if left = right then commonPrefixTokens lefts rights + 1 else 0
  | _, _ => 0

/-- The bridge continues a prefix of this length. -/
def prefixShapeSupported (inputCount prefixCount capacity : Nat) : Bool :=
  decide (0 < prefixCount) && decide (prefixCount < inputCount) &&
    decide (inputCount - prefixCount ≤ maxSuffixTokens) && decide (0 < capacity) &&
    decide (capacity ≤ maxOutputTokens) &&
    decide (inputCount - prefixCount ≤ maxTailTokens - (capacity - 1))

/-! ## The exact route -/

/-- A request takes the exact route. -/
def takesExactRoute (request : Request) : Bool :=
  (request.settings.exactLetterClassifier ||
    (request.forceExactFirstToken || request.settings.exactFirstToken) &&
      request.capacity == 1) &&
  decide (request.input.length < retainedTokens) && decide (request.input.length ≤ 2 ^ 32 - 1)

/-- The reply is one valid token for the prompt. -/
def ExactReply.valid (reply : ExactReply) (input : List UInt32) : Bool :=
  reply.ok && reply.completed && reply.status == some .ok && reply.batchSize == 1 &&
    decide (reply.outputTokenId < vocabSize) &&
    reply.verifierInputTokenCount == input.length % 2 ^ 32 && reply.inputDigest == digest input

/-- The status that a reply without a valid token ends the request with. -/
def ExactReply.failure (reply : ExactReply) : Status :=
  match reply.status with
  | none => .unsupported
  | some status => if status = .ok then .unsupported else status

/-- Ask for exact tokens until one is a letter. Each round counts one more token, so there is fuel
    enough if it is not less than the capacity. -/
def letterContinuation (exact : List UInt32 → ExactReply) (callback : Callback)
    (input : List UInt32) (capacity : Nat) :
    Nat → ExactReply → List UInt32 → List StreamEvent → Nat → Response
  | 0, _, generated, events, _ =>
      { status := .ok, outputTokens := generated, events := events, stage := .none }
  | fuel + 1, reply, generated, events, elapsedNs =>
      let token := reply.outputTokenId
      let events := events ++ [{ phase := phaseOf generated.length
                                 outputIndex := generated.length, tokenId := token }]
      let generated := generated ++ [token]
      let ends (status : Status) (stage : Stage) : Response :=
        { status := status, outputTokens := generated, events := events, stage := stage }
      -- The token is counted and sent before the callback decides.
      if !callback events then ends .unsupported .classifierCallback
      else if isLetter token || generated.length == capacity then ends .ok .none
      else
        let continued := input ++ generated
        if continued.length ≥ retainedTokens ∨ continued.length > 2 ^ 32 - 1 then
          ends .unsupported .classifierContext
        else
          let reply := exact continued
          if !reply.valid continued then
            ends reply.failure (.ofProvider reply.failureStage .classifierProvider)
          else if 2 ^ 64 - 1 - elapsedNs < reply.totalElapsedNs then
            ends .unsupported .classifierTiming
          else
            letterContinuation exact callback input capacity fuel reply generated events
              (elapsedNs + reply.totalElapsedNs)

/-- What the exact route does with the first token. -/
def exactFirst (request : Request) (exact : List UInt32 → ExactReply) : Response :=
  let ends (status : Status) (stage : Stage) : Response :=
    { status := status, outputTokens := [], events := [], stage := stage }
  let reply := exact request.input
  if !reply.valid request.input then
    ends reply.failure (.ofProvider reply.failureStage .exactProvider)
  else if request.settings.exactLetterClassifier ∧ request.capacity > 1 ∧
      !isLetter reply.outputTokenId then
    if request.capacity > 2 ^ 64 - 1 - request.input.length ∨
        request.input.length + request.capacity > (2 ^ 64 - 1) / 4 then
      ends .invalidArgument .classifierCapacity
    else if !request.host.continuationAllocates then
      ends .outOfMemory .classifierAllocation
    else
      letterContinuation exact request.callback request.input request.capacity request.capacity
        reply [] [] 0
  else
    let event : StreamEvent :=
      { phase := .prefill, outputIndex := 0, tokenId := reply.outputTokenId }
    if !request.callback [event] then
      { status := .unsupported, outputTokens := [], events := [event], stage := .exactCallback }
    else
      { status := .ok, outputTokens := [reply.outputTokenId], events := [event], stage := .none }

/-- The exact route. It reads nothing of the bridge's state. -/
def exactRoute (request : Request) : Response :=
  let ends (status : Status) (stage : Stage) : Response :=
    { status := status, outputTokens := [], events := [], stage := stage }
  match request.host.exactFirstToken with
  | none => ends .unsupported .exactSymbol
  | some exact =>
      if digest request.input = 0 then ends .invalidArgument .exactIdentity
      else exactFirst request exact

/-! ## The choice of a route -/

/-- The routes besides the exact one. -/
inductive Route where
  | plain
  | hit (prefixCount : Nat)
  | seed (prefixCount : Nat)
deriving DecidableEq, Repr

section Routes

variable {σ : Type}

/-- The tokens believed to be cached begin the prompt and can be continued. -/
def residentHit (request : Request) (state : BridgeState σ) : Bool :=
  decide (state.residentPrefix.count ≥ request.settings.prefixCacheMinTokens) &&
    prefixShapeSupported request.input.length state.residentPrefix.count request.capacity &&
    state.residentPrefix.contents == request.input.take state.residentPrefix.count

/-- What the prompt has in common with the request before, but not all of it. -/
def commonWithPrevious (request : Request) (state : BridgeState σ) : Nat :=
  let common := commonPrefixTokens state.previousRequest.contents request.input
  if common = request.input.length ∧ common ≠ 0 then common - 1 else common

/-- The route that the two copies lead to, if any. -/
def cachedRoute (request : Request) (state : BridgeState σ) : Option Route :=
  if residentHit request state then some (.hit state.residentPrefix.count)
  else if state.previousRequest.count ≠ 0 then
    -- The prefix shared with the request before is worth a seed of its own.
    let common := commonWithPrevious request state
    if common ≥ request.settings.prefixCacheMinTokens ∧
        prefixShapeSupported request.input.length common request.capacity then
      some (.seed common)
    else none
  else none

/-- The route of a request that does not take the exact one. -/
def selectRoute (request : Request) (state : BridgeState σ) : Route :=
  if request.settings.prefixCache ∧ request.input.length < retainedTokens then
    match cachedRoute request state with
    | some route => route
    | none =>
        -- Nothing is shared: all but the last token are prefilled, so that the next request with
        -- this prompt finds them.
        if request.input.length > request.settings.prefixCacheMinTokens ∧
            prefixShapeSupported request.input.length (request.input.length - 1)
              request.capacity then
          .seed (request.input.length - 1)
        else .plain
  else .plain

/-! ## The routes -/

variable (cfg : Config) (provider : Provider σ)

/-- The report at the end of a request, which has to be allocated. -/
def reported (request : Request) (status : Status) (outputTokens : List UInt32)
    (events : List StreamEvent) (engine : Engine) : Response :=
  if !request.host.reportAllocates then
    { status := if status = .ok then .outOfMemory else status, outputTokens := outputTokens
      events := events, stage := .none }
  else
    { status := status, outputTokens := outputTokens, events := events
      stage := .core engine.failureStage }

/-- An ordinary request. It sets the copy of the cached tokens if it succeeds, and leaves the copy
    alone if it fails. -/
def plainRoute (request : Request) (state : BridgeState σ) : Response × BridgeState σ :=
  let result := requestTokensStreamV1 cfg provider request.host.core request.callback state.engine
    state.provider request.input request.capacity
  let state := { state with engine := result.2.1, provider := result.2.2 }
  let state :=
    if result.1.status = .ok then
      { state with
        previousRequest :=
          storeTokensOrKeep state.previousRequest request.host.previousGrows request.input
        residentPrefix :=
          if request.capacity = 1 then
            storeTokensOrKeep state.residentPrefix request.host.residentGrows request.input
          else state.residentPrefix.clear }
    else state
  -- A stream that is refused sends nothing; the events of the one before are still there.
  let events := if result.1.status = .invalidArgument then [] else state.engine.stream.events
  (reported request result.1.status result.1.outputTokens events state.engine, state)

/-- Continue a prefix. -/
def prefixRoute (request : Request) (state : BridgeState σ) (prefixCount : Nat) :
    Response × BridgeState σ :=
  if !request.host.prefixResultAllocates then
    ({ status := .outOfMemory, outputTokens := [], events := [], stage := .none }, state)
  else
    let result := prefixStreamV1 cfg provider request.host.core request.callback state.engine
      state.provider request.input prefixCount request.capacity
    let state := { state with engine := result.2.1, provider := result.2.2 }
    let events := if result.1.status = .invalidArgument then [] else state.engine.stream.events
    if result.1.status = .ok then
      let state := { state with
        previousRequest :=
          storeTokensOrKeep state.previousRequest request.host.previousGrows request.input }
      (reported request .ok result.1.outputTokens events state.engine, state)
    else
      -- Whatever the core has done to its record, the copy is not used again. The ordinary route
      -- has no such line.
      let state := { state with residentPrefix := state.residentPrefix.clear }
      (reported request result.1.status [] events state.engine, state)

/-- Prefill a prefix for one token and continue it. -/
def seedRoute (request : Request) (state : BridgeState σ) (prefixCount : Nat) :
    Response × BridgeState σ :=
  let seedTokens := request.input.take prefixCount
  let seed := requestTokens cfg provider request.host.core request.callback state.engine
    state.provider seedTokens 1
  let state := { state with engine := seed.2.1, provider := seed.2.2 }
  let oneToken := seed.1.outputTokens.length = 1 ∧ seed.1.outputTokens.headD vocabSize < vocabSize
  let stored :=
    if seed.1.status = .ok ∧ oneToken then
      storeTokens state.residentPrefix request.host.residentGrows seedTokens
    else none
  match stored with
  | none =>
      ({ status := if seed.1.status = .ok then .outOfMemory else seed.1.status
         outputTokens := [], events := [], stage := .none },
        { state with residentPrefix := state.residentPrefix.clear })
  | some residentPrefix =>
      prefixRoute cfg provider request { state with residentPrefix := residentPrefix } prefixCount

/-- A request. -/
def generate (request : Request) (state : BridgeState σ) : Response × BridgeState σ :=
  if request.input = [] ∨ request.capacity = 0 then
    ({ status := .invalidArgument, outputTokens := [], events := [], stage := .none }, state)
  else if takesExactRoute request then (exactRoute request, state)
  else
    match selectRoute request state with
    | .plain => plainRoute cfg provider request state
    | .hit prefixCount => prefixRoute cfg provider request state prefixCount
    | .seed prefixCount => seedRoute cfg provider request state prefixCount

end Routes

end Bridge

end QrtEngine
