import QrtEngine.Library.Outcome
import QrtEngine.Server.ChatTemplate

/-!
# Admission

What a completion request and a chat request go through before they reach the backend: the checks
of their fields, the prompt, the limits of the output and of the context, and the stop strings. Of
each request the fields are kept that decide whether it is admitted and what the backend is called
with.

A prompt can be given as a text or as tokens, or as a list with one of these in it. Only a text
goes through the tokenizer. Tokens are taken as they are and decoded once for the text, and no
check compares them with the vocabulary, as the endpoint that only decodes tokens does.

The tokenizer is a parameter, and so are the comparisons of floats.

## Main definitions

* `ServerState`: The limits of the server, as it is started.
* `Tokenizer`: The tokenizer, as a prompt needs it.
* `CompletionPrompt.deserialize`: The prompt in a body.
* `CompletionRequest.checks`, `ChatCompletionRequest.checks`: The checks of the two endpoints.
* `ApiRequest.backendCall`: What the backend is called with.

## Theorems

* `CompletionRequest.admit_ok_iff`: When a completion request is admitted, and as what.
-/

namespace QrtEngine

namespace Admission

open Text Chat Json

/-! ## The server -/

/-- The largest size. -/
def usizeMax : Nat := 0xFFFFFFFFFFFFFFFF

/-- An addition that stays at the largest size. -/
def saturatingAdd (a b : Nat) : Nat := min (a + b) usizeMax

/-- The longest context a server can be started with. -/
def maxModelLen : Nat := 262144

/-- What the checks read of the server. It does not start with a longer context. -/
structure ServerState where
  modelId : Str
  maxContextTokens : Nat
  maxOutputTokens : Nat
  vocabSize : Nat
  maxContextTokens_le : maxContextTokens ≤ maxModelLen

/-- The tokenizer, as a prompt needs it: a text to its tokens, and tokens to a text with the
    special tokens in it. Either can fail with a text. -/
structure Tokenizer where
  encode : Str → Except Str (List UInt32)
  decode : List UInt32 → Except Str Str

/-- The tokens of a text are those of the vocabulary. -/
def Tokenizer.InVocabulary (tokenizer : Tokenizer) (vocabSize : Nat) : Prop :=
  ∀ text tokens, tokenizer.encode text = .ok tokens → ∀ id ∈ tokens, id.toNat < vocabSize

/-- The comparisons of floats that the checks make. -/
structure FloatTests (F : Type) where
  isZero : F → Bool
  isOne : F → Bool

/-! ## The checks that both endpoints make -/

/-- A parameter that is not supported. -/
def unsupported (message : Str) (param : String) : ApiError :=
  .invalid message param "unsupported_parameter"

/-- The check of the model. -/
def validateModel (state : ServerState) (requested : Str) : Except ApiError Unit :=
  if requested = state.modelId then .ok ()
  else
    .error
      { status := 404
        message := "The model `".toList ++ requested ++ "` does not exist".toList
        kind := "invalid_request_error", param := some "model", code := some "model_not_found" }

section Sampling

variable {F : Type} (tests : FloatTests F)

/-- The check of the fields for sampling. -/
def validateSampling (temperature topP : Option F) (n : Option Nat)
    (presencePenalty frequencyPenalty : Option F) : Except ApiError Unit :=
  if temperature.any fun value => !tests.isZero value then
    .error (unsupported
      "the native engine currently supports greedy decoding only; use temperature=0".toList
      "temperature")
  else if topP.any fun value => !tests.isOne value then
    .error (unsupported "the native engine currently supports top_p=1 only".toList "top_p")
  else if n.getD 1 ≠ 1 then
    .error (unsupported "n values other than 1 are unsupported".toList "n")
  -- A penalty that is not given is zero.
  else if presencePenalty.any fun value => !tests.isZero value then
    .error (unsupported "presence_penalty is unsupported".toList "presence_penalty")
  else if frequencyPenalty.any fun value => !tests.isZero value then
    .error (unsupported "frequency_penalty is unsupported".toList "frequency_penalty")
  else .ok ()

end Sampling

/-- A request that does not fit in the context. -/
def contextError (prompt output maximum : Nat) : ApiError :=
  .invalid ("This model's maximum context length is ".toList ++ (toString maximum).toList ++
    " tokens. The request has ".toList ++ (toString prompt).toList ++
    " prompt tokens and requests ".toList ++ (toString output).toList ++
    " completion tokens.".toList) "messages" "context_length_exceeded"

/-- How many tokens may be generated, within the limits. -/
def resolveMaxOutput (state : ServerState) (requested : Option Nat)
    (default promptTokens : Nat) : Except ApiError Nat :=
  let outputTokens := requested.getD default
  if outputTokens = 0 then
    .error (.invalid "max_tokens must be at least 1".toList "max_tokens" "invalid_max_tokens")
  else if outputTokens > state.maxOutputTokens then
    .error (.invalid ("max_tokens=".toList ++ (toString outputTokens).toList ++
      " exceeds the native output limit ".toList ++ (toString state.maxOutputTokens).toList)
      "max_tokens" "max_tokens_exceeded")
  else if promptTokens = 0 then
    .error (.invalid "the prompt tokenized to an empty sequence".toList "prompt" "empty_prompt")
  else if saturatingAdd promptTokens outputTokens > state.maxContextTokens then
    .error (contextError promptTokens outputTokens state.maxContextTokens)
  else .ok outputTokens

/-- The limits that a number of tokens to generate is within. -/
structure WithinLimits (state : ServerState) (promptTokens outputTokens : Nat) : Prop where
  output_pos : 1 ≤ outputTokens
  output_le : outputTokens ≤ state.maxOutputTokens
  prompt_pos : 1 ≤ promptTokens
  context_le : promptTokens + outputTokens ≤ state.maxContextTokens

/-- The context of a server is far from the largest size, so the addition does not stay there. -/
theorem resolveMaxOutput_ok_iff (state : ServerState) (requested : Option Nat)
    (default promptTokens outputTokens : Nat) :
    resolveMaxOutput state requested default promptTokens = .ok outputTokens ↔
      outputTokens = requested.getD default ∧
        WithinLimits state promptTokens outputTokens := by
  have hlen := state.maxContextTokens_le
  unfold maxModelLen at hlen
  unfold resolveMaxOutput saturatingAdd usizeMax
  dsimp only
  constructor
  · intro h
    split_ifs at h with hzero hmany hempty hlong
    cases h
    refine ⟨rfl, ?_, ?_, ?_, ?_⟩ <;> omega
  · rintro ⟨rfl, hpos, hle, hprompt, hcontext⟩
    rw [if_neg (by omega), if_neg (by omega), if_neg (by omega), if_neg (by omega)]

/-- The stop strings of a request, none if there are none. -/
def stopsOf (stop : Option StopInput) : Except ApiError (List Str) :=
  match stop with
  | none => .ok []
  | some stop => stop.intoVec

/-! ## Prompts -/

/-- The prompt of a completion request. -/
inductive CompletionPrompt where
  | text (text : Str)
  | tokens (ids : List UInt32)
  | textBatch (prompts : List Str)
  | tokenBatch (prompts : List (List UInt32))
deriving DecidableEq, Repr

section Deserialize

variable {F : Type}

/-- A token of thirty-two bits in a body. -/
def tokenId : Value F → Option UInt32
  | .int number =>
      if 0 ≤ number.val ∧ number.val < 0x100000000 then some (UInt32.ofNat number.val.toNat)
      else none
  | _ => none

/-- A text in a body. -/
def textOf : Value F → Option Str
  | .string text => some text
  | _ => none

/-- A list in a body, if all its elements are what they should be. -/
def listOf {α : Type} (item : Value F → Option α) : Value F → Option (List α)
  | .array values => values.mapM item
  | _ => none

/-- The prompt in a body: the first of the four kinds that fits. An empty list is one of
    tokens. -/
def CompletionPrompt.deserialize (value : Value F) : Option CompletionPrompt :=
  ((textOf value).map .text).or <| ((listOf tokenId value).map .tokens).or <|
    ((listOf textOf value).map .textBatch).or ((listOf (listOf tokenId) value).map .tokenBatch)

end Deserialize

/-- A failure of the tokenizer. -/
def tokenizerError (message : Str) : ApiError := .internal message

/-- The tokens and the text of a prompt. -/
def completionPrompt (tokenizer : Tokenizer) :
    CompletionPrompt → Except ApiError (List UInt32 × Str)
  | .text text => ((tokenizer.encode text).mapError tokenizerError).map fun ids => (ids, text)
  | .tokens ids => ((tokenizer.decode ids).mapError tokenizerError).map fun text => (ids, text)
  | .textBatch [text] =>
      ((tokenizer.encode text).mapError tokenizerError).map fun ids => (ids, text)
  | .tokenBatch [ids] =>
      ((tokenizer.decode ids).mapError tokenizerError).map fun text => (ids, text)
  | _ => .error (.invalid "batch size 1 is required".toList "prompt" "unsupported_batch_size")

/-- The tokens of a prompt that is given as tokens, alone or in a list. -/
def CompletionPrompt.rawTokens : CompletionPrompt → Option (List UInt32)
  | .tokens ids => some ids
  | .tokenBatch [ids] => some ids
  | _ => none

theorem completionPrompt_of_rawTokens (tokenizer : Tokenizer) (prompt : CompletionPrompt)
    (ids : List UInt32) (h : prompt.rawTokens = some ids) :
    completionPrompt tokenizer prompt =
      ((tokenizer.decode ids).mapError tokenizerError).map fun text => (ids, text) := by
  unfold CompletionPrompt.rawTokens at h
  split at h <;> cases h <;> rfl

/-- A prompt that is not given as tokens is a text that was encoded. -/
theorem encode_of_completionPrompt (tokenizer : Tokenizer) (prompt : CompletionPrompt)
    (hraw : prompt.rawTokens = none) (ids : List UInt32) (text : Str)
    (h : completionPrompt tokenizer prompt = .ok (ids, text)) :
    tokenizer.encode text = .ok ids := by
  have hencoded (text' : Str)
      (h : ((tokenizer.encode text').mapError tokenizerError).map (fun ids => (ids, text')) =
        .ok (ids, text)) : tokenizer.encode text = .ok ids := by
    rcases map_eq_ok_iff.mp h with ⟨ids', hids, hpair⟩
    cases hpair
    exact mapError_eq_ok_iff.mp hids
  unfold completionPrompt at h
  split at h
  · exact hencoded _ h
  · cases hraw
  · exact hencoded _ h
  · cases hraw
  · cases h

/-! ## Completion requests -/

/-- A completion request. -/
structure CompletionRequest (F : Type) where
  model : Str
  prompt : CompletionPrompt
  maxTokens : Option Nat
  temperature : Option F
  topP : Option F
  n : Option Nat
  bestOf : Option Nat
  stream : Bool
  /-- Whether the usage is asked for, if there are options for the stream. -/
  streamOptions : Option Bool
  stop : Option StopInput
  echo : Bool
  logprobs : Option Nat
  presencePenalty : Option F
  frequencyPenalty : Option F
  logitBias : Option (Value F)
  suffix : Option Str
  ignoreEos : Bool

/-- An admitted completion request. -/
structure AdmittedCompletion where
  promptTokenIds : List UInt32
  promptText : Str
  maxOutputTokens : Nat
  stops : List Str
  ignoreEos : Bool
  echo : Bool
  stream : Bool
  includeUsage : Bool
  exactFirstToken : Bool
deriving DecidableEq, Repr

/-- A bias of logits that changes none: an object without members. -/
def isEmptyObject {F : Type} : Value F → Bool
  | .object entries => entries.isEmpty
  | _ => false

/-- The prompt is a list of tokens, and not in a list itself. -/
def CompletionPrompt.isTokens : CompletionPrompt → Bool
  | .tokens _ => true
  | _ => false

section Completions

variable {F : Type} (tests : FloatTests F) (state : ServerState) (tokenizer : Tokenizer)

/-- The checks of the fields that only a completion request has. -/
def CompletionRequest.validateFields (request : CompletionRequest F) : Except ApiError Unit :=
  if request.bestOf.getD 1 ≠ 1 then
    .error (unsupported "best_of values other than 1 are unsupported".toList "best_of")
  else if request.logprobs.getD 0 ≠ 0 then
    .error (unsupported "logprobs are not yet exposed by the native token ABI".toList "logprobs")
  else if request.suffix.isSome then
    .error (unsupported "suffix insertion is unsupported".toList "suffix")
  else if request.logitBias.any fun bias => !isEmptyObject bias then
    .error (unsupported "logit_bias is unsupported".toList "logit_bias")
  else .ok ()

/-- The checks of the fields, in their order. -/
def CompletionRequest.validate (request : CompletionRequest F) : Except ApiError Unit := do
  validateModel state request.model
  validateSampling tests request.temperature request.topP request.n request.presencePenalty
    request.frequencyPenalty
  request.validateFields

/-- The checks of a completion request. The shape of the prompt is asked for before the prompt is
    taken apart. -/
def CompletionRequest.checks (request : CompletionRequest F) :
    Except ApiError AdmittedCompletion := do
  request.validate tests state
  let rawTokenPrompt := request.prompt.isTokens
  let prompt ← completionPrompt tokenizer request.prompt
  let maxOutputTokens ← resolveMaxOutput state request.maxTokens 16 prompt.1.length
  let exactFirstToken := rawTokenPrompt && maxOutputTokens == 1
  let stops ← stopsOf request.stop
  return {
    promptTokenIds := prompt.1
    promptText := prompt.2
    maxOutputTokens := maxOutputTokens
    stops := stops
    ignoreEos := request.ignoreEos
    echo := request.echo
    stream := request.stream
    includeUsage := request.streamOptions.getD false
    exactFirstToken := exactFirstToken }

/-- When a completion request is admitted, and as what. -/
theorem CompletionRequest.admit_ok_iff (request : CompletionRequest F)
    (admitted : AdmittedCompletion) :
    request.checks tests state tokenizer = .ok admitted ↔
      ∃ ids text stops, request.validate tests state = .ok () ∧
        completionPrompt tokenizer request.prompt = .ok (ids, text) ∧
        WithinLimits state ids.length (request.maxTokens.getD 16) ∧
        stopsOf request.stop = .ok stops ∧
        admitted =
          { promptTokenIds := ids
            promptText := text
            maxOutputTokens := request.maxTokens.getD 16
            stops := stops
            ignoreEos := request.ignoreEos
            echo := request.echo
            stream := request.stream
            includeUsage := request.streamOptions.getD false
            exactFirstToken := request.prompt.isTokens && request.maxTokens.getD 16 == 1 } := by
  unfold CompletionRequest.checks
  constructor
  · intro h
    rcases bind_eq_ok_iff.mp h with ⟨⟨⟩, hvalid, h⟩
    rcases bind_eq_ok_iff.mp h with ⟨⟨ids, text⟩, hprompt, h⟩
    rcases bind_eq_ok_iff.mp h with ⟨outputTokens, hmax, h⟩
    rcases bind_eq_ok_iff.mp h with ⟨stops, hstops, h⟩
    rcases (resolveMaxOutput_ok_iff state _ _ _ _).mp hmax with ⟨rfl, hlimits⟩
    exact ⟨ids, text, stops, hvalid, hprompt, hlimits, hstops, (Except.ok.inj h).symm⟩
  · rintro ⟨ids, text, stops, hvalid, hprompt, hlimits, hstops, rfl⟩
    have hmax := (resolveMaxOutput_ok_iff state request.maxTokens 16 ids.length
      (request.maxTokens.getD 16)).mpr ⟨rfl, hlimits⟩
    exact bind_eq_ok_iff.mpr ⟨(), hvalid, bind_eq_ok_iff.mpr ⟨(ids, text), hprompt,
      bind_eq_ok_iff.mpr ⟨_, hmax, bind_eq_ok_iff.mpr ⟨stops, hstops, rfl⟩⟩⟩⟩

end Completions

/-! ## Chat requests -/

/-- A chat request. -/
structure ChatCompletionRequest (F : Type) where
  model : Str
  messages : List (ChatMessage F)
  maxTokens : Option Nat
  maxCompletionTokens : Option Nat
  temperature : Option F
  topP : Option F
  n : Option Nat
  stream : Bool
  streamOptions : Option Bool
  stop : Option StopInput
  tools : List (Value F)
  toolChoice : Option (Value F)
  parallelToolCalls : Option Bool
  enableThinking : Bool
  preserveThinking : Bool
  logprobs : Option Bool
  topLogprobs : Option Nat
  presencePenalty : Option F
  frequencyPenalty : Option F
  responseFormat : Option (Value F)
  ignoreEos : Bool

/-- An admitted chat request. -/
structure AdmittedChat (F : Type) where
  promptTokenIds : List UInt32
  maxOutputTokens : Nat
  stream : Bool
  chat : AcceptedChat (Value F)

section ChatCompletions

variable {F : Type} (floats : Floats F) (tests : FloatTests F) (state : ServerState)
  (tokenizer : Tokenizer)

/-- A call with its arguments as an object. -/
def normalizeCall (call : InputToolCall F) : Except RenderError (InputToolCall F) :=
  match asText call.function.arguments with
  | some encoded =>
      match fromStr floats encoded with
      | none => .error .invalidToolArguments
      | some parsed =>
          if (asObject parsed).isNone then .error .invalidToolArguments
          else .ok { call with function := { call.function with arguments := parsed } }
  | none =>
      if (asObject call.function.arguments).isNone then .error .invalidToolArguments else .ok call

/-- A message with the arguments of its calls as objects. -/
def normalizeMessage (message : ChatMessage F) : Except RenderError (ChatMessage F) :=
  match message.toolCalls with
  | none => .ok message
  | some calls =>
      (calls.mapM (normalizeCall floats)).map fun calls => { message with toolCalls := some calls }

/-- The messages with the arguments of all calls as objects. -/
def normalizeInputToolArguments (messages : List (ChatMessage F)) :
    Except RenderError (List (ChatMessage F)) :=
  messages.mapM (normalizeMessage floats)

/-- The checks of the fields that only a chat request has. -/
def ChatCompletionRequest.validateFields (request : ChatCompletionRequest F) :
    Except ApiError Unit :=
  if request.logprobs.getD false || request.topLogprobs.getD 0 != 0 then
    .error (unsupported "logprobs are not yet exposed by the native token ABI".toList "logprobs")
  else if request.responseFormat.any fun format =>
      (getMember format "type".toList).bind asText != some "text".toList then
    .error (unsupported "only response_format.type=text is supported".toList "response_format")
  else .ok ()

/-- An error in the messages. -/
def invalidMessages (error : RenderError) : ApiError :=
  .invalid error.message "messages" "invalid_messages"

/-- The text of the prompt and the tools that go with it. -/
def ChatCompletionRequest.prompt (request : ChatCompletionRequest F) :
    Except ApiError (Str × SelectedTools (Value F)) := do
  let messages ← (normalizeInputToolArguments floats request.messages).mapError invalidMessages
  let selectedTools ← (selectTools (serdeJson floats) request.tools request.toolChoice).mapError
    fun error => .invalid error.message "tool_choice" "invalid_tools"
  let prompt ← (renderQwenChat floats messages selectedTools.tools request.enableThinking
    request.preserveThinking).mapError invalidMessages
  return (prompt, selectedTools)

/-- The checks of a chat request. -/
def ChatCompletionRequest.checks (request : ChatCompletionRequest F) :
    Except ApiError (AdmittedChat F) := do
  validateModel state request.model
  validateSampling tests request.temperature request.topP request.n request.presencePenalty
    request.frequencyPenalty
  request.validateFields
  let prompt ← request.prompt floats
  let promptTokenIds ← (tokenizer.encode prompt.1).mapError tokenizerError
  let maxOutputTokens ← resolveMaxOutput state (request.maxCompletionTokens.or request.maxTokens)
    256 promptTokenIds.length
  let stops ← stopsOf request.stop
  return {
    promptTokenIds := promptTokenIds
    maxOutputTokens := maxOutputTokens
    stream := request.stream
    chat := {
      selectedTools := prompt.2
      thinkingEnabled := request.enableThinking
      allowParallelTools := request.parallelToolCalls.getD true
      stops := stops
      ignoreEos := request.ignoreEos
      includeUsage := request.streamOptions.getD false } }

/-- An admitted chat request is within the limits, and its tokens are those of a text. -/
theorem ChatCompletionRequest.admit_spec (request : ChatCompletionRequest F)
    (admitted : AdmittedChat F)
    (h : request.checks floats tests state tokenizer = .ok admitted) :
    (∃ text, tokenizer.encode text = .ok admitted.promptTokenIds) ∧
      WithinLimits state admitted.promptTokenIds.length admitted.maxOutputTokens := by
  unfold ChatCompletionRequest.checks at h
  rcases bind_eq_ok_iff.mp h with ⟨⟨⟩, -, h⟩
  rcases bind_eq_ok_iff.mp h with ⟨⟨⟩, -, h⟩
  rcases bind_eq_ok_iff.mp h with ⟨⟨⟩, -, h⟩
  rcases bind_eq_ok_iff.mp h with ⟨prompt, -, h⟩
  rcases bind_eq_ok_iff.mp h with ⟨ids, hids, h⟩
  rcases bind_eq_ok_iff.mp h with ⟨outputTokens, hmax, h⟩
  rcases bind_eq_ok_iff.mp h with ⟨stops, -, h⟩
  cases h
  exact ⟨⟨prompt.1, mapError_eq_ok_iff.mp hids⟩,
    ((resolveMaxOutput_ok_iff state _ _ _ _).mp hmax).2⟩

end ChatCompletions

/-! ## The call of the backend -/

/-- What the backend is called with, and by which of its two entries. -/
structure BackendCall where
  exactFirstToken : Bool
  inputTokenIds : List UInt32
  maxOutputTokens : Nat
deriving DecidableEq, Repr

/-- The call for an admitted completion request, in a stream or not. -/
def AdmittedCompletion.backendCall (admitted : AdmittedCompletion) : BackendCall :=
  { exactFirstToken := admitted.exactFirstToken
    inputTokenIds := admitted.promptTokenIds
    maxOutputTokens := admitted.maxOutputTokens }

/-- The call for an admitted chat request, in a stream or not. -/
def AdmittedChat.backendCall {F : Type} (admitted : AdmittedChat F) : BackendCall :=
  { exactFirstToken := false
    inputTokenIds := admitted.promptTokenIds
    maxOutputTokens := admitted.maxOutputTokens }

/-- A request to one of the two endpoints. -/
inductive ApiRequest (F : Type) where
  | completion (request : CompletionRequest F)
  | chat (request : ChatCompletionRequest F)

section Calls

variable {F : Type} (floats : Floats F) (tests : FloatTests F) (state : ServerState)
  (tokenizer : Tokenizer)

/-- What the backend is called with when the request gets its permit, or the error it is refused
    with. -/
def ApiRequest.backendCall : ApiRequest F → Except ApiError BackendCall
  | .completion request => (request.checks tests state tokenizer).map (·.backendCall)
  | .chat request => (request.checks floats tests state tokenizer).map (·.backendCall)

/-- The tokens of a request that gives its prompt as tokens. -/
def ApiRequest.rawTokens : ApiRequest F → Option (List UInt32)
  | .completion request => request.prompt.rawTokens
  | .chat _ => none

/-- What the backend may rely on. -/
structure Sound (state : ServerState) (call : BackendCall) : Prop where
  limits : WithinLimits state call.inputTokenIds.length call.maxOutputTokens
  vocabulary : ∀ id ∈ call.inputTokenIds, id.toNat < state.vocabSize

/-- A request with its prompt as tokens passes all checks, none of which reads the tokens. -/
structure Passes (request : CompletionRequest F) (ids : List UInt32) : Prop where
  fields : request.validate tests state = .ok ()
  decoded : ∃ text, tokenizer.decode ids = .ok text
  limits : WithinLimits state ids.length (request.maxTokens.getD 16)
  stops : ∃ stops, stopsOf request.stop = .ok stops

/-- When the backend may rely on the call: the prompt is a text, or one of the checks fails, or the
    tokens are those of the vocabulary. -/
theorem backendCall_sound_iff (hencode : tokenizer.InVocabulary state.vocabSize)
    (request : ApiRequest F) :
    (∀ call, request.backendCall floats tests state tokenizer = .ok call → Sound state call) ↔
      match request with
      | .completion request =>
          ∀ ids, request.prompt.rawTokens = some ids → Passes tests state tokenizer request ids →
            ∀ id ∈ ids, id.toNat < state.vocabSize
      | .chat _ => True := by
  cases request with
  | completion request =>
      dsimp only
      constructor
      · -- Tokens that are given as such are admitted as they are.
        intro hsound ids hraw hpasses
        rcases hpasses.decoded with ⟨text, htext⟩
        rcases hpasses.stops with ⟨stops, hstops⟩
        have hprompt : completionPrompt tokenizer request.prompt = .ok (ids, text) := by
          rw [completionPrompt_of_rawTokens tokenizer _ ids hraw, htext]
          rfl
        have hadmit := (request.admit_ok_iff tests state tokenizer _).mpr
          ⟨ids, text, stops, hpasses.fields, hprompt, hpasses.limits, hstops, rfl⟩
        exact (hsound _ (map_eq_ok_iff.mpr ⟨_, hadmit, rfl⟩)).vocabulary
      · -- A text is encoded into the vocabulary; tokens are checked by nobody.
        intro hids call hcall
        rcases map_eq_ok_iff.mp hcall with ⟨admitted, hadmit, rfl⟩
        rcases (request.admit_ok_iff tests state tokenizer admitted).mp hadmit with
          ⟨ids, text, stops, hvalid, hprompt, hlimits, hstops, rfl⟩
        refine ⟨hlimits, ?_⟩
        cases hraw : request.prompt.rawTokens with
        | none =>
            exact hencode text ids
              (encode_of_completionPrompt tokenizer request.prompt hraw ids text hprompt)
        | some ids' =>
            have hdecoded := hprompt
            rw [completionPrompt_of_rawTokens tokenizer _ ids' hraw] at hdecoded
            rcases map_eq_ok_iff.mp hdecoded with ⟨text', htext, hpair⟩
            cases hpair
            exact hids ids hraw
              ⟨hvalid, ⟨text, mapError_eq_ok_iff.mp htext⟩, hlimits, ⟨stops, hstops⟩⟩
  | chat request =>
      refine iff_of_true ?_ trivial
      intro call hcall
      rcases map_eq_ok_iff.mp hcall with ⟨admitted, hadmit, rfl⟩
      rcases request.admit_spec floats tests state tokenizer admitted hadmit with
        ⟨⟨text, htext⟩, hlimits⟩
      exact ⟨hlimits, hencode text _ htext⟩

end Calls

/-! ## A token outside the vocabulary -/

/-- A tokenizer with one token for each character of seven bits. A token outside the vocabulary
    stands for nothing. -/
def asciiTokenizer : Tokenizer where
  encode text :=
    if text.all fun c => decide (c.toNat < 128) then .ok (text.map fun c => UInt32.ofNat c.toNat)
    else .error "tokenization failed".toList
  decode ids := .ok ((ids.filter (· < 128)).map fun id => Char.ofNat id.toNat)

theorem asciiTokenizer_inVocabulary : asciiTokenizer.InVocabulary 128 := by
  intro text tokens h id hid
  unfold asciiTokenizer at h
  dsimp only at h
  split_ifs at h with hascii
  cases h
  rcases List.mem_map.mp hid with ⟨c, hc, rfl⟩
  have hsmall := of_decide_eq_true (List.all_eq_true.mp hascii c hc)
  rw [UInt32.toNat_ofNat_of_lt' (Nat.lt_trans hsmall (by decide))]
  exact hsmall

/-- A server for it. -/
def asciiServer : ServerState where
  modelId := "qwen".toList
  maxContextTokens := 4096
  maxOutputTokens := 512
  vocabSize := 128
  maxContextTokens_le := by decide

/-- No float compares as anything. -/
def noFloatTests : FloatTests Empty where
  isZero := fun x => x.elim
  isOne := fun x => x.elim

/-- A request for one prompt, with nothing else given. -/
def promptRequest (prompt : CompletionPrompt) (maxTokens : Option Nat) : CompletionRequest Empty :=
  { model := "qwen".toList, prompt := prompt, maxTokens := maxTokens, temperature := none
    topP := none, n := none, bestOf := none, stream := false, streamOptions := none, stop := none
    echo := false, logprobs := none, presencePenalty := none, frequencyPenalty := none
    logitBias := none, suffix := none, ignoreEos := false }

/-- A text is sound for the backend, whatever the text. -/
theorem asciiServer_text_sound :
    (∀ call, ApiRequest.backendCall noFloats noFloatTests asciiServer asciiTokenizer
        (.completion (promptRequest (.text "a".toList) none)) = .ok call →
      Sound asciiServer call) ↔
      ∀ ids, CompletionPrompt.rawTokens (.text "a".toList) = some ids →
        Passes noFloatTests asciiServer asciiTokenizer
          (promptRequest (.text "a".toList) none) ids →
        ∀ id ∈ ids, id.toNat < 128 :=
  backendCall_sound_iff noFloats noFloatTests asciiServer asciiTokenizer
    asciiTokenizer_inVocabulary (.completion (promptRequest (.text "a".toList) none))

/-- A token far outside the vocabulary reaches the backend. -/
theorem asciiServer_token_unsound :
    ¬∀ call, ApiRequest.backendCall noFloats noFloatTests asciiServer asciiTokenizer
        (.completion (promptRequest (.tokens [97, 0xFFFFFFFF]) (some 4))) = .ok call →
      Sound asciiServer call := by
  intro hsound
  have hcall : ApiRequest.backendCall noFloats noFloatTests asciiServer asciiTokenizer
      (.completion (promptRequest (.tokens [97, 0xFFFFFFFF]) (some 4))) =
      .ok { exactFirstToken := false, inputTokenIds := [97, 0xFFFFFFFF], maxOutputTokens := 4 } :=
    rfl
  exact absurd ((hsound _ hcall).vocabulary 0xFFFFFFFF (by decide)) (by decide)

end Admission

end QrtEngine
