import QrtEngine.Server.Admission

/-!
# A Batch of One

The answer of the completion endpoint, and when a list with one prompt in it is answered like the
prompt alone.

The handler asks for the shape of the prompt twice. Once it takes the prompt apart, and there a
list with one prompt in it is that prompt. But before that it asks whether the prompt is a list of
tokens, and there it is not. Only a list of tokens for which one token is to be generated goes to
the entry of the backend for an exact first token, so the list with it in it goes to the other one.

The backend is a parameter: for each call the tokens it streams and its result.

## Main definitions

* `completionReply`: The reply to an admitted request.
* `completions`: What the endpoint does with a payload.
* `PromptItem.alone`, `PromptItem.single`: A prompt in a body, and a list with it in it.
* `SameOutcome`: The two mean the same.

## Theorems

* `deserialize_alone`, `deserialize_single`: How the two are read.
* `admit_tokens`: How a list of tokens is admitted, against a list with it in it.
* `single_batch_iff`: When the two mean the same.
-/

namespace QrtEngine

namespace Admission

open Text Chat Json

/-! ## The endpoint -/

/-- A backend that answers a call in one way: the tokens it streams, and the tokens it returns or
    the text of its error. -/
structure Backend where
  run : BackendCall → List UInt32 × Except Str (List UInt32)

/-- The plain response. -/
structure Completion where
  text : Str
  finishReason : FinishReason
  stopReason : Option Str
  tokenIds : List UInt32
  usage : Usage
deriving DecidableEq, Repr

/-- An event of the stream. -/
inductive CompletionEvent where
  | text (delta : Str)
  | finish (reason : FinishReason)
  | usage (usage : Usage)
  | error (error : ApiError)
  | done
deriving DecidableEq, Repr

/-- The reply to a request. -/
inductive CompletionReply where
  | error (error : ApiError)
  | completion (completion : Completion)
  | stream (events : List CompletionEvent)
deriving DecidableEq, Repr

section Reply

variable (codec : Codec) (admitted : AdmittedCompletion)

/-- The plain response to the tokens of the backend. -/
def completion (generated : List UInt32) : Except ApiError Completion :=
  match finalizeTokens codec generated admitted.stops admitted.ignoreEos
      admitted.maxOutputTokens with
  | .error error => .error (.internal error)
  | .ok finalized =>
      .ok
        { text := if admitted.echo then admitted.promptText ++ finalized.text else finalized.text
          finishReason := finalized.finishReason
          stopReason := finalized.stopReason
          tokenIds := finalized.generatedTokenIds
          usage := usageJson admitted.promptTokenIds.length finalized.generatedTokenCount }

/-- The events of the stream, for the tokens that were streamed and the result. -/
def completionEvents (streamed : List UInt32) (result : Except Str (List UInt32)) :
    List CompletionEvent :=
  let loop := streamLoop codec streamed admitted.stops admitted.ignoreEos true
  (if admitted.echo && !admitted.promptText.isEmpty then [.text admitted.promptText] else []) ++
    loop.deltas.map .text ++
    (match result with
    | .error error => [.error (.internal error)]
    | .ok generated =>
        match finalizeTokens codec generated admitted.stops admitted.ignoreEos
            admitted.maxOutputTokens with
        | .error error => [.error (.internal error)]
        | .ok finalized =>
            (loop.textStream.update finalized.text true).1.toList.map .text ++
              [.finish finalized.finishReason] ++
              if admitted.includeUsage then
                [.usage (usageJson admitted.promptTokenIds.length finalized.generatedTokenCount)]
              else []) ++
    [.done]

/-- The reply to an admitted request, for what the backend does. -/
def completionReply (streamed : List UInt32) (result : Except Str (List UInt32)) :
    CompletionReply :=
  if admitted.stream then .stream (completionEvents codec admitted streamed result)
  else
    match result with
    | .error error => .error (.internal error)
    | .ok generated =>
        match completion codec admitted generated with
        | .error error => .error error
        | .ok completion => .completion completion

end Reply

/-- What a request leads to: the call of the backend, if there is one, and the reply. -/
structure Outcome where
  call : Option BackendCall
  reply : CompletionReply
deriving DecidableEq, Repr

/-- A payload that is not a request. -/
def jsonError (rejection : Str) : ApiError :=
  { status := 400, message := "Invalid JSON request: ".toList ++ rejection
    kind := "invalid_request_error", param := none, code := some "invalid_json" }

section Endpoint

variable {F : Type} (tests : FloatTests F) (state : ServerState) (tokenizer : Tokenizer)
  (codec : Codec) (backend : Backend)

/-- What the endpoint does with a payload. The queue may refuse an admitted request. -/
def completions (refusal : Option ApiError) (payload : Except Str (CompletionRequest F)) :
    Outcome :=
  match payload with
  | .error rejection => { call := none, reply := .error (jsonError rejection) }
  | .ok request =>
      match request.checks tests state tokenizer with
      | .error error => { call := none, reply := .error error }
      | .ok admitted =>
          match refusal with
          | some error => { call := none, reply := .error error }
          | none =>
              let ran := backend.run admitted.backendCall
              { call := some admitted.backendCall
                reply := completionReply codec admitted ran.1 ran.2 }

end Endpoint

/-! ## A prompt and a list with it in it -/

/-- A prompt: a text, or tokens. -/
inductive PromptItem where
  | text (text : Str)
  | tokens (ids : List UInt32)
deriving DecidableEq, Repr

/-- A token in a body. -/
def tokenJson {F : Type} (id : UInt32) : Value F :=
  .int { val := id.toNat, lower := by omega, upper := by have := id.toNat_lt; omega }

/-- The prompt in a body. -/
def PromptItem.alone {F : Type} : PromptItem → Value F
  | .text s => .string s
  | .tokens ids => .array (ids.map tokenJson)

/-- A list with the prompt in it in a body. -/
def PromptItem.single {F : Type} (item : PromptItem) : Value F := .array [item.alone]

/-- A request with its prompt from a body. If that is not a prompt the payload is rejected. -/
def withPrompt {F : Type} (request : CompletionRequest F) (rejection : Str) (prompt : Value F) :
    Except Str (CompletionRequest F) :=
  match CompletionPrompt.deserialize prompt with
  | none => .error rejection
  | some prompt => .ok { request with prompt := prompt }

section Deserialize

variable {F : Type}

theorem tokenId_tokenJson (id : UInt32) : tokenId (tokenJson id : Value F) = some id := by
  have hlt := id.toNat_lt
  unfold tokenJson tokenId
  dsimp only
  rw [if_pos (by omega), Int.toNat_natCast, UInt32.ofNat_toNat]

theorem listOf_tokenId (ids : List UInt32) :
    listOf tokenId (.array (ids.map tokenJson) : Value F) = some ids := by
  unfold listOf
  dsimp only
  induction ids with
  | nil => rfl
  | cons id ids ih =>
      rw [List.map_cons, List.mapM_cons, tokenId_tokenJson, ih]
      rfl

/-- A prompt alone is a text or a list of tokens. -/
theorem deserialize_alone (item : PromptItem) :
    CompletionPrompt.deserialize (item.alone : Value F) =
      match item with
      | .text text => some (.text text)
      | .tokens ids => some (.tokens ids) := by
  cases item with
  | text text => rfl
  | tokens ids =>
      unfold PromptItem.alone CompletionPrompt.deserialize
      dsimp only
      rw [listOf_tokenId]
      rfl

/-- A list with a prompt in it is a batch, also if the prompt is an empty list. -/
theorem deserialize_single (item : PromptItem) :
    CompletionPrompt.deserialize (item.single : Value F) =
      match item with
      | .text text => some (.textBatch [text])
      | .tokens ids => some (.tokenBatch [ids]) := by
  cases item with
  | text text => rfl
  | tokens ids =>
      have hbatch : listOf (listOf tokenId)
          (.array [.array (ids.map tokenJson)] : Value F) = some [ids] := by
        have hids := listOf_tokenId (F := F) ids
        change [Value.array (ids.map tokenJson)].mapM (listOf tokenId) = some [ids]
        rw [List.mapM_cons, hids]
        rfl
      unfold PromptItem.single PromptItem.alone CompletionPrompt.deserialize
      dsimp only
      rw [hbatch]
      rfl

end Deserialize

section SingleBatch

variable {F : Type} (tests : FloatTests F) (state : ServerState) (tokenizer : Tokenizer)

/-- A list with a prompt in it means the prompt: the payloads are rejected alike or have the same
    tokens and text, and whatever the queue and the backend do, they lead to the same. -/
def SameOutcome (codec : Codec) (request : CompletionRequest F) (rejection : Str)
    (item : PromptItem) : Prop :=
  ((withPrompt request rejection item.single).map fun r => completionPrompt tokenizer r.prompt) =
      ((withPrompt request rejection item.alone).map fun r => completionPrompt tokenizer r.prompt) ∧
    ∀ backend refusal,
      completions tests state tokenizer codec backend refusal
          (withPrompt request rejection item.single) =
        completions tests state tokenizer codec backend refusal
          (withPrompt request rejection item.alone)

/-- A list of tokens is admitted as the list with it in it, except that it goes to the other entry
    if one token is to be generated. -/
theorem admit_tokens (request : CompletionRequest F) (ids : List UInt32) :
    ({ request with prompt := .tokens ids } : CompletionRequest F).checks tests state tokenizer =
      (({ request with prompt := .tokenBatch [ids] } : CompletionRequest F).checks tests state
        tokenizer).map fun admitted =>
          { admitted with exactFirstToken := admitted.maxOutputTokens == 1 } := by
  have hprompt : completionPrompt tokenizer (.tokenBatch [ids]) =
      completionPrompt tokenizer (.tokens ids) := rfl
  have hvalidate (prompt : CompletionPrompt) :
      ({ request with prompt := prompt } : CompletionRequest F).validate tests state =
        request.validate tests state := rfl
  unfold CompletionRequest.checks
  rw [hvalidate (.tokens ids), hvalidate (.tokenBatch [ids])]
  dsimp only
  rw [hprompt]
  -- Each check fails for both requests alike, or passes with the same result.
  cases request.validate tests state with
  | error error => rfl
  | ok valid =>
      cases completionPrompt tokenizer (.tokens ids) with
      | error error => rfl
      | ok prompt =>
          cases hmax : resolveMaxOutput state request.maxTokens 16 prompt.1.length with
          | error error =>
              simp only [bind, Except.bind, hmax]
              rfl
          | ok outputTokens =>
              cases stopsOf request.stop with
              | error error =>
                  simp only [bind, Except.bind, hmax]
                  rfl
              | ok stops =>
                  simp only [bind, Except.bind, hmax]
                  rfl

/-- When a list with a prompt in it means the prompt: the prompt is a text, or not just one token is
    to be generated, or the request is refused. -/
theorem single_batch_iff (codec : Codec) (request : CompletionRequest F) (rejection : Str)
    (item : PromptItem) :
    SameOutcome tests state tokenizer codec request rejection item ↔
      ∀ ids, item = .tokens ids → request.maxTokens = some 1 →
        ¬Passes tests state tokenizer request ids := by
  unfold SameOutcome withPrompt
  rw [deserialize_alone, deserialize_single]
  cases item with
  | text text =>
      refine iff_of_true ⟨rfl, fun backend refusal => rfl⟩ ?_
      intro ids h
      cases h
  | tokens ids =>
      dsimp only
      constructor
      · rintro ⟨-, hsame⟩ ids' hids hone hpasses
        cases hids
        rcases hpasses.decoded with ⟨text, htext⟩
        rcases hpasses.stops with ⟨stops, hstops⟩
        have hprompt : completionPrompt tokenizer (.tokenBatch [ids]) = .ok (ids, text) := by
          rw [completionPrompt_of_rawTokens tokenizer (.tokenBatch [ids]) ids rfl, htext]
          rfl
        have hbatch := (CompletionRequest.admit_ok_iff tests state tokenizer
          { request with prompt := .tokenBatch [ids] } _).mpr
          ⟨ids, text, stops, hpasses.fields, hprompt, hpasses.limits, hstops, rfl⟩
        -- The two calls differ, whatever the backend makes of them.
        have hcalls := congrArg Outcome.call
          (hsame { run := fun _ => ([], .ok []) } none)
        unfold completions at hcalls
        dsimp only at hcalls
        rw [admit_tokens, hbatch] at hcalls
        simp [Except.map, AdmittedCompletion.backendCall, CompletionPrompt.isTokens, hone] at hcalls
      · intro hrefused
        refine ⟨rfl, fun backend refusal => ?_⟩
        unfold completions
        dsimp only
        rw [admit_tokens]
        cases hbatch : ({ request with prompt := .tokenBatch [ids] } : CompletionRequest F).checks
            tests state tokenizer with
        | error error => rfl
        | ok admitted =>
            rcases (CompletionRequest.admit_ok_iff tests state tokenizer _ admitted).mp hbatch with
              ⟨ids', text, stops, hvalid, hprompt, hlimits, hstops, rfl⟩
            rw [completionPrompt_of_rawTokens tokenizer (.tokenBatch [ids]) ids rfl] at hprompt
            rcases map_eq_ok_iff.mp hprompt with ⟨text', htext, hpair⟩
            cases hpair
            have hmany : request.maxTokens.getD 16 ≠ 1 := by
              intro hmax
              refine hrefused ids rfl ?_
                ⟨hvalid, ⟨text, mapError_eq_ok_iff.mp htext⟩, hlimits, ⟨stops, hstops⟩⟩
              -- Without a number of tokens sixteen are generated.
              cases hgiven : request.maxTokens with
              | none =>
                  rw [hgiven] at hmax
                  cases hmax
              | some outputTokens =>
                  rw [hgiven] at hmax
                  exact congrArg some hmax
            have hentry : (request.maxTokens.getD 16 == 1) = false := beq_eq_false_iff_ne.mpr hmany
            simp only [Except.map, hentry, CompletionPrompt.isTokens, Bool.false_and]

end SingleBatch

/-- The texts of tokens of seven bits, none of which ends a sequence. -/
def asciiCodec : Codec where
  decode ids := some ((ids.filter (· < 128)).map fun id => Char.ofNat id.toNat)
  decodeError _ := "detokenization failed".toList
  isEos _ := false

/-- For one token to be generated, a list with a list of tokens in it goes to the other entry. -/
theorem asciiServer_single_batch_differs :
    ¬SameOutcome noFloatTests asciiServer asciiTokenizer asciiCodec
      (promptRequest (.tokens []) (some 1)) "".toList (.tokens [97]) := by
  rintro ⟨-, hsame⟩
  have hcalls := congrArg Outcome.call (hsame { run := fun _ => ([98], .ok [98]) } none)
  exact absurd hcalls (by decide)

end Admission

end QrtEngine
