import QrtEngine.Server.ChatStream
import QrtEngine.Server.Finalize
import QrtEngine.Server.ToJson

/-!
# The Tool Choice of a Response

What a successful chat response owes to the tool choice of its request. The choice is read
in three places: it selects the tools offered, it is enforced on the parsed message, and
through the tools offered it decides whether a stream parses at all.

A choice that asks for calls is enforced on the message, and so is the limit of one call.
The choice of none is not: it only takes the tools away. A model may write tool markup all
the same, and every response that is parsed then carries the calls. Only a stream that
sends its text as it comes, which takes a request without thinking, has none to carry.

## Main definitions

* `Answer`: What a response says about tools.
* `answer`: The response of a request, plain or streamed.
* `HonorsToolChoice`: What a response owes to the request.
* `toolCallCount`: The number of calls in a text.

## Theorems

* `enforceToolChoice_ok_iff`: What the check lets through.
* `answer_direct`, `answer_parsed`: The response of a direct stream, and every other.
* `answer_honors_iff`: When every response of a request honors its tool choice.
-/

namespace QrtEngine

namespace Chat

open ByteText Text

/-- What the check lets through. -/
theorem enforceToolChoice_ok_iff {Value : Type} (selected : SelectedTools Value)
    (parsed : ParsedAssistant) (allowParallelTools : Bool) :
    enforceToolChoice selected parsed allowParallelTools = .ok () ↔
      (allowParallelTools = false → parsed.toolCalls.length ≤ 1) ∧
        (selected.choice = .required → parsed.toolCalls ≠ []) ∧
        ∀ name, selected.requiredName = some name → parsed.toolCalls ≠ [] ∧
          ∀ call ∈ parsed.toolCalls, call.function.name = name := by
  unfold enforceToolChoice
  -- The three checks are made in this order, and each one that passes is a part of the result.
  by_cases hparallel : (!allowParallelTools && decide (parsed.toolCalls.length > 1)) = true
  · rw [if_pos hparallel]
    simp only [Bool.and_eq_true, Bool.not_eq_true', decide_eq_true_eq] at hparallel
    refine iff_of_false (by simp only [reduceCtorEq, not_false_eq_true]) fun h => ?_
    exact absurd (h.1 hparallel.1) (by omega)
  · rw [if_neg hparallel]
    have hsingle : allowParallelTools = false → parsed.toolCalls.length ≤ 1 := by
      intro hno
      by_contra hlong
      exact hparallel (by simp only [hno, Bool.not_false, Bool.true_and, decide_eq_true_eq]; omega)
    by_cases hrequired : selected.choice = .required ∧ parsed.toolCalls = []
    · rw [if_pos hrequired]
      exact iff_of_false (by simp only [reduceCtorEq, not_false_eq_true])
        fun h => h.2.1 hrequired.1 hrequired.2
    · rw [if_neg hrequired]
      have hsome : selected.choice = .required → parsed.toolCalls ≠ [] :=
        fun hchoice hnil => hrequired ⟨hchoice, hnil⟩
      cases hname : selected.requiredName with
      | none => exact iff_of_true rfl ⟨hsingle, hsome, fun name h => absurd h.symm (by simp)⟩
      | some requiredName =>
          dsimp only
          split_ifs with hother
          · refine iff_of_false (by simp) fun h => ?_
            rcases h.2.2 requiredName rfl with ⟨hne, hall⟩
            -- The last check fails without a call, or for the first call of another name.
            rcases hother with hnil | hany
            · exact hne hnil
            · rcases List.any_eq_true.mp hany with ⟨call, hmem, hcall⟩
              exact of_decide_eq_true hcall (hall call hmem)
          · refine iff_of_true rfl ⟨hsingle, hsome, fun name h => ?_⟩
            rw [Option.some.injEq] at h
            subst h
            refine ⟨fun hnil => hother (.inl hnil), fun call hmem => ?_⟩
            by_contra hcall
            exact hother (.inr (List.any_eq_true.mpr ⟨call, hmem, decide_eq_true hcall⟩))

/-! ## Calls in a text -/

/-- The number of calls in a text: those of its markup, if all of it parses. -/
def toolCallCount {Value : Type} (serde : Serde Value) (text : Str) : Nat :=
  match find toolCallOpen text with
  | none => 0
  | some firstTool => ((parseToolCalls serde [] (dropBytes firstTool text) []).getD []).length

/-- The message in a text has the calls of what is visible of it. -/
theorem parseAssistantOutput_length {Value : Type} (serde : Serde Value) (raw : Str)
    (thinkingEnabled : Bool) (requestId : Str) :
    (parseAssistantOutput serde raw thinkingEnabled requestId).toolCalls.length =
      toolCallCount serde (splitReasoning raw thinkingEnabled).2 := by
  unfold parseAssistantOutput toolCallCount
  dsimp only
  cases find toolCallOpen (splitReasoning raw thinkingEnabled).2 with
  | none => rfl
  | some firstTool =>
      have hcalls := parseToolCalls_functions serde requestId []
        (dropBytes firstTool (splitReasoning raw thinkingEnabled).2) [] [] rfl
      dsimp only
      cases h : parseToolCalls serde requestId
          (dropBytes firstTool (splitReasoning raw thinkingEnabled).2) [] with
      | none =>
          rw [h, Option.map_none] at hcalls
          rw [Option.map_eq_none_iff.mp hcalls.symm]
          rfl
      | some calls =>
          rw [h, Option.map_some] at hcalls
          rcases Option.map_eq_some_iff.mp hcalls.symm with ⟨calls', hcalls', hmap⟩
          rw [hcalls', Option.getD_some]
          have hlen := congrArg List.length hmap
          rw [List.length_map, List.length_map] at hlen
          exact hlen.symm

/-! ## Responses -/

/-- What a response says about tools. -/
structure Answer where
  functions : List OutputFunctionCall
  finishReason : FinishReason
deriving DecidableEq, Repr

section Answers

variable {Value : Type} (serde : Serde Value) (codec : Codec) (chat : AcceptedChat Value)
  (requestId : Str) (promptTokens maxOutputTokens : Nat) (generated : List UInt32)

/-- What a plain response says, if it is no error. -/
def plainAnswer : Option Answer :=
  match chatCompletion serde codec chat requestId promptTokens maxOutputTokens generated with
  | .error _ => none
  | .ok completion =>
      some { functions := completion.message.toolCalls.map OutputToolCall.function
             finishReason := completion.finishReason }

/-- What the events of a stream say, if none is an error. -/
def streamAnswer : Option Answer :=
  let delivered :=
    assemble (chatStream serde codec chat requestId promptTokens maxOutputTokens generated)
  match delivered.error with
  | some _ => none
  | none => delivered.finishReason.map fun finishReason =>
      { functions := delivered.functions, finishReason := finishReason }

/-- What the response says, streamed or not. -/
def answer (stream : Bool) : Option Answer :=
  if stream then
    streamAnswer serde codec chat requestId promptTokens maxOutputTokens generated
  else plainAnswer serde codec chat requestId promptTokens maxOutputTokens generated

/-- What a message that passes the check says. -/
def messageAnswer (finalized : FinalizedOutput) : Option Answer :=
  match chatMessage serde chat requestId finalized with
  | .error _ => none
  | .ok (parsed, finishReason) =>
      some { functions := parsed.toolCalls.map OutputToolCall.function
             finishReason := finishReason }

/-- A direct stream calls nothing and ends as the text does. -/
theorem answer_direct (hdirect : directContentStream chat = true) :
    answer serde codec chat requestId promptTokens maxOutputTokens generated true =
      match finalizeTokens codec generated chat.stops chat.ignoreEos maxOutputTokens with
      | .error _ => none
      | .ok finalized => some { functions := [], finishReason := finalized.finishReason } := by
  unfold answer streamAnswer
  rw [if_pos rfl]
  cases h : finalizeTokens codec generated chat.stops chat.ignoreEos maxOutputTokens with
  | error error =>
      unfold chatStream assemble
      simp only [h, List.foldl_append, foldl_receive_content]
      rfl
  | ok finalized =>
      rw [assemble_direct serde codec chat requestId promptTokens maxOutputTokens generated
        finalized hdirect h]
      rfl

/-- Every other response says what the parsed message does. -/
theorem answer_parsed (stream : Bool) (hparsed : (stream && directContentStream chat) = false) :
    answer serde codec chat requestId promptTokens maxOutputTokens generated stream =
      match finalizeTokens codec generated chat.stops chat.ignoreEos maxOutputTokens with
      | .error _ => none
      | .ok finalized => messageAnswer serde chat requestId finalized := by
  have hplain : plainAnswer serde codec chat requestId promptTokens maxOutputTokens generated =
      match finalizeTokens codec generated chat.stops chat.ignoreEos maxOutputTokens with
      | .error _ => none
      | .ok finalized => messageAnswer serde chat requestId finalized := by
    unfold plainAnswer chatCompletion messageAnswer
    cases finalizeTokens codec generated chat.stops chat.ignoreEos maxOutputTokens with
    | error error => rfl
    | ok finalized =>
        dsimp only
        cases chatMessage serde chat requestId finalized <;> rfl
  unfold answer
  cases stream with
  | false => exact hplain
  | true =>
      -- The stream delivers what the plain response to the same request would.
      have hsame := chatStream_parsed_same serde codec chat requestId requestId promptTokens
        maxOutputTokens generated hparsed
      rw [if_pos rfl, ← hplain]
      unfold streamAnswer plainAnswer
      dsimp only
      cases h :
        chatCompletion serde codec chat requestId promptTokens maxOutputTokens generated with
      | error error =>
          rw [h] at hsame
          rw [show (assemble _).error = some error from hsame]
      | ok completion =>
          rw [h] at hsame
          rw [show assemble _ = _ from hsame]
          rfl

end Answers

/-! ## The contract -/

/-- What a response owes to the tool choice of its request. -/
structure HonorsToolChoice {Value : Type} (serde : Serde Value) (request : ChatRequest Value)
    (answer : Answer) : Prop where
  none : choiceMode serde request.toolChoice = some "none".toList →
    answer.functions = [] ∧ answer.finishReason ≠ .toolCalls
  required : choiceMode serde request.toolChoice = some "required".toList → answer.functions ≠ []
  named : ∀ name, namedChoice serde request.toolChoice = some name →
    answer.functions ≠ [] ∧ ∀ function ∈ answer.functions, function.name = name
  single : request.parallelToolCalls = some false → answer.functions.length ≤ 1
  finish : answer.finishReason = .toolCalls ↔ answer.functions ≠ []

/-- A finished output ends by its length or at a stop. -/
theorem finalizeTokens_finishReason (codec : Codec) (generated : List UInt32) (stops : List Str)
    (ignoreEos : Bool) (requestedTokens : Nat) (out : FinalizedOutput)
    (h : finalizeTokens codec generated stops ignoreEos requestedTokens = .ok out) :
    out.finishReason ≠ .toolCalls := by
  rcases finalizeTokens_cases codec generated stops ignoreEos requestedTokens out h with
    ⟨full, -, ⟨-, rfl⟩ | ⟨position, stop, count, default, -, -, -, -, rfl⟩⟩
  · dsimp only
    unfold plainFinish
    split_ifs <;> exact FinishReason.noConfusion
  · exact FinishReason.noConfusion

section Contract

variable {Value : Type} (serde : Serde Value) (request : ChatRequest Value)
  (chat : AcceptedChat Value)

/-- A response without calls honors a choice that asks for none. -/
theorem honors_of_no_calls (haccept : request.accept serde = .ok chat)
    (hchoice : chat.selectedTools.choice ≠ .required)
    (hname : chat.selectedTools.requiredName = none) (finishReason : FinishReason)
    (hfinish : finishReason ≠ .toolCalls) :
    HonorsToolChoice serde request { functions := [], finishReason := finishReason } := by
  have hselect := (accept_spec serde request chat haccept).1
  refine ⟨fun _ => ⟨rfl, hfinish⟩, fun hrequired => ?_, fun name hnamed => ?_,
    fun _ => Nat.zero_le _, iff_of_false hfinish (fun h => h rfl)⟩
  · rcases selectTools_cases serde _ _ _ hselect with
      ⟨hmode, -⟩ | ⟨-, hmode, -⟩ | ⟨-, -, -, hselected⟩ | ⟨_, _, hmode, -⟩
    · exact absurd (hmode.symm.trans hrequired) (by decide)
    · exact absurd hrequired hmode
    · exact absurd (by rw [hselected]) hchoice
    · exact absurd (hmode.symm.trans hrequired) (by simp)
  · rcases selectTools_cases serde _ _ _ hselect with
      ⟨-, hno, -⟩ | ⟨-, -, hno, -⟩ | ⟨-, hno, -⟩ | ⟨_, _, -, -, hselected⟩
    · exact absurd (hno.symm.trans hnamed) (by simp)
    · exact absurd (hno.symm.trans hnamed) (by simp)
    · exact absurd (hno.symm.trans hnamed) (by simp)
    · rw [hselected] at hname
      exact absurd hname (by simp)

/-- A message that passes the check honors the choice, unless it has calls and the choice is
    none. -/
theorem honors_of_enforced (haccept : request.accept serde = .ok chat) (parsed : ParsedAssistant)
    (finishReason : FinishReason) (hfinish : finishReason ≠ .toolCalls)
    (hcheck : enforceToolChoice chat.selectedTools parsed chat.allowParallelTools = .ok ()) :
    HonorsToolChoice serde request
        { functions := parsed.toolCalls.map OutputToolCall.function
          finishReason := if parsed.toolCalls = [] then finishReason else .toolCalls } ↔
      (choiceMode serde request.toolChoice = some "none".toList → parsed.toolCalls = []) := by
  rcases accept_spec serde request chat haccept with ⟨hselect, -, -, hparallel⟩
  rcases (enforceToolChoice_ok_iff _ _ _).mp hcheck with ⟨hsingle, hrequired, hnamed⟩
  constructor
  · intro h hnone
    exact List.map_eq_nil_iff.mp (h.none hnone).1
  · intro h
    refine ⟨fun hnone => ?_, fun hmode => ?_, fun name hname => ?_, fun hone => ?_, ?_⟩
    · rw [h hnone]
      exact ⟨rfl, by rw [if_pos rfl]; exact hfinish⟩
    · rw [Ne, List.map_eq_nil_iff]
      -- Of the four selections, only the one for a required choice has its mode.
      rcases selectTools_cases serde _ _ _ hselect with
        ⟨hno, -⟩ | ⟨-, hno, -⟩ | ⟨-, -, -, hselected⟩ | ⟨_, _, hno, -⟩
      · exact absurd (hno.symm.trans hmode) (by decide)
      · exact absurd hmode hno
      · exact hrequired (by rw [hselected])
      · exact absurd (hno.symm.trans hmode) (by simp)
    · rcases selectTools_cases serde _ _ _ hselect with
        ⟨-, hno, -⟩ | ⟨-, -, hno, -⟩ | ⟨-, hno, -⟩ | ⟨name', _, -, hname', hselected⟩
      · exact absurd (hno.symm.trans hname) (by simp)
      · exact absurd (hno.symm.trans hname) (by simp)
      · exact absurd (hno.symm.trans hname) (by simp)
      · -- The name in the selection is the one in the request.
        rw [hname', Option.some.injEq] at hname
        subst hname
        rcases hnamed name' (by rw [hselected]) with ⟨hne, hall⟩
        refine ⟨fun hnil => hne (List.map_eq_nil_iff.mp hnil), fun function hmem => ?_⟩
        rcases List.mem_map.mp hmem with ⟨call, hcall, rfl⟩
        exact hall call hcall
    · rw [List.length_map]
      exact hsingle (by rw [hparallel, hone]; rfl)
    · dsimp only
      rw [Ne, List.map_eq_nil_iff]
      -- The finish reason is rewritten exactly when there are calls.
      by_cases hnil : parsed.toolCalls = []
      · rw [if_pos hnil]
        exact iff_of_false hfinish (fun hne => hne hnil)
      · rw [if_neg hnil]
        exact iff_of_true rfl hnil

/-- With a choice of none the only error of the check is that of several calls. -/
theorem error_of_none (haccept : request.accept serde = .ok chat) (parsed : ParsedAssistant)
    (error : ApiError) (hmode : choiceMode serde request.toolChoice = some "none".toList)
    (hcheck : enforceToolChoice chat.selectedTools parsed chat.allowParallelTools =
      .error error) :
    request.parallelToolCalls = some false ∧ 1 < parsed.toolCalls.length := by
  rcases accept_spec serde request chat haccept with ⟨hselect, -, -, hparallel⟩
  have hselected : chat.selectedTools = { tools := [], choice := .none, requiredName := none } := by
    rcases selectTools_cases serde _ _ _ hselect with
      ⟨-, -, hselected⟩ | ⟨hno, -⟩ | ⟨hno, -⟩ | ⟨_, _, hno, -⟩
    · exact hselected
    · exact absurd hmode hno
    · exact absurd (hno.symm.trans hmode) (by decide)
    · exact absurd (hno.symm.trans hmode) (by simp)
  -- With this selection the other two checks cannot fail, so without several calls all pass.
  by_contra hnot
  have hok := (enforceToolChoice_ok_iff chat.selectedTools parsed chat.allowParallelTools).mpr
    ⟨fun hno => ?_, fun hrequired => ?_, fun name hname => ?_⟩
  · rw [hok] at hcheck
    exact absurd hcheck (by simp)
  · by_contra hlong
    refine hnot ⟨?_, by omega⟩
    rw [hparallel] at hno
    cases hcalls : request.parallelToolCalls with
    | none => exact absurd hno (by simp [hcalls])
    | some allowed =>
        rw [hcalls, Option.getD_some] at hno
        rw [hno]
  · rw [hselected] at hrequired
    exact absurd hrequired (by simp)
  · rw [hselected] at hname
    exact absurd hname (by simp)

end Contract

/-- A stream without tools and without thinking has no calls. -/
theorem honors_of_direct {Value : Type} (serde : Serde Value) (codec : Codec)
    (request : ChatRequest Value) (chat : AcceptedChat Value)
    (haccept : request.accept serde = .ok chat) (requestId : Str)
    (promptTokens maxOutputTokens : Nat) (generated : List UInt32)
    (hdirect : directContentStream chat = true) (a : Answer)
    (ha : answer serde codec chat requestId promptTokens maxOutputTokens generated true = some a) :
    HonorsToolChoice serde request a := by
  have hselect := (accept_spec serde request chat haccept).1
  have hmodes := hdirect
  rw [directContentStream, Bool.and_eq_true] at hmodes
  rcases selectTools_of_isEmpty serde _ _ _ hselect hmodes.1 with ⟨hchoice, hname⟩
  rw [answer_direct serde codec chat requestId promptTokens maxOutputTokens generated hdirect] at ha
  cases h : finalizeTokens codec generated chat.stops chat.ignoreEos maxOutputTokens with
  | error error =>
      rw [h] at ha
      exact absurd ha (by simp)
  | ok finalized =>
      rw [h, Option.some.injEq] at ha
      rw [← ha]
      exact honors_of_no_calls serde request chat haccept hchoice hname _
        (finalizeTokens_finishReason codec generated _ _ _ finalized h)

/-- A choice of none offers no tools, so a stream that parses has thinking on. -/
theorem thinks_of_none {Value : Type} (serde : Serde Value) (request : ChatRequest Value)
    (chat : AcceptedChat Value) (haccept : request.accept serde = .ok chat) (stream : Bool)
    (hdirect : (stream && directContentStream chat) = false)
    (hmode : choiceMode serde request.toolChoice = some "none".toList) :
    ¬(stream = true ∧ request.enableThinking = false) := by
  rcases accept_spec serde request chat haccept with ⟨hselect, -, hthinking, -⟩
  rintro ⟨hstream, hoff⟩
  rcases selectTools_cases serde _ _ _ hselect with
    ⟨-, -, hselected⟩ | ⟨hno, -⟩ | ⟨hno, -⟩ | ⟨_, _, hno, -⟩
  · rw [hstream, directContentStream, hselected, hthinking, hoff] at hdirect
    exact absurd hdirect (by simp)
  · exact hno hmode
  · exact absurd (hno.symm.trans hmode) (by decide)
  · exact absurd (hno.symm.trans hmode) (by simp)

/-- When every response of a request honors its tool choice: the choice is not none, or the
    response is a stream without thinking, or no calls can be read from the finished text, or
    several can and only one is allowed, which is an error. -/
theorem answer_honors_iff {Value : Type} (serde : Serde Value) (codec : Codec)
    (request : ChatRequest Value) (chat : AcceptedChat Value)
    (haccept : request.accept serde = .ok chat) (stream : Bool) (requestId : Str)
    (promptTokens maxOutputTokens : Nat) (generated : List UInt32) :
    (∀ a, answer serde codec chat requestId promptTokens maxOutputTokens generated stream =
        some a → HonorsToolChoice serde request a) ↔
      (choiceMode serde request.toolChoice = some "none".toList →
        (stream = true ∧ request.enableThinking = false) ∨
        ∀ finalized, finalizeTokens codec generated chat.stops chat.ignoreEos maxOutputTokens =
            .ok finalized →
          let calls := toolCallCount serde
            (splitReasoning finalized.text request.enableThinking).2
          calls = 0 ∨ (request.parallelToolCalls = some false ∧ 1 < calls)) := by
  rcases accept_spec serde request chat haccept with ⟨-, -, hthinking, hparallel⟩
  cases hdirect : stream && directContentStream chat with
  | true =>
      -- A direct stream passes on text alone, whatever can be read from it.
      rcases Bool.and_eq_true_iff.mp hdirect with ⟨rfl, hchat⟩
      have hmodes := hchat
      rw [directContentStream, Bool.and_eq_true, Bool.not_eq_true'] at hmodes
      refine iff_of_true ?_ fun _ => .inl ⟨rfl, by rw [← hthinking]; exact hmodes.2⟩
      intro a ha
      exact honors_of_direct serde codec request chat haccept requestId promptTokens
        maxOutputTokens generated hchat a ha
  | false =>
      rw [answer_parsed serde codec chat requestId promptTokens maxOutputTokens generated stream
        hdirect]
      cases h : finalizeTokens codec generated chat.stops chat.ignoreEos maxOutputTokens with
      | error error =>
          exact iff_of_true (fun a ha => absurd ha (by simp))
            fun _ => .inr fun finalized h => absurd h (by simp)
      | ok finalized =>
          have hfinish := finalizeTokens_finishReason codec generated _ _ _ finalized h
          have hlength := parseAssistantOutput_length serde finalized.text chat.thinkingEnabled
            requestId
          rw [← hthinking]
          dsimp only
          unfold messageAnswer chatMessage
          dsimp only
          generalize parseAssistantOutput serde finalized.text chat.thinkingEnabled requestId =
            parsed at hlength
          cases hcheck : enforceToolChoice chat.selectedTools parsed chat.allowParallelTools with
          | error error =>
              -- An error is no answer, and with a choice of none it is that of several calls.
              refine iff_of_true (fun a ha => absurd ha (by simp [Except.map])) fun hmode =>
                .inr fun finalized' h' => .inr ?_
              rw [← Except.ok.inj h', ← hlength]
              exact error_of_none serde request chat haccept parsed error hmode hcheck
          | ok _ =>
              -- An answer that passes honors the choice, unless it has calls and the choice is
              -- none.
              have hhonors := honors_of_enforced serde request chat haccept parsed _ hfinish hcheck
              have hsingle := ((enforceToolChoice_ok_iff _ _ _).mp hcheck).1
              simp only [Except.map, Option.some.injEq, forall_eq']
              rw [hhonors]
              constructor
              · intro hnil hmode
                refine .inr fun finalized' h' => .inl ?_
                rw [← Except.ok.inj h', ← hlength, hnil hmode, List.length_nil]
              · intro hcond hmode
                rw [hthinking] at hcond
                rcases hcond hmode with hoff | hcalls
                · exact absurd hoff (thinks_of_none serde request chat haccept stream hdirect hmode)
                · rw [← hthinking] at hcalls
                  rcases hcalls finalized rfl with hzero | ⟨hone, hmany⟩
                  · exact List.length_eq_zero_iff.mp (hlength.trans hzero)
                  · -- Several calls would not have passed.
                    rw [← hlength] at hmany
                    have hle := hsingle (by rw [hparallel, hone]; rfl)
                    omega

/-- A request that offers no tools, because its tool choice is none. -/
def noneRequest : ChatRequest (Json.Value Empty) :=
  { tools := [], toolChoice := some (.string "none".toList), enableThinking := false
    parallelToolCalls := none, stop := none, ignoreEos := false, includeUsage := false }

/-- The same request, accepted. -/
def noneChat : AcceptedChat (Json.Value Empty) :=
  { selectedTools := { tools := [], choice := .none, requiredName := none }
    thinkingEnabled := false, allowParallelTools := true, stops := [], ignoreEos := false
    includeUsage := false }

/-- A tokenizer in which 1 is a call of the function "f", 2 is "OK" and 0 ends the
    sequence. -/
def callCodec : Codec where
  decode tokens := some (tokens.flatMap fun token =>
    if token = 1 then "<tool_call>\n<function=f>\n</function>\n</tool_call>".toList
    else if token = 2 then "OK".toList else [])
  decodeError _ := []
  isEos token := token == 0

/-- The text "OK" is answered without calls, as a choice of none asks. -/
theorem answer_none_honors :
    noneRequest.accept (serdeJson noFloats) = .ok noneChat ∧
      ∀ a, answer (serdeJson noFloats) callCodec noneChat ['a'] 3 8 [2, 0] false = some a →
        HonorsToolChoice (serdeJson noFloats) noneRequest a := by
  have hfinalized : finalizeTokens callCodec [2, 0] [] false 8 =
      .ok { text := "OK".toList, generatedTokenIds := [2, 0], generatedTokenCount := 2
            finishReason := .stop, stopReason := none } := by decide +kernel
  refine ⟨rfl, (answer_honors_iff (serdeJson noFloats) callCodec noneRequest noneChat rfl false
    ['a'] 3 8 [2, 0]).mpr fun _ => .inr fun finalized h => .inl ?_⟩
  rw [← Except.ok.inj (hfinalized.symm.trans h)]
  decide +kernel

/-- A call that the model writes all the same is answered as a call. -/
theorem answer_none_calls :
    noneRequest.accept (serdeJson noFloats) = .ok noneChat ∧
      ∃ a, answer (serdeJson noFloats) callCodec noneChat ['a'] 3 8 [1, 0] false = some a ∧
        ¬HonorsToolChoice (serdeJson noFloats) noneRequest a := by
  refine ⟨rfl, { functions := [{ name := ['f'], arguments := ['{', '}'] }]
                 finishReason := .toolCalls }, by decide +kernel, fun h => ?_⟩
  exact absurd (h.none rfl).1 (by decide)

end Chat

end QrtEngine
