import QrtEngine.Server.Chat
import QrtEngine.Server.TextStream

/-!
# Streamed Chat against Plain Chat

When a client that puts the events of a stream together has the message of the plain
response. A stream that parses at its end delivers what the plain response does, tool calls
and errors included. A direct stream sends the finished text itself, while the plain response
trims and parses that text in every case. So the two agree exactly when trimming and parsing
do nothing: the text has no white space at its ends, and no markup in it parses as tool calls.

Identifiers of tool calls are made from the request's, so the two responses are given
different requests and the calls are compared without them.

## Main definitions

* `Delivered`, `assemble`: What a client has after the events of a stream.
* `SameMessage`: A stream has delivered the plain response.
* `parsesToolCalls`: A text contains tool calls that parse.
* `choiceMode`, `namedChoice`: The two things a tool choice can be.

## Theorems

* `parseToolCalls_functions`: The calls read do not depend on the request.
* `parseAssistantOutput_visible`: The message in a text without reasoning.
* `selectTools_cases`: The selections, one for each kind of tool choice.
* `enforceToolChoice_of_direct`: Without tools, a message without calls passes the check.
* `chatStream_parsed_same`: A stream that parses delivers the plain response.
* `chatStream_same_iff`: When a stream delivers the plain response.
-/

namespace QrtEngine

namespace Chat

open ByteText Text

/-! ## Events put together -/

/-- What a client has after some events. -/
structure Delivered where
  content : Str
  reasoning : Option Str
  functions : List OutputFunctionCall
  finishReason : Option FinishReason
  usage : Option Usage
  error : Option ApiError
deriving DecidableEq, Repr

/-- Nothing received. -/
def Delivered.empty : Delivered :=
  { content := [], reasoning := none, functions := [], finishReason := none, usage := none
    error := none }

/-- One more event. -/
def Delivered.receive (delivered : Delivered) : StreamEvent → Delivered
  | .role => delivered
  | .content delta => { delivered with content := delivered.content ++ delta }
  | .reasoning text =>
      { delivered with reasoning := some (delivered.reasoning.getD [] ++ text) }
  | .toolCall _ call => { delivered with functions := delivered.functions ++ [call.function] }
  | .finish reason => { delivered with finishReason := some reason }
  | .usage usage => { delivered with usage := some usage }
  | .error error => { delivered with error := some error }
  | .done => delivered

/-- The events of a stream put together. -/
def assemble (events : List StreamEvent) : Delivered :=
  events.foldl Delivered.receive Delivered.empty

/-- A stream has delivered the plain response: the same error, or the same message with the
    usage if it was asked for. Content that is absent is empty. -/
def SameMessage (includeUsage : Bool) (plain : Except ApiError ChatCompletion)
    (streamed : Delivered) : Prop :=
  match plain with
  | .error error => streamed.error = some error
  | .ok completion =>
      streamed =
        { content := completion.message.content.getD []
          reasoning := completion.message.reasoningContent
          functions := completion.message.toolCalls.map OutputToolCall.function
          finishReason := some completion.finishReason
          usage := if includeUsage then some completion.usage else none
          error := none }

theorem foldl_receive_content (delivered : Delivered) (deltas : List Str) :
    (deltas.map StreamEvent.content).foldl Delivered.receive delivered =
      { delivered with content := delivered.content ++ deltas.flatten } := by
  induction deltas generalizing delivered with
  | nil => simp only [List.map_nil, List.foldl_nil, List.flatten_nil, List.append_nil]
  | cons delta deltas ih =>
      rw [List.map_cons, List.foldl_cons, ih]
      simp only [Delivered.receive, List.flatten_cons, List.append_assoc]

theorem foldl_receive_toolCall (delivered : Delivered) (calls : List OutputToolCall)
    (event : Nat → OutputToolCall → StreamEvent) (hevent : ∀ n call, ∃ m,
      event n call = .toolCall m call) :
    (calls.mapIdx event).foldl Delivered.receive delivered =
      { delivered with
        functions := delivered.functions ++ calls.map OutputToolCall.function } := by
  induction calls generalizing delivered event with
  | nil => simp only [List.mapIdx_nil, List.foldl_nil, List.map_nil, List.append_nil]
  | cons call calls ih =>
      rcases hevent 0 call with ⟨m, hm⟩
      rw [List.mapIdx_cons, List.foldl_cons, hm,
        ih _ (fun n => event (n + 1)) fun n call => hevent (n + 1) call]
      simp only [Delivered.receive, List.map_cons, List.append_assoc, List.singleton_append]

theorem foldl_receive_closing {Value : Type} (chat : AcceptedChat Value) (delivered : Delivered)
    (promptTokens : Nat) (finalized : FinalizedOutput) (finishReason : FinishReason)
    (husage : delivered.usage = none) :
    (closingEvents chat promptTokens finalized finishReason).foldl Delivered.receive delivered =
      { delivered with
        finishReason := some finishReason
        usage := if chat.includeUsage then
          some (usageJson promptTokens finalized.generatedTokenCount) else none } := by
  unfold closingEvents
  cases chat.includeUsage with
  | true => rfl
  | false =>
      simp only [Bool.false_eq_true, if_false, List.append_nil]
      rw [← husage]
      rfl

/-- The events of a message parsed at the end deliver it. -/
theorem foldl_receive_message (delivered : Delivered) (parsed : ParsedAssistant)
    (hreasoning : delivered.reasoning = none) :
    (messageEvents parsed).foldl Delivered.receive delivered =
      { delivered with
        reasoning := parsed.reasoningContent
        content := delivered.content ++ parsed.content.getD []
        functions := delivered.functions ++ parsed.toolCalls.map OutputToolCall.function } := by
  unfold messageEvents
  rw [List.foldl_append, foldl_receive_toolCall _ _ _ fun n call => ⟨n, rfl⟩, List.foldl_append]
  cases delivered with
  | mk content reasoning functions finishReason usage error =>
      dsimp only at hreasoning
      subst hreasoning
      cases parsed.reasoningContent <;> cases parsed.content <;>
        simp only [Option.toList_none, Option.toList_some, List.map_nil, List.map_cons,
          List.foldl_nil, List.foldl_cons, Delivered.receive, Option.getD_none, Option.getD_some,
          List.nil_append, List.append_nil]

/-- A stream that parses at its end sends nothing while the tokens arrive. -/
theorem streamLoop_parsed_deltas (codec : Codec) (generated : List UInt32) (stops : List Str)
    (ignoreEos : Bool) : (streamLoop codec generated stops ignoreEos false).deltas = [] := by
  induction generated using List.reverseRecOn with
  | nil => rfl
  | append_singleton generated token ih =>
      unfold streamLoop at ih ⊢
      rw [List.foldl_append, List.foldl_cons, List.foldl_nil]
      unfold StreamLoop.observe
      simp only [Bool.false_and, Bool.false_eq_true, if_false]
      split_ifs <;> exact ih

/-! ## The parser -/

section Parser

variable {Value : Type} (serde : Serde Value)

/-- The calls read, without their identifiers, do not depend on the request. -/
theorem parseToolCalls_functions (requestId requestId' rest : Str)
    (calls calls' : List OutputToolCall)
    (hcalls : calls.map OutputToolCall.function = calls'.map OutputToolCall.function) :
    (parseToolCalls serde requestId rest calls).map (List.map OutputToolCall.function) =
      (parseToolCalls serde requestId' rest calls').map (List.map OutputToolCall.function) := by
  induction hn : rest.length using Nat.strongRecOn generalizing rest calls calls' with
  -- The two parsers read the same text and differ only in the identifiers they make.
  | ind n ih =>
      subst hn
      unfold parseToolCalls
      split
      · simp only [Option.map_some, hcalls]
      · rename_i start hstart
        dsimp only
        split
        · rfl
        · rename_i stop hstop
          unfold parseToolCall
          cases parseFunction serde (takeBytes stop
              (dropBytes (start + byteLen toolCallOpen) rest)) with
          | none => rfl
          | some function =>
              dsimp only [Option.map_some]
              split_ifs with hmalformed
              · rfl
              · refine ih _ ?_ _ _ _ ?_ rfl
                · exact Nat.lt_of_le_of_lt (length_dropBytes_le _ _)
                    (length_dropBytes_find hstart (by decide))
                · simp only [List.map_append, hcalls, List.map_cons, List.map_nil]

/-- Calls read before are kept, and a mark that is found adds one. -/
theorem parseToolCalls_length (requestId rest : Str) (calls result : List OutputToolCall)
    (h : parseToolCalls serde requestId rest calls = some result) :
    calls.length + (if (find toolCallOpen rest).isSome then 1 else 0) ≤ result.length := by
  induction hn : rest.length using Nat.strongRecOn generalizing rest calls with
  | ind n ih =>
      subst hn
      unfold parseToolCalls at h
      split at h
      · rename_i hstart
        rw [← Option.some.inj h, hstart]
        exact Nat.le_refl _
      · rename_i start hstart
        dsimp only at h
        split at h
        · exact absurd h.symm (Option.some_ne_none result)
        · split at h
          · exact absurd h.symm (Option.some_ne_none result)
          · split_ifs at h with hmalformed
            have hrest := ih _ (Nat.lt_of_le_of_lt (length_dropBytes_le _ _)
              (length_dropBytes_find hstart (by decide))) _ _ h rfl
            rw [List.length_append, List.length_singleton] at hrest
            rw [hstart, Option.isSome_some, if_pos rfl]
            omega

/-- A text contains tool calls that parse. -/
def parsesToolCalls (text : Str) : Bool :=
  match find toolCallOpen text with
  | none => false
  | some firstTool => (parseToolCalls serde [] (dropBytes firstTool text) []).isSome

theorem find_dropBytes (text pattern : Str) (n : Nat) (h : find pattern text = some n) :
    (find pattern (dropBytes n text)).isSome = true := by
  rcases find_spec h with ⟨u, ⟨v, rfl⟩, rfl, -⟩
  rw [dropBytes_append, Option.isSome_iff_ne_none]
  -- The occurrence found is now at the start.
  intro hnone
  exact find_eq_none_iff.mp hnone [] ⟨v, rfl⟩

/-- The message in a text, for two requests: the same but for the identifiers. -/
theorem parseAssistantOutput_functions (raw : Str) (thinkingEnabled : Bool)
    (requestId requestId' : Str) :
    let parsed := parseAssistantOutput serde raw thinkingEnabled requestId
    let parsed' := parseAssistantOutput serde raw thinkingEnabled requestId'
    parsed.reasoningContent = parsed'.reasoningContent ∧ parsed.content = parsed'.content ∧
      parsed.toolCalls.map OutputToolCall.function =
        parsed'.toolCalls.map OutputToolCall.function := by
  unfold parseAssistantOutput
  dsimp only
  cases find toolCallOpen (splitReasoning raw thinkingEnabled).2 with
  | none => exact ⟨rfl, rfl, rfl⟩
  | some firstTool =>
      -- The identifiers do not decide whether the calls can be read.
      have hcalls := parseToolCalls_functions serde requestId requestId'
        (dropBytes firstTool (splitReasoning raw thinkingEnabled).2) [] [] rfl
      dsimp only
      cases h : parseToolCalls serde requestId
          (dropBytes firstTool (splitReasoning raw thinkingEnabled).2) [] with
      | none =>
          rw [h, Option.map_none] at hcalls
          rw [Option.map_eq_none_iff.mp hcalls.symm]
          exact ⟨rfl, rfl, rfl⟩
      | some calls =>
          rw [h, Option.map_some] at hcalls
          rcases Option.map_eq_some_iff.mp hcalls.symm with ⟨calls', hcalls', hmap⟩
          rw [hcalls']
          exact ⟨rfl, rfl, hmap.symm⟩

/-- The message in a text without reasoning: the trimmed text, unless it contains tool calls
    that parse. -/
theorem parseAssistantOutput_visible (text requestId : Str) :
    (parseAssistantOutput serde text false requestId).reasoningContent = none ∧
      ((parseAssistantOutput serde text false requestId).toolCalls = [] ↔
        parsesToolCalls serde text = false) ∧
      (parsesToolCalls serde text = false →
        (parseAssistantOutput serde text false requestId).content = nonempty (trim text)) := by
  unfold parseAssistantOutput parsesToolCalls splitReasoning
  simp only [Bool.not_false, if_true]
  cases hfirst : find toolCallOpen text with
  | none => exact ⟨rfl, iff_of_true rfl rfl, fun _ => rfl⟩
  | some firstTool =>
      have hcalls :=
        parseToolCalls_functions serde requestId [] (dropBytes firstTool text) [] [] rfl
      dsimp only
      cases h : parseToolCalls serde requestId (dropBytes firstTool text) [] with
      | none =>
          rw [h, Option.map_none] at hcalls
          rw [Option.map_eq_none_iff.mp hcalls.symm]
          exact ⟨rfl, iff_of_true rfl rfl, fun _ => rfl⟩
      | some calls =>
          -- The first mark is at the start of what is parsed, so one call at least is read.
          have hlen := parseToolCalls_length serde requestId _ [] calls h
          rw [find_dropBytes text toolCallOpen firstTool hfirst, if_pos rfl] at hlen
          rw [h, Option.map_some] at hcalls
          rcases Option.map_eq_some_iff.mp hcalls.symm with ⟨calls', hcalls', -⟩
          rw [hcalls', Option.isSome_some]
          refine ⟨rfl, ⟨fun hnil => ?_, fun htrue => Bool.noConfusion htrue⟩,
            fun htrue => Bool.noConfusion htrue⟩
          dsimp only at hnil
          rw [hnil] at hlen
          exact absurd hlen (by decide)

end Parser

/-! ## The tool choice -/

section Tools

variable {Value : Type} (serde : Serde Value)

theorem toolNames_length (index : Nat) (tools : List Value) (names : List Str)
    (h : toolNames serde index tools = .ok names) : names.length = tools.length := by
  induction tools generalizing index names with
  | nil =>
      rw [← Except.ok.inj h]
      rfl
  | cons tool tools ih =>
      unfold toolNames at h
      split_ifs at h with hkind
      dsimp only at h
      split at h
      · exact absurd h (by simp only [reduceCtorEq, not_false_eq_true])
      · cases hrest : toolNames serde (index + 1) tools with
        | error error =>
            rw [hrest] at h
            exact absurd h (by simp only [Except.map, reduceCtorEq, not_false_eq_true])
        | ok rest =>
            rw [hrest] at h
            rw [← Except.ok.inj h, List.length_cons, List.length_cons, ih (index + 1) rest hrest]

/-- The mode of a tool choice that is a string. -/
def choiceMode (toolChoice : Option Value) : Option Str := toolChoice.bind serde.asStr

/-- The function a tool choice names. -/
def namedChoice (toolChoice : Option Value) : Option Str :=
  toolChoice.bind fun choice => if (serde.asStr choice).isSome then none else chosenName serde choice

/-- What a selection is, for each kind of tool choice. -/
theorem selectTools_cases (tools : List Value) (toolChoice : Option Value)
    (selected : SelectedTools Value) (h : selectTools serde tools toolChoice = .ok selected) :
    (choiceMode serde toolChoice = some "none".toList ∧ namedChoice serde toolChoice = none ∧
        selected = { tools := [], choice := .none, requiredName := none }) ∨
      (choiceMode serde toolChoice ≠ some "none".toList ∧
        choiceMode serde toolChoice ≠ some "required".toList ∧
        namedChoice serde toolChoice = none ∧
        selected = { tools := tools, choice := .auto, requiredName := none }) ∨
      (choiceMode serde toolChoice = some "required".toList ∧
        namedChoice serde toolChoice = none ∧ tools ≠ [] ∧
        selected = { tools := tools, choice := .required, requiredName := none }) ∨
      ∃ name tool, choiceMode serde toolChoice = none ∧
        namedChoice serde toolChoice = some name ∧
        selected = { tools := [tool], choice := .specific, requiredName := some name } := by
  unfold selectTools at h
  cases hnames : toolNames serde 0 tools with
  | error error =>
      rw [hnames] at h
      exact absurd h (by simp only [bind, Except.bind, reduceCtorEq, not_false_eq_true])
  | ok names =>
      rw [hnames] at h
      simp only [bind, Except.bind, pure, Except.pure, throw, throwThe, MonadExceptOf.throw] at h
      cases toolChoice with
      | none =>
          refine .inr (.inl ⟨?_, ?_, rfl, (Except.ok.inj h).symm⟩) <;>
            simp [choiceMode]
      | some choice =>
          dsimp only at h
          cases hmode : serde.asStr choice with
          | some mode =>
              have hchoice : choiceMode serde (some choice) = some mode := hmode
              have hnamed : namedChoice serde (some choice) = none := by
                simp [namedChoice, hmode]
              rw [hmode] at h
              dsimp only at h
              rw [hchoice, hnamed]
              split_ifs at h with hnone hauto hrequired hempty
              · exact .inl ⟨by rw [hnone], rfl, (Except.ok.inj h).symm⟩
              · refine .inr (.inl ⟨?_, ?_, rfl, (Except.ok.inj h).symm⟩) <;> simp [hauto]
              · refine .inr (.inr (.inl ⟨by rw [hrequired], rfl, ?_, (Except.ok.inj h).symm⟩))
                exact fun hnil => hempty (by rw [hnil]; rfl)
          | none =>
              have hchoice : choiceMode serde (some choice) = none := hmode
              have hnamed : namedChoice serde (some choice) = chosenName serde choice := by
                simp [namedChoice, hmode]
              rw [hmode] at h
              dsimp only at h
              rw [hchoice, hnamed]
              cases hname : chosenName serde choice with
              | none =>
                  rw [hname] at h
                  exact absurd h (by simp only [reduceCtorEq, not_false_eq_true])
              | some name =>
                  rw [hname] at h
                  dsimp only at h
                  cases hindex : names.findIdx? (· == name) with
                  | none =>
                      rw [hindex] at h
                      exact absurd h (by simp only [reduceCtorEq, not_false_eq_true])
                  | some index =>
                      -- There are as many names as tools, so the index found is that of a tool.
                      have hlt := (List.findIdx?_eq_some_iff_findIdx_eq.mp hindex).1
                      rw [toolNames_length serde 0 tools names hnames] at hlt
                      rw [hindex] at h
                      dsimp only at h
                      rw [List.getElem?_eq_getElem hlt] at h
                      exact .inr (.inr (.inr ⟨name, tools[index], rfl, rfl,
                        (Except.ok.inj h).symm⟩))

/-- A selection without tools requires nothing. -/
theorem selectTools_of_isEmpty (tools : List Value) (toolChoice : Option Value)
    (selected : SelectedTools Value) (h : selectTools serde tools toolChoice = .ok selected)
    (hempty : selected.tools.isEmpty = true) :
    selected.choice ≠ .required ∧ selected.requiredName = none := by
  rcases selectTools_cases serde tools toolChoice selected h with
    ⟨-, -, rfl⟩ | ⟨-, -, -, rfl⟩ | ⟨-, -, hne, rfl⟩ | ⟨name, tool, -, -, rfl⟩
  · exact ⟨ToolChoiceMode.noConfusion, rfl⟩
  · exact ⟨ToolChoiceMode.noConfusion, rfl⟩
  · exact absurd (List.isEmpty_iff.mp hempty) hne
  -- The tool that is named is there, so it is the one selected.
  · exact absurd hempty Bool.false_ne_true

/-- What an accepted request keeps of its checks and of its fields. -/
theorem accept_spec (request : ChatRequest Value) (chat : AcceptedChat Value)
    (h : request.accept serde = .ok chat) :
    selectTools serde request.tools request.toolChoice = .ok chat.selectedTools ∧
      (∀ stop ∈ chat.stops, stop ≠ []) ∧
      chat.thinkingEnabled = request.enableThinking ∧
      chat.allowParallelTools = request.parallelToolCalls.getD true := by
  -- A request that is accepted has come to the end of the checks, where the fields are copied.
  unfold ChatRequest.accept at h
  cases hselect : selectTools serde request.tools request.toolChoice with
  | error error =>
      rw [hselect] at h
      exact absurd h (by simp only [reduceCtorEq, not_false_eq_true])
  | ok selected =>
      rw [hselect] at h
      dsimp only at h
      cases hstop : request.stop with
      | none =>
          rw [hstop] at h
          rw [← Except.ok.inj h]
          exact ⟨rfl, fun stop hmem => absurd hmem List.not_mem_nil, rfl, rfl⟩
      | some stop =>
          rw [hstop] at h
          dsimp only at h
          unfold StopInput.intoVec at h
          dsimp only at h
          split_ifs at h with hmany hnil
          · exact absurd h (by simp only [Except.map, reduceCtorEq, not_false_eq_true])
          · exact absurd h (by simp only [Except.map, reduceCtorEq, not_false_eq_true])
          · rw [← Except.ok.inj h]
            refine ⟨rfl, fun value hmem hvalue => hnil ?_, rfl, rfl⟩
            exact List.any_eq_true.mpr ⟨value, hmem, beq_iff_eq.mpr hvalue⟩

/-- Without tools, a message without calls passes the check. -/
theorem enforceToolChoice_of_direct (selected : SelectedTools Value) (parsed : ParsedAssistant)
    (allowParallelTools : Bool) (hchoice : selected.choice ≠ .required)
    (hname : selected.requiredName = none) (hcalls : parsed.toolCalls = []) :
    enforceToolChoice selected parsed allowParallelTools = .ok () := by
  unfold enforceToolChoice
  rw [hcalls, hname]
  simp only [List.length_nil, gt_iff_lt, Nat.not_lt_zero, decide_false, Bool.and_false,
    Bool.false_eq_true, if_false, hchoice, false_and]

/-- The check reads the functions called only. -/
theorem enforceToolChoice_functions (selected : SelectedTools Value)
    (parsed parsed' : ParsedAssistant) (allowParallelTools : Bool)
    (h : parsed.toolCalls.map OutputToolCall.function =
      parsed'.toolCalls.map OutputToolCall.function) :
    enforceToolChoice selected parsed allowParallelTools =
      enforceToolChoice selected parsed' allowParallelTools := by
  have hlen : parsed.toolCalls.length = parsed'.toolCalls.length := by
    have hmap := congrArg List.length h
    rwa [List.length_map, List.length_map] at hmap
  have hnil : parsed.toolCalls = [] ↔ parsed'.toolCalls = [] := by
    rw [← List.length_eq_zero_iff, ← List.length_eq_zero_iff, hlen]
  -- The third check compares names, which the functions carry.
  have hany : ∀ name, parsed.toolCalls.any (fun call => call.function.name ≠ name) =
      parsed'.toolCalls.any (fun call => call.function.name ≠ name) := by
    intro name
    have hmap := congrArg (fun functions : List OutputFunctionCall =>
      functions.any fun function => function.name ≠ name) h
    rw [List.any_map, List.any_map] at hmap
    exact hmap
  unfold enforceToolChoice
  simp only [hlen, hnil, hany]

end Tools

/-! ## Responses -/

section Responses

variable {Value : Type} (serde : Serde Value) (codec : Codec) (chat : AcceptedChat Value)

/-- The message of a finished output, for two requests: the same error, or the same message
    but for the identifiers. -/
theorem chatMessage_functions (requestId requestId' : Str) (finalized : FinalizedOutput) :
    (∃ error, chatMessage serde chat requestId finalized = .error error ∧
      chatMessage serde chat requestId' finalized = .error error) ∨
    ∃ parsed parsed' finishReason,
      chatMessage serde chat requestId finalized = .ok (parsed, finishReason) ∧
      chatMessage serde chat requestId' finalized = .ok (parsed', finishReason) ∧
      parsed.reasoningContent = parsed'.reasoningContent ∧ parsed.content = parsed'.content ∧
      parsed.toolCalls.map OutputToolCall.function =
        parsed'.toolCalls.map OutputToolCall.function := by
  have hsame := parseAssistantOutput_functions serde finalized.text chat.thinkingEnabled
    requestId requestId'
  unfold chatMessage
  dsimp only at hsame ⊢
  -- What is known of the two messages is that they agree, so they are two variables from here
  -- on.
  generalize parseAssistantOutput serde finalized.text chat.thinkingEnabled requestId = parsed
    at hsame ⊢
  generalize parseAssistantOutput serde finalized.text chat.thinkingEnabled requestId' = parsed'
    at hsame ⊢
  rcases hsame with ⟨hreasoning, hcontent, hfunctions⟩
  rw [enforceToolChoice_functions chat.selectedTools parsed parsed' chat.allowParallelTools
    hfunctions]
  have hnil : parsed.toolCalls = [] ↔ parsed'.toolCalls = [] := by
    rw [← List.map_eq_nil_iff (f := OutputToolCall.function), hfunctions, List.map_eq_nil_iff]
  cases enforceToolChoice chat.selectedTools parsed' chat.allowParallelTools with
  | error error => exact .inl ⟨error, rfl, rfl⟩
  | ok _ =>
      refine .inr ⟨parsed, parsed', _, rfl, ?_, hreasoning, hcontent, hfunctions⟩
      simp only [Except.map, hnil]

/-- A stream that parses at its end delivers the plain response. -/
theorem chatStream_parsed_same (plainId streamId : Str) (promptTokens maxOutputTokens : Nat)
    (generated : List UInt32) (hparsed : directContentStream chat = false) :
    SameMessage chat.includeUsage
      (chatCompletion serde codec chat plainId promptTokens maxOutputTokens generated)
      (assemble (chatStream serde codec chat streamId promptTokens maxOutputTokens generated)) := by
  unfold chatCompletion chatStream assemble
  simp only [hparsed, streamLoop_parsed_deltas, List.map_nil, List.append_nil, Bool.false_eq_true,
    if_false]
  cases finalizeTokens codec generated chat.stops chat.ignoreEos maxOutputTokens with
  | error error => rfl
  | ok finalized =>
      dsimp only
      rcases chatMessage_functions serde chat plainId streamId finalized with
        ⟨error, hplain, hstream⟩ | ⟨parsed, parsed', finishReason, hplain, hstream, hreasoning,
          hcontent, hfunctions⟩
      · rw [hplain, hstream]
        rfl
      -- Both have parsed, and the events of the message put together are the message.
      · rw [hplain, hstream]
        dsimp only [Except.map, SameMessage]
        rw [List.foldl_append, List.foldl_append, foldl_receive_message _ _ rfl,
          foldl_receive_closing _ _ _ _ _ rfl]
        simp only [List.foldl_cons, List.foldl_nil, Delivered.receive, Delivered.empty,
          List.nil_append, hreasoning, hcontent, hfunctions]

/-- What a direct stream delivers: its deltas put together, and nothing parsed. -/
theorem assemble_direct (streamId : Str) (promptTokens maxOutputTokens : Nat)
    (generated : List UInt32) (finalized : FinalizedOutput)
    (hdirect : directContentStream chat = true)
    (hfinalized : finalizeTokens codec generated chat.stops chat.ignoreEos maxOutputTokens =
      .ok finalized) :
    assemble (chatStream serde codec chat streamId promptTokens maxOutputTokens generated) =
      { content :=
          (directDeltas codec generated chat.stops chat.ignoreEos finalized.text).flatten
        reasoning := none
        functions := []
        finishReason := some finalized.finishReason
        usage := if chat.includeUsage then
          some (usageJson promptTokens finalized.generatedTokenCount) else none
        error := none } := by
  unfold chatStream assemble directDeltas
  simp only [hdirect, hfinalized, if_true, List.foldl_append, foldl_receive_content,
    List.flatten_append]
  rw [foldl_receive_closing _ _ _ _ _ rfl]
  simp only [List.foldl_cons, List.foldl_nil, Delivered.receive, Delivered.empty, List.nil_append]

/-- The plain response to a request whose stream is direct: without tool calls that parse, the
    trimmed text; with them, a message with calls or an error. -/
theorem chatMessage_direct (requestId : Str) (finalized : FinalizedOutput)
    (hthinking : chat.thinkingEnabled = false) (hchoice : chat.selectedTools.choice ≠ .required)
    (hname : chat.selectedTools.requiredName = none) :
    if parsesToolCalls serde finalized.text then
      ∀ parsed finishReason,
        chatMessage serde chat requestId finalized = .ok (parsed, finishReason) →
        parsed.toolCalls ≠ []
    else
      ∃ parsed, chatMessage serde chat requestId finalized = .ok (parsed, finalized.finishReason) ∧
        parsed.reasoningContent = none ∧ parsed.toolCalls = [] ∧
        parsed.content.getD [] = trim finalized.text := by
  rcases parseAssistantOutput_visible serde finalized.text requestId with
    ⟨hreasoning, hcalls, hcontent⟩
  unfold chatMessage
  rw [hthinking]
  dsimp only
  cases hparses : parsesToolCalls serde finalized.text with
  -- If the check lets the message through, it is the one with the calls.
  | true =>
      rw [if_pos rfl]
      intro parsed finishReason hok hnil
      cases hcheck : enforceToolChoice chat.selectedTools
          (parseAssistantOutput serde finalized.text false requestId)
          chat.allowParallelTools with
      | error error =>
          rw [hcheck] at hok
          exact absurd hok (by simp only [Except.map, reduceCtorEq, not_false_eq_true])
      | ok _ =>
          rw [hcheck] at hok
          have hparsed := congrArg Prod.fst (Except.ok.inj hok)
          dsimp only at hparsed
          rw [← hparsed, hcalls, hparses] at hnil
          exact Bool.noConfusion hnil
  | false =>
      rw [if_neg Bool.false_ne_true]
      -- Without calls, and with no choice that asks for one, the check passes.
      have hnil := hcalls.mpr hparses
      rw [enforceToolChoice_of_direct chat.selectedTools _ chat.allowParallelTools hchoice hname
        hnil]
      refine ⟨_, ?_, hreasoning, hnil, ?_⟩
      · simp only [Except.map, hnil, if_true]
      · rw [hcontent hparses]
        unfold nonempty
        by_cases hempty : trim finalized.text = []
        · rw [if_pos hempty, hempty, Option.getD_none]
        · rw [if_neg hempty, Option.getD_some]

end Responses

/-- When a stream delivers the plain response to the same request with at most one stop
    string: it parses at its end, or there is no finished text, or the finished text has no
    white space at its ends and no tool calls that parse. -/
theorem chatStream_same_iff {Value : Type} (serde : Serde Value) (codec : Codec)
    (hmono : codec.PrefixMonotone) (request : ChatRequest Value) (chat : AcceptedChat Value)
    (haccept : request.accept serde = .ok chat) (hsingle : chat.stops.length ≤ 1)
    (plainId streamId : Str) (promptTokens maxOutputTokens : Nat) (generated : List UInt32) :
    SameMessage chat.includeUsage
        (chatCompletion serde codec chat plainId promptTokens maxOutputTokens generated)
        (assemble
          (chatStream serde codec chat streamId promptTokens maxOutputTokens generated)) ↔
      (directContentStream chat = true → ∀ finalized,
        finalizeTokens codec generated chat.stops chat.ignoreEos maxOutputTokens =
          .ok finalized →
        trim finalized.text = finalized.text ∧ parsesToolCalls serde finalized.text = false) := by
  rcases accept_spec serde request chat haccept with ⟨hselect, hstops, -⟩
  cases hdirect : directContentStream chat with
  | false =>
      exact iff_of_true (chatStream_parsed_same serde codec chat plainId streamId promptTokens
        maxOutputTokens generated hdirect) fun h => Bool.noConfusion h
  | true =>
      have hmodes := hdirect
      rw [directContentStream, Bool.and_eq_true, Bool.not_eq_true'] at hmodes
      rcases selectTools_of_isEmpty serde _ _ _ hselect hmodes.1 with ⟨hchoice, hname⟩
      cases hfinalized : finalizeTokens codec generated chat.stops chat.ignoreEos
          maxOutputTokens with
      -- Both give the error of the tokenizer, the stream after what it has sent.
      | error error =>
          refine iff_of_true ?_ fun _ finalized h =>
            absurd h (by simp only [reduceCtorEq, not_false_eq_true])
          unfold chatCompletion chatStream assemble
          simp only [hfinalized, List.foldl_append, foldl_receive_content]
          rfl
      | ok finalized =>
          -- With one stop string the deltas are the finished text.
          rcases finalizeTokens_text codec generated chat.stops chat.ignoreEos maxOutputTokens
            finalized hfinalized with ⟨full, hfull, htext⟩
          have hdeltas : (directDeltas codec generated chat.stops chat.ignoreEos
              finalized.text).flatten = finalized.text := by
            rw [htext]
            exact (directDeltas_eq_iff codec generated chat.stops chat.ignoreEos full hmono
              hstops hfull).mpr
              (cutsAgree_of_single codec generated chat.stops chat.ignoreEos hmono hsingle)
          rw [assemble_direct serde codec chat streamId promptTokens maxOutputTokens generated
            finalized hdirect hfinalized, hdeltas]
          have hmessage := chatMessage_direct serde chat plainId finalized hmodes.2 hchoice hname
          unfold chatCompletion
          rw [hfinalized]
          dsimp only
          cases hparses : parsesToolCalls serde finalized.text with
          | true =>
              -- The plain response has calls or an error, and the stream has neither.
              rw [hparses, if_pos rfl] at hmessage
              refine iff_of_false ?_ fun h => Bool.noConfusion
                (hparses.symm.trans (h rfl finalized rfl).2)
              intro hsame
              cases hplain : chatMessage serde chat plainId finalized with
              | error error =>
                  rw [hplain] at hsame
                  exact absurd hsame (Option.some_ne_none error).symm
              | ok message =>
                  rw [hplain] at hsame
                  have hfunctions := congrArg Delivered.functions hsame
                  exact hmessage message.1 message.2 hplain
                    (List.map_eq_nil_iff.mp hfunctions.symm)
          | false =>
              rw [hparses, if_neg Bool.false_ne_true] at hmessage
              -- The messages differ at most by what trimming takes away.
              rcases hmessage with ⟨parsed, hplain, hreasoning, hcalls, hcontent⟩
              rw [hplain]
              dsimp only [Except.map, SameMessage]
              rw [hreasoning, hcalls, hcontent]
              constructor
              · intro hsame _ finalized' hfinalized'
                rw [← Except.ok.inj hfinalized']
                exact ⟨(congrArg Delivered.content hsame).symm, hparses⟩
              · intro htrim
                rw [(htrim rfl finalized rfl).1]
                rfl

/-- A JSON library that no text is read with. -/
def noJson : Serde Unit where
  fromStr _ := none
  toString _ := none
  get _ _ := none
  asStr _ := none
  isObject _ := false
  string _ := ()
  emptyObject := ()
  insert _ _ _ := ()

/-- A tokenizer in which 1 is "OK", 2 is a line break and 0 ends the sequence. -/
def lineCodec : Codec where
  decode tokens := some (tokens.flatMap fun token =>
    if token = 1 then ['O', 'K'] else if token = 2 then ['\n'] else [])
  decodeError _ := []
  isEos token := token == 0

theorem lineCodec_prefixMonotone : lineCodec.PrefixMonotone := by
  rintro a b x y ⟨rest, rfl⟩ hx hy
  simp only [lineCodec, Option.some.injEq, List.flatMap_append] at hx hy
  rw [← hx, ← hy]
  exact List.prefix_append _ _

/-- A request without tools and without thinking. -/
def plainRequest : ChatRequest Unit :=
  { tools := [], toolChoice := none, enableThinking := false, parallelToolCalls := none
    stop := none, ignoreEos := false, includeUsage := true }

/-- The same request, accepted. -/
def plainChat : AcceptedChat Unit :=
  { selectedTools := { tools := [], choice := .auto, requiredName := none }
    thinkingEnabled := false, allowParallelTools := true, stops := [], ignoreEos := false
    includeUsage := true }

/-- The text "OK" is streamed as it is answered. -/
theorem chatStream_ok_same :
    plainRequest.accept noJson = .ok plainChat ∧
      SameMessage true (chatCompletion noJson lineCodec plainChat ['a'] 3 8 [1, 0])
        (assemble (chatStream noJson lineCodec plainChat ['b'] 3 8 [1, 0])) := by
  have hfinalized : finalizeTokens lineCodec [1, 0] [] false 8 =
      .ok { text := ['O', 'K'], generatedTokenIds := [1, 0], generatedTokenCount := 2
            finishReason := .stop, stopReason := none } := by decide
  refine ⟨rfl, (chatStream_same_iff noJson lineCodec lineCodec_prefixMonotone plainRequest
    plainChat rfl (by decide) ['a'] ['b'] 3 8 [1, 0]).mpr fun _ finalized h => ?_⟩
  rw [← Except.ok.inj (hfinalized.symm.trans h)]
  exact ⟨by decide, by decide⟩

/-- The text "OK" with a line break after it is answered without the line break and streamed
    with it. -/
theorem chatStream_break_differs :
    lineCodec.PrefixMonotone ∧ plainRequest.accept noJson = .ok plainChat ∧
      ¬SameMessage true (chatCompletion noJson lineCodec plainChat ['a'] 3 8 [1, 2, 0])
        (assemble (chatStream noJson lineCodec plainChat ['b'] 3 8 [1, 2, 0])) := by
  refine ⟨lineCodec_prefixMonotone, rfl, fun hsame => ?_⟩
  have hcontent := congrArg Delivered.content hsame
  exact absurd hcontent (by decide)

end Chat

end QrtEngine
