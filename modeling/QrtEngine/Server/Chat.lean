import QrtEngine.Server.Text

/-!
# Chat Responses

What a chat request makes of the generated tokens, as one response and as a stream of
events. The plain response parses the finished text: reasoning is split off when thinking is
on, tool calls are read from their markup, and what is left is trimmed. The stream does the
same at its end when tools are offered or thinking is on; otherwise it sends the text as it
comes.

JSON is a parameter: the operations of the JSON library that the parser and the tool
selection use. Of a request only the fields both responses read are kept; the checks of the
others come before and reject it for both.

## Main definitions

* `Serde`: The JSON library.
* `selectTools`: The tools a request offers and the choice it makes.
* `parseAssistantOutput`: The message in a finished text.
* `enforceToolChoice`: The check of a message against the choice.
* `ChatRequest.accept`: The checks of a request.
* `chatCompletion`: The plain response.
* `chatStream`: The events of the stream.
-/

namespace QrtEngine

namespace Chat

open ByteText Text

/-! ## Strings -/

/-- The `White_Space` property of Unicode, as `char::is_whitespace` has it. -/
def isWhitespace (c : Char) : Bool :=
  let n := c.toNat
  (0x09 ≤ n && n ≤ 0x0D) || n == 0x20 || n == 0x85 || n == 0xA0 || n == 0x1680 ||
    (0x2000 ≤ n && n ≤ 0x200A) || n == 0x2028 || n == 0x2029 || n == 0x202F || n == 0x205F ||
    n == 0x3000

/-- The text without white space at its start. -/
def trimStart (s : Str) : Str := s.dropWhile isWhitespace

/-- The text without white space at its end. -/
def trimEnd (s : Str) : Str := (s.reverse.dropWhile isWhitespace).reverse

/-- The text without white space at its ends. -/
def trim (s : Str) : Str := trimEnd (trimStart s)

/-- The text after a prefix, or none. -/
def stripPrefix (pattern s : Str) : Option Str :=
  if pattern.isPrefixOf s then some (s.drop pattern.length) else none

/-- The text before a suffix, or none. -/
def stripSuffix (pattern s : Str) : Option Str :=
  if pattern.isSuffixOf s then some (s.take (s.length - pattern.length)) else none

/-- The text, or nothing if it is empty. -/
def nonempty (value : Str) : Option Str := if value = [] then none else some value

/-! ## Tools -/

/-- The operations of the JSON library in use. An object is built by insertions. -/
structure Serde (Value : Type) where
  fromStr : Str → Option Value
  toString : Value → Option Str
  get : Value → Str → Option Value
  asStr : Value → Option Str
  isObject : Value → Bool
  string : Str → Value
  emptyObject : Value
  insert : Value → Str → Value → Value

/-- What can be wrong with the tools of a request. -/
inductive ChatTemplateError where
  | invalidTool (index : Nat)
  | invalidToolName (index : Nat)
  | toolChoiceWithoutTools
  | invalidToolChoice
  | unknownTool (name : Str)
deriving DecidableEq, Repr

/-- The text of an error. -/
def ChatTemplateError.message : ChatTemplateError → Str
  | invalidTool index =>
      "tool at index ".toList ++ (toString index).toList ++
        " must be an OpenAI function tool".toList
  | invalidToolName index =>
      "function tool at index ".toList ++ (toString index).toList ++ " has no valid name".toList
  | toolChoiceWithoutTools => "tool_choice requires a tools array".toList
  | invalidToolChoice => "unsupported tool_choice value".toList
  | unknownTool name => "tool_choice names an unknown function: ".toList ++ name

/-- The mode of a tool choice. -/
inductive ToolChoiceMode where
  | none
  | auto
  | required
  | specific
deriving DecidableEq, Repr

/-- The tools offered to the model, and the one it has to call, if there is one. -/
structure SelectedTools (Value : Type) where
  tools : List Value
  choice : ToolChoiceMode
  requiredName : Option Str

section Tools

variable {Value : Type} (serde : Serde Value)

/-- The names of the tools, the first of which stands at the given index. -/
def toolNames (index : Nat) : List Value → Except ChatTemplateError (List Str)
  | [] => .ok []
  | tool :: tools =>
      if (serde.get tool "type".toList).bind serde.asStr ≠ some "function".toList then
        .error (.invalidTool index)
      -- The errors name the index in the request, not in what is left of it.
      else
        let name := (((serde.get tool "function".toList).bind
          fun function => serde.get function "name".toList).bind serde.asStr).filter
            fun name => trim name ≠ []
        match name with
        | none => .error (.invalidToolName index)
        | some name => (toolNames (index + 1) tools).map (name :: ·)

/-- The name in a tool choice that is an object. -/
def chosenName (choice : Value) : Option Str :=
  (((((serde.get choice "type".toList).bind serde.asStr).filter
    fun kind => kind = "function".toList).bind
      fun _ => serde.get choice "function".toList).bind
        fun function => serde.get function "name".toList).bind serde.asStr

/-- The tools a request offers, from its tools and its tool choice. -/
def selectTools (tools : List Value) (toolChoice : Option Value) :
    Except ChatTemplateError (SelectedTools Value) := do
  let names ← toolNames serde 0 tools
  match toolChoice with
  | none => return { tools := tools, choice := .auto, requiredName := none }
  | some choice =>
      match serde.asStr choice with
      | some mode =>
          if mode = "none".toList then
            return { tools := [], choice := .none, requiredName := none }
          else if mode = "auto".toList then
            return { tools := tools, choice := .auto, requiredName := none }
          else if mode = "required".toList then
            if tools.isEmpty then throw .toolChoiceWithoutTools
            else return { tools := tools, choice := .required, requiredName := none }
          else throw .invalidToolChoice
      | none =>
          match chosenName serde choice with
          | none => throw .invalidToolChoice
          | some name =>
              match names.findIdx? (· == name) with
              | none => throw (.unknownTool name)
              | some index =>
                  return { tools := tools[index]?.toList, choice := .specific
                           requiredName := some name }

/-! ## Parsing -/

/-- The name and the encoded arguments of a call. -/
structure OutputFunctionCall where
  name : Str
  arguments : Str
deriving DecidableEq, Repr

/-- A tool call in a response. -/
structure OutputToolCall where
  id : Str
  kind : Str
  function : OutputFunctionCall
deriving DecidableEq, Repr

/-- The message in a finished text. -/
structure ParsedAssistant where
  reasoningContent : Option Str
  content : Option Str
  toolCalls : List OutputToolCall
  malformedToolMarkup : Bool
deriving DecidableEq, Repr

/-- The mark before a tool call. -/
def toolCallOpen : Str := "<tool_call>".toList

/-- The mark after a tool call. -/
def toolCallClose : Str := "</tool_call>".toList

/-- The reasoning in a text and what is visible of it. -/
def splitReasoning (raw : Str) (thinkingEnabled : Bool) : Option Str × Str :=
  if !thinkingEnabled then (none, raw)
  else
    match find "</think>".toList raw with
    | some close =>
        let before := takeBytes close raw
        let reasoning := trim ((stripPrefix "<think>".toList before).getD before)
        let visible := (dropBytes (close + byteLen "</think>".toList) raw).dropWhile (· == '\n')
        (nonempty reasoning, visible)
    -- Without the closing mark everything is still reasoning.
    | none => (nonempty (trim raw), [])

/-- A value without the line breaks next to its marks. -/
def stripBreaks (raw : Str) : Str :=
  let stripped := (stripPrefix ['\n'] raw).getD raw
  (stripSuffix ['\n'] stripped).getD stripped

/-- The arguments in the body of a function, read one parameter after the other. -/
def parseParameters (rest : Str) (arguments : Value) : Option Value :=
  match _hstart : find "<parameter=".toList rest with
  | none => some arguments
  | some relativeStart =>
      let body := dropBytes (relativeStart + byteLen "<parameter=".toList) rest
      match find ['>'] body with
      | none => none
      | some keyEnd =>
          let key := trim (takeBytes keyEnd body)
          if key = [] then none
          else
            let value := dropBytes (keyEnd + 1) body
            match find "</parameter>".toList value with
            | none => none
            | some valueEnd =>
                -- A value that is not JSON is taken as a string.
                let rawValue := stripBreaks (takeBytes valueEnd value)
                let parsed := (serde.fromStr rawValue).getD (serde.string rawValue)
                parseParameters (dropBytes (valueEnd + byteLen "</parameter>".toList) value)
                  (serde.insert arguments key parsed)
termination_by rest.length
decreasing_by
  exact Nat.lt_of_le_of_lt
    ((length_dropBytes_le _ _).trans (length_dropBytes_le _ _))
    (length_dropBytes_find _hstart (by decide))

/-- The function called in the body of a tool call: a JSON object, or a function element
    with parameter elements. -/
def parseFunction (body : Str) : Option OutputFunctionCall :=
  let body := trim body
  if ['{'].isPrefixOf body then do
    let value ← serde.fromStr body
    let name ← (serde.get value "name".toList).bind serde.asStr
    let arguments := (serde.get value "arguments".toList).getD serde.emptyObject
    -- Arguments of any other kind make the call malformed.
    if serde.isObject arguments then
      let encoded ← serde.toString arguments
      return { name := name, arguments := encoded }
    else none
  else do
    let start ← find "<function=".toList body
    let functionStart := start + byteLen "<function=".toList
    let nameEnd ← (find ['>'] (dropBytes functionStart body)).map (· + functionStart)
    let name := trim (takeBytes (nameEnd - functionStart) (dropBytes functionStart body))
    if name = [] then none
    else
      let functionClose ← rfind "</function>".toList body
      if functionClose < nameEnd then none
      else
        let parameterBody :=
          takeBytes (functionClose - (nameEnd + 1)) (dropBytes (nameEnd + 1) body)
        let arguments ← parseParameters serde parameterBody serde.emptyObject
        let encoded ← serde.toString arguments
        return { name := name, arguments := encoded }

/-- The tool call in a body, with an identifier made of the request's and its index. -/
def parseToolCall (body requestId : Str) (index : Nat) : Option OutputToolCall :=
  (parseFunction serde body).map fun function =>
    { id := "call_".toList ++ requestId ++ ['_'] ++ (toString index).toList
      kind := "function".toList
      function := function }

/-- The calls from a place in the text on, after those read before. None if the markup is
    malformed: a mark is missing, a call does not parse, or text follows that is not a call. -/
def parseToolCalls (requestId : Str) (rest : Str) (calls : List OutputToolCall) :
    Option (List OutputToolCall) :=
  match _hstart : find toolCallOpen rest with
  | none => some calls
  | some relativeStart =>
      let body := dropBytes (relativeStart + byteLen toolCallOpen) rest
      match find toolCallClose body with
      | none => none
      | some relativeEnd =>
          -- The index of a call is the number of calls before it.
          match parseToolCall serde (takeBytes relativeEnd body) requestId calls.length with
          | none => none
          | some call =>
              let after := dropBytes (relativeEnd + byteLen toolCallClose) body
              if trim after ≠ [] ∧ ¬toolCallOpen.isPrefixOf (trimStart after) then none
              else parseToolCalls requestId after (calls ++ [call])
termination_by rest.length
decreasing_by
  exact Nat.lt_of_le_of_lt (length_dropBytes_le _ _)
    (length_dropBytes_find _hstart (by decide))

/-- The message in a finished text. Malformed markup is content. -/
def parseAssistantOutput (raw : Str) (thinkingEnabled : Bool) (requestId : Str) :
    ParsedAssistant :=
  let (reasoningContent, visible) := splitReasoning raw thinkingEnabled
  match find toolCallOpen visible with
  | none =>
      { reasoningContent := reasoningContent
        content := nonempty (trim visible)
        toolCalls := []
        malformedToolMarkup := false }
  | some firstTool =>
      match parseToolCalls serde requestId (dropBytes firstTool visible) [] with
      | none =>
          { reasoningContent := reasoningContent
            content := nonempty (trim visible)
            toolCalls := []
            malformedToolMarkup := true }
      | some calls =>
          { reasoningContent := reasoningContent
            content := nonempty (trimEnd (takeBytes firstTool visible))
            toolCalls := calls
            malformedToolMarkup := false }

end Tools

/-! ## Responses -/

/-- An error in a response. -/
structure ApiError where
  status : Nat
  message : Str
  kind : String
  param : Option String
  code : Option String
deriving DecidableEq, Repr

/-- An error of the server. -/
def ApiError.internal (message : Str) : ApiError :=
  { status := 500, message := message, kind := "server_error", param := none
    code := some "engine_error" }

/-- An error in the request. -/
def ApiError.invalid (message : Str) (param code : String) : ApiError :=
  { status := 400, message := message, kind := "invalid_request_error", param := some param
    code := some code }

/-- The stop strings of a request: one, or a list. -/
inductive StopInput where
  | one (value : Str)
  | many (values : List Str)

/-- The number of stop strings a request may have. -/
def maxStopSequences : Nat := 4

/-- The stop strings, none of which may be empty. -/
def StopInput.intoVec (stop : StopInput) : Except ApiError (List Str) :=
  let values := match stop with
    | one value => [value]
    | many values => values
  if values.length > maxStopSequences then
    .error (.invalid ("stop supports at most ".toList ++ (toString maxStopSequences).toList ++
      " sequences".toList) "stop" "invalid_stop")
  else if values.any (· == []) then
    .error (.invalid "stop sequences must not be empty".toList "stop" "invalid_stop")
  else .ok values

/-- The fields of a chat request that decide what the tokens become. -/
structure ChatRequest (Value : Type) where
  tools : List Value
  toolChoice : Option Value
  enableThinking : Bool
  parallelToolCalls : Option Bool
  stop : Option StopInput
  ignoreEos : Bool
  includeUsage : Bool

/-- An accepted chat request. -/
structure AcceptedChat (Value : Type) where
  selectedTools : SelectedTools Value
  thinkingEnabled : Bool
  allowParallelTools : Bool
  stops : List Str
  ignoreEos : Bool
  includeUsage : Bool

/-- The checks of the fields kept here. -/
def ChatRequest.accept {Value : Type} (serde : Serde Value) (request : ChatRequest Value) :
    Except ApiError (AcceptedChat Value) :=
  match selectTools serde request.tools request.toolChoice with
  | .error error => .error (.invalid error.message "tool_choice" "invalid_tools")
  | .ok selectedTools =>
      match request.stop with
      | none => .ok (accepted selectedTools [])
      | some stop => (stop.intoVec).map (accepted selectedTools)
where
  accepted (selectedTools : SelectedTools Value) (stops : List Str) : AcceptedChat Value :=
    { selectedTools := selectedTools
      thinkingEnabled := request.enableThinking
      allowParallelTools := request.parallelToolCalls.getD true
      stops := stops
      ignoreEos := request.ignoreEos
      includeUsage := request.includeUsage }

/-- The check of a message against the tool choice. -/
def enforceToolChoice {Value : Type} (selectedTools : SelectedTools Value)
    (parsed : ParsedAssistant) (allowParallelTools : Bool) : Except ApiError Unit :=
  if !allowParallelTools && decide (parsed.toolCalls.length > 1) then
    .error (.internal
      "the model produced multiple calls while parallel_tool_calls=false".toList)
  else if selectedTools.choice = .required ∧ parsed.toolCalls = [] then
    .error (.internal "the model did not produce a tool call for tool_choice=required".toList)
  else
    -- A required name asks for at least one call and for no call of another tool.
    match selectedTools.requiredName with
    | none => .ok ()
    | some requiredName =>
        if parsed.toolCalls = [] ∨
            parsed.toolCalls.any (fun call => call.function.name ≠ requiredName) then
          .error (.internal
            ("the model did not honor the required tool ".toList ++ requiredName))
        else .ok ()

/-- The token counts of a response. -/
structure Usage where
  promptTokens : Nat
  completionTokens : Nat
  totalTokens : Nat
deriving DecidableEq, Repr

/-- The usage of a response. -/
def usageJson (promptTokens completionTokens : Nat) : Usage :=
  { promptTokens := promptTokens
    completionTokens := completionTokens
    totalTokens := promptTokens + completionTokens }

/-- The plain response. -/
structure ChatCompletion where
  message : ParsedAssistant
  finishReason : FinishReason
  stopReason : Option Str
  usage : Usage
deriving DecidableEq, Repr

/-- An event of the stream. -/
inductive StreamEvent where
  | role
  | content (delta : Str)
  | reasoning (text : Str)
  | toolCall (index : Nat) (call : OutputToolCall)
  | finish (reason : FinishReason)
  | usage (usage : Usage)
  | error (error : ApiError)
  | done
deriving DecidableEq, Repr

section Responses

variable {Value : Type} (serde : Serde Value) (codec : Codec) (chat : AcceptedChat Value)

/-- The message and the finish reason of a finished output. -/
def chatMessage (requestId : Str) (finalized : FinalizedOutput) :
    Except ApiError (ParsedAssistant × FinishReason) :=
  let parsed := parseAssistantOutput serde finalized.text chat.thinkingEnabled requestId
  (enforceToolChoice chat.selectedTools parsed chat.allowParallelTools).map fun _ =>
    (parsed, if parsed.toolCalls = [] then finalized.finishReason else .toolCalls)

/-- The plain response to a chat request. -/
def chatCompletion (requestId : Str) (promptTokens maxOutputTokens : Nat)
    (generated : List UInt32) : Except ApiError ChatCompletion :=
  match finalizeTokens codec generated chat.stops chat.ignoreEos maxOutputTokens with
  | .error error => .error (.internal error)
  | .ok finalized =>
      (chatMessage serde chat requestId finalized).map fun (parsed, finishReason) =>
        { message := parsed
          finishReason := finishReason
          stopReason := finalized.stopReason
          usage := usageJson promptTokens finalized.generatedTokenCount }

/-- The text is sent as it comes: no tools are offered and thinking is off. -/
def directContentStream : Bool := chat.selectedTools.tools.isEmpty && !chat.thinkingEnabled

/-- The events of a message parsed at the end of the stream. -/
def messageEvents (parsed : ParsedAssistant) : List StreamEvent :=
  (parsed.reasoningContent.toList.map .reasoning) ++ (parsed.content.toList.map .content) ++
    parsed.toolCalls.mapIdx .toolCall

/-- The events that close a stream. -/
def closingEvents (promptTokens : Nat) (finalized : FinalizedOutput)
    (finishReason : FinishReason) : List StreamEvent :=
  [.finish finishReason] ++
    (if chat.includeUsage then [.usage (usageJson promptTokens finalized.generatedTokenCount)]
      else []) ++ [.done]

/-- The events of the stream of a chat request. -/
def chatStream (requestId : Str) (promptTokens maxOutputTokens : Nat)
    (generated : List UInt32) : List StreamEvent :=
  let direct := directContentStream chat
  let loop := streamLoop codec generated chat.stops chat.ignoreEos direct
  [.role] ++ loop.deltas.map .content ++
    match finalizeTokens codec generated chat.stops chat.ignoreEos maxOutputTokens with
    | .error error => [.error (.internal error), .done]
    | .ok finalized =>
        -- Neither the parser nor the tool choice is asked here, which is the difference from the
        -- plain response.
        if direct then
          ((loop.textStream.update finalized.text true).1.toList.map .content) ++
            closingEvents chat promptTokens finalized finalized.finishReason
        else
          match chatMessage serde chat requestId finalized with
          | .error error => [.error error, .done]
          | .ok (parsed, finishReason) =>
              messageEvents parsed ++ closingEvents chat promptTokens finalized finishReason

end Responses

end Chat

end QrtEngine
