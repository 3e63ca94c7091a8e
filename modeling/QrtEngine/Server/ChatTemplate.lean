import QrtEngine.Library.Markup
import QrtEngine.Server.ToJson

/-!
# The Chat Template

How a list of messages becomes a prompt. Every message is a turn between two marks, with its
role on the first line. The tools and a leading system or developer message share one system
turn; the results of tools that follow one another share one user turn; and the prompt ends
with an open turn for the assistant.

An assistant's turn has its reasoning, if it comes after the last query of the user, its
content and its tool calls. The calls are elements with the arguments as parameters, a string
as it is and every other value as JSON.

Of a message only the fields the template reads are kept.

## Main definitions

* `ChatMessage`, `RenderError`: A message, and what can be wrong with messages.
* `renderContent`: The text of a message.
* `renderCalls`, `renderAssistant`, `renderTool`, `renderMessage`: The turn of a message.
* `renderParts`: The texts of all messages.
* `renderQwenChat`: The prompt.

## Theorems

* `free_renderParameters`: Parameters have no mark that none of their lines has.
* `renderQwenChat_ok`: What a prompt is made of.
* `renderParts_getElem?`: What the text of a message is.
-/

namespace QrtEngine

namespace Chat

open ByteText Text Json

/-- A call in a message of a request. -/
structure InputFunctionCall (F : Type) where
  name : Str
  arguments : Value F

/-- A tool call in a message of a request. -/
structure InputToolCall (F : Type) where
  kind : Str
  function : InputFunctionCall F

/-- A message of a request. -/
structure ChatMessage (F : Type) where
  role : Str
  content : Value F
  reasoningContent : Option Str
  toolCalls : Option (List (InputToolCall F))

/-- What can be wrong with the messages of a request. -/
inductive RenderError where
  | noMessages
  | systemMessageOrder
  | unsupportedRole (role : Str)
  | invalidContent
  | unsupportedMedia
  | invalidToolArguments
  | noUserQuery
deriving DecidableEq, Repr

/-- The text of an error. -/
def RenderError.message : RenderError → Str
  | noMessages => "messages must contain at least one item".toList
  | systemMessageOrder => "system message must be the first message".toList
  | unsupportedRole role => "unsupported message role: ".toList ++ role
  | invalidContent =>
      "message content must be a string, null, or an array of text parts".toList
  | unsupportedMedia =>
      "image and video content are not supported by this text runtime".toList
  | invalidToolArguments =>
      "assistant tool call arguments must be a JSON object or an object-encoded string".toList
  | noUserQuery => "no user query was found in messages".toList

/-- The mark before a turn. -/
def imStart : Str := "<|im_start|>".toList

/-- The mark after a turn. -/
def imEnd : Str := "<|im_end|>".toList

section Render

variable {F : Type} (floats : Floats F)

/-! ## Content -/

/-- The text of a part of a content. -/
def renderPart (part : Value F) : Except RenderError Str :=
  match asObject part with
  | none => .error .invalidContent
  | some object =>
      let kind := (lookup "type".toList object).bind asText
      let has (key : String) : Bool := (lookup key.toList object).isSome
      if kind = some "image".toList ∨ kind = some "image_url".toList ∨
          kind = some "video".toList ∨ has "image" ∨ has "image_url" ∨ has "video" then
        .error .unsupportedMedia
      else
        match (lookup "text".toList object).bind asText with
        | none => .error .invalidContent
        | some text => .ok text

/-- The text of a content: none, a string, or text parts. -/
def renderContent : Value F → Except RenderError Str
  | .null => .ok []
  | .string value => .ok value
  | .array parts => (parts.mapM renderPart).map List.flatten
  | _ => .error .invalidContent

/-! ## Turns -/

/-- A whole turn. -/
def turn (role body : Str) : Str := imStart ++ (role ++ ('\n' :: (body ++ (imEnd ++ ['\n']))))

/-- The text of an argument: a string as it is, every other value as JSON. -/
def argumentText (value : Value F) : Str := (asText value).getD (jinjaTojson floats value)

/-- A parameter of a call. -/
def renderParameter (entry : Str × Value F) : Str :=
  "<parameter=".toList ++ (entry.1 ++ (">\n".toList ++
    (argumentText floats entry.2 ++ "\n</parameter>\n".toList)))

/-- A call with its parameters. -/
def callText (name : Str) (entries : List (Str × Value F)) : Str :=
  "<tool_call>\n<function=".toList ++ (name ++ (">\n".toList ++
    (entries.flatMap (renderParameter floats) ++ "</function>\n</tool_call>".toList)))

/-- An opening mark with a name in it is free of a mark that begins differently. -/
theorem free_opening (d e : Char) (tail word name : Str) (hne : d ≠ e) (hword : '<' ∉ e :: word)
    (hname : '<' ∉ name) : Free ('<' :: d :: tail) (('<' :: e :: word) ++ (name ++ ['>'])) := by
  refine free_of_second '<' d e tail (word ++ (name ++ ['>'])) hne ?_
  rw [← List.cons_append, List.mem_append, List.mem_append]
  rintro (h | h | h)
  · exact hword h
  · exact hname h
  · exact absurd h (by decide)

theorem renderParameter_append (entry : Str × Value F) (rest : Str) :
    renderParameter floats entry ++ rest = ("<parameter=".toList ++ (entry.1 ++ ['>'])) ++
      '\n' :: (argumentText floats entry.2 ++
        '\n' :: ("</parameter>".toList ++ '\n' :: rest)) := by
  unfold renderParameter
  rw [show ">\n".toList = ['>'] ++ ['\n'] from rfl,
    show "\n</parameter>\n".toList = ['\n'] ++ ("</parameter>".toList ++ ['\n']) from rfl]
  simp only [List.append_assoc, List.cons_append, List.nil_append]

/-- Parameters are free of a pattern that is on none of their lines. -/
theorem free_renderParameters (pattern : Str) (hbreak : '\n' ∉ pattern)
    (hclose : Free pattern "</parameter>".toList) (entries : List (Str × Value F)) (rest : Str)
    (hrest : Free pattern rest)
    (hkeys : ∀ e ∈ entries, Free pattern ("<parameter=".toList ++ (e.1 ++ ['>'])))
    (htexts : ∀ e ∈ entries, Free pattern (argumentText floats e.2)) :
    Free pattern (entries.flatMap (renderParameter floats) ++ rest) := by
  induction entries with
  | nil => exact hrest
  | cons e entries ih =>
      have hmore := ih (fun e' he' => hkeys e' (List.mem_cons_of_mem e he'))
        (fun e' he' => htexts e' (List.mem_cons_of_mem e he'))
      rw [List.flatMap_cons, List.append_assoc, renderParameter_append]
      exact free_append_cons '\n' hbreak (hkeys e List.mem_cons_self)
        (free_append_cons '\n' hbreak (htexts e List.mem_cons_self)
          (free_append_cons '\n' hbreak hclose hmore))

/-- What stands before a call: two line breaks between content and the first call, one between
    calls. -/
def callGap (content : Str) (toolIndex : Nat) : Str :=
  if toolIndex = 0 ∧ trim content ≠ [] then ['\n', '\n']
  else if toolIndex ≠ 0 then ['\n'] else []

/-- The calls of a message, from an index on. -/
def renderCalls (content : Str) (toolIndex : Nat) :
    List (InputToolCall F) → Except RenderError Str
  | [] => .ok []
  | call :: calls =>
      if call.kind ≠ "function".toList then .error .invalidToolArguments
      else
        match asObject call.function.arguments with
        | none => .error .invalidToolArguments
        | some entries =>
            (renderCalls content (toolIndex + 1) calls).map fun rest =>
              callGap content toolIndex ++ (callText floats call.function.name entries ++ rest)

/-- The reasoning and the content of an assistant's message: reasoning inside the content is
    split off, if the message has none of its own. -/
def splitThinking (message : ChatMessage F) (content : Str) : Str × Str :=
  match message.reasoningContent with
  | some reasoning => (reasoning, content)
  | none =>
      match find "</think>".toList content with
      | none => ([], content)
      | some close =>
          let before := takeBytes close content
          let reasoning := match rfind "<think>".toList before with
            | some start => dropBytes (start + byteLen "<think>".toList) before
            | none => before
          (trim reasoning,
            (dropBytes (close + byteLen "</think>".toList) content).dropWhile (· == '\n'))

/-- The turn of an assistant's message. -/
def renderAssistant (thinking : Bool) (message : ChatMessage F) (content : Str) :
    Except RenderError Str :=
  let (reasoning, content) := splitThinking message content
  let think := if thinking then
      "<think>\n".toList ++ (trim reasoning ++ "\n</think>\n\n".toList) else []
  (renderCalls floats content 0 (message.toolCalls.getD [])).map fun calls =>
    turn "assistant".toList (think ++ (content ++ calls))

/-- The result of a tool. It opens a turn after a message that is none, and closes it before
    one that is none. A first message opens nothing. -/
def renderTool (previous next : Option Str) (content : Str) : Str :=
  (match previous with
    | none => []
    | some role => if role ≠ "tool".toList then imStart ++ "user".toList else []) ++
  ("\n<tool_response>\n".toList ++ (content ++ "\n</tool_response>".toList)) ++
  (match next with
    | none => imEnd ++ ['\n']
    | some role => if role ≠ "tool".toList then imEnd ++ ['\n'] else [])

/-- The text of a message between its neighbours, of which the roles are given. -/
def renderMessage (thinking : Bool) (previous next : Option Str) (message : ChatMessage F)
    (content : Str) : Except RenderError Str :=
  if message.role = "system".toList then .ok []
  else if message.role = "developer".toList then
    if previous = none then .ok [] else .ok (turn "system".toList content)
  else if message.role = "user".toList then .ok (turn "user".toList content)
  else if message.role = "assistant".toList then
    renderAssistant floats thinking message content
  else if message.role = "tool".toList then .ok (renderTool previous next content)
  else .error (.unsupportedRole message.role)

/-! ## The prompt -/

/-- The texts of messages with their contents, from an index on. -/
def renderParts (preserveThinking : Bool) (lastQueryIndex index : Nat) (previous : Option Str) :
    List (ChatMessage F × Str) → Except RenderError (List Str)
  | [] => .ok []
  | (message, content) :: rest =>
      match renderMessage floats (preserveThinking || decide (index > lastQueryIndex)) previous
          (rest.head?.map fun next => next.1.role) message (trim content) with
      | .error error => .error error
      | .ok text =>
          (renderParts preserveThinking lastQueryIndex (index + 1) (some message.role) rest).map
            (text :: ·)

/-- A message is a query of the user, not a result of a tool in the user's name. -/
def isQuery (entry : ChatMessage F × Str) : Bool :=
  entry.1.role == "user".toList &&
    (!("<tool_response>".toList).isPrefixOf (trim entry.2) ||
      !("</tool_response>".toList).isSuffixOf (trim entry.2))

/-- The index of the last query. -/
def lastQueryIndex (entries : List (ChatMessage F × Str)) : Option Nat :=
  (entries.zipIdx.reverse.find? fun entry => isQuery entry.1).map Prod.snd

/-- What the model is told about calling tools, line by line. -/
def toolInstructionLines : List String :=
  ["", "",
    "If you choose to call a function ONLY reply in the following format with NO suffix:", "",
    "<tool_call>", "<function=example_function_name>", "<parameter=example_parameter_1>",
    "value_1", "</parameter>", "<parameter=example_parameter_2>",
    "This is the value for the second parameter", "that can span", "multiple lines",
    "</parameter>", "</function>", "</tool_call>", "", "<IMPORTANT>", "Reminder:",
    "- Function calls MUST follow the specified format: an inner <function=...></function> block must be nested within <tool_call></tool_call> XML tags",
    "- Required parameters MUST be specified",
    "- You may provide optional reasoning for your function call in natural language BEFORE the function call, but NOT after",
    "- If there is no function call available, answer the question like normal with your current knowledge and do not tell the user about function calls",
    "</IMPORTANT>"]

/-- What the model is told about calling tools. -/
def toolInstructions : Str := ['\n'].intercalate (toolInstructionLines.map String.toList)

/-- The body of the system turn with the tools. -/
def toolsBody (tools : List (Value F)) (system : Str) : Str :=
  "# Tools\n\nYou have access to the following functions:\n\n<tools>".toList ++
    (tools.flatMap (fun tool => '\n' :: jinjaTojson floats tool) ++ ("\n</tools>".toList ++
      (toolInstructions ++ if system = [] then [] else ['\n', '\n'] ++ system)))

/-- A role that may lead the messages with instructions. -/
def isSystem (role : Str) : Bool := role == "system".toList || role == "developer".toList

/-- The leading system turn, for the first message with its content. -/
def renderSystem (tools : List (Value F)) (first : ChatMessage F × Str) : Str :=
  let system := if isSystem first.1.role then trim first.2 else []
  if tools ≠ [] then turn "system".toList (toolsBody floats tools system)
  else if isSystem first.1.role then turn "system".toList system else []

/-- The open turn at the end. -/
def generationPrompt (enableThinking : Bool) : Str :=
  imStart ++ "assistant\n".toList ++
    if enableThinking then "<think>\n".toList else "<think>\n\n</think>\n\n".toList

/-- The prompt for a list of messages. -/
def renderQwenChat (messages : List (ChatMessage F)) (tools : List (Value F))
    (enableThinking preserveThinking : Bool) : Except RenderError Str :=
  match messages with
  | [] => .error .noMessages
  | first :: rest =>
      match (first :: rest).mapM fun message => renderContent message.content with
      | .error error => .error error
      | .ok contents =>
          if rest.any fun message => message.role == "system".toList then
            .error .systemMessageOrder
          else
            let entries := (first :: rest).zip contents
            match lastQueryIndex entries with
            | none => .error .noUserQuery
            | some queryIndex =>
                (renderParts floats preserveThinking queryIndex 0 none entries).map fun parts =>
                  (entries.head?.elim [] (renderSystem floats tools)) ++
                    (parts.flatten ++ generationPrompt enableThinking)

/-- Messages with their rendered contents. -/
def Rendered (entries : List (ChatMessage F × Str)) : Prop :=
  ∀ entry ∈ entries, renderContent entry.1.content = .ok entry.2

theorem Rendered.mapM_content (entries : List (ChatMessage F × Str)) (h : Rendered entries) :
    ((entries.map Prod.fst).mapM fun message => renderContent message.content) =
      .ok (entries.map Prod.snd) := by
  induction entries with
  | nil => rfl
  | cons entry entries ih =>
      rw [List.map_cons, List.map_cons, List.mapM_cons, h entry List.mem_cons_self,
        ih fun e he => h e (List.mem_cons_of_mem entry he)]
      rfl

/-- What a prompt is made of: the leading system turn, one text for each message, and the open
    turn. -/
theorem renderQwenChat_ok (entries : List (ChatMessage F × Str)) (hrendered : Rendered entries)
    (tools : List (Value F)) (enableThinking preserveThinking : Bool) (output : Str)
    (h : renderQwenChat floats (entries.map Prod.fst) tools enableThinking preserveThinking =
      .ok output) :
    ∃ (first : ChatMessage F × Str) (rest : List (ChatMessage F × Str)) (queryIndex : Nat)
      (parts : List Str), entries = first :: rest ∧
      (∀ entry ∈ rest, entry.1.role ≠ "system".toList) ∧
      lastQueryIndex entries = some queryIndex ∧
      renderParts floats preserveThinking queryIndex 0 none entries = .ok parts ∧
      output = renderSystem floats tools first ++
        (parts.flatten ++ generationPrompt enableThinking) := by
  cases entries with
  | nil => exact nomatch h
  | cons first rest =>
      have hcontents := hrendered.mapM_content
      rw [List.map_cons] at h hcontents
      unfold renderQwenChat at h
      dsimp only at h
      rw [hcontents] at h
      dsimp only at h
      by_cases hsystem :
          ((rest.map Prod.fst).any fun message => message.role == "system".toList) = true
      · rw [if_pos hsystem] at h
        exact nomatch h
      · have hzip : ((first :: rest).map Prod.fst).zip ((first :: rest).map Prod.snd) =
            first :: rest := (List.zip_of_prod rfl rfl).symm
        rw [if_neg hsystem, ← List.map_cons, hzip] at h
        cases hquery : lastQueryIndex (first :: rest) with
        | none =>
            rw [hquery] at h
            exact nomatch h
        | some queryIndex =>
            rw [hquery] at h
            dsimp only at h
            cases hparts : renderParts floats preserveThinking queryIndex 0 none
                (first :: rest) with
            | error error =>
                rw [hparts] at h
                exact nomatch h
            | ok parts =>
                rw [hparts] at h
                refine ⟨first, rest, queryIndex, parts, rfl, fun entry hentry hrole => ?_, rfl,
                  hparts, (Except.ok.inj h).symm⟩
                -- No later message is a system message.
                refine hsystem (List.any_eq_true.mpr ⟨entry.1, ?_, by simp [hrole]⟩)
                exact List.mem_map_of_mem hentry

/-- The texts of messages are the text of the first and the texts of the rest. -/
theorem renderParts_cons (preserveThinking : Bool) (queryIndex index : Nat)
    (previous : Option Str) (entry : ChatMessage F × Str) (rest : List (ChatMessage F × Str))
    (parts : List Str)
    (h : renderParts floats preserveThinking queryIndex index previous (entry :: rest) =
      .ok parts) :
    ∃ text more,
      renderMessage floats (preserveThinking || decide (index > queryIndex)) previous
        (rest.head?.map fun next => next.1.role) entry.1 (trim entry.2) = .ok text ∧
      renderParts floats preserveThinking queryIndex (index + 1) (some entry.1.role) rest =
        .ok more ∧
      parts = text :: more := by
  rw [renderParts] at h
  split at h
  · exact nomatch h
  · rename_i text htext
    cases hmore : renderParts floats preserveThinking queryIndex (index + 1)
        (some entry.1.role) rest with
    | error error =>
        rw [hmore] at h
        exact nomatch h
    | ok more =>
        rw [hmore] at h
        exact ⟨text, more, htext, rfl, (Except.ok.inj h).symm⟩

/-- Each text is that of its message between two neighbours. -/
theorem renderParts_getElem? (preserveThinking : Bool) (queryIndex index : Nat)
    (previous : Option Str) (entries : List (ChatMessage F × Str)) (parts : List Str)
    (h : renderParts floats preserveThinking queryIndex index previous entries = .ok parts)
    (i : Nat) (message : ChatMessage F) (content : Str)
    (hentry : entries[i]? = some (message, content)) :
    ∃ before after text, parts[i]? = some text ∧
      renderMessage floats (preserveThinking || decide (index + i > queryIndex)) before after
        message (trim content) = .ok text := by
  induction entries generalizing index previous parts i with
  | nil => exact nomatch hentry
  | cons entry entries ih =>
      rcases renderParts_cons floats preserveThinking queryIndex index previous entry entries parts
        h with ⟨text, more, htext, hmore, rfl⟩
      cases i with
      | zero =>
          cases Option.some.inj hentry
          exact ⟨_, _, text, rfl, htext⟩
      | succ i =>
          rcases ih (index + 1) (some entry.1.role) more hmore i hentry with
            ⟨before, after, found, hfound, hmessage⟩
          rw [Nat.add_right_comm, Nat.add_assoc] at hmessage
          exact ⟨before, after, found, hfound, hmessage⟩

end Render

end Chat

end QrtEngine
