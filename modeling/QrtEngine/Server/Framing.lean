import Mathlib.Data.List.DropRight
import Mathlib.Data.List.SplitBy
import QrtEngine.Server.ChatTemplate

/-!
# The Frame of a Prompt

A prompt should be a sequence of closed turns and one open turn at the end, and the two marks
of a turn should be nowhere else in it. The turns should be those of the messages in their
order, with one turn for each maximal run of tool results.

The bodies have no mark in them if the texts of the messages have none: every other text in a
body is fixed, or JSON, which has no angle bracket, and no mark can reach over the place where
two texts meet.

A run of tool results is opened by the first of them if the message before it is of another
role, and closed by the last of them if there is no next message or one of another role. So a
run at the end is closed, but a run at the beginning is not opened. The prompt has its frame
exactly if the first message is not the result of a tool.

## Main definitions

* `Clean`: A text without the marks of a turn.
* `CleanMessage`: A message whose texts have no marks.
* `Turn`, `TurnFor`: A closed turn, and the turn for a message or a run of tool results.
* `pieces`: The messages, with the runs of tool results together.
* `Framed`: A prompt with its frame.

## Theorems

* `renderParts_turns`: The texts of messages are turns.
* `renderQwenChat_framed_iff`: When a prompt has its frame.
-/

namespace QrtEngine

namespace Chat

open ByteText Text Json

/-! ## Clean texts -/

/-- The marks of a turn. -/
def marks : List Str := [imStart, imEnd]

/-- A text without the marks of a turn. -/
def Clean (text : Str) : Prop := ∀ mark ∈ marks, Free mark text

instance decidableClean (text : Str) : Decidable (Clean text) :=
  inferInstanceAs (Decidable (∀ mark ∈ marks, Free mark text))

/-- What the marks have in common. -/
theorem mem_marks (mark : Str) (h : mark ∈ marks) :
    '\n' ∉ mark ∧ '<' ∉ mark.tail ∧ ∃ tail, mark = '<' :: '|' :: tail := by
  simp only [marks, List.mem_cons, List.not_mem_nil, or_false] at h
  rcases h with rfl | rfl
  · exact ⟨by decide, by decide, "im_start|>".toList, rfl⟩
  · exact ⟨by decide, by decide, "im_end|>".toList, rfl⟩

theorem Clean.of_infix {s t : Str} (h : Clean t) (hpart : s <:+: t) : Clean s := by
  intro mark hmark
  rcases hpart with ⟨u, v, rfl⟩
  have hfree := h mark hmark
  rw [List.append_assoc] at hfree
  exact hfree.sublist

theorem Clean.trim {s : Str} (h : Clean s) : Clean (trim s) := by
  have hstart : trimStart s <:+ s := List.dropWhile_suffix isWhitespace
  have hend : Chat.trim s <+: trimStart s := List.rdropWhile_prefix isWhitespace _
  exact h.of_infix (hend.isInfix.trans hstart.isInfix)

theorem clean_of_not_mem (s : Str) (h : '<' ∉ s) : Clean s := by
  intro mark hmark
  rcases (mem_marks mark hmark).2.2 with ⟨tail, rfl⟩
  exact free_of_not_mem '<' _ s h

/-- No mark reaches over a line break. -/
theorem clean_lines {s t : Str} (hs : Clean s) (ht : Clean t) : Clean (s ++ '\n' :: t) :=
  fun mark hmark =>
    free_append_cons '\n' (mem_marks mark hmark).1 (hs mark hmark) (ht mark hmark)

/-- No mark reaches into a tag. -/
theorem clean_tag {s t : Str} (hs : Clean s) (ht : Clean ('<' :: t)) : Clean (s ++ '<' :: t) := by
  intro mark hmark
  refine free_append (hs mark hmark) (ht mark hmark) fun c hc => ?_
  cases Option.some.inj hc
  exact (mem_marks mark hmark).2.1

theorem clean_opening (e : Char) (word name : Str) (hne : '|' ≠ e) (hword : '<' ∉ e :: word)
    (hname : '<' ∉ name) : Clean (('<' :: e :: word) ++ (name ++ ['>'])) := by
  intro mark hmark
  rcases (mem_marks mark hmark).2.2 with ⟨tail, rfl⟩
  exact free_opening '|' e tail word name hne hword hname

section Bodies

variable {F : Type} (floats : Floats F)

/-- A call whose name and arguments have no marks. -/
def CleanCall (call : InputToolCall F) : Prop :=
  '<' ∉ call.function.name ∧
    ∀ arguments, call.function.arguments = .object arguments →
      ∀ e ∈ arguments, '<' ∉ e.1 ∧ ∀ s, e.2 = .string s → Clean s

/-- A message whose texts have no marks. -/
structure CleanMessage (entry : ChatMessage F × Str) : Prop where
  content : Clean entry.2
  reasoning : ∀ reasoning, entry.1.reasoningContent = some reasoning → Clean reasoning
  calls : ∀ call ∈ entry.1.toolCalls.getD [], CleanCall call

theorem clean_jinjaTojson (v : Value F) : Clean (jinjaTojson floats v) :=
  clean_of_not_mem _ fun h => absurd (jinjaTojson_plain floats v '<' h) (by decide)

theorem clean_argumentText (v : Value F) (h : ∀ s, v = .string s → Clean s) :
    Clean (argumentText floats v) := by
  cases v with
  | string s => exact h s rfl
  | _ => exact clean_jinjaTojson floats _

theorem clean_callText (name : Str) (arguments : List (Str × Value F)) (hname : '<' ∉ name)
    (harguments : ∀ e ∈ arguments, '<' ∉ e.1 ∧ ∀ s, e.2 = .string s → Clean s) :
    Clean (callText floats name arguments) := by
  have hparameters : Clean (arguments.flatMap (renderParameter floats) ++
      "</function>\n</tool_call>".toList) := by
    intro mark hmark
    refine free_renderParameters floats mark (mem_marks mark hmark).1 ?_ arguments _ ?_ ?_ ?_
    · exact (show Clean "</parameter>".toList by decide) mark hmark
    · exact (show Clean "</function>\n</tool_call>".toList by decide) mark hmark
    · exact fun e he => clean_opening 'p' "arameter=".toList e.1 (by decide) (by decide)
        (harguments e he).1 mark hmark
    · exact fun e he => clean_argumentText floats e.2 (harguments e he).2 mark hmark
  have hfunction : Clean ("<function=".toList ++ (name ++ ['>'])) :=
    clean_opening 'f' "unction=".toList name (by decide) (by decide) hname
  have hlines := clean_lines (show Clean "<tool_call>".toList by decide)
    (clean_lines hfunction hparameters)
  unfold callText
  rw [show "<tool_call>\n<function=".toList = "<tool_call>".toList ++ ('\n' :: "<function=".toList)
      from rfl, show ">\n".toList = ['>'] ++ ['\n'] from rfl]
  simpa only [List.append_assoc, List.cons_append, List.nil_append] using hlines

/-- Calls after a clean text. -/
theorem clean_renderCalls (content : Str) (index : Nat) (calls : List (InputToolCall F))
    (text front : Str) (hcalls : ∀ call ∈ calls, CleanCall call) (hfront : Clean front)
    (h : renderCalls floats content index calls = .ok text) : Clean (front ++ text) := by
  induction calls generalizing index text front with
  | nil =>
      cases Except.ok.inj h
      rwa [List.append_nil]
  | cons call calls ih =>
      rw [renderCalls] at h
      split_ifs at h with hkind
      cases harguments : call.function.arguments with
      | object arguments =>
          rw [harguments] at h
          cases hrest : renderCalls floats content (index + 1) calls with
          | error error =>
              rw [hrest] at h
              exact nomatch h
          | ok rest =>
              rw [hrest] at h
              cases Except.ok.inj h
              rcases hcalls call List.mem_cons_self with ⟨hname, hclean⟩
              have hcall := clean_callText floats call.function.name arguments hname
                (hclean arguments harguments)
              -- The text of the call begins with a tag, after line breaks or at once.
              have hgap : Clean ((front ++ callGap content index) ++
                  callText floats call.function.name arguments) := by
                refine clean_tag ?_ hcall
                unfold callGap
                split_ifs
                · exact clean_lines hfront (by decide)
                · exact clean_lines hfront (by decide)
                · rwa [List.append_nil]
              have hall := ih (index + 1) rest _
                (fun call' hcall' => hcalls call' (List.mem_cons_of_mem call hcall')) hgap hrest
              simpa only [List.append_assoc] using hall
      | _ =>
          rw [harguments] at h
          exact nomatch h

/-- The two texts an answer is split into are parts of its own. -/
theorem clean_splitThinking (message : ChatMessage F) (content : Str) (hcontent : Clean content)
    (hreasoning : ∀ reasoning, message.reasoningContent = some reasoning → Clean reasoning) :
    Clean (splitThinking message content).1 ∧ Clean (splitThinking message content).2 := by
  unfold splitThinking
  cases hown : message.reasoningContent with
  | some reasoning => exact ⟨hreasoning reasoning hown, hcontent⟩
  | none =>
      dsimp only
      cases find "</think>".toList content with
      | none => exact ⟨clean_of_not_mem [] List.not_mem_nil, hcontent⟩
      | some close =>
          dsimp only
          have hbefore : Clean (takeBytes close content) :=
            hcontent.of_infix (takeBytes_isPrefix close content).isInfix
          refine ⟨Clean.trim ?_, hcontent.of_infix ?_⟩
          · cases rfind "<think>".toList (takeBytes close content) with
            | none => exact hbefore
            | some start => exact hbefore.of_infix (dropBytes_isSuffix _ _).isInfix
          · exact ((List.dropWhile_suffix _).trans (dropBytes_isSuffix _ _)).isInfix

/-- The text of an answer is a turn with a clean body. -/
theorem renderAssistant_turn (thinking : Bool) (message : ChatMessage F) (content text : Str)
    (hcontent : Clean content)
    (hreasoning : ∀ reasoning, message.reasoningContent = some reasoning → Clean reasoning)
    (hcalls : ∀ call ∈ message.toolCalls.getD [], CleanCall call)
    (h : renderAssistant floats thinking message content = .ok text) :
    ∃ body, text = turn "assistant".toList body ∧ Clean body := by
  rcases clean_splitThinking message content hcontent hreasoning with ⟨hbefore, hafter⟩
  unfold renderAssistant at h
  generalize splitThinking message content = split at h hbefore hafter
  rcases split with ⟨reasoning, visible⟩
  dsimp only at h hbefore hafter
  cases hrest : renderCalls floats visible 0 (message.toolCalls.getD []) with
  | error error =>
      rw [hrest] at h
      exact nomatch h
  | ok calls =>
      rw [hrest] at h
      cases Except.ok.inj h
      refine ⟨_, rfl, ?_⟩
      cases thinking with
      | false => exact clean_renderCalls floats visible 0 _ calls visible hcalls hafter hrest
      | true =>
          -- The reasoning and the content stand between line breaks.
          have hthink : Clean ("<think>\n".toList ++ (trim reasoning ++
              ("\n</think>\n\n".toList ++ visible))) :=
            clean_lines (s := "<think>".toList) (by decide) (clean_lines hbefore.trim
              (clean_lines (s := "</think>".toList) (by decide)
                (clean_lines (s := []) (by decide) hafter)))
          have hall := clean_renderCalls floats visible 0 _ calls _ hcalls hthink hrest
          simpa only [if_pos, List.append_assoc] using hall

theorem clean_intercalate (lines : List Str) (h : ∀ line ∈ lines, Clean line) :
    Clean (['\n'].intercalate lines) := by
  induction lines with
  | nil => exact clean_of_not_mem [] List.not_mem_nil
  | cons line lines ih =>
      cases lines with
      | nil =>
          rw [List.intercalate_singleton]
          exact h line List.mem_cons_self
      | cons line' lines =>
          rw [List.intercalate_cons_cons, List.append_assoc]
          exact clean_lines (h line List.mem_cons_self)
            (ih fun l hl => h l (List.mem_cons_of_mem line hl))

/-- A literal is clean if its characters are, which are at hand in this form. -/
theorem clean_literal (s : Str) (h : Clean s) : Clean (String.ofList s).toList := by
  rwa [String.toList_ofList]

set_option maxRecDepth 4000 in
theorem clean_toolInstructionLines : ∀ line ∈ toolInstructionLines, Clean line.toList := by
  intro line hline
  simp only [toolInstructionLines, List.mem_cons, List.not_mem_nil, or_false] at hline
  rcases hline with rfl | rfl | rfl | rfl | rfl | rfl | rfl | rfl | rfl | rfl | rfl | rfl | rfl |
    rfl | rfl | rfl | rfl | rfl | rfl | rfl | rfl | rfl | rfl | rfl <;>
    exact clean_literal _ (by decide +kernel)

theorem clean_toolInstructions : Clean ("</tools>".toList ++ toolInstructions) := by
  have hlines := clean_toolInstructionLines
  unfold toolInstructions
  -- The first line is empty, so that the mark before stands on a line of its own.
  have hfirst : ∃ lines, toolInstructionLines = "" :: "" :: lines := ⟨_, rfl⟩
  rcases hfirst with ⟨lines, heq⟩
  rw [heq] at hlines ⊢
  rw [List.map_cons, List.map_cons, List.intercalate_cons_cons, List.append_assoc]
  refine clean_lines (s := "</tools>".toList) (by decide) (clean_intercalate _ fun line hline => ?_)
  rw [← List.map_cons] at hline
  rcases List.mem_map.mp hline with ⟨text, htext, rfl⟩
  exact hlines text (List.mem_cons_of_mem _ htext)

/-- Tools on lines of their own after a clean text. -/
theorem clean_tools (tools : List (Value F)) (front : Str) (hfront : Clean front) :
    Clean (front ++ tools.flatMap fun tool => '\n' :: jinjaTojson floats tool) := by
  induction tools generalizing front with
  | nil => rwa [List.flatMap_nil, List.append_nil]
  | cons tool tools ih =>
      have hall := ih (front ++ '\n' :: jinjaTojson floats tool)
        (clean_lines hfront (clean_jinjaTojson floats tool))
      simpa only [List.flatMap_cons, List.append_assoc, List.cons_append] using hall

theorem clean_toolsBody (tools : List (Value F)) (system : Str) (hsystem : Clean system) :
    Clean (toolsBody floats tools system) := by
  have hhead := clean_tools floats tools
    "# Tools\n\nYou have access to the following functions:\n\n<tools>".toList (by decide +kernel)
  have hfixed := clean_lines hhead clean_toolInstructions
  unfold toolsBody
  rw [show "\n</tools>".toList = '\n' :: "</tools>".toList from rfl]
  by_cases hempty : system = []
  · rw [if_pos hempty, List.append_nil]
    simpa only [List.append_assoc, List.cons_append] using hfixed
  · have hall := clean_lines hfixed (clean_lines (clean_of_not_mem [] List.not_mem_nil) hsystem)
    rw [if_neg hempty]
    simpa only [List.append_assoc, List.cons_append, List.nil_append] using hall

end Bodies

/-! ## Turns -/

/-- A closed turn. -/
structure Turn where
  role : Str
  body : Str

/-- The text of a turn. -/
def Turn.text (t : Turn) : Str := turn t.role t.body

/-- The roles a turn may have. -/
def turnRoles : List Str := ["system".toList, "user".toList, "assistant".toList]

/-- A turn with a role a turn may have and a clean body. -/
def CleanTurn (t : Turn) : Prop := t.role ∈ turnRoles ∧ Clean t.body

section Turns

variable {F : Type} (floats : Floats F)

/-- A message is the result of a tool. -/
def isTool (entry : ChatMessage F × Str) : Bool := entry.1.role == "tool".toList

theorem isTool_iff (entry : ChatMessage F × Str) :
    isTool entry = true ↔ entry.1.role = "tool".toList := beq_iff_eq

/-- The messages one by one, with each maximal run of tool results together. -/
def pieces (entries : List (ChatMessage F × Str)) : List (List (ChatMessage F × Str)) :=
  entries.splitBy fun entry next => isTool entry && isTool next

/-- The result of a tool in its element. -/
def toolResponse (entry : ChatMessage F × Str) : Str :=
  "<tool_response>\n".toList ++ (trim entry.2 ++ "\n</tool_response>".toList)

/-- The turn for a piece: a user's turn with the results of a run in their order, or the turn of
    the one message. -/
def TurnFor (piece : List (ChatMessage F × Str)) (t : Turn) : Prop :=
  match piece with
  | [] => False
  | (message, content) :: rest =>
      if message.role = "tool".toList then
        t = ⟨"user".toList, ['\n'].intercalate (((message, content) :: rest).map toolResponse)⟩
      else rest = [] ∧
        if message.role = "developer".toList then t = ⟨"system".toList, trim content⟩
        else if message.role = "user".toList then t = ⟨"user".toList, trim content⟩
        else message.role = "assistant".toList ∧ t.role = "assistant".toList ∧
          ∃ thinking, renderAssistant floats thinking message (trim content) = .ok t.text

theorem pieces_cons (entry : ChatMessage F × Str) (rest : List (ChatMessage F × Str))
    (h : isTool entry = false) : pieces (entry :: rest) = [entry] :: pieces rest := by
  unfold pieces
  rw [← List.singleton_append, List.splitBy_append]
  · rfl
  · intro x hx y _
    have hlast : x = entry := by simpa [eq_comm] using hx
    rw [hlast, h, Bool.false_and]

theorem pieces_run (entry : ChatMessage F × Str) (run rest : List (ChatMessage F × Str))
    (hrun : ∀ e ∈ entry :: run, isTool e = true)
    (hrest : ∀ e, rest.head? = some e → isTool e = false) :
    pieces ((entry :: run) ++ rest) = (entry :: run) :: pieces rest := by
  unfold pieces
  rw [List.splitBy_append, List.splitBy_of_isChain (List.cons_ne_nil entry run)]
  · rfl
  · refine List.Pairwise.isChain (List.pairwise_of_forall_mem_list fun x hx y hy => ?_)
    rw [hrun x hx, hrun y hy, Bool.and_true]
  · intro x _ y hy
    rw [hrest y hy, Bool.and_false]

/-- What opens the turn of a tool result, after a message of a role. -/
def toolOpening (previous : Option Str) : Str :=
  match previous with
  | none => []
  | some role => if role ≠ "tool".toList then imStart ++ "user".toList else []

/-- What ends the turn of a tool result, before a message of a role. -/
def toolEnd (next : Option Str) : Str :=
  match next with
  | none => imEnd ++ ['\n']
  | some role => if role ≠ "tool".toList then imEnd ++ ['\n'] else []

theorem renderTool_eq (previous next : Option Str) (content : Str) :
    renderTool previous next content =
      toolOpening previous ++
        ('\n' :: ("<tool_response>\n".toList ++ (content ++ "\n</tool_response>".toList))) ++
        toolEnd next := rfl

/-- The texts from a tool result on. -/
theorem renderParts_tool (preserveThinking : Bool) (queryIndex index : Nat)
    (previous : Option Str) (entry : ChatMessage F × Str) (rest : List (ChatMessage F × Str))
    (parts : List Str) (htool : isTool entry = true)
    (h : renderParts floats preserveThinking queryIndex index previous (entry :: rest) =
      .ok parts) :
    ∃ more, renderParts floats preserveThinking queryIndex (index + 1) (some "tool".toList) rest =
        .ok more ∧
      parts.flatten = toolOpening previous ++ (('\n' :: toolResponse entry) ++
        (toolEnd (rest.head?.map fun next => next.1.role) ++ more.flatten)) := by
  rcases renderParts_cons floats preserveThinking queryIndex index previous entry rest parts h
    with ⟨text, more, htext, hmore, rfl⟩
  have hrole := (isTool_iff entry).mp htool
  rw [renderMessage, hrole, if_neg (by decide), if_neg (by decide), if_neg (by decide),
    if_neg (by decide), if_pos rfl] at htext
  rw [hrole] at hmore
  refine ⟨more, hmore, ?_⟩
  rw [List.flatten_cons, ← Except.ok.inj htext, renderTool_eq]
  unfold toolResponse
  simp only [List.append_assoc, List.cons_append]

/-- The texts of a run of tool results: one opening, the results, and one end. -/
theorem renderParts_run (preserveThinking : Bool) (queryIndex index : Nat) (previous : Option Str)
    (entry : ChatMessage F × Str) (run rest : List (ChatMessage F × Str)) (parts : List Str)
    (hrun : ∀ e ∈ entry :: run, isTool e = true)
    (hrest : ∀ e, rest.head? = some e → isTool e = false)
    (h : renderParts floats preserveThinking queryIndex index previous ((entry :: run) ++ rest) =
      .ok parts) :
    ∃ index' more, renderParts floats preserveThinking queryIndex index' (some "tool".toList) rest =
        .ok more ∧
      parts.flatten = toolOpening previous ++
        ((entry :: run).flatMap (fun e => '\n' :: toolResponse e) ++
          (imEnd ++ ('\n' :: more.flatten))) := by
  induction run generalizing entry index previous parts with
  | nil =>
      rcases renderParts_tool floats preserveThinking queryIndex index previous entry rest parts
        (hrun entry List.mem_cons_self) h with ⟨more, hmore, hparts⟩
      refine ⟨index + 1, more, hmore, ?_⟩
      -- No tool result follows, so this one ends the turn.
      have hend : toolEnd (rest.head?.map fun next => next.1.role) = imEnd ++ ['\n'] := by
        cases hnext : rest.head? with
        | none => rfl
        | some next =>
            have hother := hrest next hnext
            exact if_pos fun hrole => absurd ((isTool_iff next).mpr hrole) (by rw [hother]; decide)
      rw [hparts, hend, List.flatMap_singleton]
      simp only [List.append_assoc, List.cons_append, List.nil_append]
  | cons next run ih =>
      rcases renderParts_tool floats preserveThinking queryIndex index previous entry
        ((next :: run) ++ rest) parts (hrun entry List.mem_cons_self) h with ⟨more, hmore, hparts⟩
      rcases ih (index + 1) (some "tool".toList) next more
        (fun e he => hrun e (List.mem_cons_of_mem entry he)) hmore with
        ⟨index', more', hmore', hflat⟩
      refine ⟨index', more', hmore', ?_⟩
      have hnext := (isTool_iff next).mp (hrun next (List.mem_cons_of_mem entry List.mem_cons_self))
      -- Another one follows: this one ends nothing and that one opens nothing.
      have hend : toolEnd (((next :: run) ++ rest).head?.map fun next => next.1.role) = [] :=
        if_neg (not_not_intro hnext)
      have hopen : toolOpening (some "tool".toList) = [] := by decide
      rw [hparts, hend, hflat, hopen]
      simp only [List.flatMap_cons, List.append_assoc, List.cons_append, List.nil_append]

theorem clean_toolResponse (e : ChatMessage F × Str) (h : CleanMessage e) :
    Clean (toolResponse e) := by
  have hlines : toolResponse e = "<tool_response>".toList ++
      '\n' :: (trim e.2 ++ '\n' :: "</tool_response>".toList) := by
    unfold toolResponse
    rw [show "<tool_response>\n".toList = "<tool_response>".toList ++ ['\n'] by decide,
      List.append_assoc]
    rfl
  rw [hlines]
  exact clean_lines (by decide +kernel) (clean_lines h.content.trim (by decide +kernel))

theorem clean_toolResponses (run : List (ChatMessage F × Str)) (front : Str) (hfront : Clean front)
    (h : ∀ e ∈ run, CleanMessage e) :
    Clean (front ++ run.flatMap fun e => '\n' :: toolResponse e) := by
  induction run generalizing front with
  | nil => rwa [List.flatMap_nil, List.append_nil]
  | cons e run ih =>
      have hall := ih (front ++ '\n' :: toolResponse e)
        (clean_lines hfront (clean_toolResponse e (h e List.mem_cons_self)))
        (fun e' he' => h e' (List.mem_cons_of_mem e he'))
      simpa only [List.flatMap_cons, List.append_assoc, List.cons_append] using hall

theorem cons_intercalate (text : Str) (texts : List Str) :
    '\n' :: ['\n'].intercalate (text :: texts) = (text :: texts).flatMap ('\n' :: ·) := by
  induction texts generalizing text with
  | nil => simp
  | cons text' texts ih =>
      rw [List.intercalate_cons_cons, List.flatMap_cons, ← ih]
      simp

/-- The turn of a run of tool results. -/
theorem turn_run (entry : ChatMessage F × Str) (run : List (ChatMessage F × Str)) (rest : Str) :
    turn "user".toList (['\n'].intercalate ((entry :: run).map toolResponse)) ++ rest =
      imStart ++ ("user".toList ++ ((entry :: run).flatMap (fun e => '\n' :: toolResponse e) ++
        (imEnd ++ ('\n' :: rest)))) := by
  have hflat : (entry :: run).flatMap (fun e => '\n' :: toolResponse e) =
      '\n' :: ['\n'].intercalate ((entry :: run).map toolResponse) := by
    rw [List.map_cons, cons_intercalate, ← List.map_cons, List.flatMap_map]
  unfold turn
  rw [hflat]
  simp only [List.append_assoc, List.cons_append, List.nil_append]

/-- The body of such a turn is clean. -/
theorem clean_run (entry : ChatMessage F × Str) (run : List (ChatMessage F × Str))
    (h : ∀ e ∈ entry :: run, CleanMessage e) :
    Clean (['\n'].intercalate ((entry :: run).map toolResponse)) := by
  have hall := clean_toolResponses (entry :: run) [] (clean_of_not_mem [] List.not_mem_nil) h
  rw [List.nil_append, ← List.flatMap_map, List.map_cons, ← cons_intercalate] at hall
  exact hall.of_infix (List.suffix_cons _ _).isInfix

/-- The text of a message that is no tool result and leads nothing is a turn. -/
theorem renderMessage_turn (thinking : Bool) (previous : Str) (next : Option Str)
    (entry : ChatMessage F × Str) (text : Str) (htool : isTool entry = false)
    (hsystem : entry.1.role ≠ "system".toList) (hclean : CleanMessage entry)
    (h : renderMessage floats thinking (some previous) next entry.1 (trim entry.2) = .ok text) :
    ∃ t, text = t.text ∧ TurnFor floats [entry] t ∧ CleanTurn t := by
  rcases entry with ⟨message, content⟩
  have hnot : ¬message.role = "tool".toList := fun hrole => by
    rw [(isTool_iff (message, content)).mpr hrole] at htool
    exact nomatch htool
  have hfor : ∀ t, TurnFor floats [(message, content)] t ↔
      if message.role = "developer".toList then t = ⟨"system".toList, trim content⟩
      else if message.role = "user".toList then t = ⟨"user".toList, trim content⟩
      else message.role = "assistant".toList ∧ t.role = "assistant".toList ∧
        ∃ thinking, renderAssistant floats thinking message (trim content) = .ok t.text := by
    intro t
    unfold TurnFor
    dsimp only
    rw [if_neg hnot]
    exact and_iff_right rfl
  dsimp only at hsystem h
  rw [renderMessage, if_neg hsystem] at h
  -- A message of each role is a turn of its own; the developer speaks as the system.
  by_cases hdeveloper : message.role = "developer".toList
  · rw [if_pos hdeveloper, if_neg (by simp)] at h
    refine ⟨⟨"system".toList, trim content⟩, (Except.ok.inj h).symm, (hfor _).mpr ?_,
      (by decide : "system".toList ∈ turnRoles), hclean.content.trim⟩
    rw [if_pos hdeveloper]
  by_cases huser : message.role = "user".toList
  · rw [if_neg hdeveloper, if_pos huser] at h
    refine ⟨⟨"user".toList, trim content⟩, (Except.ok.inj h).symm, (hfor _).mpr ?_,
      (by decide : "user".toList ∈ turnRoles), hclean.content.trim⟩
    rw [if_neg hdeveloper, if_pos huser]
  rw [if_neg hdeveloper, if_neg huser] at h
  by_cases hassistant : message.role = "assistant".toList
  · rw [if_pos hassistant] at h
    rcases renderAssistant_turn floats thinking message (trim content) text hclean.content.trim
      hclean.reasoning hclean.calls h with ⟨body, hbody, hcleanBody⟩
    refine ⟨⟨"assistant".toList, body⟩, hbody, (hfor _).mpr ?_,
      (by decide : "assistant".toList ∈ turnRoles), hcleanBody⟩
    rw [if_neg hdeveloper, if_neg huser]
    exact ⟨hassistant, rfl, thinking, by rw [h, hbody]; rfl⟩
  · rw [if_neg hassistant, if_neg hnot] at h
    exact nomatch h

theorem turnFor_run (entry : ChatMessage F × Str) (run : List (ChatMessage F × Str))
    (htool : isTool entry = true) :
    TurnFor floats (entry :: run)
      ⟨"user".toList, ['\n'].intercalate ((entry :: run).map toolResponse)⟩ := by
  rcases entry with ⟨message, content⟩
  unfold TurnFor
  dsimp only
  rw [if_pos ((isTool_iff (message, content)).mp htool)]

/-- A run goes on as long as tool results follow. -/
theorem exists_run (rest : List (ChatMessage F × Str)) :
    ∃ run after, rest = run ++ after ∧ (∀ e ∈ run, isTool e = true) ∧
      ∀ e, after.head? = some e → isTool e = false := by
  refine ⟨rest.takeWhile isTool, rest.dropWhile isTool,
    List.takeWhile_append_dropWhile.symm, fun e he => List.mem_takeWhile_imp he, fun e he => ?_⟩
  have hnot := List.head?_dropWhile_not (p := isTool) rest
  rw [he] at hnot
  simpa using hnot

/-- The texts of messages after one that is no tool result, or of which the first is none, are
    turns, one for each piece. -/
theorem renderParts_turns (preserveThinking : Bool) (queryIndex index : Nat) (previous : Str)
    (entries : List (ChatMessage F × Str)) (parts : List Str)
    (hprevious : previous = "tool".toList → ∀ e, entries.head? = some e → isTool e = false)
    (hsystem : ∀ e ∈ entries, e.1.role ≠ "system".toList)
    (hclean : ∀ e ∈ entries, CleanMessage e)
    (h : renderParts floats preserveThinking queryIndex index (some previous) entries =
      .ok parts) :
    ∃ turns, parts.flatten = turns.flatMap Turn.text ∧
      List.Forall₂ (TurnFor floats) (pieces entries) turns ∧ ∀ t ∈ turns, CleanTurn t := by
  induction hn : entries.length using Nat.strongRecOn generalizing entries index previous parts with
  | ind n ih =>
      subst hn
      cases entries with
      | nil =>
          cases Except.ok.inj h
          exact ⟨[], rfl, .nil, fun t ht => absurd ht List.not_mem_nil⟩
      | cons entry rest =>
          cases htool : isTool entry with
          | false =>
              rcases renderParts_cons floats preserveThinking queryIndex index (some previous) entry
                rest parts h with ⟨text, more, htext, hmore, rfl⟩
              rcases renderMessage_turn floats _ previous _ entry text htool
                (hsystem entry List.mem_cons_self) (hclean entry List.mem_cons_self) htext with
                ⟨t, rfl, hfor, ht⟩
              have hrole : entry.1.role ≠ "tool".toList := fun hrole =>
                absurd ((isTool_iff entry).mpr hrole) (by rw [htool]; decide)
              rcases ih rest.length (Nat.lt_succ_self _) (index + 1) entry.1.role rest more
                (fun heq => absurd heq hrole)
                (fun e he => hsystem e (List.mem_cons_of_mem entry he))
                (fun e he => hclean e (List.mem_cons_of_mem entry he)) hmore rfl with
                ⟨turns, hflat, hfors, hturns⟩
              refine ⟨t :: turns, ?_, ?_, ?_⟩
              · rw [List.flatten_cons, List.flatMap_cons, hflat]
              · rw [pieces_cons entry rest htool]
                exact .cons hfor hfors
              · exact List.forall_mem_cons.mpr ⟨ht, hturns⟩
          | true =>
              rcases exists_run rest with ⟨run, after, rfl, hrun, hafter⟩
              have hall : ∀ e ∈ entry :: run, isTool e = true :=
                List.forall_mem_cons.mpr ⟨htool, hrun⟩
              rw [← List.cons_append] at h hsystem hclean ⊢
              rcases renderParts_run floats preserveThinking queryIndex index (some previous) entry
                run after parts hall hafter h with ⟨index', more, hmore, hparts⟩
              have hshorter : after.length < (entry :: (run ++ after)).length := by
                rw [List.length_cons, List.length_append]
                omega
              rcases ih _ hshorter index' "tool".toList after more (fun _ => hafter)
                (fun e he => hsystem e (List.mem_append_right _ he))
                (fun e he => hclean e (List.mem_append_right _ he)) hmore rfl with
                ⟨turns, hflat, hfors, hturns⟩
              -- The message before was no tool result, so the run opens a turn.
              have hopen : toolOpening (some previous) = imStart ++ "user".toList := by
                refine if_pos fun heq => ?_
                have hfalse := hprevious heq entry rfl
                rw [htool] at hfalse
                exact nomatch hfalse
              refine ⟨⟨"user".toList,
                ['\n'].intercalate ((entry :: run).map toolResponse)⟩ :: turns, ?_, ?_, ?_⟩
              · rw [List.flatMap_cons, Turn.text, turn_run, hparts, hopen, hflat, List.append_assoc]
              · rw [pieces_run entry run after hall hafter]
                exact .cons (turnFor_run floats entry run htool) hfors
              · have hrole : "user".toList ∈ turnRoles := by decide
                refine List.forall_mem_cons.mpr ⟨⟨hrole, ?_⟩, hturns⟩
                exact clean_run entry run fun e he => hclean e (List.mem_append_left _ he)

end Turns

/-! ## Counting marks -/

/-- A line without the mark adds nothing to the count. -/
theorem countOccurs_line (mark s t : Str) (hmark : mark ∈ marks) (hs : Free mark s) :
    countOccurs mark (s ++ '\n' :: t) = countOccurs mark t := by
  rcases mem_marks mark hmark with ⟨hbreak, -, tail, rfl⟩
  rw [countOccurs_free_append hs]
  · refine countOccurs_not_mem_append '<' _ ['\n'] t (by decide)
  · intro c hc htail
    cases Option.some.inj hc
    exact hbreak (List.mem_of_mem_tail htail)

/-- The end of a turn after a clean text. -/
theorem countOccurs_end (s t : Str) (hs : Clean s) :
    countOccurs imStart (s ++ (imEnd ++ '\n' :: t)) = countOccurs imStart t ∧
      countOccurs imEnd (s ++ (imEnd ++ '\n' :: t)) = countOccurs imEnd t + 1 := by
  have hmeet : ∀ (mark rest : Str), mark ∈ marks →
      ∀ c, (imEnd ++ rest).head? = some c → c ∉ mark.tail := by
    intro mark rest hmark c hc
    cases Option.some.inj hc
    exact (mem_marks mark hmark).2.1
  constructor
  · have hfree : Free imStart (s ++ imEnd) := by
      have hcleared := hmeet imStart [] (by decide)
      rw [List.append_nil] at hcleared
      exact free_append (hs imStart (by decide)) (by decide) hcleared
    rw [← List.append_assoc]
    exact countOccurs_line imStart _ t (by decide) hfree
  · rw [countOccurs_free_append (hs imEnd (by decide)) (hmeet imEnd _ (by decide)),
      countOccurs_tag (by decide), ← List.nil_append ('\n' :: t),
      countOccurs_line imEnd [] t (by decide) (by decide)]

/-- A turn has each of the two marks once. -/
theorem countOccurs_turn (t : Turn) (ht : CleanTurn t) (rest mark : Str) (hmark : mark ∈ marks) :
    countOccurs mark (t.text ++ rest) = countOccurs mark rest + 1 := by
  have hrole : Free imStart t.role ∧ Free imEnd (imStart ++ t.role) := by
    have hmem := ht.1
    simp only [turnRoles, List.mem_cons, List.not_mem_nil, or_false] at hmem
    rcases hmem with hrole | hrole | hrole <;> rw [hrole] <;> decide
  have htext : t.text ++ rest =
      imStart ++ (t.role ++ '\n' :: (t.body ++ (imEnd ++ '\n' :: rest))) := by
    unfold Turn.text turn
    simp only [List.append_assoc, List.cons_append, List.nil_append]
  rcases countOccurs_end t.body rest ht.2 with ⟨hstart, hend⟩
  rw [htext]
  simp only [marks, List.mem_cons, List.not_mem_nil, or_false] at hmark
  rcases hmark with rfl | rfl
  · rw [countOccurs_tag (by decide), countOccurs_line imStart _ _ (by decide) hrole.1, hstart]
  · rw [← List.append_assoc, countOccurs_line imEnd _ _ (by decide) hrole.2, hend]

theorem countOccurs_turns (turns : List Turn) (hturns : ∀ t ∈ turns, CleanTurn t) (rest mark : Str)
    (hmark : mark ∈ marks) :
    countOccurs mark (turns.flatMap Turn.text ++ rest) =
      countOccurs mark rest + turns.length := by
  induction turns with
  | nil => rfl
  | cons t turns ih =>
      rw [List.flatMap_cons, List.append_assoc,
        countOccurs_turn t (hturns t List.mem_cons_self) _ mark hmark,
        ih fun t' ht' => hturns t' (List.mem_cons_of_mem t ht'), List.length_cons, Nat.add_assoc]

theorem countOccurs_generationPrompt (enableThinking : Bool) :
    countOccurs imStart (generationPrompt enableThinking) = 1 ∧
      countOccurs imEnd (generationPrompt enableThinking) = 0 := by
  cases enableThinking <;> decide

/-! ## The frame -/

section Frame

variable {F : Type} (floats : Floats F)

/-- The leading system turn, if there is one. -/
def leadingTurns (tools : List (Value F)) (entries : List (ChatMessage F × Str)) : List Turn :=
  match entries with
  | [] => []
  | first :: _ =>
      let system := if isSystem first.1.role then trim first.2 else []
      if tools ≠ [] then [⟨"system".toList, toolsBody floats tools system⟩]
      else if isSystem first.1.role then [⟨"system".toList, system⟩] else []

/-- The messages without a leading system or developer message. -/
def conversation (entries : List (ChatMessage F × Str)) : List (ChatMessage F × Str) :=
  match entries with
  | [] => []
  | first :: rest => if isSystem first.1.role then rest else first :: rest

/-- A prompt with its frame: the closed turns of the messages in their order, and the open turn.
    The two marks are nowhere else. -/
def Framed (tools : List (Value F)) (enableThinking : Bool) (entries : List (ChatMessage F × Str))
    (output : Str) : Prop :=
  ∃ turns : List Turn, output = turns.flatMap Turn.text ++ generationPrompt enableThinking ∧
    (∀ t ∈ turns, CleanTurn t) ∧
    countOccurs imStart output = turns.length + 1 ∧ countOccurs imEnd output = turns.length ∧
    ∃ rest, turns = leadingTurns floats tools entries ++ rest ∧
      List.Forall₂ (TurnFor floats) (pieces (conversation entries)) rest

theorem renderSystem_eq (tools : List (Value F)) (first : ChatMessage F × Str)
    (rest : List (ChatMessage F × Str)) :
    renderSystem floats tools first =
      (leadingTurns floats tools (first :: rest)).flatMap Turn.text := by
  unfold renderSystem leadingTurns
  dsimp only
  generalize (if isSystem first.1.role = true then trim first.2 else []) = system
  by_cases htools : tools ≠ []
  · rw [if_pos htools, if_pos htools, List.flatMap_singleton]
    rfl
  · rw [if_neg htools, if_neg htools]
    by_cases hsystem : isSystem first.1.role = true
    · rw [if_pos hsystem, if_pos hsystem, List.flatMap_singleton]
      rfl
    · rw [if_neg hsystem, if_neg hsystem, List.flatMap_nil]

theorem clean_leadingTurns (tools : List (Value F)) (entries : List (ChatMessage F × Str))
    (hclean : ∀ e ∈ entries, CleanMessage e) :
    ∀ t ∈ leadingTurns floats tools entries, CleanTurn t := by
  cases entries with
  | nil => exact fun t ht => absurd ht List.not_mem_nil
  | cons first rest =>
      have hsystem : Clean (if isSystem first.1.role then trim first.2 else []) := by
        split_ifs
        · exact (hclean first List.mem_cons_self).content.trim
        · exact clean_of_not_mem [] List.not_mem_nil
      have hrole : "system".toList ∈ turnRoles := by decide
      unfold leadingTurns
      dsimp only
      generalize (if isSystem first.1.role = true then trim first.2 else []) = system at hsystem
      intro t ht
      split_ifs at ht with htools hfirst
      · cases List.mem_singleton.mp ht
        exact ⟨hrole, clean_toolsBody floats tools _ hsystem⟩
      · cases List.mem_singleton.mp ht
        exact ⟨hrole, hsystem⟩
      · exact absurd ht List.not_mem_nil

/-- Before a message that does not lead and opens nothing, it makes no difference whether there
    is a message before. -/
theorem renderParts_first (preserveThinking : Bool) (queryIndex index : Nat)
    (first : ChatMessage F × Str) (rest : List (ChatMessage F × Str))
    (hsystem : isSystem first.1.role = false) (htool : isTool first = false) :
    renderParts floats preserveThinking queryIndex index none (first :: rest) =
      renderParts floats preserveThinking queryIndex index (some "user".toList)
        (first :: rest) := by
  have hdeveloper : first.1.role ≠ "developer".toList := fun hrole => by
    rw [hrole] at hsystem
    exact absurd hsystem (by decide)
  have hother : first.1.role ≠ "tool".toList := fun hrole =>
    absurd ((isTool_iff first).mpr hrole) (by rw [htool]; decide)
  have hsame : ∀ (thinking : Bool) (next : Option Str) (content : Str),
      renderMessage floats thinking none next first.1 content =
        renderMessage floats thinking (some "user".toList) next first.1 content := by
    intro thinking next content
    unfold renderMessage
    rw [if_neg hdeveloper, if_neg hdeveloper, if_neg hother, if_neg hother]
  rw [renderParts, renderParts, hsame]

/-- The texts of all messages are turns, if the first is not the result of a tool. -/
theorem renderParts_conversation (preserveThinking : Bool) (queryIndex : Nat)
    (first : ChatMessage F × Str) (rest : List (ChatMessage F × Str)) (parts : List Str)
    (htool : isTool first = false) (hsystem : ∀ e ∈ rest, e.1.role ≠ "system".toList)
    (hclean : ∀ e ∈ first :: rest, CleanMessage e)
    (h : renderParts floats preserveThinking queryIndex 0 none (first :: rest) = .ok parts) :
    ∃ turns, parts.flatten = turns.flatMap Turn.text ∧
      List.Forall₂ (TurnFor floats) (pieces (conversation (first :: rest))) turns ∧
      ∀ t ∈ turns, CleanTurn t := by
  unfold conversation
  dsimp only
  cases hleads : isSystem first.1.role with
  | true =>
      rw [if_pos rfl]
      rcases renderParts_cons floats preserveThinking queryIndex 0 none first rest parts h with
        ⟨text, more, htext, hmore, rfl⟩
      -- The text of the leading message is in the system turn.
      have hnone : text = [] := by
        unfold isSystem at hleads
        rw [Bool.or_eq_true, beq_iff_eq, beq_iff_eq] at hleads
        unfold renderMessage at htext
        rcases hleads with hrole | hrole
        · rw [if_pos hrole] at htext
          exact (Except.ok.inj htext).symm
        · rw [hrole, if_neg (by decide), if_pos rfl, if_pos rfl] at htext
          exact (Except.ok.inj htext).symm
      rw [hnone, List.flatten_cons, List.nil_append]
      have hrole : first.1.role ≠ "tool".toList := fun hrole =>
        absurd ((isTool_iff first).mpr hrole) (by rw [htool]; decide)
      exact renderParts_turns floats preserveThinking queryIndex 1 first.1.role rest more
        (fun heq => absurd heq hrole) hsystem
        (fun e he => hclean e (List.mem_cons_of_mem first he)) hmore
  | false =>
      rw [if_neg Bool.false_ne_true]
      rw [renderParts_first floats preserveThinking queryIndex 0 first rest hleads htool] at h
      refine renderParts_turns floats preserveThinking queryIndex 0 "user".toList (first :: rest)
        parts (fun heq => absurd heq (by decide)) ?_ hclean h
      refine List.forall_mem_cons.mpr ⟨fun hrole => ?_, hsystem⟩
      rw [hrole] at hleads
      exact absurd hleads (by decide)

/-- If the first message is the result of a tool, the texts begin with a run that is closed but
    not opened. -/
theorem renderParts_unopened (preserveThinking : Bool) (queryIndex : Nat)
    (first : ChatMessage F × Str) (rest : List (ChatMessage F × Str)) (parts : List Str)
    (htool : isTool first = true) (hsystem : ∀ e ∈ rest, e.1.role ≠ "system".toList)
    (hclean : ∀ e ∈ first :: rest, CleanMessage e)
    (h : renderParts floats preserveThinking queryIndex 0 none (first :: rest) = .ok parts) :
    ∃ (responses : Str) (turns : List Turn), parts.flatten =
        responses ++ (imEnd ++ ('\n' :: turns.flatMap Turn.text)) ∧
      Clean responses ∧ ∀ t ∈ turns, CleanTurn t := by
  rcases exists_run rest with ⟨run, after, rfl, hrun, hafter⟩
  have hall : ∀ e ∈ first :: run, isTool e = true := List.forall_mem_cons.mpr ⟨htool, hrun⟩
  rw [← List.cons_append] at h hclean
  rcases renderParts_run floats preserveThinking queryIndex 0 none first run after parts hall hafter
    h with ⟨index, more, hmore, hparts⟩
  rcases renderParts_turns floats preserveThinking queryIndex index "tool".toList after more
    (fun _ => hafter) (fun e he => hsystem e (List.mem_append_right run he))
    (fun e he => hclean e (List.mem_append_right _ he)) hmore with ⟨turns, hflat, -, hturns⟩
  refine ⟨(first :: run).flatMap fun e => '\n' :: toolResponse e, turns, ?_, ?_, hturns⟩
  · rw [hparts, hflat]
    rfl
  · exact clean_toolResponses (first :: run) [] (clean_of_not_mem [] List.not_mem_nil)
      fun e he => hclean e (List.mem_append_left _ he)

/-- A prompt whose texts have no marks has its frame exactly if the first message is not the
    result of a tool. -/
theorem renderQwenChat_framed_iff (entries : List (ChatMessage F × Str))
    (hrendered : Rendered entries) (tools : List (Value F))
    (enableThinking preserveThinking : Bool) (output : Str)
    (houtput : renderQwenChat floats (entries.map Prod.fst) tools enableThinking preserveThinking =
      .ok output)
    (hclean : ∀ e ∈ entries, CleanMessage e) :
    Framed floats tools enableThinking entries output ↔
      ∀ first, entries.head? = some first → first.1.role ≠ "tool".toList := by
  rcases renderQwenChat_ok floats entries hrendered tools enableThinking preserveThinking output
    houtput with ⟨first, rest, queryIndex, parts, rfl, hsystem, -, hparts, hprompt⟩
  have hleading := clean_leadingTurns floats tools (first :: rest) hclean
  rw [renderSystem_eq floats tools first rest] at hprompt
  constructor
  · rintro ⟨turns, -, -, hstarts, hends, -⟩ first' hfirst' hrole
    cases Option.some.inj hfirst'
    have htool : isTool first = true := (isTool_iff first).mpr hrole
    rcases renderParts_unopened floats preserveThinking queryIndex first rest parts htool hsystem
      hclean hparts with ⟨responses, turns', hflat, hresponses, hturns'⟩
    -- The first run is closed but not opened, so that there are as many ends as starts.
    rcases countOccurs_generationPrompt enableThinking with ⟨hstart, hend⟩
    rcases countOccurs_end responses (turns'.flatMap Turn.text ++ generationPrompt enableThinking)
      hresponses with ⟨hstart', hend'⟩
    rw [hflat] at hprompt
    simp only [List.append_assoc, List.cons_append] at hprompt
    rw [hprompt, countOccurs_turns _ hleading _ imStart (by decide), hstart',
      countOccurs_turns turns' hturns' _ imStart (by decide), hstart] at hstarts
    rw [hprompt, countOccurs_turns _ hleading _ imEnd (by decide), hend',
      countOccurs_turns turns' hturns' _ imEnd (by decide), hend] at hends
    omega
  · intro hfirst
    have htool : isTool first = false := by
      have hrole := hfirst first rfl
      rw [← Bool.not_eq_true, isTool_iff]
      exact hrole
    rcases renderParts_conversation floats preserveThinking queryIndex first rest parts htool
      hsystem hclean hparts with ⟨turns, hflat, hfors, hturns⟩
    have hall : ∀ t ∈ leadingTurns floats tools (first :: rest) ++ turns, CleanTurn t := by
      intro t ht
      rcases List.mem_append.mp ht with ht | ht
      · exact hleading t ht
      · exact hturns t ht
    have htext : output = (leadingTurns floats tools (first :: rest) ++ turns).flatMap Turn.text ++
        generationPrompt enableThinking := by
      rw [hprompt, hflat, List.flatMap_append, List.append_assoc]
    rcases countOccurs_generationPrompt enableThinking with ⟨hstart, hend⟩
    refine ⟨_, htext, hall, ?_, ?_, turns, rfl, hfors⟩
    · rw [htext, countOccurs_turns _ hall _ imStart (by decide), hstart, Nat.add_comm]
    · rw [htext, countOccurs_turns _ hall _ imEnd (by decide), hend, Nat.zero_add]

/-- A message with a text and nothing else. -/
def plainEntry (role content : String) : ChatMessage Empty × Str :=
  ({ role := role.toList, content := .string content.toList, reasoningContent := none
     toolCalls := none }, content.toList)

theorem plainEntries_rendered (texts : List (String × String)) :
    Rendered (texts.map fun text => plainEntry text.1 text.2) := by
  intro entry hentry
  rcases List.mem_map.mp hentry with ⟨text, -, rfl⟩
  rfl

theorem plainEntry_clean (role content : String) (h : Clean content.toList) :
    CleanMessage (plainEntry role content) where
  content := h
  reasoning := fun _ h => nomatch h
  calls := fun _ h => absurd h List.not_mem_nil

/-- A question, an answer, and two results of tools. -/
def closedRun : List (ChatMessage Empty × Str) :=
  [("user", "a"), ("assistant", "b"), ("tool", "c"), ("tool", "d")].map fun text =>
    plainEntry text.1 text.2

/-- The results share one turn. -/
theorem renderQwenChat_run_framed :
    Framed noFloats [] true closedRun
      ("<|im_start|>user\na<|im_end|>\n<|im_start|>assistant\n<think>\n\n</think>\n\nb<|im_end|>\n" ++
        "<|im_start|>user\n<tool_response>\nc\n</tool_response>\n<tool_response>\nd\n" ++
        "</tool_response><|im_end|>\n<|im_start|>assistant\n<think>\n").toList := by
  refine (renderQwenChat_framed_iff noFloats closedRun (plainEntries_rendered _) [] true false _
    (by decide +kernel) ?_).mpr ?_
  · intro e he
    simp only [closedRun, List.map_cons, List.map_nil, List.mem_cons, List.not_mem_nil,
      or_false] at he
    rcases he with rfl | rfl | rfl | rfl <;> exact plainEntry_clean _ _ (by decide)
  · intro first hfirst
    cases Option.some.inj hfirst
    decide

/-- The result of a tool before a question. -/
def unopenedRun : List (ChatMessage Empty × Str) :=
  [("tool", "c"), ("user", "a")].map fun text => plainEntry text.1 text.2

/-- The prompt of a run that is closed but not opened. -/
def unopenedPrompt : Str :=
  ("\n<tool_response>\nc\n</tool_response><|im_end|>\n<|im_start|>user\na<|im_end|>\n" ++
    "<|im_start|>assistant\n<think>\n").toList

/-- A run of tool results at the beginning is closed but not opened. -/
theorem renderQwenChat_unopened_run :
    Rendered unopenedRun ∧ (∀ e ∈ unopenedRun, CleanMessage e) ∧
      renderQwenChat noFloats (unopenedRun.map Prod.fst) [] true false = .ok unopenedPrompt ∧
      ¬Framed noFloats [] true unopenedRun unopenedPrompt := by
  refine ⟨plainEntries_rendered _, ?_, by decide +kernel, ?_⟩
  · intro e he
    simp only [unopenedRun, List.map_cons, List.map_nil, List.mem_cons, List.not_mem_nil,
      or_false] at he
    rcases he with rfl | rfl <;> exact plainEntry_clean _ _ (by decide)
  · rintro ⟨turns, -, -, hstarts, hends, -⟩
    have hmarks :
        countOccurs imStart unopenedPrompt = 2 ∧ countOccurs imEnd unopenedPrompt = 2 := by
      decide +kernel
    omega

end Frame

end Chat

end QrtEngine
