import Mathlib.Data.List.DropRight
import QrtEngine.Server.ChatTemplate
import QrtEngine.Server.ParseSlices

/-!
# Tool Calls There and Back

The template writes the calls of an earlier answer into the prompt, and the parser reads the
calls of a new answer from the model's text. The two were written apart, but the parser reads
what the template writes.

Every mark the template writes stands on a line of its own, or opens one. So a mark that a text
could be confused with would have to be on one line of it, and the lines are names without
angle brackets, JSON without them, and strings of which it is asked.

The arguments come back as a map with the same keys. A value that is not a string is written as
JSON, and comes back unchanged. A string is written as it is, and the parser takes every value
for JSON that is JSON. So a string comes back as what its own text says, and as itself only if
it is no JSON text.

## Main definitions

* `PlainName`: A name or a key that markup can hold.
* `Writable`: An argument that markup can hold.
* `WellFormed`: A call that markup can hold.
* `reread`: What an argument comes back as.

## Theorems

* `parseToolCalls_callText`: The calls of a text the template wrote.
* `renderQwenChat_calls`: The body of an earlier answer, read back.
* `renderQwenChat_parse`: What is the same after the round trip.
* `string_survives_iff`: Which strings come back as themselves.
-/

namespace QrtEngine

namespace Chat

open ByteText Text Json

/-! ## White space -/

theorem trimStart_blank_append (space s : Str) (h : ∀ c ∈ space, isWhitespace c = true) :
    trimStart (space ++ s) = trimStart s := List.dropWhile_append_of_pos h

theorem trimStart_cons (c : Char) (s : Str) (h : isWhitespace c = false) :
    trimStart (c :: s) = c :: s := List.dropWhile_cons_of_neg (by rw [h]; exact Bool.false_ne_true)

theorem trimEnd_append_blank (s space : Str) (h : ∀ c ∈ space, isWhitespace c = true) :
    trimEnd (s ++ space) = trimEnd s := by
  unfold trimEnd
  rw [List.reverse_append, List.dropWhile_append_of_pos fun c hc => h c (List.mem_reverse.mp hc)]

theorem trimEnd_concat (s : Str) (c : Char) (h : isWhitespace c = false) :
    trimEnd (s ++ [c]) = s ++ [c] :=
  List.rdropWhile_concat_neg isWhitespace s c (by rw [h]; exact Bool.false_ne_true)

/-- A text with nothing to trim at its start has nothing there without its end either. -/
theorem trimStart_trimEnd (s : Str) (h : trimStart s = s) : trimStart (trimEnd s) = trimEnd s := by
  have hpre : trimEnd s <+: s := List.rdropWhile_prefix isWhitespace s
  cases hend : trimEnd s with
  | nil => rfl
  | cons c rest =>
      refine trimStart_cons c rest ?_
      rw [hend] at hpre
      rcases hpre with ⟨more, rfl⟩
      have hhead := List.head?_dropWhile_not (p := isWhitespace) ((c :: rest) ++ more)
      rw [show ((c :: rest) ++ more).dropWhile isWhitespace = _ from h] at hhead
      simpa using hhead

theorem trim_trim (s : Str) : trim (trim s) = trim s := by
  have hstart : trimStart (trimStart s) = trimStart s := List.dropWhile_idempotent isWhitespace _
  unfold trim
  rw [trimStart_trimEnd _ hstart]
  exact List.rdropWhile_idempotent isWhitespace _

theorem trimEnd_of_trim (s : Str) (h : trim s = s) : trimEnd s = s := by
  conv_lhs => rw [← h]
  conv_rhs => rw [← h]
  exact List.rdropWhile_idempotent isWhitespace _

theorem isWhitespace_break : ∀ c ∈ ['\n'], isWhitespace c = true :=
  forall_mem_of_all _ _ (by decide)

/-! ## The parser on marks -/

section Marks

variable {Value : Type} (serde : Serde Value)

theorem stripBreaks_lines (s : Str) : stripBreaks ('\n' :: (s ++ ['\n'])) = s := by
  have hfront : stripPrefix ['\n'] ('\n' :: (s ++ ['\n'])) = some (s ++ ['\n']) := by
    unfold stripPrefix
    rw [if_pos (by simp)]
    rfl
  have hback : stripSuffix ['\n'] (s ++ ['\n']) = some s := by
    unfold stripSuffix
    rw [if_pos (List.isSuffixOf_iff_suffix.mpr (List.suffix_append s _))]
    simp
  unfold stripBreaks
  rw [hfront, Option.getD_some]
  dsimp only
  rw [hback, Option.getD_some]

/-- What the parser does with a parameter element. -/
theorem parseParameters_element (gap key raw rest : Str) (arguments : Value)
    (hgap : Free "<parameter=".toList gap) (hkey : '>' ∉ key) (hne : trim key ≠ [])
    (hraw : Free "</parameter>".toList raw) :
    parseParameters serde (gap ++ ("<parameter=".toList ++ (key ++ (['>'] ++ (raw ++
        ("</parameter>".toList ++ rest)))))) arguments =
      parseParameters serde rest (serde.insert arguments (trim key)
        ((serde.fromStr (stripBreaks raw)).getD (serde.string (stripBreaks raw)))) := by
  have hstart := find_tag (v := key ++ (['>'] ++ (raw ++ ("</parameter>".toList ++ rest))))
    (by decide) hgap
  have hkeyEnd := find_tag (v := raw ++ ("</parameter>".toList ++ rest))
    (by decide : IsTag ['>']) (free_of_not_mem '>' [] key hkey)
  have hvalueEnd := find_tag (v := rest) (by decide) hraw
  conv_lhs => unfold parseParameters
  split
  · rename_i hnone
    exact absurd (hnone.symm.trans hstart) (by simp)
  · rename_i start hfound
    rw [hstart, Option.some.injEq] at hfound
    subst hfound
    dsimp only
    rw [← byteLen_append, ← List.append_assoc gap, dropBytes_append, hkeyEnd]
    dsimp only
    -- The mark behind the name is one byte wide.
    have hwidth : byteLen ['>'] = 1 := by decide
    rw [takeBytes_append, if_neg hne, ← hwidth, ← byteLen_append, ← List.append_assoc key,
      dropBytes_append, hvalueEnd]
    dsimp only
    rw [takeBytes_append, ← byteLen_append, ← List.append_assoc raw, dropBytes_append]

/-- Without a parameter element the arguments are those read before. -/
theorem parseParameters_free (rest : Str) (arguments : Value)
    (h : Free "<parameter=".toList rest) :
    parseParameters serde rest arguments = some arguments := by
  have hnone := find_eq_none_iff_free.mpr h
  unfold parseParameters
  split
  · rfl
  · rename_i start hfound
    exact absurd (hfound.symm.trans hnone) (by simp)

/-- The white space around a function element is taken away. -/
theorem trim_function (name parameters : Str) :
    trim ('\n' :: ("<function=".toList ++ (name ++ (['>'] ++ (parameters ++
        "</function>\n".toList))))) =
      "<function=".toList ++ (name ++ (['>'] ++ (parameters ++ "</function>".toList))) := by
  have hlast : "<function=".toList ++ (name ++ (['>'] ++ (parameters ++
      "</function>\n".toList))) =
      (("<function=".toList ++ (name ++ (['>'] ++ (parameters ++ "</function".toList)))) ++
        ['>']) ++ ['\n'] := by
    simp
  unfold trim
  rw [← List.singleton_append, trimStart_blank_append _ _ isWhitespace_break, hlast,
    show "<function=".toList = '<' :: "function=".toList from rfl, List.cons_append,
    List.cons_append, List.cons_append, trimStart_cons _ _ (by decide), ← List.cons_append,
    trimEnd_append_blank _ _ isWhitespace_break, ← List.cons_append,
    trimEnd_concat _ _ (by decide)]
  simp

/-- What the parser does with a function element. -/
theorem parseFunction_element (name parameters : Str) (hname : '>' ∉ name) (hne : trim name ≠ []) :
    parseFunction serde ('\n' :: ("<function=".toList ++ (name ++ (['>'] ++ (parameters ++
        "</function>\n".toList))))) =
      (parseParameters serde parameters serde.emptyObject).bind fun arguments =>
        (serde.toString arguments).map fun encoded =>
          { name := trim name, arguments := encoded } := by
  have hstart : find "<function=".toList ("<function=".toList ++ (name ++ (['>'] ++ (parameters ++
      "</function>".toList)))) = some 0 :=
    find_tag (u := []) (by decide) (free_of_not_mem _ _ [] List.not_mem_nil)
  have hnameEnd := find_tag (v := parameters ++ "</function>".toList)
    (by decide : IsTag ['>']) (free_of_not_mem '>' [] name hname)
  have hclose := rfind_suffix ("<function=".toList ++ (name ++ (['>'] ++ parameters)))
    "</function>".toList
  have hwidth : byteLen ['>'] = 1 := by decide
  unfold parseFunction
  rw [trim_function]
  dsimp only
  rw [if_neg (by simp), hstart]
  simp only [bind, Option.bind_some, Nat.zero_add]
  rw [dropBytes_append, hnameEnd]
  simp only [Option.map_some, Option.bind_some, Nat.add_sub_cancel, takeBytes_append]
  rw [if_neg hne]
  simp only [List.append_assoc] at hclose
  rw [hclose]
  simp only [Option.bind_some, byteLen_append, hwidth]
  rw [if_neg (by omega)]
  -- The parameters are what lies between the name and the closing mark.
  have hafter : dropBytes (byteLen name + byteLen "<function=".toList + 1)
      ("<function=".toList ++ (name ++ (['>'] ++ (parameters ++ "</function>".toList)))) =
      parameters ++ "</function>".toList := by
    have hdrop := dropBytes_append ("<function=".toList ++ (name ++ ['>']))
      (parameters ++ "</function>".toList)
    simp only [byteLen_append, hwidth, List.append_assoc] at hdrop
    rw [show byteLen name + byteLen "<function=".toList + 1 =
      byteLen "<function=".toList + (byteLen name + 1) by omega, hdrop]
  rw [hafter, show byteLen "<function=".toList + (byteLen name + (1 + byteLen parameters)) -
      (byteLen name + byteLen "<function=".toList + 1) = byteLen parameters by omega,
    takeBytes_append]
  cases parseParameters serde parameters serde.emptyObject with
  | none => rfl
  | some arguments =>
      simp only [Option.bind_some]
      cases serde.toString arguments with
      | none => rfl
      | some encoded => rfl

/-- What the parser does with the element of a call that is not the last thing in the text. -/
theorem parseToolCalls_element (requestId space body rest : Str) (calls : List OutputToolCall)
    (function : OutputFunctionCall) (hspace : ∀ c ∈ space, isWhitespace c = true)
    (hbody : Free toolCallClose body) (hfunction : parseFunction serde body = some function)
    (hrest : trim rest = [] ∨ toolCallOpen <+: trimStart rest) :
    parseToolCalls serde requestId
        (space ++ (toolCallOpen ++ (body ++ (toolCallClose ++ rest)))) calls =
      parseToolCalls serde requestId rest (calls ++
        [{ id := callId requestId calls.length, kind := "function".toList
           function := function }]) := by
  have hopen := find_tag (v := body ++ (toolCallClose ++ rest)) toolCallOpen_isTag
    (free_of_not_mem '<' _ space (not_mem_of_blank space hspace))
  have hclose := find_tag (v := rest) (by decide) hbody
  conv_lhs => unfold parseToolCalls
  split
  · rename_i hnone
    exact absurd (hnone.symm.trans hopen) (by simp)
  · rename_i start hfound
    rw [hopen, Option.some.injEq] at hfound
    subst hfound
    dsimp only
    rw [← byteLen_append, ← List.append_assoc space, dropBytes_append, hclose]
    dsimp only
    -- What follows is blank or another call, so the call is not malformed.
    rw [takeBytes_append, parseToolCall, hfunction, Option.map_some]
    dsimp only
    rw [← byteLen_append, ← List.append_assoc body, dropBytes_append, if_neg ?_]
    · rfl
    · rintro ⟨hblank, hopen⟩
      rcases hrest with hrest | hrest
      · exact hblank hrest
      · exact hopen (List.isPrefixOf_iff_prefix.mpr hrest)

end Marks

/-! ## The template's calls -/

section Calls

variable {F : Type} (floats : Floats F)

/-- A name or a key that markup can hold. -/
def PlainName (name : Str) : Prop := name ≠ [] ∧ trim name = name ∧ '<' ∉ name ∧ '>' ∉ name

instance decidablePlainName (name : Str) : Decidable (PlainName name) :=
  inferInstanceAs (Decidable (name ≠ [] ∧ trim name = name ∧ '<' ∉ name ∧ '>' ∉ name))

/-- An argument that markup can hold: a string without the marks that would end it, or a value
    whose numbers are integers. -/
def Writable (v : Value F) : Prop :=
  match v with
  | .string s => Free "</parameter>".toList s ∧ Free toolCallClose s
  | other => other.Integral

/-- A call with its arguments that markup can hold. -/
structure WellFormed (call : InputToolCall F) (entries : List (Str × Value F)) : Prop where
  kind : call.kind = "function".toList
  name : PlainName call.function.name
  arguments : call.function.arguments = .object entries
  ordered : (Value.object entries).Ordered
  keys : ∀ e ∈ entries, PlainName e.1
  values : ∀ e ∈ entries, Writable e.2

/-- What an argument comes back as: a string as what its text says, if that is JSON. -/
def reread (v : Value F) : Value F :=
  match v with
  | .string s => (fromStr floats s).getD (.string s)
  | other => other

/-- What the arguments come back as. -/
def rereadEntries (entries : List (Str × Value F)) : List (Str × Value F) :=
  entries.map fun e => (e.1, reread floats e.2)

theorem not_mem_jinjaTojson (v : Value F) : '<' ∉ jinjaTojson floats v :=
  fun h => absurd (jinjaTojson_plain floats v '<' h) (by decide)

theorem argumentText_read (v : Value F) (hv : Writable v) (hordered : v.Ordered) :
    (fromStr floats (argumentText floats v)).getD (.string (argumentText floats v)) =
      reread floats v := by
  cases v with
  | string s => rfl
  | _ =>
      rw [show argumentText floats _ = jinjaTojson floats _ from rfl,
        fromStr_jinjaTojson floats _ hv hordered]
      rfl

theorem argumentText_free (v : Value F) (hv : Writable v) :
    Free "</parameter>".toList (argumentText floats v) ∧
      Free toolCallClose (argumentText floats v) := by
  cases v with
  | string s => exact hv
  | _ => exact ⟨free_of_not_mem '<' _ _ (not_mem_jinjaTojson floats _),
      free_of_not_mem '<' _ _ (not_mem_jinjaTojson floats _)⟩

/-- The parameters come back in their order. -/
theorem parseParameters_render (entries done : List (Str × Value F))
    (hkeys : ∀ e ∈ entries, PlainName e.1) (hvalues : ∀ e ∈ entries, Writable e.2)
    (hordered : ∀ e ∈ entries, e.2.Ordered) :
    parseParameters (serdeJson floats) ('\n' :: entries.flatMap (renderParameter floats))
        (.object done) =
      some (.object ((rereadEntries floats entries).foldl
        (fun map entry => insertEntry entry.1 entry.2 map) done)) := by
  induction entries generalizing done with
  | nil =>
      refine parseParameters_free (serdeJson floats) ['\n'] (.object done) ?_
      exact free_of_not_mem '<' _ _ (by decide)
  | cons e entries ih =>
      rcases hkeys e List.mem_cons_self with ⟨hne, htrim, -, hclose⟩
      have hfree := (argumentText_free floats e.2 (hvalues e List.mem_cons_self)).1
      have hraw : Free "</parameter>".toList ('\n' :: (argumentText floats e.2 ++ ['\n'])) :=
        free_append_cons (s := []) '\n' (by decide) (by decide)
          (free_append_cons '\n' (by decide) hfree (by decide))
      have hstep := parseParameters_element (serdeJson floats) ['\n'] e.1
        ('\n' :: (argumentText floats e.2 ++ ['\n']))
        ('\n' :: entries.flatMap (renderParameter floats)) (.object done) (by decide) hclose
        (by rwa [htrim]) hraw
      rw [stripBreaks_lines, htrim, show (serdeJson floats).fromStr = fromStr floats from rfl,
        show (serdeJson floats).string = Value.string from rfl,
        argumentText_read floats e.2 (hvalues e List.mem_cons_self)
          (hordered e List.mem_cons_self)] at hstep
      -- The first parameter is an element with a blank before it, and the rest follows.
      have htext : '\n' :: (e :: entries).flatMap (renderParameter floats) =
          ['\n'] ++ ("<parameter=".toList ++ (e.1 ++ (['>'] ++
            (('\n' :: (argumentText floats e.2 ++ ['\n'])) ++ ("</parameter>".toList ++
              ('\n' :: entries.flatMap (renderParameter floats))))))) := by
        rw [List.flatMap_cons, renderParameter_append]
        simp only [List.append_assoc, List.cons_append, List.nil_append]
      rw [htext, hstep]
      exact ih _ (fun e' he' => hkeys e' (List.mem_cons_of_mem e he'))
        (fun e' he' => hvalues e' (List.mem_cons_of_mem e he'))
        (fun e' he' => hordered e' (List.mem_cons_of_mem e he'))

/-- What stands between the marks of a call. -/
def callBody (name : Str) (entries : List (Str × Value F)) : Str :=
  '\n' :: ("<function=".toList ++ (name ++ (['>'] ++
    (('\n' :: entries.flatMap (renderParameter floats)) ++ "</function>\n".toList))))

theorem callText_eq (name : Str) (entries : List (Str × Value F)) :
    callText floats name entries = toolCallOpen ++ (callBody floats name entries ++
      toolCallClose) := by
  unfold callText callBody
  rw [show "<tool_call>\n<function=".toList =
      toolCallOpen ++ ('\n' :: "<function=".toList) from rfl,
    show ">\n".toList = ['>'] ++ ['\n'] from rfl,
    show "</function>\n</tool_call>".toList = "</function>\n".toList ++ toolCallClose from rfl]
  simp only [List.append_assoc, List.cons_append, List.nil_append]

/-- No mark in the body would end the call. -/
theorem callBody_free (name : Str) (entries : List (Str × Value F)) (hname : PlainName name)
    (hkeys : ∀ e ∈ entries, PlainName e.1) (hvalues : ∀ e ∈ entries, Writable e.2) :
    Free toolCallClose (callBody floats name entries) := by
  have hopen : ∀ key : Str, '<' ∉ key →
      Free toolCallClose ("<parameter=".toList ++ (key ++ ['>'])) :=
    fun key hkey => free_opening '/' 'p' _ "arameter=".toList key (by decide) (by decide) hkey
  have hfunction : Free toolCallClose ("<function=".toList ++ (name ++ ['>'])) :=
    free_opening '/' 'f' _ "unction=".toList name (by decide) (by decide) hname.2.2.1
  have hparameters := free_renderParameters floats toolCallClose (by decide) (by decide) entries
    "</function>\n".toList (by decide) (fun e he => hopen e.1 (hkeys e he).2.2.1)
    (fun e he => (argumentText_free floats e.2 (hvalues e he)).2)
  have hlines := free_append_cons (s := []) '\n' (by decide) (by decide)
    (free_append_cons '\n' (by decide) hfunction hparameters)
  unfold callBody
  simpa only [List.append_assoc, List.cons_append, List.nil_append] using hlines

/-- A call as the parser gives it back. -/
def rereadCall (requestId : Str) (index : Nat) (call : InputToolCall F) : OutputToolCall :=
  { id := callId requestId index
    kind := "function".toList
    function :=
      { name := call.function.name
        arguments := compact floats (.object
          (rereadEntries floats ((asObject call.function.arguments).getD []))) } }

/-- The function in the body of a call. -/
theorem parseFunction_callBody (call : InputToolCall F) (entries : List (Str × Value F))
    (h : WellFormed call entries) :
    parseFunction (serdeJson floats) (callBody floats call.function.name entries) =
      some { name := call.function.name
             arguments := compact floats (.object (rereadEntries floats entries)) } := by
  rcases h.name with ⟨hne, htrim, -, hclose⟩
  cases h.ordered with
  | object _ hkeys hordered =>
      unfold callBody
      rw [parseFunction_element _ _ _ hclose (by rwa [htrim]),
        show (serdeJson floats).emptyObject = Value.object [] from rfl,
        parseParameters_render floats entries [] h.keys h.values hordered, Option.bind_some, htrim]
      -- The keys are increasing, so that each parameter is added at the end of the map.
      have hmap : (rereadEntries floats entries).foldl
          (fun map entry => insertEntry entry.1 entry.2 map) [] = rereadEntries floats entries := by
        refine buildMap_of_pairwise _ ?_
        unfold rereadEntries
        rw [List.map_map]
        exact hkeys
      rw [hmap]
      rfl

/-- What the parser does with a call the template wrote. -/
theorem parseToolCalls_callText (requestId space rest : Str) (done : List OutputToolCall)
    (call : InputToolCall F) (entries : List (Str × Value F)) (h : WellFormed call entries)
    (hspace : ∀ c ∈ space, isWhitespace c = true)
    (hrest : trim rest = [] ∨ toolCallOpen <+: trimStart rest) :
    parseToolCalls (serdeJson floats) requestId
        (space ++ (callText floats call.function.name entries ++ rest)) done =
      parseToolCalls (serdeJson floats) requestId rest
        (done ++ [rereadCall floats requestId done.length call]) := by
  rw [callText_eq, List.append_assoc, List.append_assoc,
    parseToolCalls_element _ requestId space _ rest done _ hspace
      (callBody_free floats _ entries h.name h.keys h.values)
      (parseFunction_callBody floats call entries h) hrest]
  unfold rereadCall
  rw [h.arguments]
  rfl

/-- The calls as the parser gives them back, from an index on. -/
def rereadCalls (requestId : Str) (index : Nat) : List (InputToolCall F) → List OutputToolCall
  | [] => []
  | call :: calls => rereadCall floats requestId index call :: rereadCalls requestId (index + 1) calls

theorem rereadCalls_getElem? (requestId : Str) (index : Nat) (calls : List (InputToolCall F))
    (i : Nat) :
    (rereadCalls floats requestId index calls)[i]? =
      calls[i]?.map (rereadCall floats requestId (index + i)) := by
  induction calls generalizing index i with
  | nil => rfl
  | cons call calls ih =>
      cases i with
      | zero => rfl
      | succ i =>
          rw [rereadCalls, List.getElem?_cons_succ, List.getElem?_cons_succ, ih, Nat.add_assoc,
            Nat.add_comm 1 i]

theorem length_rereadCalls (requestId : Str) (index : Nat) (calls : List (InputToolCall F)) :
    (rereadCalls floats requestId index calls).length = calls.length := by
  induction calls generalizing index with
  | nil => rfl
  | cons call calls ih => rw [rereadCalls, List.length_cons, List.length_cons, ih]

/-- The text of well-formed calls. -/
theorem renderCalls_cons (content : Str) (index : Nat) (call : InputToolCall F)
    (calls : List (InputToolCall F)) (entries : List (Str × Value F)) (text : Str)
    (hcall : WellFormed call entries)
    (h : renderCalls floats content index (call :: calls) = .ok text) :
    ∃ rest, renderCalls floats content (index + 1) calls = .ok rest ∧
      text = callGap content index ++ (callText floats call.function.name entries ++ rest) := by
  rw [renderCalls, if_neg (not_not_intro hcall.kind), hcall.arguments] at h
  cases hrest : renderCalls floats content (index + 1) calls with
  | error error =>
      rw [hrest] at h
      exact nomatch h
  | ok rest =>
      rw [hrest] at h
      exact ⟨rest, rfl, (Except.ok.inj h).symm⟩

theorem callGap_blank (content : Str) (index : Nat) :
    ∀ c ∈ callGap content index, isWhitespace c = true := by
  unfold callGap
  split_ifs <;> exact forall_mem_of_all _ _ (by decide)

theorem toolCallOpen_callText (name rest : Str) (entries : List (Str × Value F)) :
    toolCallOpen <+: callText floats name entries ++ rest := by
  rw [callText_eq, List.append_assoc]
  exact List.prefix_append _ _

/-- What follows a call is nothing, or white space and a call. -/
theorem renderCalls_follows (content : Str) (index : Nat) (calls : List (InputToolCall F))
    (text : Str) (hcalls : ∀ call ∈ calls, ∃ entries, WellFormed call entries)
    (h : renderCalls floats content index calls = .ok text) :
    trim text = [] ∨ toolCallOpen <+: trimStart text := by
  cases calls with
  | nil =>
      cases Except.ok.inj h
      exact .inl rfl
  | cons call calls =>
      rcases hcalls call List.mem_cons_self with ⟨entries, hcall⟩
      rcases renderCalls_cons floats content index call calls entries text hcall h with
        ⟨rest, -, rfl⟩
      refine .inr ?_
      rw [trimStart_blank_append _ _ (callGap_blank content index)]
      have hopen := toolCallOpen_callText floats call.function.name rest entries
      rcases hopen with ⟨more, hmore⟩
      rw [← hmore, show toolCallOpen = '<' :: "tool_call>".toList from rfl, List.cons_append,
        trimStart_cons _ _ (by decide)]
      exact List.prefix_append ('<' :: "tool_call>".toList) more

/-- The calls of a text the template wrote. -/
theorem parseToolCalls_renderCalls (requestId content : Str) (index : Nat)
    (calls : List (InputToolCall F)) (text : Str) (done : List OutputToolCall)
    (hcalls : ∀ call ∈ calls, ∃ entries, WellFormed call entries)
    (h : renderCalls floats content index calls = .ok text) :
    parseToolCalls (serdeJson floats) requestId text done =
      some (done ++ rereadCalls floats requestId done.length calls) := by
  induction calls generalizing index text done with
  | nil =>
      cases Except.ok.inj h
      rw [parseToolCalls_blank _ _ [] done (fun c hc => absurd hc List.not_mem_nil), rereadCalls,
        List.append_nil]
  | cons call calls ih =>
      have hmore : ∀ call ∈ calls, ∃ entries, WellFormed call entries :=
        fun call' hcall' => hcalls call' (List.mem_cons_of_mem call hcall')
      rcases hcalls call List.mem_cons_self with ⟨entries, hcall⟩
      rcases renderCalls_cons floats content index call calls entries text hcall h with
        ⟨rest, hrest, rfl⟩
      rw [parseToolCalls_callText floats requestId _ rest done call entries hcall
          (callGap_blank content index)
          (renderCalls_follows floats content (index + 1) calls rest hmore hrest),
        ih (index + 1) rest _ hmore hrest, List.length_append, List.length_singleton,
        List.append_assoc]
      rfl

/-- A body the template wrote is read back: the content and the calls. -/
theorem parseAssistantOutput_body (requestId content text : Str) (calls : List (InputToolCall F))
    (htrim : trim content = content) (hfree : Free toolCallOpen content)
    (hcalls : ∀ call ∈ calls, ∃ entries, WellFormed call entries)
    (h : renderCalls floats content 0 calls = .ok text) :
    parseAssistantOutput (serdeJson floats) (content ++ text) false requestId =
      { reasoningContent := none
        content := nonempty content
        toolCalls := rereadCalls floats requestId 0 calls
        malformedToolMarkup := false } := by
  unfold parseAssistantOutput
  rw [show splitReasoning (content ++ text) false = (none, content ++ text) from rfl]
  dsimp only
  cases calls with
  | nil =>
      cases Except.ok.inj h
      rw [List.append_nil, find_eq_none_iff_free.mpr hfree]
      dsimp only
      rw [htrim]
      rfl
  | cons call calls =>
      rcases hcalls call List.mem_cons_self with ⟨entries, hcall⟩
      rcases renderCalls_cons floats content 0 call calls entries text hcall h with
        ⟨rest, hrest, rfl⟩
      have hmore : ∀ call ∈ calls, ∃ entries, WellFormed call entries :=
        fun call' hcall' => hcalls call' (List.mem_cons_of_mem call hcall')
      -- The first mark is that of the first call: there is none before it.
      have hgap : Free toolCallOpen (content ++ callGap content 0) := by
        refine free_append hfree ?_ ?_
        · exact free_of_not_mem '<' _ _ (not_mem_of_blank _ (callGap_blank content 0))
        · intro c hc htail
          have hblank := callGap_blank content 0 c (List.mem_of_mem_head? hc)
          have hall : ∀ d ∈ toolCallOpen.tail, isWhitespace d = false :=
            forall_mem_of_all _ _ (by decide)
          exact absurd (hblank.symm.trans (hall c htail)) (by decide)
      rcases toolCallOpen_callText floats call.function.name rest entries with ⟨after, hafter⟩
      have hfind := find_tag (v := after) toolCallOpen_isTag hgap
      rw [hafter, List.append_assoc] at hfind
      have hcallsRead := parseToolCalls_callText floats requestId [] rest [] call entries hcall
        (fun c hc => absurd hc List.not_mem_nil)
        (renderCalls_follows floats content 1 calls rest hmore hrest)
      rw [List.nil_append, parseToolCalls_renderCalls floats requestId content 1 calls rest _ hmore
        hrest] at hcallsRead
      rw [hfind]
      dsimp only
      rw [← List.append_assoc, dropBytes_append, takeBytes_append, hcallsRead]
      dsimp only
      rw [trimEnd_append_blank _ _ (callGap_blank content 0), trimEnd_of_trim _ htrim]
      rfl

end Calls

/-! ## The prompt -/

section Prompt

variable {F : Type} (floats : Floats F)

/-- The message at an index is an answer before the last query, without reasoning, whose content
    and calls markup can hold. -/
structure EarlierAnswer (entries : List (ChatMessage F × Str)) (i : Nat)
    (message : ChatMessage F) (content : Str) : Prop where
  entry : entries[i]? = some (message, content)
  earlier : ∃ queryIndex, lastQueryIndex entries = some queryIndex ∧ i < queryIndex
  role : message.role = "assistant".toList
  reasoning : message.reasoningContent = none
  opens : Free toolCallOpen (trim content)
  thinks : Free "</think>".toList (trim content)
  calls : ∀ call ∈ message.toolCalls.getD [], ∃ arguments, WellFormed call arguments

/-- A prompt without the thinking of earlier answers has a body in the turn of the message at
    an index. -/
def BodyAt (entries : List (ChatMessage F × Str)) (tools : List (Value F))
    (enableThinking : Bool) (output : Str) (i : Nat) (body : Str) : Prop :=
  ∃ queryIndex parts, lastQueryIndex entries = some queryIndex ∧
    renderParts floats false queryIndex 0 none entries = .ok parts ∧
    output = entries.head?.elim [] (renderSystem floats tools) ++
      (parts.flatten ++ generationPrompt enableThinking) ∧
    parts[i]? = some (turn "assistant".toList body)

/-- The body of an earlier answer, read back. -/
theorem renderQwenChat_calls (entries : List (ChatMessage F × Str)) (hrendered : Rendered entries)
    (tools : List (Value F)) (enableThinking : Bool) (output : Str)
    (houtput : renderQwenChat floats (entries.map Prod.fst) tools enableThinking false = .ok output)
    (i : Nat) (message : ChatMessage F) (content : Str)
    (h : EarlierAnswer entries i message content) (requestId : Str) :
    ∃ body, BodyAt floats entries tools enableThinking output i body ∧
      parseAssistantOutput (serdeJson floats) body false requestId =
        { reasoningContent := none
          content := nonempty (trim content)
          toolCalls := rereadCalls floats requestId 0 (message.toolCalls.getD [])
          malformedToolMarkup := false } := by
  rcases renderQwenChat_ok floats entries hrendered tools enableThinking false output houtput with
    ⟨first, rest, queryIndex, parts, hentries, -, hquery, hparts, hprompt⟩
  rcases h.earlier with ⟨queryIndex', hquery', hearlier⟩
  cases Option.some.inj (hquery'.symm.trans hquery)
  rcases renderParts_getElem? floats false queryIndex 0 none entries parts hparts i message content
    h.entry with ⟨before, after, text, htext, hmessage⟩
  -- The message is an answer, and comes before the last query.
  rw [decide_eq_false (by omega), Bool.or_false, renderMessage, h.role, if_neg (by decide),
    if_neg (by decide), if_neg (by decide), if_pos rfl] at hmessage
  have hsplit : splitThinking message (trim content) = ([], trim content) := by
    unfold splitThinking
    rw [h.reasoning, find_eq_none_iff_free.mpr h.thinks]
  unfold renderAssistant at hmessage
  rw [hsplit] at hmessage
  dsimp only at hmessage
  cases hcalls : renderCalls floats (trim content) 0 (message.toolCalls.getD []) with
  | error error =>
      rw [hcalls] at hmessage
      exact nomatch hmessage
  | ok calls =>
      rw [hcalls] at hmessage
      cases Except.ok.inj hmessage
      refine ⟨trim content ++ calls, ⟨queryIndex, parts, hquery, hparts, ?_, htext⟩, ?_⟩
      · rw [hprompt, hentries]
        rfl
      · exact parseAssistantOutput_body floats requestId (trim content) calls _ (trim_trim content)
          h.opens h.calls hcalls

theorem keys_rereadEntries (entries : List (Str × Value F)) :
    keys (rereadEntries floats entries) = keys entries := by
  unfold keys rereadEntries
  rw [List.map_map]
  rfl

theorem lookup_rereadEntries (key : Str) (entries : List (Str × Value F)) :
    lookup key (rereadEntries floats entries) = (lookup key entries).map (reread floats) := by
  unfold rereadEntries
  induction entries with
  | nil => rfl
  | cons e entries ih =>
      rw [List.map_cons, lookup_cons, lookup_cons, ih]
      by_cases hkey : e.1 = key
      · rw [if_pos hkey, if_pos hkey, Option.map_some]
      · rw [if_neg hkey, if_neg hkey]

theorem reread_of_asText (v : Value F) (h : asText v = none) : reread floats v = v := by
  cases v with
  | string s => exact nomatch h
  | _ => rfl

/-- The call at an index of a message has these arguments. -/
def ArgumentsAt (parsed : ParsedAssistant) (name : Str) (j : Nat)
    (entries : List (Str × Value F)) : Prop :=
  ∃ call, parsed.toolCalls[j]? = some call ∧ call.function.name = name ∧
    call.function.arguments = compact floats (.object entries)

theorem argumentsAt_rereadCalls (requestId : Str) (content : Option Str)
    (calls : List (InputToolCall F)) (j : Nat) (call : InputToolCall F)
    (entries : List (Str × Value F)) (hcall : calls[j]? = some call)
    (harguments : call.function.arguments = .object entries) :
    ArgumentsAt floats
      { reasoningContent := none, content := content
        toolCalls := rereadCalls floats requestId 0 calls, malformedToolMarkup := false }
      call.function.name j (rereadEntries floats entries) := by
  refine ⟨rereadCall floats requestId (0 + j) call, ?_, rfl, ?_⟩
  · dsimp only
    rw [rereadCalls_getElem?, hcall, Option.map_some]
  · unfold rereadCall
    rw [harguments]
    rfl

/-- The arguments of a call, one of which is a string that looks like a number. -/
def sampleArguments : List (Str × Value Empty) :=
  [("days".toList, .string "2".toList),
    ("tags".toList, .array [.null, .int ⟨3, by decide, by decide⟩])]

/-- A call with these arguments. -/
def sampleCall : InputToolCall Empty :=
  { kind := "function".toList
    function := { name := "get_weather".toList, arguments := .object sampleArguments } }

/-- A message of a user. -/
def sampleQuery (content : String) : ChatMessage Empty :=
  { role := "user".toList, content := .string content.toList, reasoningContent := none
    toolCalls := none }

/-- An answer with the call. -/
def sampleAnswer : ChatMessage Empty :=
  { role := "assistant".toList, content := .string " Looking it up.\n".toList
    reasoningContent := none, toolCalls := some [sampleCall] }

/-- The answer between two queries. -/
def sampleEntries : List (ChatMessage Empty × Str) :=
  [(sampleQuery "Rain?", "Rain?".toList), (sampleAnswer, " Looking it up.\n".toList),
    (sampleQuery "And now?", "And now?".toList)]

/-- The turn of the answer without its frame. -/
def sampleBody : Str :=
  ("Looking it up.\n\n<tool_call>\n<function=get_weather>\n<parameter=days>\n2\n" ++
    "</parameter>\n<parameter=tags>\n[null, 3]\n</parameter>\n</function>\n</tool_call>").toList

/-- The prompt. -/
def sampleOutput : Str :=
  turn "user".toList "Rain?".toList ++ (turn "assistant".toList sampleBody ++
    (turn "user".toList "And now?".toList ++ generationPrompt false))

theorem sampleEntries_rendered : Rendered sampleEntries := by
  intro entry hentry
  simp only [sampleEntries, List.mem_cons, List.not_mem_nil, or_false] at hentry
  rcases hentry with rfl | rfl | rfl <;> rfl

theorem sampleCall_wellFormed : WellFormed sampleCall sampleArguments where
  kind := rfl
  name := by decide
  arguments := rfl
  ordered := by
    refine .object _ (by decide) fun e he => ?_
    simp only [sampleArguments, List.mem_cons, List.not_mem_nil, or_false] at he
    rcases he with rfl | rfl
    · exact .string _
    · refine .array _ fun v hv => ?_
      simp only [List.mem_cons, List.not_mem_nil, or_false] at hv
      rcases hv with rfl | rfl
      · exact .null
      · exact .int _
  keys := by
    intro e he
    simp only [sampleArguments, List.mem_cons, List.not_mem_nil, or_false] at he
    rcases he with rfl | rfl <;> decide
  values := by
    intro e he
    simp only [sampleArguments, List.mem_cons, List.not_mem_nil, or_false] at he
    rcases he with rfl | rfl
    · exact ⟨by decide, by decide⟩
    · refine .array _ fun v hv => ?_
      simp only [List.mem_cons, List.not_mem_nil, or_false] at hv
      rcases hv with rfl | rfl
      · exact .null
      · exact .int _

theorem sampleEntries_earlierAnswer :
    EarlierAnswer sampleEntries 1 sampleAnswer " Looking it up.\n".toList where
  entry := rfl
  earlier := ⟨2, by decide, by decide⟩
  role := rfl
  reasoning := rfl
  opens := by decide
  thinks := by decide
  calls := by
    intro call hcall
    cases List.mem_singleton.mp hcall
    exact ⟨sampleArguments, sampleCall_wellFormed⟩

theorem sampleOutput_eq :
    renderQwenChat noFloats (sampleEntries.map Prod.fst) [] false false = .ok sampleOutput := by
  decide +kernel

/-- What is the same after the round trip: the content, the number, the order and the names of
    the calls, the keys of their arguments, and every argument that is not a string. -/
theorem renderQwenChat_parse (entries : List (ChatMessage F × Str)) (hrendered : Rendered entries)
    (tools : List (Value F)) (enableThinking : Bool) (output : Str)
    (houtput : renderQwenChat floats (entries.map Prod.fst) tools enableThinking false = .ok output)
    (i : Nat) (message : ChatMessage F) (content : Str)
    (h : EarlierAnswer entries i message content) (requestId : Str) :
    ∃ body parsed, BodyAt floats entries tools enableThinking output i body ∧
      parseAssistantOutput (serdeJson floats) body false requestId = parsed ∧
      parsed.malformedToolMarkup = false ∧ parsed.content = nonempty (trim content) ∧
      parsed.toolCalls.length = (message.toolCalls.getD []).length ∧
      ∀ (j : Nat) (call : InputToolCall F) (arguments : List (Str × Value F)),
        (message.toolCalls.getD [])[j]? = some call →
        call.function.arguments = .object arguments →
        ∃ arguments', ArgumentsAt floats parsed call.function.name j arguments' ∧
          keys arguments' = keys arguments ∧
          ∀ key v, lookup key arguments = some v → asText v = none →
            lookup key arguments' = some v := by
  rcases renderQwenChat_calls floats entries hrendered tools enableThinking output houtput i message
    content h requestId with ⟨body, hbody, hparsed⟩
  refine ⟨body, _, hbody, hparsed, rfl, rfl, length_rereadCalls floats requestId 0 _, ?_⟩
  intro j call arguments hcall harguments
  refine ⟨rereadEntries floats arguments,
    argumentsAt_rereadCalls floats requestId _ _ j call arguments hcall harguments,
    keys_rereadEntries floats arguments, fun key v hv htext => ?_⟩
  rw [lookup_rereadEntries, hv, Option.map_some, reread_of_asText floats v htext]

/-- The answer of the example comes back, and its array with it. -/
theorem renderQwenChat_sample_parse :
    ∃ body parsed arguments', BodyAt noFloats sampleEntries [] false sampleOutput 1 body ∧
      parseAssistantOutput (serdeJson noFloats) body false "1".toList = parsed ∧
      parsed.content = some "Looking it up.".toList ∧ parsed.toolCalls.length = 1 ∧
      ArgumentsAt noFloats parsed "get_weather".toList 0 arguments' ∧
      lookup "tags".toList arguments' =
        some (.array [.null, .int ⟨3, by decide, by decide⟩]) := by
  rcases renderQwenChat_parse noFloats sampleEntries sampleEntries_rendered [] false sampleOutput
    sampleOutput_eq 1 sampleAnswer _ sampleEntries_earlierAnswer "1".toList with
    ⟨body, parsed, hbody, hparsed, -, hcontent, hlength, hcalls⟩
  rcases hcalls 0 sampleCall sampleArguments rfl rfl with ⟨arguments', hat, -, hvalues⟩
  exact ⟨body, parsed, arguments', hbody, hparsed, hcontent.trans (by decide), hlength, hat,
    hvalues _ _ rfl rfl⟩

/-- No text is that of the string with the same characters. -/
theorem fromStr_ne_string (s : Str) : fromStr floats s ≠ some (.string s) := by
  intro h
  rcases Option.map_eq_some_iff.mp h with ⟨v, hdocument, hnormal⟩
  have hv : v = .string s := by
    cases v with
    | string t => exact hnormal
    | _ => exact nomatch hnormal
  rw [hv] at hdocument
  rcases (document_eq_some_iff floats s _).mp hdocument with ⟨fuel, rest, -, hvalue, -⟩
  have hspace := length_skipSpace_le s
  have hlen := value_string_length floats fuel (skipSpace s) s rest hvalue
  omega

/-- A string comes back as what its text says if it is JSON, and otherwise as itself: the
    strings that survive are those that are no JSON texts. -/
theorem string_survives_iff (entries : List (ChatMessage F × Str)) (hrendered : Rendered entries)
    (tools : List (Value F)) (enableThinking : Bool) (output : Str)
    (houtput : renderQwenChat floats (entries.map Prod.fst) tools enableThinking false = .ok output)
    (i : Nat) (message : ChatMessage F) (content : Str)
    (h : EarlierAnswer entries i message content) (requestId : Str) (j : Nat)
    (call : InputToolCall F) (arguments : List (Str × Value F))
    (hcall : (message.toolCalls.getD [])[j]? = some call)
    (harguments : call.function.arguments = .object arguments) :
    ∃ body arguments', BodyAt floats entries tools enableThinking output i body ∧
      ArgumentsAt floats (parseAssistantOutput (serdeJson floats) body false requestId)
        call.function.name j arguments' ∧
      ∀ key s, lookup key arguments = some (.string s) →
        (lookup key arguments' = some (.string s) ↔ fromStr floats s = none) ∧
        ∀ w, fromStr floats s = some w → lookup key arguments' = some w := by
  rcases renderQwenChat_calls floats entries hrendered tools enableThinking output houtput i message
    content h requestId with ⟨body, hbody, hparsed⟩
  refine ⟨body, rereadEntries floats arguments, hbody, ?_, fun key s hs => ?_⟩
  · rw [hparsed]
    exact argumentsAt_rereadCalls floats requestId _ _ j call arguments hcall harguments
  · rw [lookup_rereadEntries, hs, Option.map_some,
      show reread floats (.string s) = (fromStr floats s).getD (.string s) from rfl]
    -- A string that is read as JSON comes back as that value, which is never the string itself.
    cases hread : fromStr floats s with
    | none => exact ⟨⟨fun _ => rfl, fun _ => rfl⟩, fun w hw => nomatch hw⟩
    | some w =>
        refine ⟨⟨fun heq => ?_, fun hnone => nomatch hnone⟩, fun w' hw' => hw'⟩
        exact absurd (hread.trans heq) (fromStr_ne_string floats s)

/-- The string of the example is a JSON text, and comes back as the number it says. -/
theorem string_sample_survives_iff :
    ∃ body arguments', BodyAt noFloats sampleEntries [] false sampleOutput 1 body ∧
      ArgumentsAt noFloats (parseAssistantOutput (serdeJson noFloats) body false "1".toList)
        "get_weather".toList 0 arguments' ∧
      lookup "days".toList arguments' = some (.int ⟨2, by decide, by decide⟩) := by
  rcases string_survives_iff noFloats sampleEntries sampleEntries_rendered [] false sampleOutput
    sampleOutput_eq 1 sampleAnswer _ sampleEntries_earlierAnswer "1".toList 0 sampleCall
    sampleArguments rfl rfl with ⟨body, arguments', hbody, hat, hstrings⟩
  exact ⟨body, arguments', hbody, hat, (hstrings "days".toList "2".toList rfl).2 _ (by rfl)⟩

/-- A text between separators is a part of the whole. -/
theorem sublist_intercalate (separator text : Str) (texts : List Str) (h : text ∈ texts) :
    text.Sublist (separator.intercalate texts) := by
  induction texts with
  | nil => exact absurd h List.not_mem_nil
  | cons first texts ih =>
      cases texts with
      | nil =>
          cases List.mem_singleton.mp h
          rw [List.intercalate_singleton]
      | cons second texts =>
          rw [List.intercalate_cons_cons]
          rcases List.mem_cons.mp h with rfl | h
          · exact (List.sublist_append_left _ _).trans (List.sublist_append_left _ _)
          · exact (ih h).trans (List.sublist_append_right _ _)

/-- The text of an object has the text of each of its members in it. -/
theorem compact_member_sublist (key : Str) (v : Value F) (entries : List (Str × Value F))
    (h : lookup key entries = some v) :
    (':' :: compact floats v).Sublist (compact floats (.object entries)) := by
  have hentry : ∃ e ∈ entries, e.2 = v := by
    rcases Option.map_eq_some_iff.mp h with ⟨e, hfind, hv⟩
    exact ⟨e, List.mem_of_find?_eq_some hfind, hv⟩
  have hmem : ∃ text ∈ compactEntries floats entries, (':' :: compact floats v).Sublist text := by
    rcases hentry with ⟨e, he, rfl⟩
    clear h
    induction entries with
    | nil => exact absurd he List.not_mem_nil
    | cons first entries ih =>
        rcases List.mem_cons.mp he with rfl | he
        · exact ⟨_, List.mem_cons_self, List.sublist_append_right _ _⟩
        · rcases ih he with ⟨text, htext, hsub⟩
          exact ⟨text, List.mem_cons_of_mem _ htext, hsub⟩
  rcases hmem with ⟨text, htext, hsub⟩
  rw [compact]
  exact hsub.trans (((sublist_intercalate _ text _ htext).trans
    (List.sublist_append_left _ _)).trans (List.sublist_cons_self _ _))

/-- The string of the example does not come back as a string. -/
theorem string_not_survives :
    Rendered sampleEntries ∧
      EarlierAnswer sampleEntries 1 sampleAnswer " Looking it up.\n".toList ∧
      lookup "days".toList sampleArguments = some (.string "2".toList) ∧
      renderQwenChat noFloats (sampleEntries.map Prod.fst) [] false false = .ok sampleOutput ∧
      BodyAt noFloats sampleEntries [] false sampleOutput 1 sampleBody ∧
      ¬∃ arguments', ArgumentsAt noFloats
          (parseAssistantOutput (serdeJson noFloats) sampleBody false "1".toList)
          "get_weather".toList 0 arguments' ∧
        lookup "days".toList arguments' = some (.string "2".toList) := by
  have hbody : BodyAt noFloats sampleEntries [] false sampleOutput 1 sampleBody := by
    refine ⟨2, [turn "user".toList "Rain?".toList, turn "assistant".toList sampleBody,
      turn "user".toList "And now?".toList], by decide, by decide +kernel, by decide +kernel, rfl⟩
  have hcalls : (parseAssistantOutput (serdeJson noFloats) sampleBody false "1".toList).toolCalls =
      [{ id := "call_1_0".toList, kind := "function".toList
         function := { name := "get_weather".toList
                       arguments := "\x7b\"days\":2,\"tags\":[null,3]\x7d".toList } }] := by
    decide +kernel
  refine ⟨sampleEntries_rendered, sampleEntries_earlierAnswer, rfl, sampleOutput_eq, hbody, ?_⟩
  rintro ⟨arguments', ⟨call, hcall, -, htext⟩, hlookup⟩
  rw [hcalls] at hcall
  cases Option.some.inj hcall
  -- The text has no string with the character of the argument.
  have hsub := compact_member_sublist noFloats _ _ arguments' hlookup
  rw [← htext] at hsub
  exact absurd hsub (by decide)

end Prompt

end Chat

end QrtEngine
