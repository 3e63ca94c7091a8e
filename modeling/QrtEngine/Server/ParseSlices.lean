import Mathlib.Data.List.TakeWhile
import QrtEngine.Library.Markup
import QrtEngine.Server.ToJson

/-!
# The Parser with its Slices

The parser of a finished text once more, as it works on offsets: a cursor moves over one
string, every search is made in a slice of it, and every piece is a slice between two
offsets. A slice that is out of range or inside a character stops the program. Here it gives
nothing, and the parser that gives nothing in that case is compared with the one that works
on what is left of the text.

The two agree on every text, so no slice ever fails. Along the way every offset is the end of
a prefix of the text. The one comparison of offsets, between the end of a function's name and
the last closing mark, leaves room for the character in between: the name ends with ">" and
the mark begins with "<", so they are not at the same place.

What the parser accepts is a prefix without an opening mark and then blocks, each a mark, a
body, a mark and white space.

## Main definitions

* `Scan`: What a search from a cursor finds.
* `Checked.parseToolCall`, `Checked.parseAssistantOutput`: The parser with its slices.
* `Block`, `blocksText`: A tool call in a text, and a text made of them.
* `ParsesAs`: What the message in a text is.

## Theorems

* `scanParameter_spec`, `scanToolCall_spec`: A search from a cursor is a search in the rest.
* `parseAssistantOutput_total`: Every slice is in range and on a boundary.
* `parseToolCalls_blocks`: Calls that are read are those of the blocks.
* `parseAssistantOutput_parsesAs`: What the message in a text is, in both cases.
-/

namespace QrtEngine

namespace Chat

open ByteText Text

/-- What a search from a cursor finds: nothing more, markup that does not close, or an item
    and the cursor after it. -/
inductive Scan (α : Type) where
  | done
  | malformed
  | found (item : α) (cursor : Nat)
deriving DecidableEq, Repr

namespace Checked

/-! ## The parser -/

/-- The key and the text of the next parameter. -/
def scanParameter (parameterBody : Str) (cursor : Nat) : Option (Scan (Str × Str)) :=
  match sliceFrom parameterBody cursor with
  | none => none
  | some rest =>
      match find "<parameter=".toList rest with
      | none => some .done
      | some relativeStart =>
          let start := cursor + relativeStart + byteLen "<parameter=".toList
          match sliceFrom parameterBody start with
          | none => none
          | some rest =>
              match find ['>'] rest with
              | none => some .malformed
              | some relativeEnd =>
                  let keyEnd := relativeEnd + start
                  match slice parameterBody start keyEnd with
                  | none => none
                  | some key => if trim key = [] then some .malformed
                      else scanValue parameterBody (trim key) (keyEnd + 1)
where
  /-- The text of a parameter, from its start to the closing mark. -/
  scanValue (parameterBody key : Str) (valueStart : Nat) : Option (Scan (Str × Str)) :=
    match sliceFrom parameterBody valueStart with
    | none => none
    | some rest =>
        match find "</parameter>".toList rest with
        | none => some .malformed
        | some relativeEnd =>
            let valueEnd := relativeEnd + valueStart
            (slice parameterBody valueStart valueEnd).map fun raw =>
              .found (key, raw) (valueEnd + byteLen "</parameter>".toList)

/-- The text of the next tool call. -/
def scanToolCall (visible : Str) (cursor : Nat) : Option (Scan Str) :=
  match sliceFrom visible cursor with
  | none => none
  | some rest =>
      match find toolCallOpen rest with
      | none => some .done
      | some relativeStart =>
          let bodyStart := cursor + relativeStart + byteLen toolCallOpen
          match sliceFrom visible bodyStart with
          | none => none
          | some rest =>
              match find toolCallClose rest with
              | none => some .malformed
              | some relativeEnd =>
                  let bodyEnd := bodyStart + relativeEnd
                  (slice visible bodyStart bodyEnd).map fun body =>
                    .found body (bodyEnd + byteLen toolCallClose)

/-- A search that finds something moves the cursor, which was not at the end. -/
theorem scanParameter_advances (parameterBody : Str) (cursor next : Nat) (item : Str × Str)
    (h : scanParameter parameterBody cursor = some (.found item next)) :
    byteLen parameterBody - next < byteLen parameterBody - cursor := by
  unfold scanParameter at h
  cases hrest : sliceFrom parameterBody cursor with
  | none =>
      rw [hrest] at h
      exact absurd h (by simp)
  | some rest =>
      have hlen := byteLen_sliceFrom hrest
      rw [hrest] at h
      dsimp only at h
      cases hstart : find "<parameter=".toList rest with
      | none =>
          rw [hstart] at h
          exact absurd h (by simp)
      | some relativeStart =>
          rcases find_spec hstart with ⟨u, hu, -, -⟩
          have hmark := hu.byteLen_le
          have hwidth : byteLen "<parameter=".toList = 11 := by decide
          rw [hstart] at h
          dsimp only at h
          split at h
          · exact absurd h (by simp)
          · split at h
            · exact absurd h (by simp)
            · split at h
              · exact absurd h (by simp)
              · split_ifs at h
                · exact absurd h (by simp)
                · -- The next cursor is behind a value that begins behind the mark.
                  unfold scanParameter.scanValue at h
                  split at h
                  · exact absurd h (by simp)
                  · split at h
                    · exact absurd h (by simp)
                    · rcases Option.map_eq_some_iff.mp h with ⟨raw, -, heq⟩
                      rw [Scan.found.injEq] at heq
                      omega

theorem scanToolCall_advances (visible : Str) (cursor next : Nat) (body : Str)
    (h : scanToolCall visible cursor = some (.found body next)) :
    byteLen visible - next < byteLen visible - cursor := by
  unfold scanToolCall at h
  cases hrest : sliceFrom visible cursor with
  | none =>
      rw [hrest] at h
      exact absurd h (by simp)
  | some rest =>
      have hlen := byteLen_sliceFrom hrest
      rw [hrest] at h
      dsimp only at h
      cases hstart : find toolCallOpen rest with
      | none =>
          rw [hstart] at h
          exact absurd h (by simp)
      | some relativeStart =>
          rcases find_spec hstart with ⟨u, hu, -, -⟩
          have hmark := hu.byteLen_le
          have hwidth : byteLen toolCallOpen = 11 := by decide
          rw [hstart] at h
          dsimp only at h
          split at h
          · exact absurd h (by simp)
          · split at h
            · exact absurd h (by simp)
            · rcases Option.map_eq_some_iff.mp h with ⟨raw, -, heq⟩
              rw [Scan.found.injEq] at heq
              omega

section Parser

variable {Value : Type} (serde : Serde Value)

/-- The arguments in the body of a function, from a cursor on. -/
def parseParameters (parameterBody : Str) (cursor : Nat) (arguments : Value) :
    Option (Option Value) :=
  match _hscan : scanParameter parameterBody cursor with
  | none => none
  | some .done => some (some arguments)
  | some .malformed => some none
  | some (.found (key, raw) next) =>
      let rawValue := stripBreaks raw
      let parsed := (serde.fromStr rawValue).getD (serde.string rawValue)
      parseParameters parameterBody next (serde.insert arguments key parsed)
termination_by byteLen parameterBody - cursor
decreasing_by exact scanParameter_advances _ _ _ _ _hscan

/-- The parameters of a function whose name ends at an offset. -/
def parseFunctionBody (body name : Str) (nameEnd : Nat) : Option (Option OutputFunctionCall) :=
  match rfind "</function>".toList body with
  | none => some none
  | some functionClose =>
      if functionClose < nameEnd then some none
      else
        match slice body (nameEnd + 1) functionClose with
        | none => none
        | some parameterBody =>
            (parseParameters serde parameterBody 0 serde.emptyObject).map fun arguments =>
              (arguments.bind serde.toString).map fun encoded =>
                { name := name, arguments := encoded }

/-- The function called in a body that is not JSON. -/
def parseFunctionElement (body : Str) : Option (Option OutputFunctionCall) :=
  match find "<function=".toList body with
  | none => some none
  | some start =>
      let functionStart := start + byteLen "<function=".toList
      match sliceFrom body functionStart with
      | none => none
      | some rest =>
          match find ['>'] rest with
          | none => some none
          | some relativeEnd =>
              let nameEnd := relativeEnd + functionStart
              match slice body functionStart nameEnd with
              | none => none
              | some name =>
                  if trim name = [] then some none
                  else parseFunctionBody serde body (trim name) nameEnd

/-- The function called in a body. A body that is JSON takes no slices. -/
def parseFunction (body : Str) : Option (Option OutputFunctionCall) :=
  if ['{'].isPrefixOf (trim body) then some (Chat.parseFunction serde body)
  else parseFunctionElement serde (trim body)

/-- The tool call in a body. -/
def parseToolCall (body requestId : Str) (index : Nat) : Option (Option OutputToolCall) :=
  (parseFunction serde body).map fun function => function.map fun function =>
    { id := "call_".toList ++ requestId ++ ['_'] ++ (toString index).toList
      kind := "function".toList
      function := function }

/-- The calls from a cursor on, after those read before. -/
def parseToolCalls (requestId visible : Str) (cursor : Nat) (calls : List OutputToolCall) :
    Option (Option (List OutputToolCall)) :=
  match _hscan : scanToolCall visible cursor with
  | none => none
  | some .done => some (some calls)
  | some .malformed => some none
  | some (.found body next) =>
      match parseToolCall serde body requestId calls.length, sliceFrom visible next with
      | none, _ => none
      | some none, _ => some none
      | some (some _), none => none
      | some (some call), some after =>
          if trim after ≠ [] ∧ ¬toolCallOpen.isPrefixOf (trimStart after) then some none
          else parseToolCalls requestId visible next (calls ++ [call])
termination_by byteLen visible - cursor
decreasing_by exact scanToolCall_advances _ _ _ _ _hscan

/-- The reasoning in a text and what is visible of it. -/
def splitReasoning (raw : Str) (thinkingEnabled : Bool) : Option (Option Str × Str) :=
  if !thinkingEnabled then some (none, raw)
  else
    match find "</think>".toList raw with
    | none => some (nonempty (trim raw), [])
    | some close =>
        match sliceTo raw close, sliceFrom raw (close + byteLen "</think>".toList) with
        | some before, some after =>
            some (nonempty (trim ((stripPrefix "<think>".toList before).getD before)),
              after.dropWhile (· == '\n'))
        | _, _ => none

/-- The message in what is visible of a text. -/
def parseVisible (reasoningContent : Option Str) (visible requestId : Str) :
    Option ParsedAssistant :=
  match find toolCallOpen visible with
  | none =>
      some { reasoningContent := reasoningContent
             content := nonempty (trim visible)
             toolCalls := []
             malformedToolMarkup := false }
  | some firstTool =>
      match sliceTo visible firstTool, parseToolCalls serde requestId visible firstTool [] with
      | some _, some none =>
          some { reasoningContent := reasoningContent
                 content := nonempty (trim visible)
                 toolCalls := []
                 malformedToolMarkup := true }
      | some before, some (some calls) =>
          some { reasoningContent := reasoningContent
                 content := nonempty (trimEnd before)
                 toolCalls := calls
                 malformedToolMarkup := false }
      | _, _ => none

/-- The message in a finished text, or nothing if a slice fails. -/
def parseAssistantOutput (raw : Str) (thinkingEnabled : Bool) (requestId : Str) :
    Option ParsedAssistant :=
  (splitReasoning raw thinkingEnabled).bind fun (reasoningContent, visible) =>
    parseVisible serde reasoningContent visible requestId

end Parser

/-! ## Every slice is in range -/

section Total

variable {Value : Type} (serde : Serde Value)

theorem scanValue_append (u rest key : Str) :
    scanParameter.scanValue (u ++ rest) key (byteLen u) =
      match find "</parameter>".toList rest with
      | none => some .malformed
      | some n => some (.found (key, takeBytes n rest)
          (byteLen u + (n + byteLen "</parameter>".toList))) := by
  unfold scanParameter.scanValue
  rw [sliceFrom_append]
  dsimp only
  cases h : find "</parameter>".toList rest with
  | none => rfl
  | some n =>
      rcases find_split h with ⟨raw, after, hrest, hlen, htake, -, -⟩
      have hslice := slice_append u raw ("</parameter>".toList ++ after)
      rw [← hrest, hlen] at hslice
      dsimp only
      rw [Nat.add_comm n (byteLen u), hslice, htake, Option.map_some, Nat.add_assoc]

/-- A search from the end of a prefix is a search in the rest. -/
theorem scanParameter_spec (u rest : Str) :
    scanParameter (u ++ rest) (byteLen u) =
      match find "<parameter=".toList rest with
      | none => some .done
      | some start =>
          let body := dropBytes (start + byteLen "<parameter=".toList) rest
          match find ['>'] body with
          | none => some .malformed
          | some keyEnd =>
              if trim (takeBytes keyEnd body) = [] then some .malformed
              else
                let value := dropBytes (keyEnd + 1) body
                match find "</parameter>".toList value with
                | none => some .malformed
                | some valueEnd =>
                    some (.found (trim (takeBytes keyEnd body), takeBytes valueEnd value)
                      (byteLen u + (start + byteLen "<parameter=".toList + (keyEnd + 1 +
                        (valueEnd + byteLen "</parameter>".toList))))) := by
  unfold scanParameter
  rw [sliceFrom_append]
  dsimp only
  cases hstart : find "<parameter=".toList rest with
  | none => rfl
  | some start =>
      rcases find_split hstart with ⟨before, body, rfl, hbefore, -, hdrop, -⟩
      dsimp only
      rw [hdrop]
      -- The text is taken apart at the mark, and what is before it joins the prefix.
      have hwhole : u ++ (before ++ ("<parameter=".toList ++ body)) =
          (u ++ (before ++ "<parameter=".toList)) ++ body := by
        simp only [List.append_assoc]
      have hoffset : byteLen u + start + byteLen "<parameter=".toList =
          byteLen (u ++ (before ++ "<parameter=".toList)) := by
        rw [byteLen_append, byteLen_append, hbefore, Nat.add_assoc]
      rw [hwhole, hoffset, sliceFrom_append]
      dsimp only
      cases hkey : find ['>'] body with
      | none => rfl
      | some keyEnd =>
          rcases find_split hkey with ⟨key, value, hbody, hkeyLen, htake, hdropValue, -⟩
          have hmark : byteLen ['>'] = 1 := by decide
          rw [hmark] at hdropValue
          have hslice := slice_append (u ++ (before ++ "<parameter=".toList)) key (['>'] ++ value)
          rw [← hbody, hkeyLen] at hslice
          dsimp only
          rw [Nat.add_comm keyEnd, hslice, htake, hdropValue]
          dsimp only
          by_cases hempty : trim key = []
          · rw [if_pos hempty, if_pos hempty]
          · rw [if_neg hempty, if_neg hempty]
            -- The key and its mark join the prefix too.
            have hwhole' : (u ++ (before ++ "<parameter=".toList)) ++ body =
                ((u ++ (before ++ "<parameter=".toList)) ++ (key ++ ['>'])) ++ value := by
              rw [hbody]
              simp only [List.append_assoc]
            have hoffset' : byteLen (u ++ (before ++ "<parameter=".toList)) + keyEnd + 1 =
                byteLen ((u ++ (before ++ "<parameter=".toList)) ++ (key ++ ['>'])) := by
              simp only [byteLen_append, hkeyLen, hmark]
              omega
            rw [hwhole', hoffset', scanValue_append]
            cases hvalue : find "</parameter>".toList value with
            | none => rfl
            | some valueEnd =>
                dsimp only
                rw [← hoffset', ← hoffset]
                simp only [Option.some.injEq, Scan.found.injEq, true_and]
                omega

theorem parseParameters_done (body : Str) (cursor : Nat) (arguments : Value)
    (h : scanParameter body cursor = some .done) :
    parseParameters serde body cursor arguments = some (some arguments) := by
  unfold parseParameters
  split <;> simp_all

theorem parseParameters_malformed (body : Str) (cursor : Nat) (arguments : Value)
    (h : scanParameter body cursor = some .malformed) :
    parseParameters serde body cursor arguments = some none := by
  unfold parseParameters
  split <;> simp_all

theorem parseParameters_found (body key raw : Str) (cursor next : Nat) (arguments : Value)
    (h : scanParameter body cursor = some (.found (key, raw) next)) :
    parseParameters serde body cursor arguments =
      parseParameters serde body next (serde.insert arguments key
        ((serde.fromStr (stripBreaks raw)).getD (serde.string (stripBreaks raw)))) := by
  rw [parseParameters]
  split <;> simp_all

/-- The parameters from the end of a prefix on are those of the rest. -/
theorem parseParameters_append (u rest : Str) (arguments : Value) :
    parseParameters serde (u ++ rest) (byteLen u) arguments =
      some (Chat.parseParameters serde rest arguments) := by
  induction hn : rest.length using Nat.strongRecOn generalizing u rest arguments with
  | ind n ih =>
      subst hn
      have hspec := scanParameter_spec u rest
      unfold Chat.parseParameters
      split
      · rename_i hstart
        rw [hstart] at hspec
        exact parseParameters_done serde _ _ arguments hspec
      · rename_i start hstart
        rw [hstart] at hspec
        dsimp only at hspec ⊢
        split
        · rename_i hkey
          rw [hkey] at hspec
          exact parseParameters_malformed serde _ _ arguments hspec
        · rename_i keyEnd hkey
          rw [hkey] at hspec
          dsimp only at hspec
          split_ifs with hempty
          · rw [if_pos hempty] at hspec
            exact parseParameters_malformed serde _ _ arguments hspec
          · rw [if_neg hempty] at hspec
            split
            · rename_i hvalue
              rw [hvalue] at hspec
              exact parseParameters_malformed serde _ _ arguments hspec
            · rename_i valueEnd hvalue
              rw [hvalue] at hspec
              dsimp only at hspec
              rw [parseParameters_found serde _ _ _ _ _ arguments hspec]
              -- Mark, key, value and closing mark join the prefix.
              rcases find_split hstart with ⟨before, body, hrest, hbefore, -, hdrop, -⟩
              rw [hdrop] at hkey hvalue ⊢
              rcases find_split hkey with ⟨key, value, hbody, hkeyLen, -, hdropValue, -⟩
              rw [show byteLen ['>'] = 1 by decide] at hdropValue
              rw [hdropValue] at hvalue ⊢
              rcases find_split hvalue with ⟨raw, after, hafter, hrawLen, -, hdropAfter, -⟩
              rw [hdropAfter]
              have hwhole : u ++ rest = (u ++ (before ++ ("<parameter=".toList ++
                  (key ++ (['>'] ++ (raw ++ "</parameter>".toList)))))) ++ after := by
                rw [hrest, hbody, hafter]
                simp only [List.append_assoc]
              have hcursor : byteLen u + (start + byteLen "<parameter=".toList + (keyEnd + 1 +
                  (valueEnd + byteLen "</parameter>".toList))) =
                  byteLen (u ++ (before ++ ("<parameter=".toList ++
                    (key ++ (['>'] ++ (raw ++ "</parameter>".toList)))))) := by
                simp only [byteLen_append, hbefore, hkeyLen, hrawLen,
                  show byteLen ['>'] = 1 by decide]
                omega
              rw [hcursor, hwhole]
              refine ih _ ?_ _ _ _ rfl
              rw [hrest, hbody, hafter]
              simp only [List.length_append, List.length_cons, List.length_nil]
              omega

/-- The last closing mark is not where the name ends, so there is room for the character
    between them. -/
theorem lt_functionClose (body name rest u : Str) (hbody : body = name ++ ('>' :: rest))
    (hu : Occurs body "</function>".toList u) (hle : byteLen name ≤ byteLen u) :
    ∃ inner, u = name ++ ('>' :: inner) := by
  have hname : name <+: body := ⟨'>' :: rest, hbody.symm⟩
  rcases prefix_of_byteLen_le hname hu.before hle with ⟨inner, rfl⟩
  rcases hu with ⟨v, hv⟩
  rw [hbody, List.append_assoc] at hv
  have htail := List.append_cancel_left hv
  -- At one and the same place there would be two different characters.
  cases inner with
  | nil => exact absurd (List.cons.inj htail).1 (by decide)
  | cons c inner =>
      rw [List.cons_append] at htail
      exact ⟨inner, by rw [← (List.cons.inj htail).1]⟩

theorem parseFunctionBody_append (front name rest : Str) :
    let body := front ++ ("<function=".toList ++ (name ++ ('>' :: rest)))
    let nameEnd := byteLen (front ++ ("<function=".toList ++ name))
    parseFunctionBody serde body (trim name) nameEnd =
      some (match rfind "</function>".toList body with
        | none => none
        | some functionClose =>
            if functionClose < nameEnd then none
            else
              (Chat.parseParameters serde (takeBytes (functionClose - (nameEnd + 1))
                (dropBytes (nameEnd + 1) body)) serde.emptyObject).bind fun arguments =>
                  (serde.toString arguments).map fun encoded =>
                    { name := trim name, arguments := encoded }) := by
  dsimp only
  unfold parseFunctionBody
  have hbody : front ++ ("<function=".toList ++ (name ++ ('>' :: rest))) =
      (front ++ ("<function=".toList ++ name)) ++ ('>' :: rest) := by
    simp only [List.append_assoc]
  rw [hbody]
  generalize front ++ ("<function=".toList ++ name) = upto
  cases hclose : rfind "</function>".toList (upto ++ ('>' :: rest)) with
  | none => rfl
  | some functionClose =>
      dsimp only
      by_cases hlt : functionClose < byteLen upto
      · rw [if_pos hlt, if_pos hlt]
      · rw [if_neg hlt, if_neg hlt]
        rcases rfind_spec hclose with ⟨u, hu, rfl, -⟩
        rcases lt_functionClose _ upto rest u rfl hu (by omega) with ⟨inner, rfl⟩
        -- The parameters are between the name's mark and the closing one.
        rcases hu with ⟨v, hv⟩
        have hwhole : upto ++ ('>' :: rest) =
            (upto ++ ['>']) ++ (inner ++ ("</function>".toList ++ v)) := by
          rw [hv]
          simp only [List.append_assoc, List.cons_append, List.nil_append]
        have hend : byteLen (upto ++ ('>' :: inner)) =
            byteLen (upto ++ ['>']) + byteLen inner := by
          simp only [byteLen_append, byteLen_cons, byteLen_nil]
          omega
        have hstart : byteLen upto + 1 = byteLen (upto ++ ['>']) := by
          rw [byteLen_append]
          rfl
        rw [hstart, hend, hwhole, slice_append, dropBytes_append, Nat.add_sub_cancel_left,
          takeBytes_append]
        dsimp only
        have hparameters := parseParameters_append serde [] inner serde.emptyObject
        rw [List.nil_append, byteLen_nil] at hparameters
        rw [hparameters, Option.map_some]
        cases Chat.parseParameters serde inner serde.emptyObject <;> rfl

/-- The function called in a body, with its slices, is the function called in it. -/
theorem parseFunction_total (body : Str) :
    parseFunction serde body = some (Chat.parseFunction serde body) := by
  unfold parseFunction
  by_cases hjson : ['{'].isPrefixOf (trim body) = true
  · rw [if_pos hjson]
  · rw [if_neg hjson]
    unfold Chat.parseFunction parseFunctionElement
    dsimp only
    rw [if_neg hjson]
    generalize trim body = body
    cases hfunction : find "<function=".toList body with
    | none => rfl
    | some start =>
        -- Each slice begins where a search has ended, so it is at a boundary and cannot fail.
        rcases find_split hfunction with ⟨front, tail, rfl, hfront, -, hdrop, -⟩
        simp only [bind, Option.bind_some]
        rw [hdrop]
        have hwhole : front ++ ("<function=".toList ++ tail) =
            (front ++ "<function=".toList) ++ tail := by
          rw [List.append_assoc]
        have hstart : start + byteLen "<function=".toList =
            byteLen (front ++ "<function=".toList) := by
          rw [byteLen_append, hfront]
        rw [hwhole, hstart, sliceFrom_append]
        dsimp only
        cases hname : find ['>'] tail with
        | none => rfl
        | some relativeEnd =>
            rcases find_split hname with ⟨name, rest, rfl, hnameLen, htake, -, -⟩
            have hslice := slice_append (front ++ "<function=".toList) name (['>'] ++ rest)
            rw [hnameLen] at hslice
            simp only [Option.map_some, Option.bind_some, Nat.add_sub_cancel]
            rw [Nat.add_comm relativeEnd, hslice, htake]
            dsimp only
            by_cases hempty : trim name = []
            · rw [if_pos hempty, if_pos hempty]
            · rw [if_neg hempty, if_neg hempty]
              have hbody := parseFunctionBody_append serde front name rest
              have hend : byteLen (front ++ "<function=".toList) + relativeEnd =
                  byteLen (front ++ ("<function=".toList ++ name)) := by
                simp only [byteLen_append, hnameLen]
                omega
              rw [hend, List.append_assoc]
              dsimp only at hbody
              rw [show ['>'] ++ rest = '>' :: rest from rfl, hbody]
              cases rfind "</function>".toList
                  (front ++ ("<function=".toList ++ (name ++ '>' :: rest))) with
              | none => rfl
              | some functionClose =>
                  simp only [Option.bind_some, Option.map_eq_bind]
                  rfl

theorem parseToolCall_total (body requestId : Str) (index : Nat) :
    parseToolCall serde body requestId index =
      some (Chat.parseToolCall serde body requestId index) := by
  unfold parseToolCall
  rw [parseFunction_total]
  rfl

/-! ## Tool calls -/

/-- A search from the end of a prefix is a search in the rest. -/
theorem scanToolCall_spec (u rest : Str) :
    scanToolCall (u ++ rest) (byteLen u) =
      match find toolCallOpen rest with
      | none => some .done
      | some start =>
          let body := dropBytes (start + byteLen toolCallOpen) rest
          match find toolCallClose body with
          | none => some .malformed
          | some stop => some (.found (takeBytes stop body)
              (byteLen u + (start + byteLen toolCallOpen + (stop + byteLen toolCallClose)))) := by
  unfold scanToolCall
  rw [sliceFrom_append]
  dsimp only
  cases hstart : find toolCallOpen rest with
  | none => rfl
  | some start =>
      rcases find_split hstart with ⟨before, body, rfl, hbefore, -, hdrop, -⟩
      dsimp only
      rw [hdrop]
      have hwhole : u ++ (before ++ (toolCallOpen ++ body)) =
          (u ++ (before ++ toolCallOpen)) ++ body := by
        simp only [List.append_assoc]
      have hoffset : byteLen u + start + byteLen toolCallOpen =
          byteLen (u ++ (before ++ toolCallOpen)) := by
        rw [byteLen_append, byteLen_append, hbefore, Nat.add_assoc]
      rw [hwhole, hoffset, sliceFrom_append]
      dsimp only
      cases hstop : find toolCallClose body with
      | none => rfl
      | some stop =>
          -- The body ends at the closing mark, and the cursor behind it.
          rcases find_split hstop with ⟨call, after, hbody, hcall, htake, -, -⟩
          have hslice := slice_append (u ++ (before ++ toolCallOpen)) call (toolCallClose ++ after)
          rw [← hbody, hcall] at hslice
          dsimp only
          rw [hslice, htake, ← hoffset, Option.map_some]
          simp only [Option.some.injEq, Scan.found.injEq, true_and]
          omega

theorem parseToolCalls_done (requestId visible : Str) (cursor : Nat) (calls : List OutputToolCall)
    (h : scanToolCall visible cursor = some .done) :
    parseToolCalls serde requestId visible cursor calls = some (some calls) := by
  unfold parseToolCalls
  split <;> simp_all

theorem parseToolCalls_malformed (requestId visible : Str) (cursor : Nat)
    (calls : List OutputToolCall) (h : scanToolCall visible cursor = some .malformed) :
    parseToolCalls serde requestId visible cursor calls = some none := by
  unfold parseToolCalls
  split <;> simp_all

theorem parseToolCalls_found (requestId visible body after : Str) (cursor next : Nat)
    (calls : List OutputToolCall) (h : scanToolCall visible cursor = some (.found body next))
    (hafter : sliceFrom visible next = some after) :
    parseToolCalls serde requestId visible cursor calls =
      match Chat.parseToolCall serde body requestId calls.length with
      | none => some none
      | some call =>
          if trim after ≠ [] ∧ ¬toolCallOpen.isPrefixOf (trimStart after) then some none
          else parseToolCalls serde requestId visible next (calls ++ [call]) := by
  rw [parseToolCalls]
  split
  · simp_all
  · simp_all
  · simp_all
  · rename_i body' next' h'
    rw [h, Option.some.injEq, Scan.found.injEq] at h'
    rcases h' with ⟨rfl, rfl⟩
    rw [parseToolCall_total, hafter]
    cases Chat.parseToolCall serde body requestId calls.length <;> rfl

/-- The calls from the end of a prefix on are those of the rest. -/
theorem parseToolCalls_append (requestId u rest : Str) (calls : List OutputToolCall) :
    parseToolCalls serde requestId (u ++ rest) (byteLen u) calls =
      some (Chat.parseToolCalls serde requestId rest calls) := by
  induction hn : rest.length using Nat.strongRecOn generalizing u rest calls with
  | ind n ih =>
      subst hn
      have hspec := scanToolCall_spec u rest
      unfold Chat.parseToolCalls
      split
      · rename_i hstart
        rw [hstart] at hspec
        exact parseToolCalls_done serde requestId _ _ calls hspec
      · rename_i start hstart
        rw [hstart] at hspec
        dsimp only at hspec ⊢
        rcases find_split hstart with ⟨before, tail, hrest, hbefore, -, hdrop, -⟩
        rw [hdrop] at hspec ⊢
        split
        · rename_i hstop
          rw [hstop] at hspec
          exact parseToolCalls_malformed serde requestId _ _ calls hspec
        · rename_i stop hstop
          rw [hstop] at hspec
          dsimp only at hspec
          rcases find_split hstop with ⟨body, after, htail, hbody, htake, hdropAfter, -⟩
          rw [hdropAfter]
          -- Mark, body and closing mark join the prefix.
          have hwhole : u ++ rest =
              (u ++ (before ++ (toolCallOpen ++ (body ++ toolCallClose)))) ++ after := by
            rw [hrest, htail]
            simp only [List.append_assoc]
          have hcursor : byteLen u + (start + byteLen toolCallOpen +
              (stop + byteLen toolCallClose)) =
              byteLen (u ++ (before ++ (toolCallOpen ++ (body ++ toolCallClose)))) := by
            simp only [byteLen_append, hbefore, hbody]
            omega
          rw [hcursor] at hspec
          have hafter : sliceFrom (u ++ rest)
              (byteLen (u ++ (before ++ (toolCallOpen ++ (body ++ toolCallClose))))) =
              some after := by
            rw [hwhole, sliceFrom_append]
          rw [parseToolCalls_found serde requestId _ _ after _ _ calls hspec hafter]
          cases Chat.parseToolCall serde (takeBytes stop tail) requestId calls.length with
          | none => rfl
          | some call =>
              dsimp only
              split_ifs with hmalformed
              · rfl
              · rw [hwhole]
                refine ih _ ?_ _ _ _ rfl
                have hopen : toolCallOpen.length = 11 := by decide
                rw [hrest, htail]
                simp only [List.length_append]
                omega

theorem splitReasoning_total (raw : Str) (thinkingEnabled : Bool) :
    splitReasoning raw thinkingEnabled = some (Chat.splitReasoning raw thinkingEnabled) := by
  unfold splitReasoning Chat.splitReasoning
  cases thinkingEnabled with
  | false => rfl
  | true =>
      simp only [Bool.not_true, Bool.false_eq_true, if_false]
      cases hclose : find "</think>".toList raw with
      | none => rfl
      | some close =>
          rcases find_split hclose with ⟨before, after, rfl, hbefore, htake, hdrop, -⟩
          have hwhole : before ++ ("</think>".toList ++ after) =
              (before ++ "</think>".toList) ++ after := by
            rw [List.append_assoc]
          have hafter : sliceFrom (before ++ ("</think>".toList ++ after))
              (close + byteLen "</think>".toList) = some after := by
            rw [hwhole, ← hbefore, ← byteLen_append, sliceFrom_append]
          have hto : sliceTo (before ++ ("</think>".toList ++ after)) close = some before := by
            rw [← hbefore, sliceTo_append]
          dsimp only
          rw [hto, hafter, htake, hdrop]

/-- Every slice the parser takes is in range and on a boundary, and the message is that of
    the parser that works on what is left of the text. -/
theorem parseAssistantOutput_total (raw : Str) (thinkingEnabled : Bool) (requestId : Str) :
    parseAssistantOutput serde raw thinkingEnabled requestId =
      some (Chat.parseAssistantOutput serde raw thinkingEnabled requestId) := by
  unfold parseAssistantOutput Chat.parseAssistantOutput parseVisible
  rw [splitReasoning_total, Option.bind_some]
  dsimp only
  generalize (Chat.splitReasoning raw thinkingEnabled).2 = visible
  cases hfirst : find toolCallOpen visible with
  | none => rfl
  | some firstTool =>
      rcases find_split hfirst with ⟨before, rest, rfl, rfl, htake, -, -⟩
      have hcalls := parseToolCalls_append serde requestId before (toolCallOpen ++ rest) []
      dsimp only
      rw [sliceTo_append, hcalls, dropBytes_append, takeBytes_append]
      cases Chat.parseToolCalls serde requestId (toolCallOpen ++ rest) [] <;> rfl

end Total

end Checked

/-! ## Blocks -/

/-- A tool call in a text: what is between its marks, and the white space after it. -/
structure Block where
  body : Str
  after : Str
  closed : Free toolCallClose body
  blank : ∀ c ∈ after, isWhitespace c = true

/-- A text made of tool calls. -/
def blocksText (blocks : List Block) : Str :=
  blocks.flatMap fun block => toolCallOpen ++ (block.body ++ (toolCallClose ++ block.after))

/-- The identifier of a call. -/
def callId (requestId : Str) (index : Nat) : Str :=
  "call_".toList ++ requestId ++ ['_'] ++ (toString index).toList

/-- The message in what is visible of a text is one of two: the markup is malformed and the
    whole text is content, or the text is a prefix and blocks, and there is one call for each
    block. -/
def ParsesAs {Value : Type} (serde : Serde Value) (requestId visible : Str)
    (parsed : ParsedAssistant) : Prop :=
  (parsed.malformedToolMarkup = true ∧ parsed.toolCalls = [] ∧
      parsed.content = nonempty (trim visible)) ∨
    parsed.malformedToolMarkup = false ∧
      ∃ (before : Str) (blocks : List Block), visible = before ++ blocksText blocks ∧
        Free toolCallOpen before ∧
        parsed.content = nonempty (if blocks = [] then trim before else trimEnd before) ∧
        parsed.toolCalls.length = blocks.length ∧
        ∀ (i : Nat) (block : Block), blocks[i]? = some block →
          ∃ call, parsed.toolCalls[i]? = some call ∧
            parseToolCall serde block.body requestId i = some call ∧ call.id = callId requestId i

theorem parseToolCall_id {Value : Type} (serde : Serde Value) (body requestId : Str) (index : Nat)
    (call : OutputToolCall) (h : parseToolCall serde body requestId index = some call) :
    call.id = callId requestId index := by
  rcases Option.map_eq_some_iff.mp h with ⟨function, -, rfl⟩
  rfl

/-! ## White space -/

theorem not_mem_of_blank (s : Str) (h : ∀ c ∈ s, isWhitespace c = true) : '<' ∉ s := by
  intro hmem
  exact absurd (h '<' hmem) (by decide)

/-- A text with nothing left after trimming is white space. -/
theorem blank_of_trim (s : Str) (h : trim s = []) : ∀ c ∈ s, isWhitespace c = true := by
  have hstart : trimStart s = [] := by
    unfold trim trimEnd at h
    rw [List.reverse_eq_nil_iff] at h
    -- The first character kept would be kept at the end too.
    by_contra hne
    cases hs : trimStart s with
    | nil => exact hne hs
    | cons c rest =>
        have hc : isWhitespace c = false := by
          unfold trimStart at hs
          have hhead := List.head?_dropWhile_not (p := isWhitespace) s
          rw [hs] at hhead
          simpa using hhead
        rw [hs, List.dropWhile_eq_nil_iff] at h
        exact absurd (h c (by simp)) (by simp [hc])
  exact List.dropWhile_eq_nil_iff.mp hstart

/-- The white space that trimming takes away, and what it leaves. -/
theorem trimStart_split (s : Str) :
    ∃ space, s = space ++ trimStart s ∧ ∀ c ∈ space, isWhitespace c = true :=
  ⟨s.takeWhile isWhitespace, (List.takeWhile_append_dropWhile).symm,
    fun _ hc => List.mem_takeWhile_imp hc⟩

theorem toolCallOpen_isTag : IsTag toolCallOpen := by decide

/-! ## Accepted texts -/

section Accepted

variable {Value : Type} (serde : Serde Value)

/-- White space holds no tool call. -/
theorem parseToolCalls_blank (requestId space : Str) (calls : List OutputToolCall)
    (hspace : ∀ c ∈ space, isWhitespace c = true) :
    parseToolCalls serde requestId space calls = some calls := by
  have hnone : find toolCallOpen space = none :=
    find_eq_none_iff_free.mpr (free_of_not_mem '<' _ space (not_mem_of_blank space hspace))
  unfold parseToolCalls
  split
  · rfl
  · simp_all

/-- What the parser does with white space, a mark and more: it reads the body up to the first
    closing mark and goes on after it. -/
theorem parseToolCalls_open (requestId space rest : Str) (calls result : List OutputToolCall)
    (hspace : ∀ c ∈ space, isWhitespace c = true)
    (h : parseToolCalls serde requestId (space ++ (toolCallOpen ++ rest)) calls = some result) :
    ∃ body after call, rest = body ++ (toolCallClose ++ after) ∧ Free toolCallClose body ∧
      parseToolCall serde body requestId calls.length = some call ∧
      (trim after = [] ∨ toolCallOpen <+: trimStart after) ∧
      parseToolCalls serde requestId after (calls ++ [call]) = some result := by
  have hfree : Free toolCallOpen space :=
    free_of_not_mem '<' _ space (not_mem_of_blank space hspace)
  have hfind := find_tag (v := rest) toolCallOpen_isTag hfree
  unfold parseToolCalls at h
  split at h
  · rename_i hnone
    exact absurd (hnone.symm.trans hfind) (by simp)
  · rename_i start hstart
    rcases find_split hstart with ⟨u, v, hsplit, hlen, -, hdrop, -⟩
    rw [hstart, Option.some.injEq] at hfind
    -- The mark found is the one after the white space.
    have hrest : v = rest := by
      have hu : u = space := prefix_eq_of_byteLen_eq (t := space ++ (toolCallOpen ++ rest))
        ⟨toolCallOpen ++ v, hsplit.symm⟩ (List.prefix_append space _) (hlen.trans hfind)
      rw [hu] at hsplit
      exact (List.append_cancel_left (List.append_cancel_left hsplit)).symm
    dsimp only at h
    rw [hdrop, hrest] at h
    split at h
    · exact absurd h (by simp)
    · rename_i stop hstop
      rcases find_split hstop with ⟨body, after, hbody, hbodyLen, htake, hdropAfter, hmin⟩
      rw [hdropAfter, htake] at h
      cases hcall : parseToolCall serde body requestId calls.length with
      | none =>
          rw [hcall] at h
          exact absurd h (by simp)
      | some call =>
          rw [hcall] at h
          dsimp only at h
          split_ifs at h with hmalformed
          refine ⟨body, after, call, hbody, ?_, hcall, ?_, h⟩
          · -- A mark inside the body would have been found first.
            intro w hw
            have hends := hw.byteLen_le
            have hwidth : byteLen toolCallClose = 12 := by decide
            have hle := hmin w (hw.extend ⟨toolCallClose ++ after, hbody.symm⟩)
            omega
          · by_cases hblank : trim after = []
            · exact .inl hblank
            · refine .inr (List.isPrefixOf_iff_prefix.mp ?_)
              by_contra hnot
              exact hmalformed ⟨hblank, hnot⟩

/-- Calls that are read are those of the blocks the text is made of. -/
theorem parseToolCalls_blocks (requestId space rest : Str) (calls result : List OutputToolCall)
    (hspace : ∀ c ∈ space, isWhitespace c = true) (hrest : rest = [] ∨ toolCallOpen <+: rest)
    (h : parseToolCalls serde requestId (space ++ rest) calls = some result) :
    ∃ (blocks : List Block) (added : List OutputToolCall), rest = blocksText blocks ∧
      result = calls ++ added ∧ added.length = blocks.length ∧
      ∀ (i : Nat) (block : Block), blocks[i]? = some block →
        ∃ call, added[i]? = some call ∧
          parseToolCall serde block.body requestId (calls.length + i) = some call := by
  induction hn : rest.length using Nat.strongRecOn generalizing space rest calls with
  | ind n ih =>
      subst hn
      rcases hrest with rfl | ⟨tail, rfl⟩
      · rw [List.append_nil, parseToolCalls_blank serde requestId space calls hspace,
          Option.some.injEq] at h
        refine ⟨[], [], rfl, by rw [← h, List.append_nil], rfl, fun i block hblock => ?_⟩
        exact absurd hblock (by simp)
      · rcases parseToolCalls_open serde requestId space tail calls result hspace h with
          ⟨body, after, call, rfl, hclosed, hcall, hafter, hmore⟩
        rcases trimStart_split after with ⟨space', hsplit, hspace'⟩
        -- What follows the white space is nothing or another block.
        have hnext : trimStart after = [] ∨ toolCallOpen <+: trimStart after := by
          rcases hafter with hblank | hopen
          · exact .inl (List.dropWhile_eq_nil_iff.mpr (blank_of_trim after hblank))
          · exact .inr hopen
        rw [hsplit] at hmore
        have hshorter : (trimStart after).length <
            (toolCallOpen ++ (body ++ (toolCallClose ++ after))).length := by
          have hlen := congrArg List.length hsplit
          have hopen : toolCallOpen.length = 11 := by decide
          simp only [List.length_append] at hlen ⊢
          omega
        rcases ih _ hshorter space' (trimStart after) (calls ++ [call]) hspace' hnext hmore rfl with
          ⟨blocks, added, htext, hresult, hlength, hparsed⟩
        refine ⟨{ body := body, after := space', closed := hclosed, blank := hspace' } :: blocks,
          call :: added, ?_, ?_, ?_, ?_⟩
        · rw [blocksText, List.flatMap_cons, ← blocksText, ← htext]
          conv_lhs => rw [hsplit]
          simp only [List.append_assoc]
        · rw [hresult, List.append_assoc]
          rfl
        · rw [List.length_cons, List.length_cons, hlength]
        · intro i block hblock
          cases i with
          | zero =>
              rw [List.getElem?_cons_zero, Option.some.injEq] at hblock
              rw [← hblock]
              exact ⟨call, rfl, hcall⟩
          | succ i =>
              rw [List.getElem?_cons_succ] at hblock
              rcases hparsed i block hblock with ⟨call', hadded, hparse⟩
              refine ⟨call', hadded, ?_⟩
              rw [← hparse, List.length_append, List.length_singleton, Nat.add_assoc,
                Nat.add_comm 1 i]

/-- What the message in what is visible of a text is. -/
theorem parseAssistantOutput_parsesAs (raw : Str) (thinkingEnabled : Bool) (requestId : Str) :
    ParsesAs serde requestId (splitReasoning raw thinkingEnabled).2
      (parseAssistantOutput serde raw thinkingEnabled requestId) := by
  unfold parseAssistantOutput
  dsimp only
  generalize (splitReasoning raw thinkingEnabled).2 = visible
  cases hfirst : find toolCallOpen visible with
  | none =>
      refine .inr ⟨rfl, visible, [], by simp [blocksText], find_eq_none_iff_free.mp hfirst, rfl,
        rfl, fun i block hblock => absurd hblock (by simp)⟩
  | some firstTool =>
      rcases find_split hfirst with ⟨before, rest, rfl, rfl, htake, -, hmin⟩
      dsimp only
      rw [dropBytes_append, takeBytes_append]
      cases hcalls : parseToolCalls serde requestId (toolCallOpen ++ rest) [] with
      | none => exact .inl ⟨rfl, rfl, rfl⟩
      | some calls =>
          rcases parseToolCalls_blocks serde requestId [] (toolCallOpen ++ rest) [] calls
            (fun c hc => absurd hc List.not_mem_nil) (.inr (List.prefix_append _ rest)) hcalls with
            ⟨blocks, added, htext, hresult, hlength, hparsed⟩
          rw [List.nil_append] at hresult
          subst hresult
          -- There is a mark, so there is a block.
          have hblocks : blocks ≠ [] := by
            rintro rfl
            rw [blocksText, List.flatMap_nil, List.append_eq_nil_iff] at htext
            exact absurd htext.1 (by decide)
          refine .inr ⟨rfl, before, blocks, congrArg (before ++ ·) htext, ?_, ?_, hlength, ?_⟩
          · intro w hw
            have hends := hw.byteLen_le
            have hwidth : byteLen toolCallOpen = 11 := by decide
            have hle := hmin w (hw.extend (List.prefix_append before _))
            omega
          · rw [if_neg hblocks]
          · intro i block hblock
            rcases hparsed i block hblock with ⟨call, hcall, hparse⟩
            rw [List.length_nil, Nat.zero_add] at hparse
            exact ⟨call, hcall, hparse, parseToolCall_id serde _ requestId i call hparse⟩

end Accepted

/-- The parser returns a message for every text, no slice of it fails, and the message is one
    of two: malformed markup taken as content, or one call for each block of the text. -/
theorem parseAssistantOutput_total_parsesAs {Value : Type} (serde : Serde Value) (raw : Str)
    (thinkingEnabled : Bool) (requestId : Str) :
    ∃ parsed, Checked.parseAssistantOutput serde raw thinkingEnabled requestId = some parsed ∧
      ParsesAs serde requestId (splitReasoning raw thinkingEnabled).2 parsed :=
  ⟨parseAssistantOutput serde raw thinkingEnabled requestId,
    Checked.parseAssistantOutput_total serde raw thinkingEnabled requestId,
    parseAssistantOutput_parsesAs serde raw thinkingEnabled requestId⟩

end Chat

end QrtEngine
