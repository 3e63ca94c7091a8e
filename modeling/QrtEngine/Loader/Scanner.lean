import Mathlib.Algebra.Order.Ring.Int
import QrtEngine.Library.CText
import QrtEngine.Library.Cells
import QrtEngine.Library.JsonGrammar

/-!
# The JSON Scanner of the Loader

The loader reads the index of a model and the headers of its shards with a few functions that scan
a NUL-terminated text: `qrt_json_skip_ws`, `qrt_json_parse_string`, `qrt_json_skip_value`,
`qrt_find_token_until` and `qrt_json_read_data_offsets_until`. Each takes a pointer and returns
where it has stopped. None of them ever passes the NUL, whatever the text holds, and the parser of
strings stays inside its output.

## Main definitions

* `skipWs`, `parseString`, `skipValue`: The scanner.
* `findTokenUntil`, `readDataOffsetsUntil`: The reader of the offsets of a tensor.

## Theorems

* `skipWs_load_safe`, `skipWs_strtoull_safe`: Rules for what goes on behind blanks.
* `parseLetters_safe`, `parseString_safe`: A string ends behind its quote, and its output is as
  long as before.
* `skipValue_safe`: A value ends ahead of its start.
* `readDataOffsetsUntil_safe`: Offsets that are read are in order.
-/

namespace QrtEngine

namespace Loader

open CText JsonGrammar

/-! ## Strings -/

/-- `qrt_json_skip_ws`. -/
def skipWs (cursor : List UInt8) : Except Stop (List UInt8) := skipWhile isBlank cursor

/-- Store a byte in a block, stopping outside it. -/
def store (block : List UInt8) (index : Nat) (ch : UInt8) : Except Stop (List UInt8) :=
  match storeCell block index ch with
  | some block => .ok block
  | none => .error .outside

/-- Store a letter if there is room for it and a NUL behind it. -/
def storeLetter (block : List UInt8) (len : Nat) (ch : UInt8) : Except Stop (List UInt8) :=
  if 0 < block.length ∧ len + 1 < block.length then store block len ch else .ok block

/-- Store the NUL behind the letters, or in the last cell if there were more. -/
def terminate (block : List UInt8) (len : Nat) : Except Stop (List UInt8) :=
  if 0 < block.length then store block (if len < block.length then len else block.length - 1) 0
  else .ok block

/-- The loop of `qrt_json_parse_string`, behind the opening quote. The number counts the letters,
    also those that did not fit. -/
def parseLetters (block : List UInt8) (len : Nat) :
    List UInt8 → Except Stop (List UInt8 × List UInt8)
  | [] => .error .outside
  | ch :: p =>
      if ch = 0 then .error .refused
      else if ch = quote then do
        let block ← terminate block len
        .ok (block, p)
      else if ch = backslash then
        match p with
        | [] => .error .outside
        | escaped :: p' =>
            -- A backslash in front of the NUL stands for itself.
            if escaped ≠ 0 then do
              let block ← storeLetter block len escaped
              parseLetters block (len + 1) p'
            else do
              let block ← storeLetter block len ch
              parseLetters block (len + 1) (escaped :: p')
      else do
        let block ← storeLetter block len ch
        parseLetters block (len + 1) p

/-- `qrt_json_parse_string`. The output and the cursor behind the closing quote. An output of no
    capacity stands for the null pointer too. -/
def parseString (cursor block : List UInt8) : Except Stop (List UInt8 × List UInt8) := do
  let p ← skipWs cursor
  let ch ← load p
  if ch = quote then parseLetters block 0 p.tail else .error .refused

section Strings

variable {done block : List UInt8}

theorem store_front {front : List UInt8} (h : front <+: block) (hroom : front.length < block.length)
    (ch : UInt8) :
    ∃ block', store block front.length ch = .ok block' ∧ front ++ [ch] <+: block' ∧
      block'.length = block.length := by
  rcases storeCell_front block front ch h hroom with ⟨block', hstore, hfront, hlength⟩
  refine ⟨block', ?_, hfront, hlength⟩
  rw [store, hstore]

/-- A letter extends what the output begins with, as far as there is room. -/
theorem storeLetter_front (h : done.take (block.length - 1) <+: block) (ch : UInt8) :
    ∃ block', storeLetter block done.length ch = .ok block' ∧
      (done ++ [ch]).take (block'.length - 1) <+: block' ∧ block'.length = block.length := by
  rw [storeLetter]
  -- One cell is kept for the NUL, so all the letters so far have fit, or this one does not.
  by_cases hroom : 0 < block.length ∧ done.length + 1 < block.length
  · have hdone : done.take (block.length - 1) = done := List.take_of_length_le (by omega)
    rw [hdone] at h
    rcases store_front h (by omega) ch with ⟨block', hstore, hfront, hlength⟩
    refine ⟨block', by rw [if_pos hroom, hstore], ?_, hlength⟩
    exact (List.take_prefix _ _).trans hfront
  · refine ⟨block, if_neg hroom, ?_, rfl⟩
    by_cases hempty : block.length = 0
    · rw [hempty]
      exact List.nil_prefix
    · rw [List.take_append_of_le_length (by omega)]
      exact h

/-- The NUL stands behind the letters that fit. -/
theorem terminate_front (h : done.take (block.length - 1) <+: block) :
    ∃ block', terminate block done.length = .ok block' ∧ block'.length = block.length ∧
      (0 < block.length → done.take (block.length - 1) ++ [0] <+: block') := by
  rw [terminate]
  by_cases hroom : 0 < block.length
  · have hlength : (done.take (block.length - 1)).length =
        if done.length < block.length then done.length else block.length - 1 := by
      rw [List.length_take]
      by_cases hfits : done.length < block.length
      · rw [if_pos hfits]
        omega
      · rw [if_neg hfits]
        omega
    rcases store_front h (by rw [List.length_take]; omega) 0 with ⟨block', hstore, hfront, hsame⟩
    refine ⟨block', ?_, hsame, fun _ => hfront⟩
    rw [if_pos hroom, ← hlength, hstore]
  · exact ⟨block, if_neg hroom, rfl, fun hpos => absurd hpos hroom⟩

/-- What the output holds once a string has been parsed: as many of its letters as fit, and a
    NUL. -/
def Holds (block : List UInt8) (letters : List UInt8) : Prop :=
  0 < block.length → letters.take (block.length - 1) ++ [0] <+: block

/-! What the loop does at a quote, at a letter and at an escape. -/

theorem parseLetters_quote (block : List UInt8) (len : Nat) (p : List UInt8) :
    parseLetters block len (quote :: p) =
      terminate block len >>= fun block => .ok (block, p) := by
  rw [parseLetters.eq_def]
  rfl

theorem parseLetters_plain {ch : UInt8} (hnul : ch ≠ 0) (hquote : ch ≠ quote)
    (hbackslash : ch ≠ backslash) (block : List UInt8) (len : Nat) (p : List UInt8) :
    parseLetters block len (ch :: p) =
      storeLetter block len ch >>= fun block => parseLetters block (len + 1) p := by
  rw [parseLetters.eq_def]
  simp only [if_neg hnul, if_neg hquote, if_neg hbackslash]

theorem parseLetters_escape {ch : UInt8} (hnul : ch ≠ 0) (block : List UInt8) (len : Nat)
    (p : List UInt8) :
    parseLetters block len (backslash :: ch :: p) =
      storeLetter block len ch >>= fun block => parseLetters block (len + 1) p := by
  rw [parseLetters.eq_def]
  simp only [if_neg (show backslash ≠ 0 by decide), if_neg (show backslash ≠ quote by decide),
    if_pos hnul, if_true]

/-- A string that ends at the NUL is refused, also behind a backslash. -/
theorem parseLetters_nul (block : List UInt8) (len : Nat) (p : List UInt8) :
    parseLetters block len (0 :: p) = .error .refused := by
  rw [parseLetters.eq_def]
  rfl

theorem parseLetters_backslash_nul (h : done.take (block.length - 1) <+: block)
    (p : List UInt8) :
    parseLetters block done.length (backslash :: 0 :: p) = .error .refused := by
  rcases storeLetter_front h backslash with ⟨block', hstore, -, -⟩
  rw [parseLetters.eq_def]
  simp only [if_neg (show backslash ≠ 0 by decide), if_neg (show backslash ≠ quote by decide),
    if_neg (show ¬(0 : UInt8) ≠ 0 by decide), if_true, hstore]
  exact parseLetters_nul block' _ p

/-- A letter is stored, and the rest of a string is parsed behind it. -/
theorem parseLetters_next {p rest letters : List UInt8} (h : done.take (block.length - 1) <+: block)
    (ch : UInt8)
    (hrest : ∀ {done block : List UInt8}, done.take (block.length - 1) <+: block →
      ∃ block', parseLetters block done.length p = .ok (block', rest) ∧
        block'.length = block.length ∧ Holds block' (done ++ letters)) :
    ∃ block', (storeLetter block done.length ch >>= fun block =>
        parseLetters block (done.length + 1) p) = .ok (block', rest) ∧
      block'.length = block.length ∧ Holds block' (done ++ ch :: letters) := by
  rcases storeLetter_front h ch with ⟨block', hstore, hfront, hlength⟩
  rcases hrest hfront with ⟨final, hparse, hsame, hholds⟩
  refine ⟨final, ?_, hsame.trans hlength, ?_⟩
  · rw [hstore]
    rw [List.length_append] at hparse
    exact hparse
  · rw [List.append_assoc, List.singleton_append] at hholds
    exact hholds

/-- A string is parsed up to its closing quote. -/
theorem parseLetters_body {body letters : List UInt8} (h : StringBody body letters)
    (rest : List UInt8) :
    ∀ {done block : List UInt8}, done.take (block.length - 1) <+: block →
      ∃ block', parseLetters block done.length (body ++ quote :: rest) = .ok (block', rest) ∧
        block'.length = block.length ∧ Holds block' (done ++ letters) := by
  induction h with
  | nil =>
      intro done block hfront
      rcases terminate_front hfront with ⟨block', hstore, hlength, hholds⟩
      refine ⟨block', ?_, hlength, ?_⟩
      · rw [List.nil_append, parseLetters_quote, hstore]
        rfl
      · rw [Holds, List.append_nil, hlength]
        exact hholds
  | @plain ch body letters hnul hquote hbackslash _ ih =>
      intro done block hfront
      rw [List.cons_append, parseLetters_plain hnul hquote hbackslash]
      exact parseLetters_next hfront ch ih
  | @escape ch body letters hnul _ ih =>
      -- Behind a backslash any letter stands for itself.
      intro done block hfront
      rw [List.cons_append, List.cons_append, parseLetters_escape hnul]
      exact parseLetters_next hfront ch ih

/-- Whatever the text, the parser stays inside its output, and what it has passed is a string. -/
theorem parseLetters_safe : ∀ {p : List UInt8}, 0 ∈ p → ∀ {done block : List UInt8},
    done.take (block.length - 1) <+: block →
      Safe (fun parsed => ∃ body letters, p = body ++ quote :: parsed.2 ∧
        StringBody body letters ∧ parsed.1.length = block.length ∧
        Holds parsed.1 (done ++ letters)) (parseLetters block done.length p) := by
  intro p
  induction hlength : p.length using Nat.strong_induction_on generalizing p with
  | _ n ih =>
      intro hp done block hfront
      cases p with
      | nil => exact absurd hp List.not_mem_nil
      | cons ch p =>
          by_cases hnul : ch = 0
          · rw [hnul, parseLetters_nul]
            exact rfl
          have hbehind := (Ahead.step hnul p).mem hp
          by_cases hquote : ch = quote
          · rcases terminate_front hfront with ⟨block', hstore, hsame, hholds⟩
            rw [hquote, parseLetters_quote, hstore]
            refine ⟨[], [], rfl, StringBody.nil, hsame, ?_⟩
            rw [Holds, List.append_nil, hsame]
            exact hholds
          -- A letter, as it stands or behind a backslash: the rest is parsed by induction.
          have hletter : ∀ (letter : UInt8) (front rest : List UInt8), ch :: p = front ++ rest →
              (∀ body letters, StringBody body letters →
                StringBody (front ++ body) (letter :: letters)) →
              rest.length < n → 0 ∈ rest →
              Safe (fun parsed => ∃ body letters, ch :: p = body ++ quote :: parsed.2 ∧
                StringBody body letters ∧ parsed.1.length = block.length ∧
                Holds parsed.1 (done ++ letters))
                (storeLetter block done.length letter >>= fun block =>
                  parseLetters block (done.length + 1) rest) := by
            intro letter front rest hsplit hbody hshort hrest
            rcases storeLetter_front hfront letter with ⟨block', hstore, hfront', hsame⟩
            rw [hstore]
            have hparsed := ih rest.length hshort rfl hrest hfront'
            rw [List.length_append] at hparsed
            refine Safe.mono hparsed ?_
            rintro ⟨final, q⟩ ⟨body, letters, hq, hstring, hlast, hholds⟩
            refine ⟨front ++ body, letter :: letters, ?_, hbody body letters hstring,
              hlast.trans hsame, ?_⟩
            · rw [hsplit, hq, List.append_assoc]
            · rw [List.append_assoc, List.singleton_append] at hholds
              exact hholds
          rw [List.length_cons] at hlength
          by_cases hbackslash : ch = backslash
          · cases p with
            | nil => exact absurd hbehind List.not_mem_nil
            | cons escaped p =>
                by_cases hescaped : escaped = 0
                · rw [hbackslash, hescaped, parseLetters_backslash_nul hfront]
                  exact rfl
                · rw [List.length_cons] at hlength
                  rw [hbackslash, parseLetters_escape hescaped, ← hbackslash]
                  refine hletter escaped [ch, escaped] p rfl ?_ (by omega)
                    ((Ahead.step hescaped p).mem hbehind)
                  intro body letters hstring
                  rw [hbackslash]
                  exact StringBody.escape hescaped hstring
          · rw [parseLetters_plain hnul hquote hbackslash]
            exact hletter ch [ch] p rfl
              (fun body letters => StringBody.plain hnul hquote hbackslash) (by omega) hbehind

/-- What a parsed string has been: blanks, and a body between quotes. The output keeps its length
    and holds the letters. -/
structure Parsed (cursor block : List UInt8) (parsed : List UInt8 × List UInt8) : Prop where
  text : ∃ blank body letters, Blank blank ∧ StringBody body letters ∧
    cursor = blank ++ quote :: (body ++ quote :: parsed.2) ∧ Holds parsed.1 letters
  length_eq : parsed.1.length = block.length

/-- A string that is parsed lies in front of the NUL, and is not empty. -/
theorem Parsed.ahead {cursor : List UInt8} {parsed : List UInt8 × List UInt8}
    (h : Parsed cursor block parsed) :
    Ahead cursor parsed.2 ∧ parsed.2.length < cursor.length := by
  rcases h.text with ⟨blank, body, letters, hblank, hbody, rfl, -⟩
  refine ⟨⟨blank ++ (quote :: (body ++ [quote])), by simp, ?_⟩, ?_⟩
  · simp only [List.mem_append, List.mem_cons, List.not_mem_nil, or_false, not_or]
    exact ⟨hblank.no_nul, by decide, hbody.no_nul, by decide⟩
  · simp only [List.length_append, List.length_cons]
    omega

theorem skipWs_safe {cursor : List UInt8} (h : 0 ∈ cursor) :
    Safe (Ahead cursor) (skipWs cursor) := skipWhile_safe (by decide) h

/-- A scan that goes on from the byte behind blanks. -/
theorem skipWs_load_safe {β : Type} {done : β → Prop} {next : List UInt8 → UInt8 → Except Stop β}
    {cursor : List UInt8} (h : 0 ∈ cursor)
    (hnext : ∀ ch rest, Ahead cursor (ch :: rest) → 0 ∈ ch :: rest →
      Safe done (next (ch :: rest) ch)) :
    Safe done (skipWs cursor >>= fun p => load p >>= fun ch => next p ch) := by
  refine (skipWs_safe h).bind ?_
  intro p hp
  refine (Safe.load (hp.mem h)).bind ?_
  rintro ch ⟨rest, rfl⟩
  exact hnext ch rest hp (hp.mem h)

/-- A scan that goes on from the number behind blanks. -/
theorem skipWs_strtoull_safe {β : Type} {done : β → Prop}
    {next : List UInt8 → UInt64 × List UInt8 → Except Stop β} {cursor : List UInt8}
    (h : 0 ∈ cursor) (hnext : ∀ p read, 0 ∈ read.2 → Safe done (next p read)) :
    Safe done (skipWs cursor >>= fun p => strtoull p >>= fun read => next p read) := by
  refine (skipWs_safe h).bind ?_
  intro p hp
  refine (strtoull_safe (hp.mem h)).bind ?_
  intro read hread
  exact hnext p read (hread.mem (hp.mem h))

theorem parseString_safe {cursor : List UInt8} (h : 0 ∈ cursor) (block : List UInt8) :
    Safe (Parsed cursor block) (parseString cursor block) := by
  refine (skipWs_safe h).bind_ok ?_
  intro p hskip hp
  have hmem := hp.mem h
  rcases eq_append_of_skipWhile hskip with ⟨blank, rfl, hblank, ch, rest, rfl, -⟩
  change Safe _ (if ch = quote then parseLetters block 0 rest else .error .refused)
  by_cases hquote : ch = quote
  · rw [if_pos hquote]
    have hfront : ([] : List UInt8).take (block.length - 1) <+: block := by
      rw [List.take_nil]
      exact List.nil_prefix
    have hrest := (Ahead.step (hquote ▸ by decide) rest).mem hmem
    refine (parseLetters_safe hrest hfront).mono ?_
    rintro ⟨block', q⟩ ⟨body, letters, rfl, hbody, hlength, hholds⟩
    exact ⟨⟨blank, body, letters, hblank, hbody, by rw [hquote], hholds⟩, hlength⟩
  · rw [if_neg hquote]
    exact rfl

/-- Every string of the grammar is parsed. -/
theorem parseString_quoted {blank body letters : List UInt8} (hblank : Blank blank)
    (hbody : StringBody body letters) (rest block : List UInt8) :
    ∃ block', parseString (blank ++ quote :: (body ++ quote :: rest)) block = .ok (block', rest) ∧
      block'.length = block.length ∧ Holds block' letters := by
  have hfront : ([] : List UInt8).take (block.length - 1) <+: block := by
    rw [List.take_nil]
    exact List.nil_prefix
  rcases parseLetters_body hbody rest hfront with ⟨block', hparse, hlength, hholds⟩
  refine ⟨block', ?_, hlength, hholds⟩
  rw [parseString, skipWs, skipWhile_append hblank (by decide)]
  exact hparse

end Strings

/-! ## Values -/

/-- The loop of `qrt_json_skip_value` over a string, behind the opening quote. -/
def skipString (escaped : Bool) : List UInt8 → Except Stop (List UInt8)
  | [] => .error .outside
  | ch :: p =>
      if ch = 0 then .error .refused
      else if escaped then skipString false p
      else if ch = backslash then skipString true p
      else if ch = quote then .ok p
      else skipString false p

/-- The loop of `qrt_json_skip_value` over an object or an array. One counter serves both kinds of
    brackets. It is an `int`, taken to wrap. -/
def skipNested (depth : Int) (inString escaped : Bool) : List UInt8 → Except Stop (List UInt8)
  | [] => .error .outside
  | ch :: p =>
      if ch = 0 then .error .refused
      else if inString then
        if escaped then skipNested depth true false p
        else if ch = backslash then skipNested depth true true p
        else if ch = quote then skipNested depth false false p
        else skipNested depth true false p
      else if ch = quote then skipNested depth true escaped p
      else if ch = openBrace || ch = openBracket then
        skipNested ((depth + 1).bmod (2 ^ 32)) false escaped p
      else if ch = closeBrace || ch = closeBracket then
        if (depth - 1).bmod (2 ^ 32) = 0 then .ok p
        else if (depth - 1).bmod (2 ^ 32) < 0 then .error .refused
        else skipNested ((depth - 1).bmod (2 ^ 32)) false escaped p
      else skipNested depth false escaped p

/-- The bytes behind a scalar. -/
def isDelimiter (ch : UInt8) : Bool := ch = comma || ch = closeBrace || ch = closeBracket

/-- `qrt_json_skip_value`. -/
def skipValue (cursor : List UInt8) : Except Stop (List UInt8) := do
  let p ← skipWs cursor
  let ch ← load p
  if ch = quote then skipString false p.tail
  else if ch = openBrace || ch = openBracket then skipNested 0 false false p
  else skipWhile (fun ch => !(ch = 0 || isDelimiter ch)) p

/-! ## Offsets -/

/-- `qrt_find_token_until`. -/
def findTokenUntil (stop token : List UInt8) : List UInt8 → Except Stop (List UInt8)
  | [] => .error .refused
  | ch :: rest =>
      if stop.length + token.length ≤ (ch :: rest).length then
        if (ch :: rest).take token.length = token then .ok (ch :: rest)
        else findTokenUntil stop token rest
      else .error .refused

/-- `qrt_json_read_data_offsets_until`. -/
def readDataOffsetsUntil (start stop : List UInt8) : Except Stop (UInt64 × UInt64) := do
  let cursor ← findTokenUntil stop (bytes "\"data_offsets\"") start
  let cursor ← strchr colon cursor
  if cursor.length ≤ stop.length then .error .refused
  else do
    let cursor ← skipWs cursor.tail
    let ch ← load cursor
    if cursor.length ≤ stop.length ∨ ch ≠ openBracket then .error .refused
    else do
      let cursor ← skipWs cursor.tail
      let (first, parseEnd) ← strtoull cursor
      if parseEnd.length = cursor.length ∨ parseEnd.length < stop.length then .error .refused
      else do
        let cursor ← skipWs parseEnd
        let ch ← load cursor
        if cursor.length ≤ stop.length ∨ ch ≠ comma then .error .refused
        else do
          let cursor ← skipWs cursor.tail
          let (last, parseEnd) ← strtoull cursor
          if parseEnd.length = cursor.length ∨ parseEnd.length < stop.length ∨ last < first then
            .error .refused
          else .ok (first, last)

/-! ## Nothing passes the NUL -/

section Safety

variable {p : List UInt8}

theorem skipString_safe (escaped : Bool) (h : 0 ∈ p) : Safe (Ahead p) (skipString escaped p) := by
  induction p generalizing escaped with
  | nil => exact absurd h List.not_mem_nil
  | cons ch p ih =>
      rw [skipString]
      by_cases hnul : ch = 0
      · rw [if_pos hnul]
        exact rfl
      have hstep := Ahead.step hnul p
      have hgo : ∀ escaped, Safe (Ahead (ch :: p)) (skipString escaped p) :=
        fun escaped => (ih escaped (hstep.mem h)).mono fun _ => hstep.trans
      rw [if_neg hnul]
      split_ifs
      · exact hgo false
      · exact hgo true
      · exact hstep
      · exact hgo false

theorem skipNested_safe (depth : Int) (inString escaped : Bool) (h : 0 ∈ p) :
    Safe (Ahead p) (skipNested depth inString escaped p) := by
  induction p generalizing depth inString escaped with
  | nil => exact absurd h List.not_mem_nil
  | cons ch p ih =>
      rw [skipNested]
      by_cases hnul : ch = 0
      · rw [if_pos hnul]
        exact rfl
      have hstep := Ahead.step hnul p
      have hgo : ∀ depth inString escaped,
          Safe (Ahead (ch :: p)) (skipNested depth inString escaped p) :=
        fun depth inString escaped =>
          (ih depth inString escaped (hstep.mem h)).mono fun _ => hstep.trans
      rw [if_neg hnul]
      -- Every branch goes on behind the byte, stops there or refuses.
      split_ifs <;> first | exact hgo _ _ _ | exact hstep | exact rfl

/-- A value ends ahead of its start. -/
theorem skipValue_safe (h : 0 ∈ p) : Safe (Ahead p) (skipValue p) := by
  refine skipWs_load_safe h ?_
  intro ch rest hq hmem
  split_ifs with hquote hopen
  · have hstep := Ahead.step (show ch ≠ 0 from hquote ▸ by decide) rest
    exact (skipString_safe false (hstep.mem hmem)).mono fun _ => (hq.trans hstep).trans
  · exact (skipNested_safe 0 false false hmem).mono fun _ => hq.trans
  · exact (skipWhile_safe (by decide) hmem).mono fun _ => hq.trans

/-- A token that is found lies between the two pointers. -/
theorem findTokenUntil_safe {stop token : List UInt8} (htoken : token ≠ []) (h : Ahead p stop) :
    Safe (fun q => Ahead p q ∧ Ahead q stop ∧ token <+: q) (findTokenUntil stop token p) := by
  have hpos : 0 < token.length := List.length_pos_iff.mpr htoken
  induction p with
  | nil => exact rfl
  | cons ch rest ih =>
      rw [findTokenUntil]
      by_cases hroom : stop.length + token.length ≤ (ch :: rest).length
      · rw [if_pos hroom]
        by_cases hhere : (ch :: rest).take token.length = token
        · rw [if_pos hhere]
          exact ⟨Ahead.refl _, h, hhere ▸ List.take_prefix _ _⟩
        · rw [if_neg hhere]
          have hbehind := h.behind fun hsame => by rw [hsame] at hroom; omega
          refine (ih hbehind.2).mono ?_
          rintro q ⟨hq, hrest⟩
          exact ⟨(Ahead.step hbehind.1 rest).trans hq, hrest⟩
      · rw [if_neg hroom]
        exact rfl

/-- Offsets that are read are in order, and the reader does not pass the NUL. -/
theorem readDataOffsetsUntil_safe {stop : List UInt8} (h : Ahead p stop) (hp : 0 ∈ p) :
    Safe (fun offsets => offsets.1 ≤ offsets.2) (readDataOffsetsUntil p stop) := by
  -- Behind a byte that is not the NUL there is one to load.
  refine (findTokenUntil_safe (by decide) h).bind ?_
  rintro token ⟨htoken, -, -⟩
  refine (strchr_safe colon (htoken.mem hp)).bind ?_
  rintro cursor ⟨hcursor, rest, rfl⟩
  have hvalue := (Ahead.step (show colon ≠ 0 by decide) rest).mem (hcursor.mem (htoken.mem hp))
  split_ifs with hpast
  · exact rfl
  refine skipWs_load_safe hvalue ?_
  rintro ch items - hbracket
  split_ifs with hopen
  · exact rfl
  rw [not_or, not_not] at hopen
  refine skipWs_strtoull_safe ((Ahead.step (hopen.2 ▸ by decide) items).mem hbracket) ?_
  rintro number ⟨first, parseEnd⟩ hparsed
  dsimp only
  split_ifs with hfirst
  · exact rfl
  refine skipWs_load_safe hparsed ?_
  rintro ch more - hseparator
  split_ifs with hcomma
  · exact rfl
  rw [not_or, not_not] at hcomma
  refine skipWs_strtoull_safe ((Ahead.step (hcomma.2 ▸ by decide) more).mem hseparator) ?_
  rintro number ⟨last, parseEnd⟩ -
  dsimp only
  split_ifs with hlast
  · exact rfl
  · rw [not_or, not_or] at hlast
    exact UInt64.not_lt.mp hlast.2.2

end Safety

end Loader

end QrtEngine
