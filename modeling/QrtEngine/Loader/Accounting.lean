import QrtEngine.Loader.ScannerCorrect

/-!
# The Walk over a Header

`qrt_accumulate_header_accounting` walks over the members of the header of a shard and adds up what
its tensors weigh. The loop around a member is that of `qrt_parse_weight_map` too: blanks, a closing
brace that ends it, a member, blanks, and a comma or the closing brace. It is one definition here,
with the member as a parameter. A loop whose members go ahead of where they begin ends after fewer
rounds than its text has bytes, and never passes the NUL.

The walk over a header lists the entries it visits. What it adds up is a function of that list.

## Main definitions

* `walkMembers`: The loop over the members of an object.
* `HeaderEntry`, `headerMember`, `walkHeader`: The walk over a header.
* `PrepackAccounting`, `accumulateTensorAccounting`: What it adds up.
* `accumulateHeaderAccounting`, `headerEntries`: The sums, and the list of the entries.

## Theorems

* `walkMembers_safe`: Members that go ahead keep an invariant, up to the end of the loop.
* `walkMembers_map`: A walk that another one follows step by step.
* `accumulateHeaderAccounting_eq`: The sums are those of the entries.
* `scanner_skips_one_value`: What the scanner does on every text, and on texts of the grammar.
-/

namespace QrtEngine

namespace Loader

open CText JsonGrammar

/-! ## The loop over members -/

variable {σ τ : Type}

/-- The loop over the members of an object, behind the opening brace. -/
def walkMembers (member : σ → List UInt8 → Except Stop (σ × List UInt8)) :
    Nat → σ → List UInt8 → Except Stop σ
  | 0, _, _ => .error .unfinished
  | fuel + 1, state, cursor => do
      let cursor ← skipWs cursor
      let ch ← load cursor
      if ch = closeBrace then .ok state
      else do
        let (state, cursor) ← member state cursor
        let cursor ← skipWs cursor
        let ch ← load cursor
        if ch = comma then walkMembers member fuel state cursor.tail
        else if ch = closeBrace then walkMembers member fuel state cursor
        else .error .refused

/-- A member goes ahead of where it begins, keeps an invariant, or is refused. -/
def MemberSafe (invariant : σ → Prop) (start : List UInt8)
    (member : σ → List UInt8 → Except Stop (σ × List UInt8)) : Prop :=
  ∀ state cursor, invariant state → Ahead start cursor →
    Safe (fun next => invariant next.1 ∧ Ahead cursor next.2 ∧ next.2.length < cursor.length)
      (member state cursor)

/-- Every round takes at least one byte of the text, so the loop ends. -/
theorem walkMembers_safe {invariant : σ → Prop} {start : List UInt8} (hstart : 0 ∈ start)
    {member : σ → List UInt8 → Except Stop (σ × List UInt8)}
    (hmember : MemberSafe invariant start member) :
    ∀ (fuel : Nat) (state : σ) (cursor : List UInt8), cursor.length < fuel → invariant state →
      Ahead start cursor → Safe invariant (walkMembers member fuel state cursor) := by
  intro fuel
  induction fuel with
  | zero =>
      intro state cursor hfuel
      omega
  | succ fuel ih =>
      intro state cursor hfuel hstate hcursor
      rw [walkMembers]
      refine skipWs_load_safe (hcursor.mem hstart) ?_
      rintro ch rest hkey -
      have hto := hcursor.trans hkey
      by_cases hclose : ch = closeBrace
      · rw [if_pos hclose]
        exact hstate
      rw [if_neg hclose]
      refine (hmember state _ hstate hto).bind ?_
      rintro ⟨next, behind⟩ ⟨hnext, hbehind, hshort⟩
      refine skipWs_load_safe ((hto.trans hbehind).mem hstart) ?_
      rintro ch rest hdelimiter -
      have hreached := (hto.trans hbehind).trans hdelimiter
      -- The member has taken a byte, so what is left needs one round less.
      have hleft : (ch :: rest).length < fuel :=
        Nat.lt_of_le_of_lt hdelimiter.length_le
          (Nat.lt_of_lt_of_le hshort (Nat.le_trans hkey.length_le (Nat.le_of_lt_succ hfuel)))
      by_cases hcomma : ch = comma
      · rw [if_pos hcomma]
        refine ih next rest ?_ hnext (hreached.trans (Ahead.step (hcomma ▸ by decide) rest))
        rw [List.length_cons] at hleft
        omega
      · rw [if_neg hcomma]
        split_ifs
        · exact ih next (ch :: rest) hleft hnext hreached
        · exact rfl

/-- A walk follows another one if each of its members does. -/
theorem walkMembers_map (f : σ → τ) {member : σ → List UInt8 → Except Stop (σ × List UInt8)}
    {member' : τ → List UInt8 → Except Stop (τ × List UInt8)}
    (hmember : ∀ state cursor, member' (f state) cursor =
      (member state cursor).map fun next => (f next.1, next.2)) :
    ∀ (fuel : Nat) (state : σ) (cursor : List UInt8),
      walkMembers member' fuel (f state) cursor = (walkMembers member fuel state cursor).map f := by
  intro fuel
  induction fuel with
  | zero => exact fun _ _ => rfl
  | succ fuel ih =>
      intro state cursor
      rw [walkMembers, walkMembers]
      refine bind_eq_map fun cursor => bind_eq_map fun ch => ?_
      by_cases hclose : ch = closeBrace
      · rw [if_pos hclose, if_pos hclose]
        rfl
      · rw [if_neg hclose, if_neg hclose, hmember, map_eq_bind]
        refine bind_eq_map fun next => bind_eq_map fun cursor => bind_eq_map fun ch => ?_
        by_cases hcomma : ch = comma
        · rw [if_pos hcomma, if_pos hcomma]
          exact ih _ _
        · rw [if_neg hcomma, if_neg hcomma]
          by_cases hend : ch = closeBrace
          · rw [if_pos hend, if_pos hend]
            exact ih _ _
          · rw [if_neg hend, if_neg hend]
            rfl

/-! ## The members of a header -/

/-- `QRT_LOAD_JSON_STRING_CAPACITY`. -/
def jsonStringCapacity : Nat := 512

/-- The key of a member and the colon behind it. The key buffer holds the letters of the key. -/
def readKey (key keyBuf : List UInt8) : Except Stop (List UInt8 × List UInt8) := do
  let (keyBuf, cursor) ← parseString key keyBuf
  let colonAt ← skipWs cursor
  let ch ← load colonAt
  if ch = colon then .ok (keyBuf, colonAt) else .error .refused

/-- A visited entry: where its key and its colon stand, its name as the key buffer holds it, and
    the offsets of its value. -/
structure HeaderEntry where
  key : List UInt8
  colonAt : List UInt8
  name : List UInt8
  first : UInt64
  last : UInt64
  deriving DecidableEq, Repr

/-- The value behind a colon, from its first byte to where the scanner has skipped it. -/
def valueBounds (colonAt : List UInt8) : Except Stop (List UInt8 × List UInt8) := do
  let valueStart ← skipWs colonAt.tail
  let valueEnd ← skipValue valueStart
  .ok (valueStart, valueEnd)

/-- The offsets of the value behind a colon. -/
def valueOffsets (colonAt : List UInt8) : Except Stop (UInt64 × UInt64) := do
  let (valueStart, valueEnd) ← valueBounds colonAt
  readDataOffsetsUntil valueStart valueEnd

/-- A member of a header. The metadata are skipped, every other value has to have offsets. -/
def headerMember (account : σ → HeaderEntry → σ) (state : List UInt8 × σ) (key : List UInt8) :
    Except Stop ((List UInt8 × σ) × List UInt8) := do
  let (keyBuf, colonAt) ← readKey key state.1
  let (valueStart, valueEnd) ← valueBounds colonAt
  let name ← cString keyBuf
  if name = bytes "__metadata__" then .ok ((keyBuf, state.2), valueEnd)
  else do
    let (first, last) ← readDataOffsetsUntil valueStart valueEnd
    .ok ((keyBuf, account state.2 ⟨key, colonAt, name, first, last⟩), valueEnd)

/-- The walk over a header, with any way to account for its entries. What the key buffer holds at
    the start does not matter. -/
def walkHeader (account : σ → HeaderEntry → σ) (keyBuf : Vector UInt8 jsonStringCapacity)
    (state : σ) (header : List UInt8) : Except Stop σ := do
  let cursor ← skipWs header
  let ch ← load cursor
  if ch ≠ openBrace then .error .refused
  else
    (walkMembers (headerMember account) header.length (keyBuf.toList, state) cursor.tail).map
      Prod.snd

/-- The entries of a header. -/
def headerEntries (keyBuf : Vector UInt8 jsonStringCapacity) (header : List UInt8) :
    Except Stop (List HeaderEntry) :=
  walkHeader (fun entries entry => entries ++ [entry]) keyBuf [] header

/-! ## What the entries add up to -/

/-- The counters of `qrt_prepack_accounting_result_t` that the walk updates. -/
structure PrepackAccounting where
  totalTensorCount : UInt64
  requiredRuntimeTensorCount : UInt64
  deferredTensorCount : UInt64
  languageTensorCount : UInt64
  visualTensorCount : UInt64
  mtpTensorCount : UInt64
  unknownTensorCount : UInt64
  requiredPrepackCandidateTensorCount : UInt64
  totalTensorBytes : UInt64
  requiredRuntimeBytes : UInt64
  deferredBytes : UInt64
  languageBytes : UInt64
  visualBytes : UInt64
  mtpBytes : UInt64
  unknownBytes : UInt64
  requiredPrepackCandidateBytes : UInt64
  deriving DecidableEq, Repr

def tensorIsRequiredRuntime (name : List UInt8) : Bool :=
  name = bytes "lm_head.weight" || (bytes "model.language_model.").isPrefixOf name

def tensorIsVisualDeferred (name : List UInt8) : Bool := (bytes "model.visual.").isPrefixOf name

def tensorIsMtpDeferred (name : List UInt8) : Bool := (bytes "mtp.").isPrefixOf name

/-- `qrt_tensor_is_prepack_candidate`. -/
def tensorIsPrepackCandidate (name : List UInt8) : Bool :=
  tensorIsRequiredRuntime name &&
    (name = bytes "lm_head.weight" ||
      decide (bytes ".mlp.experts." <:+: name) ||
      decide (bytes ".mlp.shared_expert." <:+: name) ||
      (decide (bytes ".self_attn." <:+: name) && decide (bytes "_proj.weight" <:+: name)) ||
      decide (bytes ".linear_attn.in_proj_" <:+: name) ||
      decide (bytes ".linear_attn.out_proj.weight" <:+: name))

/-- Count a tensor that the runtime needs. -/
def PrepackAccounting.addRequired (result : PrepackAccounting) (name : List UInt8)
    (bytes : UInt64) : PrepackAccounting :=
  let result := { result with
    requiredRuntimeTensorCount := result.requiredRuntimeTensorCount + 1
    languageTensorCount := result.languageTensorCount + 1
    requiredRuntimeBytes := result.requiredRuntimeBytes + bytes
    languageBytes := result.languageBytes + bytes }
  if tensorIsPrepackCandidate name then { result with
    requiredPrepackCandidateTensorCount := result.requiredPrepackCandidateTensorCount + 1
    requiredPrepackCandidateBytes := result.requiredPrepackCandidateBytes + bytes }
  else result

/-- Count a tensor that is left for later. -/
def PrepackAccounting.addDeferred (result : PrepackAccounting) (name : List UInt8)
    (bytes : UInt64) : PrepackAccounting :=
  let result := { result with
    deferredTensorCount := result.deferredTensorCount + 1
    deferredBytes := result.deferredBytes + bytes }
  if tensorIsVisualDeferred name then { result with
    visualTensorCount := result.visualTensorCount + 1
    visualBytes := result.visualBytes + bytes }
  else if tensorIsMtpDeferred name then { result with
    mtpTensorCount := result.mtpTensorCount + 1
    mtpBytes := result.mtpBytes + bytes }
  else { result with
    unknownTensorCount := result.unknownTensorCount + 1
    unknownBytes := result.unknownBytes + bytes }

/-- `qrt_accumulate_tensor_accounting`. -/
def accumulateTensorAccounting (result : PrepackAccounting) (name : List UInt8)
    (bytes : UInt64) : PrepackAccounting :=
  let result := { result with
    totalTensorCount := result.totalTensorCount + 1
    totalTensorBytes := result.totalTensorBytes + bytes }
  if tensorIsRequiredRuntime name then result.addRequired name bytes
  else result.addDeferred name bytes

def accumulateEntry (result : PrepackAccounting) (entry : HeaderEntry) : PrepackAccounting :=
  accumulateTensorAccounting result entry.name (entry.last - entry.first)

/-- `qrt_accumulate_header_accounting`. Its caller gives up on a header that is refused, so what has
    been added up by then is left out. -/
def accumulateHeaderAccounting (keyBuf : Vector UInt8 jsonStringCapacity)
    (result : PrepackAccounting) (header : List UInt8) : Except Stop PrepackAccounting :=
  walkHeader accumulateEntry keyBuf result header

/-! ## The walk lists the entries it adds up -/

theorem headerMember_map (f : σ → τ) {account : σ → HeaderEntry → σ}
    {account' : τ → HeaderEntry → τ}
    (h : ∀ state entry, account' (f state) entry = f (account state entry))
    (state : List UInt8 × σ) (key : List UInt8) :
    headerMember account' (state.1, f state.2) key =
      (headerMember account state key).map fun next => ((next.1.1, f next.1.2), next.2) := by
  rw [headerMember, headerMember]
  refine bind_eq_map fun read => bind_eq_map fun bounds => bind_eq_map fun name => ?_
  by_cases hmetadata : name = bytes "__metadata__"
  · rw [if_pos hmetadata, if_pos hmetadata]
    rfl
  · rw [if_neg hmetadata, if_neg hmetadata]
    refine bind_eq_map fun offsets => ?_
    dsimp only
    rw [h]
    rfl

/-- The sums are those of the entries. -/
theorem accumulateHeaderAccounting_eq (keyBuf : Vector UInt8 jsonStringCapacity)
    (result : PrepackAccounting) (header : List UInt8) :
    accumulateHeaderAccounting keyBuf result header =
      (headerEntries keyBuf header).map fun entries => entries.foldl accumulateEntry result := by
  have hentry : ∀ (entries : List HeaderEntry) (entry : HeaderEntry),
      accumulateEntry (entries.foldl accumulateEntry result) entry =
        (entries ++ [entry]).foldl accumulateEntry result := by
    intro entries entry
    rw [List.foldl_append]
    rfl
  have hmember := headerMember_map (List.foldl accumulateEntry result) hentry
  have hwalk := walkMembers_map
    (fun state : List UInt8 × List HeaderEntry =>
      (state.1, state.2.foldl accumulateEntry result)) hmember
  rw [accumulateHeaderAccounting, headerEntries, walkHeader, walkHeader]
  refine bind_eq_map fun cursor => bind_eq_map fun ch => ?_
  by_cases hopen : ch ≠ openBrace
  · rw [if_pos hopen, if_pos hopen]
    rfl
  · rw [if_neg hopen, if_neg hopen]
    refine (congrArg (Except.map Prod.snd) (hwalk _ (keyBuf.toList, []) _)).trans ?_
    cases walkMembers _ _ _ _ with
    | error stop => rfl
    | ok state => rfl

/-! ## The walk is safe, and so are the entries it lists -/

/-- A key of a text and the colon behind it, with nothing but blanks in between, and the letters
    that it spells. -/
structure KeyAt (text key colonAt letters : List UInt8) : Prop where
  ahead : Ahead text key
  bounds : ∃ blank body between, Blank blank ∧ StringBody body letters ∧ Blank between ∧
    key = blank ++ quote :: (body ++ quote :: (between ++ colonAt))
  colon_eq : colonAt = colon :: colonAt.tail

theorem KeyAt.ahead_value {text key colonAt letters : List UInt8}
    (h : KeyAt text key colonAt letters) :
    Ahead text colonAt.tail ∧ Ahead key colonAt.tail ∧ colonAt.tail.length < key.length := by
  rcases h.bounds with ⟨blank, body, between, hblank, hbody, hbetween, hkey⟩
  have hahead : Ahead key colonAt.tail := by
    refine ⟨blank ++ quote :: (body ++ quote :: (between ++ [colon])), ?_, ?_⟩
    · rw [hkey, h.colon_eq]
      simp
    · simp only [List.mem_append, List.mem_cons, List.not_mem_nil, or_false, not_or]
      exact ⟨hblank.no_nul, by decide, hbody.no_nul, by decide, hbetween.no_nul, by decide⟩
  refine ⟨h.ahead.trans hahead, hahead, ?_⟩
  rw [hkey, h.colon_eq]
  simp only [List.length_append, List.length_cons, List.tail_cons]
  omega

/-- A buffer that holds a string is read as its letters, as far as they fit. -/
theorem Holds.cString {block letters : List UInt8} (h : Holds block letters)
    (hpos : 0 < block.length) (hletters : 0 ∉ letters) :
    cString block = .ok (letters.take (block.length - 1)) := by
  rcases h hpos with ⟨rest, hrest⟩
  have hclean : 0 ∉ letters.take (block.length - 1) :=
    fun hmem => hletters (List.mem_of_mem_take hmem)
  have hread := cString_append hclean rest
  rw [List.append_assoc, List.singleton_append] at hrest
  rw [hrest] at hread
  exact hread

/-- A key that is read stands in the text, and its buffer is read as its letters. -/
theorem readKey_safe {text key keyBuf : List UInt8} (htext : 0 ∈ text) (hkey : Ahead text key)
    (hlength : keyBuf.length = jsonStringCapacity) :
    Safe (fun read => read.1.length = jsonStringCapacity ∧ ∃ letters,
      KeyAt text key read.2 letters ∧
        cString read.1 = .ok (letters.take (jsonStringCapacity - 1))) (readKey key keyBuf) := by
  refine (parseString_safe (hkey.mem htext) keyBuf).bind ?_
  rintro ⟨keyBuf', cursor⟩ hparsed
  have hlength' : keyBuf'.length = jsonStringCapacity := hparsed.length_eq.trans hlength
  have hcursor := hkey.trans hparsed.ahead.1
  rcases hparsed.text with ⟨blank, body, letters, hblank, hbody, hbounds, hholds⟩
  refine (skipWs_safe (hcursor.mem htext)).bind_ok ?_
  intro colonAt hskip hcolonAt
  refine (Safe.load ((hcursor.trans hcolonAt).mem htext)).bind ?_
  rintro ch ⟨value, rfl⟩
  by_cases hcolon : ch = colon
  · rw [if_pos hcolon]
    -- What was read is a blank, the quoted key, a blank and a colon.
    rcases eq_append_of_skipWhile hskip with ⟨between, hbetween, hwhite, -⟩
    have hread := hholds.cString (by rw [hlength']; decide) hbody.letters_no_nul
    rw [hlength'] at hread
    refine ⟨hlength', letters, ⟨hkey, ⟨blank, body, between, hblank, hbody, hwhite, ?_⟩, ?_⟩,
      hread⟩
    · rw [hbounds]
      exact congrArg (fun rest => blank ++ quote :: (body ++ quote :: rest)) hbetween
    · rw [hcolon, List.tail_cons]
  · rw [if_neg hcolon]
    exact rfl

/-- An entry of a header, as the text has it. -/
structure Visited (header : List UInt8) (entry : HeaderEntry) : Prop where
  key : ∃ letters, KeyAt header entry.key entry.colonAt letters ∧
    entry.name = letters.take (jsonStringCapacity - 1)
  offsets : valueOffsets entry.colonAt = .ok (entry.first, entry.last)

/-- The value behind a colon begins and ends ahead of it. -/
theorem valueBounds_safe {colonAt : List UInt8} (h : 0 ∈ colonAt.tail) :
    Safe (fun bounds => Ahead colonAt.tail bounds.1 ∧ Ahead bounds.1 bounds.2)
      (valueBounds colonAt) := by
  refine (skipWs_safe h).bind ?_
  intro valueStart hstart
  refine (skipValue_safe (hstart.mem h)).bind ?_
  intro valueEnd hend
  exact ⟨hstart, hend⟩

/-- Offsets behind a colon are in order. -/
theorem valueOffsets_safe {colonAt : List UInt8} (h : 0 ∈ colonAt.tail) :
    Safe (fun offsets => offsets.1 ≤ offsets.2) (valueOffsets colonAt) := by
  refine (valueBounds_safe h).bind ?_
  rintro ⟨valueStart, valueEnd⟩ ⟨hstart, hend⟩
  exact readDataOffsetsUntil_safe hend (hstart.mem h)

theorem headerMember_safe {account : σ → HeaderEntry → σ} {invariant : σ → Prop}
    {header : List UInt8} (hheader : 0 ∈ header)
    (haccount : ∀ state entry, invariant state → Visited header entry →
      invariant (account state entry)) :
    MemberSafe (fun state => state.1.length = jsonStringCapacity ∧ invariant state.2) header
      (headerMember account) := by
  rintro ⟨keyBuf, state⟩ key ⟨hlength, hstate⟩ hkey
  refine (readKey_safe hheader hkey hlength).bind ?_
  rintro ⟨keyBuf', colonAt⟩ ⟨hlength', letters, hcolonAt, hread⟩
  rcases hcolonAt.ahead_value with ⟨hvalue, hbehind, hshort⟩
  refine (valueBounds_safe (hvalue.mem hheader)).bind_ok ?_
  rintro ⟨valueStart, valueEnd⟩ hbounds ⟨hstart, hend⟩
  have hahead : Ahead key valueEnd ∧ valueEnd.length < key.length := by
    have hto := hstart.trans hend
    exact ⟨hbehind.trans hto, Nat.lt_of_le_of_lt hto.length_le hshort⟩
  -- The name is read from the buffer, after the value has been skipped.
  dsimp only at hread ⊢
  rw [hread]
  change Safe _ (if letters.take (jsonStringCapacity - 1) = bytes "__metadata__" then _ else _)
  by_cases hmetadata : letters.take (jsonStringCapacity - 1) = bytes "__metadata__"
  · rw [if_pos hmetadata]
    exact ⟨⟨hlength', hstate⟩, hahead⟩
  · rw [if_neg hmetadata]
    refine (readDataOffsetsUntil_safe hend ((hvalue.trans hstart).mem hheader)).bind_ok ?_
    rintro ⟨first, last⟩ hoffsets -
    refine ⟨⟨hlength', haccount state _ hstate ⟨⟨letters, hcolonAt, rfl⟩, ?_⟩⟩, hahead⟩
    rw [valueOffsets, hbounds]
    exact hoffsets

theorem walkHeader_safe {account : σ → HeaderEntry → σ} {invariant : σ → Prop}
    {header : List UInt8} (hheader : 0 ∈ header)
    (haccount : ∀ state entry, invariant state → Visited header entry →
      invariant (account state entry))
    (keyBuf : Vector UInt8 jsonStringCapacity) {state : σ} (hstate : invariant state) :
    Safe invariant (walkHeader account keyBuf state header) := by
  refine skipWs_load_safe hheader ?_
  rintro ch rest hcursor -
  by_cases hopen : ch = openBrace
  · rw [if_neg (not_not.mpr hopen)]
    have hrest := hcursor.trans (Ahead.step (hopen ▸ by decide) rest)
    have hwalk := walkMembers_safe hheader (headerMember_safe hheader haccount) header.length
      (keyBuf.toList, state) rest hcursor.length_le ⟨keyBuf.length_toList, hstate⟩ hrest
    dsimp only [List.tail_cons]
    cases hresult : walkMembers (headerMember account) header.length (keyBuf.toList, state)
        rest with
    | error stop =>
        rw [hresult] at hwalk
        exact hwalk
    | ok result =>
        rw [hresult] at hwalk
        exact hwalk.2
  · rw [if_pos hopen]
    exact rfl

/-- Every entry that is listed stands in the header. -/
theorem headerEntries_visited {header : List UInt8} (hheader : 0 ∈ header)
    (keyBuf : Vector UInt8 jsonStringCapacity) :
    Safe (fun entries => ∀ entry ∈ entries, Visited header entry)
      (headerEntries keyBuf header) := by
  refine walkHeader_safe hheader ?_ keyBuf (fun _ h => absurd h List.not_mem_nil)
  -- An entry is listed behind those that have been visited before.
  intro entries entry hentries hentry entry' hmem
  rcases List.mem_append.mp hmem with hmem | hmem
  · exact hentries entry' hmem
  · rw [List.mem_singleton.mp hmem]
    exact hentry

/-! ## The scanner as a whole -/

/-- One value of the grammar is skipped, whatever its strings hold and however deep it is nested.
    A string is parsed inside its output, which ends in a NUL, up to the closing quote, and every
    string of the grammar is parsed. The walk over a header ends on every text, and reads nothing
    behind its NUL. -/
theorem scanner_skips_one_value :
    (∀ (height : Nat) (text blank more : List UInt8) (stop : UInt8),
      Phrase .value height text → height < intMax → Blank blank → isDelimiter stop →
        (Scalar text → skipValue (text ++ (blank ++ stop :: more)) = .ok (stop :: more)) ∧
        (¬Scalar text →
          skipValue (text ++ (blank ++ stop :: more)) = .ok (blank ++ stop :: more))) ∧
    (∀ cursor block : List UInt8, 0 ∈ cursor →
      Safe (Parsed cursor block) (parseString cursor block)) ∧
    (∀ blank body letters rest block : List UInt8, Blank blank → StringBody body letters →
      ∃ block', parseString (blank ++ quote :: (body ++ quote :: rest)) block =
        .ok (block', rest)) ∧
    (∀ (keyBuf : Vector UInt8 jsonStringCapacity) (result : PrepackAccounting)
      (text : List UInt8),
      Safe (fun _ => True) (accumulateHeaderAccounting keyBuf result (text ++ [0]))) := by
  refine ⟨?_, ?_, ?_, ?_⟩
  · intro height text blank more stop htext hheight hblank hstop
    refine ⟨fun hscalar => skipValue_scalar hscalar hblank hstop more, fun hscalar => ?_⟩
    exact skipValue_enclosed htext hscalar (by omega) _
  · intro cursor block hcursor
    exact parseString_safe hcursor block
  · intro blank body letters rest block hblank hbody
    rcases parseString_quoted hblank hbody rest block with ⟨block', hparse, -⟩
    exact ⟨block', hparse⟩
  · intro keyBuf result text
    refine walkHeader_safe ?_ (fun _ _ _ _ => trivial) keyBuf trivial
    exact List.mem_append_right _ List.mem_cons_self

/-- An array of a string with a bracket and an escaped quote, in front of a comma. -/
theorem scanner_skips_one_value_string :
    skipValue (bytes "[ \"]\\\"\" ] , 1" ++ [0]) = .ok (bytes " , 1" ++ [0]) := by
  have hbody : StringBody (bytes "]\\\"") (bytes "]\"") :=
    StringBody.plain (by decide) (by decide) (by decide)
      (StringBody.escape (by decide) StringBody.nil)
  have hspace : Blank [32] := by decide
  have harray := Phrase.array (Phrase.element hspace (Phrase.string hbody) hspace)
  have hskip := (scanner_skips_one_value.1 1 _ (bytes " ") (bytes " 1" ++ [0]) comma harray
    (by decide) (by decide) (by decide)).2 (by decide)
  rw [show bytes "[ \"]\\\"\" ] , 1" ++ [0] = openBracket :: ([32] ++ (quote ::
    bytes "]\\\"" ++ [quote]) ++ [32]) ++ [closeBracket] ++
    (bytes " " ++ comma :: (bytes " 1" ++ [0])) by decide, hskip]
  decide

end Loader

end QrtEngine
