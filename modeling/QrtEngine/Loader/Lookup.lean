import QrtEngine.Loader.WeightMap

/-!
# Lookup by Text and by Structure

The loader reads the place of a tensor in two ways. The walks over a header and over a weight map
follow the structure of the text. `qrt_find_tensor_offsets` and `qrt_find_shard_for_tensor` look for
the name between quotes anywhere in the text, and take the value behind the next colon. The two
agree if that colon is the one behind the key, which is so unless the quoted name stands in front of
the key with a colon in between: in the metadata, as a string inside of another entry, or as the
file of another tensor. Otherwise the value of another key is returned, and the two agree by chance
only.

## Main definitions

* `firstColonBehind`: The search that both lookups make.
* `findTensorOffsets`, `findShardForTensor`: The lookups.
* `Unshadowed`: The quoted name does not stand in front of a key, with a colon in between.

## Theorems

* `firstColonBehind_iff`: The search finds the colon of a key if the key is not shadowed.
* `findTensorOffsets_safe`, `findShardForTensor_safe`: The lookups stay inside what they are given.
* `lookup_agrees`: When the lookups agree with the walks, and what they return else.
-/

namespace QrtEngine

namespace Loader

open CText JsonGrammar

/-! ## The lookups -/

/-- The search of both lookups: the first occurrence of the quoted name, and the first colon behind
    it. The quoted name and its NUL have to fit a buffer. -/
def firstColonBehind (name text : List UInt8) : Except Stop (List UInt8) :=
  if jsonStringCapacity < name.length + 3 then .error .refused
  else do
    let keyPos ← strstr (quoted name) text
    strchr colon (keyPos.drop (quoted name).length)

/-- `qrt_find_tensor_offsets`. -/
def findTensorOffsets (header name : List UInt8) : Except Stop (UInt64 × UInt64) := do
  let colonAt ← firstColonBehind name header
  valueOffsets colonAt

/-- `qrt_find_shard_for_tensor`. -/
def findShardForTensor (index name outShard : List UInt8) : Except Stop (List UInt8) :=
  if outShard.length = 0 then .error .refused
  else do
    let colonAt ← firstColonBehind name index
    let (outShard, _) ← parseString colonAt.tail outShard
    .ok outShard

/-! ## Shadowed keys -/

/-- Wherever the quoted name stands in the text in front of a colon, no other colon follows it. -/
def Unshadowed (name front : List UInt8) : Prop :=
  ∀ behind ∈ front.tails, quoted name <+: behind → colon ∉ behind.drop (quoted name).length

instance (name front : List UInt8) : Decidable (Unshadowed name front) :=
  List.decidableBAll
    (fun behind => quoted name <+: behind → colon ∉ behind.drop (quoted name).length) front.tails

variable {text key colonAt letters name rest : List UInt8}

/-- A key without escapes spells itself, and blanks follow it. -/
theorem KeyAt.unescaped (h : KeyAt text key colonAt letters) (hname : Unescaped name)
    (hkey : key = quoted name ++ rest) :
    letters = name ∧ ∃ between, Blank between ∧ rest = between ++ colonAt := by
  rcases h.bounds with ⟨blank, body, between, hblank, hbody, hbetween, hbounds⟩
  rw [hkey, quoted, List.cons_append, List.append_assoc, List.singleton_append] at hbounds
  cases blank with
  | cons ch blank =>
      have hch := hblank ch List.mem_cons_self
      rw [← (List.cons.inj hbounds).1] at hch
      exact absurd hch (by decide)
  | nil =>
      rcases hbody.unescaped hname (List.cons.inj hbounds).2.symm with ⟨hletters, hrest⟩
      exact ⟨hletters, between, hbetween, hrest.symm⟩

theorem quoted_no_nul (h : Unescaped name) : 0 ∉ quoted name := by
  simp only [quoted, List.mem_cons, List.mem_append, List.not_mem_nil, or_false, not_or]
  exact ⟨by decide, fun hmem => (h 0 hmem).1 rfl, by decide⟩

/-- A key is shadowed if a colon stands between the first occurrence of its quoted name and its own
    colon. The first occurrence leaves more of the text than every other one. -/
theorem unshadowed_iff {passed mid : List UInt8}
    (hfirst : ∀ behind ∈ (passed ++ (quoted name ++ mid)).tails, quoted name <+: behind →
      behind.length ≤ (quoted name ++ mid).length) :
    Unshadowed name (passed ++ (quoted name ++ mid)) ↔ colon ∉ mid := by
  constructor
  · intro h
    have hmid := h (quoted name ++ mid) ((List.mem_tails _ _).mpr (List.suffix_append _ _))
      (List.prefix_append _ _)
    rw [List.drop_left] at hmid
    exact hmid
  · intro h behind hbehind hoccurs hcolon
    have hlength := hfirst behind hbehind hoccurs
    rcases hoccurs with ⟨after, rfl⟩
    rw [List.drop_left] at hcolon
    rw [List.length_append, List.length_append] at hlength
    -- What follows this occurrence ends what follows the first one.
    have hafter : after <:+ passed ++ (quoted name ++ mid) :=
      (List.suffix_append _ _).trans ((List.mem_tails _ _).mp hbehind)
    have hmid : mid <:+ passed ++ (quoted name ++ mid) := by
      rw [← List.append_assoc]
      exact List.suffix_append _ _
    exact h ((List.suffix_of_suffix_length_le hafter hmid (by omega)).subset hcolon)

/-- The search goes to the colon behind the key, or to one in front of it if the key is
    shadowed. -/
theorem firstColonBehind_iff (htext : 0 ∈ text) (h : KeyAt text key colonAt letters)
    (hname : Unescaped name) (hkey : key = quoted name ++ rest)
    (hfits : name.length + 3 ≤ jsonStringCapacity) :
    ∃ other, firstColonBehind name text = .ok other ∧
      (other = colonAt ↔ Unshadowed name (upTo text colonAt)) := by
  have hnul := quoted_no_nul hname
  rcases h.unescaped hname hkey with ⟨-, between, hbetween, rfl⟩
  have hto : Ahead key colonAt := by
    refine ⟨quoted name ++ between, by rw [hkey, List.append_assoc], ?_⟩
    rw [List.mem_append, not_or]
    exact ⟨hnul, hbetween.no_nul⟩
  have hoccurs : quoted name <+: key := hkey ▸ List.prefix_append _ _
  rcases strstr_first hnul htext h.ahead hoccurs with ⟨q, hsearch, hq, ⟨tail, rfl⟩, hqkey⟩
  -- The colon lies behind the first occurrence.
  have htail : Ahead (quoted name ++ tail) tail := ⟨quoted name, rfl, hnul⟩
  have hmid : Ahead tail colonAt := by
    refine htail.of_length_le (hqkey.trans hto) ?_
    have hlength := hqkey.length_le
    rw [hkey, List.length_append, List.length_append, List.length_append] at hlength
    omega
  have hfront := (h.ahead.trans hto).upTo_append
  rcases hmid with ⟨mid, rfl, hclean⟩
  rcases hq with ⟨passed, hpassed, hpassedClean⟩
  have hupTo : upTo text colonAt = passed ++ (quoted name ++ mid) := by
    refine List.append_cancel_right (hfront.trans (hpassed.trans ?_))
    rw [List.append_assoc, List.append_assoc]
  have hother := strchr_occurs (c := colon) hclean colonAt.tail
  rw [← h.colon_eq] at hother
  rcases hother with ⟨other, hother, hsame⟩
  refine ⟨other, ?_, ?_⟩
  · rw [firstColonBehind, if_neg (by omega), hsearch]
    refine Eq.trans ?_ hother
    exact congrArg (strchr colon) List.drop_left
  · rw [hsame, hupTo, unshadowed_iff]
    intro behind hbehind hagain
    -- Every other occurrence is one of the text, and the search stops at or before it.
    rcases (List.mem_tails _ _).mp hbehind with ⟨skipped, hskipped⟩
    have hreached : Ahead text (behind ++ colonAt) := by
      refine ⟨skipped, ?_, fun hmem => ?_⟩
      · rw [← List.append_assoc, hskipped, ← hupTo, hfront]
      · have hzero : 0 ∈ passed ++ (quoted name ++ mid) :=
          hskipped ▸ List.mem_append_left _ hmem
        rw [List.mem_append, List.mem_append] at hzero
        exact hzero.elim hpassedClean fun hzero => hzero.elim hnul hclean
    rcases strstr_first hnul htext hreached (hagain.trans (List.prefix_append _ _)) with
      ⟨q, hq, -, -, hahead⟩
    rw [hsearch] at hq
    cases hq
    have hlength := hahead.length_le
    simp only [List.length_append] at hlength ⊢
    omega

/-- The search goes to the colon behind the key if the key is not shadowed. If it is, the search
    goes elsewhere. -/
theorem firstColonBehind_cases (htext : 0 ∈ text) (h : KeyAt text key colonAt letters)
    (hname : Unescaped name) (hkey : key = quoted name ++ rest)
    (hfits : name.length + 3 ≤ jsonStringCapacity) :
    (Unshadowed name (upTo text colonAt) → firstColonBehind name text = .ok colonAt) ∧
    (¬Unshadowed name (upTo text colonAt) →
      ∃ other, other ≠ colonAt ∧ firstColonBehind name text = .ok other) := by
  rcases firstColonBehind_iff htext h hname hkey hfits with ⟨other, hother, hsame⟩
  refine ⟨fun hclear => ?_, fun hshadowed => ⟨other, ?_, hother⟩⟩
  · rw [hother, hsame.mpr hclear]
  · exact fun hcolon => hshadowed (hsame.mp hcolon)

theorem firstColonBehind_refused (hlong : jsonStringCapacity < name.length + 3) :
    firstColonBehind name text = .error .refused := by
  rw [firstColonBehind, if_pos hlong]

/-! ## Offsets and files -/

theorem findTensorOffsets_of_found {header other : List UInt8}
    (hother : firstColonBehind name header = .ok other) :
    findTensorOffsets header name = valueOffsets other := by
  rw [findTensorOffsets, hother]
  rfl

theorem findShardForTensor_of_found {index other outShard : List UInt8}
    (hroom : 0 < outShard.length) (hother : firstColonBehind name index = .ok other) :
    findShardForTensor index name outShard =
      (parseString other.tail outShard).map Prod.fst := by
  rw [findShardForTensor, if_neg (by omega), hother]
  change (parseString other.tail outShard >>= fun parsed => Except.ok parsed.1) = _
  cases parseString other.tail outShard <;> rfl

theorem firstColonBehind_safe (htext : 0 ∈ text) (hname : 0 ∉ quoted name) :
    Safe (fun other => 0 ∈ other.tail) (firstColonBehind name text) := by
  rw [firstColonBehind]
  by_cases hfits : jsonStringCapacity < name.length + 3
  · rw [if_pos hfits]
    exact rfl
  rw [if_neg hfits]
  refine (strstr_safe hname htext).bind ?_
  rintro q ⟨hq, tail, rfl⟩
  have htail : Ahead (quoted name ++ tail) tail := ⟨quoted name, rfl, hname⟩
  rw [List.drop_left]
  refine (strchr_safe colon ((hq.trans htail).mem htext)).mono ?_
  rintro other ⟨hother, value, rfl⟩
  exact (Ahead.step (by decide) value).mem (hother.mem ((hq.trans htail).mem htext))

/-- A lookup reads nothing behind the NUL, and the offsets that it returns are in order. -/
theorem findTensorOffsets_safe {header : List UInt8} (hheader : 0 ∈ header)
    (hname : 0 ∉ quoted name) :
    Safe (fun offsets => offsets.1 ≤ offsets.2) (findTensorOffsets header name) := by
  refine (firstColonBehind_safe hheader hname).bind ?_
  intro other hother
  exact valueOffsets_safe hother

/-- A lookup stays inside its text and its output. -/
theorem findShardForTensor_safe {index outShard : List UInt8} (hindex : 0 ∈ index)
    (hname : 0 ∉ quoted name) :
    Safe (fun outShard' => outShard'.length = outShard.length ∧ 0 ∈ outShard')
      (findShardForTensor index name outShard) := by
  rw [findShardForTensor]
  by_cases hempty : outShard.length = 0
  · rw [if_pos hempty]
    exact rfl
  rw [if_neg hempty]
  refine (firstColonBehind_safe hindex hname).bind ?_
  intro other hother
  refine (parseString_safe hother outShard).bind ?_
  rintro ⟨outShard', behind⟩ hparsed
  have hlength : outShard'.length = outShard.length := hparsed.length_eq
  rcases hparsed.text with ⟨_, _, letters, _, _, _, hholds⟩
  refine ⟨hlength, (hholds ?_).subset (List.mem_append_right _ List.mem_cons_self)⟩
  exact hlength.symm ▸ Nat.pos_of_ne_zero hempty

/-- A file behind the colon that is found is returned if it fits the output. -/
theorem findShardForTensor_file {index other outShard file : List UInt8}
    (hother : firstColonBehind name index = .ok other) (hfile : FileName other file)
    (hroom : file.length < outShard.length) :
    ∃ outShard', findShardForTensor index name outShard = .ok outShard' ∧
      cString outShard' = .ok file := by
  rcases hfile with ⟨blank, body, behind, hblank, hbody, htext⟩
  rcases parseString_quoted hblank hbody behind outShard with
    ⟨outShard', hparse, hlength, hholds⟩
  refine ⟨outShard', ?_, ?_⟩
  · rw [findShardForTensor_of_found (by omega) hother, htext, hparse]
    rfl
  · rw [hholds.cString (by omega) hbody.letters_no_nul, hlength, List.take_of_length_le (by omega)]

/-- The lookups agree with the walks, entry by entry, if the quoted name fits the buffer of the
    search and is not shadowed and, for a file, its name fits the output. If the quoted name does
    not fit, they refuse. If it is shadowed, they return whatever stands behind another colon. In
    any case they stay inside their text and their output. -/
theorem lookup_agrees (keyBuf valueBuf : Vector UInt8 jsonStringCapacity)
    (header index name : List UInt8) (hheader : 0 ∈ header) (hindex : 0 ∈ index)
    (hname : Unescaped name) :
    (∀ (entries : List HeaderEntry) (entry : HeaderEntry) (rest : List UInt8),
      headerEntries keyBuf header = .ok entries → entry ∈ entries →
      entry.key = quoted name ++ rest →
      Safe (fun offsets => offsets.1 ≤ offsets.2) (findTensorOffsets header name) ∧
      (name.length + 3 ≤ jsonStringCapacity → Unshadowed name (upTo header entry.colonAt) →
        findTensorOffsets header name = .ok (entry.first, entry.last)) ∧
      (name.length + 3 ≤ jsonStringCapacity → ¬Unshadowed name (upTo header entry.colonAt) →
        ∃ other, other ≠ entry.colonAt ∧ findTensorOffsets header name = valueOffsets other) ∧
      (jsonStringCapacity < name.length + 3 →
        findTensorOffsets header name = .error .refused)) ∧
    (∀ (result : WeightMapState) (entry : WeightMapEntry) (rest file outShard : List UInt8),
      parseWeightMap keyBuf valueBuf index = .ok result → entry ∈ result.entries →
      entry.key = quoted name ++ rest → FileName entry.colonAt file →
      Safe (fun outShard' => outShard'.length = outShard.length ∧ 0 ∈ outShard')
        (findShardForTensor index name outShard) ∧
      (file.length < outShard.length → name.length + 3 ≤ jsonStringCapacity →
        Unshadowed name (upTo index entry.colonAt) →
        ∃ outShard', findShardForTensor index name outShard = .ok outShard' ∧
          cString outShard' = .ok file) ∧
      (0 < outShard.length → name.length + 3 ≤ jsonStringCapacity →
        ¬Unshadowed name (upTo index entry.colonAt) →
        ∃ other, other ≠ entry.colonAt ∧ findShardForTensor index name outShard =
          (parseString other.tail outShard).map Prod.fst) ∧
      (jsonStringCapacity < name.length + 3 →
        findShardForTensor index name outShard = .error .refused)) := by
  have hnul := quoted_no_nul hname
  refine ⟨?_, ?_⟩
  · intro entries entry rest hentries hentry hkey
    have hvisited := (headerEntries_visited hheader keyBuf).of_eq_ok hentries entry hentry
    rcases hvisited.key with ⟨letters, hkeyAt, -⟩
    refine ⟨findTensorOffsets_safe hheader hnul, ?_, ?_, ?_⟩
    · intro hfits hclear
      have hfound := (firstColonBehind_cases hheader hkeyAt hname hkey hfits).1 hclear
      rw [findTensorOffsets_of_found hfound]
      exact hvisited.offsets
    · intro hfits hshadowed
      rcases (firstColonBehind_cases hheader hkeyAt hname hkey hfits).2 hshadowed with
        ⟨other, hne, hother⟩
      exact ⟨other, hne, findTensorOffsets_of_found hother⟩
    · intro hlong
      rw [findTensorOffsets, firstColonBehind_refused hlong]
      rfl
  · intro result entry rest file outShard hresult hentry hkey hfile
    have hvalid := (parseWeightMap_safe hindex keyBuf valueBuf).of_eq_ok hresult
    rcases (hvalid.mapped entry hentry).key with ⟨letters, hkeyAt⟩
    refine ⟨findShardForTensor_safe hindex hnul, ?_, ?_, ?_⟩
    · intro hroom hfits hclear
      exact findShardForTensor_file
        ((firstColonBehind_cases hindex hkeyAt hname hkey hfits).1 hclear) hfile hroom
    · intro hroom hfits hshadowed
      rcases (firstColonBehind_cases hindex hkeyAt hname hkey hfits).2 hshadowed with
        ⟨other, hne, hother⟩
      exact ⟨other, hne, findShardForTensor_of_found hroom hother⟩
    · intro hlong
      rw [findShardForTensor, firstColonBehind_refused hlong]
      exact ite_self _

/-- A header and an index of one entry, whose names are not shadowed. -/
theorem lookup_agrees_single :
    findTensorOffsets (bytes "\x7b\"a\":\x7b\"data_offsets\":[4,8]\x7d\x7d" ++ [0]) (bytes "a") =
      .ok (4, 8) ∧
    ∃ outShard', findShardForTensor (bytes "\x7b\"weight_map\":\x7b\"a\":\"s\"\x7d\x7d" ++ [0])
      (bytes "a") (List.replicate 8 0) = .ok outShard' ∧ cString outShard' = .ok (bytes "s") := by
  have hagrees := lookup_agrees (Vector.replicate _ 0) (Vector.replicate _ 0)
    (bytes "\x7b\"a\":\x7b\"data_offsets\":[4,8]\x7d\x7d" ++ [0])
    (bytes "\x7b\"weight_map\":\x7b\"a\":\"s\"\x7d\x7d" ++ [0]) (bytes "a") (by decide) (by decide)
    (by decide)
  refine ⟨?_, ?_⟩
  · exact (hagrees.1 [⟨bytes "\"a\":\x7b\"data_offsets\":[4,8]\x7d\x7d" ++ [0],
        bytes ":\x7b\"data_offsets\":[4,8]\x7d\x7d" ++ [0], bytes "a", 4, 8⟩] _
      (bytes ":\x7b\"data_offsets\":[4,8]\x7d\x7d" ++ [0]) (by decide +kernel)
      List.mem_cons_self (by decide)).2.1 (by decide) (by decide +kernel)
  · have hwalk : (parseWeightMap (Vector.replicate _ 0) (Vector.replicate _ 0)
        (bytes "\x7b\"weight_map\":\x7b\"a\":\"s\"\x7d\x7d" ++ [0])).map
          WeightMapState.entries =
        .ok [⟨bytes "\"a\":\"s\"\x7d\x7d" ++ [0], bytes ":\"s\"\x7d\x7d" ++ [0], bytes "s"⟩] := by
      decide +kernel
    rcases map_eq_ok_iff.mp hwalk with ⟨result, hresult, hentries⟩
    have hfile : FileName (bytes ":\"s\"\x7d\x7d" ++ [0]) (bytes "s") :=
      ⟨[], bytes "s", bytes "\x7d\x7d" ++ [0], by decide,
        StringBody.plain (by decide) (by decide) (by decide) StringBody.nil, by decide⟩
    exact (hagrees.2 result _ (bytes ":\"s\"\x7d\x7d" ++ [0]) (bytes "s") (List.replicate 8 0)
      hresult (hentries ▸ List.mem_cons_self) (by decide) hfile).2.1 (by decide) (by decide)
      (by decide +kernel)

/-- A header whose metadata spell the name of a tensor. -/
def shadowedHeader : List UInt8 :=
  bytes "\x7b\"__metadata__\":\x7b\"note\":\"a\"\x7d," ++
    bytes "\"b\":\x7b\"data_offsets\":[0,4]\x7d," ++
    bytes "\"a\":\x7b\"data_offsets\":[4,8]\x7d\x7d" ++ [0]

/-- An index in which the file of a tensor is named like another tensor. -/
def shadowedIndex : List UInt8 :=
  bytes "\x7b\"weight_map\":\x7b\"b\":\"a\",\"c\":\"s\",\"a\":\"t\"\x7d\x7d" ++ [0]

/-- The tensor gets the offsets of the next one of the header, and the file of another one. -/
theorem lookup_agrees_shadowed :
    (headerEntries (Vector.replicate _ 0) shadowedHeader).map
        (fun entries => entries.map fun entry => (entry.name, entry.first, entry.last)) =
      .ok [(bytes "b", 0, 4), (bytes "a", 4, 8)] ∧
    findTensorOffsets shadowedHeader (bytes "a") = .ok (0, 4) ∧
    (parseWeightMap (Vector.replicate _ 0) (Vector.replicate _ 0) shadowedIndex).map
        (fun result => result.entries.map WeightMapEntry.shard) =
      .ok [bytes "a", bytes "s", bytes "t"] ∧
    (findShardForTensor shadowedIndex (bytes "a") (List.replicate pathCapacity 0) >>= cString) =
      .ok (bytes "s") := by
  refine ⟨?_, ?_, ?_, ?_⟩
  · decide +kernel
  · decide +kernel
  · decide +kernel
  · decide +kernel

end Loader

end QrtEngine
