import Mathlib.Data.List.Nodup
import QrtEngine.Library.Collect
import QrtEngine.Loader.Accounting

/-!
# The Weight Map of an Index

`qrt_parse_weight_map` walks over the object behind `"weight_map"` in the index of a model, from the
name of a tensor to the file of its shard, and collects the files. The loop is that of the walk over
a header. Here too it lists the entries it visits, so that another reader of the index can be
compared with it.

## Main definitions

* `findKey`, `addUniqueShard`: The start of the map, and the set of the files.
* `WeightMapEntry`, `WeightMapState`, `weightMapMember`, `parseWeightMap`: The walk.
* `FileName`: The string that stands behind a colon.

## Theorems

* `parseWeightMap_safe`: The walk ends, stays inside its text and collects every file once.
-/

namespace QrtEngine

namespace Loader

open CText JsonGrammar

/-- `QRT_LOAD_PATH_CAPACITY`. -/
def pathCapacity : Nat := 1024

/-- `QRT_LOAD_MAX_SHARDS`. -/
def maxShards : Nat := 128

/-- A name between quotes. -/
def quoted (name : List UInt8) : List UInt8 := quote :: (name ++ [quote])

/-- `qrt_json_find_key`. Its pattern is an array of 128 bytes. -/
def findKey (json key : List UInt8) : Except Stop (List UInt8) :=
  if 128 < key.length + 3 then .error .refused else strstr (quoted key) json

/-- `qrt_add_unique_shard`. -/
def addUniqueShard (shards : List (List UInt8)) (filename : List UInt8) :
    Except Stop (List (List UInt8)) :=
  if filename = [] then .error .refused
  else if filename ∈ shards then .ok shards
  else if maxShards ≤ shards.length ∨ pathCapacity < filename.length + 1 then .error .refused
  else .ok (shards ++ [filename])

/-- A visited entry: where its key and its colon stand, and its file as the value buffer holds
    it. -/
structure WeightMapEntry where
  key : List UInt8
  colonAt : List UInt8
  shard : List UInt8
  deriving DecidableEq, Repr

/-- The buffers of the walk and what it returns, and the entries it has visited. -/
structure WeightMapState where
  keyBuf : List UInt8
  valueBuf : List UInt8
  shards : List (List UInt8)
  tensorCount : UInt64
  entries : List WeightMapEntry
  deriving DecidableEq, Repr

/-- A member of the map. -/
def weightMapMember (state : WeightMapState) (key : List UInt8) :
    Except Stop (WeightMapState × List UInt8) := do
  let (keyBuf, colonAt) ← readKey key state.keyBuf
  let (valueBuf, valueEnd) ← parseString colonAt.tail state.valueBuf
  let shard ← cString valueBuf
  let shards ← addUniqueShard state.shards shard
  .ok (⟨keyBuf, valueBuf, shards, state.tensorCount + 1,
    state.entries ++ [⟨key, colonAt, shard⟩]⟩, valueEnd)

/-- `qrt_parse_weight_map`. -/
def parseWeightMap (keyBuf valueBuf : Vector UInt8 jsonStringCapacity) (index : List UInt8) :
    Except Stop WeightMapState := do
  let cursor ← findKey index (bytes "weight_map")
  let brace ← strchr openBrace cursor
  walkMembers weightMapMember index.length ⟨keyBuf.toList, valueBuf.toList, [], 0, []⟩ brace.tail

/-! ## What the walk collects -/

/-- The name that the string behind a colon spells. -/
def FileName (colonAt name : List UInt8) : Prop :=
  ∃ blank body rest, Blank blank ∧ StringBody body name ∧
    colonAt.tail = blank ++ quote :: (body ++ quote :: rest)

/-- An entry of an index, as the text has it. -/
structure Mapped (index : List UInt8) (entry : WeightMapEntry) : Prop where
  key : ∃ letters, KeyAt index entry.key entry.colonAt letters
  value : ∃ name, FileName entry.colonAt name ∧
    entry.shard = name.take (jsonStringCapacity - 1)

/-- What holds of the walk in every round. The files are those of the entries, each of them once. -/
structure WeightMapState.Valid (index : List UInt8) (state : WeightMapState) : Prop where
  keyBuf_length : state.keyBuf.length = jsonStringCapacity
  valueBuf_length : state.valueBuf.length = jsonStringCapacity
  mapped : ∀ entry ∈ state.entries, Mapped index entry
  shards_nodup : state.shards.Nodup
  mem_shards : ∀ shard, shard ∈ state.shards ↔ ∃ entry ∈ state.entries, entry.shard = shard
  shards_length : state.shards.length ≤ maxShards
  tensorCount_eq : state.tensorCount = UInt64.ofNat state.entries.length

/-- A set of files and one more of them. -/
theorem addUniqueShard_safe {shards : List (List UInt8)} (hnodup : shards.Nodup)
    (hlength : shards.length ≤ maxShards) (filename : List UInt8) :
    Safe (fun shards' => shards'.Nodup ∧ shards'.length ≤ maxShards ∧
      ∀ shard, shard ∈ shards' ↔ shard ∈ shards ∨ shard = filename)
      (addUniqueShard shards filename) := by
  rw [addUniqueShard]
  by_cases hempty : filename = []
  · rw [if_pos hempty]
    exact rfl
  rw [if_neg hempty]
  by_cases hknown : filename ∈ shards
  · rw [if_pos hknown]
    refine ⟨hnodup, hlength, fun shard => ⟨Or.inl, ?_⟩⟩
    rintro (h | rfl)
    · exact h
    · exact hknown
  rw [if_neg hknown]
  by_cases hfull : maxShards ≤ shards.length ∨ pathCapacity < filename.length + 1
  · rw [if_pos hfull]
    exact rfl
  · rw [if_neg hfull]
    rw [not_or, Nat.not_le] at hfull
    refine ⟨nodup_append_new hknown hnodup, ?_, ?_⟩
    · rw [List.length_append, List.length_singleton]
      exact hfull.1
    · intro shard
      rw [List.mem_append, List.mem_singleton]

/-- One member keeps the walk valid. -/
theorem weightMapMember_safe {index : List UInt8} (hindex : 0 ∈ index) :
    MemberSafe (WeightMapState.Valid index) index weightMapMember := by
  intro state key hstate hkey
  refine (readKey_safe hindex hkey hstate.keyBuf_length).bind ?_
  rintro ⟨keyBuf, colonAt⟩ ⟨hkeyBuf, letters, hcolonAt, -⟩
  rcases hcolonAt.ahead_value with ⟨hvalue, hbehind, hshort⟩
  refine (parseString_safe (hvalue.mem hindex) state.valueBuf).bind ?_
  rintro ⟨valueBuf, valueEnd⟩ hparsed
  have hvalueBuf : valueBuf.length = jsonStringCapacity :=
    hparsed.length_eq.trans hstate.valueBuf_length
  rcases hparsed.text with ⟨blank, body, name, hblank, hbody, htext, hholds⟩
  have hread := hholds.cString (by rw [hvalueBuf]; decide) hbody.letters_no_nul
  -- The file is what the value buffer holds, in the set and in the entry.
  dsimp only at hread hkeyBuf hcolonAt hvalue hbehind hshort htext ⊢
  rw [hvalueBuf] at hread
  rw [hread]
  refine (addUniqueShard_safe hstate.shards_nodup hstate.shards_length _).bind ?_
  rintro shards ⟨hnodup, hlength, hmem⟩
  refine ⟨⟨hkeyBuf, hvalueBuf, ?_, hnodup, ?_, hlength, ?_⟩, hbehind.trans hparsed.ahead.1,
    Nat.lt_trans hparsed.ahead.2 hshort⟩
  · intro entry hentry
    rcases List.mem_append.mp hentry with hentry | hentry
    · exact hstate.mapped entry hentry
    · rw [List.mem_singleton.mp hentry]
      exact ⟨⟨letters, hcolonAt⟩, name, ⟨blank, body, valueEnd, hblank, hbody, htext⟩, rfl⟩
  · intro shard
    rw [hmem, hstate.mem_shards]
    simp only [List.mem_append, List.mem_singleton]
    constructor
    · rintro (⟨entry, hentry, hshard⟩ | hshard)
      · exact ⟨entry, .inl hentry, hshard⟩
      · exact ⟨_, .inr rfl, hshard.symm⟩
    · rintro ⟨entry, hentry | hentry, hshard⟩
      · exact .inl ⟨entry, hentry, hshard⟩
      · rw [hentry] at hshard
        exact .inr hshard.symm
  · rw [List.length_append, List.length_singleton, UInt64.ofNat_add, hstate.tensorCount_eq]
    rfl

/-- The walk ends, stays inside its text and collects every file once. -/
theorem parseWeightMap_safe {index : List UInt8} (hindex : 0 ∈ index)
    (keyBuf valueBuf : Vector UInt8 jsonStringCapacity) :
    Safe (WeightMapState.Valid index) (parseWeightMap keyBuf valueBuf index) := by
  refine (strstr_safe (by decide) hindex).bind ?_
  rintro cursor ⟨hcursor, -⟩
  refine (strchr_safe openBrace (hcursor.mem hindex)).bind ?_
  rintro brace ⟨hbrace, rest, rfl⟩
  have hstart : WeightMapState.Valid index ⟨keyBuf.toList, valueBuf.toList, [], 0, []⟩ := by
    refine ⟨keyBuf.length_toList, valueBuf.length_toList, ?_, List.nodup_nil, ?_, ?_, rfl⟩
    · exact fun _ h => absurd h List.not_mem_nil
    · simp
    · exact Nat.zero_le _
  have hto := hcursor.trans hbrace
  refine walkMembers_safe hindex (weightMapMember_safe hindex) _ _ _ hto.length_le hstart ?_
  exact hto.trans (Ahead.step (by decide) rest)

end Loader

end QrtEngine
