import QrtEngine.Loader.Lookup

/-!
# Slices of a Tensor

`qrt_locate_tensor` finds the shard of a tensor, the length of the header of the shard and the
offsets of the tensor behind the header. `qrt_read_tensor_slice` checks a slice against these
offsets, adds up where it begins in the file, and reads it, on one platform through a cache of open
files first. The sum is one of 64-bit numbers and may wrap. Nothing compares the offsets of a header
with the size of its file, so whoever writes the header chooses where the sum goes. A slice whose
sum wraps to a place inside the file is read without an error, and is not the slice of the tensor.

The files are a function from paths to contents that does not change while the loader runs. What
the cache holds is what its own function has put there.

## Main definitions

* `ShardFile`, `Files`: Contents, and where they are.
* `locateTensor`: `qrt_locate_tensor`, with everything it reads.
* `ShardReadCache`, `prepareEntry`, `Prepared`: The cache and its states.
* `readCached`, `readPlain`, `readTensorSlice`: The two ways to read, and which one is taken.
* `SliceInside`: What a slice has to be.

## Theorems

* `locateTensor_spec`: A location belongs to a file that is there.
* `Prepared.holds`: An open file is the one at its path.
* `readPlain_spec`, `readCached_spec`: Both ways read at the wrapped sum, inside the file.
* `slice_inside_iff`: A slice that is read is the one of the tensor if the sum does not wrap.
-/

namespace QrtEngine

namespace Loader

open CText JsonGrammar

/-! ## Files -/

/-- The content of a file, whose size is a signed 64-bit number. -/
structure ShardFile where
  content : List UInt8
  size_lt : content.length < 2 ^ 63

theorem ShardFile.size_toNat (file : ShardFile) :
    (UInt64.ofNat file.content.length).toNat = file.content.length :=
  UInt64.toNat_ofNat_of_lt (Nat.lt_trans file.size_lt (by decide))

/-- What a path opens. -/
abbrev Files := List UInt8 → Option ShardFile

/-- The platforms differ in the width of a `long`, and in the cache. -/
inductive Platform
  | windows
  | posix
  deriving DecidableEq, Repr

/-- `LONG_MAX`. -/
def Platform.longMax : Platform → Nat
  | .windows => 2 ^ 31 - 1
  | .posix => 2 ^ 63 - 1

inductive ReadStatus
  | invalidArgument
  | ioError
  | parseError
  deriving DecidableEq, Repr

/-- A status, and the stage and message that the engine is left with, if it is told. -/
structure ReadFailure where
  status : ReadStatus
  report : Option (String × String)
  deriving DecidableEq, Repr

def orFail {α : Type} (status : ReadStatus) (stage message : String) :
    Option α → Except ReadFailure α
  | some value => .ok value
  | none => .error ⟨status, some (stage, message)⟩

/-- The failure of a step, whatever has stopped it. -/
def failWith {α ε : Type} (status : ε → ReadStatus) (stage message : String) :
    Except ε α → Except ReadFailure α
  | .ok value => .ok value
  | .error failure => .error ⟨status failure, some (stage, message)⟩

/-- `qrt_path_join`. -/
def pathJoin (dir name : List UInt8) (capacity : Nat) : Option (List UInt8) :=
  let separator : UInt8 := if 92 ∈ dir then 92 else 47
  let needsSeparator : Bool := match dir.getLast? with
    | none => false
    | some last => last ≠ 47 && last ≠ 92
  if capacity < dir.length + (if needsSeparator then 1 else 0) + name.length + 1 then none
  else some (if needsSeparator then dir ++ separator :: name else dir ++ name)

/-- `qrt_read_small_file`. The size of the file has to be a `long`. -/
def readSmallFile (platform : Platform) (files : Files) (path : List UInt8) :
    Except ReadStatus (List UInt8) :=
  match files path with
  | none => .error .ioError
  | some file =>
      if platform.longMax < file.content.length then .error .ioError
      else .ok (file.content ++ [0])

/-- `qrt_read_le64`. -/
def readLe64 (lenBytes : List UInt8) : UInt64 :=
  lenBytes.foldr (fun byte value => value <<< 8 ||| byte.toUInt64) 0

/-- `qrt_read_safetensors_header_json`. Its test against `SIZE_MAX` is true of no 64-bit length. -/
def readSafetensorsHeaderJson (files : Files) (path : List UInt8) :
    Except ReadStatus (List UInt8) :=
  match files path with
  | none => .error .ioError
  | some file =>
      if file.content.length < 8 then .error .ioError
      else if UInt64.ofNat file.content.length - 8 < readLe64 (file.content.take 8) then
        .error .parseError
      else .ok ((file.content.drop 8).take (readLe64 (file.content.take 8)).toNat ++ [0])

/-! ## Locations -/

structure TensorLocation where
  shard : List UInt8
  headerLen : UInt64
  dataBegin : UInt64
  dataEnd : UInt64
  deriving DecidableEq, Repr

/-- `qrt_locate_tensor`. -/
def locateTensor (platform : Platform) (files : Files) (modelDir tensorName : List UInt8) :
    Except ReadFailure TensorLocation := do
  let indexPath ← orFail .invalidArgument "tensor_index_path" "model path is too long"
    (pathJoin modelDir (bytes "model.safetensors.index.json") pathCapacity)
  let index ← failWith id "tensor_index_read" "index read failed"
    (readSmallFile platform files indexPath)
  let shard ← failWith (fun _ => .parseError) "tensor_index_parse" "tensor missing from index"
    (findShardForTensor index tensorName (List.replicate pathCapacity 0) >>= cString)
  let shardPath ← orFail .invalidArgument "tensor_shard_path" "shard path is too long"
    (pathJoin modelDir shard pathCapacity)
  let header ← failWith id "tensor_header_read" "safetensors header read failed"
    (readSafetensorsHeaderJson files shardPath)
  let (first, last) ← failWith (fun _ => .parseError) "tensor_header_parse"
    "tensor offsets missing from shard header" (findTensorOffsets header tensorName)
  let file ← orFail .ioError "tensor_shard_open" "shard open failed" (files shardPath)
  if file.content.length < 8 then
    .error ⟨.ioError, some ("tensor_header_len", "header length read failed")⟩
  else .ok ⟨shard, readLe64 (file.content.take 8), first, last⟩

/-! ## The cache of open files -/

structure ShardReadCacheEntry where
  shard : List UInt8
  file : ShardFile
  fileSize : UInt64

structure ShardReadCache where
  enabled : Bool
  entries : List ShardReadCacheEntry

/-- `qrt_engine_find_win32_shard_read_cache_entry`. -/
def ShardReadCache.findEntry (cache : ShardReadCache) (shard : List UInt8) :
    Option ShardReadCacheEntry :=
  cache.entries.find? fun entry => entry.shard = shard

/-- `qrt_engine_prepare_win32_shard_read_cache_entry`. A file that cannot be opened leaves the
    cache as it is. -/
def prepareEntry (files : Files) (modelDir : List UInt8) (cache : ShardReadCache)
    (location : TensorLocation) : ShardReadCache :=
  if !cache.enabled || (cache.findEntry location.shard).isSome ||
      decide (maxShards ≤ cache.entries.length) then cache
  else
    match (pathJoin modelDir location.shard pathCapacity).bind files with
    | none => cache
    | some file => { cache with
        entries := cache.entries ++
          [⟨location.shard, file, UInt64.ofNat file.content.length⟩] }

/-- The states of the cache of an engine. -/
inductive Prepared (files : Files) (modelDir : List UInt8) : ShardReadCache → Prop
  | empty (enabled : Bool) : Prepared files modelDir ⟨enabled, []⟩
  | prepare {cache : ShardReadCache} (h : Prepared files modelDir cache)
      (location : TensorLocation) :
      Prepared files modelDir (prepareEntry files modelDir cache location)

/-! ## Slices -/

/-- Where a slice begins in its file, as both ways to read it add it up. -/
def absoluteOffset (location : TensorLocation) (relativeBegin : UInt64) : UInt64 :=
  8 + location.headerLen + location.dataBegin + relativeBegin

/-- The offset of an overlapped read, from its lower and its upper half. -/
def overlappedOffset (absolute : UInt64) : Nat :=
  (absolute &&& 0xffffffff).toNat + (absolute >>> 32).toNat * 2 ^ 32

/-- `qrt_try_read_tensor_slice_from_win32_shard_read_cache`. The flag says whether the system
    provides an event and completes the read. -/
def readCached (cache : ShardReadCache) (systemReady : Bool) (location : TensorLocation)
    (relativeBegin byteCount : UInt64) : Option (List UInt8) :=
  if byteCount = 0 || !cache.enabled then none
  else
    match cache.findEntry location.shard with
    | none => none
    | some entry =>
        let absolute := absoluteOffset location relativeBegin
        if entry.fileSize < absolute || entry.fileSize - absolute < byteCount ||
            0xffffffff < byteCount then none
        else if !systemReady then none
        else
          let read := (entry.file.content.drop (overlappedOffset absolute)).take byteCount.toNat
          if read.length ≠ byteCount.toNat then none else some read

/-- The part of `qrt_read_tensor_slice` that opens the file, seeks and reads. An offset that is
    negative as a signed number cannot be sought. -/
def readPlain (files : Files) (modelDir : List UInt8) (location : TensorLocation)
    (relativeBegin byteCount : UInt64) : Except ReadFailure (List UInt8) := do
  let shardPath ← orFail .invalidArgument "tensor_slice_path" "shard path is too long"
    (pathJoin modelDir location.shard pathCapacity)
  let file ← orFail .ioError "tensor_slice_open" "shard open failed" (files shardPath)
  let absolute := absoluteOffset location relativeBegin
  if 2 ^ 63 ≤ absolute.toNat then
    .error ⟨.ioError, some ("tensor_slice_seek", "shard seek failed")⟩
  else
    let read := (file.content.drop absolute.toNat).take byteCount.toNat
    if read.length ≠ byteCount.toNat then
      .error ⟨.ioError, some ("tensor_slice_read", "short tensor slice read")⟩
    else .ok read

/-- `qrt_read_tensor_slice`. -/
def readTensorSlice (platform : Platform) (files : Files) (modelDir : List UInt8)
    (cache : ShardReadCache) (systemReady : Bool) (location : TensorLocation)
    (relativeBegin byteCount : UInt64) : Except ReadFailure (List UInt8) :=
  if byteCount = 0 then .error ⟨.invalidArgument, none⟩
  else if location.dataEnd < location.dataBegin ||
      location.dataEnd - location.dataBegin < relativeBegin ||
      location.dataEnd - location.dataBegin - relativeBegin < byteCount then
    .error ⟨.invalidArgument,
      some ("tensor_slice_bounds", "requested tensor slice is outside data_offsets")⟩
  else
    match if platform = .windows then readCached cache systemReady location relativeBegin byteCount
      else none with
    | some read => .ok read
    | none => readPlain files modelDir location relativeBegin byteCount

/-! ## What a slice has to be -/

/-- Where a slice begins in its file. -/
def sliceStart (location : TensorLocation) (relativeBegin : UInt64) : Nat :=
  8 + location.headerLen.toNat + location.dataBegin.toNat + relativeBegin.toNat

/-- The bytes of the file at the start of the slice, behind the header, inside the tensor and inside
    the file. -/
structure SliceInside (content : List UInt8) (location : TensorLocation)
    (relativeBegin byteCount : UInt64) (out : List UInt8) : Prop where
  bytes_eq : out = (content.drop (sliceStart location relativeBegin)).take byteCount.toNat
  header : 8 + location.headerLen.toNat ≤ sliceStart location relativeBegin
  tensor : location.dataBegin.toNat + relativeBegin.toNat + byteCount.toNat ≤
    location.dataEnd.toNat
  file : sliceStart location relativeBegin + byteCount.toNat ≤ content.length

theorem absoluteOffset_toNat (location : TensorLocation) (relativeBegin : UInt64) :
    (absoluteOffset location relativeBegin).toNat = sliceStart location relativeBegin % 2 ^ 64 := by
  rw [absoluteOffset, sliceStart, UInt64.toNat_add, UInt64.toNat_add, UInt64.toNat_add]
  rw [show (8 : UInt64).toNat = 8 from rfl]
  omega

/-- The halves of an offset make up the offset. -/
theorem overlappedOffset_eq (absolute : UInt64) : overlappedOffset absolute = absolute.toNat := by
  have hlow : (absolute &&& 0xffffffff).toNat = absolute.toNat % 2 ^ 32 :=
    (UInt64.toNat_and ..).trans (Nat.and_two_pow_sub_one_eq_mod absolute.toNat 32)
  have hhigh : (absolute >>> 32).toNat = absolute.toNat / 2 ^ 32 :=
    (UInt64.toNat_shiftRight ..).trans (Nat.shiftRight_eq_div_pow absolute.toNat 32)
  rw [overlappedOffset, hlow, hhigh]
  omega

/-! ## Both ways read at the wrapped sum -/

theorem orFail_eq_ok_iff {α : Type} {status : ReadStatus} {stage message : String}
    {first : Option α} {value : α} :
    orFail status stage message first = .ok value ↔ first = some value := by
  cases first with
  | none => exact ⟨fun h => (by cases h), fun h => (by cases h)⟩
  | some found => simp [orFail]

theorem failWith_eq_ok_iff {α ε : Type} {status : ε → ReadStatus} {stage message : String}
    {first : Except ε α} {value : α} :
    failWith status stage message first = .ok value ↔ first = .ok value := by
  cases first with
  | error failure => exact ⟨fun h => (by cases h), fun h => (by cases h)⟩
  | ok found => simp [failWith]

/-- The bytes of a file from an offset on, all of them inside the file. -/
def ReadAt (content : List UInt8) (start count : Nat) (out : List UInt8) : Prop :=
  out = (content.drop start).take count ∧ start + count ≤ content.length

/-- A read that is not short is inside the file. -/
theorem readAt_of_length {content : List UInt8} {start count : Nat} (hcount : 0 < count)
    (hlength : ((content.drop start).take count).length = count) :
    ReadAt content start count ((content.drop start).take count) := by
  refine ⟨rfl, ?_⟩
  rw [List.length_take, List.length_drop] at hlength
  omega

variable {files : Files} {modelDir : List UInt8} {cache : ShardReadCache}
  {location : TensorLocation} {relativeBegin byteCount : UInt64} {out : List UInt8}

theorem readPlain_spec (hcount : byteCount ≠ 0)
    (h : readPlain files modelDir location relativeBegin byteCount = .ok out) :
    ∃ file, (pathJoin modelDir location.shard pathCapacity).bind files = some file ∧
      ReadAt file.content (absoluteOffset location relativeBegin).toNat byteCount.toNat out := by
  rcases bind_eq_ok_iff.mp h with ⟨path, hpath, h⟩
  rcases bind_eq_ok_iff.mp h with ⟨file, hfile, h⟩
  rw [orFail_eq_ok_iff] at hpath hfile
  refine ⟨file, by rw [hpath]; exact hfile, ?_⟩
  dsimp only at h
  split_ifs at h with hseek hshort
  cases h
  refine readAt_of_length ?_ (not_not.mp hshort)
  exact Nat.pos_of_ne_zero fun hzero => hcount (UInt64.toNat.inj hzero)

theorem readCached_spec {systemReady : Bool}
    (h : readCached cache systemReady location relativeBegin byteCount = some out) :
    byteCount ≠ 0 ∧ ∃ entry, cache.findEntry location.shard = some entry ∧
      ReadAt entry.file.content (absoluteOffset location relativeBegin).toNat byteCount.toNat
        out := by
  rw [readCached] at h
  by_cases hready : (byteCount = 0 || !cache.enabled) = true
  · rw [if_pos hready] at h
    cases h
  rw [if_neg hready] at h
  rw [Bool.or_eq_true, not_or, decide_eq_true_eq] at hready
  refine ⟨hready.1, ?_⟩
  cases hentry : cache.findEntry location.shard with
  | none =>
      rw [hentry] at h
      cases h
  | some entry =>
      rw [hentry] at h
      dsimp only at h
      split_ifs at h with _ _ hshort
      cases h
      rw [overlappedOffset_eq] at hshort ⊢
      refine ⟨entry, rfl, readAt_of_length ?_ (not_not.mp hshort)⟩
      exact Nat.pos_of_ne_zero fun hzero => hready.1 (UInt64.toNat.inj hzero)

/-- An open file is the one at its path. -/
theorem Prepared.holds (h : Prepared files modelDir cache) :
    ∀ entry ∈ cache.entries,
      (pathJoin modelDir entry.shard pathCapacity).bind files = some entry.file := by
  induction h with
  | empty enabled => exact fun _ hmem => absurd hmem List.not_mem_nil
  | @prepare cache _ location ih =>
      rw [prepareEntry]
      split_ifs with hskip
      · exact ih
      cases hopen : (pathJoin modelDir location.shard pathCapacity).bind files with
      | none => exact ih
      | some file =>
          intro entry hmem
          rcases List.mem_append.mp hmem with hmem | hmem
          · exact ih entry hmem
          · rw [List.mem_singleton.mp hmem]
            exact hopen

theorem findEntry_holds (h : Prepared files modelDir cache) {shard : List UInt8}
    {entry : ShardReadCacheEntry} (hentry : cache.findEntry shard = some entry) :
    (pathJoin modelDir shard pathCapacity).bind files = some entry.file := by
  rw [ShardReadCache.findEntry] at hentry
  have hshard := List.find?_some hentry
  rw [decide_eq_true_eq] at hshard
  rw [← hshard]
  exact h.holds entry (List.mem_of_find?_eq_some hentry)

/-- A location belongs to a file that is there, its header lies inside of the file, and its offsets
    are those that the lookup has found. -/
theorem locateTensor_spec {platform : Platform} {tensorName : List UInt8}
    (h : locateTensor platform files modelDir tensorName = .ok location) :
    ∃ file, (pathJoin modelDir location.shard pathCapacity).bind files = some file ∧
      8 + location.headerLen.toNat ≤ file.content.length ∧
      findTensorOffsets ((file.content.drop 8).take location.headerLen.toNat ++ [0]) tensorName =
        .ok (location.dataBegin, location.dataEnd) := by
  rcases bind_eq_ok_iff.mp h with ⟨indexPath, -, h⟩
  rcases bind_eq_ok_iff.mp h with ⟨index, -, h⟩
  rcases bind_eq_ok_iff.mp h with ⟨shard, -, h⟩
  rcases bind_eq_ok_iff.mp h with ⟨path, hpath, h⟩
  rcases bind_eq_ok_iff.mp h with ⟨header, hheader, h⟩
  rcases bind_eq_ok_iff.mp h with ⟨⟨first, last⟩, hoffsets, h⟩
  rcases bind_eq_ok_iff.mp h with ⟨file, hfile, h⟩
  rw [orFail_eq_ok_iff] at hpath hfile
  rw [failWith_eq_ok_iff] at hheader hoffsets
  split_ifs at h with hshort
  cases h
  -- The header was read from the same file, whose length it was checked against.
  rw [readSafetensorsHeaderJson, hfile] at hheader
  dsimp only at hheader
  rw [if_neg hshort] at hheader
  split_ifs at hheader with hlong
  cases hheader
  refine ⟨file, by rw [hpath]; exact hfile, ?_, hoffsets⟩
  have hbound := UInt64.not_lt.mp hlong
  have height : (8 : UInt64).toNat = 8 := rfl
  have hroom : 8 ≤ UInt64.ofNat file.content.length := by
    rw [UInt64.le_iff_toNat_le, file.size_toNat]
    exact Nat.le_of_not_lt hshort
  rw [UInt64.le_iff_toNat_le, UInt64.toNat_sub_of_le _ _ hroom, file.size_toNat] at hbound
  dsimp only
  omega

/-- A slice that is read begins at the wrapped sum, lies inside of the file, and its tensor is as
    long as its offsets say. -/
theorem readTensorSlice_spec {platform : Platform} {systemReady : Bool}
    (hcache : Prepared files modelDir cache)
    (h : readTensorSlice platform files modelDir cache systemReady location relativeBegin
      byteCount = .ok out) :
    ∃ file, (pathJoin modelDir location.shard pathCapacity).bind files = some file ∧
      ReadAt file.content (absoluteOffset location relativeBegin).toNat byteCount.toNat out ∧
      location.dataBegin.toNat + relativeBegin.toNat + byteCount.toNat ≤
        location.dataEnd.toNat := by
  rw [readTensorSlice] at h
  by_cases hcount : byteCount = 0
  · rw [if_pos hcount] at h
    cases h
  rw [if_neg hcount] at h
  by_cases hbounds : (decide (location.dataEnd < location.dataBegin) ||
      decide (location.dataEnd - location.dataBegin < relativeBegin) ||
      decide (location.dataEnd - location.dataBegin - relativeBegin < byteCount)) = true
  · rw [if_pos hbounds] at h
    cases h
  rw [if_neg hbounds] at h
  -- An open file and the path lead to the same content, so both ways read at the same place.
  have hread : ∃ file, (pathJoin modelDir location.shard pathCapacity).bind files = some file ∧
      ReadAt file.content (absoluteOffset location relativeBegin).toNat byteCount.toNat out := by
    cases hcached : if platform = .windows then
        readCached cache systemReady location relativeBegin byteCount else none with
    | none =>
        rw [hcached] at h
        exact readPlain_spec hcount h
    | some read =>
        rw [hcached] at h
        cases h
        by_cases hwindows : platform = .windows
        · rw [if_pos hwindows] at hcached
          rcases (readCached_spec hcached).2 with ⟨entry, hentry, hread⟩
          exact ⟨entry.file, findEntry_holds hcache hentry, hread⟩
        · rw [if_neg hwindows] at hcached
          cases hcached
  rcases hread with ⟨file, hfile, hread⟩
  refine ⟨file, hfile, hread, ?_⟩
  -- The differences of the bounds check do not wrap, one after the other.
  simp only [Bool.or_eq_true, decide_eq_true_eq, not_or, UInt64.not_lt] at hbounds
  rcases hbounds with ⟨⟨horder, hbegin⟩, hend⟩
  rw [UInt64.le_iff_toNat_le] at horder hbegin hend
  have hbytes := UInt64.toNat_sub_of_le _ _ (UInt64.le_iff_toNat_le.mpr horder)
  rw [UInt64.toNat_sub_of_le _ _ (UInt64.le_iff_toNat_le.mpr hbegin)] at hend
  omega

/-- A slice of a located tensor that is read is the one of the tensor if and only if the sum of
    where it begins does not wrap. The two ways to read never differ. -/
theorem slice_inside_iff (platform : Platform) (files : Files)
    (modelDir tensorName : List UInt8) (location : TensorLocation) (cache : ShardReadCache)
    (hlocate : locateTensor platform files modelDir tensorName = .ok location)
    (hcache : Prepared files modelDir cache) :
    ∃ file, (pathJoin modelDir location.shard pathCapacity).bind files = some file ∧
      (∀ (systemReady : Bool) (relativeBegin byteCount : UInt64) (out : List UInt8),
        readTensorSlice platform files modelDir cache systemReady location relativeBegin
          byteCount = .ok out →
        (SliceInside file.content location relativeBegin byteCount out ↔
          8 + location.headerLen.toNat + location.dataBegin.toNat + relativeBegin.toNat <
            2 ^ 64)) ∧
      (∀ (systemReady : Bool) (relativeBegin byteCount : UInt64) (cached plain : List UInt8),
        readCached cache systemReady location relativeBegin byteCount = some cached →
        readPlain files modelDir location relativeBegin byteCount = .ok plain →
        cached = plain) := by
  rcases locateTensor_spec hlocate with ⟨file, hfile, -, -⟩
  refine ⟨file, hfile, ?_, ?_⟩
  · intro systemReady relativeBegin byteCount out hread
    rcases readTensorSlice_spec hcache hread with ⟨file', hfile', ⟨hout, hinside⟩, htensor⟩
    rw [hfile] at hfile'
    cases hfile'
    rw [absoluteOffset_toNat] at hout hinside
    -- A sum that wraps lies behind every file, while its remainder lies inside of this one.
    have hsize := file.size_lt
    constructor
    · intro hslice
      have hend := hslice.file
      rw [sliceStart] at hend
      omega
    · intro hsum
      have hexact : sliceStart location relativeBegin % 2 ^ 64 =
          sliceStart location relativeBegin := Nat.mod_eq_of_lt hsum
      rw [hexact] at hout hinside
      refine ⟨hout, ?_, htensor, hinside⟩
      rw [sliceStart]
      omega
  · intro systemReady relativeBegin byteCount cached plain hcached hplain
    rcases readCached_spec hcached with ⟨hcount, entry, hentry, hread⟩
    rcases readPlain_spec hcount hplain with ⟨file', hfile', hread'⟩
    rw [findEntry_holds hcache hentry] at hfile'
    cases hfile'
    rw [hread.1, hread'.1]

/-- A directory of an index with one tensor, and its shard. -/
def oneTensor (shard : List UInt8) : Files := fun path =>
  if path = bytes "m/model.safetensors.index.json" then
    some ⟨bytes "\x7b\"weight_map\":\x7b\"a\":\"s\"\x7d\x7d", by decide⟩
  else if h : path = bytes "m/s" ∧ shard.length < 2 ^ 63 then some ⟨shard, h.2⟩
  else none

/-- A shard of four bytes of data behind a header of 28 bytes. -/
def smallShard : List UInt8 :=
  [28, 0, 0, 0, 0, 0, 0, 0] ++ bytes "\x7b\"a\":\x7b\"data_offsets\":[0,4]\x7d\x7d" ++ [1, 2, 3, 4]

/-- Two bytes of the data are read as such. -/
theorem slice_inside_iff_small :
    SliceInside smallShard ⟨bytes "s", 28, 0, 4⟩ 1 2 [2, 3] := by
  have hslices := slice_inside_iff .posix (oneTensor smallShard) (bytes "m") (bytes "a")
    ⟨bytes "s", 28, 0, 4⟩ ⟨false, []⟩ (by decide +kernel) (Prepared.empty false)
  rcases hslices with ⟨file, hfile, hread, -⟩
  have hcontent : file.content = smallShard :=
    (Option.some.inj hfile).symm ▸ rfl
  rw [← hcontent]
  exact (hread true 1 2 [2, 3] (by decide +kernel)).mpr (by decide)

/-- A shard without data, whose header claims the end of the 64-bit numbers. -/
def wrappingShard : List UInt8 :=
  [66, 0, 0, 0, 0, 0, 0, 0] ++
    bytes "\x7b\"a\":\x7b\"data_offsets\":[18446744073709551600,18446744073709551615]\x7d\x7d"

/-- The end of the header is read as the tensor. -/
theorem slice_inside_wrapping :
    locateTensor .windows (oneTensor wrappingShard) (bytes "m") (bytes "a") =
      .ok ⟨bytes "s", 66, 18446744073709551600, 18446744073709551615⟩ ∧
    readTensorSlice .windows (oneTensor wrappingShard) (bytes "m") ⟨true, []⟩ true
        ⟨bytes "s", 66, 18446744073709551600, 18446744073709551615⟩ 0 15 =
      .ok (bytes "4073709551615]\x7d") ∧
    ¬SliceInside wrappingShard ⟨bytes "s", 66, 18446744073709551600, 18446744073709551615⟩ 0 15
      (bytes "4073709551615]\x7d") := by
  refine ⟨?_, ?_, ?_⟩
  · decide +kernel
  · decide +kernel
  · intro h
    exact absurd h.file (by decide +kernel)

end Loader

end QrtEngine
