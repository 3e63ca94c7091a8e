import QrtEngine.Loader.ResidentCache
import QrtEngine.Loader.TensorSlice
import QrtEngine.Library.Run

/-!
# Loading through the Cache

A caller asks for a tensor, or for a part of it by the number of a token or an expert, and gives
the cache a key that is made of both. Single weights are copied out of the cache or read and added
to it. The weights of the selected experts are prepared together: those that are there are used
where they are, the others are read, and then added. Those of all experts may be read and added
before the first request.

Whatever allocations fail on the way, the caller gets what an engine without a cache reads, and
fails where it fails.

## Main definitions

* `Request`: What callers ask for.
* `materialize`: `qrt_materialize_tensor_slice_weight`.
* `selected`: The selected weights of `qrt_moe_experts_selected_cpu`.
* `prepackSelectedMoeWeights`: `qrt_engine_prepack_selected_moe_weights`.
* `Content`: What a key stands for.

## Theorems

* `cacheKey_injective`: A key stands for one part of one tensor.
* `readTensorSlice_plain`: Open files do not change what is read.
* `resident_index`: What is found in any reached cache.
* `resident_transparent`: What is loaded in any reached engine.
-/

namespace QrtEngine

namespace ResidentCache

open Loader CText

/-! ## Requests -/

/-- A part of a tensor. -/
inductive Part
  | whole
  | token (id : UInt32)
  | expert (id : UInt32)
  | expertSample (id : UInt32)
  deriving DecidableEq, Repr

/-- `%u`. -/
def decimal (n : Nat) : List UInt8 := (Nat.toDigits 10 n).map fun c => UInt8.ofNat c.toNat

/-- What a key has behind the name of the tensor. -/
def Part.suffix : Part → List UInt8
  | .whole => []
  | .token id => bytes "#token=" ++ decimal id.toNat
  | .expert id => bytes "#expert=" ++ decimal id.toNat
  | .expertSample id => bytes "#expert_sample=" ++ decimal id.toNat

/-- The number of a part. -/
def Part.number : Part → UInt64
  | .whole => 0
  | .token id => id.toUInt64
  | .expert id => id.toUInt64
  | .expertSample id => id.toUInt64

/-- A part of a tensor, whose name has no number sign, and the bytes of its values. -/
structure Request where
  tensorName : List UInt8
  part : Part
  weightBytes : UInt64
  plain : 35 ∉ tensorName
  some_values : weightBytes ≠ 0
  whole_values : weightBytes % 2 = 0

/-- The key that callers give the cache. -/
def Request.cacheKey (request : Request) : List UInt8 := request.tensorName ++ request.part.suffix

/-- Where the part begins. -/
def Request.relativeBegin (request : Request) : UInt64 :=
  request.part.number * request.weightBytes

/-- `qrt_selected_expert_weight_metadata_hash`. -/
def metadataHash (request : Request) (location : TensorLocation) : UInt64 :=
  fnv1a64UpdateBytes 1469598103934665603 (request.tensorName ++ [0] ++ (request.cacheKey ++ [0]) ++
    (location.shard ++ [0]) ++ sizeBytes location.headerLen ++ sizeBytes location.dataBegin ++
    sizeBytes location.dataEnd ++ sizeBytes request.relativeBegin ++
    sizeBytes request.weightBytes)

/-! ## The engine -/

/-- What an engine keeps between requests. -/
structure Engine where
  cache : Cache
  shards : ShardReadCache

/-- The allocations of a request: the weight, its name, and what the cache grows by. -/
structure Allocations where
  data : Bool
  name : Bool
  growth : Growth
  deriving DecidableEq, Repr

/-- A weight and its hash. -/
structure Loaded where
  data : List UInt8
  hash : UInt64
  deriving DecidableEq, Repr

section Loading

variable (platform : Platform) (files : Files) (modelDir : List UInt8) (byteHash : Bool)

/-- A file is opened for the shard, on one platform. -/
def prepareShard (shards : ShardReadCache) (location : TensorLocation) : ShardReadCache :=
  if platform = .windows then prepareEntry files modelDir shards location else shards

/-- The slice of a request. -/
def readSlice (shards : ShardReadCache) (systemReady : Bool) (request : Request)
    (location : TensorLocation) : Except ReadFailure (List UInt8) :=
  readTensorSlice platform files modelDir shards systemReady location request.relativeBegin
    request.weightBytes

/-- A miss is counted. -/
def countMiss (cache : Cache) (weightBytes : UInt64) : Cache :=
  if cache.enabled then { cache with
    missCount := cache.missCount + 1
    missBytes := cache.missBytes + weightBytes.toNat }
  else cache

/-- `qrt_materialize_tensor_slice_weight`. It has a copy of
    `qrt_engine_store_resident_weight_cache_owned` at its end. -/
def materialize (engine : Engine) (request : Request) (allocations : Allocations)
    (systemReady : Bool) : Except ReadFailure Loaded × Engine :=
  if request.weightBytes = 0 || request.weightBytes % 2 ≠ 0 then
    (.error ⟨.invalidArgument, none⟩, engine)
  else
    let (view, cache) := tryView engine.cache request.cacheKey request.weightBytes
    match view with
    | some (data, hash) => (.ok ⟨data, hash⟩, { engine with cache := cache })
    | none =>
        let cache := countMiss cache request.weightBytes
        match locateTensor platform files modelDir request.tensorName with
        | .error failure => (.error failure, { engine with cache := cache })
        | .ok location =>
            let shards := prepareShard platform files modelDir engine.shards location
            match readSlice platform files modelDir shards systemReady request location with
            | .error failure => (.error failure, ⟨cache, shards⟩)
            | .ok data =>
                let hash := fnv1a64Bytes data
                let cache := if !cache.enabled then cache
                  else if !allocations.data || !allocations.name then
                    { cache with storeFailureCount := cache.storeFailureCount + 1 }
                  else (storeOwned cache request.cacheKey data (request.weightBytes / 2)
                    request.weightBytes hash allocations.growth).2
                (.ok ⟨data, hash⟩, ⟨cache, shards⟩)

/-! ## Selected weights -/

/-- A selected weight, what the allocator does for it, and whether the system completes its read. -/
structure Selection where
  request : Request
  allocations : Allocations
  systemReady : Bool

/-- `qrt_qwen36_moe_selected_weight_slot_t`: a weight that is there, or one to be read. -/
inductive Slot
  | resident (loaded : Loaded)
  | needsLoad (canStoreResident : Bool)

/-- `qrt_qwen36_moe_selected_weight_slot_prepare`. There is no slot without memory for its data. -/
def slotPrepare (cache : Cache) (selection : Selection) : Option Slot × Cache :=
  let (view, cache) := tryView cache selection.request.cacheKey selection.request.weightBytes
  match view with
  | some (data, hash) => (some (.resident ⟨data, hash⟩), cache)
  | none =>
      let cache := countMiss cache selection.request.weightBytes
      if !selection.allocations.data then (none, cache)
      else if !cache.enabled then (some (.needsLoad false), cache)
      else if !selection.allocations.name then (some (.needsLoad false),
        { cache with storeFailureCount := cache.storeFailureCount + 1 })
      else (some (.needsLoad true), cache)

/-- The slots are prepared one after the other, until one cannot be. -/
def prepareSlots : List Selection → Cache → Option (List Slot) × Cache
  | [], cache => (some [], cache)
  | selection :: selections, cache =>
      match slotPrepare cache selection with
      | (none, cache) => (none, cache)
      | (some slot, cache) =>
          match prepareSlots selections cache with
          | (none, cache) => (none, cache)
          | (some slots, cache) => (some (slot :: slots), cache)

/-- A selected weight, where its tensor is, and its slot. -/
abbrev Task : Type := (Selection × TensorLocation) × Slot

/-- `qrt_qwen36_moe_weight_load_task_run`, for a slot that needs it. -/
def loadTask (shards : ShardReadCache) (task : Task) : Except ReadFailure (List UInt8) :=
  match task.2 with
  | .resident loaded => .ok loaded.data
  | .needsLoad _ =>
      readSlice platform files modelDir shards task.1.1.systemReady task.1.1.request task.1.2

/-- The shards of the slots that need a read. -/
def prepareShards (shards : ShardReadCache) (tasks : List Task) : ShardReadCache :=
  tasks.foldl (fun shards task => match task.2 with
    | .resident _ => shards
    | .needsLoad _ => prepareShard platform files modelDir shards task.1.2) shards

/-- `qrt_qwen36_moe_selected_weight_slot_finalize_loaded`. -/
def slotFinalize (cache : Cache) (task : Task) (data : List UInt8) : Loaded × Cache :=
  match task.2 with
  | .resident loaded => (loaded, cache)
  | .needsLoad canStoreResident =>
      let request := task.1.1.request
      let hash := if byteHash then fnv1a64Bytes data else metadataHash request task.1.2
      let cache := if canStoreResident then
          (storeOwned cache request.cacheKey data (request.weightBytes / 2) request.weightBytes hash
            task.1.1.allocations.growth).2
        else cache
      (⟨data, hash⟩, cache)

/-- The slots are finalized one after the other. -/
def finalizeSlots : List (Task × List UInt8) → Cache → List Loaded × Cache
  | [], cache => ([], cache)
  | (task, data) :: rest, cache =>
      let (loaded, cache) := slotFinalize byteHash cache task data
      let (others, cache) := finalizeSlots rest cache
      (loaded :: others, cache)

/-- What `qrt_moe_experts_selected_cpu` fails with. -/
inductive SelectedFailure
  | outOfMemory
  | read (status : ReadStatus)
  deriving DecidableEq, Repr

/-- The selected weights of `qrt_moe_experts_selected_cpu`: the tensors are located, the slots are
    prepared, those that need it are read, and if no read has failed all are finalized. -/
def selected (engine : Engine) (selections : List Selection) :
    Except SelectedFailure (List Loaded) × Engine :=
  match selections.mapM fun selection =>
      locateTensor platform files modelDir selection.request.tensorName with
  | .error failure => (.error (.read failure.status), engine)
  | .ok locations =>
      match prepareSlots selections engine.cache with
      | (none, cache) => (.error .outOfMemory, { engine with cache := cache })
      | (some slots, cache) =>
          let tasks := (selections.zip locations).zip slots
          let shards := prepareShards platform files modelDir engine.shards tasks
          match tasks.mapM (loadTask platform files modelDir shards) with
          | .error failure => (.error (.read failure.status), ⟨cache, shards⟩)
          | .ok data =>
              let (loaded, cache) := finalizeSlots byteHash (tasks.zip data) cache
              (.ok loaded, ⟨cache, shards⟩)

/-! ## Prepacked weights -/

/-- The tensors of the selected experts of a layer. -/
structure PrepackLayer where
  gateUp : List UInt8
  down : List UInt8
  gateUp_plain : 35 ∉ gateUp
  down_plain : 35 ∉ down

/-- `QRT_QWEN36_EXPERT_COUNT`. -/
def expertCount : Nat := 256

/-- `gate_up_bytes_per_expert`. -/
def gateUpBytesPerExpert : UInt64 := 4194304

/-- `down_bytes_per_expert`. -/
def downBytesPerExpert : UInt64 := 2097152

/-- The first weight of an expert. -/
def PrepackLayer.gateUpWeight (layer : PrepackLayer) (expert : Nat) : Request where
  tensorName := layer.gateUp
  part := .expert (UInt32.ofNat expert)
  weightBytes := gateUpBytesPerExpert
  plain := layer.gateUp_plain
  some_values := by decide
  whole_values := by decide

/-- The second weight of an expert. -/
def PrepackLayer.downWeight (layer : PrepackLayer) (expert : Nat) : Request where
  tensorName := layer.down
  part := .expert (UInt32.ofNat expert)
  weightBytes := downBytesPerExpert
  plain := layer.down_plain
  some_values := by decide
  whole_values := by decide

/-- Where a prepack fails: what is behind `selected_moe_prepack_` in `failure_stage`. -/
inductive PrepackStage
  | engine
  | locate (status : ReadStatus)
  | shape
  | alloc
  | read (status : ReadStatus)
  | store
  | accounting
  deriving DecidableEq, Repr

/-- The engine, and `qrt_selected_moe_prepack_result_t`, as far as a prepack has come. -/
structure Prepack where
  engine : Engine
  loadedEntryCount : Nat
  loadedBytes : Nat
  storeFailureCount : Nat
  weightDigest : UInt64

section Prepacking

variable (system : Request → Allocations × Bool)

/-- `qrt_engine_prepack_selected_moe_weight`. It does not look whether the weight is there. -/
def prepackWeight (weight : Request × TensorLocation) (prepack : Prepack) :
    Option PrepackStage × Prepack :=
  let (request, location) := weight
  let allocations := (system request).1
  if !allocations.data || !allocations.name then (some .alloc, prepack)
  else
    let shards := prepareShard platform files modelDir prepack.engine.shards location
    match readSlice platform files modelDir shards (system request).2 request location with
    | .error failure => (some (.read failure.status),
        { prepack with engine := ⟨prepack.engine.cache, shards⟩ })
    | .ok data =>
        let hash := if byteHash then fnv1a64Bytes data else metadataHash request location
        let (stored, cache) := storeOwned prepack.engine.cache request.cacheKey data
          (request.weightBytes / 2) request.weightBytes hash allocations.growth
        if !stored then (some .store, { prepack with
          engine := ⟨cache, shards⟩
          storeFailureCount := prepack.storeFailureCount + 1 })
        else (none, { prepack with
          engine := ⟨cache, shards⟩
          loadedEntryCount := prepack.loadedEntryCount + 1
          loadedBytes := prepack.loadedBytes + request.weightBytes.toNat
          weightDigest := fnv1a64UpdateBytes prepack.weightDigest
            (request.cacheKey ++ [0] ++ sizeBytes hash) })

/-- A loop that ends at the first failure. -/
def untilFailure {α : Type} (body : α → Prepack → Option PrepackStage × Prepack) :
    List α → Prepack → Option PrepackStage × Prepack
  | [], prepack => (none, prepack)
  | a :: rest, prepack =>
      match body a prepack with
      | (some stage, prepack) => (some stage, prepack)
      | (none, prepack) => untilFailure body rest prepack

/-- The weights of a layer, the two of an expert together. -/
def PrepackLayer.weights (layer : PrepackLayer) (gateUp down : TensorLocation) (experts : Nat) :
    List (Request × TensorLocation) :=
  (List.range experts).flatMap fun expert =>
    [(layer.gateUpWeight expert, gateUp), (layer.downWeight expert, down)]

/-- The tensor at a location has a weight of this size for each expert. -/
def hasExperts (location : TensorLocation) (bytesPerExpert : UInt64) : Bool :=
  decide (location.dataBegin ≤ location.dataEnd) &&
    location.dataEnd - location.dataBegin == UInt64.ofNat expertCount * bytesPerExpert

/-- The weights of a layer are prepacked if its tensors are there and have the sizes. -/
def prepackLayer (layer : PrepackLayer) (prepack : Prepack) : Option PrepackStage × Prepack :=
  match locateTensor platform files modelDir layer.gateUp with
  | .error failure => (some (.locate failure.status), prepack)
  | .ok gateUp =>
      match locateTensor platform files modelDir layer.down with
      | .error failure => (some (.locate failure.status), prepack)
      | .ok down =>
          if !hasExperts gateUp gateUpBytesPerExpert || !hasExperts down downBytesPerExpert then
            (some .shape, prepack)
          else untilFailure (prepackWeight platform files modelDir byteHash system)
            (layer.weights gateUp down expertCount) prepack

/-- `prepack_completed`: what is counted is what there is. -/
def Prepack.completed (prepack : Prepack) (layerCount : Nat) : Bool :=
  prepack.loadedEntryCount == layerCount * expertCount * 2 &&
    prepack.loadedBytes == layerCount * expertCount *
      (gateUpBytesPerExpert.toNat + downBytesPerExpert.toNat) &&
    prepack.storeFailureCount == 0

/-- `qrt_engine_prepack_selected_moe_weights`. -/
def prepackSelectedMoeWeights (engine : Engine) (layers : List PrepackLayer) :
    Option PrepackStage × Prepack :=
  let start : Prepack := ⟨engine, 0, 0, 0, 1469598103934665603⟩
  if !engine.cache.enabled then (some .engine, start)
  else
    match untilFailure (prepackLayer platform files modelDir byteHash system) layers start with
    | (some stage, prepack) => (some stage, prepack)
    | (none, prepack) =>
        if prepack.completed layers.length then (none, prepack) else (some .accounting, prepack)

end Prepacking

/-! ## Runs -/

/-- What callers do. -/
inductive Op
  | materialize (request : Request) (allocations : Allocations) (systemReady : Bool)
  | selected (selections : List Selection)
  | prepack (layers : List PrepackLayer) (system : Request → Allocations × Bool)

/-- The engine behind an operation. -/
def step (engine : Engine) : Op → Option Engine
  | .materialize request allocations systemReady =>
      some (materialize platform files modelDir engine request allocations systemReady).2
  | .selected selections => some (selected platform files modelDir byteHash engine selections).2
  | .prepack layers system =>
      some (prepackSelectedMoeWeights platform files modelDir byteHash system engine layers).2.engine

/-- A new engine. -/
def New (engine : Engine) : Prop :=
  (∃ enabled, engine.cache = Cache.empty enabled) ∧ ∃ enabled, engine.shards = ⟨enabled, []⟩

/-- The slots of an index are allocated, and the cache has not as many entries as cannot be
    counted. -/
def indexReady (engine : Engine) : Op → Prop
  | .materialize _ allocations _ =>
      allocations.growth.index = true ∧ engine.cache.entries.length < 2 ^ 62
  | .selected selections => (∀ selection ∈ selections, selection.allocations.growth.index = true) ∧
      engine.cache.entries.length + selections.length < 2 ^ 62
  | .prepack layers system => (∀ request, (system request).1.growth.index = true) ∧
      engine.cache.entries.length + layers.length * (expertCount * 2) < 2 ^ 62

end Loading

/-! ## Keys -/

theorem digitChar_injective {m n : Nat} (hm : m < 10) (hn : n < 10)
    (h : UInt8.ofNat (Nat.digitChar m).toNat = UInt8.ofNat (Nat.digitChar n).toNat) : m = n := by
  have hall : ∀ m, m < 10 → ∀ n, n < 10 →
      UInt8.ofNat (Nat.digitChar m).toNat = UInt8.ofNat (Nat.digitChar n).toNat → m = n := by
    decide
  exact hall m hm n hn h

/-- Different numbers have different digits. -/
theorem decimal_injective (m : Nat) : ∀ n, decimal m = decimal n → m = n := by
  induction m using Nat.strongRecOn with
  | _ m ih =>
      intro n h
      have hone : ∀ k, k < 10 → decimal k = [UInt8.ofNat (Nat.digitChar k).toNat] := by
        intro k hk
        rw [decimal, Nat.toDigits_of_lt_base hk]
        rfl
      have hmore : ∀ k, 10 ≤ k →
          decimal k = decimal (k / 10) ++ [UInt8.ofNat (Nat.digitChar (k % 10)).toNat] := by
        intro k hk
        rw [decimal, Nat.toDigits_of_base_le (by decide) hk, List.map_append]
        rfl
      have hsome : ∀ k, decimal k ≠ [] := by
        intro k hk
        exact Nat.toDigits_ne_nil (List.map_eq_nil_iff.mp hk)
      rcases Nat.lt_or_ge m 10 with hm | hm <;> rcases Nat.lt_or_ge n 10 with hn | hn
      · rw [hone m hm, hone n hn] at h
        exact digitChar_injective hm hn (List.cons.inj h).1
      · rw [hone m hm, hmore n hn] at h
        have hlength := congrArg List.length h
        have hpos := List.length_pos_iff.mpr (hsome (n / 10))
        rw [List.length_append, List.length_singleton, List.length_singleton] at hlength
        omega
      · rw [hmore m hm, hone n hn] at h
        have hlength := congrArg List.length h
        have hpos := List.length_pos_iff.mpr (hsome (m / 10))
        rw [List.length_append, List.length_singleton, List.length_singleton] at hlength
        omega
      · rw [hmore m hm, hmore n hn] at h
        obtain ⟨hinit, hlast⟩ := List.append_inj' h rfl
        have hdiv := ih (m / 10) (by omega) _ hinit
        have hmod := digitChar_injective (Nat.mod_lt m (by decide)) (Nat.mod_lt n (by decide))
          (List.cons.inj hlast).1
        omega

/-- A suffix begins with a number sign, if it is not empty. -/
theorem Part.suffix_head (part : Part) : part.suffix = [] ∨ part.suffix.head? = some 35 := by
  cases part
  · exact Or.inl rfl
  all_goals exact Or.inr rfl

/-- What is behind a name without a number sign is known from the key. -/
theorem append_suffix_injective {name name' suffix suffix' : List UInt8} (hname : 35 ∉ name)
    (hname' : 35 ∉ name') (hsuffix : suffix = [] ∨ suffix.head? = some 35)
    (hsuffix' : suffix' = [] ∨ suffix'.head? = some 35)
    (h : name ++ suffix = name' ++ suffix') : name = name' ∧ suffix = suffix' := by
  induction name generalizing name' with
  | nil =>
      cases name' with
      | nil => exact ⟨rfl, h⟩
      | cons c name' =>
          rw [List.nil_append] at h
          rcases hsuffix with rfl | hhead
          · cases h
          · rw [h] at hhead
            obtain rfl := Option.some.inj hhead
            exact absurd List.mem_cons_self hname'
  | cons c name ih =>
      cases name' with
      | nil =>
          rw [List.nil_append] at h
          rcases hsuffix' with rfl | hhead
          · cases h
          · rw [← h] at hhead
            obtain rfl := Option.some.inj hhead
            exact absurd List.mem_cons_self hname
      | cons c' name' =>
          obtain ⟨rfl, hrest⟩ := List.cons.inj h
          obtain ⟨rfl, rfl⟩ := ih (fun hmem => hname (List.mem_cons_of_mem _ hmem))
            (fun hmem => hname' (List.mem_cons_of_mem _ hmem)) hrest
          exact ⟨rfl, rfl⟩

theorem Part.suffix_injective {part part' : Part} (h : part.suffix = part'.suffix) :
    part = part' := by
  have hnumber : ∀ id id' : UInt32, decimal id.toNat = decimal id'.toNat → id = id' :=
    fun id id' hdecimal => UInt32.toNat_inj.mp (decimal_injective _ _ hdecimal)
  have htoken : bytes "#token=" = [35, 116, 111, 107, 101, 110, 61] := by decide
  have hexpert : bytes "#expert=" = [35, 101, 120, 112, 101, 114, 116, 61] := by decide
  have hsample : bytes "#expert_sample=" =
      [35, 101, 120, 112, 101, 114, 116, 95, 115, 97, 109, 112, 108, 101, 61] := by decide
  cases part <;> cases part'
  case whole.whole => rfl
  case token.token id id' => exact congrArg _ (hnumber id id' (List.append_cancel_left h))
  case expert.expert id id' => exact congrArg _ (hnumber id id' (List.append_cancel_left h))
  case expertSample.expertSample id id' =>
    exact congrArg _ (hnumber id id' (List.append_cancel_left h))
  all_goals simp [Part.suffix, htoken, hexpert, hsample] at h

/-- A key stands for one part of one tensor. -/
theorem cacheKey_injective {request request' : Request}
    (hkey : request.cacheKey = request'.cacheKey)
    (helements : request.weightBytes / 2 = request'.weightBytes / 2) : request = request' := by
  obtain ⟨hname, hsuffix⟩ := append_suffix_injective request.plain request'.plain
    request.part.suffix_head request'.part.suffix_head hkey
  have hpart := Part.suffix_injective hsuffix
  have hbytes : request.weightBytes = request'.weightBytes := by
    have hdiv := congrArg UInt64.toNat helements
    have hmod := congrArg UInt64.toNat (request.whole_values.trans request'.whole_values.symm)
    rw [UInt64.toNat_div, UInt64.toNat_div] at hdiv
    rw [UInt64.toNat_mod, UInt64.toNat_mod] at hmod
    refine UInt64.toNat_inj.mp ?_
    have htwo : (2 : UInt64).toNat = 2 := rfl
    rw [htwo] at hdiv hmod
    omega
  obtain ⟨name, part, weightBytes, _, _, _⟩ := request
  obtain ⟨name', part', weightBytes', _, _, _⟩ := request'
  dsimp only at hname hpart hbytes
  subst hname hpart hbytes
  rfl

section Contents

variable {platform : Platform} {files : Files} {modelDir : List UInt8} {byteHash : Bool}

/-! ## Reading -/

/-- What an engine without open files reads. -/
def plainSlice (platform : Platform) (files : Files) (modelDir : List UInt8) (request : Request)
    (location : TensorLocation) : Except ReadFailure (List UInt8) :=
  readSlice platform files modelDir ⟨false, []⟩ false request location

/-- What is in a file is read from it. -/
theorem readPlain_of_readAt {location : TensorLocation} {relativeBegin byteCount : UInt64}
    {out : List UInt8} {file : ShardFile}
    (hfile : (pathJoin modelDir location.shard pathCapacity).bind files = some file)
    (hread : ReadAt file.content (absoluteOffset location relativeBegin).toNat byteCount.toNat
      out) : readPlain files modelDir location relativeBegin byteCount = .ok out := by
  obtain ⟨path, hpath, hopen⟩ := Option.bind_eq_some_iff.mp hfile
  obtain ⟨hout, hinside⟩ := hread
  have hsize := file.size_lt
  have hlength : ((file.content.drop (absoluteOffset location relativeBegin).toNat).take
      byteCount.toNat).length = byteCount.toNat := by
    rw [List.length_take, List.length_drop]
    omega
  rw [readPlain, hpath, hout]
  simp only [orFail, bind, Except.bind, hopen]
  rw [if_neg (by omega), if_neg (not_not.mpr hlength)]

/-- Open files do not change what is read. -/
theorem readTensorSlice_plain {shards : ShardReadCache} (hshards : Prepared files modelDir shards)
    (systemReady : Bool) (request : Request) (location : TensorLocation) :
    readSlice platform files modelDir shards systemReady request location =
      plainSlice platform files modelDir request location := by
  unfold plainSlice readSlice readTensorSlice
  have hnone : readCached ⟨false, []⟩ false location request.relativeBegin request.weightBytes =
      none := by
    rw [readCached]
    simp
  by_cases hwindows : platform = .windows
  · simp only [if_pos hwindows, hnone]
    cases hcached : readCached shards systemReady location request.relativeBegin
        request.weightBytes with
    | none => rfl
    | some out =>
        obtain ⟨_, entry, hentry, hread⟩ := readCached_spec hcached
        rw [readPlain_of_readAt (findEntry_holds hshards hentry) hread]
  · simp only [if_neg hwindows]

/-- What an engine without caches reads for a request. -/
def plainRead (platform : Platform) (files : Files) (modelDir : List UInt8) (request : Request) :
    Except ReadFailure (List UInt8) :=
  match locateTensor platform files modelDir request.tensorName with
  | .error failure => .error failure
  | .ok location => plainSlice platform files modelDir request location

/-- What the cache may have of a key: what is read for the requests that have it. -/
def Content (platform : Platform) (files : Files) (modelDir : List UInt8) (byteHash : Bool)
    (cacheKey : List UInt8) (weightElements : UInt64) (data : List UInt8) (hash : UInt64) : Prop :=
  ∀ request : Request, request.cacheKey = cacheKey → request.weightBytes / 2 = weightElements →
    plainRead platform files modelDir request = .ok data ∧
      (byteHash = true → hash = fnv1a64Bytes data)

/-- What is read for a request is the content of its key. -/
theorem content_of_read {request : Request} {data : List UInt8} {hash : UInt64}
    (hread : plainRead platform files modelDir request = .ok data)
    (hhash : byteHash = true → hash = fnv1a64Bytes data) :
    Content platform files modelDir byteHash request.cacheKey (request.weightBytes / 2) data
      hash := by
  intro request' hkey helements
  obtain rfl := cacheKey_injective hkey helements
  exact ⟨hread, hhash⟩

/-- An engine whose caches are in order. -/
structure Valid (platform : Platform) (files : Files) (modelDir : List UInt8) (byteHash : Bool)
    (engine : Engine) : Prop where
  kept : Kept (Content platform files modelDir byteHash) engine.cache
  shards : Prepared files modelDir engine.shards

theorem prepareShard_prepared {shards : ShardReadCache} (h : Prepared files modelDir shards)
    (location : TensorLocation) :
    Prepared files modelDir (prepareShard platform files modelDir shards location) := by
  unfold prepareShard
  split_ifs
  · exact h.prepare location
  · exact h

theorem countMiss_kept {content : List UInt8 → UInt64 → List UInt8 → UInt64 → Prop} {cache : Cache}
    (h : Kept content cache) (weightBytes : UInt64) :
    Kept content (countMiss cache weightBytes) ∧
      (countMiss cache weightBytes).enabled = cache.enabled ∧
      (countMiss cache weightBytes).entries = cache.entries ∧
      (countMiss cache weightBytes).indexSlots = cache.indexSlots := by
  unfold countMiss
  split_ifs
  · exact ⟨⟨h.room, h.capacity, h.keyed, h.bytes, h.indexed⟩, rfl, rfl, rfl⟩
  · exact ⟨h, rfl, rfl, rfl⟩

/-- How an operation leaves the cache: in order, with the same switch, and with an index that is not
    stale if it was not and its slots are allocated. -/
structure Leaves (platform : Platform) (files : Files) (modelDir : List UInt8) (byteHash : Bool)
    (ready : Prop) (cache cache' : Cache) : Prop where
  kept : Kept (Content platform files modelDir byteHash) cache'
  enabled : cache'.enabled = cache.enabled
  fresh : ready → ¬Stale cache → ¬Stale cache'

/-! ## Single weights -/

/-- A look into the cache, and the miss that is counted. -/
theorem view_leaves {cache : Cache} (h : Kept (Content platform files modelDir byteHash) cache)
    (request : Request) :
    (∀ data hash, (tryView cache request.cacheKey request.weightBytes).1 = some (data, hash) →
      plainRead platform files modelDir request = .ok data ∧
        (byteHash = true → hash = fnv1a64Bytes data)) ∧
    Leaves platform files modelDir byteHash True cache
      (tryView cache request.cacheKey request.weightBytes).2 ∧
    Leaves platform files modelDir byteHash True cache
      (countMiss (tryView cache request.cacheKey request.weightBytes).2 request.weightBytes) ∧
    (tryView cache request.cacheKey request.weightBytes).2.entries.length = cache.entries.length ∧
    (countMiss (tryView cache request.cacheKey request.weightBytes).2
      request.weightBytes).entries.length = cache.entries.length := by
  obtain ⟨hkept, henabled, hlength, hstale, hview⟩ := tryView_kept h request.cacheKey
    request.weightBytes
  obtain ⟨hcounted, henabled', hentries, hslots⟩ := countMiss_kept hkept request.weightBytes
  refine ⟨fun data hash hsome => hview data hash hsome request rfl rfl,
    ⟨hkept, henabled, fun _ hnot h => hnot (hstale h)⟩,
    ⟨hcounted, henabled'.trans henabled, fun _ hnot h => hnot (hstale ?_)⟩, hlength,
    (congrArg List.length hentries).trans hlength⟩
  obtain ⟨slots, hsome, hless⟩ := h
  exact ⟨slots, by rw [← hslots, hsome], by rw [hentries] at hless; exact hless⟩

/-- A weight that is read is stored. -/
theorem store_leaves {cache : Cache} (h : Kept (Content platform files modelDir byteHash) cache)
    {request : Request} {data : List UInt8} {hash : UInt64}
    (hread : plainRead platform files modelDir request = .ok data)
    (hhash : byteHash = true → hash = fnv1a64Bytes data) (growth : Growth) :
    Leaves platform files modelDir byteHash
      (growth.index = true ∧ cache.entries.length < 2 ^ 62) cache
      (storeOwned cache request.cacheKey data (request.weightBytes / 2) request.weightBytes hash
        growth).2 := by
  obtain ⟨hkept, henabled, _, hstale⟩ :=
    @storeOwned_kept _ _ h _ _ _ request.weightBytes _ (content_of_read hread hhash) growth
  exact ⟨hkept, henabled, fun hready => hstale hready.1 hready.2⟩

/-- A weight is the one that is read without caches, wherever it comes from. -/
theorem materialize_spec {engine : Engine} (h : Valid platform files modelDir byteHash engine)
    (request : Request) (allocations : Allocations) (systemReady : Bool) :
    Valid platform files modelDir byteHash
      (materialize platform files modelDir engine request allocations systemReady).2 ∧
    Leaves platform files modelDir byteHash
      (allocations.growth.index = true ∧ engine.cache.entries.length < 2 ^ 62) engine.cache
      (materialize platform files modelDir engine request allocations systemReady).2.cache ∧
    (materialize platform files modelDir engine request allocations systemReady).1.map
        Loaded.data = plainRead platform files modelDir request ∧
    ∀ loaded, (materialize platform files modelDir engine request allocations systemReady).1 =
      .ok loaded → byteHash = true → loaded.hash = fnv1a64Bytes loaded.data := by
  have hsizes : ¬(decide (request.weightBytes = 0) ||
      decide (request.weightBytes % 2 ≠ 0)) = true := by
    simp [request.some_values, request.whole_values]
  obtain ⟨hview, hviewed, hmissed, _, hlength⟩ := view_leaves h.kept request
  rw [materialize, if_neg hsizes]
  dsimp only
  generalize hlook : tryView engine.cache request.cacheKey request.weightBytes = look at *
  obtain ⟨view, cache⟩ := look
  dsimp only at hview hviewed hmissed hlength ⊢
  cases view with
  | some found =>
      obtain ⟨data, hash⟩ := found
      -- A hit: what the cache holds is what the files hold, and no entry is added.
      obtain ⟨hread, hhash⟩ := hview data hash rfl
      dsimp only
      refine ⟨⟨hviewed.kept, h.shards⟩, ⟨hviewed.kept, hviewed.enabled,
        fun _ => hviewed.fresh trivial⟩, hread.symm, fun loaded hloaded => ?_⟩
      obtain rfl := Except.ok.inj hloaded
      exact hhash
  | none =>
      dsimp only
      generalize countMiss cache request.weightBytes = missed at hmissed hlength ⊢
      cases hlocate : locateTensor platform files modelDir request.tensorName with
      | error failure =>
          refine ⟨⟨hmissed.kept, h.shards⟩, ⟨hmissed.kept, hmissed.enabled,
            fun _ => hmissed.fresh trivial⟩, ?_, fun loaded hloaded => (by cases hloaded)⟩
          rw [plainRead, hlocate]
          rfl
      | ok location =>
          have hshards := @prepareShard_prepared platform _ _ _ h.shards location
          dsimp only
          rw [readTensorSlice_plain hshards]
          have hplain : plainRead platform files modelDir request =
              plainSlice platform files modelDir request location := by
            rw [plainRead, hlocate]
          cases hslice : plainSlice platform files modelDir request location with
          | error failure =>
              refine ⟨⟨hmissed.kept, hshards⟩, ⟨hmissed.kept, hmissed.enabled,
                fun _ => hmissed.fresh trivial⟩, ?_, fun loaded hloaded => (by cases hloaded)⟩
              rw [hplain, hslice]
              rfl
          | ok data =>
              dsimp only
              have hread : plainRead platform files modelDir request = .ok data := by
                rw [hplain, hslice]
              -- A miss that is read: the cache is off, or has no memory for the entry, or stores it.
              have hleaves : Leaves platform files modelDir byteHash
                  (allocations.growth.index = true ∧ engine.cache.entries.length < 2 ^ 62)
                  engine.cache (if (!missed.enabled) = true then missed
                    else if (!allocations.data || !allocations.name) = true then
                      { missed with storeFailureCount := missed.storeFailureCount + 1 }
                    else (storeOwned missed request.cacheKey data (request.weightBytes / 2)
                      request.weightBytes (fnv1a64Bytes data) allocations.growth).2) := by
                have hstored := store_leaves hmissed.kept hread (fun _ => rfl) allocations.growth
                split_ifs
                · exact ⟨hmissed.kept, hmissed.enabled, fun _ => hmissed.fresh trivial⟩
                · have hkept := hmissed.kept
                  exact ⟨⟨hkept.room, hkept.capacity, hkept.keyed, hkept.bytes, hkept.indexed⟩,
                    hmissed.enabled, fun _ => hmissed.fresh trivial⟩
                · refine ⟨hstored.kept, hstored.enabled.trans hmissed.enabled, ?_⟩
                  intro hready hnot
                  exact hstored.fresh ⟨hready.1, by omega⟩ (hmissed.fresh trivial hnot)
              refine ⟨⟨hleaves.kept, hshards⟩, hleaves, hread.symm, fun loaded hloaded => ?_⟩
              obtain rfl := Except.ok.inj hloaded
              exact fun _ => rfl

/-! ## Selected weights -/

/-- One change of the cache behind another. -/
theorem Leaves.trans {ready ready' : Prop} {cache cache' cache'' : Cache}
    (h : Leaves platform files modelDir byteHash ready cache cache')
    (h' : Leaves platform files modelDir byteHash ready' cache' cache'') :
    Leaves platform files modelDir byteHash (ready ∧ ready') cache cache'' :=
  ⟨h'.kept, h'.enabled.trans h.enabled,
    fun hready hnot => h'.fresh hready.2 (h.fresh hready.1 hnot)⟩

theorem Leaves.weaken {ready ready' : Prop} {cache cache' : Cache}
    (h : Leaves platform files modelDir byteHash ready cache cache') (himp : ready' → ready) :
    Leaves platform files modelDir byteHash ready' cache cache' :=
  ⟨h.kept, h.enabled, fun hready => h.fresh (himp hready)⟩

/-- The steps of a loop succeed if each of them does. -/
theorem mapM_eq_ok_iff {α β ε : Type} {f : α → Except ε β} {l : List α} {r : List β} :
    l.mapM f = .ok r ↔ List.Forall₂ (fun a b => f a = .ok b) l r := by
  induction l generalizing r with
  | nil =>
      rw [List.mapM_nil]
      constructor
      · intro h
        obtain rfl := Except.ok.inj h
        exact List.Forall₂.nil
      · intro h
        cases h
        rfl
  | cons a l ih =>
      rw [List.mapM_cons]
      cases hf : f a with
      | error failure =>
          refine ⟨fun h => (by cases h), fun h => ?_⟩
          cases h with
          | cons hhead _ =>
              rw [hf] at hhead
              cases hhead
      | ok b =>
          cases hl : l.mapM f with
          | error failure =>
              refine ⟨fun h => (by cases h), fun h => ?_⟩
              cases h with
              | cons _ htail =>
                  rw [ih.mpr htail] at hl
                  cases hl
          | ok bs =>
              constructor
              · intro h
                obtain rfl := Except.ok.inj h
                exact List.Forall₂.cons hf (ih.mp hl)
              · intro h
                cases h with
                | cons hhead htail =>
                    rw [hf] at hhead
                    obtain rfl := Except.ok.inj hhead
                    rw [ih.mpr htail] at hl
                    obtain rfl := Except.ok.inj hl
                    rfl

/-- A slot that is prepared: what is resident is what would be read. -/
def SlotFits (platform : Platform) (files : Files) (modelDir : List UInt8) (byteHash : Bool)
    (selection : Selection) (slot : Slot) : Prop :=
  ∀ loaded, slot = .resident loaded →
    plainRead platform files modelDir selection.request = .ok loaded.data ∧
      (byteHash = true → loaded.hash = fnv1a64Bytes loaded.data)

theorem slotPrepare_spec {cache : Cache}
    (h : Kept (Content platform files modelDir byteHash) cache) (selection : Selection) :
    Leaves platform files modelDir byteHash True cache (slotPrepare cache selection).2 ∧
    (slotPrepare cache selection).2.entries.length = cache.entries.length ∧
    ((slotPrepare cache selection).1 = none → selection.allocations.data = false) ∧
    ∀ slot, (slotPrepare cache selection).1 = some slot →
      SlotFits platform files modelDir byteHash selection slot := by
  obtain ⟨hview, hviewed, hmissed, hlength', hlength⟩ := view_leaves h selection.request
  rw [slotPrepare]
  generalize tryView cache selection.request.cacheKey selection.request.weightBytes = look at *
  obtain ⟨view, cache'⟩ := look
  dsimp only at hview hviewed hmissed hlength hlength' ⊢
  cases view with
  | some found =>
      obtain ⟨data, hash⟩ := found
      refine ⟨hviewed, hlength', fun hnone => (by cases hnone), ?_⟩
      intro slot hslot loaded hresident
      obtain rfl := Option.some.inj hslot
      obtain rfl := Slot.resident.inj hresident
      exact hview data hash rfl
  | none =>
      have hload : ∀ (store : Bool) (slot : Slot), some (.needsLoad store) = some slot →
          SlotFits platform files modelDir byteHash selection slot := by
        intro store slot hslot loaded hresident
        rw [← Option.some.inj hslot] at hresident
        cases hresident
      dsimp only
      generalize countMiss cache' selection.request.weightBytes = missed at hmissed hlength ⊢
      split_ifs with hdata henabled hname
      · refine ⟨hmissed, hlength, fun _ => ?_, fun slot hslot => (by cases hslot)⟩
        simpa using hdata
      · exact ⟨hmissed, hlength, fun hnone => (by cases hnone), hload _⟩
      · have hkept := hmissed.kept
        exact ⟨⟨⟨hkept.room, hkept.capacity, hkept.keyed, hkept.bytes, hkept.indexed⟩,
          hmissed.enabled, hmissed.fresh⟩, hlength, fun hnone => (by cases hnone), hload _⟩
      · exact ⟨hmissed, hlength, fun hnone => (by cases hnone), hload _⟩

/-- The slots are prepared, or one of them has no memory. -/
theorem prepareSlots_spec (selections : List Selection) {cache : Cache}
    (h : Kept (Content platform files modelDir byteHash) cache) :
    Leaves platform files modelDir byteHash True cache (prepareSlots selections cache).2 ∧
    (prepareSlots selections cache).2.entries.length = cache.entries.length ∧
    ((prepareSlots selections cache).1 = none →
      ∃ selection ∈ selections, selection.allocations.data = false) ∧
    ∀ slots, (prepareSlots selections cache).1 = some slots →
      List.Forall₂ (SlotFits platform files modelDir byteHash) selections slots := by
  induction selections generalizing cache with
  | nil =>
      refine ⟨⟨h, rfl, fun _ hnot => hnot⟩, rfl, fun hnone => (by cases hnone), ?_⟩
      intro slots hslots
      obtain rfl := Option.some.inj hslots
      exact List.Forall₂.nil
  | cons selection selections ih =>
      obtain ⟨hleaves, hlength, hnone, hsome⟩ := slotPrepare_spec h selection
      rw [prepareSlots]
      generalize slotPrepare cache selection = first at hleaves hlength hnone hsome ⊢
      obtain ⟨slot, cache'⟩ := first
      dsimp only at hleaves hlength hnone hsome ⊢
      cases slot with
      | none =>
          refine ⟨hleaves, hlength, fun _ => ⟨selection, List.mem_cons_self, hnone rfl⟩, ?_⟩
          exact fun slots hslots => (by cases hslots)
      | some slot =>
          obtain ⟨hleaves', hlength', hnone', hsome'⟩ := ih hleaves.kept
          dsimp only
          generalize prepareSlots selections cache' = others at hleaves' hlength' hnone' hsome' ⊢
          obtain ⟨slots, cache''⟩ := others
          dsimp only at hleaves' hlength' hnone' hsome' ⊢
          have hboth := (hleaves.trans hleaves').weaken (fun htrue => ⟨htrue, htrue⟩)
          cases slots with
          | none =>
              refine ⟨hboth, hlength'.trans hlength, fun _ => ?_,
                fun slots hslots => (by cases hslots)⟩
              obtain ⟨other, hother, hdata⟩ := hnone' rfl
              exact ⟨other, List.mem_cons_of_mem _ hother, hdata⟩
          | some slots =>
              refine ⟨hboth, hlength'.trans hlength, fun hnone => (by cases hnone), ?_⟩
              intro slots' hslots
              obtain rfl := Option.some.inj hslots
              exact List.Forall₂.cons (hsome slot rfl) (hsome' slots rfl)

/-- What the tasks of prepared slots load is what is read without caches. -/
theorem loadTasks_eq {shards : ShardReadCache} (hshards : Prepared files modelDir shards)
    {selections : List Selection} {locations : List TensorLocation} {slots : List Slot}
    (hlocations : List.Forall₂ (fun selection location =>
      locateTensor platform files modelDir selection.request.tensorName = .ok location)
      selections locations)
    (hslots : List.Forall₂ (SlotFits platform files modelDir byteHash) selections slots) :
    ((selections.zip locations).zip slots).mapM (loadTask platform files modelDir shards) =
      selections.mapM fun selection => plainRead platform files modelDir selection.request := by
  induction hlocations generalizing slots with
  | nil =>
      cases hslots
      rfl
  | @cons selection location selections locations hlocation _ ih =>
      cases hslots with
      | @cons _ slot _ slots hslot hslots =>
          have hload : loadTask platform files modelDir shards ((selection, location), slot) =
              plainRead platform files modelDir selection.request := by
            cases slot with
            | resident loaded => exact (hslot loaded rfl).1.symm
            | needsLoad store =>
                rw [loadTask, plainRead, hlocation]
                exact readTensorSlice_plain hshards _ _ _
          rw [List.zip_cons_cons, List.zip_cons_cons, List.mapM_cons, List.mapM_cons, hload,
            ih hslots]

theorem prepareShards_prepared {shards : ShardReadCache} (h : Prepared files modelDir shards)
    (tasks : List Task) :
    Prepared files modelDir (prepareShards platform files modelDir shards tasks) := by
  induction tasks generalizing shards with
  | nil => exact h
  | cons task tasks ih =>
      obtain ⟨located, slot⟩ := task
      cases slot with
      | resident loaded => exact ih h
      | needsLoad store => exact ih (prepareShard_prepared h _)

/-- The slots are finalized with what has been read for them. -/
theorem finalizeSlots_spec (read : List (Task × List UInt8)) {cache : Cache}
    (h : Kept (Content platform files modelDir byteHash) cache)
    (hread : ∀ r ∈ read, plainRead platform files modelDir r.1.1.1.request = .ok r.2)
    (hfits : ∀ r ∈ read, SlotFits platform files modelDir byteHash r.1.1.1 r.1.2) :
    Leaves platform files modelDir byteHash
      ((∀ r ∈ read, r.1.1.1.allocations.growth.index = true) ∧
        cache.entries.length + read.length < 2 ^ 62) cache
      (finalizeSlots byteHash read cache).2 ∧
    (finalizeSlots byteHash read cache).1.map Loaded.data = read.map Prod.snd ∧
    (byteHash = true → ∀ loaded ∈ (finalizeSlots byteHash read cache).1,
      loaded.hash = fnv1a64Bytes loaded.data) := by
  induction read generalizing cache with
  | nil =>
      exact ⟨⟨h, rfl, fun _ hnot => hnot⟩, rfl, fun _ _ hmem => absurd hmem List.not_mem_nil⟩
  | cons first read ih =>
      obtain ⟨task, data⟩ := first
      have hplain := hread (task, data) List.mem_cons_self
      have hslot := hfits (task, data) List.mem_cons_self
      have hfirst : Leaves platform files modelDir byteHash
            (task.1.1.allocations.growth.index = true ∧ cache.entries.length < 2 ^ 62) cache
            (slotFinalize byteHash cache task data).2 ∧
          (slotFinalize byteHash cache task data).2.entries.length ≤ cache.entries.length + 1 ∧
          (slotFinalize byteHash cache task data).1.data = data ∧
          (byteHash = true → (slotFinalize byteHash cache task data).1.hash =
            fnv1a64Bytes (slotFinalize byteHash cache task data).1.data) := by
        obtain ⟨⟨selection, location⟩, slot⟩ := task
        dsimp only at hplain hslot
        -- A slot that is resident leaves the cache; one that was read may be stored.
        cases slot with
        | resident loaded =>
            obtain ⟨hsame, hhash⟩ := hslot loaded rfl
            refine ⟨⟨h, rfl, fun _ hnot => hnot⟩, Nat.le_succ _, ?_, hhash⟩
            exact Except.ok.inj (hsame.symm.trans hplain)
        | needsLoad store =>
            have hhash : byteHash = true → (if byteHash = true then fnv1a64Bytes data
                else metadataHash selection.request location) = fnv1a64Bytes data :=
              fun htrue => if_pos htrue
            refine ⟨?_, ?_, rfl, hhash⟩
            · cases store with
              | false => exact ⟨h, rfl, fun _ hnot => hnot⟩
              | true => exact store_leaves h hplain hhash selection.allocations.growth
            · cases store with
              | false => exact Nat.le_succ _
              | true => exact (@storeOwned_kept _ _ h _ _ _ selection.request.weightBytes _
                  (content_of_read hplain hhash) selection.allocations.growth).2.2.1
      obtain ⟨hleaves, hlength, hdata, hhash⟩ := hfirst
      obtain ⟨hleaves', hdata', hhash'⟩ := ih hleaves.kept
        (fun r hr => hread r (List.mem_cons_of_mem _ hr))
        (fun r hr => hfits r (List.mem_cons_of_mem _ hr))
      rw [finalizeSlots]
      refine ⟨(hleaves.trans hleaves').weaken ?_, ?_, ?_⟩
      · rintro ⟨hall, hlt⟩
        rw [List.length_cons] at hlt
        exact ⟨⟨hall _ List.mem_cons_self, by omega⟩,
          fun r hr => hall r (List.mem_cons_of_mem _ hr), by omega⟩
      · dsimp only
        rw [List.map_cons, List.map_cons, hdata, hdata']
      · intro htrue loaded hmem
        rcases List.mem_cons.mp hmem with rfl | hmem
        · exact hhash htrue
        · exact hhash' htrue loaded hmem

/-- The tasks with what is read for them. -/
theorem zip_read {selections : List Selection} {locations : List TensorLocation}
    {slots : List Slot} {data : List (List UInt8)} (hlength : locations.length = selections.length)
    (hslots : List.Forall₂ (SlotFits platform files modelDir byteHash) selections slots)
    (hdata : List.Forall₂ (fun (selection : Selection) read =>
      plainRead platform files modelDir selection.request = .ok read) selections data) :
    (∀ r ∈ ((selections.zip locations).zip slots).zip data,
      plainRead platform files modelDir r.1.1.1.request = .ok r.2 ∧
        SlotFits platform files modelDir byteHash r.1.1.1 r.1.2 ∧ r.1.1.1 ∈ selections) ∧
    (((selections.zip locations).zip slots).zip data).map Prod.snd = data ∧
    (((selections.zip locations).zip slots).zip data).length = selections.length := by
  induction hslots generalizing locations data with
  | nil =>
      cases hdata
      exact ⟨fun r hr => absurd hr (by simp), rfl, rfl⟩
  | @cons selection slot selections slots hslot _ ih =>
      cases hdata with
      | @cons _ read _ data hread hdata =>
          cases locations with
          | nil => cases hlength
          | cons location locations =>
              obtain ⟨hall, hmap, hzip⟩ := ih (Nat.succ.inj hlength) hdata
              simp only [List.zip_cons_cons, List.map_cons, List.length_cons, hmap, hzip]
              refine ⟨fun r hr => ?_, trivial, trivial⟩
              rcases List.mem_cons.mp hr with rfl | hr
              · exact ⟨hread, hslot, List.mem_cons_self⟩
              · obtain ⟨h1, h2, h3⟩ := hall r hr
                exact ⟨h1, h2, List.mem_cons_of_mem _ h3⟩

/-- What is selected without caches: the tensors are located before any of them is read. -/
def plainSelected (platform : Platform) (files : Files) (modelDir : List UInt8)
    (selections : List Selection) : Except SelectedFailure (List (List UInt8)) :=
  match selections.mapM fun selection =>
      locateTensor platform files modelDir selection.request.tensorName with
  | .error failure => .error (.read failure.status)
  | .ok _ =>
      match selections.mapM fun selection =>
          plainRead platform files modelDir selection.request with
      | .error failure => .error (.read failure.status)
      | .ok data => .ok data

/-- The selected weights are those that are read without caches, unless one has no memory. -/
theorem selected_spec {engine : Engine} (h : Valid platform files modelDir byteHash engine)
    (selections : List Selection) :
    Valid platform files modelDir byteHash
      (selected platform files modelDir byteHash engine selections).2 ∧
    Leaves platform files modelDir byteHash
      ((∀ selection ∈ selections, selection.allocations.growth.index = true) ∧
        engine.cache.entries.length + selections.length < 2 ^ 62) engine.cache
      (selected platform files modelDir byteHash engine selections).2.cache ∧
    (((selected platform files modelDir byteHash engine selections).1 = .error .outOfMemory ∧
        ∃ selection ∈ selections, selection.allocations.data = false) ∨
      (selected platform files modelDir byteHash engine selections).1.map
        (List.map Loaded.data) = plainSelected platform files modelDir selections) ∧
    ∀ loaded, (selected platform files modelDir byteHash engine selections).1 = .ok loaded →
      byteHash = true → ∀ weight ∈ loaded, weight.hash = fnv1a64Bytes weight.data := by
  rw [selected, plainSelected]
  cases hlocate : selections.mapM fun selection =>
      locateTensor platform files modelDir selection.request.tensorName with
  | error failure =>
      exact ⟨h, ⟨h.kept, rfl, fun _ hnot => hnot⟩, Or.inr rfl, fun _ hok => (by cases hok)⟩
  | ok locations =>
      have hlocations := mapM_eq_ok_iff.mp hlocate
      obtain ⟨hleaves, hlength, hnone, hsome⟩ := prepareSlots_spec selections h.kept
      dsimp only
      generalize prepareSlots selections engine.cache = prepared at hleaves hlength hnone hsome ⊢
      obtain ⟨slots, cache⟩ := prepared
      dsimp only at hleaves hlength hnone hsome ⊢
      cases slots with
      | none =>
          exact ⟨⟨hleaves.kept, h.shards⟩, hleaves.weaken (fun _ => trivial),
            Or.inl ⟨rfl, hnone rfl⟩, fun _ hok => (by cases hok)⟩
      | some slots =>
          have hslots := hsome slots rfl
          -- What the slots lack is read as one read after the other would read it.
          have hshards := @prepareShards_prepared platform _ _ _ h.shards
            ((selections.zip locations).zip slots)
          have hload := loadTasks_eq hshards hlocations hslots
          dsimp only
          rw [hload]
          cases hreads : selections.mapM fun selection =>
              plainRead platform files modelDir selection.request with
          | error failure =>
              exact ⟨⟨hleaves.kept, hshards⟩, hleaves.weaken (fun _ => trivial), Or.inr rfl,
                fun _ hok => (by cases hok)⟩
          | ok data =>
              obtain ⟨hall, hmap, hzip⟩ := zip_read hlocations.length_eq.symm hslots
                (mapM_eq_ok_iff.mp hreads)
              obtain ⟨hfinal, hdata, hhash⟩ := finalizeSlots_spec _ hleaves.kept
                (fun r hr => (hall r hr).1) (fun r hr => (hall r hr).2.1)
              dsimp only
              refine ⟨⟨hfinal.kept, hshards⟩, (hleaves.trans hfinal).weaken ?_, Or.inr ?_, ?_⟩
              · rintro ⟨hindex, hlt⟩
                refine ⟨trivial, fun r hr => hindex _ (hall r hr).2.2, ?_⟩
                rw [hzip, hlength]
                exact hlt
              · rw [Except.map, hdata, hmap]
              · intro loaded hok htrue
                obtain rfl := Except.ok.inj hok
                exact hhash htrue

/-! ## Prepacked weights -/

/-- What a part of a prepack leaves behind: an engine in order, no more entries than weights, an
    index that is not stale if it was not, and, unless it failed, counts of what it has added. -/
structure Packs (platform : Platform) (files : Files) (modelDir : List UInt8) (byteHash : Bool)
    (indexed : Prop) (count bytes : Nat) (before : Prepack)
    (result : Option PrepackStage × Prepack) : Prop where
  valid : Valid platform files modelDir byteHash result.2.engine
  entries : result.2.engine.cache.entries.length ≤ before.engine.cache.entries.length + count
  fresh : indexed → before.engine.cache.entries.length + count ≤ 2 ^ 62 →
    ¬Stale before.engine.cache → ¬Stale result.2.engine.cache
  counted : result.1 = none → result.2.loadedEntryCount = before.loadedEntryCount + count ∧
    result.2.loadedBytes = before.loadedBytes + bytes ∧
    result.2.storeFailureCount = before.storeFailureCount
  accounts : result.1 ≠ some .accounting

section Prepacking

variable {system : Request → Allocations × Bool} {indexed : Prop}

/-- What fails before the cache is touched. -/
theorem Packs.failed {before after : Prepack} {stage : PrepackStage} (count bytes : Nat)
    (hvalid : Valid platform files modelDir byteHash after.engine)
    (hcache : after.engine.cache = before.engine.cache) (hstage : stage ≠ .accounting) :
    Packs platform files modelDir byteHash indexed count bytes before (some stage, after) where
  valid := hvalid
  entries := by
    dsimp only
    rw [hcache]
    exact Nat.le_add_right _ _
  fresh := by
    dsimp only
    rw [hcache]
    exact fun _ _ hnot => hnot
  counted := fun hnone => (by cases hnone)
  accounts := fun hsome => hstage (Option.some.inj hsome)

theorem prepackWeight_spec (hindexed : indexed → ∀ request, (system request).1.growth.index = true)
    {weight : Request × TensorLocation}
    (hlocation : locateTensor platform files modelDir weight.1.tensorName = .ok weight.2)
    {prepack : Prepack} (h : Valid platform files modelDir byteHash prepack.engine) :
    Packs platform files modelDir byteHash indexed 1 weight.1.weightBytes.toNat prepack
      (prepackWeight platform files modelDir byteHash system weight prepack) := by
  obtain ⟨request, location⟩ := weight
  dsimp only at hlocation ⊢
  have hshards := @prepareShard_prepared platform _ _ _ h.shards location
  rw [prepackWeight]
  dsimp only
  by_cases hmemory :
      (!(system request).1.data || !(system request).1.name) = true
  · rw [if_pos hmemory]
    exact Packs.failed _ _ h rfl PrepackStage.noConfusion
  rw [if_neg hmemory, readTensorSlice_plain hshards]
  cases hslice : plainSlice platform files modelDir request location with
  | error failure => exact Packs.failed _ _ ⟨h.kept, hshards⟩ rfl PrepackStage.noConfusion
  | ok data =>
      have hread : plainRead platform files modelDir request = .ok data := by
        rw [plainRead, hlocation]
        exact hslice
      have hhash : byteHash = true → (if byteHash = true then fnv1a64Bytes data
          else metadataHash request location) = fnv1a64Bytes data := fun htrue => if_pos htrue
      dsimp only
      generalize (if byteHash = true then fnv1a64Bytes data
        else metadataHash request location) = hash at hhash ⊢
      -- Whether or not it is stored, the cache is in order behind it.
      obtain ⟨hkept, _, hlength, hfresh⟩ := @storeOwned_kept _ _ h.kept _ _ _ request.weightBytes _
        (content_of_read hread hhash) (system request).1.growth
      generalize storeOwned prepack.engine.cache request.cacheKey data (request.weightBytes / 2)
        request.weightBytes hash (system request).1.growth = added at hkept hlength hfresh ⊢
      obtain ⟨stored, cache⟩ := added
      have hnotStale : indexed → prepack.engine.cache.entries.length + 1 ≤ 2 ^ 62 →
          ¬Stale prepack.engine.cache → ¬Stale cache :=
        fun hready hroom => hfresh (hindexed hready request) (by omega)
      cases stored with
      | false => exact ⟨⟨hkept, hshards⟩, hlength, hnotStale, fun hnone => (by cases hnone),
          fun hsome => (by cases hsome)⟩
      | true => exact ⟨⟨hkept, hshards⟩, hlength, hnotStale, fun _ => ⟨rfl, rfl, rfl⟩,
          fun hsome => (by cases hsome)⟩

/-- A loop leaves behind what its rounds do, one after the other. -/
theorem untilFailure_spec {α : Type} {body : α → Prepack → Option PrepackStage × Prepack}
    (count bytes : α → Nat) (l : List α)
    (hbody : ∀ a ∈ l, ∀ prepack, Valid platform files modelDir byteHash prepack.engine →
      Packs platform files modelDir byteHash indexed (count a) (bytes a) prepack (body a prepack))
    {prepack : Prepack} (h : Valid platform files modelDir byteHash prepack.engine) :
    Packs platform files modelDir byteHash indexed (l.map count).sum (l.map bytes).sum prepack
      (untilFailure body l prepack) := by
  induction l generalizing prepack with
  | nil => exact ⟨h, Nat.le_refl _, fun _ _ hnot => hnot, fun _ => ⟨rfl, rfl, rfl⟩,
      fun hsome => (by cases hsome)⟩
  | cons a l ih =>
      have hfirst := hbody a List.mem_cons_self prepack h
      rw [untilFailure, List.map_cons, List.sum_cons, List.map_cons, List.sum_cons]
      generalize body a prepack = result at hfirst ⊢
      obtain ⟨stage, after⟩ := result
      have hentries := hfirst.entries
      cases stage with
      | some stage =>
          exact ⟨hfirst.valid, by dsimp only at hentries ⊢; omega,
            fun hready hroom => hfirst.fresh hready (by omega), fun hnone => (by cases hnone),
            hfirst.accounts⟩
      | none =>
          have hrest := ih (fun b hb => hbody b (List.mem_cons_of_mem a hb)) hfirst.valid
          have hmore := hrest.entries
          dsimp only at hentries hmore ⊢
          refine ⟨hrest.valid, by omega, fun hready hroom hnot => ?_, fun hnone => ?_,
            hrest.accounts⟩
          · exact hrest.fresh hready (by dsimp only; omega) (hfirst.fresh hready (by omega) hnot)
          · obtain ⟨hcount, hbytes, hfailures⟩ := hfirst.counted rfl
            obtain ⟨hcount', hbytes', hfailures'⟩ := hrest.counted hnone
            dsimp only at hcount hbytes hfailures hcount' hbytes' hfailures'
            exact ⟨by omega, by omega, hfailures'.trans hfailures⟩

/-- How many weights of experts there are, and of how many bytes. -/
theorem weights_sums (layer : PrepackLayer) (gateUp down : TensorLocation) (experts : Nat) :
    ((layer.weights gateUp down experts).map fun _ => 1).sum = experts * 2 ∧
    ((layer.weights gateUp down experts).map fun weight => weight.1.weightBytes.toNat).sum =
      experts * (gateUpBytesPerExpert.toNat + downBytesPerExpert.toNat) := by
  induction experts with
  | zero => exact ⟨rfl, (Nat.zero_mul _).symm⟩
  | succ experts ih =>
      obtain ⟨hcount, hbytes⟩ := ih
      unfold PrepackLayer.weights at hcount hbytes ⊢
      rw [List.range_succ, List.flatMap_append, List.map_append, List.sum_append, List.map_append,
        List.sum_append, hcount, hbytes, Nat.succ_mul, Nat.succ_mul]
      simp only [List.flatMap_singleton, List.map_cons, List.map_nil, List.sum_cons, List.sum_nil,
        Nat.add_zero, PrepackLayer.gateUpWeight, PrepackLayer.downWeight, and_self]

theorem prepackLayer_spec (hindexed : indexed → ∀ request, (system request).1.growth.index = true)
    (layer : PrepackLayer) {prepack : Prepack}
    (h : Valid platform files modelDir byteHash prepack.engine) :
    Packs platform files modelDir byteHash indexed (expertCount * 2)
      (expertCount * (gateUpBytesPerExpert.toNat + downBytesPerExpert.toNat)) prepack
      (prepackLayer platform files modelDir byteHash system layer prepack) := by
  unfold prepackLayer
  cases hgateUp : locateTensor platform files modelDir layer.gateUp with
  | error failure => exact Packs.failed _ _ h rfl PrepackStage.noConfusion
  | ok gateUp =>
      dsimp only
      cases hdown : locateTensor platform files modelDir layer.down with
      | error failure => exact Packs.failed _ _ h rfl PrepackStage.noConfusion
      | ok down =>
          dsimp only
          split_ifs with hshape
          · exact Packs.failed _ _ h rfl PrepackStage.noConfusion
          · obtain ⟨hcount, hbytes⟩ := weights_sums layer gateUp down expertCount
            rw [← hcount, ← hbytes]
            refine untilFailure_spec _ _ _ (fun weight hweight before hbefore => ?_) h
            refine prepackWeight_spec hindexed ?_ hbefore
            obtain ⟨expert, _, hmem⟩ := List.mem_flatMap.mp hweight
            simp only [List.mem_cons, List.not_mem_nil, or_false] at hmem
            rcases hmem with rfl | rfl
            · exact hgateUp
            · exact hdown

/-- A prepack leaves an engine in order, and never fails at its accounting. -/
theorem prepack_spec {engine : Engine} (h : Valid platform files modelDir byteHash engine)
    (layers : List PrepackLayer) :
    Valid platform files modelDir byteHash
      (prepackSelectedMoeWeights platform files modelDir byteHash system engine layers).2.engine ∧
    ((∀ request, (system request).1.growth.index = true) →
      engine.cache.entries.length + layers.length * (expertCount * 2) ≤ 2 ^ 62 →
      ¬Stale engine.cache → ¬Stale (prepackSelectedMoeWeights platform files modelDir byteHash
        system engine layers).2.engine.cache) ∧
    (prepackSelectedMoeWeights platform files modelDir byteHash system engine layers).1 ≠
      some .accounting := by
  have hstart : Valid platform files modelDir byteHash
      (⟨engine, 0, 0, 0, 1469598103934665603⟩ : Prepack).engine := h
  have hpacks := untilFailure_spec _ _ layers (fun layer _ before hbefore =>
    @prepackLayer_spec platform files modelDir byteHash system _ id layer before hbefore) hstart
  rw [List.map_const', List.sum_replicate, List.map_const', List.sum_replicate] at hpacks
  unfold prepackSelectedMoeWeights
  dsimp only
  split_ifs with henabled
  · exact ⟨h, fun _ _ hnot => hnot, fun hsome => (by cases hsome)⟩
  generalize untilFailure (prepackLayer platform files modelDir byteHash system) layers
    ⟨engine, 0, 0, 0, 1469598103934665603⟩ = result at hpacks ⊢
  obtain ⟨stage, prepack⟩ := result
  cases stage with
  | some stage => exact ⟨hpacks.valid, hpacks.fresh, hpacks.accounts⟩
  | none =>
      have hcompleted : prepack.completed layers.length = true := by
        obtain ⟨hcount, hbytes, hfailures⟩ := hpacks.counted rfl
        simp only [nsmul_eq_mul, Nat.cast_id, Nat.zero_add] at hcount hbytes hfailures
        simp only [Prepack.completed, Bool.and_eq_true, beq_iff_eq]
        exact ⟨⟨hcount.trans (Nat.mul_assoc _ _ _).symm, hbytes.trans (Nat.mul_assoc _ _ _).symm⟩,
          hfailures⟩
      dsimp only
      rw [if_pos hcompleted]
      exact ⟨hpacks.valid, hpacks.fresh, fun hsome => (by cases hsome)⟩

end Prepacking

/-! ## Runs -/

theorem new_valid {engine : Engine} (h : New engine) :
    Valid platform files modelDir byteHash engine ∧ ¬Stale engine.cache := by
  obtain ⟨⟨enabled, hcache⟩, enabled', hshards⟩ := h
  refine ⟨⟨?_, ?_⟩, ?_⟩
  · rw [hcache]
    exact kept_empty enabled
  · rw [hshards]
    exact Prepared.empty enabled'
  · rintro ⟨slots, hslots, _⟩
    rw [hcache] at hslots
    cases hslots

theorem step_valid {engine engine' : Engine} (h : Valid platform files modelDir byteHash engine)
    {op : Op} (hstep : step platform files modelDir byteHash engine op = some engine') :
    Valid platform files modelDir byteHash engine' ∧
      (indexReady engine op → ¬Stale engine.cache → ¬Stale engine'.cache) := by
  cases op with
  | materialize request allocations systemReady =>
      obtain rfl := Option.some.inj hstep
      obtain ⟨hvalid, hleaves, _⟩ := materialize_spec h request allocations systemReady
      exact ⟨hvalid, hleaves.fresh⟩
  | selected selections =>
      obtain rfl := Option.some.inj hstep
      obtain ⟨hvalid, hleaves, _⟩ := selected_spec h selections
      exact ⟨hvalid, hleaves.fresh⟩
  | prepack layers system =>
      obtain rfl := Option.some.inj hstep
      obtain ⟨hvalid, hfresh, _⟩ := @prepack_spec _ _ _ _ system _ h layers
      exact ⟨hvalid, fun hready => hfresh hready.1 (Nat.le_of_lt hready.2)⟩

/-- An engine that is reached is in order. -/
theorem reachable_valid {engine : Engine}
    (h : Run.Reachable (step platform files modelDir byteHash) Run.anyStep New engine) :
    Valid platform files modelDir byteHash engine :=
  h.invariant _ (fun _ hnew => (new_valid hnew).1)
    fun _ _ _ hvalid _ hstep => (step_valid hvalid hstep).1

/-- Its index is not stale, if every index is allocated on the way. -/
theorem reachable_fresh {engine : Engine}
    (h : Run.Reachable (step platform files modelDir byteHash) indexReady New engine) :
    ¬Stale engine.cache :=
  (h.invariant (fun engine => Valid platform files modelDir byteHash engine ∧ ¬Stale engine.cache)
    (fun _ hnew => new_valid hnew) fun _ _ _ hboth hready hstep =>
      ⟨(step_valid hboth.1 hstep).1, (step_valid hboth.1 hstep).2 hready hboth.2⟩).2

/-! ## The index -/

/-- In every engine that is reached, whatever allocations have failed: the entries are inside their
    array, what is counted is what is kept, a lookup looks at each slot at most once, and what it
    finds has the key that is looked for. It misses an entry only if the index is stale, which it
    never is if every index is allocated. -/
theorem resident_index (platform : Platform) (files : Files) (modelDir : List UInt8)
    (byteHash : Bool) {engine : Engine}
    (h : Run.Reachable (step platform files modelDir byteHash) Run.anyStep New engine) :
    engine.cache.entries.length ≤ engine.cache.entryCapacity ∧
    engine.cache.bytes = (engine.cache.entries.map fun entry => entry.bytes.toNat).sum ∧
    (∀ tensorName weightElements,
      (∀ slots, engine.cache.indexSlots = some slots →
        (findEntry engine.cache tensorName weightElements).2.indexProbeCount ≤
          engine.cache.indexProbeCount + slots.length) ∧
      (∀ index, (findEntry engine.cache tensorName weightElements).1 = some index →
        ∃ entry, engine.cache.entries[index]? = some entry ∧ entry.tensorName = tensorName ∧
          entry.elements = weightElements) ∧
      ((findEntry engine.cache tensorName weightElements).1 = none → ¬Stale engine.cache →
        ∀ entry ∈ engine.cache.entries,
          ¬(entry.tensorName = tensorName ∧ entry.elements = weightElements))) ∧
    (Run.Reachable (step platform files modelDir byteHash) indexReady New engine →
      ¬Stale engine.cache) := by
  have hkept := (reachable_valid h).kept
  refine ⟨hkept.room, hkept.bytes, ?_, reachable_fresh⟩
  intro tensorName weightElements
  refine ⟨?_, fun index hfound => findEntry_some hkept hfound,
    fun hfound hstale => findEntry_none hkept hstale hfound⟩
  intro slots hslots
  rw [findEntry, hslots]
  exact Nat.add_le_add_left (ProbeTable.lookup_probes_le _ _ _) _

/-! ## What is loaded -/

/-- An engine without caches. -/
def Engine.plain : Engine := ⟨Cache.empty false, ⟨false, []⟩⟩

/-- A selection whose slot has memory. -/
def Selection.withMemory (selection : Selection) : Selection :=
  { selection with allocations := { selection.allocations with data := true } }

theorem plainSelected_withMemory (selections : List Selection) :
    plainSelected platform files modelDir (selections.map Selection.withMemory) =
      plainSelected platform files modelDir selections := by
  have hmap : ∀ {β ε : Type} (f : Request → Except ε β) (l : List Selection),
      (l.map Selection.withMemory).mapM (fun selection => f selection.request) =
        l.mapM fun selection => f selection.request := by
    intro β ε f l
    induction l with
    | nil => rfl
    | cons selection l ih =>
        rw [List.map_cons, List.mapM_cons, List.mapM_cons, ih]
        rfl
  rw [plainSelected, plainSelected, hmap fun request =>
    locateTensor platform files modelDir request.tensorName,
    hmap fun request => plainRead platform files modelDir request]

/-- Weights with the hashes of their bytes are known from their bytes. -/
theorem loaded_ext {first second : Loaded} (hdata : first.data = second.data)
    (hfirst : first.hash = fnv1a64Bytes first.data)
    (hsecond : second.hash = fnv1a64Bytes second.data) : first = second := by
  obtain ⟨data, hash⟩ := first
  obtain ⟨data', hash'⟩ := second
  dsimp only at hdata hfirst hsecond
  rw [hfirst, hsecond, hdata]

/-- Two results that agree under a function are equal where the function tells values apart. -/
theorem eq_of_map_eq {ε α β : Type} {first second : Except ε α} {f : α → β}
    (hmap : first.map f = second.map f)
    (h : ∀ a b, first = .ok a → second = .ok b → f a = f b → a = b) : first = second := by
  cases first <;> cases second
  case error.error failure failure' => exact congrArg _ (Except.error.inj hmap)
  case error.ok => cases hmap
  case ok.error => cases hmap
  case ok.ok a b => exact congrArg _ (h a b rfl rfl (Except.ok.inj hmap))

/-- In every engine that is reached, whatever allocations have failed and fail now, a weight is
    loaded, or fails to, as by an engine without caches; and so are selected weights, unless one of
    them gets no memory. Their hashes are the same if they are those of the bytes. -/
theorem resident_transparent (platform : Platform) (files : Files) (modelDir : List UInt8)
    (byteHash : Bool) {engine : Engine}
    (h : Run.Reachable (step platform files modelDir byteHash) Run.anyStep New engine) :
    (∀ (request : Request) (allocations allocations' : Allocations)
        (systemReady systemReady' : Bool),
      let cached := (materialize platform files modelDir engine request allocations
        systemReady).1
      let plain := (materialize platform files modelDir Engine.plain request allocations'
        systemReady').1
      cached.map Loaded.data = plain.map Loaded.data ∧ (byteHash = true → cached = plain)) ∧
    ∀ selections : List Selection,
      let cached := (selected platform files modelDir byteHash engine selections).1
      let plain := (selected platform files modelDir byteHash Engine.plain
        (selections.map Selection.withMemory)).1
      (cached = .error .outOfMemory ∧
        ∃ selection ∈ selections, selection.allocations.data = false) ∨
      cached.map (List.map Loaded.data) = plain.map (List.map Loaded.data) ∧
        (byteHash = true → cached = plain) := by
  have hvalid := reachable_valid h
  have hplain : Valid platform files modelDir byteHash Engine.plain :=
    (new_valid ⟨⟨false, rfl⟩, false, rfl⟩).1
  refine ⟨?_, ?_⟩
  · intro request allocations allocations' systemReady systemReady'
    obtain ⟨_, _, hdata, hhash⟩ := materialize_spec hvalid request allocations systemReady
    obtain ⟨_, _, hdata', hhash'⟩ := materialize_spec hplain request allocations' systemReady'
    dsimp only
    have hsame := hdata.trans hdata'.symm
    -- Of the same bytes the hash is the same.
    refine ⟨hsame, fun htrue => eq_of_map_eq hsame fun loaded loaded' hok hok' hbytes => ?_⟩
    exact loaded_ext hbytes (hhash loaded hok htrue) (hhash' loaded' hok' htrue)
  · intro selections
    obtain ⟨_, _, hdata, hhash⟩ := selected_spec hvalid selections
    obtain ⟨_, _, hdata', hhash'⟩ := selected_spec hplain (selections.map Selection.withMemory)
    dsimp only
    rcases hdata with hmemory | hdata
    · exact Or.inl hmemory
    refine Or.inr ?_
    -- The engine without a cache is given memory for every tensor.
    rcases hdata' with ⟨_, other, hother, hnone⟩ | hdata'
    · obtain ⟨selection, _, rfl⟩ := List.mem_map.mp hother
      cases hnone
    have hsame := hdata.trans ((plainSelected_withMemory selections).symm.trans hdata'.symm)
    refine ⟨hsame, fun htrue => eq_of_map_eq hsame fun loaded loaded' hok hok' hlists => ?_⟩
    have hweights := hhash loaded hok htrue
    have hweights' := hhash' loaded' hok' htrue
    refine List.ext_getElem (by simpa using congrArg List.length hlists) ?_
    intro i hi hi'
    refine loaded_ext ?_ (hweights _ (List.getElem_mem hi)) (hweights' _ (List.getElem_mem hi'))
    have hat := congrArg (fun l => l[i]?) hlists
    simpa [List.getElem?_eq_getElem hi, List.getElem?_eq_getElem hi'] using hat

end Contents

/-- The whole of a tensor of two values. -/
def twoValues : Request where
  tensorName := bytes "a"
  part := .whole
  weightBytes := 4
  plain := by decide
  some_values := by decide
  whole_values := by decide

/-- An engine that has loaded the tensor. -/
def loadedEngine : Engine :=
  (materialize .posix (oneTensor smallShard) (bytes "m") ⟨Cache.empty true, ⟨false, []⟩⟩ twoValues
    ⟨true, true, ⟨true, true⟩⟩ true).2

theorem loadedEngine_reachable : Run.Reachable
    (step .posix (oneTensor smallShard) (bytes "m") true) Run.anyStep New loadedEngine := by
  refine Run.Reachable.tail (a := .materialize twoValues ⟨true, true, ⟨true, true⟩⟩ true)
    ⟨⟨Cache.empty true, ⟨false, []⟩⟩, ⟨⟨true, rfl⟩, false, rfl⟩, .refl⟩ rfl

/-- The tensor is found in the cache of the engine that has loaded it. -/
theorem resident_index_loaded :
    (findEntry loadedEngine.cache (bytes "a") 2).1 = some 0 ∧
    ∃ entry, loadedEngine.cache.entries[0]? = some entry ∧ entry.tensorName = bytes "a" ∧
      entry.elements = 2 := by
  have hfound : (findEntry loadedEngine.cache (bytes "a") 2).1 = some 0 := by decide +kernel
  exact ⟨hfound, ((resident_index _ _ _ _ loadedEngine_reachable).2.2.1 (bytes "a") 2).2.1 0 hfound⟩

/-- And loaded as without a cache. -/
theorem resident_transparent_loaded :
    (materialize .posix (oneTensor smallShard) (bytes "m") loadedEngine twoValues
      ⟨false, false, ⟨false, false⟩⟩ false).1 =
    (materialize .posix (oneTensor smallShard) (bytes "m") Engine.plain twoValues
      ⟨true, true, ⟨true, true⟩⟩ true).1 :=
  ((resident_transparent _ _ _ true loadedEngine_reachable).1 twoValues _ _ _ _).2 rfl

end ResidentCache

end QrtEngine
