import QrtEngine.Library.ProbeTable
import Mathlib.Algebra.BigOperators.Group.List.Basic

/-!
# Resident Weights

The loader keeps what it has read: a list of weights with their names, and an index of the list by
the hash of the name and the size. Both grow by allocations that may fail. Without an index, the
list is searched. If an index cannot be enlarged, the old one stays, and does not know the weights
that are added from then on, until an allocation succeeds.

## Main definitions

* `Cache`: The list, its index and what the loader counts.
* `findEntry`: `qrt_engine_find_resident_weight_cache_entry`.
* `tryView`: `qrt_try_resident_weight_cache_view`.
* `storeOwned`: `qrt_engine_store_resident_weight_cache_owned`.
* `Indexed`: What the index knows.
* `Stale`: The index is one that could not be enlarged.

## Theorems

* `indexCapacity_spec`: How large an index is.
* `storeOwned_kept`, `tryView_kept`: The operations keep the cache.
* `findEntry_some`, `findEntry_none`: What is found, and what is missed.
-/

namespace QrtEngine

namespace ResidentCache

/-! ## Hashes -/

/-- `qrt_fnv1a64_update_bytes`. -/
def fnv1a64UpdateBytes (hash : UInt64) (data : List UInt8) : UInt64 :=
  data.foldl (fun hash byte => (hash ^^^ byte.toUInt64) * 1099511628211) hash

/-- `qrt_fnv1a64_bytes`. -/
def fnv1a64Bytes (data : List UInt8) : UInt64 := fnv1a64UpdateBytes 1469598103934665603 data

/-- The bytes of a `size_t`. -/
def sizeBytes (n : UInt64) : List UInt8 :=
  (List.range 8).map fun i => (n >>> UInt64.ofNat (8 * i)).toUInt8

/-- `qrt_resident_weight_cache_key_hash`. The name is hashed with its NUL. -/
def cacheKeyHash (tensorName : List UInt8) (weightElements : UInt64) : UInt64 :=
  fnv1a64UpdateBytes (fnv1a64UpdateBytes 1469598103934665603 (tensorName ++ [0]))
    (sizeBytes weightElements)

/-! ## The cache -/

/-- `qrt_resident_weight_cache_entry_t`. -/
structure Entry where
  tensorName : List UInt8
  data : List UInt8
  elements : UInt64
  bytes : UInt64
  keyHash : UInt64
  fnv1a64 : UInt64
  hitCount : Nat
  deriving DecidableEq, Repr

/-- The cache of an engine. The index is `NULL` or an array of slots, as many as its capacity. -/
structure Cache where
  enabled : Bool
  entries : List Entry
  entryCapacity : Nat
  indexSlots : Option (List Nat)
  bytes : Nat
  hitCount : Nat
  missCount : Nat
  hitBytes : Nat
  missBytes : Nat
  storeFailureCount : Nat
  indexLookupCount : Nat
  indexProbeCount : Nat
  indexFallbackCount : Nat
  deriving DecidableEq, Repr

/-- The cache of a new engine. -/
def Cache.empty (enabled : Bool) : Cache :=
  ⟨enabled, [], 0, none, 0, 0, 0, 0, 0, 0, 0, 0, 0⟩

/-- What the allocator does in the course of one operation: the array of entries and the index. -/
structure Growth where
  entries : Bool
  index : Bool
  deriving DecidableEq, Repr

/-- `qrt_engine_resident_weight_cache_index_insert_raw`. -/
def indexInsertRaw (cache : Cache) (entryIndex : Nat) : Option Cache :=
  match cache.indexSlots, cache.entries[entryIndex]? with
  | some slots, some entry =>
      if slots.length = 0 || entry.elements = 0 then none
      else (ProbeTable.insert slots entry.keyHash.toNat entryIndex).map fun slots =>
        { cache with indexSlots := some slots }
  | _, _ => none

/-- The loop that doubles the capacity of an index. It is not doubled past `SIZE_MAX`, so it goes
    on for 58 rounds at most. -/
def indexCapacity : Nat → Nat → Nat → Option Nat
  | 0, _, _ => none
  | rounds + 1, capacity, targetEntryCount =>
      if capacity < targetEntryCount * 2 then
        if (2 ^ 64 - 1) / 2 < capacity then none
        else indexCapacity rounds (capacity * 2) targetEntryCount
      else some capacity

/-- `qrt_engine_rebuild_resident_weight_cache_index`. If no slots are allocated, the old ones
    stay. -/
def rebuildIndex (cache : Cache) (targetEntryCount : Nat) (ready : Bool) : Bool × Cache :=
  match indexCapacity 64 64 targetEntryCount with
  | none => (false, cache)
  | some capacity =>
      if !ready then (false, cache)
      else
        match (List.range cache.entries.length).foldlM indexInsertRaw
          { cache with indexSlots := some (List.replicate capacity 0) } with
        | some cache => (true, cache)
        | none => (false, { cache with indexSlots := none })

/-- `qrt_engine_note_resident_weight_cache_entry_added`. -/
def noteEntryAdded (cache : Cache) (entryIndex : Nat) (ready : Bool) : Bool × Cache :=
  if cache.entries.length ≤ entryIndex then (false, cache)
  else
    match cache.indexSlots with
    | none => rebuildIndex cache (entryIndex + 1) ready
    | some slots =>
        if slots.length < (entryIndex + 1) * 2 then rebuildIndex cache (entryIndex + 1) ready
        else
          match indexInsertRaw cache entryIndex with
          | some cache => (true, cache)
          | none => (false, { cache with indexSlots := none })

/-- An entry has the key that is looked for. -/
def Entry.isFor (entry : Entry) (tensorName : List UInt8) (weightElements : UInt64) : Bool :=
  entry.keyHash = cacheKeyHash tensorName weightElements && entry.elements = weightElements &&
    entry.tensorName = tensorName

/-- The entry at an index has the key that is looked for. -/
def Cache.isFor (cache : Cache) (tensorName : List UInt8) (weightElements : UInt64)
    (index : Nat) : Bool :=
  match cache.entries[index]? with
  | some entry => entry.isFor tensorName weightElements
  | none => false

/-- `qrt_engine_find_resident_weight_cache_entry`. -/
def findEntry (cache : Cache) (tensorName : List UInt8) (weightElements : UInt64) :
    Option Nat × Cache :=
  match cache.indexSlots with
  | some slots =>
      let found := ProbeTable.lookup slots (cacheKeyHash tensorName weightElements).toNat
        (cache.isFor tensorName weightElements)
      (found.1, { cache with
        indexLookupCount := cache.indexLookupCount + 1
        indexProbeCount := cache.indexProbeCount + found.2 })
  | none =>
      ((List.range cache.entries.length).find? (cache.isFor tensorName weightElements),
        { cache with indexFallbackCount := cache.indexFallbackCount + 1 })

/-- `qrt_try_resident_weight_cache_view`: the weight and its hash. -/
def tryView (cache : Cache) (cacheKey : List UInt8) (weightBytes : UInt64) :
    Option (List UInt8 × UInt64) × Cache :=
  if weightBytes = 0 || weightBytes % 2 ≠ 0 || !cache.enabled then (none, cache)
  else
    let (found, cache) := findEntry cache cacheKey (weightBytes / 2)
    match found with
    | none => (none, cache)
    | some index =>
        match cache.entries[index]? with
        | none => (none, cache)
        | some entry =>
            (some (entry.data, entry.fnv1a64), { cache with
              entries := cache.entries.set index { entry with hitCount := entry.hitCount + 1 }
              hitCount := cache.hitCount + 1
              hitBytes := cache.hitBytes + weightBytes.toNat })

/-- The array of entries is enlarged if it is full. -/
def growEntries (cache : Cache) (ready : Bool) : Option Cache :=
  if cache.entries.length = cache.entryCapacity then
    let newCapacity := if cache.entryCapacity = 0 then 64 else cache.entryCapacity * 2 % 2 ^ 64
    if newCapacity < cache.entryCapacity then none
    else if !ready then none
    else some { cache with entryCapacity := newCapacity }
  else some cache

/-- An entry is added behind the others. -/
def addEntry (cache : Cache) (entry : Entry) (ready : Bool) : Cache :=
  let added := { cache with
    entries := cache.entries ++ [entry]
    bytes := cache.bytes + entry.bytes.toNat }
  let (noted, added) := noteEntryAdded added (added.entries.length - 1) ready
  if noted then added else { added with storeFailureCount := added.storeFailureCount + 1 }

/-- `qrt_engine_store_resident_weight_cache_owned`: whether the cache owns the weight now. -/
def storeOwned (cache : Cache) (residentName residentData : List UInt8)
    (weightElements weightBytes weightHash : UInt64) (growth : Growth) : Bool × Cache :=
  if weightElements = 0 || weightBytes = 0 || !cache.enabled then (false, cache)
  else
    match growEntries cache growth.entries with
    | none => (false, { cache with storeFailureCount := cache.storeFailureCount + 1 })
    | some cache => (true, addEntry cache
        { tensorName := residentName
          data := residentData
          elements := weightElements
          bytes := weightBytes
          keyHash := cacheKeyHash residentName weightElements
          fnv1a64 := weightHash
          hitCount := 0 } growth.index)

/-! ## The capacity of an index -/

/-- The capacity is a power of two, twice as many as the entries at least, and the rounds do not run
    out before it is. -/
theorem indexCapacity_spec {rounds exponent target : Nat} (hrounds : 64 ≤ exponent + rounds)
    (hexponent : exponent < 64) :
    (∀ capacity, indexCapacity rounds (2 ^ exponent) target = some capacity →
      (∃ k, capacity = 2 ^ k) ∧ target * 2 ≤ capacity) ∧
    (target * 2 ≤ 2 ^ 63 → ∃ capacity, indexCapacity rounds (2 ^ exponent) target =
      some capacity) := by
  induction rounds generalizing exponent with
  | zero => omega
  | succ rounds ih =>
      rw [indexCapacity]
      by_cases hsmall : 2 ^ exponent < target * 2
      · rw [if_pos hsmall]
        by_cases hlarge : (2 ^ 64 - 1) / 2 < 2 ^ exponent
        · rw [if_pos hlarge]
          refine ⟨fun _ h => (by cases h), fun hfits => ?_⟩
          omega
        · rw [if_neg hlarge, ← Nat.pow_succ]
          have hlt : exponent + 1 < 64 := by
            by_contra hge
            have heq : exponent = 63 := by omega
            rw [heq] at hlarge
            exact hlarge (by decide)
          exact ih (by omega) hlt
      · rw [if_neg hsmall]
        refine ⟨?_, fun _ => ⟨_, rfl⟩⟩
        intro capacity h
        obtain rfl := Option.some.inj h
        exact ⟨⟨exponent, rfl⟩, by omega⟩

/-! ## What the index knows -/

/-- The hash of an entry. -/
def Cache.hashAt (cache : Cache) (index : Nat) : Nat :=
  match cache.entries[index]? with
  | some entry => entry.keyHash.toNat
  | none => 0

/-- The index could not be enlarged when it had to be. -/
def Stale (cache : Cache) : Prop :=
  ∃ slots, cache.indexSlots = some slots ∧ slots.length < 2 * cache.entries.length

/-- The index, if there is one, knows the first entries, has room for as many again, and knows them
    all unless it is stale. -/
def Indexed (cache : Cache) : Prop :=
  ∀ slots, cache.indexSlots = some slots → ∃ items, items ≤ cache.entries.length ∧
    ProbeTable.Holds slots cache.hashAt items ∧ 2 * items ≤ slots.length ∧
    (items = cache.entries.length ∨ slots.length < 2 * cache.entries.length)

/-- The cache is in order, and what it has of a key is its content. -/
structure Kept (content : List UInt8 → UInt64 → List UInt8 → UInt64 → Prop) (cache : Cache) :
    Prop where
  room : cache.entries.length ≤ cache.entryCapacity
  capacity : cache.entryCapacity < 2 ^ 64
  keyed : ∀ entry ∈ cache.entries,
    entry.elements ≠ 0 ∧ entry.keyHash = cacheKeyHash entry.tensorName entry.elements ∧
      content entry.tensorName entry.elements entry.data entry.fnv1a64
  bytes : cache.bytes = (cache.entries.map fun entry => entry.bytes.toNat).sum
  indexed : Indexed cache

section Operations

variable {content : List UInt8 → UInt64 → List UInt8 → UInt64 → Prop} {cache : Cache}

theorem kept_empty (enabled : Bool) : Kept content (Cache.empty enabled) where
  room := Nat.le_refl 0
  capacity := Nat.two_pow_pos 64
  keyed := fun _ h => absurd h List.not_mem_nil
  bytes := rfl
  indexed := fun _ h => (by cases h)

/-! ## The index -/

/-- There is a slot for the next entry. -/
theorem indexInsertRaw_holds (hkeyed : ∀ entry ∈ cache.entries, entry.elements ≠ 0)
    {slots : List Nat} {items : Nat} (hslots : cache.indexSlots = some slots)
    (h : ProbeTable.Holds slots cache.hashAt items) (hitem : items < cache.entries.length)
    (hroom : items < slots.length) :
    ∃ slots', indexInsertRaw cache items = some { cache with indexSlots := some slots' } ∧
      slots'.length = slots.length ∧ ProbeTable.Holds slots' cache.hashAt (items + 1) := by
  obtain ⟨slots', hinsert, hlength, hholds⟩ := ProbeTable.insert_holds h hroom
  have hentry : cache.entries[items]? = some cache.entries[items] := List.getElem?_eq_getElem hitem
  have hhash : cache.hashAt items = cache.entries[items].keyHash.toNat := by
    rw [Cache.hashAt, hentry]
  have helements := hkeyed _ (List.getElem_mem hitem)
  rw [hhash] at hinsert
  refine ⟨slots', ?_, hlength, hholds⟩
  have hpos := h.length_pos
  simp only [indexInsertRaw, hslots, hentry]
  have hpass : ¬((decide (slots.length = 0) ||
      decide (cache.entries[items].elements = 0)) = true) := by
    rw [Bool.or_eq_true, decide_eq_true_eq, decide_eq_true_eq, not_or]
    exact ⟨Nat.ne_of_gt hpos, helements⟩
  rw [if_neg hpass, hinsert]
  rfl

/-- The entries put in one after the other. -/
theorem indexInsertAll_holds (hkeyed : ∀ entry ∈ cache.entries, entry.elements ≠ 0) (k : Nat)
    (htwice : 2 * cache.entries.length ≤ 2 ^ k) {n : Nat} (hn : n ≤ cache.entries.length) :
    ∃ slots, (List.range n).foldlM indexInsertRaw
        { cache with indexSlots := some (List.replicate (2 ^ k) 0) } =
        some { cache with indexSlots := some slots } ∧
      slots.length = 2 ^ k ∧ ProbeTable.Holds slots cache.hashAt n := by
  induction n with
  | zero =>
      exact ⟨List.replicate (2 ^ k) 0, rfl, List.length_replicate,
        ProbeTable.holds_replicate _ k⟩
  | succ n ih =>
      obtain ⟨slots, hfold, hlength, hholds⟩ := ih (by omega)
      obtain ⟨slots', hinsert, hlength', hholds'⟩ :=
        @indexInsertRaw_holds { cache with indexSlots := some slots } hkeyed slots n rfl
          hholds hn (by omega)
      refine ⟨slots', ?_, by omega, hholds'⟩
      rw [List.range_succ, List.foldlM_append, hfold]
      simpa using hinsert

/-- A new index knows all entries. There is one if its slots are allocated. -/
theorem rebuildIndex_spec (hkeyed : ∀ entry ∈ cache.entries, entry.elements ≠ 0) (ready : Bool) :
    (rebuildIndex cache cache.entries.length ready = (false, cache) ∧
      ¬(ready = true ∧ cache.entries.length ≤ 2 ^ 62)) ∨
    ∃ slots, rebuildIndex cache cache.entries.length ready =
        (true, { cache with indexSlots := some slots }) ∧
      ProbeTable.Holds slots cache.hashAt cache.entries.length ∧
      2 * cache.entries.length ≤ slots.length := by
  rw [rebuildIndex]
  cases hcapacity : indexCapacity 64 64 cache.entries.length with
  | none =>
      refine Or.inl ⟨rfl, fun h => ?_⟩
      obtain ⟨capacity, hsome⟩ := (@indexCapacity_spec 64 6 cache.entries.length
        (by omega) (by omega)).2 (by omega)
      rw [show 2 ^ 6 = 64 from rfl, hcapacity] at hsome
      cases hsome
  | some capacity =>
      dsimp only
      cases ready with
      | false => exact Or.inl ⟨rfl, fun h => Bool.false_ne_true h.1⟩
      | true =>
          obtain ⟨⟨k, hk⟩, htwice⟩ := (@indexCapacity_spec 64 6 cache.entries.length
            (by omega) (by omega)).1 capacity hcapacity
          obtain ⟨slots, hfold, hlength, hholds⟩ :=
            indexInsertAll_holds hkeyed k (by omega) (Nat.le_refl _)
          rw [← hk] at hfold hlength
          refine Or.inr ⟨slots, ?_, hholds, by omega⟩
          rw [hfold]
          rfl

theorem Cache.hashAt_eq (cache : Cache) (index : Nat) :
    cache.hashAt index = ((cache.entries[index]?.map Entry.keyHash).map UInt64.toNat).getD 0 := by
  rw [Cache.hashAt]
  cases cache.entries[index]? <;> rfl

/-- The hashes of the entries that are there do not change. -/
theorem hashAt_append (entry : Entry) {index : Nat} (hindex : index < cache.entries.length) :
    cache.hashAt index = Cache.hashAt { cache with entries := cache.entries ++ [entry] } index := by
  rw [Cache.hashAt, Cache.hashAt, List.getElem?_append_left hindex]

/-- What is noted of a new entry: the index knows it, or is stale, or is gone. -/
theorem noteEntryAdded_spec (hindexed : Indexed cache) (added : Cache) (entry : Entry)
    (hentries : added.entries = cache.entries ++ [entry])
    (hslots : added.indexSlots = cache.indexSlots)
    (hkeyed : ∀ entry ∈ added.entries, entry.elements ≠ 0) (ready : Bool) :
    ∃ slots, (noteEntryAdded added (added.entries.length - 1) ready).2 =
        { added with indexSlots := slots } ∧ Indexed { added with indexSlots := slots } ∧
      (ready = true → added.entries.length ≤ 2 ^ 62 →
        ¬Stale { added with indexSlots := slots }) := by
  have hlength : added.entries.length = cache.entries.length + 1 := by
    rw [hentries, List.length_append, List.length_singleton]
  have hcount : added.entries.length - 1 + 1 = added.entries.length := by omega
  have hhash : ∀ item, item < cache.entries.length → cache.hashAt item = added.hashAt item := by
    intro item hitem
    rw [hashAt_append entry hitem, Cache.hashAt, Cache.hashAt, hentries]
  -- A new index, or what there is, for an index that does not know the new entry.
  have hrebuild : (∀ slots, cache.indexSlots = some slots →
        slots.length < added.entries.length * 2) →
      ∃ slots, (rebuildIndex added added.entries.length ready).2 =
          { added with indexSlots := slots } ∧ Indexed { added with indexSlots := slots } ∧
        (ready = true → added.entries.length ≤ 2 ^ 62 →
          ¬Stale { added with indexSlots := slots }) := by
    intro hsmall
    rcases rebuildIndex_spec hkeyed ready with ⟨h, hnot⟩ | ⟨slots, h, hholds, htwice⟩
    · refine ⟨added.indexSlots, by rw [h], ?_, fun hready hfits => absurd ⟨hready, hfits⟩ hnot⟩
      intro slots hsome
      have hsome : cache.indexSlots = some slots := hslots ▸ hsome
      obtain ⟨items, hle, hholds, htwice, _⟩ := hindexed slots hsome
      have hless := hsmall slots hsome
      refine ⟨items, by dsimp only; omega, ?_, htwice, Or.inr (by dsimp only; omega)⟩
      exact hholds.congr fun item hitem => hhash item (by omega)
    · refine ⟨some slots, by rw [h], ?_, ?_⟩
      · intro slots' hsome
        obtain rfl := Option.some.inj hsome
        exact ⟨added.entries.length, Nat.le_refl _, hholds, htwice, Or.inl rfl⟩
      · rintro _ _ ⟨slots', hsome, hless⟩
        obtain rfl := Option.some.inj hsome
        exact absurd htwice (Nat.not_le.mpr hless)
  rw [noteEntryAdded, if_neg (by omega), hcount]
  cases hindex : added.indexSlots with
  | none =>
      refine hrebuild fun slots hsome => ?_
      rw [← hslots, hindex] at hsome
      cases hsome
  | some slots =>
      dsimp only
      by_cases hsmall : slots.length < added.entries.length * 2
      · rw [if_pos hsmall]
        refine hrebuild fun slots' hsome => ?_
        rw [← hslots, hindex] at hsome
        obtain rfl := Option.some.inj hsome
        exact hsmall
      · rw [if_neg hsmall]
        obtain ⟨items, hle, hholds, htwice, hall⟩ := hindexed slots (hslots ▸ hindex)
        obtain rfl : items = cache.entries.length := by omega
        have hlast : added.entries.length - 1 = cache.entries.length := by omega
        obtain ⟨slots', hinsert, hlength', hholds'⟩ := indexInsertRaw_holds hkeyed hindex
          (hholds.congr fun item hitem => hhash item hitem) (by omega) (by omega)
        rw [hlast, hinsert]
        refine ⟨some slots', rfl, ?_, ?_⟩
        · intro slots'' hsome
          obtain rfl := Option.some.inj hsome
          refine ⟨added.entries.length, Nat.le_refl _, ?_, by omega, Or.inl rfl⟩
          rw [hlength]
          exact hholds'
        · rintro _ _ ⟨slots'', hsome, hless⟩
          obtain rfl := Option.some.inj hsome
          dsimp only at hless
          omega

/-! ## The operations -/

/-- The array of entries has room. -/
theorem growEntries_spec (h : Kept content cache) {ready : Bool} {grown : Cache}
    (hgrown : growEntries cache ready = some grown) :
    grown = { cache with entryCapacity := grown.entryCapacity } ∧
      cache.entries.length < grown.entryCapacity ∧ grown.entryCapacity < 2 ^ 64 := by
  have hroom := h.room
  have hcapacity := h.capacity
  rw [growEntries] at hgrown
  dsimp only at hgrown
  split_ifs at hgrown with hfull hzero hwraps hready
  · obtain rfl := Option.some.inj hgrown
    exact ⟨rfl, by dsimp only; omega⟩
  · obtain rfl := Option.some.inj hgrown
    exact ⟨rfl, by dsimp only; omega⟩
  · obtain rfl := Option.some.inj hgrown
    exact ⟨rfl, by omega⟩

/-- An entry is added behind the others, whatever comes of its index. -/
theorem addEntry_kept (h : Kept content cache) (hroom : cache.entries.length < cache.entryCapacity)
    {entry : Entry} (helements : entry.elements ≠ 0)
    (hhash : entry.keyHash = cacheKeyHash entry.tensorName entry.elements)
    (hcontent : content entry.tensorName entry.elements entry.data entry.fnv1a64) (ready : Bool) :
    Kept content (addEntry cache entry ready) ∧
      (addEntry cache entry ready).enabled = cache.enabled ∧
      (addEntry cache entry ready).entries = cache.entries ++ [entry] ∧
      (ready = true → cache.entries.length < 2 ^ 62 → ¬Stale (addEntry cache entry ready)) := by
  have hkeyed : ∀ other ∈ cache.entries ++ [entry], other.elements ≠ 0 ∧
      other.keyHash = cacheKeyHash other.tensorName other.elements ∧
      content other.tensorName other.elements other.data other.fnv1a64 := by
    intro other hother
    rcases List.mem_append.mp hother with hother | hother
    · exact h.keyed other hother
    · obtain rfl := List.mem_singleton.mp hother
      exact ⟨helements, hhash, hcontent⟩
  have hlength : (cache.entries ++ [entry]).length = cache.entries.length + 1 := by simp
  obtain ⟨slots, hnoted, hindexed, hstale⟩ := noteEntryAdded_spec h.indexed
    { cache with
      entries := cache.entries ++ [entry]
      bytes := cache.bytes + entry.bytes.toNat } entry rfl rfl
    (fun other hother => (hkeyed other hother).1) ready
  -- An index that could not be noted costs a count, and the entry stays.
  have hadded : ∃ failures, addEntry cache entry ready = { cache with
      entries := cache.entries ++ [entry]
      bytes := cache.bytes + entry.bytes.toNat
      indexSlots := slots
      storeFailureCount := failures } := by
    rw [addEntry]
    dsimp only
    rw [hnoted]
    split_ifs
    · exact ⟨_, rfl⟩
    · exact ⟨_, rfl⟩
  obtain ⟨failures, hadded⟩ := hadded
  rw [hadded]
  refine ⟨⟨?_, h.capacity, hkeyed, ?_, hindexed⟩, rfl, rfl, fun hready hfits => ?_⟩
  · dsimp only
    omega
  · dsimp only
    rw [List.map_append, List.sum_append, h.bytes]
    simp
  · exact hstale hready (by dsimp only; omega)

/-- A weight that the cache takes is added, and one that it does not take changes nothing but a
    count. -/
theorem storeOwned_kept (h : Kept content cache) {residentName residentData : List UInt8}
    {weightElements weightBytes weightHash : UInt64}
    (hcontent : content residentName weightElements residentData weightHash) (growth : Growth) :
    Kept content (storeOwned cache residentName residentData weightElements weightBytes weightHash
        growth).2 ∧
      (storeOwned cache residentName residentData weightElements weightBytes weightHash
        growth).2.enabled = cache.enabled ∧
      (storeOwned cache residentName residentData weightElements weightBytes weightHash
        growth).2.entries.length ≤ cache.entries.length + 1 ∧
      (growth.index = true → cache.entries.length < 2 ^ 62 → ¬Stale cache →
        ¬Stale (storeOwned cache residentName residentData weightElements weightBytes weightHash
          growth).2) := by
  rw [storeOwned]
  by_cases hcheck : (decide (weightElements = 0) || decide (weightBytes = 0) ||
      !cache.enabled) = true
  · rw [if_pos hcheck]
    exact ⟨h, rfl, Nat.le_succ _, fun _ _ hstale => hstale⟩
  rw [if_neg hcheck]
  cases hgrown : growEntries cache growth.entries with
  | none =>
      -- No memory for the entries: only a failure is counted.
      exact ⟨⟨h.room, h.capacity, h.keyed, h.bytes, h.indexed⟩, rfl, Nat.le_succ _,
        fun _ _ hstale => hstale⟩
  | some grown =>
      obtain ⟨hsame, hroom, hcapacity⟩ := growEntries_spec h hgrown
      have helements : weightElements ≠ 0 := by
        intro hzero
        simp [hzero] at hcheck
      have hkept : Kept content grown := by
        rw [hsame]
        exact ⟨Nat.le_of_lt hroom, hcapacity, h.keyed, h.bytes, h.indexed⟩
      have hentries : grown.entries = cache.entries := by rw [hsame]
      obtain ⟨hadded, henabled, hlonger, hstale⟩ := @addEntry_kept content grown hkept
        (by rw [hentries]; exact hroom)
        { tensorName := residentName
          data := residentData
          elements := weightElements
          bytes := weightBytes
          keyHash := cacheKeyHash residentName weightElements
          fnv1a64 := weightHash
          hitCount := 0 } helements rfl hcontent growth.index
      refine ⟨hadded, ?_, ?_, fun hready hfits _ => hstale hready (by rw [hentries]; exact hfits)⟩
      · rw [henabled, hsame]
      · dsimp only
        rw [hlonger, hentries, List.length_append, List.length_singleton]

/-! ## Looking for an entry -/

theorem isFor_iff (h : Kept content cache) {entry : Entry} (hentry : entry ∈ cache.entries)
    (tensorName : List UInt8) (weightElements : UInt64) :
    entry.isFor tensorName weightElements = true ↔
      entry.tensorName = tensorName ∧ entry.elements = weightElements := by
  simp only [Entry.isFor, Bool.and_eq_true, decide_eq_true_eq]
  constructor
  · exact fun hfor => ⟨hfor.2, hfor.1.2⟩
  · rintro ⟨rfl, rfl⟩
    exact ⟨⟨(h.keyed entry hentry).2.1, rfl⟩, rfl⟩

/-- What is found has the key that is looked for. -/
theorem findEntry_some (h : Kept content cache) {tensorName : List UInt8} {weightElements : UInt64}
    {index : Nat} (hfound : (findEntry cache tensorName weightElements).1 = some index) :
    ∃ entry, cache.entries[index]? = some entry ∧ entry.tensorName = tensorName ∧
      entry.elements = weightElements := by
  have hfor : cache.isFor tensorName weightElements index = true := by
    rw [findEntry] at hfound
    cases hslots : cache.indexSlots with
    | none =>
        rw [hslots] at hfound
        exact List.find?_some hfound
    | some slots =>
        rw [hslots] at hfound
        obtain ⟨items, _, hholds, _⟩ := h.indexed slots hslots
        exact (hholds.lookup_some hfound).1
  rw [Cache.isFor] at hfor
  cases hentry : cache.entries[index]? with
  | none =>
      rw [hentry] at hfor
      cases hfor
  | some entry =>
      rw [hentry] at hfor
      exact ⟨entry, rfl, (isFor_iff h (List.mem_of_getElem? hentry) _ _).mp hfor⟩

/-- Nothing is missed, unless the index is stale. -/
theorem findEntry_none (h : Kept content cache) (hstale : ¬Stale cache) {tensorName : List UInt8}
    {weightElements : UInt64} (hfound : (findEntry cache tensorName weightElements).1 = none) :
    ∀ entry ∈ cache.entries,
      ¬(entry.tensorName = tensorName ∧ entry.elements = weightElements) := by
  intro entry hentry hkey
  have hfor := (isFor_iff h hentry tensorName weightElements).mpr hkey
  obtain ⟨index, hindex, rfl⟩ := List.mem_iff_getElem.mp hentry
  have hat : cache.isFor tensorName weightElements index = true := by
    rw [Cache.isFor, List.getElem?_eq_getElem hindex]
    exact hfor
  rw [findEntry] at hfound
  cases hslots : cache.indexSlots with
  | none =>
      rw [hslots] at hfound
      have hnone := List.find?_eq_none.mp hfound index (List.mem_range.mpr hindex)
      exact hnone hat
  | some slots =>
      rw [hslots] at hfound
      obtain ⟨items, _, hholds, _, hall⟩ := h.indexed slots hslots
      obtain rfl : items = cache.entries.length := by
        rcases hall with hall | hless
        · exact hall
        · exact absurd ⟨slots, hslots, hless⟩ hstale
      have hhash : cache.hashAt index = (cacheKeyHash tensorName weightElements).toNat := by
        rw [Cache.hashAt, List.getElem?_eq_getElem hindex]
        obtain ⟨rfl, rfl⟩ := hkey
        exact congrArg UInt64.toNat (h.keyed _ (List.getElem_mem hindex)).2.1
      rw [hholds.lookup_none hfound hindex hhash] at hat
      cases hat

/-- Looking for an entry changes nothing but counts. -/
theorem findEntry_counts (cache : Cache) (tensorName : List UInt8) (weightElements : UInt64) :
    ∃ lookups probes fallbacks, (findEntry cache tensorName weightElements).2 = { cache with
      indexLookupCount := lookups
      indexProbeCount := probes
      indexFallbackCount := fallbacks } := by
  rw [findEntry]
  split
  · exact ⟨_, _, _, rfl⟩
  · exact ⟨_, _, _, rfl⟩

/-- What is not counted of an entry is the same after a hit. -/
theorem map_hit {α : Type} (f : Entry → α) {index : Nat} {entry : Entry}
    (hentry : cache.entries[index]? = some entry)
    (hf : f { entry with hitCount := entry.hitCount + 1 } = f entry) :
    (cache.entries.set index { entry with hitCount := entry.hitCount + 1 }).map f =
      cache.entries.map f := by
  refine List.ext_getElem? fun other => ?_
  rw [List.getElem?_map, List.getElem?_map, List.getElem?_set]
  by_cases heq : index = other
  · have hindex := (List.getElem?_eq_some_iff.mp hentry).1
    rw [if_pos heq, if_pos (by omega), ← heq, hentry, Option.map_some, Option.map_some, hf]
  · rw [if_neg heq]

/-- A hit is counted, and nothing else of an entry changes. -/
theorem hit_kept (h : Kept content cache) {index : Nat} {entry : Entry}
    (hentry : cache.entries[index]? = some entry) (hits bytes : Nat) :
    Kept content { cache with
      entries := cache.entries.set index { entry with hitCount := entry.hitCount + 1 }
      hitCount := hits
      hitBytes := bytes } := by
  have hlength : (cache.entries.set index { entry with hitCount := entry.hitCount + 1 }).length =
      cache.entries.length := List.length_set
  constructor
  case room =>
    dsimp only
    rw [hlength]
    exact h.room
  case capacity => exact h.capacity
  case keyed =>
    intro other hother
    rcases List.mem_or_eq_of_mem_set hother with hother | rfl
    · exact h.keyed other hother
    · exact h.keyed entry (List.mem_of_getElem? hentry)
  case bytes =>
    dsimp only
    rw [map_hit (fun entry => entry.bytes.toNat) hentry rfl]
    exact h.bytes
  case indexed =>
    intro slots hslots
    obtain ⟨items, hle, hholds, htwice, hall⟩ := h.indexed slots hslots
    refine ⟨items, by dsimp only; omega, hholds.congr fun item _ => ?_, htwice, ?_⟩
    · have hhash := congrArg (fun l => l[item]?) (map_hit Entry.keyHash hentry rfl)
      simp only [List.getElem?_map] at hhash
      rw [Cache.hashAt_eq, Cache.hashAt_eq, hhash]
    · dsimp only
      rw [hlength]
      exact hall

/-- What is viewed is the content of the key. -/
theorem tryView_kept (h : Kept content cache) (cacheKey : List UInt8) (weightBytes : UInt64) :
    Kept content (tryView cache cacheKey weightBytes).2 ∧
      (tryView cache cacheKey weightBytes).2.enabled = cache.enabled ∧
      (tryView cache cacheKey weightBytes).2.entries.length = cache.entries.length ∧
      (Stale (tryView cache cacheKey weightBytes).2 → Stale cache) ∧
      ∀ data hash, (tryView cache cacheKey weightBytes).1 = some (data, hash) →
        content cacheKey (weightBytes / 2) data hash := by
  -- Every way through the function leaves the index and the number of entries.
  have hnone : ∀ cache' : Cache, Kept content cache' → cache'.enabled = cache.enabled →
      cache'.entries.length = cache.entries.length → cache'.indexSlots = cache.indexSlots →
      Kept content cache' ∧ cache'.enabled = cache.enabled ∧
        cache'.entries.length = cache.entries.length ∧ (Stale cache' → Stale cache) := by
    intro cache' hkept henabled hlength hslots
    refine ⟨hkept, henabled, hlength, ?_⟩
    rintro ⟨slots, hsome, hless⟩
    exact ⟨slots, by rw [← hslots, hsome], by omega⟩
  rw [tryView]
  by_cases hcheck : (decide (weightBytes = 0) || decide (weightBytes % 2 ≠ 0) ||
      !cache.enabled) = true
  · rw [if_pos hcheck]
    obtain ⟨h1, h2, h3, h4⟩ := hnone cache h rfl rfl rfl
    exact ⟨h1, h2, h3, h4, fun _ _ hsome => (by cases hsome)⟩
  rw [if_neg hcheck]
  obtain ⟨lookups, probes, fallbacks, hcounts⟩ :=
    findEntry_counts cache cacheKey (weightBytes / 2)
  have hkept : Kept content (findEntry cache cacheKey (weightBytes / 2)).2 := by
    rw [hcounts]
    exact ⟨h.room, h.capacity, h.keyed, h.bytes, h.indexed⟩
  have hsame : (findEntry cache cacheKey (weightBytes / 2)).2.enabled = cache.enabled ∧
      (findEntry cache cacheKey (weightBytes / 2)).2.entries = cache.entries ∧
      (findEntry cache cacheKey (weightBytes / 2)).2.indexSlots = cache.indexSlots := by
    rw [hcounts]
    exact ⟨rfl, rfl, rfl⟩
  obtain ⟨henabled, hentries, hslots⟩ := hsame
  have hlength := congrArg List.length hentries
  dsimp only
  generalize hfind : findEntry cache cacheKey (weightBytes / 2) = result at *
  obtain ⟨found, cache'⟩ := result
  cases found with
  | none =>
      obtain ⟨h1, h2, h3, h4⟩ := hnone cache' hkept henabled hlength hslots
      exact ⟨h1, h2, h3, h4, fun _ _ hsome => (by cases hsome)⟩
  | some index =>
      have hfirst : (findEntry cache cacheKey (weightBytes / 2)).1 = some index := by rw [hfind]
      obtain ⟨entry, hentry, hname, helements⟩ := findEntry_some h hfirst
      have hentry' : cache'.entries[index]? = some entry := by rw [← hentry, ← hentries]
      dsimp only
      rw [hentry']
      obtain ⟨h1, h2, h3, h4⟩ := hnone _ (hit_kept hkept hentry' (cache'.hitCount + 1)
        (cache'.hitBytes + weightBytes.toNat)) henabled (by simp [hlength]) hslots
      refine ⟨h1, h2, h3, h4, fun data hash hsome => ?_⟩
      obtain ⟨rfl, rfl⟩ := Prod.mk.inj (Option.some.inj hsome)
      have hcontent := (h.keyed entry (List.mem_of_getElem? hentry)).2.2
      rwa [hname, helements] at hcontent

end Operations

end ResidentCache

end QrtEngine
