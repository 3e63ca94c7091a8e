import QrtEngine.Kernels.Palette
import QrtEngine.Library.SlotPool

/-!
# Packing Weights on the Device

A weight is packed by two kernels, each a grid of waves that go through the chunks in strides. The
first counts the chunks whose palette is too small, the host allocates room for these, and the
second packs: of a chunk with a palette the low bytes, the codes and the palette, of any other its
values, in a slot that it gets from an atomic counter. The slots are taken in whatever order the
waves come to their chunks, and the host checks that both kernels have counted the same.

Whatever the order, no wave writes out of bounds, the host's check passes, and the decoder gives
every pair of values back.

## Main definitions

* `Place`: The places of the three arrays of a packed weight.
* `packWrites`: What the second kernel writes of a chunk.
* `countJob`, `packJob`: The two kernels.
* `prepareWaveChunk`, `decodeAt`: The decoder.
* `prepareDeviceWeight`: `prepare_q1_moe_lossless_palette_device_weight`.

## Theorems

* `packJob_sound`: No two writes of the second kernel meet.
* `decodeAt_done`, `decodeAt_finished`: A chunk that is packed is decoded.
* `palette_round_trip`: The two kernels and the decoder.
-/

namespace QrtEngine

namespace LosslessPalette

open WordBytes

/-! ## Sizes -/

/-- `kQ1MoeLosslessPaletteChunkValues`. -/
def chunkValues : Nat := 256

/-- `kQ1MoeLosslessPalettePairsPerChunk`. -/
def pairsPerChunk : Nat := chunkValues / 2

/-- `kQ1MoeLosslessPaletteLowBytes`. -/
def lowBytes : Nat := 256

/-- `kQ1MoeLosslessPaletteCodeBytes`. -/
def codeBytes : Nat := 128

/-- `kQ1MoeLosslessPalettePackedChunkBytes`. -/
def packedChunkBytes : Nat := lowBytes + codeBytes + 16

/-- `kQ1MoeLosslessPaletteOverflowSentinel`. -/
def overflowSentinel : BitVec 32 := 0xffffffff#32

/-- The waves of the kernels: `kQ1MoeLosslessPalettePackBlocks` blocks of
    `kQ1MoeRawWavesPerBlock` waves. -/
def packWaves : Nat := 4096 * 8

/-! ## The arrays -/

/-- The places of the arrays: bytes of the packed chunks, indices, and overflow values. -/
inductive Place
  | packed (address : Nat)
  | index (chunk : Nat)
  | value (address : Nat)
  deriving DecidableEq, Repr

/-- What is in the arrays. A place holds a byte, a word or a value, with zeros above it. -/
abbrev Memory : Type := Place → BitVec 32

section Pack

variable (source : Nat → BitVec 16)

/-- The values of a chunk. -/
def chunkOf (chunk : Nat) : List (BitVec 16) :=
  (List.range chunkValues).map fun i => source (chunk * chunkValues + i)

/-- The palette of a chunk is too small. -/
def overflows (chunk : Nat) : Bool := decide (16 < (build (chunkOf source chunk)).1)

/-- The writes of a pair: its low bytes and its codes. -/
def pairWrites (chunk : Nat) (palette : Palette) (pair : Nat) : List (Place × BitVec 32) :=
  let packed := chunk * packedChunkBytes
  let first := source (chunk * chunkValues + 2 * pair)
  let second := source (chunk * chunkValues + 2 * pair + 1)
  [(.packed (packed + 2 * pair), (byteAt (lowPair first second) 0).setWidth 32),
    (.packed (packed + 2 * pair + 1), (byteAt (lowPair first second) 1).setWidth 32),
    (.packed (packed + lowBytes + pair), (codePair first second palette).setWidth 32)]

/-- The words of a palette in memory. -/
def Palette.words (palette : Palette) : List (BitVec 32) :=
  [palette.palette03, palette.palette47, palette.palette811, palette.palette1215]

/-- The writes of a word of the palette. -/
def wordWrites (chunk : Nat) (palette : Palette) (i : Nat) : List (Place × BitVec 32) :=
  (List.range 4).map fun k =>
    (.packed (chunk * packedChunkBytes + lowBytes + codeBytes + 4 * i + k),
      (byteAt (palette.words.getD i 0#32) k).setWidth 32)

/-- What `q1_moe_lossless_palette_pack_kernel` writes of a chunk. -/
def packWrites (chunk slot : Nat) : List (Place × BitVec 32) :=
  let built := build (chunkOf source chunk)
  if 16 < built.1 then
    (.index chunk, BitVec.ofNat 32 slot) :: (List.range chunkValues).map fun i =>
      (.value (slot * chunkValues + i), (source (chunk * chunkValues + i)).setWidth 32)
  else
    (.index chunk, overflowSentinel) ::
      ((List.range 4).flatMap (wordWrites chunk built.2) ++
        (List.range pairsPerChunk).flatMap (pairWrites source chunk built.2))

/-- `q1_moe_lossless_palette_count_overflow_kernel`, which writes the counter only. -/
def countJob (chunkCount : Nat) : SlotPool.Job Place (BitVec 32) where
  items := chunkCount
  stride := packWaves
  needsSlot := overflows source
  writes := fun _ _ => []
  inBounds := fun _ => false

/-- `q1_moe_lossless_palette_pack_kernel`, over the arrays that the host has allocated. -/
def packJob (chunkCount overflowCount : Nat) : SlotPool.Job Place (BitVec 32) where
  items := chunkCount
  stride := packWaves
  needsSlot := overflows source
  writes := packWrites source
  inBounds := fun place => match place with
    | .packed address => decide (address < chunkCount * packedChunkBytes)
    | .index chunk => decide (chunk < chunkCount)
    | .value address => decide (address < overflowCount * chunkValues)

end Pack

/-! ## The decoder -/

/-- `Q1MoeLosslessPaletteWaveChunk`: the values of a chunk, or the packed chunk and its palette. -/
inductive WaveChunk
  | raw (address : Nat)
  | packed (address : Nat) (palette : Palette)
  deriving DecidableEq, Repr

/-- The bytes of the packed chunks. -/
def Memory.bytes (memory : Memory) (address : Nat) : BitVec 8 :=
  (memory (.packed address)).setWidth 8

/-- `q1_moe_lossless_palette_prepare_wave_chunk`. -/
def prepareWaveChunk (memory : Memory) (chunk : Nat) : WaveChunk :=
  let overflowIndex := memory (.index chunk)
  if overflowIndex ≠ overflowSentinel then .raw (overflowIndex.toNat * chunkValues)
  else
    let packed := chunk * packedChunkBytes
    let words := packed + lowBytes + codeBytes
    .packed packed
      { palette03 := readWord memory.bytes words
        palette47 := readWord memory.bytes (words + 4)
        palette811 := readWord memory.bytes (words + 8)
        palette1215 := readWord memory.bytes (words + 12) }

/-- `q1_moe_lossless_palette_decode_pair`. -/
def decodeAt (memory : Memory) (chunk : WaveChunk) (pair : Nat) : BitVec 32 :=
  match chunk with
  | .raw address =>
      ((memory (.value (address + 2 * pair))).setWidth 16).setWidth 32 |||
        (((memory (.value (address + 2 * pair + 1))).setWidth 16).setWidth 32 <<< 16)
  | .packed address palette =>
      decodePair (readHalf memory.bytes (address + 2 * pair))
        (memory.bytes (address + lowBytes + pair)) palette

/-- A pair of values as a word. -/
def pairOf (source : Nat → BitVec 16) (i : Nat) : BitVec 32 :=
  (source (2 * i)).setWidth 32 ||| ((source (2 * i + 1)).setWidth 32 <<< 16)

/-! ## A chunk in memory -/

section Chunk

variable (source : Nat → BitVec 16)

/-- The bytes of a packed chunk, by their offset. -/
def packedByte (chunk : Nat) (palette : Palette) (offset : Nat) : BitVec 8 :=
  if offset < lowBytes then
    byteAt (lowPair (source (chunk * chunkValues + 2 * (offset / 2)))
      (source (chunk * chunkValues + 2 * (offset / 2) + 1))) (offset % 2)
  else if offset < lowBytes + codeBytes then
    codePair (source (chunk * chunkValues + 2 * (offset - lowBytes)))
      (source (chunk * chunkValues + 2 * (offset - lowBytes) + 1)) palette
  else
    byteAt (palette.words.getD ((offset - (lowBytes + codeBytes)) / 4) 0#32)
      ((offset - (lowBytes + codeBytes)) % 4)

/-- What is written of a chunk with a palette are its bytes. -/
theorem mem_packed_iff (chunk : Nat) (palette : Palette) (w : Place × BitVec 32) :
    w ∈ (List.range 4).flatMap (wordWrites chunk palette) ++
        (List.range pairsPerChunk).flatMap (pairWrites source chunk palette) ↔
      ∃ offset, offset < packedChunkBytes ∧ w = (.packed (chunk * packedChunkBytes + offset),
        (packedByte source chunk palette offset).setWidth 32) := by
  have hlow : lowBytes = 256 := rfl
  have hcode : codeBytes = 128 := rfl
  have hchunk : packedChunkBytes = 400 := rfl
  have hpairs : pairsPerChunk = 128 := rfl
  rw [List.mem_append, List.mem_flatMap, List.mem_flatMap]
  -- The low bytes come first, then a code for each pair, then the words of the palette.
  constructor
  · rintro (⟨i, hi, hw⟩ | ⟨pair, hpair, hw⟩)
    · obtain ⟨k, hk, rfl⟩ := List.mem_map.mp hw
      rw [List.mem_range] at hi hk
      refine ⟨lowBytes + codeBytes + 4 * i + k, by omega, ?_⟩
      rw [packedByte, if_neg (by omega), if_neg (by omega),
        show (lowBytes + codeBytes + 4 * i + k - (lowBytes + codeBytes)) / 4 = i by omega,
        show (lowBytes + codeBytes + 4 * i + k - (lowBytes + codeBytes)) % 4 = k by omega]
      simp only [Nat.add_assoc]
    · rw [List.mem_range] at hpair
      simp only [pairWrites, List.mem_cons, List.not_mem_nil, or_false] at hw
      rcases hw with rfl | rfl | rfl
      · refine ⟨2 * pair, by omega, ?_⟩
        rw [packedByte, if_pos (by omega), show 2 * pair / 2 = pair by omega,
          show 2 * pair % 2 = 0 by omega]
      · refine ⟨2 * pair + 1, by omega, ?_⟩
        rw [packedByte, if_pos (by omega), show (2 * pair + 1) / 2 = pair by omega,
          show (2 * pair + 1) % 2 = 1 by omega, Nat.add_assoc]
      · refine ⟨lowBytes + pair, by omega, ?_⟩
        rw [packedByte, if_neg (by omega), if_pos (by omega), Nat.add_sub_cancel_left,
          Nat.add_assoc]
  · rintro ⟨offset, hoffset, rfl⟩
    unfold packedByte
    split_ifs with hfirst hsecond
    · refine Or.inr ⟨offset / 2, List.mem_range.mpr (by omega), ?_⟩
      simp only [pairWrites, List.mem_cons, List.not_mem_nil, or_false, Prod.mk.injEq,
        Place.packed.injEq]
      rcases Nat.mod_two_eq_zero_or_one offset with hbit | hbit
      · exact Or.inl ⟨by omega, by rw [hbit]⟩
      · exact Or.inr (Or.inl ⟨by omega, by rw [hbit]⟩)
    · refine Or.inr ⟨offset - lowBytes, List.mem_range.mpr (by omega), ?_⟩
      simp only [pairWrites, List.mem_cons, List.not_mem_nil, or_false, Prod.mk.injEq,
        Place.packed.injEq]
      exact Or.inr (Or.inr ⟨by omega, trivial⟩)
    · refine Or.inl ⟨(offset - (lowBytes + codeBytes)) / 4, List.mem_range.mpr (by omega), ?_⟩
      refine List.mem_map.mpr ⟨(offset - (lowBytes + codeBytes)) % 4,
        List.mem_range.mpr (by omega), ?_⟩
      simp only [Prod.mk.injEq, Place.packed.injEq, and_true]
      omega

/-- What is written of a chunk. -/
theorem mem_packWrites_iff (chunk slot : Nat) (w : Place × BitVec 32) :
    w ∈ packWrites source chunk slot ↔
      if overflows source chunk then
        w = (.index chunk, BitVec.ofNat 32 slot) ∨ ∃ i, i < chunkValues ∧
          w = (.value (slot * chunkValues + i), (source (chunk * chunkValues + i)).setWidth 32)
      else
        w = (.index chunk, overflowSentinel) ∨ ∃ offset, offset < packedChunkBytes ∧
          w = (.packed (chunk * packedChunkBytes + offset), (packedByte source chunk
            (build (chunkOf source chunk)).2 offset).setWidth 32) := by
  rw [packWrites, overflows]
  by_cases hover : 16 < (build (chunkOf source chunk)).1
  · rw [if_pos hover, if_pos (by simpa using hover), List.mem_cons, List.mem_map]
    simp only [List.mem_range, eq_comm]
  · rw [if_neg hover, if_neg (by simpa using hover), List.mem_cons, mem_packed_iff]

/-- No write is out of bounds, and no two writes meet. -/
theorem packJob_sound (chunkCount : Nat) (hcount : chunkCount < 2 ^ 32) :
    (packJob source chunkCount (countJob source chunkCount).slotted.length).Sound where
  stride_pos := Nat.mul_pos (by decide) (by decide)
  slots_lt := by
    refine Nat.lt_of_le_of_lt (List.length_filter_le _ _) ?_
    rwa [List.length_range]
  inBounds := by
    intro chunk slot hfits w hw
    obtain ⟨hchunk, hslot⟩ := hfits
    have hchunk : chunk < chunkCount := hchunk
    have hwrites := (mem_packWrites_iff source chunk slot w).mp hw
    cases hover : overflows source chunk with
    | true =>
        have hneeds : (packJob source chunkCount
            (countJob source chunkCount).slotted.length).needsSlot chunk = true := hover
        rw [if_pos hneeds] at hslot
        rw [hover, if_pos rfl] at hwrites
        rcases hwrites with rfl | ⟨i, hi, rfl⟩
        · simpa [packJob] using hchunk
        · have hroom : slot < (countJob source chunkCount).slotted.length := hslot
          have hmul := Nat.mul_le_mul_right chunkValues (Nat.succ_le_of_lt hroom)
          rw [Nat.succ_mul] at hmul
          simp only [packJob, decide_eq_true_eq]
          omega
    | false =>
        rw [hover, if_neg Bool.false_ne_true] at hwrites
        rcases hwrites with rfl | ⟨offset, hoffset, rfl⟩
        · simpa [packJob] using hchunk
        · have hmul := Nat.mul_le_mul_right packedChunkBytes (Nat.succ_le_of_lt hchunk)
          rw [Nat.succ_mul] at hmul
          simp only [packJob, decide_eq_true_eq]
          omega
  separate := by
    intro chunk slot chunk' slot' _ _ hsame hslots w hw w' hw' hplace
    have hwrites := (mem_packWrites_iff source chunk slot w).mp hw
    have hwrites' := (mem_packWrites_iff source chunk' slot' w').mp hw'
    cases hover : overflows source chunk with
    | true =>
        rw [hover, if_pos rfl] at hwrites
        cases hover' : overflows source chunk' with
        | true =>
            rw [hover', if_pos rfl] at hwrites'
            rcases hwrites with rfl | ⟨i, hi, rfl⟩ <;>
              rcases hwrites' with rfl | ⟨i', hi', rfl⟩ <;>
              simp only [Place.index.injEq, Place.value.injEq, reduceCtorEq] at hplace
            · rw [hplace, hsame hplace]
            · -- The slots are equal, so the chunks are.
              have hslot : slot = slot' := by
                simp only [chunkValues] at hplace hi hi'
                omega
              obtain rfl := hslots hover hover' hslot
              subst hslot
              obtain rfl : i = i' := by omega
              rfl
        | false =>
            rw [hover', if_neg Bool.false_ne_true] at hwrites'
            rcases hwrites with rfl | ⟨i, hi, rfl⟩ <;>
              rcases hwrites' with rfl | ⟨i', hi', rfl⟩ <;>
              simp only [Place.index.injEq, reduceCtorEq] at hplace
            rw [hplace, hover'] at hover
            cases hover
    | false =>
        rw [hover, if_neg Bool.false_ne_true] at hwrites
        cases hover' : overflows source chunk' with
        | true =>
            rw [hover', if_pos rfl] at hwrites'
            rcases hwrites with rfl | ⟨i, hi, rfl⟩ <;>
              rcases hwrites' with rfl | ⟨i', hi', rfl⟩ <;>
              simp only [Place.index.injEq, reduceCtorEq] at hplace
            rw [hplace, hover'] at hover
            cases hover
        | false =>
            rw [hover', if_neg Bool.false_ne_true] at hwrites'
            rcases hwrites with rfl | ⟨i, hi, rfl⟩ <;>
              rcases hwrites' with rfl | ⟨i', hi', rfl⟩ <;>
              simp only [Place.index.injEq, Place.packed.injEq, reduceCtorEq] at hplace
            · rw [hplace]
            · have hchunk : chunk = chunk' := by
                simp only [packedChunkBytes, lowBytes, codeBytes] at hplace hi hi'
                omega
              subst hchunk
              obtain rfl : i = i' := by omega
              rfl

theorem pair_first (chunk pair : Nat) :
    2 * (chunk * pairsPerChunk + pair) = chunk * chunkValues + 2 * pair := by
  simp only [pairsPerChunk, chunkValues]
  omega

/-- A chunk that has overflown is decoded from its slot. -/
theorem decodeAt_raw {memory : Memory} {chunk slot : Nat} (hover : overflows source chunk = true)
    (hslot : slot < 2 ^ 32 - 1)
    (hheld : ∀ w ∈ packWrites source chunk slot, memory w.1 = w.2) {pair : Nat}
    (hpair : pair < pairsPerChunk) :
    decodeAt memory (prepareWaveChunk memory chunk) pair =
      pairOf source (chunk * pairsPerChunk + pair) := by
  simp only [mem_packWrites_iff, hover, if_true] at hheld
  have hvalues : pairsPerChunk = 128 ∧ chunkValues = 256 := ⟨rfl, rfl⟩
  rw [pairOf, pair_first]
  have hindex := hheld _ (Or.inl rfl)
  have hraw : ∀ i, i < chunkValues → memory (.value (slot * chunkValues + i)) =
      (source (chunk * chunkValues + i)).setWidth 32 :=
    fun i hi => hheld _ (Or.inr ⟨i, hi, rfl⟩)
  -- The slot is below the sentinel, so it is told apart from it.
  have hne : BitVec.ofNat 32 slot ≠ overflowSentinel := by
    intro heq
    have hnat := congrArg BitVec.toNat heq
    rw [BitVec.toNat_ofNat, Nat.mod_eq_of_lt (by omega)] at hnat
    rw [hnat] at hslot
    exact absurd hslot (by decide)
  have hto : (BitVec.ofNat 32 slot).toNat = slot := by
    rw [BitVec.toNat_ofNat, Nat.mod_eq_of_lt (by omega)]
  have hnarrow : ∀ value : BitVec 16, (value.setWidth 32).setWidth 16 = value := by
    intro value
    simp
  rw [prepareWaveChunk, hindex, if_pos hne, hto, decodeAt]
  rw [Nat.add_assoc, Nat.add_assoc, hraw _ (by omega), hraw _ (by omega), hnarrow, hnarrow]

/-- A chunk with a palette is decoded from its bytes. -/
theorem decodeAt_packed {memory : Memory} {chunk slot : Nat}
    (hover : overflows source chunk = false)
    (hheld : ∀ w ∈ packWrites source chunk slot, memory w.1 = w.2) {pair : Nat}
    (hpair : pair < pairsPerChunk) :
    decodeAt memory (prepareWaveChunk memory chunk) pair =
      pairOf source (chunk * pairsPerChunk + pair) := by
  simp only [mem_packWrites_iff, hover, Bool.false_eq_true, if_false] at hheld
  have hvalues : pairsPerChunk = 128 ∧ chunkValues = 256 := ⟨rfl, rfl⟩
  rw [pairOf, pair_first]
  have hindex := hheld _ (Or.inl rfl)
  have hpacked : ∀ offset, offset < packedChunkBytes →
      Memory.bytes memory (chunk * packedChunkBytes + offset) =
        packedByte source chunk (build (chunkOf source chunk)).2 offset := by
    intro offset hoffset
    rw [Memory.bytes, hheld _ (Or.inr ⟨offset, hoffset, rfl⟩)]
    simp
  have hsizes : lowBytes = 256 ∧ codeBytes = 128 ∧ packedChunkBytes = 400 := ⟨rfl, rfl, rfl⟩
  -- Behind the codes stand the words of the palette.
  have hword : ∀ i, i < 4 → readWord (Memory.bytes memory)
      (chunk * packedChunkBytes + lowBytes + codeBytes + 4 * i) =
        (build (chunkOf source chunk)).2.words.getD i 0#32 := by
    intro i hi
    refine readWord_eq fun k hk => ?_
    rw [Nat.add_assoc, Nat.add_assoc, Nat.add_assoc, hpacked _ (by omega), packedByte,
      if_neg (by omega), if_neg (by omega), show (lowBytes + (codeBytes + (4 * i + k)) -
        (lowBytes + codeBytes)) / 4 = i by omega, show (lowBytes + (codeBytes + (4 * i + k)) -
        (lowBytes + codeBytes)) % 4 = k by omega]
  have hpalette : (⟨readWord (Memory.bytes memory)
        (chunk * packedChunkBytes + lowBytes + codeBytes),
      readWord (Memory.bytes memory) (chunk * packedChunkBytes + lowBytes + codeBytes + 4),
      readWord (Memory.bytes memory) (chunk * packedChunkBytes + lowBytes + codeBytes + 8),
      readWord (Memory.bytes memory) (chunk * packedChunkBytes + lowBytes + codeBytes + 12)⟩
      : Palette) = (build (chunkOf source chunk)).2 := by
    have h0 := hword 0 (by omega)
    have h1 := hword 1 (by omega)
    have h2 := hword 2 (by omega)
    have h3 := hword 3 (by omega)
    rw [Nat.mul_zero, Nat.add_zero] at h0
    rw [h0, h1, h2, h3]
    rfl
  have hlow : readHalf (Memory.bytes memory) (chunk * packedChunkBytes + 2 * pair) =
      lowPair (source (chunk * chunkValues + 2 * pair))
        (source (chunk * chunkValues + 2 * pair + 1)) := by
    refine readHalf_eq fun i hi => ?_
    rw [Nat.add_assoc, hpacked _ (by omega), packedByte, if_pos (by omega),
      show (2 * pair + i) / 2 = pair by omega, show (2 * pair + i) % 2 = i by omega]
  have hcodes : Memory.bytes memory (chunk * packedChunkBytes + lowBytes + pair) =
      codePair (source (chunk * chunkValues + 2 * pair))
        (source (chunk * chunkValues + 2 * pair + 1)) (build (chunkOf source chunk)).2 := by
    rw [Nat.add_assoc, hpacked _ (by omega), packedByte, if_neg (by omega), if_pos (by omega),
      Nat.add_sub_cancel_left]
  -- The palette has room for all values, so each has a code.
  have hfits : (build (chunkOf source chunk)).1 ≤ 16 := by
    simpa [overflows] using hover
  have hhas : ∀ i, i < chunkValues → (build (chunkOf source chunk)).2.has
      (high (source (chunk * chunkValues + i))) := fun i hi =>
    build_covers hfits _ (List.mem_map_of_mem (List.mem_range.mpr hi))
  rw [prepareWaveChunk, hindex, if_neg (fun hne => hne rfl)]
  dsimp only
  rw [hpalette, decodeAt, hlow, hcodes]
  refine decodePair_encode (hhas _ (by omega)) ?_
  rw [Nat.add_assoc]
  exact hhas _ (by omega)

/-- The chunk is in memory, so it is decoded. -/
theorem decodeAt_done {chunkCount overflowCount : Nat}
    {s : SlotPool.State Place (BitVec 32)} {chunk : Nat}
    (hdone : SlotPool.Done (packJob source chunkCount overflowCount) s chunk)
    (hslot : SlotPool.slotOf (packJob source chunkCount overflowCount) s.claimed chunk <
      2 ^ 32 - 1) {pair : Nat} (hpair : pair < pairsPerChunk) :
    decodeAt s.memory (prepareWaveChunk s.memory chunk) pair =
      pairOf source (chunk * pairsPerChunk + pair) := by
  cases hover : overflows source chunk with
  | true => exact decodeAt_raw source hover hslot hdone.2 hpair
  | false => exact decodeAt_packed source hover hdone.2 hpair

end Chunk

/-! ## The host -/

/-- The calls of the device library, in order. -/
inductive HipCall
  | mallocCount
  | clearCount
  | launchCount
  | readCount
  | mallocPacked
  | mallocIndices
  | mallocValues
  | clearAgain
  | launchPack
  | readAgain
  deriving DecidableEq, Repr

/-- `hipErrorInvalidValue`, or the error of a call. -/
inductive HipError
  | invalidValue
  | failed (call : HipCall)
  deriving DecidableEq, Repr

/-- `Q1MoeLosslessPaletteDeviceWeight`, with the sizes of its arrays. -/
structure DeviceWeight where
  sourceValues : UInt64
  chunkCount : UInt64
  overflowChunkCount : UInt32
  packedChunkBytes : UInt64
  overflowIndexBytes : UInt64
  overflowValueBytes : UInt64
  totalBytes : UInt64
  deriving DecidableEq, Repr

/-- `q1_moe_lossless_palette_device_weight_complete`, for arrays that are there. -/
def DeviceWeight.complete (weight : DeviceWeight) : Bool :=
  decide (weight.sourceValues ≠ 0) && decide (weight.sourceValues % 256 = 0) &&
    decide (weight.chunkCount = weight.sourceValues / 256) &&
    decide (weight.packedChunkBytes = weight.chunkCount * 400) &&
    decide (weight.overflowIndexBytes = weight.chunkCount * 4) &&
    decide (weight.overflowValueBytes = weight.overflowChunkCount.toUInt64 * 256 * 2) &&
    decide (weight.totalBytes =
      weight.packedChunkBytes + weight.overflowIndexBytes + weight.overflowValueBytes)

/-- A call that succeeds or not. -/
def call (hip : HipCall → Bool) (name : HipCall) : Except HipError Unit :=
  if hip name then .ok () else .error (.failed name)

/-- Some value is not as it must be. -/
def invalidIf (condition : Bool) : Except HipError Unit :=
  if condition then .error .invalidValue else .ok ()

/-- The weight that the host returns. -/
def preparedWeight (sourceValues : UInt64) (counted : UInt32) : DeviceWeight :=
  let chunkCount := sourceValues / 256
  { sourceValues := sourceValues
    chunkCount := chunkCount
    overflowChunkCount := counted
    packedChunkBytes := chunkCount * 400
    overflowIndexBytes := chunkCount * 4
    overflowValueBytes := counted.toUInt64 * 256 * 2
    totalBytes := chunkCount * 400 + chunkCount * 4 + counted.toUInt64 * 256 * 2 }

/-- `prepare_q1_moe_lossless_palette_device_weight`, from the calls that succeed and what the two
    kernels have counted. -/
def prepareDeviceWeight (hip : HipCall → Bool) (sourceValues : UInt64)
    (counted produced : UInt32) : Except HipError DeviceWeight := do
  invalidIf (sourceValues = 0 || sourceValues % 256 ≠ 0)
  let chunkCount := sourceValues / 256
  let packedBytes := chunkCount * 400
  let indexBytes := chunkCount * 4
  invalidIf (chunkCount = 0 || packedBytes / 400 ≠ chunkCount || indexBytes / 4 ≠ chunkCount)
  call hip .mallocCount
  call hip .clearCount
  call hip .launchCount
  call hip .readCount
  let valueBytes := counted.toUInt64 * 256 * 2
  invalidIf (counted ≠ 0 && valueBytes / (256 * 2) ≠ counted.toUInt64)
  call hip .mallocPacked
  call hip .mallocIndices
  if counted ≠ 0 then call hip .mallocValues
  call hip .clearAgain
  call hip .launchPack
  call hip .readAgain
  invalidIf (produced ≠ counted)
  invalidIf (!(preparedWeight sourceValues counted).complete)
  pure (preparedWeight sourceValues counted)

/-- The weight is complete if its values are whole chunks. -/
theorem preparedWeight_complete {sourceValues : UInt64} (counted : UInt32)
    (hzero : sourceValues ≠ 0) (hwhole : sourceValues % 256 = 0) :
    (preparedWeight sourceValues counted).complete = true := by
  simp [preparedWeight, DeviceWeight.complete, hzero, hwhole]

/-- The calls that the host needs: all of them, but the one for overflow values only if there are
    any. -/
def HipCall.needed (counted : UInt32) (name : HipCall) : Prop := name = .mallocValues → counted ≠ 0

theorem needed_iff (hip : HipCall → Bool) (counted : UInt32) :
    (∀ name, HipCall.needed counted name → hip name = true) ↔
      (hip .mallocCount = true ∧ hip .clearCount = true ∧ hip .launchCount = true ∧
        hip .readCount = true) ∧ (hip .mallocPacked = true ∧ hip .mallocIndices = true) ∧
      (counted ≠ 0 → hip .mallocValues = true) ∧
      hip .clearAgain = true ∧ hip .launchPack = true ∧ hip .readAgain = true := by
  constructor
  · intro h
    exact ⟨⟨h _ nofun, h _ nofun, h _ nofun, h _ nofun⟩, ⟨h _ nofun, h _ nofun⟩,
      fun hcounted => h _ fun _ => hcounted, h _ nofun, h _ nofun, h _ nofun⟩
  · rintro ⟨⟨h0, h1, h2, h3⟩, ⟨h4, h5⟩, h6, h7, h8, h9⟩ name hneeded
    cases name
    case mallocValues => exact h6 (hneeded rfl)
    all_goals assumption

/-- A computation goes on behind a check that passes. -/
theorem invalidIf_bind_ok {α : Type} (condition : Bool) (next : Unit → Except HipError α) (a : α) :
    (invalidIf condition >>= next) = .ok a ↔ condition = false ∧ next () = .ok a := by
  cases condition
  · exact ⟨fun h => ⟨rfl, h⟩, fun h => h.2⟩
  · exact ⟨fun h => (nomatch h), fun h => (nomatch h.1)⟩

/-- And behind a call that succeeds. -/
theorem call_bind_ok {α : Type} (hip : HipCall → Bool) (name : HipCall)
    (next : Unit → Except HipError α) (a : α) :
    (call hip name >>= next) = .ok a ↔ hip name = true ∧ next () = .ok a := by
  unfold call
  cases hip name
  · exact ⟨fun h => (nomatch h), fun h => (nomatch h.1)⟩
  · exact ⟨fun h => ⟨rfl, h⟩, fun h => h.2⟩

/-- A product that fits is divided back. -/
theorem mul_div_cancel {a b : UInt64} (hpos : 0 < b.toNat) (h : a.toNat * b.toNat < 2 ^ 64) :
    a * b / b = a := by
  refine UInt64.toNat_inj.mp ?_
  rw [UInt64.toNat_div, UInt64.toNat_mul, Nat.mod_eq_of_lt h, Nat.mul_div_cancel _ hpos]

/-- The host succeeds if its calls do, the values are whole chunks, and both kernels have counted
    the same; then the weight is complete. -/
theorem prepareDeviceWeight_spec (hip : HipCall → Bool) (sourceValues : UInt64)
    (counted produced : UInt32) (hsize : sourceValues.toNat / 256 < 2 ^ 32) :
    ((∃ weight, prepareDeviceWeight hip sourceValues counted produced = .ok weight) ↔
      sourceValues ≠ 0 ∧ sourceValues % 256 = 0 ∧ produced = counted ∧
        ∀ name, HipCall.needed counted name → hip name = true) ∧
    ∀ weight, prepareDeviceWeight hip sourceValues counted produced = .ok weight →
      weight.complete = true := by
  have hchunks : (sourceValues / 256).toNat = sourceValues.toNat / 256 := UInt64.toNat_div ..
  have hpacked : sourceValues / 256 * 400 / 400 = sourceValues / 256 :=
    mul_div_cancel (by decide) (by rw [hchunks]; simp; omega)
  have hindex : sourceValues / 256 * 4 / 4 = sourceValues / 256 :=
    mul_div_cancel (by decide) (by rw [hchunks]; simp; omega)
  have hvalue : counted.toUInt64 * 256 * 2 / (256 * 2) = counted.toUInt64 := by
    rw [UInt64.mul_assoc]
    refine mul_div_cancel (by decide) ?_
    have hlt := counted.toNat_lt
    simp
    omega
  have hsome : sourceValues ≠ 0 → sourceValues % 256 = 0 → sourceValues / 256 ≠ 0 := by
    intro hzero hwhole hnone
    have hmod := congrArg UInt64.toNat hwhole
    have hdiv := congrArg UInt64.toNat hnone
    refine hzero (UInt64.toNat_inj.mp ?_)
    simp only [UInt64.toNat_mod, UInt64.toNat_div, UInt64.reduceToNat, UInt64.toNat_zero]
      at hmod hdiv ⊢
    omega
  -- The chain of checks and calls, read in both directions; a weight with no packed chunk skips
  -- one call.
  have hok : ∀ weight, prepareDeviceWeight hip sourceValues counted produced = .ok weight ↔
      (sourceValues ≠ 0 ∧ sourceValues % 256 = 0 ∧ produced = counted ∧
        ∀ name, HipCall.needed counted name → hip name = true) ∧
      preparedWeight sourceValues counted = weight := by
    intro weight
    unfold prepareDeviceWeight
    rw [show (pure (preparedWeight sourceValues counted) : Except HipError DeviceWeight) =
      .ok (preparedWeight sourceValues counted) from rfl]
    rw [needed_iff]
    by_cases hnone : counted = 0
    · simp only [invalidIf_bind_ok, call_bind_ok, hpacked, hindex, hnone, ne_eq,
        not_true_eq_false, if_false, Except.ok.injEq]
      constructor
      · rintro ⟨hvalues, _, h0, h1, h2, h3, _, h4, h5, h6, h7, h8, hproduced, _, rfl⟩
        simp only [Bool.or_eq_false_iff, decide_eq_false_iff_not, not_not] at hvalues hproduced
        exact ⟨⟨hvalues.1, hvalues.2, hproduced, ⟨h0, h1, h2, h3⟩, ⟨h4, h5⟩, fun h => h.elim, h6,
          h7, h8⟩, rfl⟩
      · rintro ⟨⟨hzero, hwhole, rfl, ⟨h0, h1, h2, h3⟩, ⟨h4, h5⟩, _, h6, h7, h8⟩, rfl⟩
        refine ⟨?_, ?_, h0, h1, h2, h3, rfl, h4, h5, h6, h7, h8, by simp, ?_, rfl⟩
        · simp [hzero, hwhole]
        · simpa using hsome hzero hwhole
        · rw [preparedWeight_complete 0 hzero hwhole]
          rfl
    · simp only [invalidIf_bind_ok, call_bind_ok, hpacked, hindex, hnone, ne_eq,
        not_false_eq_true, if_true, hvalue, Except.ok.injEq]
      constructor
      · rintro ⟨hvalues, _, h0, h1, h2, h3, _, h4, h5, h6, h7, h8, h9, hproduced, _, rfl⟩
        simp only [Bool.or_eq_false_iff, decide_eq_false_iff_not, not_not] at hvalues hproduced
        exact ⟨⟨hvalues.1, hvalues.2, hproduced, ⟨h0, h1, h2, h3⟩, ⟨h4, h5⟩, fun _ => h6, h7,
          h8, h9⟩, rfl⟩
      · rintro ⟨⟨hzero, hwhole, rfl, ⟨h0, h1, h2, h3⟩, ⟨h4, h5⟩, h6, h7, h8, h9⟩, rfl⟩
        refine ⟨?_, ?_, h0, h1, h2, h3, by simp, h4, h5, h6 trivial, h7, h8, h9, by simp, ?_, rfl⟩
        · simp [hzero, hwhole]
        · simpa using hsome hzero hwhole
        · rw [preparedWeight_complete _ hzero hwhole]
          rfl
  refine ⟨?_, ?_⟩
  · constructor
    · rintro ⟨weight, hweight⟩
      exact ((hok weight).mp hweight).1
    · exact fun hall => ⟨_, (hok _).mpr ⟨hall, rfl⟩⟩
  · intro weight hweight
    obtain ⟨⟨hzero, hwhole, _⟩, rfl⟩ := (hok weight).mp hweight
    exact preparedWeight_complete counted hzero hwhole

/-! ## The round trip -/

section RoundTrip

variable (source : Nat → BitVec 16)

theorem countJob_sound (chunkCount : Nat) (hcount : chunkCount < 2 ^ 32) :
    (countJob source chunkCount).Sound where
  stride_pos := Nat.mul_pos (by decide) (by decide)
  slots_lt := by
    refine Nat.lt_of_le_of_lt (List.length_filter_le _ _) ?_
    rwa [List.length_range]
  inBounds := fun _ _ _ w hw => absurd hw List.not_mem_nil
  separate := fun _ _ _ _ _ _ _ _ w hw => absurd hw List.not_mem_nil

/-- What is written of a chunk is no more than this. -/
theorem packWrites_length_le (chunk slot : Nat) :
    (packWrites source chunk slot).length ≤ packedChunkBytes + 1 := by
  simp only [packWrites]
  split_ifs
  · simp [chunkValues, packedChunkBytes, lowBytes, codeBytes]
  · simp [wordWrites, pairWrites, List.length_flatMap, pairsPerChunk, chunkValues,
      packedChunkBytes, lowBytes, codeBytes]

/-- When the waves of both kernels are done, each pair of each chunk is decoded. -/
theorem decodeAt_finished {chunkCount : Nat} (hsize : chunkCount < 2 ^ 32)
    {counted packed : SlotPool.State Place (BitVec 32)}
    (hcounted : SlotPool.Reachable (countJob source chunkCount) counted)
    (hcountedEnd : ∀ action, SlotPool.step (countJob source chunkCount) counted action = none)
    (hpacked : SlotPool.Reachable (packJob source chunkCount counted.counter) packed)
    (hpackedEnd : ∀ action,
      SlotPool.step (packJob source chunkCount counted.counter) packed action = none)
    {chunk : Nat} (hchunk : chunk < chunkCount) {pair : Nat} (hpair : pair < pairsPerChunk) :
    decodeAt packed.memory (prepareWaveChunk packed.memory chunk) pair =
      pairOf source (chunk * pairsPerChunk + pair) := by
  obtain ⟨_, _, hcounter⟩ := SlotPool.finished (countJob_sound source chunkCount hsize) hcounted
    hcountedEnd
  rw [hcounter] at hpacked hpackedEnd
  have hsound := packJob_sound source chunkCount hsize
  obtain ⟨hdone, _, _⟩ := SlotPool.finished hsound hpacked hpackedEnd
  refine decodeAt_done source (hdone chunk hchunk) ?_ hpair
  have hfits := ((SlotPool.reachable_inv hsound hpacked).toClaims.fits (hdone chunk hchunk).1).2
  have hslots := hsound.slots_lt
  split_ifs at hfits
  · omega
  · omega

/-- A weight of whole chunks. Whatever the arrays hold before, and in whatever order the waves of
    the two kernels take their steps: no wave writes out of the arrays that the host allocates
    from what the first kernel has counted, and no wave goes on for ever. When the waves of the
    second kernel are done, both kernels have counted the same, the host returns a complete weight
    if its calls succeed, and the decoder gives each pair of each chunk back. -/
theorem palette_round_trip (sourceValues : UInt64) (hsize : sourceValues.toNat / 256 < 2 ^ 32)
    (counted packed : SlotPool.State Place (BitVec 32))
    (hcounted : SlotPool.Reachable (countJob source (sourceValues.toNat / 256)) counted)
    (hcountedEnd : ∀ action,
      SlotPool.step (countJob source (sourceValues.toNat / 256)) counted action = none)
    (hpacked : SlotPool.Reachable
      (packJob source (sourceValues.toNat / 256) counted.counter) packed) :
    packed.fault = false ∧
    (∀ actions last, Run.runs (SlotPool.step (packJob source (sourceValues.toNat / 256)
        counted.counter)) packed actions = some last →
      actions.length ≤ SlotPool.remaining (packJob source (sourceValues.toNat / 256)
        counted.counter) (packedChunkBytes + 1) packed) ∧
    ((∀ action, SlotPool.step (packJob source (sourceValues.toNat / 256)
        counted.counter) packed action = none) →
      (∀ hip : HipCall → Bool, (∃ weight, weight.complete = true ∧
          prepareDeviceWeight hip sourceValues (UInt32.ofNat counted.counter)
            (UInt32.ofNat packed.counter) = .ok weight) ↔
        sourceValues ≠ 0 ∧ sourceValues % 256 = 0 ∧
          ∀ name, HipCall.needed (UInt32.ofNat counted.counter) name → hip name = true) ∧
      ∀ chunk, chunk < sourceValues.toNat / 256 → ∀ pair, pair < pairsPerChunk →
        decodeAt packed.memory (prepareWaveChunk packed.memory chunk) pair =
          pairOf source (chunk * pairsPerChunk + pair)) := by
  generalize hchunks : sourceValues.toNat / 256 = chunkCount at *
  have hdecode := @decodeAt_finished source chunkCount hsize counted packed hcounted hcountedEnd
    hpacked
  obtain ⟨_, _, hcounter⟩ := SlotPool.finished (countJob_sound source chunkCount hsize) hcounted
    hcountedEnd
  -- What the first kernel counts is how many slots the second one is given.
  rw [hcounter] at hpacked hdecode ⊢
  have hsound := packJob_sound source chunkCount hsize
  have hinv := SlotPool.reachable_inv hsound hpacked
  refine ⟨hinv.fault, ?_, ?_⟩
  · intro actions last hruns
    exact SlotPool.steps_le hsound.stride_pos (packWrites_length_le source) actions packed last
      hruns
  · intro hend
    obtain ⟨_, _, hsame⟩ := SlotPool.finished hsound hpacked hend
    have hproduced : packed.counter = (countJob source chunkCount).slotted.length := hsame
    refine ⟨?_, ?_⟩
    · intro hip
      obtain ⟨hiff, hcomplete⟩ := prepareDeviceWeight_spec hip sourceValues
        (UInt32.ofNat (countJob source chunkCount).slotted.length) (UInt32.ofNat packed.counter)
        (by omega)
      rw [hproduced] at hiff hcomplete ⊢
      constructor
      · rintro ⟨weight, _, hweight⟩
        obtain ⟨hzero, hwhole, _, hall⟩ := hiff.mp ⟨weight, hweight⟩
        exact ⟨hzero, hwhole, hall⟩
      · rintro ⟨hzero, hwhole, hall⟩
        obtain ⟨weight, hweight⟩ := hiff.mpr ⟨hzero, hwhole, rfl, hall⟩
        exact ⟨weight, hcomplete weight hweight, hweight⟩
    · intro chunk hchunk pair hpair
      exact hdecode hend hchunk hpair

end RoundTrip

/-- The threads of a job over an empty memory. -/
def startOf (job : SlotPool.Job Place (BitVec 32)) : SlotPool.State Place (BitVec 32) :=
  { memory := fun _ => 0#32
    counter := 0
    claimed := []
    fault := false
    waves := (List.range job.stride).map .ready }

theorem reachable_startOf (job : SlotPool.Job Place (BitVec 32)) :
    SlotPool.Reachable job (startOf job) :=
  ⟨startOf job, ⟨rfl, rfl, rfl, rfl⟩, .refl⟩

/-- Two chunks of one value. -/
theorem palette_round_trip_constant : ∃ counted packed : SlotPool.State Place (BitVec 32),
    SlotPool.Reachable (countJob (fun _ => 0x3c01#16) 2) counted ∧
    SlotPool.Reachable (packJob (fun _ => 0x3c01#16) 2 counted.counter) packed ∧
    decodeAt packed.memory (prepareWaveChunk packed.memory 1) 5 = 0x3c013c01#32 := by
  obtain ⟨counted, hcounted, hcountedEnd⟩ := SlotPool.exists_finished (by decide)
    (fun _ _ => Nat.le_refl 0) _ (reachable_startOf (countJob (fun _ => 0x3c01#16) 2))
  obtain ⟨packed, hpacked, hpackedEnd⟩ := SlotPool.exists_finished
    (Nat.mul_pos (by decide) (by decide)) (packWrites_length_le fun _ => 0x3c01#16) _
    (reachable_startOf (packJob (fun _ => 0x3c01#16) 2 counted.counter))
  have hall := palette_round_trip (fun _ => 0x3c01#16) 512 (by decide) counted packed hcounted
    hcountedEnd hpacked
  exact ⟨counted, packed, hcounted, hpacked, (hall.2.2 hpackedEnd).2 1 (by decide) 5 (by decide)⟩

end LosslessPalette

end QrtEngine
