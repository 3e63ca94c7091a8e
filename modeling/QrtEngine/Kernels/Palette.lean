import QrtEngine.Library.WordBytes
import Mathlib.Tactic.IntervalCases

/-!
# The Palette of a Chunk

Weights of the experts are kept in chunks of 256 values of sixteen bits. The low bytes are kept as
they are. The high bytes, which are the signs and most of the exponents, take few values in a
chunk, so a palette of sixteen keeps those and each value has a code of four bits. The palette is
four words of four bytes, and the decoder picks a pair of high bytes with two byte permutations
and a mask.

## Main definitions

* `Palette`: The words `palette_0_3` to `palette_12_15`.
* `build`: `q1_moe_lossless_palette_build`.
* `findCode`: `q1_moe_lossless_palette_find_code`.
* `lowPair`, `codePair`: What is stored of a pair of values.
* `decodePair`: `q1_moe_lossless_palette_decode_pair` of a packed chunk.

## Theorems

* `byte_storeByte`: What a store changes.
* `build_covers`: The palette of a chunk has its high bytes, unless there are too many.
* `decodePair_encode`: The decoder gives the pair back.
-/

namespace QrtEngine

namespace LosslessPalette

open WordBytes

/-! ## The palette -/

/-- The words of a palette. -/
structure Palette where
  palette03 : BitVec 32
  palette47 : BitVec 32
  palette811 : BitVec 32
  palette1215 : BitVec 32
  deriving DecidableEq, Repr

/-- The palette at the start. -/
def Palette.empty : Palette := ⟨0#32, 0#32, 0#32, 0#32⟩

/-- The word that a slot is in. -/
def Palette.word (palette : Palette) (slot : Nat) : BitVec 32 :=
  if slot < 4 then palette.palette03
  else if slot < 8 then palette.palette47
  else if slot < 12 then palette.palette811
  else palette.palette1215

/-- `q1_moe_lossless_palette_byte`. -/
def Palette.byte (palette : Palette) (slot : Nat) : BitVec 8 :=
  (palette.word slot >>> (8 * (slot % 4))).setWidth 8

/-- `q1_moe_lossless_palette_store_byte`. -/
def Palette.storeByte (palette : Palette) (slot : Nat) (value : BitVec 8) : Palette :=
  let bits := value.setWidth 32 <<< (8 * (slot % 4))
  if slot < 4 then { palette with palette03 := palette.palette03 ||| bits }
  else if slot < 8 then { palette with palette47 := palette.palette47 ||| bits }
  else if slot < 12 then { palette with palette811 := palette.palette811 ||| bits }
  else { palette with palette1215 := palette.palette1215 ||| bits }

/-- The high byte of a value. -/
def high (value : BitVec 16) : BitVec 8 := (value >>> 8).setWidth 8

/-- The loop of `q1_moe_lossless_palette_build` over the values that are left. -/
def buildFrom : List (BitVec 16) → Nat → Palette → Nat × Palette
  | [], count, palette => (count, palette)
  | value :: values, count, palette =>
      if (List.range count).any fun slot => palette.byte slot = high value then
        buildFrom values count palette
      else if count = 16 then (17, palette)
      else buildFrom values (count + 1) (palette.storeByte count (high value))

/-- `q1_moe_lossless_palette_build`. -/
def build (values : List (BitVec 16)) : Nat × Palette := buildFrom values 0 Palette.empty

/-- The bytes of a word in the palette. -/
theorem Palette.byte_eq (palette : Palette) (slot : Nat) :
    palette.byte slot = byteAt (palette.word slot) (slot % 4) := rfl

@[simp] theorem Palette.byte_empty (slot : Nat) : Palette.empty.byte slot = 0#8 := by
  have hword : Palette.empty.word slot = 0#32 := by
    unfold Palette.word
    split_ifs <;> rfl
  rw [byte_eq, hword, byteAt_zero]

/-- A byte that is stored in a word. -/
theorem byteAt_stored (w : BitVec 32) (value : BitVec 8) {s i : Nat} (hi : i < 4) (hs : s < 4) :
    byteAt (w ||| value.setWidth 32 <<< (8 * s)) i =
      if i = s then byteAt w i ||| value else byteAt w i := by
  rw [byteAt_or, byteAt_shiftLeft _ _ _ (by omega)]
  by_cases hsame : i = s
  · subst hsame
    rw [if_pos rfl, if_neg (Nat.lt_irrefl _), Nat.sub_self, byteAt_setWidth _ _ (by omega),
      byteAt_byte]
  · rw [if_neg hsame]
    have hzero : (if i < s then 0#8 else byteAt (value.setWidth 32) (i - s)) = 0#8 := by
      by_cases hlt : i < s
      · rw [if_pos hlt]
      · rw [if_neg hlt, byteAt_setWidth _ _ (by omega), byteAt_eq_zero _ _ (by omega)]
    rw [hzero, BitVec.or_zero]

/-- What a store changes. -/
theorem Palette.byte_storeByte (palette : Palette) (value : BitVec 8) {slot other : Nat}
    (hslot : slot < 16) (hother : other < 16) :
    (palette.storeByte slot value).byte other =
      if other = slot then palette.byte other ||| value else palette.byte other := by
  have hmod : slot % 4 < 4 ∧ other % 4 < 4 := ⟨Nat.mod_lt _ (by omega), Nat.mod_lt _ (by omega)⟩
  rw [byte_eq, byte_eq]
  unfold storeByte word
  split_ifs <;> first
    | omega
    | (simp only [byteAt_stored _ _ hmod.2 hmod.1]; split_ifs <;> first | rfl | omega)
    | rfl

/-! ## The palette of a chunk -/

/-- A palette of which some slots are taken, and the others are zero. -/
structure Taken (count : Nat) (palette : Palette) : Prop where
  count_le : count ≤ 16
  free : ∀ slot, count ≤ slot → slot < 16 → palette.byte slot = 0#8

/-- A byte that is stored in a free slot is the byte of the slot, and no other slot changes. -/
theorem Taken.store {count : Nat} {palette : Palette} (h : Taken count palette)
    (hroom : count < 16) (value : BitVec 8) :
    Taken (count + 1) (palette.storeByte count value) ∧
      (palette.storeByte count value).byte count = value ∧
      ∀ slot, slot < count → (palette.storeByte count value).byte slot = palette.byte slot := by
  refine ⟨⟨hroom, ?_⟩, ?_, ?_⟩
  · intro slot hle hlt
    rw [Palette.byte_storeByte palette value hroom hlt, if_neg (by omega)]
    exact h.free slot (by omega) hlt
  · rw [Palette.byte_storeByte palette value hroom hroom, if_pos rfl,
      h.free count (Nat.le_refl _) hroom, BitVec.zero_or]
  · intro slot hlt
    rw [Palette.byte_storeByte palette value hroom (by omega), if_neg (by omega)]

/-- A palette has a byte. -/
def Palette.has (palette : Palette) (value : BitVec 8) : Prop :=
  ∃ slot, slot < 16 ∧ palette.byte slot = value

theorem buildFrom_covers (values : List (BitVec 16)) (count : Nat) (palette : Palette)
    (h : Taken count palette) (hfits : (buildFrom values count palette).1 ≤ 16) :
    (∀ slot, slot < count →
      (buildFrom values count palette).2.byte slot = palette.byte slot) ∧
    ∀ value ∈ values, (buildFrom values count palette).2.has (high value) := by
  induction values generalizing count palette with
  | nil =>
      refine ⟨fun _ _ => rfl, fun value hvalue => ?_⟩
      cases hvalue
  | cons value values ih =>
      rw [buildFrom] at hfits ⊢
      by_cases hfound : ((List.range count).any fun slot => palette.byte slot = high value) = true
      · rw [if_pos hfound] at hfits ⊢
        obtain ⟨hkeep, hrest⟩ := ih count palette h hfits
        refine ⟨hkeep, ?_⟩
        intro other hother
        rcases List.mem_cons.mp hother with rfl | hother
        · obtain ⟨slot, hslot, hbyte⟩ := List.any_eq_true.mp hfound
          rw [List.mem_range] at hslot
          refine ⟨slot, by have := h.count_le; omega, ?_⟩
          rw [hkeep slot hslot]
          simpa using hbyte
        · exact hrest other hother
      · rw [if_neg hfound] at hfits ⊢
        by_cases hfull : count = 16
        · rw [if_pos hfull] at hfits
          exact absurd hfits (Nat.not_le.mpr (Nat.lt_succ_self 16))
        · rw [if_neg hfull] at hfits ⊢
          have hroom : count < 16 := Nat.lt_of_le_of_ne h.count_le hfull
          obtain ⟨hnext, hstored, hother⟩ := h.store hroom (high value)
          obtain ⟨hkeep, hrest⟩ := ih (count + 1) _ hnext hfits
          refine ⟨?_, ?_⟩
          · intro slot hslot
            rw [hkeep slot (by omega), hother slot hslot]
          · intro other hmem
            rcases List.mem_cons.mp hmem with rfl | hmem
            · exact ⟨count, hroom, by rw [hkeep count (Nat.lt_succ_self _), hstored]⟩
            · exact hrest other hmem

/-- The palette of a chunk has its high bytes, unless there are too many. -/
theorem build_covers {values : List (BitVec 16)} (h : (build values).1 ≤ 16) :
    ∀ value ∈ values, (build values).2.has (high value) := by
  refine (buildFrom_covers values 0 Palette.empty ⟨Nat.zero_le _, ?_⟩ h).2
  exact fun slot _ _ => Palette.byte_empty slot

/-! ## Codes -/

/-- `q1_moe_lossless_palette_find_code`. -/
def findCode (value : BitVec 8) (palette : Palette) : Nat :=
  ((List.range 16).find? fun slot => palette.byte slot = value).getD 0

/-- A code is a slot of its byte. -/
theorem findCode_spec {value : BitVec 8} {palette : Palette} (h : palette.has value) :
    findCode value palette < 16 ∧ palette.byte (findCode value palette) = value := by
  obtain ⟨slot, hslot, hbyte⟩ := h
  unfold findCode
  cases hfind : (List.range 16).find? fun slot => palette.byte slot = value with
  | none =>
      have hnone := List.find?_eq_none.mp hfind slot (List.mem_range.mpr hslot)
      simp [hbyte] at hnone
  | some code =>
      refine ⟨List.mem_range.mp (List.mem_of_find?_eq_some hfind), ?_⟩
      simpa using List.find?_some hfind

/-- The low bytes of a pair. -/
def lowPair (first second : BitVec 16) : BitVec 16 :=
  (first &&& 0x00ff#16) ||| ((second &&& 0x00ff#16) <<< 8)

/-- The codes of a pair. -/
def codePair (first second : BitVec 16) (palette : Palette) : BitVec 8 :=
  (BitVec.ofNat 32 (findCode (high first) palette) |||
    (BitVec.ofNat 32 (findCode (high second) palette) <<< 4)).setWidth 8

/-- The codes of a pair are in the halves of a byte. -/
theorem codePair_halves {first second : BitVec 16} {palette : Palette}
    (hfirst : palette.has (high first)) (hsecond : palette.has (high second)) :
    (codePair first second palette &&& 0x0f#8).toNat = findCode (high first) palette ∧
      (codePair first second palette >>> 4).toNat = findCode (high second) palette := by
  have hall : ∀ code0, code0 < 16 → ∀ code1, code1 < 16 →
      ((BitVec.ofNat 32 code0 ||| (BitVec.ofNat 32 code1 <<< 4)).setWidth 8 &&& 0x0f#8).toNat =
          code0 ∧
        ((BitVec.ofNat 32 code0 ||| (BitVec.ofNat 32 code1 <<< 4)).setWidth 8 >>> 4).toNat =
          code1 := by
    decide
  exact hall _ (findCode_spec hfirst).1 _ (findCode_spec hsecond).1

/-! ## Decoding -/

/-- A byte of `__builtin_amdgcn_perm`, by its selector: the bytes of the two words, the lowest
    byte of the second word first, or a constant. -/
def permByte (first second : BitVec 32) (selector : Nat) : BitVec 8 :=
  if selector < 4 then byteAt second selector
  else if selector < 8 then byteAt first (selector - 4)
  else if selector < 12 then
    let sign : BitVec 8 := match selector with
      | 8 => byteAt second 1
      | 9 => byteAt second 3
      | 10 => byteAt first 1
      | _ => byteAt first 3
    if sign.msb then 0xff#8 else 0#8
  else if selector = 12 then 0#8
  else 0xff#8

/-- `__builtin_amdgcn_perm`. -/
def amdgcnPerm (first second selectors : BitVec 32) : BitVec 32 :=
  (List.range 4).foldl (fun word i => word |||
    (permByte first second (byteAt selectors i).toNat).setWidth 32 <<< (8 * i)) 0#32

/-- `q1_moe_lossless_palette_permute_bytes`. -/
def permuteBytes (first second selectors : BitVec 32) : BitVec 32 :=
  amdgcnPerm second first selectors

/-- `q1_moe_lossless_palette_decode_high_pair`. -/
def decodeHighPair (packedCodes : BitVec 8) (palette : Palette) : BitVec 16 :=
  let code0 := (packedCodes &&& 0x0f#8).toNat
  let code1 := (packedCodes >>> 4).toNat
  let selectors := BitVec.ofNat 32 (code0 % 8) ||| (BitVec.ofNat 32 (code1 % 8) <<< 8)
  let lowHalf := permuteBytes palette.palette03 palette.palette47 selectors
  let highHalf := permuteBytes palette.palette811 palette.palette1215 selectors
  let highSelect := (if 8 ≤ code0 then 0x000000ff#32 else 0#32) |||
    (if 8 ≤ code1 then 0x0000ff00#32 else 0#32)
  ((lowHalf &&& ~~~highSelect) ||| (highHalf &&& highSelect)).setWidth 16

/-- The pair of a packed chunk that `q1_moe_lossless_palette_decode_pair` returns. -/
def decodePair (lowPair : BitVec 16) (packedCodes : BitVec 8) (palette : Palette) : BitVec 32 :=
  let highPair := decodeHighPair packedCodes palette
  (lowPair &&& 0x00ff#16).setWidth 32 ||| ((lowPair &&& 0xff00#16).setWidth 32 <<< 8) |||
    ((highPair &&& 0x00ff#16).setWidth 32 <<< 8) ||| ((highPair &&& 0xff00#16).setWidth 32 <<< 16)

/-- The bytes that a permutation picks. -/
theorem byteAt_amdgcnPerm (first second selectors : BitVec 32) {i : Nat} (hi : i < 4) :
    byteAt (amdgcnPerm first second selectors) i =
      permByte first second (byteAt selectors i).toNat := by
  have hstored : ∀ (w : BitVec 32) (value : BitVec 8) (s : Nat), s < 4 →
      byteAt (w ||| value.setWidth 32 <<< (8 * s)) i =
        if i = s then byteAt w i ||| value else byteAt w i :=
    fun w value s hs => byteAt_stored w value hi hs
  simp only [amdgcnPerm, List.range_succ, List.range_zero, List.nil_append, List.foldl_append,
    List.foldl_cons, List.foldl_nil]
  rw [hstored _ _ 3 (by omega), hstored _ _ 2 (by omega), hstored _ _ 1 (by omega),
    hstored _ _ 0 (by omega), byteAt_zero]
  interval_cases i <;> simp

/-- A selector of a code picks the byte of its slot in a half of the palette. -/
theorem permByte_palette (palette : Palette) {code : Nat} (h : code < 8) :
    permByte palette.palette47 palette.palette03 code = palette.byte code ∧
      permByte palette.palette1215 palette.palette811 code = palette.byte (8 + code) := by
  rw [Palette.byte_eq, Palette.byte_eq]
  unfold permByte Palette.word
  interval_cases code <;> exact ⟨rfl, rfl⟩

/-- The selectors of two codes. -/
theorem byteAt_selectors {code0 code1 : Nat} (h0 : code0 < 8) (h1 : code1 < 8) :
    (byteAt (BitVec.ofNat 32 code0 ||| (BitVec.ofNat 32 code1 <<< 8)) 0).toNat = code0 ∧
      (byteAt (BitVec.ofNat 32 code0 ||| (BitVec.ofNat 32 code1 <<< 8)) 1).toNat = code1 := by
  have hall : ∀ code0, code0 < 8 → ∀ code1, code1 < 8 →
      (byteAt (BitVec.ofNat 32 code0 ||| (BitVec.ofNat 32 code1 <<< 8)) 0).toNat = code0 ∧
        (byteAt (BitVec.ofNat 32 code0 ||| (BitVec.ofNat 32 code1 <<< 8)) 1).toNat = code1 := by
    decide
  exact hall code0 h0 code1 h1

/-- The mask of two codes. -/
theorem byteAt_select (upper0 upper1 : Prop) [Decidable upper0] [Decidable upper1] :
    byteAt ((if upper0 then 0x000000ff#32 else 0#32) |||
        (if upper1 then 0x0000ff00#32 else 0#32)) 0 = (if upper0 then 0xff#8 else 0#8) ∧
      byteAt ((if upper0 then 0x000000ff#32 else 0#32) |||
        (if upper1 then 0x0000ff00#32 else 0#32)) 1 = (if upper1 then 0xff#8 else 0#8) := by
  split_ifs <;> decide

/-- A byte under a mask of whole bytes. -/
theorem byteAt_choose (low upper mask : BitVec 32) (choice : Prop) [Decidable choice] {i : Nat}
    (hi : i < 4) (hmask : byteAt mask i = if choice then 0xff#8 else 0#8) :
    byteAt ((low &&& ~~~mask) ||| (upper &&& mask)) i =
      if choice then byteAt upper i else byteAt low i := by
  have hnot : byteAt (~~~mask) i = ~~~(byteAt mask i) := by
    refine byte_ext fun k hk => ?_
    rw [getLsbD_byteAt _ _ _ hk, BitVec.getLsbD_not, BitVec.getLsbD_not, getLsbD_byteAt _ _ _ hk]
    simp [show 8 * i + k < 32 by omega, hk]
  rw [byteAt_or, byteAt_and, byteAt_and, hnot, hmask]
  have hones : (0xff#8 : BitVec 8) = BitVec.allOnes 8 := rfl
  split_ifs
  · rw [hones, BitVec.not_allOnes, BitVec.and_zero, BitVec.zero_or, BitVec.and_allOnes]
  · rw [BitVec.not_zero, BitVec.and_allOnes, BitVec.and_zero, BitVec.or_zero]

/-- The decoder gives the high bytes of a pair back. -/
theorem decodeHighPair_spec {first second : BitVec 16} {palette : Palette}
    (hfirst : palette.has (high first)) (hsecond : palette.has (high second)) :
    byteAt (decodeHighPair (codePair first second palette) palette) 0 = high first ∧
      byteAt (decodeHighPair (codePair first second palette) palette) 1 = high second := by
  obtain ⟨hcode0, hcode1⟩ := codePair_halves hfirst hsecond
  obtain ⟨hlt0, hbyte0⟩ := findCode_spec hfirst
  obtain ⟨hlt1, hbyte1⟩ := findCode_spec hsecond
  have hpick : ∀ code, code < 16 →
      (if 8 ≤ code then permByte palette.palette1215 palette.palette811 (code % 8)
        else permByte palette.palette47 palette.palette03 (code % 8)) = palette.byte code := by
    intro code hcode
    obtain ⟨hlow, hupper⟩ := permByte_palette palette (Nat.mod_lt code (by decide : 0 < 8))
    by_cases hhalf : 8 ≤ code
    · rw [if_pos hhalf, hupper, show 8 + code % 8 = code by omega]
    · rw [if_neg hhalf, hlow, Nat.mod_eq_of_lt (by omega)]
  obtain ⟨hsel0, hsel1⟩ := byteAt_selectors
    (Nat.mod_lt (findCode (high first) palette) (by decide : 0 < 8))
    (Nat.mod_lt (findCode (high second) palette) (by decide : 0 < 8))
  obtain ⟨hmask0, hmask1⟩ := byteAt_select (8 ≤ findCode (high first) palette)
    (8 ≤ findCode (high second) palette)
  unfold decodeHighPair
  simp only [hcode0, hcode1, permuteBytes]
  refine ⟨?_, ?_⟩
  · rw [byteAt_setWidth _ _ (by omega), byteAt_choose _ _ _ _ (by omega) hmask0,
      byteAt_amdgcnPerm _ _ _ (by omega), byteAt_amdgcnPerm _ _ _ (by omega), hsel0,
      hpick _ hlt0, hbyte0]
  · rw [byteAt_setWidth _ _ (by omega), byteAt_choose _ _ _ _ (by omega) hmask1,
      byteAt_amdgcnPerm _ _ _ (by omega), byteAt_amdgcnPerm _ _ _ (by omega), hsel1,
      hpick _ hlt1, hbyte1]

/-- The lower byte of a value, in a wide word. -/
theorem byteAt_lower (w : BitVec 16) {i : Nat} (hi : i < 4) :
    byteAt ((w &&& 0x00ff#16).setWidth 32) i = if i = 0 then byteAt w 0 else 0#8 := by
  have hones : byteAt 0x00ff#16 0 = BitVec.allOnes 8 := by decide
  rw [byteAt_setWidth _ _ (by omega), byteAt_and]
  by_cases h0 : i = 0
  · rw [if_pos h0, h0, hones, BitVec.and_allOnes]
  · rw [if_neg h0]
    by_cases h1 : i = 1
    · rw [h1, show byteAt 0x00ff#16 1 = 0#8 by decide, BitVec.and_zero]
    · rw [byteAt_eq_zero 0x00ff#16 i (by omega), BitVec.and_zero]

/-- The upper byte of a value, in a wide word. -/
theorem byteAt_upper (w : BitVec 16) {i : Nat} (hi : i < 4) :
    byteAt ((w &&& 0xff00#16).setWidth 32) i = if i = 1 then byteAt w 1 else 0#8 := by
  have hones : byteAt 0xff00#16 1 = BitVec.allOnes 8 := by decide
  rw [byteAt_setWidth _ _ (by omega), byteAt_and]
  by_cases h1 : i = 1
  · rw [if_pos h1, h1, hones, BitVec.and_allOnes]
  · rw [if_neg h1]
    by_cases h0 : i = 0
    · rw [h0, show byteAt 0xff00#16 0 = 0#8 by decide, BitVec.and_zero]
    · rw [byteAt_eq_zero 0xff00#16 i (by omega), BitVec.and_zero]

/-- The low bytes of a pair are kept as they are. -/
theorem byteAt_lowPair (first second : BitVec 16) :
    byteAt (lowPair first second) 0 = byteAt first 0 ∧
      byteAt (lowPair first second) 1 = byteAt second 0 := by
  have hshift : ∀ i, i < 2 → byteAt ((second &&& 0x00ff#16) <<< 8) i =
      if i < 1 then 0#8 else byteAt (second &&& 0x00ff#16) (i - 1) :=
    fun i hi => byteAt_shiftLeft (second &&& 0x00ff#16) 1 i (by omega)
  have hones : byteAt 0x00ff#16 0 = BitVec.allOnes 8 := by decide
  have hzero : byteAt 0x00ff#16 1 = 0#8 := by decide
  rw [lowPair, byteAt_or, byteAt_or, hshift 0 (by omega), hshift 1 (by omega),
    if_pos (by omega), if_neg (by omega), byteAt_and, byteAt_and, byteAt_and, hones, hzero,
    BitVec.and_allOnes, BitVec.and_zero, BitVec.or_zero, BitVec.zero_or, BitVec.and_allOnes]
  exact ⟨rfl, rfl⟩

/-- The decoder gives the pair back. -/
theorem decodePair_encode {first second : BitVec 16} {palette : Palette}
    (hfirst : palette.has (high first)) (hsecond : palette.has (high second)) :
    decodePair (lowPair first second) (codePair first second palette) palette =
      first.setWidth 32 ||| (second.setWidth 32 <<< 16) := by
  obtain ⟨hhigh0, hhigh1⟩ := decodeHighPair_spec hfirst hsecond
  obtain ⟨hlow0, hlow1⟩ := byteAt_lowPair first second
  have hhigh : ∀ value : BitVec 16, high value = byteAt value 1 := fun _ => rfl
  have hshift8 : ∀ (w : BitVec 32) (i : Nat), i < 4 →
      byteAt (w <<< 8) i = if i < 1 then 0#8 else byteAt w (i - 1) :=
    fun w i hi => byteAt_shiftLeft w 1 i (by omega)
  have hshift16 : ∀ (w : BitVec 32) (i : Nat), i < 4 →
      byteAt (w <<< 16) i = if i < 2 then 0#8 else byteAt w (i - 2) :=
    fun w i hi => byteAt_shiftLeft w 2 i (by omega)
  rw [hhigh] at hhigh0 hhigh1
  unfold decodePair
  refine eq_of_bytes fun i hi => ?_
  have hlt : i < 4 := by omega
  simp only [byteAt_or]
  rw [hshift8 _ i hlt, hshift8 _ i hlt, hshift16 _ i hlt, hshift16 _ i hlt, byteAt_lower _ hlt,
    byteAt_upper _ (by omega), byteAt_lower _ (by omega), byteAt_upper _ (by omega),
    byteAt_setWidth first _ (by omega), byteAt_setWidth second _ (by omega), hlow0, hlow1, hhigh0,
    hhigh1]
  have hbehind : ∀ j, 2 ≤ j → byteAt first j = 0#8 :=
    fun j hj => byteAt_eq_zero first j (by omega)
  interval_cases i <;> simp [hbehind]

end LosslessPalette

end QrtEngine
