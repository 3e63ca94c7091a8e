import QrtEngine.Bridge.Request
import QrtEngine.Library.Words
import QrtEngine.Provider.PrefixRequest

/-!
# The Shape of a Prefix Request on Words

Whether a request may continue a prefix is asked three times: by the bridge before it takes the
route, by the core, and by the provider. The three tests have the same limits, but not the same
types and not the same order of operations. The bridge takes the output from the room for the
tail, the core adds it to the suffix, and the provider adds it to a suffix of another width.

Here the tests are written on words, with every addition and subtraction in its place behind the
conditions that come before it. No operation wraps around, and the tests are those of the model
on numbers. The bridge and the core agree on every prefix that fits in 32 bits.

The provider asks for more. A prefix must not be longer than the positions of the model, and
neither the bridge nor the core asks for that. So a shape the bridge selects passes the provider's
test exactly if its prefix is one the model can have.

## Main definitions

* `serverPrefixShapeSupported`: The test of the bridge.
* `corePrefixShapeRefused`: The test of the core.
* `ShapeFields`, `providerShapeRefused`: The fields of the request and the test of the provider.

## Theorems

* `serverPrefixShapeSupported_yields`, `corePrefixShapeRefused_yields`: The tests on numbers.
* `prefixShape_agree`: The three tests together.
-/

namespace QrtEngine

namespace PrefixShape

open QrtEngine.Core
open QrtEngine.Arith

/-! ## The tests -/

/-- The largest size. -/
def sizeMax : UInt64 := 0xFFFFFFFFFFFFFFFF

/-- The bridge's test. -/
def serverPrefixShapeSupported (inputTokenCount prefixTokenCount outputTokenCapacity : UInt64) :
    Arith Bool := do
  let suffixTokenCount ←
    if inputTokenCount ≥ prefixTokenCount then sub64 inputTokenCount prefixTokenCount
    else pure sizeMax
  if prefixTokenCount > 0 ∧ prefixTokenCount < inputTokenCount ∧
      suffixTokenCount ≤ UInt64.ofNat maxSuffixTokens ∧ outputTokenCapacity > 0 ∧
      outputTokenCapacity ≤ UInt64.ofNat maxOutputTokens then do
    let last ← sub64 outputTokenCapacity 1
    let room ← sub64 (UInt64.ofNat maxTailTokens) last
    return decide (suffixTokenCount ≤ room)
  else return false

/-- The core's test, which says what is refused. The suffix is computed twice. -/
def corePrefixShapeRefused (inputTokenCount prefixHitTokenCount outputTokenCapacity : UInt64) :
    Arith Bool :=
  if inputTokenCount = 0 ∨ prefixHitTokenCount = 0 ∨ prefixHitTokenCount ≥ inputTokenCount ∨
      prefixHitTokenCount > 0xFFFFFFFF then
    return true
  else do
    let suffix ← sub64 inputTokenCount prefixHitTokenCount
    if suffix > UInt64.ofNat maxSuffixTokens ∨ outputTokenCapacity = 0 ∨
        outputTokenCapacity > UInt64.ofNat maxOutputTokens then
      return true
    else do
      let again ← sub64 inputTokenCount prefixHitTokenCount
      let sum ← add64 again outputTokenCapacity
      let tail ← sub64 sum 1
      return decide (tail > UInt64.ofNat maxTailTokens)

/-- The fields of a prefix request that have its shape. -/
structure ShapeFields where
  expectedPrefixTokenCount : UInt32
  suffixTokenCount : UInt32
  outputTokenCapacity : UInt32
  inputTokenCount : UInt32
deriving DecidableEq, Repr

/-- The fields as the core fills them in. -/
def ShapeFields.ofCore (inputTokenCount prefixHitTokenCount outputTokenCapacity : UInt64) :
    ShapeFields :=
  { expectedPrefixTokenCount := prefixHitTokenCount.toUInt32
    suffixTokenCount := (inputTokenCount - prefixHitTokenCount).toUInt32
    outputTokenCapacity := outputTokenCapacity.toUInt32
    inputTokenCount := inputTokenCount.toUInt32 }

/-- The provider's test of the shape and of the room for the tail. -/
def providerShapeRefused (request : ShapeFields) : Arith Bool :=
  if ¬Layered.prefixSupported request.expectedPrefixTokenCount.toUInt64.toNat ∨
      request.suffixTokenCount = 0 ∨ request.suffixTokenCount > UInt32.ofNat maxSuffixTokens ∨
      request.outputTokenCapacity = 0 ∨
      request.outputTokenCapacity > UInt32.ofNat maxOutputTokens then
    return true
  else do
    let sum ← add32 request.expectedPrefixTokenCount request.suffixTokenCount
    if request.inputTokenCount ≠ sum then return true
    else do
      let last ← sub32 request.outputTokenCapacity 1
      let tail ← add64 request.suffixTokenCount.toUInt64 last.toUInt64
      return decide (tail > UInt64.ofNat maxTailTokens)

/-! ## The tests on numbers -/

theorem toNat_maxSuffixTokens : (UInt64.ofNat maxSuffixTokens).toNat = maxSuffixTokens := rfl

theorem toNat_maxOutputTokens : (UInt64.ofNat maxOutputTokens).toNat = maxOutputTokens := rfl

theorem toNat_maxTailTokens : (UInt64.ofNat maxTailTokens).toNat = maxTailTokens := rfl

/-- The room for the tail is not negative. -/
theorem maxOutputTokens_le_maxTailTokens : maxOutputTokens ≤ maxTailTokens := by decide

/-- The bridge's test is the one on numbers, and nothing wraps around. -/
theorem serverPrefixShapeSupported_yields (n p c : UInt64) :
    Arith.Yields (serverPrefixShapeSupported n p c)
      (Bridge.prefixShapeSupported n.toNat p.toNat c.toNat) := by
  unfold serverPrefixShapeSupported
  by_cases hle : p ≤ n
  · have hsub := UInt64.toNat_sub_of_le n p hle
    rw [if_pos hle]
    refine yields_bind (yields_sub64 n p hle) ?_
    dsimp only
    by_cases hshape : p > 0 ∧ p < n ∧ n - p ≤ UInt64.ofNat maxSuffixTokens ∧ c > 0 ∧
        c ≤ UInt64.ofNat maxOutputTokens
    · rw [if_pos hshape]
      rcases hshape with ⟨hcount, hmore, hsuffix, hpos, hfew⟩
      simp only [gt_iff_lt, UInt64.le_iff_toNat_le, UInt64.lt_iff_toNat_lt, hsub, UInt64.toNat_zero,
        toNat_maxSuffixTokens, toNat_maxOutputTokens] at hcount hmore hsuffix hpos hfew
      -- The output has a last token, and the room for the others is less than the tail.
      have hone : (1 : UInt64) ≤ c := UInt64.le_iff_toNat_le.mpr hpos
      have hlast : (c - 1).toNat = c.toNat - 1 := UInt64.toNat_sub_of_le c 1 hone
      have htail := maxOutputTokens_le_maxTailTokens
      have hroom : c - 1 ≤ UInt64.ofNat maxTailTokens := by
        rw [UInt64.le_iff_toNat_le, hlast, toNat_maxTailTokens]
        omega
      refine yields_bind (yields_sub64 c 1 hone) (yields_bind (yields_sub64 _ _ hroom) ?_)
      refine yields_pure_of_eq ?_
      rw [Bool.eq_iff_iff]
      simp only [Bridge.prefixShapeSupported, Bool.and_eq_true, decide_eq_true_eq,
        UInt64.le_iff_toNat_le, UInt64.toNat_sub_of_le _ _ hroom, hlast, hsub, toNat_maxTailTokens]
      omega
    · rw [if_neg hshape]
      refine yields_pure_of_eq ?_
      rw [eq_comm, Bool.eq_false_iff]
      intro haccept
      refine hshape ?_
      simp only [Bridge.prefixShapeSupported, Bool.and_eq_true, decide_eq_true_eq] at haccept
      simp only [gt_iff_lt, UInt64.le_iff_toNat_le, UInt64.lt_iff_toNat_lt, hsub, UInt64.toNat_zero,
        toNat_maxSuffixTokens, toNat_maxOutputTokens]
      omega
  · rw [if_neg hle]
    refine yields_bind (yields_pure _) ?_
    dsimp only
    have hless : n.toNat < p.toNat := by
      rw [UInt64.le_iff_toNat_le] at hle
      omega
    rw [if_neg fun h => absurd (UInt64.lt_iff_toNat_lt.mp h.2.1) (by omega)]
    refine yields_pure_of_eq ?_
    rw [eq_comm, Bool.eq_false_iff]
    intro haccept
    simp only [Bridge.prefixShapeSupported, Bool.and_eq_true, decide_eq_true_eq] at haccept
    omega

/-- The core's test on numbers. -/
theorem prefixShape_iff (input : List UInt32) (p c : Nat) :
    prefixShape input p c = true ↔
      0 < p ∧ p < input.length ∧ p ≤ 0xFFFFFFFF ∧ input.length - p ≤ maxSuffixTokens ∧ 0 < c ∧
        c ≤ maxOutputTokens ∧ input.length - p + c - 1 ≤ maxTailTokens := by
  unfold prefixShape
  simp only [Bool.and_eq_true, bne_iff_ne, ne_eq, decide_eq_true_eq, Nat.reducePow,
    Nat.reduceSub]
  constructor
  · rintro ⟨⟨⟨⟨⟨⟨⟨-, hp⟩, hlt⟩, h32⟩, hsuffix⟩, hc⟩, hfew⟩, htail⟩
    exact ⟨Nat.pos_of_ne_zero hp, hlt, h32, hsuffix, Nat.pos_of_ne_zero hc, hfew, htail⟩
  · rintro ⟨hp, hlt, h32, hsuffix, hc, hfew, htail⟩
    refine ⟨⟨⟨⟨⟨⟨⟨fun hnil => ?_, Nat.ne_of_gt hp⟩, hlt⟩, h32⟩, hsuffix⟩, Nat.ne_of_gt hc⟩,
      hfew⟩, htail⟩
    rw [hnil] at hlt
    exact absurd hlt (Nat.not_lt_zero p)

/-- The core's test is the one on numbers, and nothing wraps around. -/
theorem corePrefixShapeRefused_yields (input : List UInt32) (n p c : UInt64)
    (hlength : input.length = n.toNat) :
    Arith.Yields (corePrefixShapeRefused n p c) (!prefixShape input p.toNat c.toNat) := by
  unfold corePrefixShapeRefused
  by_cases hrefused : n = 0 ∨ p = 0 ∨ p ≥ n ∨ p > 0xFFFFFFFF
  · rw [if_pos hrefused]
    refine yields_pure_of_eq ?_
    rw [eq_comm, Bool.not_eq_true', ← Bool.not_eq_true, prefixShape_iff, hlength]
    simp only [ge_iff_le, gt_iff_lt, UInt64.le_iff_toNat_le, UInt64.lt_iff_toNat_lt,
      ← UInt64.toNat_inj, UInt64.toNat_zero] at hrefused
    rintro ⟨hp, hlt, h32, -⟩
    rcases hrefused with h | h | h | h
    · omega
    · omega
    · omega
    · exact absurd h (Nat.not_lt.mpr h32)
  · rw [if_neg hrefused]
    simp only [not_or, ge_iff_le, gt_iff_lt, UInt64.le_iff_toNat_le, UInt64.lt_iff_toNat_lt,
      ← UInt64.toNat_inj, UInt64.toNat_zero] at hrefused
    rcases hrefused with ⟨hn, hp, hlt, h32⟩
    have hle : p ≤ n := UInt64.le_iff_toNat_le.mpr (by omega)
    have hsub := UInt64.toNat_sub_of_le n p hle
    have h32' : p.toNat ≤ 0xFFFFFFFF := Nat.not_lt.mp h32
    refine yields_bind (yields_sub64 n p hle) ?_
    by_cases hlimits : n - p > UInt64.ofNat maxSuffixTokens ∨ c = 0 ∨
        c > UInt64.ofNat maxOutputTokens
    · rw [if_pos hlimits]
      refine yields_pure_of_eq ?_
      rw [eq_comm, Bool.not_eq_true', ← Bool.not_eq_true, prefixShape_iff, hlength]
      simp only [gt_iff_lt, UInt64.lt_iff_toNat_lt, ← UInt64.toNat_inj, UInt64.toNat_zero, hsub,
        toNat_maxSuffixTokens, toNat_maxOutputTokens] at hlimits
      omega
    · rw [if_neg hlimits]
      simp only [not_or, gt_iff_lt, UInt64.lt_iff_toNat_lt, ← UInt64.toNat_inj, UInt64.toNat_zero,
        hsub, toNat_maxSuffixTokens, toNat_maxOutputTokens] at hlimits
      rcases hlimits with ⟨hsuffix, hpos, hfew⟩
      -- The suffix and the output are short, so that their sum is far from the largest size.
      have hsmall : maxSuffixTokens + maxOutputTokens < 0x10000000000000000 := by decide
      have hroom : (n - p).toNat + c.toNat < 0x10000000000000000 := by omega
      have hsum : (n - p + c).toNat = n.toNat - p.toNat + c.toNat := by
        rw [UInt64.toNat_add, Nat.mod_eq_of_lt hroom, hsub]
      have hone : (1 : UInt64) ≤ n - p + c := by
        rw [UInt64.le_iff_toNat_le, hsum]
        show 1 ≤ _
        omega
      refine yields_bind (yields_sub64 n p hle) (yields_bind (yields_add64 _ c hroom)
        (yields_bind (yields_sub64 _ 1 hone) ?_))
      refine yields_pure_of_eq ?_
      rw [Bool.eq_iff_iff, decide_eq_true_iff, Bool.not_eq_true', ← Bool.not_eq_true,
        prefixShape_iff, hlength, gt_iff_lt, UInt64.lt_iff_toNat_lt,
        UInt64.toNat_sub_of_le _ _ hone, hsum, toNat_maxTailTokens, UInt64.toNat_one]
      omega

/-- The bridge's test on numbers. -/
theorem prefixShapeSupported_iff (n p c : Nat) :
    Bridge.prefixShapeSupported n p c = true ↔
      0 < p ∧ p < n ∧ n - p ≤ maxSuffixTokens ∧ 0 < c ∧ c ≤ maxOutputTokens ∧
        n - p + c - 1 ≤ maxTailTokens := by
  have htail := maxOutputTokens_le_maxTailTokens
  unfold Bridge.prefixShapeSupported
  simp only [Bool.and_eq_true, decide_eq_true_eq]
  omega

/-- The bridge and the core agree on a prefix that fits in 32 bits. -/
theorem prefixShapeSupported_eq (input : List UInt32) (p c : Nat) (h : p ≤ 0xFFFFFFFF) :
    Bridge.prefixShapeSupported input.length p c = prefixShape input p c := by
  rw [Bool.eq_iff_iff, prefixShapeSupported_iff, prefixShape_iff]
  constructor
  · rintro ⟨hp, hlt, hsuffix, hc, hfew, htail⟩
    exact ⟨hp, hlt, h, hsuffix, hc, hfew, htail⟩
  · rintro ⟨hp, hlt, -, hsuffix, hc, hfew, htail⟩
    exact ⟨hp, hlt, hsuffix, hc, hfew, htail⟩

/-- The core refuses what the bridge does not select. -/
theorem corePrefixShapeRefused_yields_not (n p c : UInt64) (h32 : p.toNat ≤ 0xFFFFFFFF) :
    Arith.Yields (corePrefixShapeRefused n p c)
      (!Bridge.prefixShapeSupported n.toNat p.toNat c.toNat) := by
  have hlength : (List.replicate n.toNat (0 : UInt32)).length = n.toNat := List.length_replicate
  have hcore := corePrefixShapeRefused_yields _ n p c hlength
  rwa [← prefixShapeSupported_eq _ _ _ h32, hlength] at hcore

/-- The provider's test of a shape the bridge selects: nothing wraps around, and it is refused
    exactly if the prefix is longer than the positions of the model. -/
theorem providerShapeRefused_yields (n p c : UInt64) (h32 : p.toNat ≤ 0xFFFFFFFF)
    (haccept : Bridge.prefixShapeSupported n.toNat p.toNat c.toNat = true) :
    Arith.Yields (providerShapeRefused (ShapeFields.ofCore n p c))
      (decide (maxPositionEmbeddings < p.toNat)) := by
  rcases (prefixShapeSupported_iff _ _ _).mp haccept with ⟨hp, hlt, hsuffix, hc, hfew, htail⟩
  have hsub := UInt64.toNat_sub_of_le n p (UInt64.le_iff_toNat_le.mpr (by omega))
  -- What the fields hold: they are narrower, but the numbers fit.
  have hlimits : maxSuffixTokens < 0x100000000 ∧ maxOutputTokens < 0x100000000 ∧
      maxPositionEmbeddings + maxSuffixTokens < 0x100000000 := by decide
  have hcount32 : p.toUInt32.toNat = p.toNat := by
    rw [UInt64.toNat_toUInt32]
    exact Nat.mod_eq_of_lt (by omega)
  have hsuffix32 : (n - p).toUInt32.toNat = n.toNat - p.toNat := by
    rw [UInt64.toNat_toUInt32, hsub]
    exact Nat.mod_eq_of_lt (by omega)
  have hcapacity32 : c.toUInt32.toNat = c.toNat := by
    rw [UInt64.toNat_toUInt32]
    exact Nat.mod_eq_of_lt (by omega)
  unfold providerShapeRefused ShapeFields.ofCore
  dsimp only
  by_cases hlong : maxPositionEmbeddings < p.toNat
  · have hrefused : ¬Layered.prefixSupported p.toUInt32.toUInt64.toNat = true := by
      unfold Layered.prefixSupported
      rw [UInt32.toNat_toUInt64, hcount32, Bool.and_eq_true, decide_eq_true_eq, decide_eq_true_eq]
      omega
    rw [if_pos (.inl hrefused)]
    exact yields_pure_of_eq (decide_eq_true hlong).symm
  · have hpassed : ¬(¬Layered.prefixSupported p.toUInt32.toUInt64.toNat = true ∨
        (n - p).toUInt32 = 0 ∨ (n - p).toUInt32 > UInt32.ofNat maxSuffixTokens ∨
        c.toUInt32 = 0 ∨ c.toUInt32 > UInt32.ofNat maxOutputTokens) := by
      unfold Layered.prefixSupported
      rw [UInt32.toNat_toUInt64, hcount32, Bool.and_eq_true, decide_eq_true_eq, decide_eq_true_eq]
      simp only [gt_iff_lt, UInt32.lt_iff_toNat_lt, ← UInt32.toNat_inj, UInt32.toNat_zero,
        hsuffix32, hcapacity32, show (UInt32.ofNat maxSuffixTokens).toNat = maxSuffixTokens from rfl,
        show (UInt32.ofNat maxOutputTokens).toNat = maxOutputTokens from rfl]
      omega
    have hroom : p.toUInt32.toNat + (n - p).toUInt32.toNat < 0x100000000 := by
      rw [hcount32, hsuffix32]
      omega
    have hsum : n.toUInt32 = p.toUInt32 + (n - p).toUInt32 := by
      rw [← UInt32.toNat_inj, UInt32.toNat_add, Nat.mod_eq_of_lt hroom, hcount32, hsuffix32,
        UInt64.toNat_toUInt32, Nat.mod_eq_of_lt (by omega)]
      omega
    have hone : (1 : UInt32) ≤ c.toUInt32 := by
      rw [UInt32.le_iff_toNat_le, hcapacity32]
      exact hc
    have hlast : (c.toUInt32 - 1).toUInt64.toNat = c.toNat - 1 := by
      rw [UInt32.toNat_toUInt64, UInt32.toNat_sub_of_le _ _ hone, hcapacity32, UInt32.toNat_one]
    have htail64 : (n - p).toUInt32.toUInt64.toNat + (c.toUInt32 - 1).toUInt64.toNat <
        0x10000000000000000 := by
      rw [hlast, UInt32.toNat_toUInt64, hsuffix32]
      omega
    rw [if_neg hpassed]
    refine yields_bind (yields_add32 _ _ hroom) ?_
    rw [if_neg (not_not_intro hsum)]
    refine yields_bind (yields_sub32 _ 1 hone) (yields_bind (yields_add64 _ _ htail64) ?_)
    refine yields_pure_of_eq ?_
    rw [decide_eq_false hlong, decide_eq_false_iff_not, gt_iff_lt, UInt64.lt_iff_toNat_lt,
      UInt64.toNat_add, Nat.mod_eq_of_lt htail64, hlast, UInt32.toNat_toUInt64, hsuffix32,
      toNat_maxTailTokens]
    omega

/-- The three tests, for all sizes of which the prefix fits in 32 bits: the bridge accepts what the
    core does not refuse, nothing wraps around in either test, and the provider refuses what was
    accepted exactly if the prefix is longer than the positions of the model. -/
theorem prefixShape_agree (inputTokenCount prefixTokenCount outputTokenCapacity : UInt64)
    (h : prefixTokenCount ≤ 0xFFFFFFFF) :
    ∃ accepted,
      Arith.Yields (serverPrefixShapeSupported inputTokenCount prefixTokenCount outputTokenCapacity)
        accepted ∧
      Arith.Yields (corePrefixShapeRefused inputTokenCount prefixTokenCount outputTokenCapacity)
        (!accepted) ∧
      (accepted = true →
        Arith.Yields (providerShapeRefused
            (ShapeFields.ofCore inputTokenCount prefixTokenCount outputTokenCapacity))
          (decide (maxPositionEmbeddings < prefixTokenCount.toNat))) := by
  have h32 : prefixTokenCount.toNat ≤ 0xFFFFFFFF := UInt64.le_iff_toNat_le.mp h
  exact ⟨_, serverPrefixShapeSupported_yields _ _ _, corePrefixShapeRefused_yields_not _ _ _ h32,
    providerShapeRefused_yields _ _ _ h32⟩

/-- The longest suffix after the longest prefix, with the longest output, is refused nowhere. -/
theorem prefixShape_limits_agree :
    Arith.Yields (serverPrefixShapeSupported 263168 262144 512) true ∧
      Arith.Yields (corePrefixShapeRefused 263168 262144 512) false ∧
      Arith.Yields (providerShapeRefused (ShapeFields.ofCore 263168 262144 512)) false := by
  rcases prefixShape_agree 263168 262144 512 (by decide) with
    ⟨accepted, hserver, hcore, hprovider⟩
  have haccepted : accepted = true :=
    hserver.unique (serverPrefixShapeSupported_yields 263168 262144 512)
  rw [haccepted] at hserver hcore hprovider
  exact ⟨hserver, hcore, hprovider rfl⟩

/-- A prefix one longer than the positions of the model: the bridge selects it, the core does not
    refuse it, and the provider does. -/
theorem prefixShape_provider_refuses :
    Arith.Yields (serverPrefixShapeSupported 262146 262145 1) true ∧
      Arith.Yields (corePrefixShapeRefused 262146 262145 1) false ∧
      Arith.Yields (providerShapeRefused (ShapeFields.ofCore 262146 262145 1)) true :=
  ⟨serverPrefixShapeSupported_yields 262146 262145 1,
    corePrefixShapeRefused_yields_not 262146 262145 1 (by decide),
    providerShapeRefused_yields 262146 262145 1 (by decide) (by decide)⟩

end PrefixShape

end QrtEngine
