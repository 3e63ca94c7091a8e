import QrtEngine.Library.Segments
import Mathlib.Data.List.Basic
import Mathlib.Tactic.Ring

/-!
# Tiles of the Selected Experts

The provider runs the selected experts of a prefill in tiles. A tile has a capacity that one of the
loaded kernels is compiled for. Full tiles have one capacity; a tail is rounded up to it or, with
smooth tails, cut into transactions: a tail of at most 16 tokens is run directly, and any other is
one rounded power of two, two of them, or a binary combination.

Five prefill lengths, those near the largest contexts, are streamed in BF16 through the same tiles
by a loop of its own, which always loads the kernel for tiles of 8192 rows.

## Main definitions

* `Flags`: The settings that the plan depends on.
* `tailTransactions`: The transactions of a smooth tail.
* `Tile`, `tiles`: The tiles of a prefill, with their kernels and streams.
* `mainProviderRequired`, `smoothTailProviderUsed`: The kernels that are loaded.
* `mainProviderTileTokens`: The tiles that the kernel for full tiles is compiled for.

## Theorems

* `transactions_plan`: The transactions cover the tail, and only the last has padding.
* `tiles_covers`, `tiles_full`: The tiles cover the prefill, and only the last has padding.
* `tile_loaded`: Each tile has a loaded kernel of its capacity.
* `lane_kernel`: A tile on the parallel lane has another kernel than those beside it.
* `tile_scratch`: A tile with padding is in the scratch surfaces.
-/

namespace QrtEngine

namespace SmoothTail

open Segments

/-! ## The settings -/

/-- The settings that the tiles depend on: whether the exact path is on for the prefill, and the
    flags of the environment. -/
structure Flags where
  exactArbitraryProductPath : Bool
  forceQ1024MoeProvider : Bool
  smoothTailMoeProvider : Bool
  q1024MoeProvider : Bool
  singleCeilProvider : Bool
  boundedTransactions : Bool
  parallelBase : Bool
  parallelTransactions : Bool
  profileMoeSubphases : Bool

/-- `kRetainedPrefillTokens`: the rows of the largest tiles. -/
def retainedPrefillTokens : Nat := 8192

/-- `kSmallProviderTileTokens`. -/
def smallProviderTileTokens : Nat := 1024

/-- `kSmoothTailTokenQuantum`. -/
def smoothTailTokenQuantum : Nat := 32

/-- `maximum_context_streamed_prefill_tokens`: the lengths that are streamed in BF16. -/
def maximumContextStreamedPrefillTokens (prefillTokens : Nat) : Bool :=
  prefillTokens == 129536 || prefillTokens == 131072 || prefillTokens == 131073 ||
    prefillTokens == 262143 || prefillTokens == 262144

section Settings

variable (flags : Flags) (prefillTokens : Nat)

/-- `smooth_tail_route_requested`. -/
def smoothTailRouteRequested : Bool :=
  flags.exactArbitraryProductPath && !flags.forceQ1024MoeProvider &&
    !maximumContextStreamedPrefillTokens prefillTokens && flags.smoothTailMoeProvider

/-- `exact_arbitrary_q8192_moe`: the exact path takes the largest tiles. -/
def exactArbitraryQ8192Moe : Bool :=
  flags.exactArbitraryProductPath &&
    (decide (4096 ≤ prefillTokens) || smoothTailRouteRequested flags prefillTokens) &&
    !flags.forceQ1024MoeProvider

/-- `exact_arbitrary_q1024_moe`: it takes the small ones. -/
def exactArbitraryQ1024Moe : Bool :=
  flags.exactArbitraryProductPath && !exactArbitraryQ8192Moe flags prefillTokens &&
    flags.q1024MoeProvider

/-- `provider_tile_tokens`: the rows of a full tile. -/
def providerTileTokens : Nat :=
  if exactArbitraryQ1024Moe flags prefillTokens then smallProviderTileTokens
  else retainedPrefillTokens

/-- `provider_full_tile_count`. -/
def providerFullTileCount : Nat := prefillTokens / providerTileTokens flags prefillTokens

/-- `provider_tail_tokens`: the rows behind the full tiles. -/
def providerTailTokens : Nat := prefillTokens % providerTileTokens flags prefillTokens

/-- `smooth_tail_moe`: the tail is cut into transactions. -/
def smoothTailMoe : Bool :=
  exactArbitraryQ8192Moe flags prefillTokens && providerTailTokens flags prefillTokens != 0 &&
    smoothTailRouteRequested flags prefillTokens

end Settings

/-! ## The transactions -/

/-- `SmoothTailMoeTransaction`: a part of the tail, and the tokens that it is rounded up to. -/
structure Transaction where
  logicalOffset : Nat
  logicalTokens : Nat
  capacityTokens : Nat
  directM16 : Bool
deriving DecidableEq

/-- `while (capacity < tokens) capacity *= 2`. -/
def ceilCapacity (capacity tokens : Nat) : Nat :=
  if 0 < capacity ∧ capacity < tokens then ceilCapacity (capacity * 2) tokens else capacity
termination_by tokens - capacity

/-- `while (capacity * 2 <= tokens) capacity *= 2`. -/
def floorCapacity (capacity tokens : Nat) : Nat :=
  if 0 < capacity ∧ capacity * 2 ≤ tokens then floorCapacity (capacity * 2) tokens else capacity
termination_by tokens - capacity

/-- The capacity of what is left behind the first of two transactions. -/
def secondCapacity (tokens : Nat) : Nat :=
  if tokens ≤ 16 then ceilCapacity tokens tokens else ceilCapacity smoothTailTokenQuantum tokens

/-- `use_two_transactions`: two have less padding than one, or as much beside full tiles. -/
def useTwoTransactions (flags : Flags) (fullTileCount tileTokens tailTokens : Nat) : Bool :=
  let single := ceilCapacity smoothTailTokenQuantum tailTokens
  let first := floorCapacity smoothTailTokenQuantum tailTokens
  let second := tailTokens - first
  flags.boundedTransactions && decide (smoothTailTokenQuantum < tailTokens) && second != 0 &&
    (decide (first + secondCapacity second < single) ||
      flags.parallelBase && fullTileCount != 0 && single == tileTokens &&
        first + secondCapacity second == single)

/-- One transaction, rounded up. -/
def singleTransaction (tailTokens : Nat) : List Transaction :=
  [{ logicalOffset := 0
     logicalTokens := tailTokens
     capacityTokens := ceilCapacity smoothTailTokenQuantum tailTokens
     directM16 := false }]

/-- Two transactions, the first without padding. -/
def twoTransactions (tailTokens : Nat) : List Transaction :=
  let first := floorCapacity smoothTailTokenQuantum tailTokens
  [{ logicalOffset := 0, logicalTokens := first, capacityTokens := first, directM16 := false },
   { logicalOffset := first
     logicalTokens := tailTokens - first
     capacityTokens := secondCapacity (tailTokens - first)
     directM16 := decide (tailTokens - first ≤ 16) }]

/-- A binary combination as far as the loop has come. -/
structure Combination where
  transactions : List Transaction
  remainingCapacity : Nat
  remainingLogical : Nat
  logicalOffset : Nat

/-- One capacity of the loop: it is taken if what is left has room for it. -/
def combinationStep (c : Combination) (capacityTokens : Nat) : Combination :=
  if c.remainingCapacity < capacityTokens then c
  else
    { transactions := c.transactions ++
        [{ logicalOffset := c.logicalOffset
           logicalTokens := min capacityTokens c.remainingLogical
           capacityTokens := capacityTokens
           directM16 := false }]
      remainingCapacity := c.remainingCapacity - capacityTokens
      remainingLogical := c.remainingLogical - min capacityTokens c.remainingLogical
      logicalOffset := c.logicalOffset + min capacityTokens c.remainingLogical }

/-- `kSmoothTailTransactionTokenCounts`. -/
def transactionTokenCounts : List Nat := [8192, 4096, 2048, 1024, 512, 256, 128, 64, 32]

/-- `smooth_tail_rounded_tokens`: the tail rounded up to the quantum. -/
def roundedTokens (tailTokens : Nat) : Nat :=
  (tailTokens + smoothTailTokenQuantum - 1) / smoothTailTokenQuantum * smoothTailTokenQuantum

/-- The combination before the loop. -/
def Combination.start (tailTokens : Nat) : Combination :=
  { transactions := []
    remainingCapacity := roundedTokens tailTokens
    remainingLogical := tailTokens
    logicalOffset := 0 }

/-- The combination behind the loop over the capacities. -/
def combination (tailTokens : Nat) : Combination :=
  transactionTokenCounts.foldl combinationStep (Combination.start tailTokens)

/-- The transactions of a tail. -/
def tailTransactions (flags : Flags) (fullTileCount tileTokens tailTokens : Nat) :
    List Transaction :=
  if tailTokens ≤ 16 then
    [{ logicalOffset := 0
       logicalTokens := tailTokens
       capacityTokens := tailTokens
       directM16 := true }]
  else if flags.singleCeilProvider || flags.boundedTransactions then
    if useTwoTransactions flags fullTileCount tileTokens tailTokens then twoTransactions tailTokens
    else singleTransaction tailTokens
  else (combination tailTokens).transactions

/-- `smooth_tail_transactions`: the transactions of a prefill. -/
def smoothTailTransactions (flags : Flags) (prefillTokens : Nat) : List Transaction :=
  if smoothTailMoe flags prefillTokens then
    tailTransactions flags (providerFullTileCount flags prefillTokens)
      (providerTileTokens flags prefillTokens) (providerTailTokens flags prefillTokens)
  else []

/-! ## The tiles -/

/-- A kernel: the one for full tiles, one of those for smaller tiles, or the direct path. -/
inductive Kernel
  | main
  | smoothTail (index : Nat)
  | directM16
deriving DecidableEq

/-- `kSmoothTailMoeProviderTokenCounts`: the tiles of the smaller kernels. -/
def smoothTailMoeProviderTokenCounts : List Nat := [32, 64, 128, 256, 512, 1024, 2048, 4096]

/-- `smooth_tail_moe_provider_index`. -/
def smoothTailMoeProviderIndex (tileTokens : Nat) : Option Nat :=
  smoothTailMoeProviderTokenCounts.findIdx? fun tokens => tokens == tileTokens

/-- A tile: its rows, what it is rounded up to, whether it is on the stream of the parallel lane,
    and its kernel. -/
structure Tile where
  logicalIndex : Nat
  logicalTokens : Nat
  capacityTokens : Nat
  lane : Bool
  kernel : Kernel

section Tiles

variable (flags : Flags) (prefillTokens : Nat)

/-- `provider_tile_count`. -/
def providerTileCount : Nat :=
  if smoothTailMoe flags prefillTokens then
    providerFullTileCount flags prefillTokens + (smoothTailTransactions flags prefillTokens).length
  else
    (prefillTokens + providerTileTokens flags prefillTokens - 1) /
      providerTileTokens flags prefillTokens

/-- `smooth_tail_base_provider_alias`: a transaction takes the kernel of the full tiles. -/
def smoothTailBaseProviderAlias : Bool :=
  (smoothTailTransactions flags prefillTokens).any fun t =>
    !t.directM16 && t.capacityTokens == providerTileTokens flags prefillTokens

/-- `main_provider_required`: the kernel for full tiles is loaded. The streamed lengths have no
    smooth tail and load it as well. -/
def mainProviderRequired : Bool :=
  !smoothTailMoe flags prefillTokens || providerFullTileCount flags prefillTokens != 0 ||
    (smoothTailTransactions flags prefillTokens).any fun t =>
      !t.directM16 && t.capacityTokens == retainedPrefillTokens

/-- The rows of the tiles that the loaded kernel for full tiles is compiled for. The streamed
    lengths load the one for the largest tiles whatever the tiles are. -/
def mainProviderTileTokens : Nat :=
  if maximumContextStreamedPrefillTokens prefillTokens then retainedPrefillTokens
  else if exactArbitraryQ1024Moe flags prefillTokens then smallProviderTileTokens
  else retainedPrefillTokens

/-- No transaction is refused because there is no kernel of its capacity. -/
def smoothTailShapeSupported : Bool :=
  (smoothTailTransactions flags prefillTokens).all fun t =>
    t.directM16 || t.capacityTokens == retainedPrefillTokens ||
      (smoothTailMoeProviderIndex t.capacityTokens).isSome

/-- `smooth_tail_provider_used`: the smaller kernel of this index is loaded. -/
def smoothTailProviderUsed (index : Nat) : Bool :=
  (smoothTailTransactions flags prefillTokens).any fun t =>
    !t.directM16 && t.capacityTokens != retainedPrefillTokens &&
      smoothTailMoeProviderIndex t.capacityTokens == some index

/-- `use_smooth_tail_parallel_base`: the tail runs beside the full tiles. -/
def useSmoothTailParallelBase : Bool :=
  flags.parallelBase && smoothTailMoe flags prefillTokens &&
    providerFullTileCount flags prefillTokens != 0 &&
    (smoothTailTransactions flags prefillTokens).length != 0 &&
    !smoothTailBaseProviderAlias flags prefillTokens && !flags.profileMoeSubphases

/-- `use_smooth_tail_parallel_transactions`: two transactions run beside each other. -/
def useSmoothTailParallelTransactions : Bool :=
  flags.parallelTransactions && smoothTailMoe flags prefillTokens &&
    providerFullTileCount flags prefillTokens == 0 &&
    (match smoothTailTransactions flags prefillTokens with
    | [first, second] =>
        !first.directM16 && !second.directM16 && first.capacityTokens != second.capacityTokens
    | _ => false) &&
    !flags.profileMoeSubphases

/-- The rows of the scratch surfaces. The streamed lengths keep a tile of F32 rows in the workspace
    of the projections. -/
def tailScratchTileTokens : Nat :=
  if maximumContextStreamedPrefillTokens prefillTokens then
    providerTileTokens flags prefillTokens
  else if smoothTailMoe flags prefillTokens then
    (smoothTailTransactions flags prefillTokens).foldl
      (fun tokens t =>
        if t.logicalTokens ≠ t.capacityTokens then max tokens t.capacityTokens else tokens) 0
  else if providerTailTokens flags prefillTokens ≠ 0 then providerTileTokens flags prefillTokens
  else 0

/-- A tile of the loop that is no transaction. -/
def wholeTile (index : Nat) : Tile :=
  { logicalIndex := index * providerTileTokens flags prefillTokens
    logicalTokens := min (providerTileTokens flags prefillTokens)
      (prefillTokens - index * providerTileTokens flags prefillTokens)
    capacityTokens := providerTileTokens flags prefillTokens
    lane := false
    kernel := .main }

/-- The kernel of a transaction: the direct path, the one for full tiles, or a smaller one. -/
def transactionKernel (t : Transaction) : Kernel :=
  if t.directM16 then .directM16
  else if t.capacityTokens = retainedPrefillTokens then .main
  else
    match smoothTailMoeProviderIndex t.capacityTokens with
    | some index => .smoothTail index
    | none => .main

/-- The tile of a transaction. -/
def transactionTile (index : Nat) (t : Transaction) : Tile :=
  { logicalIndex :=
      providerFullTileCount flags prefillTokens * providerTileTokens flags prefillTokens +
        t.logicalOffset
    logicalTokens := t.logicalTokens
    capacityTokens := t.capacityTokens
    lane := useSmoothTailParallelBase flags prefillTokens ||
      (useSmoothTailParallelTransactions flags prefillTokens && index == 1)
    kernel := transactionKernel t }

/-- The tiles in the order of the loop. -/
def tiles : List Tile :=
  if smoothTailMoe flags prefillTokens then
    (List.range (providerFullTileCount flags prefillTokens)).map (wholeTile flags prefillTokens) ++
      (smoothTailTransactions flags prefillTokens).mapIdx (transactionTile flags prefillTokens)
  else
    (List.range (providerTileCount flags prefillTokens)).map (wholeTile flags prefillTokens)

/-- The kernel of a tile has been loaded, and takes a tile of this capacity. -/
def Tile.Loaded (tile : Tile) : Prop :=
  match tile.kernel with
  | .main => mainProviderRequired flags prefillTokens = true ∧
      tile.capacityTokens = mainProviderTileTokens flags prefillTokens
  | .smoothTail index => smoothTailProviderUsed flags prefillTokens index = true ∧
      smoothTailMoeProviderTokenCounts[index]? = some tile.capacityTokens
  | .directM16 => tile.logicalTokens = tile.capacityTokens ∧ tile.capacityTokens ≤ 16

end Tiles

/-! ## The tail -/

/-- Transactions that run a tail: they cover it, only the last may have padding, and each is small
    enough to be run directly or has the capacity of a kernel. -/
structure Plan (tailTokens : Nat) (transactions : List Transaction) : Prop where
  covers : Covers Transaction.logicalOffset Transaction.logicalTokens 0 transactions tailTokens
  tokens : ∀ t ∈ transactions, 0 < t.logicalTokens ∧ t.logicalTokens ≤ t.capacityTokens
  full : transactions.Pairwise fun t _ => t.logicalTokens = t.capacityTokens
  direct : ∀ t ∈ transactions, t.directM16 = true →
    t.logicalTokens = t.capacityTokens ∧ t.capacityTokens ≤ 16
  capacity : ∀ t ∈ transactions, t.directM16 = false → ∃ i, i ≤ 8 ∧ t.capacityTokens = 32 * 2 ^ i
  few : transactions.length ≤ 9

theorem ceilCapacity_spec (capacity tokens : Nat) (h : 0 < capacity) :
    ∃ k, ceilCapacity capacity tokens = capacity * 2 ^ k ∧ tokens ≤ capacity * 2 ^ k ∧
      (k = 0 ∨ capacity * 2 ^ k < 2 * tokens) := by
  fun_induction ceilCapacity capacity tokens with
  | case1 capacity hless ih =>
      obtain ⟨k, heq, hceil, hfloor⟩ := ih (by omega)
      have hpow : capacity * 2 * 2 ^ k = capacity * 2 ^ (k + 1) := by ring
      refine ⟨k + 1, by rw [heq, hpow], by rw [← hpow]; exact hceil, Or.inr ?_⟩
      rcases hfloor with rfl | hfloor
      · omega
      · rw [← hpow]
        exact hfloor
  | case2 capacity hless =>
      refine ⟨0, ?_, ?_, Or.inl rfl⟩ <;> omega

theorem floorCapacity_spec (capacity tokens : Nat) (h : capacity ≤ tokens) :
    ∃ k, floorCapacity capacity tokens = capacity * 2 ^ k ∧ capacity * 2 ^ k ≤ tokens := by
  fun_induction floorCapacity capacity tokens with
  | case1 capacity hless ih =>
      obtain ⟨k, heq, hle⟩ := ih (by omega)
      have hpow : capacity * 2 * 2 ^ k = capacity * 2 ^ (k + 1) := by ring
      exact ⟨k + 1, by rw [heq, hpow], by rw [← hpow]; exact hle⟩
  | case2 capacity hless => exact ⟨0, by omega, by omega⟩

/-- A power of two times the quantum has a kernel if it is less than twice the largest. -/
theorem exponent_le {k n : Nat} (h : 32 * 2 ^ k < 32 * 2 ^ (n + 1)) : k ≤ n := by
  have hpow : 2 ^ k < 2 ^ (n + 1) := by omega
  exact Nat.lt_succ_iff.mp ((Nat.pow_lt_pow_iff_right (by omega)).mp hpow)

/-- A tail rounded up has the capacity of a kernel. -/
theorem ceilCapacity_quantum {tokens : Nat} (h : tokens < 8192) :
    ∃ k, k ≤ 8 ∧ ceilCapacity smoothTailTokenQuantum tokens = 32 * 2 ^ k ∧
      tokens ≤ 32 * 2 ^ k := by
  obtain ⟨k, heq, hceil, hfloor⟩ := ceilCapacity_spec 32 tokens (by omega)
  refine ⟨k, ?_, heq, hceil⟩
  rcases hfloor with rfl | hfloor
  · omega
  · exact exponent_le (n := 8) (by omega)

theorem ceilCapacity_self (tokens : Nat) : ceilCapacity tokens tokens = tokens := by
  rw [ceilCapacity, if_neg (by omega)]

theorem singleTransaction_plan {tailTokens : Nat} (hpos : 0 < tailTokens)
    (h : tailTokens < 8192) : Plan tailTokens (singleTransaction tailTokens) := by
  obtain ⟨k, hk, heq, hceil⟩ := ceilCapacity_quantum h
  unfold singleTransaction
  refine ⟨⟨rfl, Nat.zero_add _⟩, ?_, List.pairwise_singleton .., ?_, ?_, by simp⟩
  · intro t ht
    rw [List.mem_singleton] at ht
    subst ht
    exact ⟨hpos, by rw [heq]; exact hceil⟩
  · intro t ht hdirect
    rw [List.mem_singleton] at ht
    subst ht
    cases hdirect
  · intro t ht _
    rw [List.mem_singleton] at ht
    subst ht
    exact ⟨k, hk, heq⟩

theorem twoTransactions_plan {tailTokens : Nat} (hquantum : 32 ≤ tailTokens)
    (h : tailTokens < 8192)
    (hsecond : tailTokens - floorCapacity smoothTailTokenQuantum tailTokens ≠ 0) :
    Plan tailTokens (twoTransactions tailTokens) := by
  obtain ⟨k, heq, hle⟩ := floorCapacity_spec 32 tailTokens hquantum
  have hk : k ≤ 7 := exponent_le (by omega)
  have hfloor : floorCapacity smoothTailTokenQuantum tailTokens = 32 * 2 ^ k := heq
  have hpow : 0 < 2 ^ k := Nat.two_pow_pos k
  obtain ⟨j, hj, hceil, hroom⟩ :=
    @ceilCapacity_quantum (tailTokens - 32 * 2 ^ k) (by omega)
  rw [hfloor] at hsecond
  unfold twoTransactions
  rw [hfloor]
  refine ⟨⟨rfl, (Nat.zero_add _).symm, ?_⟩, ?_, ?_, ?_, ?_, by simp⟩
  · show 0 + 32 * 2 ^ k + (tailTokens - 32 * 2 ^ k) = tailTokens
    omega
  · intro t ht
    simp only [List.mem_cons, List.not_mem_nil, or_false] at ht
    rcases ht with rfl | rfl
    · exact ⟨by dsimp only; omega, Nat.le_refl _⟩
    · refine ⟨by dsimp only; omega, ?_⟩
      dsimp only [secondCapacity]
      by_cases hdirect : tailTokens - 32 * 2 ^ k ≤ 16
      · rw [if_pos hdirect, ceilCapacity_self]
      · rw [if_neg hdirect, hceil]
        exact hroom
  · simp
  · intro t ht hdirect
    simp only [List.mem_cons, List.not_mem_nil, or_false] at ht
    rcases ht with rfl | rfl
    · cases hdirect
    · have hsmall : tailTokens - 32 * 2 ^ k ≤ 16 := of_decide_eq_true hdirect
      show _ = secondCapacity _ ∧ secondCapacity _ ≤ 16
      unfold secondCapacity
      rw [if_pos hsmall, ceilCapacity_self]
      exact ⟨rfl, hsmall⟩
  · intro t ht hdirect
    simp only [List.mem_cons, List.not_mem_nil, or_false] at ht
    rcases ht with rfl | rfl
    · exact ⟨k, by omega, rfl⟩
    · have hlarge : ¬ tailTokens - 32 * 2 ^ k ≤ 16 := of_decide_eq_false hdirect
      refine ⟨j, hj, ?_⟩
      show secondCapacity _ = _
      unfold secondCapacity
      rw [if_neg hlarge]
      exact hceil

/-! ## The binary combination -/

/-- A combination so far: what is left is less than a bound, and its padding less than the
    quantum. -/
structure Combining (tailTokens bound : Nat) (c : Combination) : Prop where
  covers : Covers Transaction.logicalOffset Transaction.logicalTokens 0 c.transactions
    c.logicalOffset
  rest : c.logicalOffset + c.remainingLogical = tailTokens
  padding : c.remainingLogical ≤ c.remainingCapacity ∧
    c.remainingCapacity < c.remainingLogical + 32
  quantum : 32 ∣ c.remainingCapacity
  below : c.remainingCapacity < bound
  tokens : ∀ t ∈ c.transactions, 0 < t.logicalTokens ∧ t.logicalTokens ≤ t.capacityTokens
  full : c.transactions.Pairwise fun t _ => t.logicalTokens = t.capacityTokens
  padded : c.remainingCapacity = 0 ∨
    ∀ t ∈ c.transactions, t.logicalTokens = t.capacityTokens
  capacity : ∀ t ∈ c.transactions, t.directM16 = false ∧
    ∃ i, i ≤ 8 ∧ t.capacityTokens = 32 * 2 ^ i

/-- A capacity that is in what is left is taken once. -/
theorem Combining.step {tailTokens i : Nat} {c : Combination} (hi : i ≤ 8)
    (h : Combining tailTokens (32 * 2 ^ (i + 1)) c) :
    Combining tailTokens (32 * 2 ^ i) (combinationStep c (32 * 2 ^ i)) := by
  have hpow : 2 ^ (i + 1) = 2 * 2 ^ i := by ring
  have hbelow := h.below
  rw [hpow] at hbelow
  unfold combinationStep
  by_cases hless : c.remainingCapacity < 32 * 2 ^ i
  · rw [if_pos hless]
    exact { h with below := hless }
  · rw [if_neg hless]
    have hone : 0 < 2 ^ i := Nat.two_pow_pos i
    obtain ⟨hlogical, hpadding⟩ := h.padding
    obtain ⟨m, hm⟩ := h.quantum
    have hrest := h.rest
    have hnonempty : c.remainingCapacity ≠ 0 := by omega
    have hfull : ∀ t ∈ c.transactions, t.logicalTokens = t.capacityTokens :=
      h.padded.resolve_left hnonempty
    -- A transaction has padding only if nothing is left behind it.
    have hlast : c.remainingCapacity - 32 * 2 ^ i = 0 ∨ 32 * 2 ^ i ≤ c.remainingLogical := by
      omega
    refine ⟨?_, ?_, ?_, ?_, ?_, ?_, ?_, ?_, ?_⟩
    · exact covers_append h.covers ⟨rfl, rfl⟩
    · show c.logicalOffset + min _ _ + (c.remainingLogical - min _ _) = tailTokens
      omega
    · show c.remainingLogical - min _ _ ≤ c.remainingCapacity - _ ∧
        c.remainingCapacity - _ < c.remainingLogical - min _ _ + 32
      omega
    · exact ⟨m - 2 ^ i, by show c.remainingCapacity - _ = _; omega⟩
    · show c.remainingCapacity - _ < _
      omega
    · intro t ht
      rcases List.mem_append.mp ht with ht | ht
      · exact h.tokens t ht
      · rw [List.mem_singleton] at ht
        subst ht
        exact ⟨by show 0 < min _ _; omega, Nat.min_le_left _ _⟩
    · refine List.pairwise_append.mpr ⟨h.full, List.pairwise_singleton .., ?_⟩
      exact fun t ht _ _ => hfull t ht
    · refine hlast.imp_right fun hroom t ht => ?_
      rcases List.mem_append.mp ht with ht | ht
      · exact hfull t ht
      · rw [List.mem_singleton] at ht
        subst ht
        exact Nat.min_eq_left hroom
    · intro t ht
      rcases List.mem_append.mp ht with ht | ht
      · exact h.capacity t ht
      · rw [List.mem_singleton] at ht
        subst ht
        exact ⟨rfl, i, hi, rfl⟩

theorem length_combinationStep (c : Combination) (capacityTokens : Nat) :
    (combinationStep c capacityTokens).transactions.length ≤ c.transactions.length + 1 := by
  unfold combinationStep
  split_ifs <;> simp

theorem Combining.run {tailTokens : Nat} (n : Nat) (hn : n ≤ 9) (c : Combination)
    (h : Combining tailTokens (32 * 2 ^ n) c) :
    let last := ((List.range n).reverse.map fun i => 32 * 2 ^ i).foldl combinationStep c
    Combining tailTokens 32 last ∧ last.transactions.length ≤ c.transactions.length + n := by
  induction n generalizing c with
  | zero => exact ⟨by simpa using h, Nat.le_refl _⟩
  | succ n ih =>
      rw [List.range_succ, List.reverse_append, List.reverse_singleton, List.singleton_append,
        List.map_cons, List.foldl_cons]
      obtain ⟨hlast, hlength⟩ := ih (by omega) _ (h.step (by omega))
      refine ⟨hlast, Nat.le_trans hlength ?_⟩
      have hone := length_combinationStep c (32 * 2 ^ n)
      omega

theorem transactionTokenCounts_eq :
    transactionTokenCounts = (List.range 9).reverse.map fun i => 32 * 2 ^ i := by decide

theorem roundedTokens_spec (tailTokens : Nat) :
    32 ∣ roundedTokens tailTokens ∧ tailTokens ≤ roundedTokens tailTokens ∧
      roundedTokens tailTokens < tailTokens + 32 := by
  unfold roundedTokens smoothTailTokenQuantum
  refine ⟨⟨(tailTokens + 32 - 1) / 32, Nat.mul_comm ..⟩, ?_, ?_⟩ <;> omega

theorem Combining.start {tailTokens : Nat} (h : tailTokens < 8192) :
    Combining tailTokens (32 * 2 ^ 9) (Combination.start tailTokens) where
  covers := rfl
  rest := Nat.zero_add _
  padding := (roundedTokens_spec tailTokens).2
  quantum := (roundedTokens_spec tailTokens).1
  below := by
    have hrounded := (roundedTokens_spec tailTokens).2.2
    have hpow : 32 * 2 ^ 9 = 16384 := by norm_num
    show roundedTokens tailTokens < _
    omega
  tokens := fun t ht => absurd ht List.not_mem_nil
  full := List.Pairwise.nil
  padded := Or.inr fun t ht => absurd ht List.not_mem_nil
  capacity := fun t ht => absurd ht List.not_mem_nil

/-- Once the combination is complete, it runs the tail. -/
theorem Combining.plan {tailTokens : Nat} {c : Combination} (h : Combining tailTokens 32 c)
    (hfew : c.transactions.length ≤ 9) : Plan tailTokens c.transactions := by
  have hdone : c.logicalOffset = tailTokens := by
    obtain ⟨m, hm⟩ := h.quantum
    have hbelow := h.below
    have hpadding := h.padding
    have hrest := h.rest
    omega
  have hcovers := h.covers
  rw [hdone] at hcovers
  refine ⟨hcovers, h.tokens, h.full, ?_, fun t ht _ => (h.capacity t ht).2, hfew⟩
  intro t ht hdirect
  rw [(h.capacity t ht).1] at hdirect
  cases hdirect

theorem combination_plan {tailTokens : Nat} (h : tailTokens < 8192) :
    Plan tailTokens (combination tailTokens).transactions := by
  obtain ⟨hlast, hfew⟩ := Combining.run 9 (Nat.le_refl 9) _ (Combining.start h)
  rw [← transactionTokenCounts_eq] at hlast hfew
  exact hlast.plan (Nat.le_trans hfew (Nat.le_of_eq (Nat.zero_add 9)))

/-- Whatever the settings, the transactions of a tail run it. -/
theorem transactions_plan (flags : Flags) (fullTileCount tileTokens : Nat) {tailTokens : Nat}
    (hpos : 0 < tailTokens) (h : tailTokens < 8192) :
    Plan tailTokens (tailTransactions flags fullTileCount tileTokens tailTokens) := by
  unfold tailTransactions
  by_cases hdirect : tailTokens ≤ 16
  · rw [if_pos hdirect]
    refine ⟨⟨rfl, Nat.zero_add _⟩, by simpa using hpos, List.pairwise_singleton ..,
      by simpa using hdirect, by simp, by simp⟩
  · rw [if_neg hdirect]
    by_cases hfew : (flags.singleCeilProvider || flags.boundedTransactions) = true
    · rw [if_pos hfew]
      by_cases htwo : useTwoTransactions flags fullTileCount tileTokens tailTokens = true
      · rw [if_pos htwo]
        simp only [useTwoTransactions, Bool.and_eq_true, decide_eq_true_eq, bne_iff_ne] at htwo
        exact twoTransactions_plan (Nat.le_of_lt htwo.1.1.2) h htwo.1.2
      · rw [if_neg htwo]
        exact singleTransaction_plan hpos h
    · rw [if_neg hfew]
      exact combination_plan h

/-! ## The tiles of a prefill -/

section Tiled

variable {flags : Flags} {prefillTokens : Nat}

theorem tileTokens_cases :
    providerTileTokens flags prefillTokens = 1024 ∨
      providerTileTokens flags prefillTokens = 8192 := by
  unfold providerTileTokens
  split_ifs
  · exact Or.inl rfl
  · exact Or.inr rfl

/-- Smooth tails are tails of the largest tiles. -/
theorem tileTokens_of_smooth (h : smoothTailMoe flags prefillTokens = true) :
    providerTileTokens flags prefillTokens = 8192 := by
  simp only [smoothTailMoe, Bool.and_eq_true] at h
  unfold providerTileTokens exactArbitraryQ1024Moe
  rw [h.1.1]
  simp [retainedPrefillTokens]

/-- Smooth tails are not for the streamed lengths. -/
theorem not_streamed_of_smooth (h : smoothTailMoe flags prefillTokens = true) :
    maximumContextStreamedPrefillTokens prefillTokens = false := by
  simp only [smoothTailMoe, smoothTailRouteRequested, Bool.and_eq_true, Bool.not_eq_true'] at h
  exact h.2.1.2

theorem smooth_of_streamed (h : maximumContextStreamedPrefillTokens prefillTokens = true) :
    smoothTailMoe flags prefillTokens = false := by
  cases hsmooth : smoothTailMoe flags prefillTokens with
  | false => rfl
  | true =>
      rw [not_streamed_of_smooth hsmooth] at h
      cases h

/-- The kernel for full tiles is compiled for them, unless small tiles are streamed. -/
theorem mainTileTokens_eq (h : maximumContextStreamedPrefillTokens prefillTokens = true →
    exactArbitraryQ1024Moe flags prefillTokens = false) :
    mainProviderTileTokens flags prefillTokens = providerTileTokens flags prefillTokens := by
  unfold mainProviderTileTokens providerTileTokens
  by_cases hstreamed : maximumContextStreamedPrefillTokens prefillTokens = true
  · rw [if_pos hstreamed, h hstreamed, if_neg Bool.false_ne_true]
  · rw [if_neg hstreamed]

/-- The full tiles and the tail are the prefill. -/
theorem full_add_tail :
    providerFullTileCount flags prefillTokens * providerTileTokens flags prefillTokens +
      providerTailTokens flags prefillTokens = prefillTokens :=
  Nat.div_add_mod' ..

theorem smoothTail_plan (h : smoothTailMoe flags prefillTokens = true) :
    Plan (providerTailTokens flags prefillTokens) (smoothTailTransactions flags prefillTokens) := by
  have htile := tileTokens_of_smooth h
  unfold smoothTailTransactions
  rw [if_pos h]
  simp only [smoothTailMoe, Bool.and_eq_true, bne_iff_ne] at h
  refine transactions_plan flags _ _ (Nat.pos_of_ne_zero h.1.2) ?_
  unfold providerTailTokens
  rw [htile]
  exact Nat.mod_lt _ (by omega)

theorem smoothTail_nil (h : smoothTailMoe flags prefillTokens = false) :
    smoothTailTransactions flags prefillTokens = [] := by
  unfold smoothTailTransactions
  rw [h]
  rfl

/-- The tiles before the tail are full. -/
theorem wholeTile_full {index : Nat} (h : index < providerFullTileCount flags prefillTokens) :
    (wholeTile flags prefillTokens index).logicalTokens =
      providerTileTokens flags prefillTokens := by
  refine Nat.min_eq_left ?_
  have hall := @full_add_tail flags prefillTokens
  have hmul := Nat.mul_le_mul_right (providerTileTokens flags prefillTokens) h
  rw [Nat.succ_mul] at hmul
  omega

/-- Without smooth tails there is one tile for the tail, if there is one. -/
theorem tileCount_plain (h : smoothTailMoe flags prefillTokens = false) :
    providerTileCount flags prefillTokens = providerFullTileCount flags prefillTokens +
      if providerTailTokens flags prefillTokens = 0 then 0 else 1 := by
  unfold providerTileCount providerFullTileCount providerTailTokens
  rw [if_neg (by simp [h])]
  rcases @tileTokens_cases flags prefillTokens with htile | htile
  · rw [htile]
    split_ifs <;> omega
  · rw [htile]
    split_ifs <;> omega

theorem lastTile_tokens :
    (wholeTile flags prefillTokens (providerFullTileCount flags prefillTokens)).logicalTokens =
      providerTailTokens flags prefillTokens := by
  have hall := @full_add_tail flags prefillTokens
  have hlt : providerTailTokens flags prefillTokens < providerTileTokens flags prefillTokens := by
    refine Nat.mod_lt _ ?_
    rcases @tileTokens_cases flags prefillTokens with htile | htile <;> omega
  show min _ _ = _
  omega

/-- The tiles of the source's loop without smooth tails. -/
theorem tiles_plain (h : smoothTailMoe flags prefillTokens = false) :
    tiles flags prefillTokens =
      (List.range (providerFullTileCount flags prefillTokens)).map
          (wholeTile flags prefillTokens) ++
        if providerTailTokens flags prefillTokens = 0 then []
        else [wholeTile flags prefillTokens (providerFullTileCount flags prefillTokens)] := by
  unfold tiles
  rw [if_neg (by simp [h]), tileCount_plain h]
  by_cases htail : providerTailTokens flags prefillTokens = 0
  · rw [if_pos htail, if_pos htail, Nat.add_zero, List.append_nil]
  · rw [if_neg htail, if_neg htail, List.range_succ, List.map_append, List.map_singleton]

theorem tiles_smooth (h : smoothTailMoe flags prefillTokens = true) :
    tiles flags prefillTokens =
      (List.range (providerFullTileCount flags prefillTokens)).map
          (wholeTile flags prefillTokens) ++
        (smoothTailTransactions flags prefillTokens).mapIdx
          (transactionTile flags prefillTokens) := by
  unfold tiles
  rw [if_pos h]

theorem covers_whole :
    Covers Tile.logicalIndex Tile.logicalTokens 0
      ((List.range (providerFullTileCount flags prefillTokens)).map
        (wholeTile flags prefillTokens))
      (providerFullTileCount flags prefillTokens * providerTileTokens flags prefillTokens) :=
  covers_blocks _ (fun _ _ => rfl) fun _ hi => wholeTile_full hi

/-- The tiles cover the prefill, one behind the other. -/
theorem tiles_covers :
    Covers Tile.logicalIndex Tile.logicalTokens 0 (tiles flags prefillTokens) prefillTokens := by
  have hall := @full_add_tail flags prefillTokens
  cases h : smoothTailMoe flags prefillTokens with
  | true =>
      rw [tiles_smooth h]
      refine covers_append covers_whole ?_
      have htail := @Covers.map _ _ _ _ Tile.logicalIndex Tile.logicalTokens _
        ((smoothTailTransactions flags prefillTokens).mapIdx (transactionTile flags prefillTokens))
        _ _ (providerFullTileCount flags prefillTokens * providerTileTokens flags prefillTokens)
        (smoothTail_plan h).covers (by apply List.ext_getElem <;> simp [transactionTile])
      rw [hall] at htail
      exact htail
  | false =>
      rw [tiles_plain h]
      refine covers_append covers_whole ?_
      by_cases htail : providerTailTokens flags prefillTokens = 0
      · rw [if_pos htail]
        show _ = prefillTokens
        omega
      · rw [if_neg htail]
        refine ⟨rfl, ?_⟩
        rw [lastTile_tokens]
        exact hall

/-- The tiles are full ones, and behind them the transactions or a tile for the tail. -/
theorem mem_tiles {tile : Tile} (h : tile ∈ tiles flags prefillTokens) :
    (∃ index, index < providerFullTileCount flags prefillTokens ∧
      tile = wholeTile flags prefillTokens index) ∨
    (smoothTailMoe flags prefillTokens = true ∧ ∃ index t,
      (smoothTailTransactions flags prefillTokens)[index]? = some t ∧
        tile = transactionTile flags prefillTokens index t) ∨
    (smoothTailMoe flags prefillTokens = false ∧ providerTailTokens flags prefillTokens ≠ 0 ∧
      tile = wholeTile flags prefillTokens (providerFullTileCount flags prefillTokens)) := by
  cases hsmooth : smoothTailMoe flags prefillTokens with
  | true =>
      rw [tiles_smooth hsmooth] at h
      rcases List.mem_append.mp h with h | h
      · obtain ⟨index, hindex, rfl⟩ := List.mem_map.mp h
        exact Or.inl ⟨index, List.mem_range.mp hindex, rfl⟩
      · obtain ⟨index, hindex, rfl⟩ := List.mem_mapIdx.mp h
        exact Or.inr (Or.inl ⟨rfl, index, _, List.getElem?_eq_getElem hindex, rfl⟩)
  | false =>
      rw [tiles_plain hsmooth] at h
      rcases List.mem_append.mp h with h | h
      · obtain ⟨index, hindex, rfl⟩ := List.mem_map.mp h
        exact Or.inl ⟨index, List.mem_range.mp hindex, rfl⟩
      · by_cases htail : providerTailTokens flags prefillTokens = 0
        · rw [if_pos htail] at h
          cases h
        · rw [if_neg htail, List.mem_singleton] at h
          exact Or.inr (Or.inr ⟨rfl, htail, h⟩)

/-- Each tile has a row, and room for its rows. -/
theorem tile_tokens {tile : Tile} (h : tile ∈ tiles flags prefillTokens) :
    0 < tile.logicalTokens ∧ tile.logicalTokens ≤ tile.capacityTokens := by
  rcases mem_tiles h with ⟨index, hindex, rfl⟩ | ⟨hsmooth, index, t, ht, rfl⟩ | ⟨_, htail, rfl⟩
  · refine ⟨?_, Nat.min_le_left _ _⟩
    rw [wholeTile_full hindex]
    rcases @tileTokens_cases flags prefillTokens with htile | htile <;> omega
  · exact (smoothTail_plan hsmooth).tokens t (List.mem_of_getElem? ht)
  · refine ⟨?_, Nat.min_le_left _ _⟩
    rw [lastTile_tokens]
    exact Nat.pos_of_ne_zero htail

/-- A tile with another behind it has no padding. -/
theorem tiles_full :
    (tiles flags prefillTokens).Pairwise fun tile _ =>
      tile.logicalTokens = tile.capacityTokens := by
  have hwhole : ∀ tile ∈ (List.range (providerFullTileCount flags prefillTokens)).map
      (wholeTile flags prefillTokens), tile.logicalTokens = tile.capacityTokens := by
    intro tile htile
    obtain ⟨index, hindex, rfl⟩ := List.mem_map.mp htile
    exact wholeTile_full (List.mem_range.mp hindex)
  cases h : smoothTailMoe flags prefillTokens with
  | true =>
      rw [tiles_smooth h]
      refine List.pairwise_append.mpr ⟨?_, ?_, fun tile htile _ _ => hwhole tile htile⟩
      · exact List.Pairwise.imp_of_mem (fun ha _ _ => hwhole _ ha) (List.pairwise_of_forall
          (R := fun _ _ => True) fun _ _ => trivial)
      · rw [List.pairwise_iff_getElem]
        intro i j hi hj hlt
        rw [List.length_mapIdx] at hi hj
        rw [List.getElem_mapIdx]
        exact List.pairwise_iff_getElem.mp (smoothTail_plan h).full i j hi hj hlt
  | false =>
      rw [tiles_plain h]
      refine List.pairwise_append.mpr ⟨?_, ?_, fun tile htile _ _ => hwhole tile htile⟩
      · exact List.Pairwise.imp_of_mem (fun ha _ _ => hwhole _ ha) (List.pairwise_of_forall
          (R := fun _ _ => True) fun _ _ => trivial)
      · split_ifs <;> simp

/-! ## Their kernels -/

theorem providerIndex_pow : ∀ i, i < 8 →
    smoothTailMoeProviderIndex (32 * 2 ^ i) = some i ∧
      smoothTailMoeProviderTokenCounts[i]? = some (32 * 2 ^ i) := by decide

/-- The kernel of a transaction that is not run directly. -/
theorem transactionKernel_cases {t : Transaction} (hdirect : t.directM16 = false)
    (h : ∃ i, i ≤ 8 ∧ t.capacityTokens = 32 * 2 ^ i) :
    (t.capacityTokens = 8192 ∧ transactionKernel t = .main) ∨
      ∃ i, i < 8 ∧ t.capacityTokens = 32 * 2 ^ i ∧ t.capacityTokens ≠ 8192 ∧
        transactionKernel t = .smoothTail i := by
  obtain ⟨i, hi, hcapacity⟩ := h
  unfold transactionKernel
  rw [hdirect, if_neg Bool.false_ne_true]
  by_cases hmain : t.capacityTokens = 8192
  · exact Or.inl ⟨hmain, if_pos hmain⟩
  · have hlt : i < 8 := by
      refine Nat.lt_of_le_of_ne hi ?_
      rintro rfl
      exact hmain hcapacity
    refine Or.inr ⟨i, hlt, hcapacity, hmain, ?_⟩
    have hindex := (providerIndex_pow i hlt).1
    rw [← hcapacity] at hindex
    have hsmall : ¬t.capacityTokens = retainedPrefillTokens := hmain
    rw [if_neg hsmall, hindex]

/-- Each tile has a kernel that is loaded. -/
theorem tile_loaded (hstreamed : maximumContextStreamedPrefillTokens prefillTokens = true →
      exactArbitraryQ1024Moe flags prefillTokens = false) {tile : Tile}
    (h : tile ∈ tiles flags prefillTokens) : tile.Loaded flags prefillTokens := by
  have hmainTile := mainTileTokens_eq hstreamed
  rcases mem_tiles h with ⟨index, hindex, rfl⟩ | ⟨hsmooth, index, t, ht, rfl⟩ | ⟨hplain, _, rfl⟩
  · refine ⟨?_, hmainTile.symm⟩
    have hne : providerFullTileCount flags prefillTokens ≠ 0 := by omega
    simp [mainProviderRequired, hne]
  · have hmem := List.mem_of_getElem? ht
    have hplan := smoothTail_plan hsmooth
    cases hdirect : t.directM16 with
    | true =>
        have hkernel : transactionKernel t = .directM16 := by
          unfold transactionKernel
          rw [hdirect, if_pos rfl]
        unfold Tile.Loaded transactionTile
        simp only [hkernel]
        exact hplan.direct t hmem hdirect
    | false =>
        unfold Tile.Loaded transactionTile
        rcases transactionKernel_cases hdirect (hplan.capacity t hmem hdirect) with
          ⟨hmain, hkernel⟩ | ⟨i, hi, hcapacity, hsmall, hkernel⟩
        · simp only [hkernel]
          refine ⟨?_, by rw [hmainTile, tileTokens_of_smooth hsmooth, hmain]⟩
          simp only [mainProviderRequired, Bool.or_eq_true, List.any_eq_true, Bool.and_eq_true]
          exact Or.inr ⟨t, hmem, by simp [hdirect], by simp [hmain, retainedPrefillTokens]⟩
        · simp only [hkernel]
          obtain ⟨hindex, hcount⟩ := providerIndex_pow i hi
          rw [← hcapacity] at hindex hcount
          refine ⟨?_, hcount⟩
          simp only [smoothTailProviderUsed, List.any_eq_true, Bool.and_eq_true]
          exact ⟨t, hmem, ⟨by simp [hdirect], by simpa [retainedPrefillTokens] using hsmall⟩,
            by simp [hindex]⟩
  · refine ⟨?_, hmainTile.symm⟩
    simp [mainProviderRequired, hplain]

/-- No transaction is refused. -/
theorem shape_supported : smoothTailShapeSupported flags prefillTokens = true := by
  cases h : smoothTailMoe flags prefillTokens with
  | false => simp [smoothTailShapeSupported, smoothTail_nil h]
  | true =>
      simp only [smoothTailShapeSupported, List.all_eq_true, Bool.or_eq_true]
      intro t ht
      cases hdirect : t.directM16 with
      | true => exact Or.inl (Or.inl rfl)
      | false =>
          rcases transactionKernel_cases hdirect ((smoothTail_plan h).capacity t ht hdirect) with
            ⟨hmain, _⟩ | ⟨i, hi, hcapacity, _, _⟩
          · exact Or.inl (Or.inr (by simp [hmain, retainedPrefillTokens]))
          · rw [hcapacity, (providerIndex_pow i hi).1]
            exact Or.inr rfl

theorem transactions_few : (smoothTailTransactions flags prefillTokens).length ≤ 9 := by
  cases h : smoothTailMoe flags prefillTokens with
  | false => simp [smoothTail_nil h]
  | true => exact (smoothTail_plan h).few

/-- A transaction that is run directly or is smaller than a full tile has another kernel. -/
theorem transactionKernel_ne_main {t : Transaction}
    (hcapacity : t.directM16 = false → ∃ i, i ≤ 8 ∧ t.capacityTokens = 32 * 2 ^ i)
    (hsmall : t.directM16 = true ∨ t.capacityTokens ≠ 8192) : transactionKernel t ≠ .main := by
  cases hdirect : t.directM16 with
  | true =>
      unfold transactionKernel
      rw [hdirect, if_pos rfl]
      exact Kernel.noConfusion
  | false =>
      rw [hdirect] at hsmall
      rcases transactionKernel_cases hdirect (hcapacity hdirect) with
        ⟨hmain, _⟩ | ⟨i, _, _, _, hkernel⟩
      · exact absurd hmain (hsmall.resolve_left Bool.false_ne_true)
      · rw [hkernel]
        exact Kernel.noConfusion

/-- The kernel of a transaction tells how large it is. -/
theorem capacity_eq_of_kernel {t t' : Transaction} (hdirect : t.directM16 = false)
    (hdirect' : t'.directM16 = false) (h : ∃ i, i ≤ 8 ∧ t.capacityTokens = 32 * 2 ^ i)
    (h' : ∃ i, i ≤ 8 ∧ t'.capacityTokens = 32 * 2 ^ i)
    (heq : transactionKernel t = transactionKernel t') :
    t.capacityTokens = t'.capacityTokens := by
  rcases transactionKernel_cases hdirect h with ⟨hmain, hkernel⟩ | ⟨i, _, hi, _, hkernel⟩
  · rcases transactionKernel_cases hdirect' h' with ⟨hmain', _⟩ | ⟨i', _, _, _, hkernel'⟩
    · exact hmain.trans hmain'.symm
    · rw [hkernel, hkernel'] at heq
      cases heq
  · rcases transactionKernel_cases hdirect' h' with ⟨_, hkernel'⟩ | ⟨i', _, hi', _, hkernel'⟩
    · rw [hkernel, hkernel'] at heq
      cases heq
    · rw [hkernel, hkernel'] at heq
      cases heq
      exact hi.trans hi'.symm

/-- With the full tiles beside the lane, no transaction takes their kernel. -/
theorem parallelBase_small (h : useSmoothTailParallelBase flags prefillTokens = true)
    (hsmooth : smoothTailMoe flags prefillTokens = true) :
    ∀ t ∈ smoothTailTransactions flags prefillTokens,
      t.directM16 = true ∨ t.capacityTokens ≠ 8192 := by
  intro t ht
  simp only [useSmoothTailParallelBase, Bool.and_eq_true, Bool.not_eq_true',
    smoothTailBaseProviderAlias, List.any_eq_false] at h
  have halias := h.1.2 t ht
  rw [tileTokens_of_smooth hsmooth] at halias
  cases hdirect : t.directM16 with
  | true => exact Or.inl rfl
  | false => exact Or.inr (by simpa [hdirect] using halias)

/-- With transactions beside each other, there are two of them, of different sizes. -/
theorem parallelTransactions_two
    (h : useSmoothTailParallelTransactions flags prefillTokens = true) :
    providerFullTileCount flags prefillTokens = 0 ∧ ∃ first second,
      smoothTailTransactions flags prefillTokens = [first, second] ∧
        first.directM16 = false ∧ second.directM16 = false ∧
          first.capacityTokens ≠ second.capacityTokens := by
  simp only [useSmoothTailParallelTransactions, Bool.and_eq_true, beq_iff_eq] at h
  obtain ⟨⟨⟨_, hfull⟩, htransactions⟩, _⟩ := h
  refine ⟨hfull, ?_⟩
  split at htransactions
  · rename_i first second heq
    simp only [Bool.and_eq_true, Bool.not_eq_true', bne_iff_ne] at htransactions
    exact ⟨first, second, heq, htransactions.1.1, htransactions.1.2, htransactions.2⟩
  · cases htransactions

/-- On the parallel lane a tile has another kernel than any tile that is not on it. -/
theorem lane_kernel {tile other : Tile} (h : tile ∈ tiles flags prefillTokens)
    (hother : other ∈ tiles flags prefillTokens) (hlane : tile.lane = true)
    (hnull : other.lane = false) : tile.kernel ≠ other.kernel := by
  rcases mem_tiles h with ⟨_, _, rfl⟩ | ⟨hsmooth, index, t, ht, rfl⟩ | ⟨_, _, rfl⟩
  · cases hlane
  · have hplan := smoothTail_plan hsmooth
    have hmem := List.mem_of_getElem? ht
    cases hbase : useSmoothTailParallelBase flags prefillTokens with
    | true =>
        -- All transactions are on the lane, so the other tile is a full one.
        rcases mem_tiles hother with ⟨_, _, rfl⟩ | ⟨_, _, t', _, rfl⟩ | ⟨hplain, _⟩
        · exact transactionKernel_ne_main (hplan.capacity t hmem)
            (parallelBase_small hbase hsmooth t hmem)
        · simp [transactionTile, hbase] at hnull
        · rw [hsmooth] at hplain
          cases hplain
    | false =>
        -- The tile is the second of two transactions, so the other tile is the first.
        obtain ⟨hparallel, rfl⟩ :
            useSmoothTailParallelTransactions flags prefillTokens = true ∧ index = 1 := by
          simpa [transactionTile, hbase] using hlane
        obtain ⟨hfull, first, second, heq, hfirst, hsecond, hne⟩ :=
          parallelTransactions_two hparallel
        obtain rfl : second = t := by simpa [heq] using ht
        rcases mem_tiles hother with ⟨i, hi, _⟩ | ⟨_, index, t', ht', rfl⟩ | ⟨hplain, _⟩
        · omega
        · have hindex : index = 0 := by
            have hzero : index ≠ 1 := by
              intro hone
              simp [transactionTile, hparallel, hone] at hnull
            obtain ⟨hlt, _⟩ := List.getElem?_eq_some_iff.mp ht'
            rw [heq] at hlt
            simp only [List.length_cons, List.length_nil] at hlt
            omega
          obtain rfl : first = t' := by simpa [heq, hindex] using ht'
          intro hsame
          exact hne (capacity_eq_of_kernel hfirst hsecond
            (hplan.capacity first (List.mem_of_getElem? ht') hfirst)
            (hplan.capacity second hmem hsecond) hsame.symm)
        · rw [hsmooth] at hplain
          cases hplain
  · cases hlane

/-! ## The scratch surfaces -/

theorem le_foldl_scratch (transactions : List Transaction) (tokens : Nat) :
    let last := transactions.foldl (fun tokens t =>
      if t.logicalTokens ≠ t.capacityTokens then max tokens t.capacityTokens else tokens) tokens
    tokens ≤ last ∧
      ∀ t ∈ transactions, t.logicalTokens ≠ t.capacityTokens → t.capacityTokens ≤ last := by
  induction transactions generalizing tokens with
  | nil => exact ⟨Nat.le_refl _, fun t ht => absurd ht List.not_mem_nil⟩
  | cons t transactions ih =>
      obtain ⟨hle, hrest⟩ := ih
        (if t.logicalTokens ≠ t.capacityTokens then max tokens t.capacityTokens else tokens)
      rw [List.foldl_cons]
      refine ⟨Nat.le_trans ?_ hle, ?_⟩
      · split_ifs <;> omega
      · intro t' ht' hne
        rcases List.mem_cons.mp ht' with rfl | ht'
        · refine Nat.le_trans ?_ hle
          rw [if_pos hne]
          exact Nat.le_max_right _ _
        · exact hrest t' ht' hne

/-- A tile with padding is in the scratch surfaces, and so is a streamed one. -/
theorem tile_scratch {tile : Tile} (h : tile ∈ tiles flags prefillTokens)
    (hstaged : maximumContextStreamedPrefillTokens prefillTokens = true ∨
      tile.logicalTokens ≠ tile.capacityTokens) :
    tile.capacityTokens ≤ tailScratchTileTokens flags prefillTokens := by
  unfold tailScratchTileTokens
  by_cases hstreamed : maximumContextStreamedPrefillTokens prefillTokens = true
  · rw [if_pos hstreamed]
    rcases mem_tiles h with ⟨_, _, rfl⟩ | ⟨hsmooth, _⟩ | ⟨_, _, rfl⟩
    · exact Nat.le_refl _
    · rw [smooth_of_streamed hstreamed] at hsmooth
      cases hsmooth
    · exact Nat.le_refl _
  · have hpadded := hstaged.resolve_left hstreamed
    rw [if_neg hstreamed]
    rcases mem_tiles h with ⟨index, hindex, rfl⟩ | ⟨hsmooth, index, t, ht, rfl⟩ |
      ⟨hplain, htail, rfl⟩
    · exact absurd (wholeTile_full hindex) hpadded
    · rw [if_pos hsmooth]
      exact (le_foldl_scratch _ 0).2 t (List.mem_of_getElem? ht) hpadded
    · rw [if_neg (by simp [hplain]), if_pos htail]
      exact Nat.le_refl _

end Tiled

end SmoothTail

end QrtEngine
