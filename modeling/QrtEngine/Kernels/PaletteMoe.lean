import QrtEngine.Kernels.PalettePack
import QrtEngine.Library.Launch

/-!
# Experts of a Packed Weight

The experts of a token are computed by kernels whose waves sum the rows of a weight: each of the 32
lanes sums every 32nd pair, and a tree of shuffles sums the lanes. For two tokens at once, the
weights may be packed. A wave then goes through the chunks of its row, decodes them for both
tokens, and decodes only once what both need.

The sums are of floating-point numbers, of which nothing is assumed here, so they have to be made
in the same order. They are: the packed path gives the outputs of the raw path, rounded, and so
does the path that fuses the last two kernels, unrounded, in whatever order the waves store.

## Main definitions

* `DeviceOps`: What the device computes with.
* `rawRouted`: The kernels of the raw weights, one after the other.
* `fusedRouted`: The same, with the last two fused.
* `paletteRouted`: The kernels of the packed weights.

## Theorems

* `paletteLane_eq`: A lane of a packed row sums the pairs of the raw row.
* `gateUpLane_sums`, `downLane_sums`: Sharing between tokens changes no sum.
* `palette_moe_agrees`: The three paths give the same outputs.
-/

namespace QrtEngine

namespace LosslessPalette

/-! ## Sizes -/

/-- `QRT_QWEN36_HIDDEN_SIZE`. -/
def hiddenSize : Nat := 2048

/-- `QRT_QWEN36_MOE_EXPERT_INTERMEDIATE`. -/
def moeExpertIntermediate : Nat := 512

/-- `QRT_QWEN36_EXPERTS_PER_TOKEN`. -/
def expertsPerToken : Nat := 8

/-- `QRT_QWEN36_LAYER0_MOE_EXPERT_GATE_UP_ELEMENTS_PER_EXPERT`. -/
def gateUpElementsPerExpert : Nat := moeExpertIntermediate * 2 * hiddenSize

/-- `QRT_QWEN36_LAYER0_MOE_EXPERT_DOWN_ELEMENTS_PER_EXPERT`. -/
def downElementsPerExpert : Nat := hiddenSize * moeExpertIntermediate

/-- `kQ1MoeRawWaveSize`. -/
def rawWaveSize : Nat := 32

/-- `kQ1MoeRawWavesPerBlock`. -/
def rawWavesPerBlock : Nat := 8

/-- `kQ1MoeLosslessPalettePairsPerLane`. -/
def pairsPerLane : Nat := pairsPerChunk / rawWaveSize

/-- `kQ1MoeRawRouteParallelRowsPerBlock`. -/
def routeParallelRowsPerBlock : Nat := 4

/-- `kThreads`. -/
def vectorThreads : Nat := 256

/-- The experts of a weight. -/
def expertCount : Nat := 256

/-- The chunks of the gate and up weights. -/
def gateUpChunks : Nat := expertCount * gateUpElementsPerExpert / chunkValues

/-- The chunks of the down weights. -/
def downChunks : Nat := expertCount * downElementsPerExpert / chunkValues

/-! ## Sums of a wave -/

/-- What the device computes with: arithmetic on single-precision values and bfloat16. -/
structure DeviceOps (F : Type) where
  zero : F
  add : F → F → F
  mul : F → F → F
  /-- `device_dot2_f32_bf16`: two pairs of bfloat16 values, and what is summed so far. -/
  dot2 : BitVec 32 → BitVec 32 → F → F
  /-- `device_mul_add_separate`. -/
  mulAddSeparate : F → F → F → F
  /-- `device_silu_f32`. -/
  silu : F → F
  /-- `device_bf16_to_float`. -/
  bf16ToFloat : BitVec 16 → F
  /-- `device_float_to_bf16`. -/
  floatToBf16 : F → BitVec 16

section Sums

variable {F : Type} (ops : DeviceOps F)

/-- `device_bf16_round_to_float`. -/
def DeviceOps.bf16RoundToFloat (value : F) : F := ops.bf16ToFloat (ops.floatToBf16 value)

/-- A step of the tree: a lane adds the value of a lane further on, or its own behind the last. -/
def shuffleStep (values : Nat → F) (offset : Nat) : Nat → F := fun lane =>
  ops.add (values lane) (values (if lane + offset < rawWaveSize then lane + offset else lane))

/-- `q1_moe_raw_wave_tree_sum`, on the first lane. -/
def waveTreeSum (values : Nat → F) : F := [16, 8, 4, 2, 1].foldl (shuffleStep ops) values 0

/-- The pairs from an address, as words. -/
def pairsAt (values : Nat → BitVec 16) (address pair : Nat) : BitVec 32 :=
  pairOf (fun i => values (address + i)) pair

/-- The loop of a lane over its pairs of a row. -/
def laneLoop (pairCount : Nat) (input weights : Nat → BitVec 32) (pair : Nat) (sum : F) : F :=
  if pair < pairCount then
    laneLoop pairCount input weights (pair + rawWaveSize) (ops.dot2 (input pair) (weights pair) sum)
  else sum
termination_by pairCount - pair
decreasing_by simp only [rawWaveSize]; omega

/-- The sum of a row. -/
def rowSum (pairCount : Nat) (input weights : Nat → BitVec 32) : F :=
  waveTreeSum ops fun lane => laneLoop ops pairCount input weights lane ops.zero

/-- The activation of a row: both sums and the product are rounded. -/
def activation (gate up : F) : BitVec 16 :=
  ops.floatToBf16 (ops.mul (ops.silu (ops.bf16RoundToFloat gate)) (ops.bf16RoundToFloat up))

end Sums

/-! ## The kernels of the raw weights -/

/-- The arrays that `q1_moe_raw_gate_up_activation_wave_kernel` stores to. -/
inductive GateUpPlace
  | gate (i : Nat)
  | up (i : Nat)
  | activated (i : Nat)
  deriving DecidableEq, Repr

section Raw

variable {F : Type} (ops : DeviceOps F)

/-- `q1_moe_raw_gate_up_activation_wave_kernel`. -/
def rawGateUpStores (allGateUpWeights input : Nat → BitVec 16) (topkIds : Nat → Nat)
    (wave : Nat × Nat) : List (GateUpPlace × BitVec 16) :=
  let blocksPerRoute := moeExpertIntermediate / rawWavesPerBlock
  let route := wave.1 / blocksPerRoute
  let routeBlock := wave.1 - route * blocksPerRoute
  let row := routeBlock * rawWavesPerBlock + wave.2
  let gateElements := moeExpertIntermediate * hiddenSize
  let expertBase := topkIds route * gateUpElementsPerExpert
  let gateSum := rowSum ops (hiddenSize / 2) (pairsAt input 0)
    (pairsAt allGateUpWeights (expertBase + row * hiddenSize))
  let upSum := rowSum ops (hiddenSize / 2) (pairsAt input 0)
    (pairsAt allGateUpWeights (expertBase + gateElements + row * hiddenSize))
  let output := route * moeExpertIntermediate + row
  [(.gate output, ops.floatToBf16 gateSum), (.up output, ops.floatToBf16 upSum),
    (.activated output, activation ops gateSum upSum)]

/-- The endpoint of a row of the down weights. -/
def downEndpoint (allDownWeights activated : Nat → BitVec 16) (topkIds : Nat → Nat)
    (route row : Nat) : BitVec 16 :=
  ops.floatToBf16 (rowSum ops (moeExpertIntermediate / 2)
    (pairsAt activated (route * moeExpertIntermediate))
    (pairsAt allDownWeights
      (topkIds route * downElementsPerExpert + row * moeExpertIntermediate)))

/-- `q1_moe_raw_down_wave_kernel`. -/
def rawDownStores (allDownWeights activated : Nat → BitVec 16) (topkIds : Nat → Nat)
    (wave : Nat × Nat) : List (Nat × BitVec 16) :=
  let blocksPerRoute := hiddenSize / rawWavesPerBlock
  let route := wave.1 / blocksPerRoute
  let routeBlock := wave.1 - route * blocksPerRoute
  let row := routeBlock * rawWavesPerBlock + wave.2
  [(route * hiddenSize + row, downEndpoint ops allDownWeights activated topkIds route row)]

/-- The sum over the routes of a row, in their order. -/
def combineRoutes (topkWeights : Nat → F) (endpoint : Nat → BitVec 16) : F :=
  (List.range expertsPerToken).foldl (fun value route =>
    ops.mulAddSeparate value (topkWeights route) (ops.bf16ToFloat (endpoint route))) ops.zero

/-- `routed_matrix_combine_q1_route_order_kernel`, by threads. -/
def combineStores (routeOutputs : Nat → BitVec 16) (topkWeights : Nat → F) (outputElements : Nat)
    (thread : Nat × Nat) : List (Nat × F) :=
  let index := thread.1 * vectorThreads + thread.2
  if outputElements ≤ index then []
  else [(index, combineRoutes ops topkWeights fun route =>
    routeOutputs (route * hiddenSize + index % hiddenSize))]

/-- The orders in which the waves of the raw kernels store, and what the arrays hold before. -/
structure RawLaunches (F : Type) where
  gateUp : Launch.Order (expertsPerToken * (moeExpertIntermediate / rawWavesPerBlock))
    rawWavesPerBlock
  down : Launch.Order (expertsPerToken * (hiddenSize / rawWavesPerBlock)) rawWavesPerBlock
  combine : Launch.Order ((hiddenSize + vectorThreads - 1) / vectorThreads) vectorThreads
  activated : GateUpPlace → BitVec 16
  routeOutputs : Nat → BitVec 16
  routedOutput : Nat → F

/-- What the first raw kernel leaves in `device_routed_activated`. -/
def rawActivated (launches : RawLaunches F) (allGateUpWeights input : Nat → BitVec 16)
    (topkIds : Nat → Nat) : Nat → BitVec 16 := fun i =>
  Launch.run launches.gateUp (rawGateUpStores ops allGateUpWeights input topkIds)
    launches.activated (.activated i)

/-- What the raw kernels leave in `device_routed_output`. -/
def rawRouted (launches : RawLaunches F) (allGateUpWeights allDownWeights input : Nat → BitVec 16)
    (topkIds : Nat → Nat) (topkWeights : Nat → F) : Nat → F :=
  let activated := rawActivated ops launches allGateUpWeights input topkIds
  let routeOutputs := Launch.run launches.down
    (rawDownStores ops allDownWeights activated topkIds) launches.routeOutputs
  Launch.run launches.combine (combineStores ops routeOutputs topkWeights hiddenSize)
    launches.routedOutput

/-! ## The fused kernel -/

/-- The endpoints of a block of `q1_moe_raw_down_combine_route_parallel_wave_kernel`, by wave. -/
def fusedEndpointStores (allDownWeights activated : Nat → BitVec 16) (topkIds : Nat → Nat)
    (block : Nat) (wave : Nat × Nat) : List ((Nat × Nat) × BitVec 16) :=
  let localRow := wave.2 / expertsPerToken
  let route := wave.2 - localRow * expertsPerToken
  let row := block * routeParallelRowsPerBlock + localRow
  [((localRow, route), downEndpoint ops allDownWeights activated topkIds route row)]

/-- The orders in which the waves of the fused kernel store to the endpoints of their block and
    the threads store behind the barrier, and what is there before. -/
structure FusedLaunches (F : Type) where
  endpointWaves : Nat → Launch.Order 1 (routeParallelRowsPerBlock * expertsPerToken)
  combine : Launch.Order (hiddenSize / routeParallelRowsPerBlock) routeParallelRowsPerBlock
  endpoints : Nat → Nat × Nat → BitVec 16
  routedOutput : Nat → F

/-- What `q1_moe_raw_down_combine_route_parallel_wave_kernel` stores behind the barrier. -/
def fusedCombineStores (launches : FusedLaunches F) (allDownWeights activated : Nat → BitVec 16)
    (topkIds : Nat → Nat) (topkWeights : Nat → F) (thread : Nat × Nat) : List (Nat × F) :=
  let endpoints := Launch.run (launches.endpointWaves thread.1)
    (fusedEndpointStores ops allDownWeights activated topkIds thread.1)
    (launches.endpoints thread.1)
  [(thread.1 * routeParallelRowsPerBlock + thread.2,
    combineRoutes ops topkWeights fun route => endpoints (thread.2, route))]

/-- What the raw kernels leave in `device_routed_output`, if the last two are fused. -/
def fusedRouted (launches : RawLaunches F) (fused : FusedLaunches F)
    (allGateUpWeights allDownWeights input : Nat → BitVec 16) (topkIds : Nat → Nat)
    (topkWeights : Nat → F) : Nat → F :=
  let activated := rawActivated ops launches allGateUpWeights input topkIds
  Launch.run fused.combine (fusedCombineStores ops fused allDownWeights activated topkIds
    topkWeights) fused.routedOutput

end Raw

/-! ## The kernels of the packed weights -/

/-- The two tokens. -/
inductive Token
  | primary
  | alternate
  deriving DecidableEq, Repr

section Packed

variable {F : Type} (ops : DeviceOps F)

/-- The sums of a lane of `q1_moe_lossless_palette_gate_up_dual_kernel`. -/
structure GateUpSums (F : Type) where
  gate0 : F
  up0 : F
  gate1 : F
  up1 : F

/-- The body of its loop over the chunks. -/
def gateUpChunk (packed : Memory) (gate0First up0First gate1First up1First : Nat)
    (sameExpert : Bool) (input0Pairs input1Pairs : Nat → BitVec 32) (lane : Nat)
    (sums : GateUpSums F) (localChunk : Nat) : GateUpSums F :=
  let gate0Chunk := prepareWaveChunk packed (gate0First + localChunk)
  let up0Chunk := prepareWaveChunk packed (up0First + localChunk)
  let gate1Chunk := if sameExpert then gate0Chunk
    else prepareWaveChunk packed (gate1First + localChunk)
  let up1Chunk := if sameExpert then up0Chunk else prepareWaveChunk packed (up1First + localChunk)
  (List.range pairsPerLane).foldl (fun sums iteration =>
    let localPair := lane + iteration * rawWaveSize
    let inputPair := localChunk * pairsPerChunk + localPair
    let gate0Pair := decodeAt packed gate0Chunk localPair
    let up0Pair := decodeAt packed up0Chunk localPair
    let gate1Pair := if sameExpert then gate0Pair else decodeAt packed gate1Chunk localPair
    let up1Pair := if sameExpert then up0Pair else decodeAt packed up1Chunk localPair
    { gate0 := ops.dot2 (input0Pairs inputPair) gate0Pair sums.gate0
      up0 := ops.dot2 (input0Pairs inputPair) up0Pair sums.up0
      gate1 := ops.dot2 (input1Pairs inputPair) gate1Pair sums.gate1
      up1 := ops.dot2 (input1Pairs inputPair) up1Pair sums.up1 }) sums

/-- The sums of a lane. -/
def gateUpLane (packed : Memory) (expert0 expert1 row : Nat)
    (input0Pairs input1Pairs : Nat → BitVec 32) (lane : Nat) : GateUpSums F :=
  let chunksPerRow := hiddenSize / chunkValues
  let gateChunksPerExpert := moeExpertIntermediate * chunksPerRow
  let chunksPerExpert := 2 * gateChunksPerExpert
  let gate0First := expert0 * chunksPerExpert + row * chunksPerRow
  let up0First := gate0First + gateChunksPerExpert
  let gate1First := expert1 * chunksPerExpert + row * chunksPerRow
  let up1First := gate1First + gateChunksPerExpert
  (List.range chunksPerRow).foldl (gateUpChunk ops packed gate0First up0First gate1First up1First
    (decide (expert0 = expert1)) input0Pairs input1Pairs lane)
    ⟨ops.zero, ops.zero, ops.zero, ops.zero⟩

/-- `q1_moe_lossless_palette_gate_up_dual_kernel`. -/
def paletteGateUpStores (packed : Memory) (input : Token → Nat → BitVec 16)
    (topkIds : Token → Nat → Nat) (wave : Nat × Nat) : List ((Token × Nat) × BitVec 16) :=
  let task := wave.1 * rawWavesPerBlock + wave.2
  if expertsPerToken * moeExpertIntermediate ≤ task then []
  else
    let route := task / moeExpertIntermediate
    let row := task - route * moeExpertIntermediate
    let sums := gateUpLane ops packed (topkIds .primary route) (topkIds .alternate route) row
      (pairsAt (input .primary) 0) (pairsAt (input .alternate) 0)
    [((.primary, task), activation ops (waveTreeSum ops fun lane => (sums lane).gate0)
        (waveTreeSum ops fun lane => (sums lane).up0)),
      ((.alternate, task), activation ops (waveTreeSum ops fun lane => (sums lane).gate1)
        (waveTreeSum ops fun lane => (sums lane).up1))]

/-- The sums of a lane of `q1_moe_lossless_palette_down_dual_kernel` for one route. -/
def downLane (packed : Memory) (expert0 expert1 row : Nat)
    (input0Pairs input1Pairs : Nat → BitVec 32) (lane : Nat) : F × F :=
  let chunksPerRow := moeExpertIntermediate / chunkValues
  let chunksPerExpert := hiddenSize * chunksPerRow
  let sameExpert := decide (expert0 = expert1)
  let first0 := expert0 * chunksPerExpert + row * chunksPerRow
  let first1 := expert1 * chunksPerExpert + row * chunksPerRow
  (List.range chunksPerRow).foldl (fun sums localChunk =>
    let chunk0 := prepareWaveChunk packed (first0 + localChunk)
    let chunk1 := if sameExpert then chunk0 else prepareWaveChunk packed (first1 + localChunk)
    (List.range pairsPerLane).foldl (fun sums iteration =>
      let localPair := lane + iteration * rawWaveSize
      let inputPair := localChunk * pairsPerChunk + localPair
      let weight0 := decodeAt packed chunk0 localPair
      let weight1 := if sameExpert then weight0 else decodeAt packed chunk1 localPair
      (ops.dot2 (input0Pairs inputPair) weight0 sums.1,
        ops.dot2 (input1Pairs inputPair) weight1 sums.2)) sums) (ops.zero, ops.zero)

/-- `q1_moe_lossless_palette_down_dual_kernel`. -/
def paletteDownStores (packed : Memory) (activated : Token × Nat → BitVec 16)
    (topkIds : Token → Nat → Nat) (topkWeights : Token → Nat → F) (wave : Nat × Nat) :
    List ((Token × Nat) × F) :=
  let row := wave.1 * rawWavesPerBlock + wave.2
  if hiddenSize ≤ row then []
  else
    let combined := (List.range expertsPerToken).foldl (fun (combined : F × F) route =>
      let sums := downLane ops packed (topkIds .primary route) (topkIds .alternate route) row
        (pairsAt (fun i => activated (.primary, i)) (route * moeExpertIntermediate))
        (pairsAt (fun i => activated (.alternate, i)) (route * moeExpertIntermediate))
      (ops.mulAddSeparate combined.1 (topkWeights .primary route)
          (ops.bf16RoundToFloat (waveTreeSum ops fun lane => (sums lane).1)),
        ops.mulAddSeparate combined.2 (topkWeights .alternate route)
          (ops.bf16RoundToFloat (waveTreeSum ops fun lane => (sums lane).2)))) (ops.zero, ops.zero)
    [((.primary, row), ops.bf16RoundToFloat combined.1),
      ((.alternate, row), ops.bf16RoundToFloat combined.2)]

/-- The orders in which the waves of the packed kernels store, and what the arrays hold before. -/
structure PaletteLaunches (F : Type) where
  gateUp : Launch.Order
    ((expertsPerToken * moeExpertIntermediate + rawWavesPerBlock - 1) / rawWavesPerBlock)
    rawWavesPerBlock
  down : Launch.Order ((hiddenSize + rawWavesPerBlock - 1) / rawWavesPerBlock) rawWavesPerBlock
  activated : Token × Nat → BitVec 16
  routedOutput : Token × Nat → F

/-- What `launch_lossless_gate_up` leaves in the arrays of activations. -/
def paletteActivated (launches : PaletteLaunches F) (packedGateUp : Memory)
    (input : Token → Nat → BitVec 16) (topkIds : Token → Nat → Nat) : Token × Nat → BitVec 16 :=
  Launch.run launches.gateUp (paletteGateUpStores ops packedGateUp input topkIds)
    launches.activated

/-- What `launch_lossless_down` leaves in the arrays of outputs. -/
def paletteRouted (launches : PaletteLaunches F) (packedGateUp packedDown : Memory)
    (input : Token → Nat → BitVec 16) (topkIds : Token → Nat → Nat)
    (topkWeights : Token → Nat → F) : Token × Nat → F :=
  Launch.run launches.down (paletteDownStores ops packedDown
    (paletteActivated ops launches packedGateUp input topkIds) topkIds topkWeights)
    launches.routedOutput

end Packed

/-! ## Sums are the same -/

section Sums

variable {F : Type} (ops : DeviceOps F)

/-- The tree sums the lanes of the wave. -/
theorem waveTreeSum_congr {values values' : Nat → F}
    (h : ∀ lane, lane < rawWaveSize → values lane = values' lane) :
    waveTreeSum ops values = waveTreeSum ops values' := by
  have hstep : ∀ (offset : Nat) (v v' : Nat → F),
      (∀ lane, lane < rawWaveSize → v lane = v' lane) → ∀ lane, lane < rawWaveSize →
        shuffleStep ops v offset lane = shuffleStep ops v' offset lane := by
    intro offset v v' hv lane hlane
    unfold shuffleStep
    rw [hv lane hlane]
    by_cases hin : lane + offset < rawWaveSize
    · rw [if_pos hin, hv _ hin]
    · rw [if_neg hin, hv lane hlane]
  have hfold : ∀ (offsets : List Nat) (v v' : Nat → F),
      (∀ lane, lane < rawWaveSize → v lane = v' lane) → ∀ lane, lane < rawWaveSize →
      offsets.foldl (shuffleStep ops) v lane = offsets.foldl (shuffleStep ops) v' lane := by
    intro offsets
    induction offsets with
    | nil => exact fun v v' hv => hv
    | cons offset offsets ih => exact fun v v' hv => ih _ _ (hstep offset v v' hv)
  exact hfold _ _ _ h 0 (by decide)

/-- Some rounds of the loop of a lane. -/
theorem laneLoop_rounds (pairCount : Nat) (input weights : Nat → BitVec 32) (rounds pair : Nat)
    (sum : F) (h : ∀ round, round < rounds → pair + round * rawWaveSize < pairCount) :
    laneLoop ops pairCount input weights pair sum =
      laneLoop ops pairCount input weights (pair + rounds * rawWaveSize)
        ((List.range rounds).foldl (fun sum round =>
          ops.dot2 (input (pair + round * rawWaveSize)) (weights (pair + round * rawWaveSize)) sum)
          sum) := by
  induction rounds with
  | zero => simp
  | succ rounds ih =>
      rw [ih fun round hround => h round (by omega), laneLoop, if_pos (h rounds (by omega)),
        List.range_succ, List.foldl_append, List.foldl_cons, List.foldl_nil, Nat.succ_mul,
        Nat.add_assoc]

/-- The loop reads the pairs of the row. -/
theorem laneLoop_congr {pairCount : Nat} {input input' weights : Nat → BitVec 32}
    (h : ∀ pair, pair < pairCount → input pair = input' pair) (pair : Nat) (sum : F) :
    laneLoop ops pairCount input weights pair sum =
      laneLoop ops pairCount input' weights pair sum := by
  induction pair, sum using laneLoop.induct ops pairCount input weights with
  | case1 pair sum hlt ih =>
      rw [laneLoop.eq_1 ops pairCount input weights pair sum,
        laneLoop.eq_1 ops pairCount input' weights pair sum, if_pos hlt, if_pos hlt, ih, h pair hlt]
  | case2 pair sum hlt =>
      rw [laneLoop, if_neg hlt, laneLoop, if_neg hlt]

theorem rowSum_congr {pairCount : Nat} {input input' weights : Nat → BitVec 32}
    (h : ∀ pair, pair < pairCount → input pair = input' pair) :
    rowSum ops pairCount input weights = rowSum ops pairCount input' weights :=
  congrArg (waveTreeSum ops) (funext fun lane => laneLoop_congr ops h lane ops.zero)

/-- The pairs from an even address. -/
theorem pairsAt_even (values : Nat → BitVec 16) (half pair : Nat) :
    pairsAt values (2 * half) pair = pairOf values (half + pair) := by
  simp only [pairsAt, pairOf, Nat.mul_add, Nat.add_assoc]

/-! ### A lane of a packed row -/

/-- A chunk of a packed row, for one token. -/
def paletteChunk (packed : Memory) (first : Nat) (input : Nat → BitVec 32) (lane : Nat) (sum : F)
    (localChunk : Nat) : F :=
  (List.range pairsPerLane).foldl (fun sum iteration =>
    ops.dot2 (input (localChunk * pairsPerChunk + (lane + iteration * rawWaveSize)))
      (decodeAt packed (prepareWaveChunk packed (first + localChunk))
        (lane + iteration * rawWaveSize)) sum) sum

/-- A lane of a packed row, for one token. -/
def paletteLane (packed : Memory) (first chunks : Nat) (input : Nat → BitVec 32) (lane : Nat) : F :=
  (List.range chunks).foldl (paletteChunk ops packed first input lane) ops.zero

/-- A lane of a packed row sums the pairs of the raw row, in their order. -/
theorem paletteLane_eq {packed : Memory} {first chunks : Nat} {input weights : Nat → BitVec 32}
    (hdecode : ∀ chunk, chunk < chunks → ∀ pair, pair < pairsPerChunk →
      decodeAt packed (prepareWaveChunk packed (first + chunk)) pair =
        weights (chunk * pairsPerChunk + pair)) {lane : Nat} (hlane : lane < rawWaveSize) :
    paletteLane ops packed first chunks input lane =
      laneLoop ops (chunks * pairsPerChunk) input weights lane ops.zero := by
  have hpairs : pairsPerChunk = 128 := rfl
  have hwave : rawWaveSize = 32 := rfl
  have hlanes : pairsPerLane = 4 := rfl
  have hall : ∀ done, done ≤ chunks →
      laneLoop ops (chunks * pairsPerChunk) input weights lane ops.zero =
        laneLoop ops (chunks * pairsPerChunk) input weights (done * pairsPerChunk + lane)
          ((List.range done).foldl (paletteChunk ops packed first input lane) ops.zero) := by
    intro done hdone
    induction done with
    | zero => simp
    | succ done ih =>
        have hin : ∀ round, round < pairsPerLane →
            done * pairsPerChunk + lane + round * rawWaveSize < chunks * pairsPerChunk := by
          intro round hround
          rw [hpairs, hwave]
          omega
        have hnext : done * pairsPerChunk + lane + pairsPerLane * rawWaveSize =
            (done + 1) * pairsPerChunk + lane := by
          rw [hpairs, hwave, hlanes]
          omega
        rw [ih (by omega), laneLoop_rounds ops _ _ _ pairsPerLane _ _ hin, hnext, List.range_succ,
          List.foldl_append, List.foldl_cons, List.foldl_nil, paletteChunk]
        refine congrArg _ (List.foldl_ext _ _ _ fun sum round hround => ?_)
        have hlocal : lane + round * rawWaveSize < pairsPerChunk := by
          have hlt := List.mem_range.mp hround
          rw [hpairs, hwave]
          omega
        rw [hdecode done (by omega) _ hlocal, Nat.add_assoc]
  have hend : ¬chunks * pairsPerChunk + lane < chunks * pairsPerChunk := by omega
  rw [hall chunks (Nat.le_refl _), laneLoop, if_neg hend, paletteLane]

/-- What is decoded once for both tokens is what each of them needs. -/
theorem gateUpChunk_sums (packed : Memory) {gate0First up0First gate1First up1First : Nat}
    {same : Bool} (hsame : same = true → gate1First = gate0First ∧ up1First = up0First)
    (input0 input1 : Nat → BitVec 32) (lane : Nat) (sums : GateUpSums F) (localChunk : Nat) :
    gateUpChunk ops packed gate0First up0First gate1First up1First same input0 input1 lane sums
        localChunk =
      { gate0 := paletteChunk ops packed gate0First input0 lane sums.gate0 localChunk
        up0 := paletteChunk ops packed up0First input0 lane sums.up0 localChunk
        gate1 := paletteChunk ops packed gate1First input1 lane sums.gate1 localChunk
        up1 := paletteChunk ops packed up1First input1 lane sums.up1 localChunk } := by
  unfold gateUpChunk paletteChunk
  cases same with
  | true =>
      obtain ⟨rfl, rfl⟩ := hsame rfl
      simp only [if_true]
      generalize List.range pairsPerLane = iterations
      induction iterations generalizing sums with
      | nil => rfl
      | cons iteration iterations ih => exact ih _
  | false =>
      simp only [Bool.false_eq_true, if_false]
      generalize List.range pairsPerLane = iterations
      induction iterations generalizing sums with
      | nil => rfl
      | cons iteration iterations ih => exact ih _

/-- So the four sums do not depend on each other. -/
theorem gateUpChunks_sums (packed : Memory) {gate0First up0First gate1First up1First : Nat}
    {same : Bool} (hsame : same = true → gate1First = gate0First ∧ up1First = up0First)
    (input0 input1 : Nat → BitVec 32) (lane : Nat) (chunks : List Nat) (sums : GateUpSums F) :
    chunks.foldl (gateUpChunk ops packed gate0First up0First gate1First up1First same input0 input1
        lane) sums =
      { gate0 := chunks.foldl (paletteChunk ops packed gate0First input0 lane) sums.gate0
        up0 := chunks.foldl (paletteChunk ops packed up0First input0 lane) sums.up0
        gate1 := chunks.foldl (paletteChunk ops packed gate1First input1 lane) sums.gate1
        up1 := chunks.foldl (paletteChunk ops packed up1First input1 lane) sums.up1 } := by
  induction chunks generalizing sums with
  | nil => rfl
  | cons chunk chunks ih =>
      rw [List.foldl_cons, ih, gateUpChunk_sums ops packed hsame]
      rfl

/-- The four sums of a lane of the gate and up weights. -/
theorem gateUpLane_sums (packed : Memory) (expert0 expert1 row : Nat)
    (input0 input1 : Nat → BitVec 32) (lane : Nat) :
    gateUpLane ops packed expert0 expert1 row input0 input1 lane =
      { gate0 := paletteLane ops packed (expert0 * 8192 + row * 8) 8 input0 lane
        up0 := paletteLane ops packed (expert0 * 8192 + row * 8 + 4096) 8 input0 lane
        gate1 := paletteLane ops packed (expert1 * 8192 + row * 8) 8 input1 lane
        up1 := paletteLane ops packed (expert1 * 8192 + row * 8 + 4096) 8 input1 lane } := by
  refine gateUpChunks_sums ops packed ?_ input0 input1 lane (List.range 8) _
  intro heq
  rw [of_decide_eq_true heq]
  exact ⟨rfl, rfl⟩

/-- Two sums that do not depend on each other. -/
theorem foldl_pair {α : Type} (f g : F → α → F) (l : List α) (sums : F × F) :
    l.foldl (fun sums a => (f sums.1 a, g sums.2 a)) sums =
      (l.foldl f sums.1, l.foldl g sums.2) := by
  induction l generalizing sums with
  | nil => rfl
  | cons a l ih => exact ih _

/-- The body of the loop over the chunks of the down weights. -/
theorem downChunk_sums (packed : Memory) {first0 first1 : Nat} {same : Bool}
    (hsame : same = true → first1 = first0) (input0 input1 : Nat → BitVec 32) (lane : Nat)
    (sums : F × F) (localChunk : Nat) :
    (List.range pairsPerLane).foldl (fun (sums : F × F) iteration =>
        (ops.dot2 (input0 (localChunk * pairsPerChunk + (lane + iteration * rawWaveSize)))
            (decodeAt packed (prepareWaveChunk packed (first0 + localChunk))
              (lane + iteration * rawWaveSize)) sums.1,
          ops.dot2 (input1 (localChunk * pairsPerChunk + (lane + iteration * rawWaveSize)))
            (if same = true then decodeAt packed (prepareWaveChunk packed (first0 + localChunk))
                (lane + iteration * rawWaveSize)
              else decodeAt packed (if same = true then
                  prepareWaveChunk packed (first0 + localChunk)
                else prepareWaveChunk packed (first1 + localChunk))
                (lane + iteration * rawWaveSize)) sums.2)) sums =
      (paletteChunk ops packed first0 input0 lane sums.1 localChunk,
        paletteChunk ops packed first1 input1 lane sums.2 localChunk) := by
  cases same with
  | true =>
      obtain rfl := hsame rfl
      unfold paletteChunk
      simp only [if_true]
      generalize List.range pairsPerLane = iterations
      induction iterations generalizing sums with
      | nil => rfl
      | cons iteration iterations ih => exact ih _
  | false =>
      unfold paletteChunk
      simp only [Bool.false_eq_true, if_false]
      generalize List.range pairsPerLane = iterations
      induction iterations generalizing sums with
      | nil => rfl
      | cons iteration iterations ih => exact ih _

/-- The two sums of a lane of the down weights. -/
theorem downLane_sums (packed : Memory) (expert0 expert1 row : Nat)
    (input0 input1 : Nat → BitVec 32) (lane : Nat) :
    downLane ops packed expert0 expert1 row input0 input1 lane =
      (paletteLane ops packed (expert0 * 4096 + row * 2) 2 input0 lane,
        paletteLane ops packed (expert1 * 4096 + row * 2) 2 input1 lane) := by
  have hchunks : moeExpertIntermediate / chunkValues = 2 := rfl
  have hexpert : hiddenSize * 2 = 4096 := rfl
  have hsame : decide (expert0 = expert1) = true →
      expert1 * 4096 + row * 2 = expert0 * 4096 + row * 2 := by
    intro heq
    rw [of_decide_eq_true heq]
  simp only [downLane, paletteLane, hchunks, hexpert]
  simp only [downChunk_sums ops packed hsame]
  exact foldl_pair _ _ (List.range 2) (ops.zero, ops.zero)

end Sums

/-! ## Packed weights -/

/-- What the kernels that pack a weight leave in its arrays. -/
def Packs (source : Nat → BitVec 16) (chunkCount : Nat) (memory : Memory) : Prop :=
  ∃ counted packed : SlotPool.State Place (BitVec 32),
    SlotPool.Reachable (countJob source chunkCount) counted ∧
    (∀ action, SlotPool.step (countJob source chunkCount) counted action = none) ∧
    SlotPool.Reachable (packJob source chunkCount counted.counter) packed ∧
    (∀ action, SlotPool.step (packJob source chunkCount counted.counter) packed action = none) ∧
    packed.memory = memory

/-- There is such a memory. -/
theorem exists_packs (source : Nat → BitVec 16) (chunkCount : Nat) :
    ∃ memory, Packs source chunkCount memory := by
  have hstride : 0 < packWaves := Nat.mul_pos (by decide) (by decide)
  obtain ⟨counted, hcounted, hcountedEnd⟩ := SlotPool.exists_finished hstride
    (fun _ _ => Nat.le_refl 0) _ (reachable_startOf (countJob source chunkCount))
  obtain ⟨packed, hpacked, hpackedEnd⟩ := SlotPool.exists_finished hstride
    (packWrites_length_le source) _ (reachable_startOf (packJob source chunkCount counted.counter))
  exact ⟨packed.memory, counted, packed, hcounted, hcountedEnd, hpacked, hpackedEnd, rfl⟩

section Rows

variable {F : Type} (ops : DeviceOps F)

/-- The sum of a row of a packed weight. -/
theorem paletteRow_eq {source : Nat → BitVec 16} {chunkCount first chunks address : Nat}
    {packed : Memory} (hpacks : Packs source chunkCount packed) (hsize : chunkCount < 2 ^ 32)
    (hin : first + chunks ≤ chunkCount) (haddress : address = first * chunkValues)
    (input : Nat → BitVec 32) :
    waveTreeSum ops (paletteLane ops packed first chunks input) =
      rowSum ops (chunks * pairsPerChunk) input (pairsAt source address) := by
  obtain ⟨counted, last, hcounted, hcountedEnd, hpacked, hpackedEnd, rfl⟩ := hpacks
  refine waveTreeSum_congr ops fun lane hlane => paletteLane_eq ops ?_ hlane
  intro chunk hchunk pair hpair
  have haddress' : address = 2 * (first * pairsPerChunk) := by
    rw [haddress]
    simp only [chunkValues, pairsPerChunk]
    omega
  rw [decodeAt_finished source hsize hcounted hcountedEnd hpacked hpackedEnd
    (show first + chunk < chunkCount by omega) hpair, haddress', pairsAt_even, Nat.add_mul,
    Nat.add_assoc]

/-- The activation of a task, from the raw weights. -/
def activatedAt (gateUp input : Nat → BitVec 16) (topkIds : Nat → Nat) (task : Nat) : BitVec 16 :=
  let address := topkIds (task / 512) * 2097152 + task % 512 * 2048
  activation ops (rowSum ops 1024 (pairsAt input 0) (pairsAt gateUp address))
    (rowSum ops 1024 (pairsAt input 0) (pairsAt gateUp (address + 1048576)))

/-- A wave of the first raw kernel stores the activation of its task. -/
theorem rawGateUpStores_activated (gateUp input : Nat → BitVec 16) (topkIds : Nat → Nat)
    (block : Nat) {wave : Nat} (hwave : wave < 8) :
    (.activated (8 * block + wave), activatedAt ops gateUp input topkIds (8 * block + wave)) ∈
        rawGateUpStores ops gateUp input topkIds (block, wave) ∧
      ∀ s ∈ rawGateUpStores ops gateUp input topkIds (block, wave), ∀ task,
        s.1 = .activated task → s.2 = activatedAt ops gateUp input topkIds task := by
  have hroute : (8 * block + wave) / 512 = block / 64 := by omega
  have hrow : (8 * block + wave) % 512 = (block - block / 64 * 64) * 8 + wave := by omega
  have hplace : block / 64 * 512 + ((block - block / 64 * 64) * 8 + wave) = 8 * block + wave := by
    omega
  have hactivated : activatedAt ops gateUp input topkIds (8 * block + wave) = activation ops
      (rowSum ops 1024 (pairsAt input 0) (pairsAt gateUp
        (topkIds (block / 64) * 2097152 + ((block - block / 64 * 64) * 8 + wave) * 2048)))
      (rowSum ops 1024 (pairsAt input 0) (pairsAt gateUp (topkIds (block / 64) * 2097152 + 1048576 +
        ((block - block / 64 * 64) * 8 + wave) * 2048))) := by
    rw [activatedAt, hroute, hrow, Nat.add_right_comm _ 1048576]
  have hstores : ∃ gate up, rawGateUpStores ops gateUp input topkIds (block, wave) =
      [(.gate (8 * block + wave), gate), (.up (8 * block + wave), up),
        (.activated (8 * block + wave),
          activatedAt ops gateUp input topkIds (8 * block + wave))] := by
    rw [hactivated, ← hplace]
    exact ⟨_, _, rfl⟩
  obtain ⟨gate, up, hstores⟩ := hstores
  rw [hstores]
  refine ⟨by simp, ?_⟩
  intro s hs task htask
  simp only [List.mem_cons, List.not_mem_nil, or_false] at hs
  rcases hs with rfl | rfl | rfl
  · cases htask
  · cases htask
  · obtain rfl := GateUpPlace.activated.inj htask
    rfl

/-- The first raw kernel. -/
theorem rawActivated_eq (launches : RawLaunches F) (gateUp input : Nat → BitVec 16)
    (topkIds : Nat → Nat) {task : Nat} (htask : task < 4096) :
    rawActivated ops launches gateUp input topkIds task =
      activatedAt ops gateUp input topkIds task := by
  have hmem := (rawGateUpStores_activated ops gateUp input topkIds (task / 8)
    (Nat.mod_lt task (by omega : 8 > 0))).1
  rw [Nat.div_add_mod] at hmem
  refine Launch.run_apply launches.gateUp launches.activated (show task / 8 < 512 by omega)
    (Nat.mod_lt task (by omega : 8 > 0)) hmem ?_
  intro block wave _ hwave s hs hplace
  exact (rawGateUpStores_activated ops gateUp input topkIds block hwave).2 s hs task hplace

/-- The sums of a row of gate weights and of its row of up weights, from the packed weights. -/
theorem gateUpRow_eq {gateUp : Nat → BitVec 16} {packedGateUp : Memory}
    (hpacks : Packs gateUp gateUpChunks packedGateUp) {expert row : Nat} (hexpert : expert < 256)
    (hrow : row < 512) (input : Nat → BitVec 32) :
    waveTreeSum ops (paletteLane ops packedGateUp (expert * 8192 + row * 8) 8 input) =
        rowSum ops 1024 input (pairsAt gateUp (expert * 2097152 + row * 2048)) ∧
      waveTreeSum ops (paletteLane ops packedGateUp (expert * 8192 + row * 8 + 4096) 8 input) =
        rowSum ops 1024 input (pairsAt gateUp (expert * 2097152 + row * 2048 + 1048576)) := by
  have hsize : gateUpChunks = 2097152 := rfl
  exact ⟨paletteRow_eq ops hpacks (by omega) (by omega) (by rw [chunkValues]; omega) input,
    paletteRow_eq ops hpacks (by omega) (by omega) (by rw [chunkValues]; omega) input⟩

/-- A wave of the first packed kernel stores the activations of its task for both tokens. -/
theorem paletteGateUpStores_eq {gateUp : Nat → BitVec 16} {packedGateUp : Memory}
    (hpacks : Packs gateUp gateUpChunks packedGateUp) (input : Token → Nat → BitVec 16)
    {topkIds : Token → Nat → Nat}
    (hids : ∀ token route, route < expertsPerToken → topkIds token route < expertCount)
    {block wave : Nat} (hblock : block < 512) (hwave : wave < 8) :
    paletteGateUpStores ops packedGateUp input topkIds (block, wave) =
      [((.primary, block * 8 + wave), activatedAt ops gateUp (input .primary)
          (topkIds .primary) (block * 8 + wave)),
        ((.alternate, block * 8 + wave), activatedAt ops gateUp (input .alternate)
          (topkIds .alternate) (block * 8 + wave))] := by
  have hin : ¬expertsPerToken * moeExpertIntermediate ≤ block * rawWavesPerBlock + wave := by
    rw [expertsPerToken, moeExpertIntermediate, rawWavesPerBlock]
    omega
  have hrest : block * 8 + wave - (block * 8 + wave) / 512 * 512 = (block * 8 + wave) % 512 := by
    omega
  have hroute : (block * 8 + wave) / 512 < 8 := by omega
  have hlt : (block * 8 + wave) % 512 < 512 := Nat.mod_lt _ (by omega)
  -- The expert of the route is one of those packed, for either token.
  have hrow : ∀ token, topkIds token ((block * 8 + wave) / 512) < 256 :=
    fun token => hids token _ hroute
  simp only [paletteGateUpStores, if_neg hin, gateUpLane_sums]
  simp only [rawWavesPerBlock, moeExpertIntermediate, hrest]
  rw [(gateUpRow_eq ops hpacks (hrow .primary) hlt _).1,
    (gateUpRow_eq ops hpacks (hrow .primary) hlt _).2,
    (gateUpRow_eq ops hpacks (hrow .alternate) hlt _).1,
    (gateUpRow_eq ops hpacks (hrow .alternate) hlt _).2]
  rfl

/-- The first packed kernel. -/
theorem paletteActivated_eq (launches : PaletteLaunches F) {gateUp : Nat → BitVec 16}
    {packedGateUp : Memory} (hpacks : Packs gateUp gateUpChunks packedGateUp)
    (input : Token → Nat → BitVec 16) {topkIds : Token → Nat → Nat}
    (hids : ∀ token route, route < expertsPerToken → topkIds token route < expertCount)
    (token : Token) {task : Nat} (htask : task < 4096) :
    paletteActivated ops launches packedGateUp input topkIds (token, task) =
      activatedAt ops gateUp (input token) (topkIds token) task := by
  have hmem : ((token, task), activatedAt ops gateUp (input token) (topkIds token) task) ∈
      paletteGateUpStores ops packedGateUp input topkIds (task / 8, task % 8) := by
    rw [paletteGateUpStores_eq ops hpacks input hids (by omega) (by omega), Nat.div_add_mod']
    cases token <;> simp
  refine Launch.run_apply launches.gateUp launches.activated (show task / 8 < 512 by omega)
    (Nat.mod_lt task (by omega : 8 > 0)) hmem ?_
  intro block wave hblock hwave s hs hplace
  rw [paletteGateUpStores_eq ops hpacks input hids hblock hwave] at hs
  simp only [List.mem_cons, List.not_mem_nil, or_false] at hs
  rcases hs with rfl | rfl
  · obtain ⟨rfl, rfl⟩ := Prod.mk.inj hplace
    rfl
  · obtain ⟨rfl, rfl⟩ := Prod.mk.inj hplace
    rfl

/-! ## The down weights -/

/-- The endpoint of a row reads the activations of its route. -/
theorem downEndpoint_congr (down : Nat → BitVec 16) {activated activated' : Nat → BitVec 16}
    (h : ∀ task, task < 4096 → activated task = activated' task) (topkIds : Nat → Nat)
    {route : Nat} (hroute : route < 8) (row : Nat) :
    downEndpoint ops down activated topkIds route row =
      downEndpoint ops down activated' topkIds route row := by
  have hpairs : ∀ pair, pair < moeExpertIntermediate / 2 →
      pairsAt activated (route * moeExpertIntermediate) pair =
        pairsAt activated' (route * moeExpertIntermediate) pair := by
    intro pair hpair
    have hlt : pair < 256 := hpair
    have hadd : route * moeExpertIntermediate = route * 512 := rfl
    rw [pairsAt, pairsAt, pairOf, pairOf, hadd, h _ (by omega), h _ (by omega)]
  exact congrArg ops.floatToBf16 (rowSum_congr ops hpairs)

/-- The output of a row, from the raw weights. -/
def routedAt (gateUp down input : Nat → BitVec 16) (topkIds : Nat → Nat) (topkWeights : Nat → F)
    (row : Nat) : F :=
  combineRoutes ops topkWeights fun route =>
    downEndpoint ops down (activatedAt ops gateUp input topkIds) topkIds route row

/-- The routes are combined from their endpoints. -/
theorem combineRoutes_congr (topkWeights : Nat → F) {endpoint endpoint' : Nat → BitVec 16}
    (h : ∀ route, route < 8 → endpoint route = endpoint' route) :
    combineRoutes ops topkWeights endpoint = combineRoutes ops topkWeights endpoint' := by
  refine List.foldl_ext _ _ _ fun value route hroute => ?_
  rw [h route (List.mem_range.mp hroute)]

/-- The second raw kernel. -/
theorem rawRouteOutputs_eq (launches : RawLaunches F) (gateUp down input : Nat → BitVec 16)
    (topkIds : Nat → Nat) {route row : Nat} (hroute : route < 8) (hrow : row < 2048) :
    Launch.run launches.down (rawDownStores ops down
        (rawActivated ops launches gateUp input topkIds) topkIds) launches.routeOutputs
        (route * 2048 + row) =
      downEndpoint ops down (activatedAt ops gateUp input topkIds) topkIds route row := by
  rw [← downEndpoint_congr ops down (fun task htask =>
    rawActivated_eq ops launches gateUp input topkIds htask) topkIds hroute row]
  generalize rawActivated ops launches gateUp input topkIds = activated
  have hstores : ∀ block wave, wave < 8 → rawDownStores ops down activated topkIds (block, wave) =
      [(block * 8 + wave, downEndpoint ops down activated topkIds ((block * 8 + wave) / 2048)
        ((block * 8 + wave) % 2048))] := by
    intro block wave hwave
    have hdiv : (block * 8 + wave) / 2048 = block / 256 := by omega
    have hmod : (block * 8 + wave) % 2048 = (block - block / 256 * 256) * 8 + wave := by omega
    have hplace : block * 8 + wave =
        block / 256 * 2048 + ((block - block / 256 * 256) * 8 + wave) := by omega
    rw [hdiv, hmod, hplace]
    rfl
  have hdiv : (route * 2048 + row) / 2048 = route := by omega
  have hmod : (route * 2048 + row) % 2048 = row := by omega
  have hmem : (route * 2048 + row, downEndpoint ops down activated topkIds route row) ∈
      rawDownStores ops down activated topkIds
        ((route * 2048 + row) / 8, (route * 2048 + row) % 8) := by
    rw [hstores _ _ (Nat.mod_lt _ (by omega)), Nat.div_add_mod', hdiv, hmod]
    exact List.mem_singleton_self _
  refine Launch.run_apply launches.down launches.routeOutputs
    (show (route * 2048 + row) / 8 < 2048 by omega)
    (show (route * 2048 + row) % 8 < 8 by omega) hmem ?_
  intro block wave _ hwave s hs hsame
  rw [hstores block wave hwave, List.mem_singleton] at hs
  rw [hs] at hsame ⊢
  have hsame : block * 8 + wave = route * 2048 + row := hsame
  rw [hsame, hdiv, hmod]

/-- The raw kernels. -/
theorem rawRouted_eq (launches : RawLaunches F) (gateUp down input : Nat → BitVec 16)
    (topkIds : Nat → Nat) (topkWeights : Nat → F) {row : Nat} (hrow : row < 2048) :
    rawRouted ops launches gateUp down input topkIds topkWeights row =
      routedAt ops gateUp down input topkIds topkWeights row := by
  have hendpoint := @rawRouteOutputs_eq F ops launches gateUp down input topkIds
  unfold rawRouted
  generalize Launch.run launches.down _ launches.routeOutputs = routeOutputs at hendpoint ⊢
  have hstores : ∀ block thread, block < 8 → thread < 256 →
      combineStores ops routeOutputs topkWeights hiddenSize (block, thread) =
        [(block * 256 + thread,
          routedAt ops gateUp down input topkIds topkWeights (block * 256 + thread))] := by
    intro block thread hblock hthread
    have hin : ¬hiddenSize ≤ block * vectorThreads + thread := by
      rw [hiddenSize, vectorThreads]
      omega
    have hmod : (block * 256 + thread) % 2048 = block * 256 + thread :=
      Nat.mod_eq_of_lt (by omega)
    simp only [combineStores, if_neg hin]
    simp only [vectorThreads, hiddenSize, hmod]
    rw [routedAt, combineRoutes_congr ops topkWeights fun route hroute =>
      hendpoint hroute (show block * 256 + thread < 2048 by omega)]
  have hmem : (row, routedAt ops gateUp down input topkIds topkWeights row) ∈
      combineStores ops routeOutputs topkWeights hiddenSize (row / 256, row % 256) := by
    rw [hstores _ _ (by omega) (by omega), Nat.div_add_mod']
    exact List.mem_singleton_self _
  refine Launch.run_apply launches.combine launches.routedOutput (show row / 256 < 8 by omega)
    (show row % 256 < 256 by omega) hmem ?_
  intro block thread hblock hthread s hs hsame
  rw [hstores block thread hblock hthread, List.mem_singleton] at hs
  rw [hs] at hsame ⊢
  have hsame : block * 256 + thread = row := hsame
  rw [hsame]

/-- The endpoints of a block of the fused kernel. -/
theorem fusedEndpoints_eq (fused : FusedLaunches F) (down activated : Nat → BitVec 16)
    (topkIds : Nat → Nat) (block : Nat) {localRow route : Nat} (hlocal : localRow < 4)
    (hroute : route < 8) :
    Launch.run (fused.endpointWaves block) (fusedEndpointStores ops down activated topkIds block)
        (fused.endpoints block) (localRow, route) =
      downEndpoint ops down activated topkIds route (block * 4 + localRow) := by
  have hstores : ∀ wave, fusedEndpointStores ops down activated topkIds block (0, wave) =
      [((wave / 8, wave % 8),
        downEndpoint ops down activated topkIds (wave % 8) (block * 4 + wave / 8))] := by
    intro wave
    rw [show wave % 8 = wave - wave / 8 * 8 by omega]
    rfl
  have hmem : ((localRow, route),
      downEndpoint ops down activated topkIds route (block * 4 + localRow)) ∈
      fusedEndpointStores ops down activated topkIds block (0, localRow * 8 + route) := by
    rw [hstores, show (localRow * 8 + route) / 8 = localRow by omega,
      show (localRow * 8 + route) % 8 = route by omega]
    exact List.mem_singleton_self _
  refine Launch.run_apply (fused.endpointWaves block) (fused.endpoints block)
    (show 0 < 1 by omega) (show localRow * 8 + route < 32 by omega) hmem ?_
  intro first wave hfirst _ s hs hsame
  obtain rfl : first = 0 := by omega
  rw [hstores wave, List.mem_singleton] at hs
  rw [hs] at hsame ⊢
  obtain ⟨hrows, hroutes⟩ := Prod.mk.inj hsame
  rw [hrows, hroutes]

/-- The fused kernel. -/
theorem fusedRouted_eq (launches : RawLaunches F) (fused : FusedLaunches F)
    (gateUp down input : Nat → BitVec 16) (topkIds : Nat → Nat) (topkWeights : Nat → F) {row : Nat}
    (hrow : row < 2048) :
    fusedRouted ops launches fused gateUp down input topkIds topkWeights row =
      routedAt ops gateUp down input topkIds topkWeights row := by
  have hstores : ∀ block thread, thread < 4 →
      fusedCombineStores ops fused down (rawActivated ops launches gateUp input topkIds) topkIds
        topkWeights (block, thread) = [(block * 4 + thread,
          routedAt ops gateUp down input topkIds topkWeights (block * 4 + thread))] := by
    intro block thread hthread
    have hcombined := combineRoutes_congr ops topkWeights fun route hroute =>
      (fusedEndpoints_eq ops fused down (rawActivated ops launches gateUp input topkIds) topkIds
        block hthread hroute).trans (downEndpoint_congr ops down (fun task htask =>
          rawActivated_eq ops launches gateUp input topkIds htask) topkIds hroute _)
    rw [routedAt, ← hcombined]
    rfl
  have hmem : (row, routedAt ops gateUp down input topkIds topkWeights row) ∈
      fusedCombineStores ops fused down (rawActivated ops launches gateUp input topkIds) topkIds
        topkWeights (row / 4, row % 4) := by
    rw [hstores _ _ (by omega), Nat.div_add_mod']
    exact List.mem_singleton_self _
  refine Launch.run_apply fused.combine fused.routedOutput (show row / 4 < 512 by omega)
    (show row % 4 < 4 by omega) hmem ?_
  intro block thread _ hthread s hs hsame
  rw [hstores block thread hthread, List.mem_singleton] at hs
  rw [hs] at hsame ⊢
  have hsame : block * 4 + thread = row := hsame
  rw [hsame]

/-- The packed kernels. -/
theorem paletteRouted_eq (launches : PaletteLaunches F) {gateUp down : Nat → BitVec 16}
    {packedGateUp packedDown : Memory} (hgateUp : Packs gateUp gateUpChunks packedGateUp)
    (hdown : Packs down downChunks packedDown) (input : Token → Nat → BitVec 16)
    {topkIds : Token → Nat → Nat}
    (hids : ∀ token route, route < expertsPerToken → topkIds token route < expertCount)
    (topkWeights : Token → Nat → F) (token : Token) {row : Nat} (hrow : row < 2048) :
    paletteRouted ops launches packedGateUp packedDown input topkIds topkWeights (token, row) =
      ops.bf16RoundToFloat (routedAt ops gateUp down (input token) (topkIds token)
        (topkWeights token) row) := by
  have hsize : downChunks = 1048576 := rfl
  have hactivated : ∀ token task, task < 4096 →
      paletteActivated ops launches packedGateUp input topkIds (token, task) =
        activatedAt ops gateUp (input token) (topkIds token) task :=
    fun token task htask => paletteActivated_eq ops launches hgateUp input hids token htask
  unfold paletteRouted
  generalize paletteActivated ops launches packedGateUp input topkIds = activated at hactivated ⊢
  -- The sum of a route is the endpoint that the raw kernel stores, once it is rounded.
  have hroute : ∀ token route row, route < 8 → row < 2048 →
      ops.bf16RoundToFloat (waveTreeSum ops (paletteLane ops packedDown
          (topkIds token route * 4096 + row * 2) 2
          (pairsAt (fun i => activated (token, i)) (route * moeExpertIntermediate)))) =
        ops.bf16ToFloat (downEndpoint ops down (activatedAt ops gateUp (input token)
          (topkIds token)) (topkIds token) route row) := by
    intro token route row hroute hrow
    have hid : topkIds token route < 256 := hids token route hroute
    have haddress : topkIds token route * 1048576 + row * 512 =
        (topkIds token route * 4096 + row * 2) * chunkValues := by
      rw [chunkValues]
      omega
    rw [← downEndpoint_congr ops down (hactivated token) (topkIds token) hroute row,
      paletteRow_eq ops hdown (by omega) (by omega) haddress]
    rfl
  have hcombined : ∀ row, row < 2048 → (List.range expertsPerToken).foldl
        (fun (combined : F × F) route =>
          (ops.mulAddSeparate combined.1 (topkWeights .primary route)
            (ops.bf16RoundToFloat (waveTreeSum ops (paletteLane ops packedDown
              (topkIds .primary route * 4096 + row * 2) 2
              (pairsAt (fun i => activated (.primary, i)) (route * moeExpertIntermediate))))),
          ops.mulAddSeparate combined.2 (topkWeights .alternate route)
            (ops.bf16RoundToFloat (waveTreeSum ops (paletteLane ops packedDown
              (topkIds .alternate route * 4096 + row * 2) 2
              (pairsAt (fun i => activated (.alternate, i)) (route * moeExpertIntermediate)))))))
        (ops.zero, ops.zero) =
      (routedAt ops gateUp down (input .primary) (topkIds .primary) (topkWeights .primary) row,
        routedAt ops gateUp down (input .alternate) (topkIds .alternate) (topkWeights .alternate)
          row) := by
    intro row hrow
    have hpair := foldl_pair
      (fun value route => ops.mulAddSeparate value (topkWeights .primary route)
        (ops.bf16ToFloat (downEndpoint ops down (activatedAt ops gateUp (input .primary)
          (topkIds .primary)) (topkIds .primary) route row)))
      (fun value route => ops.mulAddSeparate value (topkWeights .alternate route)
        (ops.bf16ToFloat (downEndpoint ops down (activatedAt ops gateUp (input .alternate)
          (topkIds .alternate)) (topkIds .alternate) route row)))
      (List.range expertsPerToken) (ops.zero, ops.zero)
    refine Eq.trans (List.foldl_ext _ _ _ fun combined route hmem => ?_) hpair
    rw [hroute .primary route row (List.mem_range.mp hmem) hrow,
      hroute .alternate route row (List.mem_range.mp hmem) hrow]
  have hstores : ∀ block wave, block < 256 → wave < 8 →
      paletteDownStores ops packedDown activated topkIds topkWeights (block, wave) =
        [((.primary, block * 8 + wave), ops.bf16RoundToFloat (routedAt ops gateUp down
            (input .primary) (topkIds .primary) (topkWeights .primary) (block * 8 + wave))),
          ((.alternate, block * 8 + wave), ops.bf16RoundToFloat (routedAt ops gateUp down
            (input .alternate) (topkIds .alternate) (topkWeights .alternate)
            (block * 8 + wave)))] := by
    intro block wave hblock hwave
    have hin : ¬hiddenSize ≤ block * rawWavesPerBlock + wave := by
      rw [hiddenSize, rawWavesPerBlock]
      omega
    have hsums := hcombined (block * 8 + wave) (by omega)
    simp only [paletteDownStores, if_neg hin, downLane_sums]
    exact congrArg (fun combined : F × F =>
      [((Token.primary, block * 8 + wave), ops.bf16RoundToFloat combined.1),
        ((Token.alternate, block * 8 + wave), ops.bf16RoundToFloat combined.2)]) hsums
  have hmem : ((token, row), ops.bf16RoundToFloat (routedAt ops gateUp down (input token)
      (topkIds token) (topkWeights token) row)) ∈
      paletteDownStores ops packedDown activated topkIds topkWeights (row / 8, row % 8) := by
    rw [hstores _ _ (by omega) (by omega), Nat.div_add_mod']
    cases token <;> simp
  refine Launch.run_apply launches.down launches.routedOutput (show row / 8 < 256 by omega)
    (show row % 8 < 8 by omega) hmem ?_
  intro block wave hblock hwave s hs hplace
  rw [hstores block wave hblock hwave] at hs
  simp only [List.mem_cons, List.not_mem_nil, or_false] at hs
  rcases hs with rfl | rfl
  · obtain ⟨rfl, rfl⟩ := Prod.mk.inj hplace
    rfl
  · obtain ⟨rfl, rfl⟩ := Prod.mk.inj hplace
    rfl

/-- The experts of two tokens whose weights are packed, in whatever order the waves of each kernel
    store, and whatever the arrays hold before. The packed kernels leave the activations of the raw
    ones for each token, and its output rounded; and the fused kernel leaves the output of the two
    that it replaces. -/
theorem palette_moe_agrees {gateUp down : Nat → BitVec 16} {packedGateUp packedDown : Memory}
    (hgateUp : Packs gateUp gateUpChunks packedGateUp) (hdown : Packs down downChunks packedDown)
    (input : Token → Nat → BitVec 16) {topkIds : Token → Nat → Nat}
    (hids : ∀ token route, route < expertsPerToken → topkIds token route < expertCount)
    (topkWeights : Token → Nat → F) (palette : PaletteLaunches F) (raw : RawLaunches F)
    (fused : FusedLaunches F) (token : Token) :
    (∀ task, task < expertsPerToken * moeExpertIntermediate →
      paletteActivated ops palette packedGateUp input topkIds (token, task) =
        rawActivated ops raw gateUp (input token) (topkIds token) task) ∧
    ∀ row, row < hiddenSize →
      paletteRouted ops palette packedGateUp packedDown input topkIds topkWeights (token, row) =
          ops.bf16RoundToFloat (rawRouted ops raw gateUp down (input token) (topkIds token)
            (topkWeights token) row) ∧
        fusedRouted ops raw fused gateUp down (input token) (topkIds token) (topkWeights token)
            row =
          rawRouted ops raw gateUp down (input token) (topkIds token) (topkWeights token) row := by
  refine ⟨?_, ?_⟩
  · intro task htask
    rw [paletteActivated_eq ops palette hgateUp input hids token htask,
      rawActivated_eq ops raw gateUp (input token) (topkIds token) htask]
  · intro row hrow
    rw [paletteRouted_eq ops palette hgateUp hdown input hids topkWeights token hrow,
      fusedRouted_eq ops raw fused gateUp down (input token) (topkIds token) (topkWeights token)
        hrow,
      rawRouted_eq ops raw gateUp down (input token) (topkIds token) (topkWeights token) hrow]
    exact ⟨rfl, rfl⟩

end Rows

/-- A device that counts: the pairs of a row and the routes. -/
def countingOps : DeviceOps Nat where
  zero := 0
  add := (· + ·)
  mul := (· * ·)
  dot2 := fun a b sum => sum + a.toNat * b.toNat
  mulAddSeparate := fun sum a b => sum + a * b
  silu := id
  bf16ToFloat := BitVec.toNat
  floatToBf16 := BitVec.ofNat 16

/-- Weights of one value, and two tokens that share some experts. -/
theorem palette_moe_agrees_shared : ∃ packedGateUp packedDown : Memory,
    Packs (fun _ => 0x3c01#16) gateUpChunks packedGateUp ∧
    Packs (fun _ => 0x3c02#16) downChunks packedDown ∧
    ∀ (palette : PaletteLaunches Nat) (raw : RawLaunches Nat),
      paletteRouted countingOps palette packedGateUp packedDown (fun _ i => BitVec.ofNat 16 i)
          (fun token route => match token with
            | .primary => route
            | .alternate => 2 * route) (fun _ route => route) (.alternate, 7) =
        countingOps.bf16RoundToFloat (rawRouted countingOps raw (fun _ => 0x3c01#16)
          (fun _ => 0x3c02#16) (fun i => BitVec.ofNat 16 i) (fun route => 2 * route)
          (fun route => route) 7) := by
  obtain ⟨packedGateUp, hgateUp⟩ := exists_packs (fun _ => 0x3c01#16) gateUpChunks
  obtain ⟨packedDown, hdown⟩ := exists_packs (fun _ => 0x3c02#16) downChunks
  refine ⟨packedGateUp, packedDown, hgateUp, hdown, ?_⟩
  intro palette raw
  have hids : ∀ (token : Token) (route : Nat), route < expertsPerToken →
      (match token with
        | .primary => route
        | .alternate => 2 * route) < expertCount := by
    intro token route hroute
    rw [expertsPerToken] at hroute
    cases token
    · exact Nat.lt_trans hroute (by decide)
    · exact Nat.lt_of_lt_of_le (Nat.mul_lt_mul_of_pos_left hroute (by decide)) (by decide)
  exact ((palette_moe_agrees countingOps hgateUp hdown (fun _ i => BitVec.ofNat 16 i) hids
    (fun _ route => route) palette raw
    { endpointWaves := fun _ => ⟨_, List.Perm.refl _⟩
      combine := ⟨_, List.Perm.refl _⟩
      endpoints := fun _ _ => 0#16
      routedOutput := fun _ => 0 } .alternate).2 7 (by decide)).1

end LosslessPalette

end QrtEngine
