import QrtEngine.Library.Buffer
import QrtEngine.Library.PaddedSort

/-!
# The Route Sort Kernels

The four kernels that sort the routes of a selected mixture-of-experts layer by expert.
Every token has eight routes, `topk_ids` gives the expert of each, and the sort places
the route numbers in one segment for each expert, padded to the row block of the matrix
kernels that follow.

A kernel is a program run once for each program id of its grid. The programs of a launch
run in any order, and a launch starts when the one before it has finished, so a launch is
a fold over some ordering of the grid and `Schedule` holds one ordering for each launch.

The buffers hold integers of thirty-two bits and the kernels calculate with them, so every
sum and every product of the kernels wraps. A pointer is not such an integer: what is added
to it is added without a width, and neither are the constants of the compilation.

Every load and every store is checked against the buffer's length, so a run that returns
`some` never left a buffer.

## Main definitions

* `Shape`: The shape constants `configure_shape` accepts.
* `Buffers`: The buffers the kernels share.
* `i32`: What thirty-two bits hold of a result.
* `routeCountKernel`, `routePrefixByProgramKernel`, `routePaddedPrefixKernel`,
  `routeScatterKernel`: The programs.
* `routeSort`: The four launches.
-/

namespace QrtEngine

namespace RouteSort

open Buffer

/-- The number of experts, and of routes one program sorts. -/
def experts : Nat := 256

/-- The routes of one sorting program. -/
def routesPerSortProgram : Nat := 256

/-- The shape constants of a compilation, with what `configure_shape` checks of them. -/
structure Shape where
  tokens : Nat
  blockM : Nat
  tokens_pos : 0 < tokens
  routes_dvd : tokens * 8 % 256 = 0
  blockM_mem : blockM = 16 ∨ blockM = 32 ∨ blockM = 64 ∨ blockM = 128

/-- The part of `configure_shape` that concerns the sort: a shape, or a refusal. -/
def configureShape (tokens blockM : Nat) : Option Shape :=
  if htokens : 0 < tokens ∧ tokens * 8 % 256 = 0 then
    if hblock : blockM = 16 ∨ blockM = 32 ∨ blockM = 64 ∨ blockM = 128 then
      some { tokens := tokens, blockM := blockM, tokens_pos := htokens.1,
             routes_dvd := htokens.2, blockM_mem := hblock }
    else none
  else none

namespace Shape

variable (sh : Shape)

/-- The number of routes. -/
def routes : Nat := sh.tokens * 8

/-- The number of sorting programs. -/
def routePrograms : Nat := sh.routes / 256

/-- The length of the sorted buffer. -/
def maxSortedRoutes : Nat := sh.routes + 256 * sh.blockM - 8

/-- The length of the block owner buffer. -/
def maxRouteBlocks : Nat := (sh.maxSortedRoutes + sh.blockM - 1) / sh.blockM

end Shape

/-- What an integer of thirty-two bits holds of a result. -/
def i32 (x : Int) : Int := x.bmod (2 ^ 32)

/-- The buffers the kernels share. -/
structure Buffers where
  topkIds : List Int
  tokenCounts : List Int
  cumsum : List Int
  totalPostPad : List Int
  sortedRouteIds : List Int
  blockExpertIds : List Int
deriving DecidableEq, Repr

/-- One iteration of the counting loop. -/
def countStep (pid : Nat) (s : Buffers) (offset : Nat) : Option Buffers := do
  let source := i32 (pid * routesPerSortProgram)
  -- Row zero stays empty, so that the running counts can begin there.
  let countBase := i32 (i32 (pid + 1) * experts)
  let expert ← loadAt s.topkIds (source + offset)
  let count ← loadAt s.tokenCounts (countBase + expert)
  let tokenCounts ← storeAt s.tokenCounts (countBase + expert) (i32 (count + 1))
  some { s with tokenCounts := tokenCounts }

/-- Count the experts of one chunk of routes into the row after the chunk's own. -/
def routeCountKernel (s : Buffers) (pid : Nat) : Option Buffers :=
  (List.range routesPerSortProgram).foldlM (countStep pid) s

/-- One iteration of the running count of an expert, over the programs from one on. -/
def prefixStep (expert : Nat) (state : Int × Buffers) (i : Nat) : Option (Int × Buffers) := do
  let program : Int := i + 1
  let index := i32 (i32 (program * experts) + expert)
  let count ← loadAt state.2.tokenCounts index
  let running := i32 (state.1 + count)
  let tokenCounts ← storeAt state.2.tokenCounts index running
  some (running, { state.2 with tokenCounts := tokenCounts })

/-- Turn the counts of one expert into running counts over the chunks. -/
def routePrefixByProgramKernel (sh : Shape) (s : Buffers) (expert : Nat) : Option Buffers := do
  let last ← (List.range sh.routePrograms).foldlM (prefixStep expert) (0, s)
  some last.2

/-- The rounded-up quotient. -/
def cdiv (x y : Int) : Int := (x + y - 1) / y

/-- The same in thirty-two bits, where a quotient is rounded towards zero. -/
def cdiv32 (x y : Int) : Int := (i32 (i32 (x + y) - 1)).tdiv y

/-- One iteration of the padded running sum, over the experts plus one from one on. -/
def paddedStep (sh : Shape) (state : Int × Buffers) (i : Nat) : Option (Int × Buffers) := do
  -- The last row has the counts of all the chunks. Its place is a constant.
  let finalCountBase : Int := sh.routePrograms * experts
  let expertPlusOne : Int := i + 1
  let count ← loadAt state.2.tokenCounts (finalCountBase + expertPlusOne - 1)
  let running := i32 (state.1 + i32 (cdiv32 count sh.blockM * sh.blockM))
  let cumsum ← storeAt state.2.cumsum expertPlusOne running
  some (running, { state.2 with cumsum := cumsum })

/-- The padded start of every expert's segment, and the padded total. -/
def routePaddedPrefixKernel (sh : Shape) (s : Buffers) (_pid : Nat) : Option Buffers := do
  let last ← (List.range experts).foldlM (paddedStep sh) (0, s)
  let totalPostPad ← storeAt last.2.totalPostPad 0 last.1
  some { last.2 with totalPostPad := totalPostPad }

/-- The offsets `range(first, last, step)` visits. -/
def stepRange (first last step : Int) : List Int :=
  (List.range (cdiv (last - first) step).toNat).map fun (k : Nat) => first + k * step

/-- One iteration of the block naming loop. -/
def blockStep (sh : Shape) (pid : Nat) (s : Buffers) (offset : Int) : Option Buffers := do
  let blockExpertIds ← storeAt s.blockExpertIds (offset.tdiv sh.blockM) pid
  some { s with blockExpertIds := blockExpertIds }

/-- Name the owner of the blocks of one expert. -/
def nameBlocks (sh : Shape) (s : Buffers) (pid : Nat) : Option Buffers :=
  if pid < experts then do
    let paddedBegin ← loadAt s.cumsum pid
    let paddedEnd ← loadAt s.cumsum (pid + 1)
    (stepRange paddedBegin paddedEnd sh.blockM).foldlM (blockStep sh pid) s
  else some s

/-- One iteration of the placing loop. -/
def scatterStep (pid : Nat) (s : Buffers) (offset : Nat) : Option Buffers := do
  let source := i32 (pid * routesPerSortProgram)
  -- The row of the chunk itself, which counts the chunks before it.
  let localCountBase := i32 (pid * experts)
  let route := i32 (source + offset)
  let expert ← loadAt s.topkIds route
  let rank ← loadAt s.tokenCounts (localCountBase + expert)
  let base ← loadAt s.cumsum expert
  let destination := i32 (rank + base)
  let sortedRouteIds ← storeAt s.sortedRouteIds destination route
  let tokenCounts ← storeAt s.tokenCounts (localCountBase + expert) (i32 (rank + 1))
  some { s with sortedRouteIds := sortedRouteIds, tokenCounts := tokenCounts }

/-- Place the routes of one chunk. -/
def scatterChunk (s : Buffers) (pid : Nat) : Option Buffers :=
  (List.range routesPerSortProgram).foldlM (scatterStep pid) s

/-- Name the owner of the blocks of one expert, then place the routes of one chunk. -/
def routeScatterKernel (sh : Shape) (s : Buffers) (pid : Nat) : Option Buffers := do
  let s ← nameBlocks sh s pid
  -- There may be more experts than chunks, and the other way round.
  if pid ≥ sh.routePrograms then some s else scatterChunk s pid

/-- An order of the programs of each launch, over the grids of `kernel_specs`. -/
structure Schedule (sh : Shape) where
  count : List Nat
  prefixByProgram : List Nat
  paddedPrefix : List Nat
  scatter : List Nat
  count_perm : count.Perm (List.range sh.routePrograms)
  prefixByProgram_perm : prefixByProgram.Perm (List.range 256)
  paddedPrefix_perm : paddedPrefix.Perm (List.range 1)
  scatter_perm : scatter.Perm (List.range (max sh.routePrograms 256))

/-- The four launches. -/
def routeSort (sh : Shape) (order : Schedule sh) (s : Buffers) : Option Buffers := do
  let s ← order.count.foldlM routeCountKernel s
  let s ← order.prefixByProgram.foldlM (routePrefixByProgramKernel sh) s
  let s ← order.paddedPrefix.foldlM (routePaddedPrefixKernel sh) s
  order.scatter.foldlM (routeScatterKernel sh) s

/-- The buffers a sort starts from: the chosen experts, zeroed counts and sums, a sorted
    buffer full of one value, and anything in the two results. -/
structure Fresh (sh : Shape) (sentinel : Int) (s : Buffers) : Prop where
  topkIds_length : s.topkIds.length = sh.routes
  topkIds_range : ∀ x ∈ s.topkIds, 0 ≤ x ∧ x < 256
  tokenCounts_eq : s.tokenCounts = List.replicate ((sh.routePrograms + 1) * 256) 0
  cumsum_eq : s.cumsum = List.replicate 257 0
  totalPostPad_length : s.totalPostPad.length = 1
  sortedRouteIds_eq : s.sortedRouteIds = List.replicate sh.maxSortedRoutes sentinel
  blockExpertIds_length : s.blockExpertIds.length = sh.maxRouteBlocks
  sentinel_out : sentinel < 0 ∨ (sh.routes : Int) ≤ sentinel

end RouteSort

end QrtEngine
