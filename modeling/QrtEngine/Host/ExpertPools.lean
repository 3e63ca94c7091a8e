import QrtEngine.Host.ExpertRoutes

/-!
# The Three Ways Through the Experts

The routes of a token go through their experts in one of three ways. The compute pool gets the
rows of all routes in small tasks, first those of the gate and up projections and, when these are
done and activated, those of the down projections. If that does not succeed the outputs are
cleared, and the route pool gets each route as one task. If there is no route pool either, the
caller takes one route after the other. The tasks end where blocks of rows do, so all three leave
the same outputs and say of the same routes that they have failed, and so does their sum. The projections
are those of the processor: an engine may be asked to try a HIP library first, whose results are
its own.

## Main definitions

* `RouteTask`: `qrt_qwen36_moe_route_compute_task_t`.
* `PoolsUse`: The pools that a token finds, and the turns of their workers.
* `computePoolRun`: `qrt_win32_moe_compute_pool_run`.
* `computeRoutes`: The three ways.
* `routedOutput`: The outputs of the routes, added.

## Theorems

* `programs_flatten`: The tasks of a phase have all blocks of all routes.
* `computePoolRun_eq`: What the compute pool leaves if it succeeds.
* `routed_experts_any_way`: The three ways do the same.
-/

namespace QrtEngine

namespace ExpertRoutes

open Projection (hiddenSize)

/-! ## The tasks of a phase -/

/-- `QRT_QWEN36_MOE_TOP_K`. -/
def topK : Nat := 8

/-- `QRT_QWEN36_MOE_COMPUTE_TASK_CAPACITY`. -/
def computeTaskCapacity : Nat := 256

/-- `QRT_QWEN36_MOE_GATE_UP_INTER_PER_TASK`. -/
def gateUpInterPerTask : Nat := 64

/-- `QRT_QWEN36_MOE_DOWN_ROWS_PER_TASK`. -/
def downRowsPerTask : Nat := 128

/-- The tasks of a phase: for each route the parts of its rows. -/
def phaseTasks (routeCount rows perTask : Nat) : List (Nat × Projection.Task) :=
  (List.range routeCount).flatMap fun route =>
    (Projection.splitRows rows perTask rows 0).map fun task => (route, task)

/-- The blocks that a task goes through. -/
def program (phase : Block → Step) (task : Nat × Projection.Task) : List (Nat × Step) :=
  (blocks task.2.rowBegin task.2.rowEnd).map fun block => (task.1, phase block)

def programs (phase : Block → Step) (tasks : List (Nat × Projection.Task)) :
    List (List (Nat × Step)) :=
  tasks.map (program phase)

/-- The parts of the rows have all blocks. -/
theorem flatten_blocks {rows perTask limit rowBegin : Nat} (hfour : 4 ∣ perTask)
    (henough : rows ≤ rowBegin + limit * perTask) :
    ((Projection.splitRows rows perTask limit rowBegin).map fun task =>
      blocks task.rowBegin task.rowEnd).flatten = blocks rowBegin rows := by
  have hempty : ∀ first, rows ≤ first → blocks first rows = [] := by
    intro first hle
    rw [blocks, if_neg (by omega), Nat.sub_eq_zero_of_le hle]
    rfl
  induction limit generalizing rowBegin with
  | zero =>
      rw [Nat.zero_mul, Nat.add_zero] at henough
      rw [hempty rowBegin henough]
      rfl
  | succ limit ih =>
      rw [Projection.splitRows]
      by_cases hlt : rowBegin < rows
      · rw [Nat.succ_mul] at henough
        rw [if_pos hlt, List.map_cons, List.flatten_cons, ih (by omega)]
        dsimp only
        by_cases hlast : rowBegin + perTask ≤ rows
        · rw [Nat.min_eq_left hlast]
          exact (blocks_append (by rwa [Nat.add_sub_cancel_left]) (by omega) hlast).symm
        · rw [Nat.min_eq_right (by omega), hempty (rowBegin + perTask) (by omega),
            List.append_nil]
      · rw [if_neg hlt, hempty rowBegin (Nat.le_of_not_lt hlt)]
        rfl

/-- The tasks of a phase have all blocks of all routes. -/
theorem programs_flatten (phase : Block → Step) (routeCount rows : Nat) {perTask : Nat}
    (hfour : 4 ∣ perTask) (hpos : 0 < perTask) :
    (programs phase (phaseTasks routeCount rows perTask)).flatten =
      (List.range routeCount).flatMap fun route =>
        ((blocks 0 rows).map phase).map fun step => (route, step) := by
  have henough : rows ≤ 0 + rows * perTask := by
    rw [Nat.zero_add]
    exact Nat.le_mul_of_pos_right rows hpos
  rw [programs, phaseTasks, List.map_flatMap, ← List.flatMap_id, List.flatMap_assoc]
  refine List.flatMap_congr fun route _ => ?_
  rw [← flatten_blocks hfour henough, List.flatMap_id, List.map_flatten, List.map_flatten,
    List.map_map, List.map_map, List.map_map]
  congr 1
  refine List.map_congr_left fun task _ => ?_
  simp only [Function.comp_apply, program, List.map_map]
  rfl

/-- How many tasks a phase has. -/
theorem phaseTasks_length (routeCount rows perTask : Nat) :
    (phaseTasks routeCount rows perTask).length =
      routeCount * (Projection.splitRows rows perTask rows 0).length := by
  rw [phaseTasks, List.length_flatMap]
  simp

/-! ## The routes of a token -/

/-- `qrt_qwen36_moe_route_compute_task_t`, without the output and the result. -/
structure RouteTask (F : Type) where
  gateUpWeight : Nat → UInt16
  downWeight : Nat → UInt16
  input : Nat → F
  scale : F

/-- The buffers of a route. -/
structure Buffers (F : Type) where
  gateValues : Nat → F
  upValues : Nat → F
  activated : Nat → F

/-- A route at its start. -/
def RouteTask.state {F : Type} (task : RouteTask F) (output : Nat → F) (buffers : Buffers F) :
    RouteState F :=
  { gateUpWeight := task.gateUpWeight
    downWeight := task.downWeight
    input := task.input
    scale := task.scale
    output := output
    gateValues := buffers.gateValues
    upValues := buffers.upValues
    activated := buffers.activated }

/-- The pools that a token finds: whether they may be used, whether the compute pool and the route
    pool are there or can be created, and the turns that their workers take at its tasks. -/
structure PoolsUse where
  enabled : Bool
  computePool : Bool
  routePool : Bool
  gateUpLog : List (Nat × Nat)
  downLog : List (Nat × Nat)
  routeLog : List (Nat × Nat)

/-- What the compute pool comes to: whether it has succeeded, whether the pools may be used from
    then on, and the routes. -/
structure ComputeRun (F : Type) where
  ok : Bool
  enabled : Bool
  routes : Nat → RouteState F

section Pools

variable {F : Type} (ops : ExpertOps F) (kernel : Kernel F)

/-- A step of a route among the routes of a token. -/
def routeStep : Nat × Step → (Nat → RouteState F) → Bool × (Nat → RouteState F) :=
  Interleave.onPart (step ops kernel)

/-- The workers of a pool at some programs: whether all of these have succeeded, and the routes. -/
def runPrograms (programs : List (List (Nat × Step))) (log : List (Nat × Nat))
    (routes : Nat → RouteState F) : Bool × (Nat → RouteState F) :=
  let board := log.foldl (Interleave.perform (routeStep ops kernel) programs)
    (Interleave.Board.start routes)
  ((List.range programs.length).all board.ok, board.state)

/-- `qrt_win32_moe_compute_pool_run_tasks`, with a pool that may be used. -/
def runTasks (phase : Block → Step) (tasks : List (Nat × Projection.Task))
    (log : List (Nat × Nat)) (routes : Nat → RouteState F) : Bool × (Nat → RouteState F) :=
  if tasks.length = 0 ∨ computeTaskCapacity < tasks.length then (false, routes)
  else runPrograms ops kernel (programs phase tasks) log routes

/-- The gate and up projections of all routes. -/
def gateUpPhase (use : PoolsUse) (routeCount : Nat) (routes : Nat → RouteState F) :
    Bool × (Nat → RouteState F) :=
  runTasks ops kernel .gateUp (phaseTasks routeCount expertIntermediate gateUpInterPerTask)
    use.gateUpLog routes

/-- All routes are activated by the caller. -/
def activatePhase (routeCount : Nat) (routes : Nat → RouteState F) :
    Bool × (Nat → RouteState F) :=
  Interleave.sequence (routeStep ops kernel)
    ((List.range routeCount).flatMap fun route =>
      ((List.range expertIntermediate).map Step.activate).map fun step => (route, step)) routes

/-- The down projections of all routes. -/
def downPhase (use : PoolsUse) (routeCount : Nat) (routes : Nat → RouteState F) :
    Bool × (Nat → RouteState F) :=
  runTasks ops kernel .down (phaseTasks routeCount hiddenSize downRowsPerTask) use.downLog routes

/-- The buffers of the compute pool are cleared. -/
def clearBuffers : Buffers F :=
  { gateValues := fun _ => ops.zero
    upValues := fun _ => ops.zero
    activated := fun _ => ops.zero }

/-- The routes as the compute pool gets them. -/
def computeStates (tasks : Nat → RouteTask F) (outputs : Nat → Nat → F) : Nat → RouteState F :=
  fun route => (tasks route).state (outputs route) (clearBuffers ops)

/-- `qrt_win32_moe_compute_pool_run`, as long as neither projection is requested from HIP. On
    request each of the two phases is first offered to a HIP library, and its tasks run only if
    that declines. -/
def computePoolRun (use : PoolsUse) (routeCount : Nat) (tasks : Nat → RouteTask F)
    (outputs : Nat → Nat → F) : ComputeRun F :=
  let routes := computeStates ops tasks outputs
  if routeCount = 0 ∨ topK < routeCount ∨ use.enabled = false then ⟨false, use.enabled, routes⟩
  else if use.computePool = false then ⟨false, false, routes⟩
  else
    let gateUp := gateUpPhase ops kernel use routeCount routes
    if gateUp.1 = false then ⟨false, true, gateUp.2⟩
    else
      let activated := activatePhase ops kernel routeCount gateUp.2
      if activated.1 = false then ⟨false, true, activated.2⟩
      else
        let down := downPhase ops kernel use routeCount activated.2
        ⟨down.1, true, down.2⟩

/-- The outputs of the routes, and which of them have one. -/
structure RouteOutputs (F : Type) where
  ok : Nat → Bool
  outputs : Nat → Nat → F

/-- The programs of the route pool: each route is a task. -/
def routePrograms (routeCount : Nat) : List (List Step) := List.replicate routeCount expertSteps

/-- What the workers of the route pool leave. -/
def routePoolRun (use : PoolsUse) (routeCount : Nat) (tasks : Nat → RouteTask F)
    (buffers : Nat → Buffers F) (outputs : Nat → Nat → F) : RouteOutputs F :=
  let board := use.routeLog.foldl
    (Interleave.perform (routeStep ops kernel) (Interleave.tagged (routePrograms routeCount)))
    (Interleave.Board.start fun route => (tasks route).state (outputs route) (buffers route))
  ⟨board.ok, fun route => (board.state route).output⟩

/-- The caller takes one route after the other. -/
def serialRun (tasks : Nat → RouteTask F) (buffers : Nat → Buffers F)
    (outputs : Nat → Nat → F) : RouteOutputs F :=
  let run := fun route => expertKernel ops kernel ((tasks route).state (outputs route)
    (buffers route))
  ⟨fun route => (run route).1, fun route => (run route).2.output⟩

/-- The outputs are cleared. -/
def clearOutputs : Nat → Nat → F := fun _ _ => ops.zero

/-- The three ways, in the order in which they are tried. -/
def computeRoutes (use : PoolsUse) (tasks : Nat → RouteTask F) (buffers : Nat → Buffers F) :
    RouteOutputs F :=
  let run := computePoolRun ops kernel use topK tasks (clearOutputs ops)
  if run.ok then ⟨fun _ => true, fun route => (run.routes route).output⟩
  else if run.enabled && use.routePool then
    routePoolRun ops kernel use topK tasks buffers (clearOutputs ops)
  else serialRun ops kernel tasks buffers (clearOutputs ops)

/-- Add a row of a route to the output of the token. -/
def addRow (outputs : Nat → Nat → F) (entry : Nat × Nat) (routed : Nat → F) : Bool × (Nat → F) :=
  let value := ops.add (routed entry.2) (outputs entry.1 entry.2)
  (!ops.isNan value, Function.update routed entry.2 value)

/-- The outputs of the routes, added in the order of the routes, if each route has one. -/
def addRoutes (routes : RouteOutputs F) (routed : Nat → F) : Bool × (Nat → F) :=
  if (List.range topK).all routes.ok then
    Interleave.sequence (addRow ops routes.outputs)
      ((List.range topK).flatMap fun route => (List.range hiddenSize).map fun row => (route, row))
      routed
  else (false, routed)

/-- What the experts add to the output of the token. -/
def routedOutput (use : PoolsUse) (tasks : Nat → RouteTask F) (buffers : Nat → Buffers F)
    (routed : Nat → F) : Bool × (Nat → F) :=
  addRoutes ops (computeRoutes ops kernel use tasks buffers) routed

end Pools

section Independence

variable {F : Type} (ops : ExpertOps F) (kernel : Kernel F)

/-- Two blocks that are apart are written in any order. -/
theorem overlay_comm {block other : Block} (h : block.Apart other)
    (values values' buffer : Nat → F) :
    overlay block values (overlay other values' buffer) =
      overlay other values' (overlay block values buffer) := by
  funext row
  simp only [overlay]
  by_cases hrow : block.covers row = true
  · by_cases hother : other.covers row = true
    · exact absurd ⟨hrow, hother⟩ (h row)
    · rw [if_pos hrow, if_neg hother, if_pos hrow]
  · rw [if_neg hrow, if_neg hrow]

/-- A block does not see what is written to one that is apart. -/
theorem overlay_apart {block other : Block} (h : block.Apart other) (values buffer : Nat → F)
    {row : Nat} (hrow : block.covers row = true) : overlay other values buffer row = buffer row :=
  if_neg fun hother => h row ⟨hrow, hother⟩

/-- What an output comes to in a block that is apart does not change. -/
theorem downOutput_apart {block other : Block} (h : block.Apart other) (s : RouteState F)
    (values : Nat → F) {row : Nat} (hrow : block.covers row = true) :
    downOutput ops kernel { s with output := overlay other values s.output } block row =
      downOutput ops kernel s block row := by
  have hvalue : downValue ops kernel { s with output := overlay other values s.output } block row =
      downValue ops kernel s block row := rfl
  rw [downOutput, downOutput, hvalue]
  exact congrArg (fun value => ops.add value _) (overlay_apart h values s.output hrow)

/-- The blocks of the gate and up projections leave each other alone. -/
theorem gateUp_independent (rows : Nat) :
    Interleave.Independent (step ops kernel) ((blocks 0 rows).map .gateUp) := by
  refine Interleave.Independent.map (Interleave.independent_of_guarded
    (fun block s => block.rows.any fun inter => ops.isNan (gateValue ops kernel s block inter) ||
      ops.isNan (upValue ops kernel s block inter))
    (fun _ _ => true)
    (fun block s => { s with
      gateValues := overlay block (gateValue ops kernel s block) s.gateValues
      upValues := overlay block (upValue ops kernel s block) s.upValues })
    (fun _ _ _ => rfl) ?_)
  intro block hblock other hother hne s
  have hapart := blocks_eq_or_apart hblock hother hne
  refine ⟨rfl, rfl, ?_⟩
  have hgate := overlay_comm hapart (gateValue ops kernel s block) (gateValue ops kernel s other)
    s.gateValues
  have hup := overlay_comm hapart (upValue ops kernel s block) (upValue ops kernel s other)
    s.upValues
  exact congrArg₂ (fun gates ups => { s with gateValues := gates, upValues := ups }) hgate hup

/-- The blocks of the down projections leave each other alone. -/
theorem down_independent (rows : Nat) :
    Interleave.Independent (step ops kernel) ((blocks 0 rows).map .down) := by
  refine Interleave.Independent.map (Interleave.independent_of_guarded
    (fun block s => block.rows.any fun row => ops.isNan (downValue ops kernel s block row))
    (fun block s => !block.rows.any fun row => ops.isNan (downOutput ops kernel s block row))
    (fun block s => { s with
      output := overlay block (downOutput ops kernel s block) s.output })
    (fun _ _ _ => rfl) ?_)
  intro block hblock other hother hne s
  have hapart := blocks_eq_or_apart hblock hother hne
  have hapart' := blocks_eq_or_apart hother hblock (Ne.symm hne)
  have hkeep : ∀ {b b' : Block}, b.Apart b' → ∀ row, b.covers row = true →
      downOutput ops kernel { s with
        output := overlay b' (downOutput ops kernel s b') s.output } b row =
      downOutput ops kernel s b row :=
    fun h row hrow => downOutput_apart ops kernel h s _ hrow
  refine ⟨rfl, ?_, ?_⟩
  · refine congrArg Bool.not ?_
    rw [Bool.eq_iff_iff, List.any_eq_true, List.any_eq_true]
    refine exists_congr fun row => and_congr_right fun hrow => ?_
    rw [hkeep hapart row ((block.mem_rows row).mp hrow)]
  · have hsame : ∀ {b b' : Block}, b.Apart b' → ∀ buffer : Nat → F,
        overlay b (downOutput ops kernel { s with
          output := overlay b' (downOutput ops kernel s b') s.output } b) buffer =
        overlay b (downOutput ops kernel s b) buffer := by
      intro b b' h buffer
      funext row
      by_cases hrow : b.covers row = true
      · simp only [overlay, if_pos hrow]
        exact hkeep h row hrow
      · simp only [overlay, if_neg hrow]
    have houtput := overlay_comm hapart (downOutput ops kernel s block)
      (downOutput ops kernel s other) s.output
    rw [← hsame hapart, ← hsame hapart' (overlay block _ _)] at houtput
    exact congrArg (fun output => { s with output := output }) houtput

end Independence

/-! ## The phases -/

/-- The tasks of a route in the first phase. -/
theorem gateUp_tasks :
    (Projection.splitRows expertIntermediate gateUpInterPerTask expertIntermediate 0).length =
      8 := by
  decide

/-- The tasks of a route in the second phase. -/
theorem down_tasks :
    (Projection.splitRows hiddenSize downRowsPerTask hiddenSize 0).length = 16 := by
  decide

/-- The jobs of a token are jobs that the pools take. -/
theorem jobs_accepted :
    WorkerPool.Kind.moeCompute.accepts (WorkerPool.jobOf
        (programs .gateUp (phaseTasks topK expertIntermediate gateUpInterPerTask))) = true ∧
      WorkerPool.Kind.moeCompute.accepts (WorkerPool.jobOf
        (programs .down (phaseTasks topK hiddenSize downRowsPerTask))) = true ∧
      WorkerPool.Kind.moeRoute.accepts (WorkerPool.jobOf
        (Interleave.tagged (routePrograms topK))) = true := by
  have hgateUp := phaseTasks_length topK expertIntermediate gateUpInterPerTask
  have hdown := phaseTasks_length topK hiddenSize downRowsPerTask
  rw [gateUp_tasks] at hgateUp
  rw [down_tasks] at hdown
  simp only [WorkerPool.Kind.accepts, WorkerPool.jobOf, programs, routePrograms, Interleave.tagged,
    WorkerPool.Kind.minTasks, WorkerPool.Kind.taskCapacity, List.length_map, List.length_zipIdx,
    List.length_replicate, hgateUp, hdown]
  decide

section Phases

variable {F : Type} (ops : ExpertOps F) (kernel : Kernel F)

/-- The workers of a pool at the tasks of a phase: they succeed if the phase does on each route,
    and leave in each route what it leaves there. -/
theorem runTasks_spec (phase : Block → Step) (hphase : Function.Injective phase)
    {routeCount rows perTask : Nat} (hfour : 4 ∣ perTask) (hpos : 0 < perTask)
    (hind : Interleave.Independent (step ops kernel) ((blocks 0 rows).map phase))
    (hcount : 0 < (phaseTasks routeCount rows perTask).length ∧
      (phaseTasks routeCount rows perTask).length ≤ computeTaskCapacity)
    (log : List (Nat × Nat))
    (hlog : Interleave.Complete (programs phase (phaseTasks routeCount rows perTask)) log)
    (routes : Nat → RouteState F) :
    let run := runTasks ops kernel phase (phaseTasks routeCount rows perTask) log routes
    (run.1 = true ↔ ∀ route < routeCount,
      (Interleave.sequence (step ops kernel) ((blocks 0 rows).map phase) (routes route)).1 =
        true) ∧
    (run.1 = true → ∀ route < routeCount, run.2 route =
      (Interleave.sequence (step ops kernel) ((blocks 0 rows).map phase) (routes route)).2) := by
  have hflatten := programs_flatten phase routeCount rows hfour hpos
  have hnodup : (programs phase (phaseTasks routeCount rows perTask)).flatten.Nodup := by
    rw [hflatten]
    exact Interleave.nodup_parts List.nodup_range ((blocks_nodup 0 rows).map hphase)
  have hindependent : Interleave.Independent (routeStep ops kernel)
      (programs phase (phaseTasks routeCount rows perTask)).flatten := by
    rw [hflatten]
    exact Interleave.onPart_independent (List.range routeCount) hind
  obtain ⟨hok, hstate⟩ := Interleave.perform_eq_sequence hnodup hindependent log hlog routes
  obtain ⟨hall, hparts⟩ := @Interleave.sequence_parts _ _ (step ops kernel)
    (List.range routeCount) List.nodup_range ((blocks 0 rows).map phase) routes
  rw [hflatten] at hok hstate
  simp only [List.mem_range] at hall hparts
  have hflag : (runTasks ops kernel phase (phaseTasks routeCount rows perTask) log routes).1 =
      true ↔ (Interleave.sequence (routeStep ops kernel)
        ((List.range routeCount).flatMap fun route =>
          ((blocks 0 rows).map phase).map fun step => (route, step)) routes).1 = true := by
    rw [← hok, runTasks, if_neg (by omega)]
    simp [runPrograms]
  refine ⟨hflag.trans hall, fun hdone route hroute => ?_⟩
  have hseq := hflag.mp hdone
  rw [runTasks, if_neg (by omega)]
  have hleft := congrFun ((hstate hseq).trans (hparts hseq)) route
  rwa [if_pos hroute] at hleft

/-- The gate and up projections of all routes, by the workers of the compute pool. -/
theorem gateUpPhase_spec (use : PoolsUse) {routeCount : Nat} (hcount : 0 < routeCount)
    (htop : routeCount ≤ topK)
    (hlog : Interleave.Complete
      (programs .gateUp (phaseTasks routeCount expertIntermediate gateUpInterPerTask))
      use.gateUpLog) (routes : Nat → RouteState F) :
    ((gateUpPhase ops kernel use routeCount routes).1 = true ↔ ∀ route < routeCount,
      (Interleave.sequence (step ops kernel) ((blocks 0 expertIntermediate).map .gateUp)
        (routes route)).1 = true) ∧
    ((gateUpPhase ops kernel use routeCount routes).1 = true → ∀ route < routeCount,
      (gateUpPhase ops kernel use routeCount routes).2 route =
        (Interleave.sequence (step ops kernel) ((blocks 0 expertIntermediate).map .gateUp)
          (routes route)).2) := by
  have hlength := phaseTasks_length routeCount expertIntermediate gateUpInterPerTask
  rw [gateUp_tasks] at hlength
  simp only [topK] at htop
  exact runTasks_spec ops kernel .gateUp (fun _ _ h => Step.gateUp.inj h) (by decide) (by decide)
    (gateUp_independent ops kernel expertIntermediate)
    (by simp only [computeTaskCapacity]; omega) use.gateUpLog hlog routes

/-- The down projections of all routes, by the workers of the compute pool. -/
theorem downPhase_spec (use : PoolsUse) {routeCount : Nat} (hcount : 0 < routeCount)
    (htop : routeCount ≤ topK)
    (hlog : Interleave.Complete
      (programs .down (phaseTasks routeCount hiddenSize downRowsPerTask)) use.downLog)
    (routes : Nat → RouteState F) :
    ((downPhase ops kernel use routeCount routes).1 = true ↔ ∀ route < routeCount,
      (Interleave.sequence (step ops kernel) ((blocks 0 hiddenSize).map .down)
        (routes route)).1 = true) ∧
    ((downPhase ops kernel use routeCount routes).1 = true → ∀ route < routeCount,
      (downPhase ops kernel use routeCount routes).2 route =
        (Interleave.sequence (step ops kernel) ((blocks 0 hiddenSize).map .down)
          (routes route)).2) := by
  have hlength := phaseTasks_length routeCount hiddenSize downRowsPerTask
  rw [down_tasks] at hlength
  simp only [topK] at htop
  exact runTasks_spec ops kernel .down (fun _ _ h => Step.down.inj h) (by decide) (by decide)
    (down_independent ops kernel hiddenSize)
    (by simp only [computeTaskCapacity]; omega) use.downLog hlog routes

/-- The rows that are activated, of all routes. -/
theorem activatePhase_spec (routeCount : Nat) (routes : Nat → RouteState F) :
    ((activatePhase ops kernel routeCount routes).1 = true ↔ ∀ route < routeCount,
      (activateAll ops kernel (routes route)).1 = true) ∧
    ((activatePhase ops kernel routeCount routes).1 = true → ∀ route < routeCount,
      (activatePhase ops kernel routeCount routes).2 route =
        (activateAll ops kernel (routes route)).2) := by
  obtain ⟨hall, hparts⟩ := @Interleave.sequence_parts _ _ (step ops kernel)
    (List.range routeCount) List.nodup_range ((List.range expertIntermediate).map .activate) routes
  simp only [List.mem_range] at hall hparts
  refine ⟨hall, fun hdone route hroute => ?_⟩
  have hleft := congrFun (hparts hdone) route
  rwa [if_pos hroute] at hleft

/-- What the parts of a route say of the whole. -/
theorem expertKernel_parts (s : RouteState F) :
    let gateUp := Interleave.sequence (step ops kernel)
      ((blocks 0 expertIntermediate).map .gateUp) s
    let activated := activateAll ops kernel gateUp.2
    let down := Interleave.sequence (step ops kernel) ((blocks 0 hiddenSize).map .down) activated.2
    ((expertKernel ops kernel s).1 = true ↔
      gateUp.1 = true ∧ activated.1 = true ∧ down.1 = true) ∧
    ((expertKernel ops kernel s).1 = true → (expertKernel ops kernel s).2 = down.2) := by
  rw [expertKernel, gateUpRange_all]
  dsimp only
  generalize Interleave.sequence (step ops kernel)
    ((blocks 0 expertIntermediate).map .gateUp) s = gateUp
  rw [downRange_all]
  generalize activateAll ops kernel gateUp.2 = activated
  generalize Interleave.sequence (step ops kernel)
    ((blocks 0 hiddenSize).map .down) activated.2 = down
  cases hgateUp : gateUp.1
  · simp [hgateUp]
  · cases hactivated : activated.1 <;> simp [hactivated]

/-- Whether the compute pool gets the tasks of the first phase. -/
def gateUpDispatched (use : PoolsUse) : Bool := use.enabled && use.computePool

/-- Whether it gets those of the second. -/
def downDispatched (use : PoolsUse) (routeCount : Nat) (routes : Nat → RouteState F) : Bool :=
  gateUpDispatched use && (gateUpPhase ops kernel use routeCount routes).1 &&
    (activatePhase ops kernel routeCount (gateUpPhase ops kernel use routeCount routes).2).1

/-- The compute pool succeeds if each route does, and leaves the output of each. -/
theorem computePoolRun_eq (use : PoolsUse) {routeCount : Nat} (hcount : 0 < routeCount)
    (htop : routeCount ≤ topK) (tasks : Nat → RouteTask F) (outputs : Nat → Nat → F)
    (hgateUp : gateUpDispatched use = true → Interleave.Complete
      (programs .gateUp (phaseTasks routeCount expertIntermediate gateUpInterPerTask))
      use.gateUpLog)
    (hdown : downDispatched ops kernel use routeCount (computeStates ops tasks outputs) = true →
      Interleave.Complete (programs .down (phaseTasks routeCount hiddenSize downRowsPerTask))
        use.downLog) :
    let run := computePoolRun ops kernel use routeCount tasks outputs
    let alone := fun route => expertKernel ops kernel (computeStates ops tasks outputs route)
    (run.ok = true ↔
      gateUpDispatched use = true ∧ ∀ route < routeCount, (alone route).1 = true) ∧
    (run.ok = true → ∀ route < routeCount, run.routes route = (alone route).2) := by
  intro run alone
  by_cases hused : gateUpDispatched use = true
  · have hflags : use.enabled = true ∧ use.computePool = true := by
      simpa [gateUpDispatched] using hused
    have hrun : run = computePoolRun ops kernel use routeCount tasks outputs := rfl
    have hparts := fun route =>
      expertKernel_parts ops kernel (computeStates ops tasks outputs route)
    obtain ⟨hgate, hgated⟩ := gateUpPhase_spec ops kernel use hcount htop (hgateUp hused)
      (computeStates ops tasks outputs)
    obtain ⟨hact, hacted⟩ := activatePhase_spec ops kernel routeCount
      (gateUpPhase ops kernel use routeCount (computeStates ops tasks outputs)).2
    rw [computePoolRun, if_neg (by simp [hflags.1]; omega), if_neg (by simp [hflags])] at hrun
    rw [downDispatched, hused, Bool.true_and, Bool.and_eq_true] at hdown
    by_cases hgateOk : (gateUpPhase ops kernel use routeCount
        (computeStates ops tasks outputs)).1 = true
    · have hbefore := hgated hgateOk
      by_cases hactOk : (activatePhase ops kernel routeCount (gateUpPhase ops kernel use routeCount
          (computeStates ops tasks outputs)).2).1 = true
      · -- All three phases have been tried.
        obtain ⟨hrows, hrowed⟩ := downPhase_spec ops kernel use hcount htop
          (hdown ⟨hgateOk, hactOk⟩) (activatePhase ops kernel routeCount
            (gateUpPhase ops kernel use routeCount (computeStates ops tasks outputs)).2).2
        simp only [hgateOk, hactOk, Bool.true_eq_false, if_false] at hrun
        have hmiddle : ∀ route < routeCount, (activatePhase ops kernel routeCount
            (gateUpPhase ops kernel use routeCount (computeStates ops tasks outputs)).2).2 route =
            (activateAll ops kernel (Interleave.sequence (step ops kernel)
              ((blocks 0 expertIntermediate).map .gateUp)
              (computeStates ops tasks outputs route)).2).2 := by
          intro route hroute
          rw [hacted hactOk route hroute, hbefore route hroute]
        refine ⟨?_, ?_⟩
        · rw [hrun, hrows]
          refine ⟨fun hall => ⟨hused, fun route hroute => (hparts route).1.mpr ⟨?_, ?_, ?_⟩⟩,
            fun hall route hroute => ?_⟩
          · exact hgate.mp hgateOk route hroute
          · rw [← hbefore route hroute]
            exact hact.mp hactOk route hroute
          · rw [← hmiddle route hroute]
            exact hall route hroute
          · rw [hmiddle route hroute]
            exact ((hparts route).1.mp (hall.2 route hroute)).2.2
        · intro hdone route hroute
          rw [hrun] at hdone ⊢
          have hrow := hrowed hdone route hroute
          have hok := hrows.mp hdone route hroute
          rw [hmiddle route hroute] at hrow hok
          refine hrow.trans ((hparts route).2 ((hparts route).1.mpr ⟨?_, ?_, hok⟩)).symm
          · exact hgate.mp hgateOk route hroute
          · rw [← hbefore route hroute]
            exact hact.mp hactOk route hroute
      · simp only [hgateOk, hactOk, Bool.true_eq_false, if_false, if_true] at hrun
        have hnot : ¬ ∀ route < routeCount, (alone route).1 = true := by
          intro hall
          refine hactOk (hact.mpr fun route hroute => ?_)
          rw [hbefore route hroute]
          exact ((hparts route).1.mp (hall route hroute)).2.1
        simp [hrun, hnot]
    · simp only [hgateOk, if_true] at hrun
      have hnot : ¬ ∀ route < routeCount, (alone route).1 = true := by
        intro hall
        refine hgateOk (hgate.mpr fun route hroute => ?_)
        exact ((hparts route).1.mp (hall route hroute)).1
      simp [hrun, hnot]
  · have hnot : run.ok = false := by
      have hrun : run = computePoolRun ops kernel use routeCount tasks outputs := rfl
      rw [hrun, computePoolRun]
      dsimp only
      by_cases henabled : use.enabled = true
      · have hpool : use.computePool = false := by simpa [gateUpDispatched, henabled] using hused
        split_ifs <;> rfl
      · rw [if_pos (Or.inr (Or.inr (by simpa using henabled)))]
    simp [hnot, hused]

end Phases

/-! ## The three ways -/

section Ways

variable {F : Type} (ops : ExpertOps F) (kernel : Kernel F)

/-- Whether the route pool gets the routes. -/
def routesDispatched (use : PoolsUse) (tasks : Nat → RouteTask F) : Bool :=
  !(computePoolRun ops kernel use topK tasks (clearOutputs ops)).ok &&
    (computePoolRun ops kernel use topK tasks (clearOutputs ops)).enabled && use.routePool

/-- A route does the same whatever its buffers hold before. -/
theorem expertKernel_buffers (task : RouteTask F) (output : Nat → F)
    (buffers buffers' : Buffers F) :
    (expertKernel ops kernel (task.state output buffers)).1 =
        (expertKernel ops kernel (task.state output buffers')).1 ∧
      (expertKernel ops kernel (task.state output buffers)).2.output =
        (expertKernel ops kernel (task.state output buffers')).2.output := by
  refine expertKernel_alike ops kernel ⟨rfl, rfl, rfl, rfl, rfl, ?_, ?_⟩
  · exact fun _ hfalse => hfalse.elim
  · exact fun _ hfalse => hfalse.elim

/-- What the workers of the route pool leave is what the routes alone do. -/
theorem routePoolRun_eq (use : PoolsUse) (routeCount : Nat) (tasks : Nat → RouteTask F)
    (buffers : Nat → Buffers F) (outputs : Nat → Nat → F)
    (hlog : Interleave.Complete (Interleave.tagged (routePrograms routeCount)) use.routeLog)
    (route : Nat) (hroute : route < routeCount) :
    let run := routePoolRun ops kernel use routeCount tasks buffers outputs
    let serial := serialRun ops kernel tasks buffers outputs
    run.ok route = serial.ok route ∧ run.outputs route = serial.outputs route := by
  have hprogram : (routePrograms routeCount)[route]? = some expertSteps := by
    rw [routePrograms, List.getElem?_replicate, if_pos hroute]
  have halone := @Interleave.perform_private _ _ (step ops kernel) (routePrograms routeCount)
    use.routeLog hlog (fun route => (tasks route).state (outputs route) (buffers route)) route
    expertSteps hprogram
  rw [← expertKernel_eq_sequence] at halone
  exact ⟨congrArg Prod.fst halone, congrArg (fun run => run.2.output) halone⟩

/-- The three ways leave the same outputs and say of the same routes that they have failed. -/
theorem computeRoutes_eq_serial (use : PoolsUse) (tasks : Nat → RouteTask F)
    (buffers : Nat → Buffers F)
    (hgateUp : gateUpDispatched use = true → Interleave.Complete
      (programs .gateUp (phaseTasks topK expertIntermediate gateUpInterPerTask)) use.gateUpLog)
    (hdown : downDispatched ops kernel use topK
        (computeStates ops tasks (clearOutputs ops)) = true →
      Interleave.Complete (programs .down (phaseTasks topK hiddenSize downRowsPerTask))
        use.downLog)
    (hroute : routesDispatched ops kernel use tasks = true →
      Interleave.Complete (Interleave.tagged (routePrograms topK)) use.routeLog)
    (route : Nat) (hlt : route < topK) :
    let run := computeRoutes ops kernel use tasks buffers
    let serial := serialRun ops kernel tasks (fun _ => clearBuffers ops) (clearOutputs ops)
    run.ok route = serial.ok route ∧ run.outputs route = serial.outputs route := by
  simp only
  obtain ⟨hok, houtput⟩ := computePoolRun_eq ops kernel use (by decide) (Nat.le_refl topK) tasks
    (clearOutputs ops) hgateUp hdown
  rw [computeRoutes]
  by_cases hdone : (computePoolRun ops kernel use topK tasks (clearOutputs ops)).ok = true
  · rw [if_pos hdone]
    refine ⟨((hok.mp hdone).2 route hlt).symm, ?_⟩
    exact congrArg RouteState.output (houtput hdone route hlt)
  · rw [if_neg hdone]
    have hbuffers := expertKernel_buffers ops kernel (tasks route) (clearOutputs ops route)
      (buffers route) (clearBuffers ops)
    by_cases hpool : ((computePoolRun ops kernel use topK tasks (clearOutputs ops)).enabled &&
        use.routePool) = true
    · rw [if_pos hpool]
      have hdispatched : routesDispatched ops kernel use tasks = true := by
        rw [routesDispatched, Bool.and_assoc, hpool]
        simpa using hdone
      obtain ⟨hflag, hsame⟩ := routePoolRun_eq ops kernel use topK tasks buffers
        (clearOutputs ops) (hroute hdispatched) route hlt
      exact ⟨hflag.trans hbuffers.1, hsame.trans hbuffers.2⟩
    · rw [if_neg hpool]
      exact hbuffers

/-- The sum depends on the routes of the token only. -/
theorem addRoutes_congr {routes routes' : RouteOutputs F}
    (h : ∀ route, route < topK → routes.ok route = routes'.ok route ∧
      routes.outputs route = routes'.outputs route) (routed : Nat → F) :
    addRoutes ops routes routed = addRoutes ops routes' routed := by
  have hall : (List.range topK).all routes.ok = (List.range topK).all routes'.ok := by
    rw [Bool.eq_iff_iff, List.all_eq_true, List.all_eq_true]
    refine forall₂_congr fun route hroute => ?_
    rw [(h route (List.mem_range.mp hroute)).1]
  rw [addRoutes, addRoutes, hall]
  refine if_congr Iff.rfl (Interleave.sequence_congr ?_ routed) rfl
  intro entry hentry
  obtain ⟨route, hroute, hentry⟩ := List.mem_flatMap.mp hentry
  obtain ⟨row, _, rfl⟩ := List.mem_map.mp hentry
  funext output
  rw [addRow, addRow, (h route (List.mem_range.mp hroute)).2]

/-- Whichever pools a token finds, and in whatever order their workers take their turns: each
    dispatch is one that its pool takes, and what the experts add to the output of the token, or
    that they fail, is what comes of taking the routes one after the other. -/
theorem routed_experts_any_way (use : PoolsUse) (tasks : Nat → RouteTask F)
    (buffers : Nat → Buffers F) (routed : Nat → F)
    (hgateUp : gateUpDispatched use = true → WorkerPool.ServedBy .moeCompute
      (programs .gateUp (phaseTasks topK expertIntermediate gateUpInterPerTask)) use.gateUpLog)
    (hdown : downDispatched ops kernel use topK
        (computeStates ops tasks (clearOutputs ops)) = true →
      WorkerPool.ServedBy .moeCompute (programs .down (phaseTasks topK hiddenSize downRowsPerTask))
        use.downLog)
    (hroute : routesDispatched ops kernel use tasks = true → WorkerPool.ServedBy .moeRoute
      (Interleave.tagged (routePrograms topK)) use.routeLog) :
    (WorkerPool.Kind.moeCompute.accepts (WorkerPool.jobOf
        (programs .gateUp (phaseTasks topK expertIntermediate gateUpInterPerTask))) = true ∧
      WorkerPool.Kind.moeCompute.accepts (WorkerPool.jobOf
        (programs .down (phaseTasks topK hiddenSize downRowsPerTask))) = true ∧
      WorkerPool.Kind.moeRoute.accepts (WorkerPool.jobOf
        (Interleave.tagged (routePrograms topK))) = true) ∧
    routedOutput ops kernel use tasks buffers routed =
      addRoutes ops (serialRun ops kernel tasks (fun _ => clearBuffers ops) (clearOutputs ops))
        routed := by
  refine ⟨jobs_accepted, addRoutes_congr ops (fun route hlt => ?_) routed⟩
  refine computeRoutes_eq_serial ops kernel use tasks buffers ?_ ?_ ?_ route hlt
  · exact fun hdispatched => (hgateUp hdispatched).complete
  · exact fun hdispatched => (hdown hdispatched).complete
  · exact fun hdispatched => (hroute hdispatched).complete

end Ways

/-- Whole numbers in the place of the single-precision ones. -/
def wholeOps : ExpertOps Nat where
  toFloatOps := Projection.wholeOps
  scale := (· * ·)
  activate := (· * ·)

/-- With whole numbers no route fails. -/
theorem wholeOps_succeeds (s : RouteState Nat) :
    (expertKernel wholeOps (avx2Kernel wholeOps) s).1 = true := by
  rw [expertKernel_eq_sequence]
  refine Interleave.sequence_succeeds expertSteps (fun e s => ?_) s
  cases e <;> simp [step, wholeOps, Projection.wholeOps]

/-- Both pools at the routes of a token, the one whose steps succeed and the other. -/
theorem routed_experts_both_pools : ∃ use : PoolsUse, use.enabled = true ∧
    (routedOutput wholeOps (avx2Kernel wholeOps) use
      (fun _ => ⟨fun _ => 1, fun _ => 1, fun _ => 1, 1⟩)
      (fun _ => clearBuffers wholeOps) (fun _ => 0)).1 = true := by
  obtain ⟨hfirst, hsecond, hthird⟩ := jobs_accepted
  obtain ⟨gateUpLog, hgateUp⟩ := WorkerPool.exists_servedBy .moeCompute _ hfirst
  obtain ⟨downLog, hdown⟩ := WorkerPool.exists_servedBy .moeCompute _ hsecond
  obtain ⟨routeLog, hroute⟩ := WorkerPool.exists_servedBy .moeRoute _ hthird
  refine ⟨⟨true, true, true, gateUpLog, downLog, routeLog⟩, rfl, ?_⟩
  rw [(routed_experts_any_way wholeOps (avx2Kernel wholeOps) _ _ _ _ (fun _ => hgateUp)
    (fun _ => hdown) (fun _ => hroute)).2]
  have hall : (List.range topK).all (serialRun wholeOps (avx2Kernel wholeOps)
      (fun _ => ⟨fun _ => 1, fun _ => 1, fun _ => 1, 1⟩) (fun _ => clearBuffers wholeOps)
      (clearOutputs wholeOps)).ok = true := by
    rw [List.all_eq_true]
    exact fun route _ => wholeOps_succeeds _
  rw [addRoutes, if_pos hall]
  exact Interleave.sequence_succeeds _ (fun _ _ => rfl) _

end ExpertRoutes

end QrtEngine
