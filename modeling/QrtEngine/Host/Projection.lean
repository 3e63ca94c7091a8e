import QrtEngine.Host.WorkerPoolProgress
import QrtEngine.Library.Interleave

/-!
# Projections on Several Threads

The matrix-vector products of `qrt.c` that are split by rows: the linear projections, whose tasks
the pool of the engine runs, and the logits of the output head, with a thread for each part. What
a row comes to does not depend on the task it is in, so the threads leave what the loop over all
rows leaves, and some task fails exactly if that loop does. The caller then runs the loop, so its
result is never that of a part.

What the floating-point operations compute is left open: the results hold whatever they are.

## Main definitions

* `FloatOps`: The operations on single-precision numbers.
* `projectionValue`: What a row comes to, with the case of the hidden size written out.
* `rowsCpu`: `qrt_linear_projection_rows_cpu`.
* `projectionTasks`: The tasks that the rows are split into.
* `engineProjection`: The projection with the pool, and without it if that fails.
* `engineLogits`: The logits with threads, and without them if those fail.

## Theorems

* `flatten_splitRows`: The tasks have all rows, in order.
* `laneSum_eq_strided`: The case that is written out is the loop.
* `engineProjection_eq_rows`: The pool changes nothing.
* `engineLogits_eq_rows`: The threads change nothing.
-/

namespace QrtEngine

namespace Projection

/-- The operations on single-precision numbers that the code uses. -/
structure FloatOps (F : Type) where
  zero : F
  add : F → F → F
  mul : F → F → F
  isNan : F → Bool
  ofBf16 : UInt16 → F
  toBf16 : F → UInt16

/-! ## Rows -/

def hiddenSize : Nat := 2048

/-- The lanes of a reduction. -/
def reductionLanes : Nat := 256

section Row

variable {F : Type} (ops : FloatOps F) (row : Nat → UInt16) (input : Nat → F)
  (inputElements : Nat)

def term (col : Nat) : F := ops.mul (ops.ofBf16 (row col)) (input col)

/-- The sum of a row, column after column. -/
def sequentialSum : F :=
  (List.range inputElements).foldl (fun acc col => ops.add acc (term ops row input col)) ops.zero

/-- The loop of a lane, from a column on. -/
def stridedSum (col : Nat) (sum : F) : F :=
  if col < inputElements then
    stridedSum (col + reductionLanes) (ops.add sum (term ops row input col))
  else sum
termination_by inputElements - col
decreasing_by simp only [reductionLanes]; omega

/-- The eight terms of a lane, for the hidden size. -/
def unrolledSum (lane : Nat) : F :=
  let sum := ops.add ops.zero (term ops row input lane)
  let col := lane + reductionLanes
  let sum := ops.add sum (term ops row input col)
  let col := col + reductionLanes
  let sum := ops.add sum (term ops row input col)
  let col := col + reductionLanes
  let sum := ops.add sum (term ops row input col)
  let col := col + reductionLanes
  let sum := ops.add sum (term ops row input col)
  let col := col + reductionLanes
  let sum := ops.add sum (term ops row input col)
  let col := col + reductionLanes
  let sum := ops.add sum (term ops row input col)
  let col := col + reductionLanes
  ops.add sum (term ops row input col)

/-- What a lane comes to. -/
def laneSum (lane : Nat) : F :=
  if inputElements = hiddenSize ∧ hiddenSize = reductionLanes * 8 then
    unrolledSum ops row input lane
  else stridedSum ops row input inputElements lane ops.zero

/-- Add the upper half of the lanes to the lower half, in place. -/
def foldLanes (partials : List F) (stride : Nat) : List F :=
  (List.range stride).foldl (fun partials lane => partials.set lane
    (ops.add (partials.getD lane ops.zero) (partials.getD (lane + stride) ops.zero))) partials

/-- Halve the lanes until one is left. -/
def treeSum (stride : Nat) (partials : List F) : F :=
  if stride = 0 then partials.getD 0 ops.zero
  else treeSum (stride / 2) (foldLanes ops partials stride)
termination_by stride
decreasing_by omega

/-- What a row comes to. -/
def projectionValue (sequential : Bool) : F :=
  if sequential then sequentialSum ops row input inputElements
  else treeSum ops (reductionLanes / 2)
    ((List.range reductionLanes).map (laneSum ops row input inputElements))

/-- The same without the case of the hidden size. -/
def plainValue (sequential : Bool) : F :=
  if sequential then sequentialSum ops row input inputElements
  else treeSum ops (reductionLanes / 2)
    ((List.range reductionLanes).map fun lane =>
      stridedSum ops row input inputElements lane ops.zero)

/-- A step of the loop of a lane. -/
theorem stridedSum_step (col : Nat) (sum : F) (h : col < inputElements) :
    stridedSum ops row input inputElements col sum =
      stridedSum ops row input inputElements (col + reductionLanes)
        (ops.add sum (term ops row input col)) := by
  rw [stridedSum, if_pos h]

/-- For the hidden size the loop of a lane takes eight steps. -/
theorem strided_eq_unrolled (lane : Nat) (h : lane < reductionLanes) :
    stridedSum ops row input hiddenSize lane ops.zero = unrolledSum ops row input lane := by
  have hsize : hiddenSize = 2048 := rfl
  have hlanes : reductionLanes = 256 := rfl
  iterate 8 rw [stridedSum_step _ _ _ _ _ _ (by omega)]
  rw [stridedSum, if_neg (by omega)]
  rfl

theorem laneSum_eq_strided (lane : Nat) (h : lane < reductionLanes) :
    laneSum ops row input inputElements lane =
      stridedSum ops row input inputElements lane ops.zero := by
  unfold laneSum
  by_cases hcase : inputElements = hiddenSize ∧ hiddenSize = reductionLanes * 8
  · rw [if_pos hcase, hcase.1, strided_eq_unrolled ops row input lane h]
  · rw [if_neg hcase]

theorem projectionValue_eq_plain (sequential : Bool) :
    projectionValue ops row input inputElements sequential =
      plainValue ops row input inputElements sequential := by
  have hlanes : (List.range reductionLanes).map (laneSum ops row input inputElements) =
      (List.range reductionLanes).map fun lane =>
        stridedSum ops row input inputElements lane ops.zero := by
    refine List.map_congr_left fun lane hlane => ?_
    exact laneSum_eq_strided ops row input inputElements lane (List.mem_range.mp hlane)
  rw [projectionValue, plainValue, hlanes]

end Row

/-! ## Rows in sequence -/

section Store

variable {F : Type}

/-- Store what a row comes to, unless it comes to nothing. -/
def storeRow (value : Nat → Option F) (row : Nat) (output : List F) : Bool × List F :=
  match value row with
  | none => (false, output)
  | some v => (true, output.set row v)

/-- Stores to different rows leave each other alone. -/
theorem storeRow_independent (value : Nat → Option F) (rows : List Nat) :
    Interleave.Independent (storeRow value) rows := by
  intro row _ row' _ hne output
  unfold storeRow
  cases value row with
  | none => exact ⟨rfl, rfl⟩
  | some v =>
      cases value row' with
      | none => exact ⟨rfl, rfl⟩
      | some v' => exact ⟨rfl, List.set_comm v' v (Ne.symm hne)⟩

/-- What the rows leave when none of them fails. -/
theorem foldl_storeRow (value : Nat → Option F) (rows : List Nat) (output : List F)
    (hall : ∀ row ∈ rows, (value row).isSome = true) (index : Nat) :
    (rows.foldl (fun output row => (storeRow value row output).2) output)[index]? =
      output[index]?.map fun old => if index ∈ rows then (value index).getD old else old := by
  induction rows generalizing output with
  | nil => simp
  | cons row rows ih =>
      obtain ⟨v, hv⟩ := Option.isSome_iff_exists.mp (hall row List.mem_cons_self)
      rw [List.foldl_cons, ih _ fun r hr => hall r (List.mem_cons_of_mem row hr)]
      simp only [storeRow, hv, List.getElem?_set]
      by_cases hrow : row = index
      · subst hrow
        by_cases hlt : row < output.length
        · simp [hlt, hv]
        · simp [hlt]
      · simp [hrow, Ne.symm hrow]

/-- The rows in sequence: they succeed if each of them comes to something, and leave that. -/
theorem sequence_storeRow (value : Nat → Option F) (rows : List Nat) (hnodup : rows.Nodup)
    (output : List F) :
    ((Interleave.sequence (storeRow value) rows output).1 = true ↔
      ∀ row ∈ rows, (value row).isSome = true) ∧
    ((Interleave.sequence (storeRow value) rows output).1 = true → ∀ index : Nat,
      (Interleave.sequence (storeRow value) rows output).2[index]? =
        output[index]?.map fun old => if index ∈ rows then (value index).getD old else old) := by
  have hok : (Interleave.sequence (storeRow value) rows output).1 = true ↔
      ∀ row ∈ rows, (value row).isSome = true := by
    rw [Interleave.sequence_ok_iff rows hnodup (storeRow_independent value rows)]
    refine forall₂_congr fun row _ => ?_
    unfold storeRow
    cases value row <;> simp
  refine ⟨hok, ?_⟩
  intro hseq index
  rw [Interleave.sequence_state rows output hseq, foldl_storeRow value rows output (hok.mp hseq)]

end Store

/-! ## Tasks -/

/-- The rows of a task. -/
structure Task where
  rowBegin : Nat
  rowEnd : Nat
  deriving DecidableEq, Repr

/-- The rows that a task goes through. -/
def Task.rows (task : Task) : List Nat := List.range' task.rowBegin (task.rowEnd - task.rowBegin)

/-- Split the rows, with a limit on the number of tasks. -/
def splitRows (rows perTask : Nat) : Nat → Nat → List Task
  | 0, _ => []
  | limit + 1, rowBegin =>
      if rowBegin < rows then
        ⟨rowBegin, min (rowBegin + perTask) rows⟩ ::
          splitRows rows perTask limit (rowBegin + perTask)
      else []

/-- The rows of all tasks are all rows, in order, if the tasks are large enough. -/
theorem flatten_splitRows (rows perTask limit rowBegin : Nat)
    (henough : rows ≤ rowBegin + limit * perTask) :
    ((splitRows rows perTask limit rowBegin).map Task.rows).flatten =
      List.range' rowBegin (rows - rowBegin) := by
  induction limit generalizing rowBegin with
  | zero =>
      rw [Nat.zero_mul, Nat.add_zero] at henough
      rw [Nat.sub_eq_zero_of_le henough]
      rfl
  | succ limit ih =>
      rw [splitRows]
      by_cases hlt : rowBegin < rows
      · rw [Nat.succ_mul] at henough
        rw [if_pos hlt, List.map_cons, List.flatten_cons, ih _ (by omega), Task.rows]
        dsimp only
        by_cases hlast : rowBegin + perTask ≤ rows
        · rw [Nat.min_eq_left hlast, Nat.add_sub_cancel_left,
            show rows - rowBegin = perTask + (rows - (rowBegin + perTask)) by omega]
          exact List.range'_append_1 ..
        · rw [Nat.min_eq_right (by omega), show rows - (rowBegin + perTask) = 0 by omega,
            List.range'_zero, List.append_nil]
      · rw [if_neg hlt, Nat.sub_eq_zero_of_le (Nat.le_of_not_lt hlt)]
        rfl

theorem length_splitRows_le (rows perTask limit rowBegin : Nat) :
    (splitRows rows perTask limit rowBegin).length ≤ limit := by
  induction limit generalizing rowBegin with
  | zero => exact Nat.le_refl _
  | succ limit ih =>
      rw [splitRows]
      split_ifs
      · exact Nat.succ_le_succ (ih _)
      · exact Nat.zero_le _

/-- Rounding the quotient up makes the tasks large enough. -/
theorem enough_rows (rows tasks : Nat) (h : 0 < tasks) :
    rows ≤ 0 + tasks * ((rows + tasks - 1) / tasks) := by
  have hmod := Nat.div_add_mod (rows + tasks - 1) tasks
  have hlt := Nat.mod_lt (rows + tasks - 1) h
  omega

/-- The rows split into the tasks of a number of threads. -/
def splitEvenly (rows tasks : Nat) : List Task :=
  splitRows rows ((rows + tasks - 1) / tasks) tasks 0

theorem flatten_splitEvenly (rows tasks : Nat) (h : 0 < tasks) :
    ((splitEvenly rows tasks).map Task.rows).flatten = List.range rows := by
  rw [splitEvenly, flatten_splitRows _ _ _ _ (enough_rows rows tasks h), Nat.sub_zero,
    List.range_eq_range']

/-! ## Threads -/

section Threads

variable {F : Type} (value : Nat → Option F)

/-- What the tasks leave when their threads take turns as in a log: whether all have succeeded,
    and the output. -/
def runTasks (tasks : List Task) (log : List (Nat × Nat)) (output : List F) : Bool × List F :=
  let board := log.foldl (Interleave.perform (storeRow value) (tasks.map Task.rows))
    (Interleave.Board.start output)
  ((List.range tasks.length).all board.ok, board.state)

/-- A turn stores to a row of the programs, if it stores at all. -/
theorem perform_frame (programs : List (List Nat)) (board : Interleave.Board (List F))
    (turn : Nat × Nat) :
    (Interleave.perform (storeRow value) programs board turn).state.length =
        board.state.length ∧
      ∀ index, index ∉ programs.flatten →
        (Interleave.perform (storeRow value) programs board turn).state[index]? =
          board.state[index]? := by
  simp only [Interleave.perform]
  cases hp : programs[turn.1]? with
  | none => exact ⟨rfl, fun _ _ => rfl⟩
  | some p =>
      simp only
      cases he : p[turn.2]? with
      | none => exact ⟨rfl, fun _ _ => rfl⟩
      | some row =>
          simp only
          by_cases hfailed : board.failed turn.1 = true
          · rw [if_pos hfailed]
            exact ⟨rfl, fun _ _ => rfl⟩
          · rw [if_neg hfailed]
            unfold storeRow
            cases value row with
            | none => exact ⟨rfl, fun _ _ => rfl⟩
            | some v =>
                refine ⟨List.length_set, fun index hindex => List.getElem?_set_ne ?_⟩
                rintro rfl
                exact hindex (Interleave.mem_flatten_of_get hp he)

/-- The tasks of all rows do what the loop over all rows does. -/
theorem runTasks_eq_rows (tasks : List Task) (rows : Nat)
    (hrows : (tasks.map Task.rows).flatten = List.range rows) (log : List (Nat × Nat))
    (hlog : Interleave.Complete (tasks.map Task.rows) log) (output : List F) :
    (runTasks value tasks log output).1 =
        (Interleave.sequence (storeRow value) (List.range rows) output).1 ∧
      ((runTasks value tasks log output).1 = true →
        runTasks value tasks log output =
          Interleave.sequence (storeRow value) (List.range rows) output) := by
  obtain ⟨hok, hstate⟩ := Interleave.perform_eq_sequence (hrows ▸ List.nodup_range)
    (storeRow_independent value _) log hlog output
  rw [hrows, List.length_map] at hok
  rw [hrows] at hstate
  have hflag : (runTasks value tasks log output).1 =
      (Interleave.sequence (storeRow value) (List.range rows) output).1 := by
    rw [Bool.eq_iff_iff, ← hok]
    simp [runTasks]
  refine ⟨hflag, ?_⟩
  intro htrue
  exact Prod.ext hflag (hstate (hflag ▸ htrue))

/-- The tasks store to their own rows only. -/
theorem runTasks_frame (tasks : List Task) (log : List (Nat × Nat)) (output : List F) :
    (runTasks value tasks log output).2.length = output.length ∧
      ∀ index, index ∉ (tasks.map Task.rows).flatten →
        (runTasks value tasks log output).2[index]? = output[index]? := by
  have hgen : ∀ board : Interleave.Board (List F),
      (log.foldl (Interleave.perform (storeRow value) (tasks.map Task.rows)) board).state.length =
          board.state.length ∧
        ∀ index, index ∉ (tasks.map Task.rows).flatten →
          (log.foldl (Interleave.perform (storeRow value) (tasks.map Task.rows))
            board).state[index]?
            = board.state[index]? := by
    induction log with
    | nil => exact fun board => ⟨rfl, fun _ _ => rfl⟩
    | cons turn log ih =>
        intro board
        obtain ⟨hlength, hrows⟩ := ih
          (Interleave.perform (storeRow value) (tasks.map Task.rows) board turn)
        have hturn := perform_frame value (tasks.map Task.rows) board turn
        exact ⟨hlength.trans hturn.1, fun index hindex =>
          (hrows index hindex).trans (hturn.2 index hindex)⟩
  exact hgen _

end Threads

/-! ## Linear projections -/

section Linear

variable {F : Type} (ops : FloatOps F) (weights : Nat → UInt16) (input : Nat → F)
  (inputElements : Nat) (sequential : Bool)

/-- What a row of the weights comes to: its value, rounded, unless that is not a number. -/
def projectedRow (row : Nat) : Option F :=
  let acc := projectionValue ops (fun col => weights (row * inputElements + col)) input
    inputElements sequential
  if ops.isNan acc then none else some (ops.ofBf16 (ops.toBf16 acc))

/-- `qrt_linear_projection_rows_cpu`. -/
def rowsCpu (rowBegin rowEnd : Nat) (output : List F) : Bool × List F :=
  if rowEnd ≤ rowBegin ∨ inputElements = 0 then (false, output)
  else Interleave.sequence
    (storeRow (projectedRow ops weights input inputElements sequential))
    (List.range' rowBegin (rowEnd - rowBegin)) output

/-- How many tasks a projection is split into. -/
def taskCapacity (rows workerCount : Nat) : Nat :=
  let capacity := rows / 128
  let capacity := if workerCount < capacity then workerCount else capacity
  if 64 < capacity then 64 else capacity

/-- The tasks of a projection, `none` where the pool is not used. -/
def projectionTasks (rows workerCount : Nat) : Option (List Task) :=
  if rows < 512 ∨ rows / 128 < 2 ∨ taskCapacity rows workerCount < 2 then none
  else
    let tasks := splitEvenly rows (taskCapacity rows workerCount)
    if tasks.length < 2 then none else some tasks

/-- The pool that the engine has: whether it may be used, its workers, and the turns that they
    have taken at the tasks. -/
structure PoolUse where
  enabled : Bool
  workerCount : Nat
  log : List (Nat × Nat)

/-- `qrt_win32_linear_projection_pool_run`. -/
def poolRun (pool : PoolUse) (rows : Nat) (output : List F) : Bool × List F :=
  if inputElements = 0 ∨ pool.enabled = false then (false, output)
  else
    match projectionTasks rows pool.workerCount with
    | none => (false, output)
    | some tasks =>
        runTasks (projectedRow ops weights input inputElements sequential) tasks pool.log output

/-- `qrt_layer0_linear_projection_engine_cpu` and
    `qrt_linear_projection_sequential_engine_cpu`. -/
def engineProjection (pool : PoolUse) (rows : Nat) (output : List F) : Bool × List F :=
  let run := poolRun ops weights input inputElements sequential pool rows output
  if run.1 then (true, run.2)
  else rowsCpu ops weights input inputElements sequential 0 rows run.2

/-- The tasks have all rows, and there are as many as the pool takes. -/
theorem projectionTasks_spec {rows workerCount : Nat} {tasks : List Task}
    (h : projectionTasks rows workerCount = some tasks) :
    (tasks.map Task.rows).flatten = List.range rows ∧ 0 < rows ∧ 2 ≤ tasks.length ∧
      tasks.length ≤ 64 ∧ tasks.length ≤ workerCount := by
  have hcapacity : taskCapacity rows workerCount ≤ 64 ∧
      taskCapacity rows workerCount ≤ workerCount := by
    unfold taskCapacity
    dsimp only
    split_ifs <;> omega
  unfold projectionTasks at h
  by_cases hnone : rows < 512 ∨ rows / 128 < 2 ∨ taskCapacity rows workerCount < 2
  · rw [if_pos hnone] at h
    cases h
  · rw [if_neg hnone] at h
    by_cases hfew : (splitEvenly rows (taskCapacity rows workerCount)).length < 2
    · rw [if_pos hfew] at h
      cases h
    · rw [if_neg hfew, Option.some.injEq] at h
      subst h
      have hlength : (splitEvenly rows (taskCapacity rows workerCount)).length ≤
          taskCapacity rows workerCount := length_splitRows_le _ _ _ _
      exact ⟨flatten_splitEvenly rows _ (by omega), by omega, by omega, by omega, by omega⟩

/-- What a row should come to, without the case of the hidden size. -/
def expectedRow (row : Nat) : Option F :=
  let acc := plainValue ops (fun col => weights (row * inputElements + col)) input inputElements
    sequential
  if ops.isNan acc then none else some (ops.ofBf16 (ops.toBf16 acc))

theorem projectedRow_eq_expected (row : Nat) :
    projectedRow ops weights input inputElements sequential row =
      expectedRow ops weights input inputElements sequential row := by
  unfold projectedRow expectedRow
  rw [projectionValue_eq_plain]

/-- All rows in sequence are the loop over them. -/
theorem rowsCpu_zero (rows : Nat) (hrows : 0 < rows) (helements : inputElements ≠ 0)
    (output : List F) :
    rowsCpu ops weights input inputElements sequential 0 rows output =
      Interleave.sequence (storeRow (projectedRow ops weights input inputElements sequential))
        (List.range rows) output := by
  rw [rowsCpu, if_neg (by omega), Nat.sub_zero, List.range_eq_range']

/-- What the loop over all rows leaves. -/
theorem rowsCpu_spec (rows : Nat) (output : List F) :
    ((rowsCpu ops weights input inputElements sequential 0 rows output).1 = true ↔
      0 < rows ∧ inputElements ≠ 0 ∧ ∀ row < rows,
        (expectedRow ops weights input inputElements sequential row).isSome = true) ∧
    ((rowsCpu ops weights input inputElements sequential 0 rows output).1 = true →
      ∀ index : Nat,
        (rowsCpu ops weights input inputElements sequential 0 rows output).2[index]? =
          output[index]?.map fun old =>
            if index < rows then
              (expectedRow ops weights input inputElements sequential index).getD old
            else old) := by
  by_cases hnone : rows ≤ 0 ∨ inputElements = 0
  · rw [rowsCpu, if_pos hnone]
    refine ⟨⟨fun hfalse => absurd hfalse Bool.false_ne_true, fun hall => ?_⟩,
      fun hfalse => absurd hfalse Bool.false_ne_true⟩
    rcases hnone with hzero | hzero
    · omega
    · exact absurd hzero hall.2.1
  · push Not at hnone
    rw [rowsCpu_zero ops weights input inputElements sequential rows hnone.1 hnone.2]
    obtain ⟨hok, hstate⟩ := sequence_storeRow
      (projectedRow ops weights input inputElements sequential) (List.range rows)
      List.nodup_range output
    simp only [List.mem_range, projectedRow_eq_expected] at hok hstate
    exact ⟨hok.trans ⟨fun hall => ⟨hnone.1, hnone.2, hall⟩, fun hall => hall.2.2⟩, hstate⟩

/-- The projection with the pool does what the loop over all rows does. -/
theorem engineProjection_eq_rows (pool : PoolUse) (rows : Nat)
    (hlog : ∀ tasks, projectionTasks rows pool.workerCount = some tasks →
      Interleave.Complete (tasks.map Task.rows) pool.log) (output : List F) :
    let engine := engineProjection ops weights input inputElements sequential pool rows output
    let serial := rowsCpu ops weights input inputElements sequential 0 rows output
    engine.1 = serial.1 ∧ (serial.1 = true → engine = serial) := by
  simp only
  rw [engineProjection]
  by_cases hnone : inputElements = 0 ∨ pool.enabled = false
  · rw [poolRun, if_pos hnone]
    exact ⟨rfl, fun _ => rfl⟩
  · rw [poolRun, if_neg hnone]
    cases htasks : projectionTasks rows pool.workerCount with
    | none => exact ⟨rfl, fun _ => rfl⟩
    | some tasks =>
        obtain ⟨hrows, hpos, _⟩ := projectionTasks_spec htasks
        obtain ⟨hflag, hsame⟩ := runTasks_eq_rows
          (projectedRow ops weights input inputElements sequential) tasks rows hrows pool.log
          (hlog tasks htasks) output
        have hserial := rowsCpu_zero ops weights input inputElements sequential rows hpos
          (fun hzero => hnone (Or.inl hzero)) output
        rw [← hserial] at hflag hsame
        dsimp only
        cases hdone : (runTasks (projectedRow ops weights input inputElements sequential) tasks
            pool.log output).1 with
        | true =>
            rw [if_pos rfl, ← hsame hdone]
            exact ⟨hdone.symm, fun _ => Prod.ext hdone.symm rfl⟩
        | false =>
            -- The loop fails on any output where it fails on one.
            rw [if_neg Bool.false_ne_true]
            rw [hdone] at hflag
            have hfails : (rowsCpu ops weights input inputElements sequential 0 rows
                (runTasks (projectedRow ops weights input inputElements sequential) tasks
                  pool.log output).2).1 = false := by
              rw [← Bool.not_eq_true, (rowsCpu_spec ops weights input inputElements sequential
                rows _).1, ← (rowsCpu_spec ops weights input inputElements sequential rows
                output).1, ← hflag]
              exact Bool.false_ne_true
            rw [hfails, ← hflag]
            exact ⟨rfl, fun hfalse => absurd hfalse Bool.false_ne_true⟩

/-- A projection whose tasks a pool has served, in whatever order of steps of its threads: the
    tasks are as many as the pool takes, and the result is that of the loop over all rows. It is a
    failure exactly if some row comes to no number, and otherwise the output has what each row
    comes to, and is as it was behind the rows. -/
theorem pool_projection (rows : Nat) (output : List F) (enabled : Bool) (s : WorkerPool.State)
    (dispatch : Nat) (hreach : WorkerPool.Reachable .linearProjection s)
    (hserved : ∀ tasks, projectionTasks rows s.workers.length = some tasks →
      s.served[dispatch]? = some (WorkerPool.jobOf (tasks.map Task.rows))) :
    (∀ tasks, projectionTasks rows s.workers.length = some tasks →
      WorkerPool.Kind.linearProjection.accepts
        (WorkerPool.jobOf (tasks.map Task.rows)) = true) ∧
    let result := engineProjection ops weights input inputElements sequential
      ⟨enabled, s.workers.length, WorkerPool.turns s.log dispatch⟩ rows output
    (result.1 = true ↔ 0 < rows ∧ inputElements ≠ 0 ∧ ∀ row < rows,
      (expectedRow ops weights input inputElements sequential row).isSome = true) ∧
    (result.1 = true → ∀ index : Nat, result.2[index]? = output[index]?.map fun old =>
      if index < rows then
        (expectedRow ops weights input inputElements sequential index).getD old
      else old) := by
  refine ⟨?_, ?_⟩
  · intro tasks htasks
    obtain ⟨_, _, hmin, hmax, _⟩ := projectionTasks_spec htasks
    simp only [WorkerPool.Kind.accepts, WorkerPool.Kind.minTasks, WorkerPool.Kind.taskCapacity,
      WorkerPool.jobOf, List.length_map, Bool.and_eq_true, decide_eq_true_eq]
    exact ⟨hmin, hmax⟩
  · obtain ⟨hflag, hsame⟩ := engineProjection_eq_rows ops weights input inputElements sequential
      ⟨enabled, s.workers.length, WorkerPool.turns s.log dispatch⟩ rows
      (fun tasks htasks => WorkerPool.served_complete hreach (hserved tasks htasks)) output
    obtain ⟨hok, hstate⟩ := rowsCpu_spec ops weights input inputElements sequential rows output
    simp only
    rw [hflag]
    refine ⟨hok, fun htrue => ?_⟩
    rw [hsame htrue]
    exact hstate htrue

end Linear

/-- Whole numbers in the place of the single-precision ones. -/
def wholeOps : FloatOps Nat where
  zero := 0
  add := (· + ·)
  mul := (· * ·)
  isNan := fun _ => false
  ofBf16 := UInt16.toNat
  toBf16 := UInt16.ofNat

/-- The sum of five hundred and twelve rows of one column by the workers of a pool of two. -/
theorem pool_projection_ones : ∃ s dispatch, WorkerPool.Reachable .linearProjection s ∧
    let result := engineProjection wholeOps (fun _ => 3) (fun _ => 2) 1 true
      ⟨true, s.workers.length, WorkerPool.turns s.log dispatch⟩ 512 (List.replicate 513 0)
    result.1 = true ∧ result.2[511]? = some 6 ∧ result.2[512]? = some 0 := by
  have htasks : projectionTasks 512 2 = some [⟨0, 256⟩, ⟨256, 512⟩] := by decide
  obtain ⟨s, hreach, hserved, hlength⟩ := WorkerPool.exists_served .linearProjection 2
    (WorkerPool.jobOf ([⟨0, 256⟩, ⟨256, 512⟩].map Task.rows)) (by decide)
  have hworkers : s.workers.length = 2 := hlength
  have hall := pool_projection wholeOps (fun _ => 3) (fun _ => 2) 1 true 512
    (List.replicate 513 0) true s 0 hreach (by
      intro tasks h
      rw [hworkers, htasks] at h
      obtain rfl := Option.some.inj h
      rw [hserved]
      rfl)
  have hvalue : ∀ row, expectedRow wholeOps (fun _ => 3) (fun _ => 2) 1 true row = some 6 :=
    fun _ => rfl
  have hok := hall.2.1.mpr ⟨by decide, by decide, fun row _ => by rw [hvalue]; rfl⟩
  refine ⟨s, 0, hreach, hok, ?_, ?_⟩
  · rw [hall.2.2 hok, hvalue, List.getElem?_replicate]
    rfl
  · rw [hall.2.2 hok, hvalue, List.getElem?_replicate]
    rfl

/-! ## The logits of the output head -/

section Logits

variable {F : Type} (ops : FloatOps F) (weights : Nat → UInt16) (hidden : Nat → F)

def vocabSize : Nat := 248320

/-- What a token comes to, unless that is not a number. -/
def logitRow (token : Nat) : Option F :=
  let value := (List.range hiddenSize).foldl
    (fun value col => ops.add value
      (ops.mul (hidden col) (ops.ofBf16 (weights (token * hiddenSize + col))))) ops.zero
  if ops.isNan value then none else some value

/-- What a token comes to is a number. -/
theorem logitRow_number (token : Nat) {value : F}
    (h : logitRow ops weights hidden token = some value) : ops.isNan value = false := by
  unfold logitRow at h
  dsimp only at h
  split_ifs at h with hnan
  rw [← Option.some.inj h]
  simpa using hnan

/-- `qrt_qwen36_lm_head_logits_cpu`. -/
def logitsCpu (logits : List F) : Bool × List F :=
  Interleave.sequence (storeRow (logitRow ops weights hidden)) (List.range vocabSize) logits

/-- The threads of the output head: whether they may be used, the number of processors, how many
    threads can be created, and the turns that they have taken. -/
structure ThreadUse where
  attached : Bool
  processors : Nat
  created : Nat
  log : List (Nat × Nat)

/-- How many threads there should be. -/
def headWorkers (processors : Nat) : Nat :=
  let workers := if processors = 0 then 1 else processors
  if 64 < workers then 64 else workers

/-- The tasks of the threads that are created. -/
def headTasks (threads : ThreadUse) : List Task :=
  (splitEvenly vocabSize (headWorkers threads.processors)).take threads.created

/-- `qrt_qwen36_lm_head_logits_parallel_cpu`. -/
def logitsParallel (threads : ThreadUse) (logits : List F) : Bool × List F :=
  if headWorkers threads.processors < 2 then (false, logits)
  else
    let run := runTasks (logitRow ops weights hidden) (headTasks threads) threads.log logits
    (decide ((splitEvenly vocabSize (headWorkers threads.processors)).length ≤ threads.created) &&
      run.1 && decide (2 ≤ (headTasks threads).length), run.2)

/-- `qrt_qwen36_lm_head_logits_engine_cpu`. -/
def engineLogits (threads : ThreadUse) (logits : List F) : Bool × List F :=
  if threads.attached then
    let run := logitsParallel ops weights hidden threads logits
    if run.1 then (true, run.2) else logitsCpu ops weights hidden run.2
  else logitsCpu ops weights hidden logits

/-- What the loop over all tokens leaves. -/
theorem logitsCpu_spec (logits : List F) :
    ((logitsCpu ops weights hidden logits).1 = true ↔
      ∀ token < vocabSize, (logitRow ops weights hidden token).isSome = true) ∧
    ((logitsCpu ops weights hidden logits).1 = true → ∀ index : Nat,
      (logitsCpu ops weights hidden logits).2[index]? = logits[index]?.map fun old =>
        if index < vocabSize then (logitRow ops weights hidden index).getD old else old) := by
  have hspec := sequence_storeRow (logitRow ops weights hidden) (List.range vocabSize)
    List.nodup_range logits
  simp only [List.mem_range] at hspec
  exact hspec

/-- The logits with threads are those without, whichever threads can be created. -/
theorem engineLogits_eq_rows (threads : ThreadUse)
    (hlog : Interleave.Complete ((headTasks threads).map Task.rows) threads.log)
    (logits : List F) :
    let engine := engineLogits ops weights hidden threads logits
    let serial := logitsCpu ops weights hidden logits
    engine.1 = serial.1 ∧ (serial.1 = true → engine = serial) := by
  have hagain : ∀ other : List F,
      (logitsCpu ops weights hidden other).1 = (logitsCpu ops weights hidden logits).1 := by
    intro other
    rw [Bool.eq_iff_iff, (logitsCpu_spec ops weights hidden other).1,
      (logitsCpu_spec ops weights hidden logits).1]
  -- The loop puts right whatever threads have left of the tokens.
  have hrepair : ∀ other : List F, other.length = logits.length →
      (∀ index, vocabSize ≤ index → other[index]? = logits[index]?) →
      (logitsCpu ops weights hidden logits).1 = true →
      logitsCpu ops weights hidden other = logitsCpu ops weights hidden logits := by
    intro other hlength hbehind htrue
    refine Prod.ext (hagain other) (List.ext_getElem? fun index => ?_)
    rw [(logitsCpu_spec ops weights hidden other).2 ((hagain other).trans htrue),
      (logitsCpu_spec ops weights hidden logits).2 htrue]
    by_cases hindex : index < vocabSize
    · simp only [if_pos hindex]
      by_cases hlt : index < logits.length
      · obtain ⟨v, hv⟩ := Option.isSome_iff_exists.mp
          ((logitsCpu_spec ops weights hidden logits).1.mp htrue index hindex)
        rw [List.getElem?_eq_getElem hlt, List.getElem?_eq_getElem (by omega), hv]
        simp only [Option.map_some, Option.getD_some]
      · rw [List.getElem?_eq_none (by omega), List.getElem?_eq_none (by omega)]
    · rw [hbehind index (Nat.le_of_not_lt hindex)]
  have hall : 2 ≤ headWorkers threads.processors →
      ((splitEvenly vocabSize (headWorkers threads.processors)).map Task.rows).flatten =
        List.range vocabSize := fun hworkers =>
    flatten_splitEvenly vocabSize _ (by omega)
  simp only [engineLogits, logitsParallel]
  by_cases hattached : threads.attached = true
  · rw [if_pos hattached]
    by_cases hfew : headWorkers threads.processors < 2
    · simp only [if_pos hfew, Bool.false_eq_true, if_false, implies_true, and_self]
    · rw [if_neg hfew]
      have hflatten := hall (Nat.le_of_not_lt hfew)
      dsimp only
      split
      next hflag =>
        simp only [Bool.and_eq_true, decide_eq_true_eq] at hflag
        have htasks : headTasks threads =
            splitEvenly vocabSize (headWorkers threads.processors) :=
          List.take_of_length_le hflag.1.1
        have hrun : runTasks (logitRow ops weights hidden) (headTasks threads) threads.log logits =
            logitsCpu ops weights hidden logits :=
          (runTasks_eq_rows (logitRow ops weights hidden) (headTasks threads) vocabSize
            (htasks ▸ hflatten) threads.log hlog logits).2 hflag.1.2
        have hserial : (logitsCpu ops weights hidden logits).1 = true := hrun ▸ hflag.1.2
        rw [hrun]
        generalize logitsCpu ops weights hidden logits = serial at hserial ⊢
        exact ⟨hserial.symm, fun _ => Prod.ext hserial.symm rfl⟩
      next =>
        obtain ⟨hlength, hbehind⟩ := runTasks_frame (logitRow ops weights hidden)
          (headTasks threads) threads.log logits
        refine ⟨hagain _, hrepair _ hlength fun index hindex => hbehind index ?_⟩
        intro hmem
        obtain ⟨rows, hrows, hin⟩ := List.mem_flatten.mp hmem
        obtain ⟨task, htask, rfl⟩ := List.mem_map.mp hrows
        have hvocab : index ∈ List.range vocabSize := by
          rw [← hflatten]
          exact List.mem_flatten.mpr
            ⟨_, List.mem_map_of_mem (List.mem_of_mem_take htask), hin⟩
        exact absurd (List.mem_range.mp hvocab) (Nat.not_lt.mpr hindex)
  · rw [if_neg hattached]
    exact ⟨rfl, fun _ => rfl⟩

end Logits

end Projection

end QrtEngine
