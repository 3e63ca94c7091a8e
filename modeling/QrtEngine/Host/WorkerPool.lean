import QrtEngine.Library.Run
import Mathlib.Algebra.Order.Ring.Nat
import Mathlib.Data.List.Basic

/-!
# Worker Pools

The four pools of `qrt.c` that hand an array of tasks to threads: `qrt_win32_moe_compute_pool`,
`qrt_win32_linear_projection_pool`, `qrt_win32_moe_weight_load_pool` and
`qrt_win32_moe_route_pool`. They run the same code and differ in their limits. The caller keeps
the tasks in its own stack frame, stores their address in the pool, resets two counters, gives
every worker one unit of a semaphore and takes one unit of another semaphore for each of them. A
worker that gets a unit claims tasks by an interlocked increment until it has claimed one that
is not there. Nothing says that each worker gets one unit: a fast one may take two.

A step is one access to the memory the threads share. What a task does is a number of steps of
its own, and the log keeps all of them in the order in which they have happened. The two reads
that would go wrong if the caller had returned, of the address of the tasks and of a task, lead
to a fault.

## Main definitions

* `Semaphore`: A count with its maximum.
* `Kind`: The four pools and their limits.
* `WorkerPc`, `MainPc`, `State`: Where the threads are, and what they share.
* `step`: One step of the caller or of a worker.
* `Started`: A pool that has been created, or whose creation has failed half way.
* `Reachable`: The states of a pool.

## Theorems

* `Semaphore.wait_eq_some_iff`, `Semaphore.release_count`: What the semaphores do.
* `Kind.workerCount_bounds`: A pool has a worker, and can wait for all of them at once.
-/

namespace QrtEngine

namespace WorkerPool

/-! ## Semaphores -/

/-- A semaphore, which never counts further than the maximum it was created with. -/
structure Semaphore where
  maximum : Nat
  count : Nat
  count_le : count ≤ maximum

/-- `CreateSemaphoreA` with the initial count zero. -/
def Semaphore.create (maximum : Nat) : Semaphore :=
  { maximum := maximum, count := 0, count_le := Nat.zero_le _ }

/-- `ReleaseSemaphore`, which fails and changes nothing if the count would pass the maximum. -/
def Semaphore.release (semaphore : Semaphore) (units : Nat) : Semaphore :=
  if h : semaphore.count + units ≤ semaphore.maximum then
    { semaphore with count := semaphore.count + units, count_le := h }
  else semaphore

/-- `WaitForSingleObject`, which blocks at zero. -/
def Semaphore.wait (semaphore : Semaphore) : Option Semaphore :=
  if semaphore.count = 0 then none
  else some { semaphore with
    count := semaphore.count - 1
    count_le := Nat.le_trans (Nat.sub_le _ _) semaphore.count_le }

@[simp] theorem Semaphore.create_count (maximum : Nat) : (create maximum).count = 0 := rfl

@[simp] theorem Semaphore.create_maximum (maximum : Nat) :
    (create maximum).maximum = maximum := rfl

@[simp] theorem Semaphore.release_maximum (semaphore : Semaphore) (units : Nat) :
    (semaphore.release units).maximum = semaphore.maximum := by
  unfold release
  split <;> rfl

theorem Semaphore.release_count (semaphore : Semaphore) (units : Nat)
    (h : semaphore.count + units ≤ semaphore.maximum) :
    (semaphore.release units).count = semaphore.count + units := by
  simp [release, h]

theorem Semaphore.wait_eq_some_iff (semaphore after : Semaphore) :
    semaphore.wait = some after ↔
      semaphore.count = after.count + 1 ∧ after.maximum = semaphore.maximum := by
  unfold wait
  by_cases hzero : semaphore.count = 0
  · simp [hzero]
  · rw [if_neg hzero, Option.some.injEq]
    constructor
    · intro h
      subst h
      exact ⟨by dsimp only; omega, rfl⟩
    · rintro ⟨hcount, hmaximum⟩
      cases after
      simp only [Semaphore.mk.injEq]
      exact ⟨hmaximum.symm, by dsimp only at hcount; omega⟩

/-! ## The pools -/

/-- The four pools. -/
inductive Kind
  | moeCompute
  | linearProjection
  | moeWeightLoad
  | moeRoute
  deriving DecidableEq, Repr

/-- The length of the task array of a pool. -/
def Kind.taskCapacity : Kind → Nat
  | .moeCompute => 256
  | .linearProjection => 64
  | .moeWeightLoad => 16
  | .moeRoute => 8

/-- The fewest tasks that a pool takes. -/
def Kind.minTasks : Kind → Nat
  | .moeCompute => 1
  | .linearProjection => 2
  | .moeWeightLoad => 2
  | .moeRoute => 1

/-- The bounds on the number of workers that `create` applies one after the other. -/
def Kind.workerBounds : Kind → List Nat
  | .moeCompute => [256, 64]
  | .linearProjection => [64]
  | .moeWeightLoad => [16, 8]
  | .moeRoute => [8]

/-- The number of workers that `create` starts for a number that is asked for. -/
def Kind.workerCount (kind : Kind) (requested : Nat) : Nat :=
  kind.workerBounds.foldl Nat.min (if requested = 0 then 1 else requested)

/-- The handles that `WaitForMultipleObjects` takes. -/
def maximumWaitObjects : Nat := 64

/-- A pool has a worker, and no more than can be waited for at once. -/
theorem Kind.workerCount_bounds (kind : Kind) (requested : Nat) :
    1 ≤ kind.workerCount requested ∧ kind.workerCount requested ≤ maximumWaitObjects := by
  cases kind <;> simp only [workerCount, workerBounds, maximumWaitObjects, List.foldl_cons,
    List.foldl_nil, Nat.min_def] <;> split_ifs <;> omega

/-! ## The state -/

/-- Where a worker is. -/
inductive WorkerPc
  | waiting
  | checking
  | claiming
  | claimed (index : Nat)
  | fetching (index : Nat)
  | running (dispatch index done : Nat)
  | posting
  | leaving
  | exited
  | faulted
  deriving DecidableEq, Repr

/-- Where the caller is. While it dispatches, its frame holds the tasks. -/
inductive MainPc
  | idle
  | storing
  | resetting
  | counting
  | releasing
  | collecting (left : Nat)
  | clearing
  | stopping
  | dismissing
  | joining
  | closed
  deriving DecidableEq, Repr

/-- A step of a task: the dispatch it belongs to, the task, and which step of it. -/
structure Event where
  dispatch : Nat
  index : Nat
  step : Nat
  deriving DecidableEq, Repr

/-- The threads, what they share, and what has happened. A job is a list of tasks, each given by
    the number of its steps. -/
structure State where
  main : MainPc
  frame : Option (List Nat)
  tasks : Option Nat
  nextTask : Nat
  taskCount : Nat
  stop : Bool
  work : Semaphore
  done : Semaphore
  workers : List WorkerPc
  served : List (List Nat)
  log : List Event

/-- A pool of which some workers could be started. If not all could, `create` takes down those
    that were. -/
def State.new (workerCount launched : Nat) : State :=
  { main := if launched = workerCount then .idle else .stopping
    frame := none
    tasks := none
    nextTask := 0
    taskCount := 0
    stop := false
    work := Semaphore.create workerCount
    done := Semaphore.create workerCount
    workers := List.replicate launched .waiting
    served := []
    log := [] }

/-- What a step of a worker does: where the worker is then, and the shared state. -/
structure Move where
  pc : WorkerPc
  state : State

/-- `LONG task_index = InterlockedIncrement(&pool->next_task) - 1`. -/
def increment (value : Nat) : Nat := (value + 1) % 2 ^ 32

/-- The test of a claimed task, whose index is a signed number. -/
def outside (index taskCount : Nat) : Bool := 2 ^ 31 ≤ index || taskCount ≤ index

/-- A step of a worker, `none` where it blocks. -/
def workerStep (s : State) : WorkerPc → Option Move
  | .waiting => s.work.wait.map fun work => ⟨.checking, { s with work := work }⟩
  | .checking => some ⟨if s.stop then .leaving else .claiming, s⟩
  | .claiming => some ⟨.claimed s.nextTask, { s with nextTask := increment s.nextTask }⟩
  | .claimed index =>
      some ⟨if outside index s.taskCount then .posting else .fetching index, s⟩
  | .fetching index =>
      match s.tasks with
      | none => some ⟨.faulted, s⟩
      | some dispatch => some ⟨.running dispatch index 0, s⟩
  | .running dispatch index count =>
      -- The task is read from the frame of the dispatch, which has to be there still.
      match s.frame with
      | none => some ⟨.faulted, s⟩
      | some job =>
          if dispatch ≠ s.served.length then some ⟨.faulted, s⟩
          else
            match job[index]? with
            | none => some ⟨.faulted, s⟩
            | some length =>
                if count < length then
                  some ⟨.running dispatch index (count + 1),
                    { s with log := s.log ++ [⟨dispatch, index, count⟩] }⟩
                else some ⟨.claiming, s⟩
  | .posting => some ⟨.waiting, { s with done := s.done.release 1 }⟩
  | .leaving => some ⟨.exited, { s with done := s.done.release 1 }⟩
  | .exited => none
  | .faulted => none

/-- A step of the caller, `none` where it blocks or has nothing to do. -/
def mainStep (s : State) : Option State :=
  match s.main with
  | .idle => none
  | .storing => some { s with main := .resetting, tasks := some s.served.length }
  | .resetting => some { s with main := .counting, nextTask := 0 }
  | .counting => some { s with
      main := .releasing, taskCount := (s.frame.getD []).length }
  | .releasing => some { s with
      main := .collecting s.workers.length, work := s.work.release s.workers.length }
  | .collecting 0 => some { s with main := .clearing }
  | .collecting (left + 1) => s.done.wait.map fun done =>
      { s with main := .collecting left, done := done }
  | .clearing => some { s with
      main := .idle, tasks := none, frame := none, served := s.served ++ s.frame.toList }
  | .stopping => some { s with main := .dismissing, stop := true }
  | .dismissing => some { s with
      main := .joining, work := s.work.release s.workers.length }
  | .joining =>
      if s.workers.all fun pc => pc = .exited then some { s with main := .closed } else none
  | .closed => none

/-- What happens next. -/
inductive Action
  | dispatch (job : List Nat)
  | destroy
  | main
  | worker (index : Nat)
  deriving DecidableEq, Repr

/-- A job of a size that the pool takes. -/
def Kind.accepts (kind : Kind) (job : List Nat) : Bool :=
  decide (kind.minTasks ≤ job.length) && decide (job.length ≤ kind.taskCapacity)

def step (kind : Kind) (s : State) : Action → Option State
  | .dispatch job =>
      if s.main = .idle ∧ kind.accepts job = true then
        some { s with main := .storing, frame := some job }
      else none
  | .destroy => if s.main = .idle then some { s with main := .stopping } else none
  | .main => mainStep s
  | .worker index =>
      match s.workers[index]? with
      | none => none
      | some pc => (workerStep s pc).map fun move =>
          { move.state with workers := s.workers.set index move.pc }

/-- A pool that has just been created, or whose creation has failed half way. -/
def Started (kind : Kind) (s : State) : Prop :=
  ∃ requested launched, launched ≤ kind.workerCount requested ∧
    s = State.new (kind.workerCount requested) launched

/-- The states of a pool, in any order of steps. -/
def Reachable (kind : Kind) : State → Prop :=
  Run.Reachable (step kind) Run.anyStep (Started kind)

end WorkerPool

end QrtEngine
