import QrtEngine.Host.WorkerPool
import QrtEngine.Library.Interleave
import QrtEngine.Library.Tally
import Mathlib.Data.List.Range

/-!
# Worker Pools Run Every Task Once

While the caller collects, a unit of the first semaphore is with the semaphore, with a worker, in
the second semaphore, or with the caller. A unit that has left its worker has seen an index behind
the last task, so all tasks are claimed by then. When the caller has all its units no worker is in
the loop, so all tasks are done, and the frame of the caller can go.

The invariant has two halves. One counts units and bounds the index. The other says of each task
who holds it and how far it has come, read off the log.

## Main definitions

* `trail`: The steps of a task in the log.
* `Units`: Where the units are while the caller collects.
* `Claims`: Who holds a task, and what the log has of it.
* `Safe`: The invariant of the system.
* `Settled`: What the log has of a dispatch that is over.
* `turns`, `jobOf`: A dispatch as an interleaving of programs.

## Theorems

* `step_safe`: Every step keeps the invariant.
* `reachable_safe`: It holds in every order of steps.
* `pool_runs_each_task_once`: What follows for the dispatches of a pool.
-/

namespace QrtEngine

namespace WorkerPool

/-! ## The log -/

/-- The steps of a task, in the order of the log. -/
def trail (log : List Event) (dispatch index : Nat) : List Nat :=
  log.filterMap fun event =>
    if event.dispatch = dispatch ∧ event.index = index then some event.step else none

@[simp] theorem trail_nil (dispatch index : Nat) : trail [] dispatch index = [] := rfl

theorem trail_append (log : List Event) (event : Event) (dispatch index : Nat) :
    trail (log ++ [event]) dispatch index = trail log dispatch index ++
      if event.dispatch = dispatch ∧ event.index = index then [event.step] else [] := by
  unfold trail
  rw [List.filterMap_append]
  by_cases h : event.dispatch = dispatch ∧ event.index = index <;> simp [h]

/-- What the log has of a dispatch that is over. -/
def Settled (log : List Event) (dispatch : Nat) (job : List Nat) : Prop :=
  ∀ index, trail log dispatch index = List.range (job[index]?.getD 0)

/-! ## What a worker counts for -/

/-- The worker has taken a unit and not given it back. -/
def WorkerPc.busy : WorkerPc → Bool
  | .waiting | .exited | .faulted => false
  | _ => true

/-- The worker has a unit and has not yet seen that all tasks are claimed. -/
def WorkerPc.inLoop : WorkerPc → Bool
  | .checking | .claiming | .claimed _ | .fetching _ | .running _ _ _ => true
  | _ => false

/-- The worker has a unit and has not yet claimed a task that is not there. -/
def WorkerPc.searching (taskCount : Nat) : WorkerPc → Bool
  | .checking | .claiming | .fetching _ | .running _ _ _ => true
  | .claimed index => decide (index < taskCount)
  | _ => false

/-- The task that a worker holds, and how many of its steps are done. -/
def WorkerPc.progress : WorkerPc → Option (Nat × Nat)
  | .claimed index | .fetching index => some (index, 0)
  | .running _ index count => some (index, count)
  | _ => none

/-- The worker is where a worker of this dispatch can be. -/
def WorkerPc.sound (dispatch : Nat) (job : List Nat) : WorkerPc → Prop
  | .fetching index => index < job.length
  | .running current index count => current = dispatch ∧ ∃ length, job[index]? = some length ∧
      count ≤ length
  | .leaving | .exited | .faulted => False
  | _ => True

/-- The number of workers that pass a test. -/
def tally (p : WorkerPc → Bool) (s : State) : Nat := s.workers.countP p

theorem tally_set (p : WorkerPc → Bool) {s : State} {k : Nat} {pc : WorkerPc} (pc' : WorkerPc)
    (h : s.workers[k]? = some pc) :
    (s.workers.set k pc').countP p + (p pc).toNat = tally p s + (p pc').toNat :=
  Tally.countP_set_add h

theorem toNat_le_tally (p : WorkerPc → Bool) {s : State} {k : Nat} {pc : WorkerPc}
    (h : s.workers[k]? = some pc) : (p pc).toNat ≤ tally p s :=
  Tally.toNat_le_countP h

theorem searching_le_busy (taskCount : Nat) (s : State) :
    tally (WorkerPc.searching taskCount) s ≤ tally WorkerPc.busy s := by
  refine List.countP_mono_left fun pc _ => ?_
  cases pc <;> simp [WorkerPc.searching, WorkerPc.busy]

theorem inLoop_le_busy (s : State) : tally WorkerPc.inLoop s ≤ tally WorkerPc.busy s := by
  refine List.countP_mono_left fun pc _ => ?_
  cases pc <;> simp [WorkerPc.inLoop, WorkerPc.busy]

/-- An index that is not too large is outside if no task has it. -/
theorem outside_iff {index taskCount : Nat} (h : index < 2 ^ 31) :
    outside index taskCount = true ↔ taskCount ≤ index := by
  unfold outside
  rw [decide_eq_false (by omega), Bool.false_or, decide_eq_true_eq]

/-! ## The invariant while the caller collects -/

/-- Where the units are. -/
structure Units (job : List Nat) (left : Nat) (s : State) : Prop where
  units : s.work.count + tally WorkerPc.busy s + s.done.count = left
  left_le : left ≤ s.workers.length
  claimed : s.work.count + tally WorkerPc.inLoop s < s.workers.length → job.length ≤ s.nextTask
  bound : s.nextTask + s.work.count + tally (WorkerPc.searching job.length) s ≤
    job.length + s.workers.length

/-- Who holds a task, and what the log has of it. -/
structure Claims (job : List Nat) (s : State) : Prop where
  sound : ∀ pc ∈ s.workers, pc.sound s.served.length job
  held : ∀ (k : Nat) (pc : WorkerPc) (index count : Nat), s.workers[k]? = some pc →
    pc.progress = some (index, count) →
      index < s.nextTask ∧ trail s.log s.served.length index = List.range count
  apart : ∀ (k k' : Nat) (pc pc' : WorkerPc) (index count count' : Nat),
    s.workers[k]? = some pc → s.workers[k']? = some pc' →
      pc.progress = some (index, count) → pc'.progress = some (index, count') → k = k'
  owned : ∀ index, index < s.nextTask →
    (∃ (k : Nat) (pc : WorkerPc) (count : Nat), s.workers[k]? = some pc ∧
      pc.progress = some (index, count)) ∨
    trail s.log s.served.length index = List.range (job[index]?.getD 0)
  untouched : ∀ index, s.nextTask ≤ index → trail s.log s.served.length index = []

section ClaimSteps

variable {job : List Nat} {s : State} {k : Nat} {pc pc' : WorkerPc}

/-- A worker that goes on with the task it has, or goes on with none. -/
theorem Claims.stay (h : Claims job s) (hpc : s.workers[k]? = some pc) (pc' : WorkerPc)
    (hprogress : pc'.progress = pc.progress) (hsound : pc'.sound s.served.length job)
    (work done : Semaphore) :
    Claims job { s with work := work, done := done, workers := s.workers.set k pc' } where
  sound := by
    intro q hq
    rcases Tally.mem_set_cases hq with rfl | hq
    · exact hsound
    · exact h.sound q hq
  held := by
    intro j q index count hq hheld
    rcases Tally.getElem?_set_cases hq with ⟨rfl, rfl⟩ | ⟨_, hold⟩
    · exact h.held k pc index count hpc (hprogress ▸ hheld)
    · exact h.held j q index count hold hheld
  apart := by
    intro j j' q q' index count count' hq hq' hheld hheld'
    rcases Tally.getElem?_set_cases hq with ⟨rfl, rfl⟩ | ⟨_, hold⟩
    · rcases Tally.getElem?_set_cases hq' with ⟨rfl, rfl⟩ | ⟨_, hold'⟩
      · rfl
      · exact h.apart k j' pc q' index count count' hpc hold' (hprogress ▸ hheld) hheld'
    · rcases Tally.getElem?_set_cases hq' with ⟨rfl, rfl⟩ | ⟨_, hold'⟩
      · exact h.apart j k q pc index count count' hold hpc hheld (hprogress ▸ hheld')
      · exact h.apart j j' q q' index count count' hold hold' hheld hheld'
  owned := by
    intro index hindex
    rcases h.owned index hindex with ⟨j, q, count, hq, hheld⟩ | hdone
    · left
      by_cases hjk : k = j
      · subst hjk
        rw [hpc, Option.some.injEq] at hq
        subst hq
        exact ⟨k, pc', count, by
          rw [List.getElem?_set_self (List.getElem?_eq_some_iff.mp hpc).1], hprogress ▸ hheld⟩
      · exact ⟨j, q, count, by rw [List.getElem?_set_ne hjk, hq], hheld⟩
    · exact Or.inr hdone
  untouched := h.untouched

/-- A worker that lets go of a task all of whose steps are in the log. -/
theorem Claims.drop (h : Claims job s) (hpc : s.workers[k]? = some pc) {index count : Nat}
    (hprogress : pc.progress = some (index, count)) (hcount : count = job[index]?.getD 0)
    (hnone : pc'.progress = none) (hsound : pc'.sound s.served.length job) :
    Claims job { s with workers := s.workers.set k pc' } where
  sound := by
    intro q hq
    rcases Tally.mem_set_cases hq with rfl | hq
    · exact hsound
    · exact h.sound q hq
  held := by
    intro j q other count' hq hheld
    rcases Tally.getElem?_set_cases hq with ⟨rfl, rfl⟩ | ⟨_, hold⟩
    · rw [hnone] at hheld
      cases hheld
    · exact h.held j q other count' hold hheld
  apart := by
    intro j j' q q' other count' count'' hq hq' hheld hheld'
    rcases Tally.getElem?_set_cases hq with ⟨rfl, rfl⟩ | ⟨_, hold⟩
    · rw [hnone] at hheld
      cases hheld
    · rcases Tally.getElem?_set_cases hq' with ⟨rfl, rfl⟩ | ⟨_, hold'⟩
      · rw [hnone] at hheld'
        cases hheld'
      · exact h.apart j j' q q' other count' count'' hold hold' hheld hheld'
  owned := by
    intro other hother
    rcases h.owned other hother with ⟨j, q, count', hq, hheld⟩ | hdone
    · by_cases hjk : k = j
      · -- The task that is let go of.
        subst hjk
        rw [hpc, Option.some.injEq] at hq
        subst hq
        rw [hprogress, Option.some.injEq, Prod.mk.injEq] at hheld
        obtain ⟨rfl, rfl⟩ := hheld
        right
        rw [← hcount]
        exact (h.held k pc index count hpc hprogress).2
      · exact Or.inl ⟨j, q, count', by rw [List.getElem?_set_ne hjk, hq], hheld⟩
    · exact Or.inr hdone
  untouched := h.untouched

/-- A worker that claims the next task. -/
theorem Claims.claim (h : Claims job s) (hpc : s.workers[k]? = some pc)
    (hnone : pc.progress = none) :
    Claims job { s with
      nextTask := s.nextTask + 1, workers := s.workers.set k (.claimed s.nextTask) } where
  sound := by
    intro q hq
    rcases Tally.mem_set_cases hq with rfl | hq
    · trivial
    · exact h.sound q hq
  held := by
    intro j q index count hq hheld
    rcases Tally.getElem?_set_cases hq with ⟨rfl, rfl⟩ | ⟨_, hold⟩
    · rw [WorkerPc.progress, Option.some.injEq, Prod.mk.injEq] at hheld
      obtain ⟨rfl, rfl⟩ := hheld
      exact ⟨Nat.lt_succ_self _, h.untouched _ (Nat.le_refl _)⟩
    · obtain ⟨hlt, htrail⟩ := h.held j q index count hold hheld
      exact ⟨Nat.lt_succ_of_lt hlt, htrail⟩
  apart := by
    intro j j' q q' index count count' hq hq' hheld hheld'
    rcases Tally.getElem?_set_cases hq with ⟨rfl, rfl⟩ | ⟨_, hold⟩
    · rcases Tally.getElem?_set_cases hq' with ⟨rfl, rfl⟩ | ⟨_, hold'⟩
      · rfl
      · rw [WorkerPc.progress, Option.some.injEq, Prod.mk.injEq] at hheld
        have hlt := (h.held j' q' index count' hold' hheld').1
        omega
    · rcases Tally.getElem?_set_cases hq' with ⟨rfl, rfl⟩ | ⟨_, hold'⟩
      · rw [WorkerPc.progress, Option.some.injEq, Prod.mk.injEq] at hheld'
        have hlt := (h.held j q index count hold hheld).1
        omega
      · exact h.apart j j' q q' index count count' hold hold' hheld hheld'
  owned := by
    intro index hindex
    by_cases hlast : index = s.nextTask
    · -- The task that is claimed now.
      subst hlast
      exact Or.inl ⟨k, .claimed s.nextTask, 0,
        by rw [List.getElem?_set_self (List.getElem?_eq_some_iff.mp hpc).1], rfl⟩
    · rcases h.owned index (by dsimp only at hindex; omega) with ⟨j, q, count, hq, hheld⟩ | hdone
      · refine Or.inl ⟨j, q, count, ?_, hheld⟩
        have hjk : k ≠ j := by
          intro hjk
          rw [← hjk, hpc, Option.some.injEq] at hq
          rw [← hq, hnone] at hheld
          cases hheld
        rw [List.getElem?_set_ne hjk, hq]
      · exact Or.inr hdone
  untouched := by
    intro index hindex
    exact h.untouched index (by dsimp only at hindex; omega)

/-- A worker that does a step of its task. -/
theorem Claims.advance (h : Claims job s) {index count length : Nat}
    (hpc : s.workers[k]? = some (.running s.served.length index count))
    (hlength : job[index]? = some length) (hcount : count < length) :
    Claims job { s with
      log := s.log ++ [⟨s.served.length, index, count⟩]
      workers := s.workers.set k (.running s.served.length index (count + 1)) } where
  sound := by
    intro q hq
    rcases Tally.mem_set_cases hq with rfl | hq
    · exact ⟨rfl, length, hlength, hcount⟩
    · exact h.sound q hq
  held := by
    intro j q other count' hq hheld
    simp only [trail_append]
    rcases Tally.getElem?_set_cases hq with ⟨rfl, rfl⟩ | ⟨hjk, hold⟩
    · rw [WorkerPc.progress, Option.some.injEq, Prod.mk.injEq] at hheld
      obtain ⟨rfl, rfl⟩ := hheld
      obtain ⟨hlt, htrail⟩ := h.held k _ index count hpc rfl
      refine ⟨hlt, ?_⟩
      simp [htrail, List.range_succ]
    · -- No other worker holds this task.
      have hother : index ≠ other := by
        intro heq
        subst heq
        exact hjk (h.apart k j _ q index count count' hpc hold rfl hheld)
      rw [if_neg (fun hcases => hother hcases.2), List.append_nil]
      exact h.held j q other count' hold hheld
  apart := by
    intro j j' q q' other count' count'' hq hq' hheld hheld'
    rcases Tally.getElem?_set_cases hq with ⟨rfl, rfl⟩ | ⟨_, hold⟩
    · rcases Tally.getElem?_set_cases hq' with ⟨rfl, rfl⟩ | ⟨_, hold'⟩
      · rfl
      · rw [WorkerPc.progress, Option.some.injEq, Prod.mk.injEq] at hheld
        exact h.apart k j' _ q' other count count'' hpc hold'
          (by rw [WorkerPc.progress, hheld.1]) hheld'
    · rcases Tally.getElem?_set_cases hq' with ⟨rfl, rfl⟩ | ⟨_, hold'⟩
      · rw [WorkerPc.progress, Option.some.injEq, Prod.mk.injEq] at hheld'
        exact h.apart j k q _ other count' count hold hpc hheld
          (by rw [WorkerPc.progress, hheld'.1])
      · exact h.apart j j' q q' other count' count'' hold hold' hheld hheld'
  owned := by
    intro other hother
    simp only [trail_append]
    by_cases hsame : index = other
    · subst hsame
      exact Or.inl ⟨k, .running s.served.length index (count + 1), count + 1,
        by rw [List.getElem?_set_self (List.getElem?_eq_some_iff.mp hpc).1], rfl⟩
    · rw [if_neg (fun hcases => hsame hcases.2), List.append_nil]
      rcases h.owned other hother with ⟨j, q, count', hq, hheld⟩ | hdone
      · refine Or.inl ⟨j, q, count', ?_, hheld⟩
        have hjk : k ≠ j := by
          intro hjk
          rw [← hjk, hpc, Option.some.injEq] at hq
          rw [← hq, WorkerPc.progress, Option.some.injEq, Prod.mk.injEq] at hheld
          exact hsame hheld.1
        rw [List.getElem?_set_ne hjk, hq]
      · exact Or.inr hdone
  untouched := by
    intro other hother
    have hlt := (h.held k _ index count hpc rfl).1
    rw [trail_append, if_neg (fun hcases => by dsimp only at hother hcases; omega),
      List.append_nil]
    exact h.untouched other hother

end ClaimSteps

/-- The pool while the caller collects. -/
structure Collecting (job : List Nat) (left : Nat) (s : State) : Prop extends
    Units job left s, Claims job s where
  tasks : s.tasks = some s.served.length
  count : s.taskCount = job.length
  frame : s.frame = some job
  going : s.stop = false
  present : 0 < s.workers.length
  fits : job.length + s.workers.length < 2 ^ 31

section Collects

variable {job : List Nat} {left : Nat} {s : State} {k : Nat} {pc pc' : WorkerPc}

/-- A worker that moves inside the loop and claims nothing. -/
theorem Units.move (h : Units job left s) (hpc : s.workers[k]? = some pc) (pc' : WorkerPc)
    (hbusy : pc'.busy = pc.busy) (hloop : pc'.inLoop = pc.inLoop)
    (hsearching : pc'.searching job.length = pc.searching job.length) (log : List Event) :
    Units job left { s with log := log, workers := s.workers.set k pc' } := by
  have hb := tally_set WorkerPc.busy pc' hpc
  have hl := tally_set WorkerPc.inLoop pc' hpc
  have hs := tally_set (WorkerPc.searching job.length) pc' hpc
  rw [hbusy] at hb
  rw [hloop] at hl
  rw [hsearching] at hs
  obtain ⟨hunits, hleft, hclaimed, hbound⟩ := h
  constructor <;> simp only [tally, List.length_set] at * <;> omega

/-- The semaphore gives a unit to a worker. -/
theorem Units.take (h : Units job left s) (hpc : s.workers[k]? = some .waiting)
    {work : Semaphore} (hwork : s.work.count = work.count + 1) :
    Units job left { s with work := work, workers := s.workers.set k .checking } := by
  have hb := tally_set WorkerPc.busy .checking hpc
  have hl := tally_set WorkerPc.inLoop .checking hpc
  have hs := tally_set (WorkerPc.searching job.length) .checking hpc
  obtain ⟨hunits, hleft, hclaimed, hbound⟩ := h
  constructor <;>
    simp only [tally, List.length_set, WorkerPc.busy, WorkerPc.inLoop, WorkerPc.searching,
      Bool.toNat_true, Bool.toNat_false] at * <;> omega

/-- A worker claims an index. If there is no such task, the worker stops searching. -/
theorem Units.claim (h : Units job left s) (hpc : s.workers[k]? = some .claiming) :
    Units job left { s with
      nextTask := s.nextTask + 1, workers := s.workers.set k (.claimed s.nextTask) } := by
  have hb := tally_set WorkerPc.busy (.claimed s.nextTask) hpc
  have hl := tally_set WorkerPc.inLoop (.claimed s.nextTask) hpc
  have hs := tally_set (WorkerPc.searching job.length) (.claimed s.nextTask) hpc
  have hle := searching_le_busy job.length s
  obtain ⟨hunits, hleft, hclaimed, hbound⟩ := h
  have hnat : (decide (s.nextTask < job.length)).toNat =
      if s.nextTask < job.length then 1 else 0 := by
    by_cases hlt : s.nextTask < job.length <;> simp [hlt]
  constructor <;>
    simp only [tally, List.length_set, WorkerPc.busy, WorkerPc.inLoop, WorkerPc.searching,
      Bool.toNat_true, hnat] at * <;> split_ifs at hs <;> omega

/-- A worker leaves the loop with an index behind the last task. -/
theorem Units.finish (h : Units job left s) {index : Nat}
    (hpc : s.workers[k]? = some (.claimed index)) (hindex : job.length ≤ index)
    (hclaimed : index < s.nextTask) :
    Units job left { s with workers := s.workers.set k .posting } := by
  have hb := tally_set WorkerPc.busy .posting hpc
  have hl := tally_set WorkerPc.inLoop .posting hpc
  have hs := tally_set (WorkerPc.searching job.length) .posting hpc
  obtain ⟨hunits, hleft, _, hbound⟩ := h
  have hnat : (decide (index < job.length)).toNat = 0 := by simp [hindex]
  constructor <;>
    simp only [tally, List.length_set, WorkerPc.busy, WorkerPc.inLoop, WorkerPc.searching,
      Bool.toNat_true, Bool.toNat_false, hnat] at * <;> omega

/-- A worker gives its unit back. -/
theorem Units.post (h : Units job left s) (hpc : s.workers[k]? = some .posting)
    {done : Semaphore} (hdone : done.count = s.done.count + 1) :
    Units job left { s with done := done, workers := s.workers.set k .waiting } := by
  have hb := tally_set WorkerPc.busy .waiting hpc
  have hl := tally_set WorkerPc.inLoop .waiting hpc
  have hs := tally_set (WorkerPc.searching job.length) .waiting hpc
  obtain ⟨hunits, hleft, hclaimed, hbound⟩ := h
  constructor <;>
    simp only [tally, List.length_set, WorkerPc.busy, WorkerPc.inLoop, WorkerPc.searching,
      Bool.toNat_true, Bool.toNat_false] at * <;> omega

/-- The second semaphore has room for every unit that comes back. -/
theorem Collecting.room (h : Collecting job left s) (hmax : s.workers.length ≤ s.done.maximum)
    (hpc : s.workers[k]? = some .posting) : s.done.count + 1 ≤ s.done.maximum := by
  have hbusy := toNat_le_tally WorkerPc.busy hpc
  have hunits := h.units
  have hleft := h.left_le
  simp only [WorkerPc.busy, Bool.toNat_true] at hbusy
  omega

/-- A worker that finds the task it is running. -/
theorem workerStep_running {index count length : Nat} (hframe : s.frame = some job)
    (hlength : job[index]? = some length) :
    WorkerPool.workerStep s (.running s.served.length index count) =
      if count < length then
        some ⟨.running s.served.length index (count + 1),
          { s with log := s.log ++ [⟨s.served.length, index, count⟩] }⟩
      else some ⟨.claiming, s⟩ := by
  simp [WorkerPool.workerStep, hframe, hlength]

/-- What a worker does while the caller collects: it takes a unit, runs the tasks that it claims, and
    gives the unit back when it has claimed an index behind the last task. -/
inductive Turn (job : List Nat) (s : State) : WorkerPc → Move → Prop
  | take {work : Semaphore} (hcount : s.work.count = work.count + 1) :
      Turn job s .waiting ⟨.checking, { s with work := work }⟩
  | enter : Turn job s .checking ⟨.claiming, s⟩
  | claim : Turn job s .claiming ⟨.claimed s.nextTask, { s with nextTask := s.nextTask + 1 }⟩
  | finish {index : Nat} (hout : job.length ≤ index) (hclaimed : index < s.nextTask) :
      Turn job s (.claimed index) ⟨.posting, s⟩
  | fetch {index : Nat} (hin : index < job.length) :
      Turn job s (.claimed index) ⟨.fetching index, s⟩
  | begin {index length : Nat} (hget : job[index]? = some length) :
      Turn job s (.fetching index) ⟨.running s.served.length index 0, s⟩
  | advance {index count length : Nat} (hget : job[index]? = some length) (hlt : count < length) :
      Turn job s (.running s.served.length index count)
        ⟨.running s.served.length index (count + 1),
          { s with log := s.log ++ [⟨s.served.length, index, count⟩] }⟩
  | complete {index count : Nat} (hall : count = job[index]?.getD 0) :
      Turn job s (.running s.served.length index count) ⟨.claiming, s⟩
  | post (hcount : (s.done.release 1).count = s.done.count + 1) :
      Turn job s .posting ⟨.waiting, { s with done := s.done.release 1 }⟩

/-- While the caller collects, no worker stops, wraps the counter around or runs into a fault. -/
theorem Collecting.turn (h : Collecting job left s) (hmax : s.workers.length ≤ s.done.maximum)
    (hpc : s.workers[k]? = some pc) {move : Move} (hstep : workerStep s pc = some move) :
    Turn job s pc move := by
  have hsound := h.sound pc (List.mem_of_getElem? hpc)
  -- Every worker adds one behind the last task at most, so the counter is far from its end.
  have hbound := h.bound
  have hfits := h.fits
  cases pc with
  | waiting =>
      rw [workerStep, Option.map_eq_some_iff] at hstep
      obtain ⟨work, hwait, rfl⟩ := hstep
      exact .take ((Semaphore.wait_eq_some_iff _ _).mp hwait).1
  | checking =>
      rw [workerStep, h.going, Option.some.injEq] at hstep
      subst hstep
      exact .enter
  | claiming =>
      have hwrap : increment s.nextTask = s.nextTask + 1 := by
        unfold increment
        omega
      rw [workerStep, hwrap, Option.some.injEq] at hstep
      subst hstep
      exact .claim
  | claimed index =>
      obtain ⟨hlt, _⟩ := h.held k _ index 0 hpc rfl
      have hsmall : index < 2 ^ 31 := by omega
      rw [workerStep, Option.some.injEq] at hstep
      by_cases hout : job.length ≤ index
      · rw [if_pos ((outside_iff hsmall).mpr (h.count ▸ hout))] at hstep
        subst hstep
        exact .finish hout hlt
      · rw [if_neg (fun hcases => hout (h.count ▸ (outside_iff hsmall).mp hcases))] at hstep
        subst hstep
        exact .fetch (Nat.lt_of_not_le hout)
  | fetching index =>
      rw [workerStep, h.tasks, Option.some.injEq] at hstep
      subst hstep
      exact .begin (List.getElem?_eq_getElem hsound)
  | running dispatch index count =>
      obtain ⟨rfl, length, hget, hcount⟩ := hsound
      rw [workerStep_running h.frame hget] at hstep
      by_cases hlt : count < length
      · rw [if_pos hlt, Option.some.injEq] at hstep
        subst hstep
        exact .advance hget hlt
      · rw [if_neg hlt, Option.some.injEq] at hstep
        subst hstep
        refine .complete ?_
        rw [hget, Option.getD_some]
        omega
  | posting =>
      rw [workerStep, Option.some.injEq] at hstep
      subst hstep
      exact .post (Semaphore.release_count s.done 1 (h.room hmax hpc))
  | leaving => exact hsound.elim
  | exited => exact hsound.elim
  | faulted => exact hsound.elim

/-- A step of a worker while the caller collects. -/
theorem Collecting.workerStep (h : Collecting job left s)
    (hmax : s.workers.length ≤ s.done.maximum) (hpc : s.workers[k]? = some pc) {move : Move}
    (hstep : workerStep s pc = some move) :
    Collecting job left { move.state with workers := s.workers.set k move.pc } := by
  have hpresent : 0 < (s.workers.set k move.pc).length := by
    rw [List.length_set]
    exact h.present
  have hfits : job.length + (s.workers.set k move.pc).length < 2 ^ 31 := by
    rw [List.length_set]
    exact h.fits
  cases h.turn hmax hpc hstep with
  | take hcount =>
      exact ⟨h.toUnits.take hpc hcount, h.toClaims.stay hpc .checking rfl trivial _ s.done,
        h.tasks, h.count, h.frame, h.going, hpresent, hfits⟩
  | enter =>
      exact ⟨h.toUnits.move hpc .claiming rfl rfl rfl s.log,
        h.toClaims.stay hpc .claiming rfl trivial s.work s.done, h.tasks, h.count, h.frame, h.going,
        hpresent, hfits⟩
  | claim =>
      exact ⟨h.toUnits.claim hpc, h.toClaims.claim hpc rfl, h.tasks, h.count, h.frame, h.going,
        hpresent, hfits⟩
  | @finish index hout hclaimed =>
      -- There is no such task, so the worker drops nothing.
      have hnone : job[index]?.getD 0 = 0 := by
        rw [List.getElem?_eq_none hout]
        rfl
      exact ⟨h.toUnits.finish hpc hout hclaimed, h.toClaims.drop hpc rfl hnone.symm rfl trivial,
        h.tasks, h.count, h.frame, h.going, hpresent, hfits⟩
  | @fetch index hin =>
      refine ⟨h.toUnits.move hpc (.fetching index) rfl rfl ?_ s.log,
        h.toClaims.stay hpc (.fetching index) rfl hin s.work s.done,
        h.tasks, h.count, h.frame, h.going, hpresent, hfits⟩
      simp only [WorkerPc.searching]
      exact (decide_eq_true hin).symm
  | @begin index _ hget =>
      exact ⟨h.toUnits.move hpc (.running s.served.length index 0) rfl rfl rfl s.log,
        h.toClaims.stay hpc (.running s.served.length index 0) rfl
          ⟨rfl, _, hget, Nat.zero_le _⟩ s.work s.done,
        h.tasks, h.count, h.frame, h.going, hpresent, hfits⟩
  | @advance index count _ hget hlt =>
      exact ⟨h.toUnits.move hpc (.running s.served.length index (count + 1)) rfl rfl rfl _,
        h.toClaims.advance hpc hget hlt, h.tasks, h.count, h.frame, h.going, hpresent, hfits⟩
  | complete hall =>
      exact ⟨h.toUnits.move hpc .claiming rfl rfl rfl s.log,
        h.toClaims.drop hpc rfl hall rfl trivial, h.tasks, h.count, h.frame, h.going, hpresent,
        hfits⟩
  | post hcount =>
      exact ⟨h.toUnits.post hpc hcount, h.toClaims.stay hpc .waiting rfl trivial s.work _, h.tasks,
        h.count, h.frame, h.going, hpresent, hfits⟩

/-- The caller takes a unit. -/
theorem Collecting.collect (h : Collecting job (left + 1) s) {done : Semaphore}
    (hwait : s.done.wait = some done) :
    Collecting job left { s with main := .collecting left, done := done } := by
  have hcount := ((Semaphore.wait_eq_some_iff _ _).mp hwait).1
  have hunits := h.units
  have hleft := h.left_le
  refine ⟨⟨?_, ?_, h.claimed, h.bound⟩, ⟨h.sound, h.held, h.apart, h.owned, h.untouched⟩, h.tasks,
    h.count, h.frame, h.going, h.present, h.fits⟩ <;> simp only [tally] at * <;> omega

/-- With all units back, every worker waits. -/
theorem Collecting.waiting (h : Collecting job 0 s) : ∀ pc ∈ s.workers, pc = .waiting := by
  intro pc hpc
  have hbusy : tally WorkerPc.busy s = 0 := by
    have hunits := h.units
    omega
  have hfree := List.countP_eq_zero.mp hbusy pc hpc
  have hsound := h.sound pc hpc
  cases pc <;> simp_all [WorkerPc.busy, WorkerPc.sound]

/-- With all units back, every task is done. -/
theorem Collecting.settled (h : Collecting job 0 s) : Settled s.log s.served.length job := by
  intro index
  have hunits := h.units
  have hall : job.length ≤ s.nextTask := by
    have hle := inLoop_le_busy s
    have hpresent := h.present
    exact h.claimed (by omega)
  by_cases hindex : index < s.nextTask
  · rcases h.owned index hindex with ⟨k, pc, count, hpc, hheld⟩ | hdone
    · rw [h.waiting pc (List.mem_of_getElem? hpc)] at hheld
      cases hheld
    · exact hdone
  · rw [h.untouched index (Nat.le_of_not_lt hindex), List.getElem?_eq_none (by omega)]
    rfl

end Collects

/-! ## The other phases -/

/-- Nobody has a unit. -/
structure Quiet (s : State) : Prop where
  work : s.work.count = 0
  done : s.done.count = 0
  waiting : ∀ pc ∈ s.workers, pc = .waiting

/-- A job is in the frame, and no worker has heard of it. -/
structure Poised (job : List Nat) (s : State) : Prop extends Quiet s where
  frame : s.frame = some job
  going : s.stop = false
  present : 0 < s.workers.length
  fits : job.length + s.workers.length < 2 ^ 31
  fresh : ∀ index, trail s.log s.served.length index = []

/-- All workers have been told to stop, each with a unit of its own. -/
structure Joining (s : State) : Prop where
  stopped : s.stop = true
  units : s.work.count = tally (· = .waiting) s
  returned : s.done.count = tally (· = .exited) s
  places : ∀ pc ∈ s.workers, pc = .waiting ∨ pc = .checking ∨ pc = .leaving ∨ pc = .exited

/-- What holds while the caller is at a place. -/
def Phase (s : State) : MainPc → Prop
  | .idle => Quiet s ∧ s.stop = false ∧ 0 < s.workers.length ∧ s.frame = none ∧ s.tasks = none ∧
      ∀ index, trail s.log s.served.length index = []
  | .storing => ∃ job, Poised job s
  | .resetting => ∃ job, Poised job s ∧ s.tasks = some s.served.length
  | .counting => ∃ job, Poised job s ∧ s.tasks = some s.served.length ∧ s.nextTask = 0
  | .releasing => ∃ job, Poised job s ∧ s.tasks = some s.served.length ∧ s.nextTask = 0 ∧
      s.taskCount = job.length
  | .collecting left => ∃ job, Collecting job left s
  | .clearing => Quiet s ∧ s.stop = false ∧ 0 < s.workers.length ∧
      ∃ job, s.frame = some job ∧ Settled s.log s.served.length job
  | .stopping => Quiet s ∧ s.frame = none ∧ ∀ index, trail s.log s.served.length index = []
  | .dismissing => Quiet s ∧ s.frame = none ∧ s.stop = true ∧
      ∀ index, trail s.log s.served.length index = []
  | .joining => Joining s ∧ s.frame = none ∧ ∀ index, trail s.log s.served.length index = []
  | .closed => (∀ pc ∈ s.workers, pc = .exited) ∧ s.frame = none ∧
      ∀ index, trail s.log s.served.length index = []

/-- The invariant of the system. -/
structure Safe (s : State) : Prop where
  room : s.workers.length ≤ s.work.maximum ∧ s.workers.length ≤ s.done.maximum
  size : s.workers.length ≤ maximumWaitObjects
  settled : ∀ (dispatch : Nat) (job : List Nat), s.served[dispatch]? = some job →
    Settled s.log dispatch job
  later : ∀ dispatch, s.served.length < dispatch → ∀ index, trail s.log dispatch index = []
  phase : Phase s s.main

/-- A step of a worker leaves the caller, its frame, what it has served and the size of the pool
    alone, and can only log steps of the dispatch it found in the frame. -/
theorem workerStep_frame {s : State} {pc : WorkerPc} {move : Move}
    (h : workerStep s pc = some move) :
    move.state.main = s.main ∧ move.state.served = s.served ∧ move.state.frame = s.frame ∧
      move.state.work.maximum = s.work.maximum ∧ move.state.done.maximum = s.done.maximum ∧
      ∀ dispatch, dispatch ≠ s.served.length → ∀ index,
        trail move.state.log dispatch index = trail s.log dispatch index := by
  cases pc with
  | waiting =>
      rw [workerStep, Option.map_eq_some_iff] at h
      obtain ⟨work, hwait, rfl⟩ := h
      exact ⟨rfl, rfl, rfl, ((Semaphore.wait_eq_some_iff _ _).mp hwait).2, rfl, fun _ _ _ => rfl⟩
  | running dispatch index count =>
      rw [workerStep] at h
      split at h
      · cases h
        exact ⟨rfl, rfl, rfl, rfl, rfl, fun _ _ _ => rfl⟩
      · split_ifs at h with hdispatch
        · cases h
          exact ⟨rfl, rfl, rfl, rfl, rfl, fun _ _ _ => rfl⟩
        · split at h
          · cases h
            exact ⟨rfl, rfl, rfl, rfl, rfl, fun _ _ _ => rfl⟩
          · split_ifs at h <;> cases h
            · refine ⟨rfl, rfl, rfl, rfl, rfl, fun other hother i => ?_⟩
              rw [not_not.mp hdispatch, trail_append,
                if_neg (fun hcases => hother hcases.1.symm), List.append_nil]
            · exact ⟨rfl, rfl, rfl, rfl, rfl, fun _ _ _ => rfl⟩
  | fetching index =>
      rw [workerStep] at h
      split at h <;> cases h <;> exact ⟨rfl, rfl, rfl, rfl, rfl, fun _ _ _ => rfl⟩
  | posting | leaving =>
      cases h
      exact ⟨rfl, rfl, rfl, rfl, Semaphore.release_maximum _ _, fun _ _ _ => rfl⟩
  | checking | claiming | claimed index =>
      cases h
      exact ⟨rfl, rfl, rfl, rfl, rfl, fun _ _ _ => rfl⟩
  | exited | faulted => cases h

section Phases

variable {s : State} {k : Nat} {pc : WorkerPc} {move : Move}

/-- No worker moves while nobody has a unit. -/
theorem Quiet.still (h : Quiet s) (hpc : s.workers[k]? = some pc) : workerStep s pc = none := by
  rw [h.waiting pc (List.mem_of_getElem? hpc), workerStep]
  simp [Semaphore.wait, h.work]

/-- The second semaphore has room for every worker that leaves. -/
theorem Joining.room (h : Joining s) (hmax : s.workers.length ≤ s.done.maximum)
    (hpc : s.workers[k]? = some .leaving) : s.done.count + 1 ≤ s.done.maximum := by
  have hall := tally_set (· = .exited) .exited hpc
  have hle := List.countP_le_length (p := fun q => decide (q = .exited))
    (l := s.workers.set k .exited)
  rw [List.length_set] at hle
  have hreturned := h.returned
  simp only [reduceCtorEq, decide_false, Bool.toNat_false, decide_true, Bool.toNat_true] at hall
  omega

/-- A step of a worker on its way out. -/
theorem Joining.workerStep (h : Joining s) (hmax : s.workers.length ≤ s.done.maximum)
    (hpc : s.workers[k]? = some pc) (hstep : workerStep s pc = some move) :
    Joining { move.state with workers := s.workers.set k move.pc } ∧ move.state.log = s.log := by
  have hwaiting := tally_set (· = .waiting) move.pc hpc
  have hexited := tally_set (· = .exited) move.pc hpc
  obtain ⟨hstop, hunits, hreturned, hplaces⟩ := h
  have hplaces' : ∀ pc', (pc' = WorkerPc.waiting ∨ pc' = .checking ∨ pc' = .leaving ∨
      pc' = .exited) → ∀ q ∈ s.workers.set k pc',
      q = .waiting ∨ q = .checking ∨ q = .leaving ∨ q = .exited := by
    intro pc' hpc' q hq
    rcases Tally.mem_set_cases hq with rfl | hq
    · exact hpc'
    · exact hplaces q hq
  rcases hplaces pc (List.mem_of_getElem? hpc) with rfl | rfl | rfl | rfl
  · rw [WorkerPool.workerStep, Option.map_eq_some_iff] at hstep
    obtain ⟨work, hwait, rfl⟩ := hstep
    have hcount := ((Semaphore.wait_eq_some_iff _ _).mp hwait).1
    simp [tally] at hwaiting hexited hunits hreturned
    exact ⟨⟨hstop, by simp [tally]; omega, by simp [tally]; omega, hplaces' _ (by simp)⟩, rfl⟩
  · rw [WorkerPool.workerStep, hstop, if_pos rfl, Option.some.injEq] at hstep
    subst hstep
    simp [tally] at hwaiting hexited hunits hreturned
    exact ⟨⟨hstop, by simp [tally]; omega, by simp [tally]; omega, hplaces' _ (by simp)⟩, rfl⟩
  · have hroom := Joining.room ⟨hstop, hunits, hreturned, hplaces⟩ hmax hpc
    have hcount := Semaphore.release_count s.done 1 hroom
    cases hstep
    simp [tally] at hwaiting hexited hunits hreturned
    exact ⟨⟨hstop, by simp [tally]; omega, by simp [tally]; omega, hplaces' _ (by simp)⟩, rfl⟩
  · cases hstep

end Phases

/-! ## Every step keeps the invariant -/

/-- A dispatch that is over stays as it is, whatever is logged for later ones. -/
theorem Settled.congr {log log' : List Event} {dispatch : Nat} {job : List Nat}
    (h : Settled log dispatch job)
    (hlog : ∀ index, trail log' dispatch index = trail log dispatch index) :
    Settled log' dispatch job := by
  intro index
  rw [hlog, h]

/-- A step of a worker leaves the caller in the phase it is in. -/
theorem Phase.workerStep {s : State} {k : Nat} {pc : WorkerPc} {move : Move} {place : MainPc}
    (h : Phase s place) (hmax : s.workers.length ≤ s.done.maximum)
    (hpc : s.workers[k]? = some pc) (hmove : workerStep s pc = some move) :
    Phase { move.state with workers := s.workers.set k move.pc } place := by
  cases place with
  | idle | clearing | stopping | dismissing =>
      rw [h.1.still hpc] at hmove
      cases hmove
  | storing =>
      obtain ⟨job, hjob⟩ := h
      rw [hjob.still hpc] at hmove
      cases hmove
  | resetting | counting | releasing =>
      obtain ⟨job, hjob, _⟩ := h
      rw [hjob.still hpc] at hmove
      cases hmove
  | collecting left =>
      obtain ⟨job, hjob⟩ := h
      exact ⟨job, hjob.workerStep hmax hpc hmove⟩
  | joining =>
      obtain ⟨hjoining, hframe, htrail⟩ := h
      obtain ⟨hnext, hlog⟩ := hjoining.workerStep hmax hpc hmove
      obtain ⟨_, hserved, hframes, _⟩ := workerStep_frame hmove
      refine ⟨hnext, by rw [hframes, hframe], ?_⟩
      simp only [hlog, hserved]
      exact htrail
  | closed =>
      rw [h.1 pc (List.mem_of_getElem? hpc)] at hmove
      cases hmove

theorem step_worker_safe {s s' : State} {k : Nat} {kind : Kind} (h : Safe s)
    (hstep : step kind s (.worker k) = some s') : Safe s' := by
  rw [step] at hstep
  split at hstep
  · cases hstep
  next pc hpc =>
    rw [Option.map_eq_some_iff] at hstep
    obtain ⟨move, hmove, rfl⟩ := hstep
    obtain ⟨hmain, hserved, _, hwork, hdone, hlog⟩ := workerStep_frame hmove
    refine ⟨?_, ?_, ?_, ?_, (hmain.symm ▸ h.phase).workerStep h.room.2 hpc hmove⟩
    · simp only [List.length_set, hwork, hdone]
      exact h.room
    · simp only [List.length_set]
      exact h.size
    · intro dispatch job hjob
      simp only [hserved] at hjob
      have hlt := (List.getElem?_eq_some_iff.mp hjob).1
      exact (h.settled dispatch job hjob).congr (hlog dispatch (Nat.ne_of_lt hlt))
    · intro dispatch hlt index
      simp only [hserved] at hlt
      rw [hlog dispatch (Nat.ne_of_gt hlt)]
      exact h.later dispatch hlt index

/-- The units go out. -/
theorem Poised.release {job : List Nat} {s : State} (h : Poised job s)
    (hmax : s.workers.length ≤ s.work.maximum) (htasks : s.tasks = some s.served.length)
    (hnext : s.nextTask = 0) (hcount : s.taskCount = job.length) :
    Collecting job s.workers.length { s with
      main := .collecting s.workers.length, work := s.work.release s.workers.length } := by
  have hwork : (s.work.release s.workers.length).count = s.workers.length := by
    rw [Semaphore.release_count _ _ (by rw [h.work]; omega), h.work, Nat.zero_add]
  have hnone : ∀ p : WorkerPc → Bool, p .waiting = false → s.workers.countP p = 0 := by
    intro p hp
    refine List.countP_eq_zero.mpr fun pc hpc => ?_
    rw [h.waiting pc hpc, hp]
    exact Bool.false_ne_true
  have hfree : ∀ (k : Nat) (pc : WorkerPc), s.workers[k]? = some pc → pc.progress = none := by
    intro k pc hpc
    rw [h.waiting pc (List.mem_of_getElem? hpc)]
    rfl
  refine ⟨⟨?_, Nat.le_refl _, ?_, ?_⟩, ⟨?_, ?_, ?_, ?_, ?_⟩, htasks, hcount, h.frame, h.going,
    h.present, h.fits⟩
  · simp only [tally, hwork, hnone WorkerPc.busy rfl, h.done]
    omega
  · simp only [tally, hwork, hnone WorkerPc.inLoop rfl]
    omega
  · simp only [tally, hwork, hnone (WorkerPc.searching job.length) rfl, hnext]
    omega
  · intro pc hpc
    rw [h.waiting pc hpc]
    trivial
  · intro k pc index count hpc hheld
    rw [hfree k pc hpc] at hheld
    cases hheld
  · intro k k' pc pc' index count count' hpc _ hheld
    rw [hfree k pc hpc] at hheld
    cases hheld
  · intro index hindex
    simp only [hnext] at hindex
    omega
  · intro index _
    exact h.fresh index

/-- What the caller does in a phase leads to the next one. -/
theorem mainStep_safe {s s' : State} (h : Safe s) (hstep : mainStep s = some s') : Safe s' := by
  obtain ⟨hroom, hsize, hsettled, hlater, hphase⟩ := h
  unfold mainStep at hstep
  cases hplace : s.main with
  | idle => simp [hplace] at hstep
  | closed => simp [hplace] at hstep
  | storing =>
      simp only [hplace, Option.some.injEq] at hstep hphase
      subst hstep
      obtain ⟨job, hjob⟩ := hphase
      exact ⟨hroom, hsize, hsettled, hlater, job, ⟨⟨hjob.work, hjob.done, hjob.waiting⟩,
        hjob.frame, hjob.going, hjob.present, hjob.fits, hjob.fresh⟩, rfl⟩
  | resetting =>
      simp only [hplace, Option.some.injEq] at hstep hphase
      subst hstep
      obtain ⟨job, hjob, htasks⟩ := hphase
      exact ⟨hroom, hsize, hsettled, hlater, job, ⟨⟨hjob.work, hjob.done, hjob.waiting⟩,
        hjob.frame, hjob.going, hjob.present, hjob.fits, hjob.fresh⟩, htasks, rfl⟩
  | counting =>
      simp only [hplace, Option.some.injEq] at hstep hphase
      subst hstep
      obtain ⟨job, hjob, htasks, hnext⟩ := hphase
      exact ⟨hroom, hsize, hsettled, hlater, job, ⟨⟨hjob.work, hjob.done, hjob.waiting⟩,
        hjob.frame, hjob.going, hjob.present, hjob.fits, hjob.fresh⟩, htasks, hnext,
        by rw [hjob.frame, Option.getD_some]⟩
  | releasing =>
      simp only [hplace, Option.some.injEq] at hstep hphase
      subst hstep
      obtain ⟨job, hjob, htasks, hnext, hcount⟩ := hphase
      refine ⟨?_, hsize, hsettled, hlater, job, hjob.release hroom.1 htasks hnext hcount⟩
      simpa only [Semaphore.release_maximum] using hroom
  | collecting left =>
      simp only [hplace] at hstep hphase
      obtain ⟨job, hjob⟩ := hphase
      cases left with
      | zero =>
          rw [Option.some.injEq] at hstep
          subst hstep
          have hunits := hjob.units
          exact ⟨hroom, hsize, hsettled, hlater, ⟨by dsimp only; omega, by dsimp only; omega,
            hjob.waiting⟩, hjob.going, hjob.present, job, hjob.frame, hjob.settled⟩
      | succ left =>
          rw [Option.map_eq_some_iff] at hstep
          obtain ⟨done, hwait, rfl⟩ := hstep
          have hmaximum := ((Semaphore.wait_eq_some_iff _ _).mp hwait).2
          exact ⟨⟨hroom.1, by simpa only [hmaximum] using hroom.2⟩, hsize, hsettled, hlater, job,
            hjob.collect hwait⟩
  | clearing =>
      simp only [hplace, Option.some.injEq] at hstep hphase
      subst hstep
      obtain ⟨hquiet, hgoing, hpresent, job, hframe, hsettle⟩ := hphase
      have hlength : (s.served ++ s.frame.toList).length = s.served.length + 1 := by
        simp [hframe]
      refine ⟨hroom, hsize, ?_, ?_, ⟨hquiet.work, hquiet.done, hquiet.waiting⟩, hgoing, hpresent,
        rfl, rfl, ?_⟩
      · intro dispatch other hother
        simp only [hframe, Option.toList_some] at hother
        by_cases hlt : dispatch < s.served.length
        · rw [List.getElem?_append_left hlt] at hother
          exact hsettled dispatch other hother
        · -- The dispatch that has just been served.
          rw [List.getElem?_append_right (Nat.le_of_not_lt hlt), List.getElem?_singleton] at hother
          split_ifs at hother with hlast
          cases hother
          have heq : dispatch = s.served.length := by omega
          subst heq
          exact hsettle
      · intro dispatch hlt
        exact hlater dispatch (by dsimp only at hlt; omega)
      · intro index
        simp only [hlength]
        exact hlater _ (Nat.lt_succ_self _) index
  | stopping =>
      simp only [hplace, Option.some.injEq] at hstep hphase
      subst hstep
      obtain ⟨hquiet, hframe, htrail⟩ := hphase
      exact ⟨hroom, hsize, hsettled, hlater, ⟨hquiet.work, hquiet.done, hquiet.waiting⟩, hframe,
        rfl, htrail⟩
  | dismissing =>
      simp only [hplace, Option.some.injEq] at hstep hphase
      subst hstep
      obtain ⟨hquiet, hframe, hstop, htrail⟩ := hphase
      have hcount := Semaphore.release_count s.work s.workers.length
        (by rw [hquiet.work]; omega)
      have hwaiting : s.workers.countP (fun pc => decide (pc = .waiting)) = s.workers.length := by
        rw [List.countP_eq_length]
        exact fun pc hpc => decide_eq_true (hquiet.waiting pc hpc)
      have hexited : s.workers.countP (fun pc => decide (pc = .exited)) = 0 := by
        refine List.countP_eq_zero.mpr fun pc hpc => ?_
        simp [hquiet.waiting pc hpc]
      refine ⟨?_, hsize, hsettled, hlater, ⟨hstop, ?_, ?_, ?_⟩, hframe, htrail⟩
      · simpa only [Semaphore.release_maximum] using hroom
      · simp only [tally, hcount, hwaiting, hquiet.work, Nat.zero_add]
      · simp only [tally, hexited, hquiet.done]
      · exact fun pc hpc => Or.inl (hquiet.waiting pc hpc)
  | joining =>
      simp only [hplace] at hstep hphase
      obtain ⟨_, hframe, htrail⟩ := hphase
      split_ifs at hstep with hall
      cases hstep
      refine ⟨hroom, hsize, hsettled, hlater, ?_, hframe, htrail⟩
      intro pc hpc
      exact of_decide_eq_true (List.all_eq_true.mp hall pc hpc)

/-- A job that a pool takes is small. -/
theorem accepts_length {kind : Kind} {job : List Nat} (h : kind.accepts job = true) :
    job.length ≤ 256 := by
  have hle : job.length ≤ kind.taskCapacity := by
    simp only [Kind.accepts, Bool.and_eq_true, decide_eq_true_eq] at h
    exact h.2
  refine Nat.le_trans hle ?_
  cases kind <;> decide

theorem step_safe (kind : Kind) (s : State) (action : Action) (s' : State) (h : Safe s)
    (hstep : step kind s action = some s') : Safe s' := by
  cases action with
  | worker k => exact step_worker_safe h hstep
  | main => exact mainStep_safe h hstep
  | dispatch job =>
      rw [step] at hstep
      split_ifs at hstep with hcases
      cases hstep
      obtain ⟨hroom, hsize, hsettled, hlater, hphase⟩ := h
      rw [hcases.1] at hphase
      obtain ⟨hquiet, hgoing, hpresent, _, _, htrail⟩ := hphase
      have hfits : job.length + s.workers.length < 2 ^ 31 := by
        have hlength := accepts_length hcases.2
        unfold maximumWaitObjects at hsize
        omega
      exact ⟨hroom, hsize, hsettled, hlater, job, ⟨hquiet.work, hquiet.done, hquiet.waiting⟩, rfl,
        hgoing, hpresent, hfits, htrail⟩
  | destroy =>
      rw [step] at hstep
      split_ifs at hstep with hcases
      cases hstep
      obtain ⟨hroom, hsize, hsettled, hlater, hphase⟩ := h
      rw [hcases] at hphase
      obtain ⟨hquiet, _, _, hframe, _, htrail⟩ := hphase
      exact ⟨hroom, hsize, hsettled, hlater, ⟨hquiet.work, hquiet.done, hquiet.waiting⟩, hframe,
        htrail⟩

theorem started_safe (kind : Kind) (s : State) (h : Started kind s) : Safe s := by
  obtain ⟨requested, launched, hle, rfl⟩ := h
  obtain ⟨hpos, hmax⟩ := kind.workerCount_bounds requested
  have hquiet : Quiet (State.new (kind.workerCount requested) launched) :=
    ⟨rfl, rfl, fun pc hpc => (List.eq_of_mem_replicate hpc)⟩
  refine ⟨?_, ?_, ?_, fun _ _ _ => rfl, ?_⟩
  · simp only [State.new, List.length_replicate, Semaphore.create_maximum]
    exact ⟨hle, hle⟩
  · simp only [State.new, List.length_replicate]
    omega
  · intro dispatch job hjob
    simp [State.new] at hjob
  · by_cases hall : launched = kind.workerCount requested
    · have hmain : (State.new (kind.workerCount requested) launched).main = .idle := if_pos hall
      rw [hmain]
      refine ⟨hquiet, rfl, ?_, rfl, rfl, fun _ => rfl⟩
      simp only [State.new, List.length_replicate]
      omega
    · have hmain : (State.new (kind.workerCount requested) launched).main = .stopping :=
        if_neg hall
      rw [hmain]
      exact ⟨hquiet, rfl, fun _ => rfl⟩

/-- The invariant holds in every order of steps. -/
theorem reachable_safe (kind : Kind) (s : State) (h : Reachable kind s) : Safe s :=
  h.invariant Safe (started_safe kind) fun s action s' hs _ hstep =>
    step_safe kind s action s' hs hstep

theorem range_prefix {m n : Nat} (h : m ≤ n) : List.range m <+: List.range n := by
  obtain ⟨d, rfl⟩ := Nat.exists_eq_add_of_le h
  exact ⟨_, (List.range_add).symm⟩

/-- A worker that holds a task has not done more steps than the task has. -/
theorem sound_progress {dispatch index count : Nat} {job : List Nat} {pc : WorkerPc}
    (h : pc.sound dispatch job) (hheld : pc.progress = some (index, count)) :
    count ≤ job[index]?.getD 0 := by
  cases pc with
  | claimed other | fetching other =>
      cases hheld
      exact Nat.zero_le _
  | running current other done =>
      cases hheld
      obtain ⟨_, length, hget, hle⟩ := h
      rw [hget]
      exact hle
  | waiting | checking | claiming | posting | leaving | exited | faulted => cases hheld

/-- What the log has of the dispatch under way is a beginning of each task. -/
theorem Safe.begun {s : State} {job : List Nat} (h : Safe s) (hframe : s.frame = some job)
    (index : Nat) :
    trail s.log s.served.length index <+: List.range (job[index]?.getD 0) := by
  have hphase := h.phase
  have hempty : trail s.log s.served.length index = [] →
      trail s.log s.served.length index <+: List.range (job[index]?.getD 0) := by
    intro hnil
    rw [hnil]
    exact List.nil_prefix
  cases hplace : s.main with
  | idle =>
      rw [hplace] at hphase
      exact hempty (hphase.2.2.2.2.2 index)
  | storing =>
      rw [hplace] at hphase
      obtain ⟨_, hjob⟩ := hphase
      exact hempty (hjob.fresh index)
  | resetting | counting | releasing =>
      rw [hplace] at hphase
      obtain ⟨_, hjob, _⟩ := hphase
      exact hempty (hjob.fresh index)
  | collecting left =>
      rw [hplace] at hphase
      obtain ⟨other, hjob⟩ := hphase
      obtain rfl := Option.some.inj (hframe.symm.trans hjob.frame)
      -- A task below the counter is held by a worker or over; one above it has not been touched.
      by_cases hlt : index < s.nextTask
      · rcases hjob.owned index hlt with ⟨k, pc, count, hpc, hheld⟩ | hdone
        · rw [(hjob.held k pc index count hpc hheld).2]
          exact range_prefix (sound_progress (hjob.sound pc (List.mem_of_getElem? hpc)) hheld)
        · exact hdone ▸ List.prefix_rfl
      · exact hempty (hjob.untouched index (Nat.le_of_not_lt hlt))
  | clearing =>
      rw [hplace] at hphase
      obtain ⟨_, _, _, other, hother, hsettled⟩ := hphase
      obtain rfl := Option.some.inj (hframe.symm.trans hother)
      exact hsettled index ▸ List.prefix_rfl
  | stopping =>
      rw [hplace] at hphase
      exact hempty (hphase.2.2 index)
  | dismissing =>
      rw [hplace] at hphase
      exact hempty (hphase.2.2.2 index)
  | joining | closed =>
      rw [hplace] at hphase
      exact hempty (hphase.2.2 index)

/-- What the workers are at: they wait for a dispatch, or serve one, or are being dismissed, or have
    gone. -/
theorem Safe.crew {s : State} (h : Safe s) :
    Quiet s ∨ (∃ left job, s.main = .collecting left ∧ Collecting job left s) ∨
      (s.main = .joining ∧ Joining s) ∨ ∀ pc ∈ s.workers, pc = .exited := by
  have hphase := h.phase
  cases hplace : s.main with
  | idle | clearing | stopping | dismissing =>
      rw [hplace] at hphase
      exact Or.inl hphase.1
  | storing =>
      rw [hplace] at hphase
      obtain ⟨_, hjob⟩ := hphase
      exact Or.inl hjob.toQuiet
  | resetting | counting | releasing =>
      rw [hplace] at hphase
      obtain ⟨_, hjob, _⟩ := hphase
      exact Or.inl hjob.toQuiet
  | collecting left =>
      rw [hplace] at hphase
      obtain ⟨job, hjob⟩ := hphase
      exact Or.inr (Or.inl ⟨left, job, rfl, hjob⟩)
  | joining =>
      rw [hplace] at hphase
      exact Or.inr (Or.inr (Or.inl ⟨rfl, hphase.1⟩))
  | closed =>
      rw [hplace] at hphase
      exact Or.inr (Or.inr (Or.inr hphase.1))

/-- No worker has run into a fault, and none holds a task once the frame is gone. -/
theorem Safe.untouched {s : State} (h : Safe s) :
    ∀ pc ∈ s.workers, pc ≠ .faulted ∧ (s.frame = none → pc.progress = none) := by
  intro pc hpc
  rcases h.crew with hquiet | ⟨left, job, _, hjob⟩ | ⟨_, hjoining⟩ | hexited
  · rw [hquiet.waiting pc hpc]
    exact ⟨by simp, fun _ => rfl⟩
  · have hsound := hjob.sound pc hpc
    refine ⟨?_, fun hframe => by rw [hjob.frame] at hframe; cases hframe⟩
    intro hfault
    rw [hfault] at hsound
    exact hsound
  · rcases hjoining.places pc hpc with rfl | rfl | rfl | rfl <;> exact ⟨by simp, fun _ => rfl⟩
  · rw [hexited pc hpc]
    exact ⟨by simp, fun _ => rfl⟩

/-- No semaphore is released further than its maximum. -/
theorem Safe.releases {s : State} (h : Safe s) :
    (s.main = .releasing ∨ s.main = .dismissing →
      s.work.count + s.workers.length ≤ s.work.maximum) ∧
    (∀ pc ∈ s.workers, pc = .posting ∨ pc = .leaving → s.done.count + 1 ≤ s.done.maximum) := by
  have hroom := h.room
  constructor
  · intro hmain
    have hphase := h.phase
    have hzero : s.work.count = 0 := by
      rcases hmain with hplace | hplace <;> rw [hplace] at hphase
      · obtain ⟨_, hjob, _⟩ := hphase
        exact hjob.work
      · exact hphase.1.work
    omega
  · intro pc hpc hplaces
    obtain ⟨k, hk⟩ := List.mem_iff_getElem?.mp hpc
    rcases h.crew with hquiet | ⟨left, job, _, hjob⟩ | ⟨_, hjoining⟩ | hexited
    · rw [hquiet.waiting pc hpc] at hplaces
      simp at hplaces
    · -- A worker posts while it serves, and none leaves then.
      rcases hplaces with rfl | rfl
      · exact hjob.room hroom.2 hk
      · exact (hjob.sound _ hpc).elim
    · rcases hplaces with rfl | rfl
      · have hplaces := hjoining.places _ hpc
        simp at hplaces
      · exact hjoining.room hroom.2 hk
    · rw [hexited pc hpc] at hplaces
      simp at hplaces

/-! ## Dispatches -/

/-- The turns of the threads at the tasks of a dispatch. -/
def turns (log : List Event) (dispatch : Nat) : List (Nat × Nat) :=
  log.filterMap fun event =>
    if event.dispatch = dispatch then some (event.index, event.step) else none

/-- The job of some programs: each has its effects and one step that hands in the result. -/
def jobOf {ε : Type} (programs : List (List ε)) : List Nat :=
  programs.map fun program => program.length + 1

theorem own_turns (log : List Event) (dispatch index : Nat) :
    Interleave.own (turns log dispatch) index = trail log dispatch index := by
  unfold Interleave.own turns trail
  rw [List.filterMap_filterMap]
  refine List.filterMap_congr fun event _ => ?_
  by_cases hdispatch : event.dispatch = dispatch <;> simp [hdispatch]

/-- A dispatch that is over has taken every turn of its programs. -/
theorem Settled.complete {ε : Type} {programs : List (List ε)} {log : List Event}
    {dispatch : Nat} (h : Settled log dispatch (jobOf programs)) :
    Interleave.Complete programs (turns log dispatch) := by
  intro index
  rw [own_turns, h index, jobOf, List.getElem?_map]
  cases programs[index]? <;> rfl

/-- The same for the states of a pool. -/
theorem served_complete {ε : Type} {kind : Kind} {s : State} (h : Reachable kind s)
    {programs : List (List ε)} {dispatch : Nat}
    (hserved : s.served[dispatch]? = some (jobOf programs)) :
    Interleave.Complete programs (turns s.log dispatch) :=
  ((reachable_safe kind s h).settled dispatch _ hserved).complete

/-- A log of the turns that the threads of a pool have taken at some programs, which are its tasks
    in a dispatch that is over. -/
def ServedBy {ε : Type} (kind : Kind) (programs : List (List ε)) (log : List (Nat × Nat)) : Prop :=
  ∃ s dispatch, Reachable kind s ∧ s.served[dispatch]? = some (jobOf programs) ∧
    log = turns s.log dispatch

theorem ServedBy.complete {ε : Type} {kind : Kind} {programs : List (List ε)}
    {log : List (Nat × Nat)} (h : ServedBy kind programs log) :
    Interleave.Complete programs log := by
  obtain ⟨s, dispatch, hreach, hserved, rfl⟩ := h
  exact served_complete hreach hserved

/-- In every order of steps of the caller and the workers of a pool: a dispatch that is over has
    run each of its tasks once, step by step, and one under way a beginning of each; nothing is
    logged for a dispatch to come. No worker reads a task that is not there, or holds one once the
    caller has returned, no semaphore is released in vain, and a pool is closed only over workers
    that have gone. -/
theorem pool_runs_each_task_once (kind : Kind) (s : State) (h : Reachable kind s) :
    (∀ (dispatch : Nat) (job : List Nat), s.served[dispatch]? = some job → ∀ index,
      trail s.log dispatch index = List.range (job[index]?.getD 0)) ∧
    (∀ job, s.frame = some job → ∀ index,
      trail s.log s.served.length index <+: List.range (job[index]?.getD 0)) ∧
    (∀ dispatch, s.served.length < dispatch → ∀ index, trail s.log dispatch index = []) ∧
    (∀ pc ∈ s.workers, pc ≠ .faulted ∧ (s.frame = none → pc.progress = none)) ∧
    (s.main = .releasing ∨ s.main = .dismissing →
      s.work.count + s.workers.length ≤ s.work.maximum) ∧
    (∀ pc ∈ s.workers, pc = .posting ∨ pc = .leaving → s.done.count + 1 ≤ s.done.maximum) ∧
    (s.main = .closed → ∀ pc ∈ s.workers, pc = .exited) := by
  have hsafe := reachable_safe kind s h
  refine ⟨hsafe.settled, fun job hframe => hsafe.begun hframe, hsafe.later, hsafe.untouched,
    hsafe.releases.1, hsafe.releases.2, ?_⟩
  intro hclosed
  have hphase := hsafe.phase
  rw [hclosed] at hphase
  exact hphase.1

/-- Two workers and two tasks. -/
def twoWorkers : List Action :=
  [.dispatch [2, 1], .main, .main, .main, .main,
    .worker 0, .worker 1, .worker 0, .worker 0, .worker 1, .worker 1, .worker 0, .worker 0,
    .worker 1, .worker 1, .worker 0, .worker 1, .worker 0, .worker 1, .worker 0, .worker 1,
    .worker 1, .worker 0, .worker 1, .main, .worker 0, .worker 0, .main, .main, .main]

/-- Both tasks are run, the second between the two steps of the first. -/
theorem twoWorkers_runs : ∃ s, Run.runs (step .moeRoute) (State.new 2 2) twoWorkers = some s ∧
    s.log = [⟨0, 0, 0⟩, ⟨0, 1, 0⟩, ⟨0, 0, 1⟩] ∧ s.served[0]? = some [2, 1] ∧
    trail s.log 0 0 = List.range 2 ∧ ∀ pc ∈ s.workers, pc.progress = none := by
  refine ⟨_, rfl, rfl, rfl, ?_⟩
  have hreach : Reachable .moeRoute ((Run.runs (step .moeRoute) (State.new 2 2) twoWorkers).get
      rfl) := ⟨State.new 2 2, ⟨2, 2, by decide, rfl⟩, Run.reaches_of_runs _ _ twoWorkers rfl⟩
  have hall := pool_runs_each_task_once .moeRoute _ hreach
  exact ⟨hall.1 0 [2, 1] rfl 0, fun pc hpc => (hall.2.2.2.1 pc hpc).2 rfl⟩

end WorkerPool

end QrtEngine
