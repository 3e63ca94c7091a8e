import QrtEngine.Host.WorkerPoolSafety

/-!
# Worker Pools Come to Rest

A dispatch returns and a pool that is destroyed closes, whichever thread runs when. What a thread
does lowers a measure: a unit of the first semaphore weighs more than a worker that has taken it,
a task that is not claimed more than a worker that has claimed it, and a worker in the loop more
than the unit it gives back. And as long as the caller is not done, one of the threads can move.

## Main definitions

* `Action.internal`: A step of the caller or of a worker.
* `MainPc.ending`: The caller is taking the pool down.
* `remaining`: The measure.

## Theorems

* `internal_lowers`: Every step of a thread lowers the measure.
* `some_thread_moves`: Some thread can move until the caller is done.
* `exists_served`: Every job that a pool takes can be served.
* `pool_comes_to_rest`: Every schedule is bounded, and where it ends the caller is done.
-/

namespace QrtEngine

namespace WorkerPool

/-! ## The measure -/

/-- A step of the caller or of a worker, which needs no new request. -/
def Action.internal : Action → Bool
  | .main | .worker _ => true
  | .dispatch _ | .destroy => false

/-- The caller is taking the pool down. -/
def MainPc.ending : MainPc → Bool
  | .stopping | .dismissing | .joining | .closed => true
  | _ => false

/-- What a worker has before it until it waits again, claiming no more tasks. -/
def WorkerPc.remaining (job : List Nat) : WorkerPc → Nat
  | .waiting | .exited | .faulted => 0
  | .checking => 5
  | .claiming => 4
  | .claimed index => if index < job.length then job[index]?.getD 0 + 7 else 3
  | .fetching index => job[index]?.getD 0 + 6
  | .running _ index count => job[index]?.getD 0 - count + 5
  | .posting => 2
  | .leaving => 2

/-- What the tasks that are not claimed yet cost. -/
def unclaimed (job : List Nat) (nextTask : Nat) : Nat :=
  ((job.drop nextTask).map (· + 4)).sum

/-- What the caller has before it, with the units it still has to hand out and the tasks that
    are not claimed. -/
def State.pending (s : State) : MainPc → Nat
  | .idle | .closed => 0
  | .storing => unclaimed (s.frame.getD []) 0 + 7 * s.workers.length + 6
  | .resetting => unclaimed (s.frame.getD []) 0 + 7 * s.workers.length + 5
  | .counting => unclaimed (s.frame.getD []) 0 + 7 * s.workers.length + 4
  | .releasing => unclaimed (s.frame.getD []) 0 + 7 * s.workers.length + 3
  | .collecting left => unclaimed (s.frame.getD []) s.nextTask + left + 2
  | .clearing => 1
  | .stopping => 6 * s.workers.length + 3
  | .dismissing => 6 * s.workers.length + 2
  | .joining => 1

/-- The measure. -/
def remaining (s : State) : Nat :=
  s.pending s.main + 6 * s.work.count + s.done.count +
    (s.workers.map (WorkerPc.remaining (s.frame.getD []))).sum

theorem unclaimed_succ (job : List Nat) (nextTask : Nat) :
    unclaimed job nextTask = unclaimed job (nextTask + 1) +
      if nextTask < job.length then job[nextTask]?.getD 0 + 4 else 0 := by
  unfold unclaimed
  by_cases hlt : nextTask < job.length
  · rw [List.drop_eq_getElem_cons hlt, if_pos hlt, List.getElem?_eq_getElem hlt]
    simp only [List.map_cons, List.sum_cons, Option.getD_some]
    omega
  · rw [List.drop_eq_nil_of_le (by omega), List.drop_eq_nil_of_le (by omega), if_neg hlt]
    rfl

section Lowers

variable {s : State} {k : Nat} {pc : WorkerPc} {move : Move}

theorem remaining_set (pc' : WorkerPc) (hpc : s.workers[k]? = some pc) :
    ((s.workers.set k pc').map (WorkerPc.remaining (s.frame.getD []))).sum +
        pc.remaining (s.frame.getD []) =
      (s.workers.map (WorkerPc.remaining (s.frame.getD []))).sum +
        pc'.remaining (s.frame.getD []) :=
  Tally.sum_map_set_add _ hpc

/-- A step of a worker while the caller collects. -/
theorem Collecting.lowers {job : List Nat} {left : Nat} (h : Collecting job left s)
    (hmain : s.main = .collecting left) (hmax : s.workers.length ≤ s.done.maximum)
    (hpc : s.workers[k]? = some pc) (hstep : WorkerPool.workerStep s pc = some move) :
    remaining { move.state with workers := s.workers.set k move.pc } < remaining s := by
  have hset := remaining_set move.pc hpc
  have hjob : s.frame.getD [] = job := by
    rw [h.frame, Option.getD_some]
  cases h.turn hmax hpc hstep with
  | take hcount =>
      simp only [remaining, State.pending, hmain, WorkerPc.remaining] at hset ⊢
      omega
  | enter =>
      simp [remaining, State.pending, hmain, WorkerPc.remaining] at hset ⊢
      omega
  | claim =>
      -- What is left of the tasks goes from the counter to the worker.
      have hnext := unclaimed_succ job s.nextTask
      simp only [remaining, State.pending, hmain, WorkerPc.remaining, hjob] at hset ⊢
      split_ifs at hset hnext <;> omega
  | finish hout hclaimed =>
      simp only [remaining, State.pending, hmain, WorkerPc.remaining, hjob,
        if_neg (Nat.not_lt.mpr hout)] at hset ⊢
      omega
  | fetch hin =>
      simp only [remaining, State.pending, hmain, WorkerPc.remaining, hjob, if_pos hin] at hset ⊢
      omega
  | begin hget =>
      simp only [remaining, State.pending, hmain, WorkerPc.remaining, hjob] at hset ⊢
      omega
  | advance hget hlt =>
      simp only [remaining, State.pending, hmain, WorkerPc.remaining, hjob, hget,
        Option.getD_some] at hset ⊢
      omega
  | complete hall =>
      simp only [remaining, State.pending, hmain, WorkerPc.remaining, hjob] at hset ⊢
      omega
  | post hcount =>
      simp only [remaining, State.pending, hmain, WorkerPc.remaining, hcount] at hset ⊢
      omega

/-- A step of a worker on its way out. -/
theorem Joining.lowers (h : Joining s) (hmain : s.main = .joining)
    (hmax : s.workers.length ≤ s.done.maximum) (hpc : s.workers[k]? = some pc)
    (hstep : WorkerPool.workerStep s pc = some move) :
    remaining { move.state with workers := s.workers.set k move.pc } < remaining s := by
  have hset := remaining_set move.pc hpc
  rcases h.places pc (List.mem_of_getElem? hpc) with rfl | rfl | rfl | rfl
  · rw [WorkerPool.workerStep, Option.map_eq_some_iff] at hstep
    obtain ⟨work, hwait, rfl⟩ := hstep
    have hcount := ((Semaphore.wait_eq_some_iff _ _).mp hwait).1
    simp only [remaining, State.pending, hmain, WorkerPc.remaining] at hset ⊢
    omega
  · rw [WorkerPool.workerStep, h.stopped, if_pos rfl, Option.some.injEq] at hstep
    subst hstep
    simp only [remaining, State.pending, hmain, WorkerPc.remaining] at hset ⊢
    omega
  · have hcount := Semaphore.release_count s.done 1 (h.room hmax hpc)
    cases hstep
    simp only [remaining, State.pending, hmain, WorkerPc.remaining, hcount] at hset ⊢
    omega
  · cases hstep

end Lowers

/-! ## Every step of a thread lowers the measure -/

theorem worker_lowers {s s' : State} {k : Nat} {kind : Kind} (h : Safe s)
    (hstep : step kind s (.worker k) = some s') : remaining s' < remaining s := by
  rw [step] at hstep
  split at hstep
  · cases hstep
  next pc hpc =>
    rw [Option.map_eq_some_iff] at hstep
    obtain ⟨move, hmove, rfl⟩ := hstep
    -- A worker that waits or has gone cannot move.
    rcases h.crew with hquiet | ⟨left, job, hplace, hjob⟩ | ⟨hplace, hjoining⟩ | hexited
    · rw [hquiet.still hpc] at hmove
      cases hmove
    · exact hjob.lowers hplace h.room.2 hpc hmove
    · exact hjoining.lowers hplace h.room.2 hpc hmove
    · rw [hexited pc (List.mem_of_getElem? hpc)] at hmove
      cases hmove

theorem main_lowers {s s' : State} (h : Safe s) (hstep : mainStep s = some s') :
    remaining s' < remaining s := by
  have hphase := h.phase
  have hroom := h.room
  unfold mainStep at hstep
  cases hplace : s.main with
  | idle | closed => simp [hplace] at hstep
  | storing | resetting | counting | stopping =>
      simp only [hplace, Option.some.injEq] at hstep
      subst hstep
      simp only [remaining, State.pending, hplace]
      omega
  | releasing =>
      simp only [hplace, Option.some.injEq] at hstep hphase
      subst hstep
      obtain ⟨job, hjob, _, hnext, _⟩ := hphase
      have hcount := Semaphore.release_count s.work s.workers.length (by rw [hjob.work]; omega)
      simp only [remaining, State.pending, hplace, hcount, hnext]
      omega
  | collecting left =>
      simp only [hplace] at hstep
      cases left with
      | zero =>
          rw [Option.some.injEq] at hstep
          subst hstep
          simp only [remaining, State.pending, hplace]
          omega
      | succ left =>
          rw [Option.map_eq_some_iff] at hstep
          obtain ⟨done, hwait, rfl⟩ := hstep
          have hcount := ((Semaphore.wait_eq_some_iff _ _).mp hwait).1
          simp only [remaining, State.pending, hplace]
          omega
  | clearing =>
      simp only [hplace, Option.some.injEq] at hstep hphase
      subst hstep
      -- No worker waits for anything, whatever the frame has.
      have hzero : ∀ job, (s.workers.map (WorkerPc.remaining job)).sum = 0 := by
        intro job
        rw [List.eq_replicate_of_mem hphase.1.waiting, List.map_replicate]
        simp [WorkerPc.remaining]
      simp only [remaining, State.pending, hplace, hzero]
      omega
  | dismissing =>
      simp only [hplace, Option.some.injEq] at hstep hphase
      subst hstep
      have hcount := Semaphore.release_count s.work s.workers.length
        (by rw [hphase.1.work]; omega)
      simp only [remaining, State.pending, hplace, hcount]
      omega
  | joining =>
      simp only [hplace] at hstep
      split_ifs at hstep
      cases hstep
      simp only [remaining, State.pending, hplace]
      omega

/-- Every step of a thread lowers the measure. -/
theorem internal_lowers {kind : Kind} {s s' : State} {action : Action} (h : Safe s)
    (hinternal : action.internal = true) (hstep : step kind s action = some s') :
    remaining s' < remaining s := by
  cases action with
  | worker k => exact worker_lowers h hstep
  | main => exact main_lowers h hstep
  | dispatch job => cases hinternal
  | destroy => cases hinternal

/-! ## Some thread can move -/

/-- A worker that is busy can move. -/
theorem busy_moves (s : State) {pc : WorkerPc} (h : pc.busy = true) :
    (workerStep s pc).isSome = true := by
  cases pc with
  | waiting | exited | faulted => cases h
  | checking | claiming | claimed index | posting | leaving => rfl
  | fetching index =>
      rw [workerStep]
      split <;> rfl
  | running dispatch index count =>
      rw [workerStep]
      split
      · rfl
      · split_ifs
        · rfl
        · split
          · rfl
          · split_ifs <;> rfl

/-- A worker that waits can move if there is a unit. -/
theorem waiting_moves (s : State) (h : 0 < s.work.count) :
    (workerStep s .waiting).isSome = true := by
  simp only [workerStep, Semaphore.wait, if_neg (Nat.ne_of_gt h), Option.map_some,
    Option.isSome_some]

/-- A worker that can move is a thread that can move. -/
theorem worker_moves (kind : Kind) {s : State} {pc : WorkerPc} (hpc : pc ∈ s.workers)
    (h : (workerStep s pc).isSome = true) :
    ∃ action, action.internal = true ∧ (step kind s action).isSome = true := by
  obtain ⟨k, hk⟩ := List.mem_iff_getElem?.mp hpc
  refine ⟨.worker k, rfl, ?_⟩
  rw [step, hk]
  simpa using h

theorem Collecting.moves {job : List Nat} {left : Nat} {s : State}
    (h : Collecting job (left + 1) s) (hdone : s.done.count = 0) :
    ∃ pc ∈ s.workers, (WorkerPool.workerStep s pc).isSome = true := by
  have hunits := h.units
  have hleft := h.left_le
  by_cases hbusy : tally WorkerPc.busy s = 0
  · -- All units are still with the semaphore, and all workers wait.
    obtain ⟨pc, hpc⟩ := List.exists_mem_of_length_pos h.present
    have hfree := List.countP_eq_zero.mp hbusy pc hpc
    have hsound := h.sound pc hpc
    have hwaiting : pc = .waiting := by
      cases pc <;> simp_all [WorkerPc.busy, WorkerPc.sound]
    subst hwaiting
    exact ⟨.waiting, hpc, waiting_moves s (by omega)⟩
  · obtain ⟨pc, hpc, hpos⟩ := List.countP_pos_iff.mp (Nat.pos_of_ne_zero hbusy)
    exact ⟨pc, hpc, busy_moves s hpos⟩

theorem Joining.moves {s : State} (h : Joining s) {pc : WorkerPc} (hpc : pc ∈ s.workers)
    (hstays : pc ≠ .exited) : (WorkerPool.workerStep s pc).isSome = true := by
  rcases h.places pc hpc with rfl | rfl | rfl | rfl
  · refine waiting_moves s ?_
    rw [h.units]
    exact List.countP_pos_iff.mpr ⟨.waiting, hpc, rfl⟩
  · exact busy_moves s rfl
  · exact busy_moves s rfl
  · exact absurd rfl hstays

/-- Until the caller is done, some thread can move. -/
theorem some_thread_moves (kind : Kind) {s : State} (h : Safe s) (hidle : s.main ≠ .idle)
    (hclosed : s.main ≠ .closed) :
    ∃ action, action.internal = true ∧ (step kind s action).isSome = true := by
  have hphase := h.phase
  cases hplace : s.main with
  | idle => exact absurd hplace hidle
  | closed => exact absurd hplace hclosed
  | storing | resetting | counting | releasing | clearing | stopping | dismissing =>
      refine ⟨.main, rfl, ?_⟩
      rw [step, mainStep]
      simp [hplace]
  | collecting left =>
      rw [hplace] at hphase
      obtain ⟨job, hjob⟩ := hphase
      cases left with
      | zero =>
          refine ⟨.main, rfl, ?_⟩
          rw [step, mainStep]
          simp [hplace]
      | succ left =>
          by_cases hdone : s.done.count = 0
          · obtain ⟨pc, hpc, hmoves⟩ := hjob.moves hdone
            exact worker_moves kind hpc hmoves
          · refine ⟨.main, rfl, ?_⟩
            rw [step, mainStep]
            simp [hplace, Semaphore.wait, hdone]
  | joining =>
      rw [hplace] at hphase
      by_cases hall : s.workers.all (fun pc => pc = .exited) = true
      · refine ⟨.main, rfl, ?_⟩
        rw [step, mainStep]
        simp only [hplace, if_pos hall, Option.isSome_some]
      · rw [List.all_eq_true] at hall
        push Not at hall
        obtain ⟨pc, hpc, hstays⟩ := hall
        exact worker_moves kind hpc (hphase.1.moves hpc (by simpa using hstays))

/-! ## Every schedule ends -/

/-- What a request leads to: the jobs that will have been served, and whether the pool closes.
    The size of the pool stays what it is. -/
def State.promised (s : State) : List (List Nat) × Bool × Nat :=
  (s.served ++ s.frame.toList, s.main.ending, s.workers.length)

theorem internal_promised {kind : Kind} {s s' : State} {action : Action} (h : Safe s)
    (hinternal : action.internal = true) (hstep : step kind s action = some s') :
    s'.promised = s.promised := by
  cases action with
  | dispatch job => cases hinternal
  | destroy => cases hinternal
  | worker k =>
      rw [step] at hstep
      split at hstep
      · cases hstep
      next pc hpc =>
        rw [Option.map_eq_some_iff] at hstep
        obtain ⟨move, hmove, rfl⟩ := hstep
        obtain ⟨hmain, hserved, hframe, _⟩ := workerStep_frame hmove
        simp only [State.promised, hmain, hserved, hframe, List.length_set]
  | main =>
      have hphase := h.phase
      rw [step, mainStep] at hstep
      cases hplace : s.main with
      | idle | closed => simp [hplace] at hstep
      | storing | resetting | counting | releasing | stopping | dismissing =>
          simp only [hplace, Option.some.injEq] at hstep
          subst hstep
          simp only [State.promised, hplace, MainPc.ending]
      | collecting left =>
          simp only [hplace] at hstep
          cases left with
          | zero =>
              rw [Option.some.injEq] at hstep
              subst hstep
              simp only [State.promised, hplace, MainPc.ending]
          | succ left =>
              rw [Option.map_eq_some_iff] at hstep
              obtain ⟨done, _, rfl⟩ := hstep
              simp only [State.promised, hplace, MainPc.ending]
      | clearing =>
          simp only [hplace, Option.some.injEq] at hstep
          subst hstep
          simp only [State.promised, hplace, MainPc.ending, Option.toList_none, List.append_nil]
      | joining =>
          simp only [hplace] at hstep
          split_ifs at hstep
          cases hstep
          simp only [State.promised, hplace, MainPc.ending]

/-- The threads of a pool can be run until none of them can move. -/
theorem exists_rest (kind : Kind) (s : State) (h : Reachable kind s) :
    ∃ t, Reachable kind t ∧ t.promised = s.promised ∧
      ∀ action, action.internal = true → step kind t action = none := by
  induction hmeasure : remaining s using Nat.strong_induction_on generalizing s with
  | _ n ih =>
      by_cases hstuck : ∀ action, action.internal = true → step kind s action = none
      · exact ⟨s, h, rfl, hstuck⟩
      · push Not at hstuck
        obtain ⟨action, hinternal, hmoves⟩ := hstuck
        obtain ⟨u, hu⟩ := Option.ne_none_iff_exists'.mp hmoves
        have hsafe := reachable_safe kind s h
        obtain ⟨t, ht, hpromised, hrest⟩ := ih (remaining u)
          (hmeasure ▸ internal_lowers hsafe hinternal hu) u (h.tail hu) rfl
        exact ⟨t, ht, hpromised.trans (internal_promised hsafe hinternal hu), hrest⟩

/-- Where no thread can move, the caller is done. -/
theorem rest_done {kind : Kind} {t : State} (h : Safe t)
    (hstuck : ∀ action, action.internal = true → step kind t action = none) :
    (t.main = .idle ∨ t.main = .closed) ∧ t.frame = none := by
  have hdone : t.main = .idle ∨ t.main = .closed := by
    by_contra hcases
    push Not at hcases
    obtain ⟨action, haction, hmoves⟩ := some_thread_moves kind h hcases.1 hcases.2
    rw [hstuck action haction] at hmoves
    cases hmoves
  have hphase := h.phase
  refine ⟨hdone, ?_⟩
  rcases hdone with hplace | hplace <;> rw [hplace] at hphase
  · exact hphase.2.2.2.1
  · exact hphase.2.1

/-- A job that the pool takes is served in some state. -/
theorem exists_served (kind : Kind) (requested : Nat) (job : List Nat)
    (h : kind.accepts job = true) :
    ∃ s, Reachable kind s ∧ s.served = [job] ∧
      s.workers.length = kind.workerCount requested := by
  have hidle : (State.new (kind.workerCount requested) (kind.workerCount requested)).main =
      .idle := if_pos rfl
  have hstart : Reachable kind
      (State.new (kind.workerCount requested) (kind.workerCount requested)) :=
    ⟨_, ⟨requested, kind.workerCount requested, Nat.le_refl _, rfl⟩, .refl⟩
  have hstep : step kind (State.new (kind.workerCount requested) (kind.workerCount requested))
      (.dispatch job) = some
        { State.new (kind.workerCount requested) (kind.workerCount requested) with
          main := .storing, frame := some job } := by
    rw [step, if_pos ⟨hidle, h⟩]
  obtain ⟨t, ht, hpromised, hstuck⟩ := exists_rest kind _ (hstart.tail hstep)
  rw [State.promised, State.promised, Prod.mk.injEq, Prod.mk.injEq] at hpromised
  obtain ⟨hserved, _, hlength⟩ := hpromised
  rw [(rest_done (reachable_safe kind t ht) hstuck).2, Option.toList_none, List.append_nil]
    at hserved
  exact ⟨t, ht, hserved, hlength.trans (List.length_replicate ..)⟩

/-- A log of some programs that a pool takes as a job. -/
theorem exists_servedBy {ε : Type} (kind : Kind) (programs : List (List ε))
    (h : kind.accepts (jobOf programs) = true) : ∃ log, ServedBy kind programs log := by
  obtain ⟨s, hreach, hserved, _⟩ := exists_served kind 1 (jobOf programs) h
  exact ⟨_, s, 0, hreach, by rw [hserved]; rfl, rfl⟩

/-- From any state of a pool, whichever of its threads take a step when: the steps are no more
    than the measure of the state, and where no thread can take another the caller is done. If it
    was dispatching, it is idle and the job has been served; if it was taking the pool down, the
    pool is closed. -/
theorem pool_comes_to_rest (kind : Kind) (s t : State) (actions : List Action)
    (h : Reachable kind s) (hinternal : ∀ action ∈ actions, action.internal = true)
    (hruns : Run.runs (step kind) s actions = some t) :
    actions.length + remaining t ≤ remaining s ∧
      ((∀ action, action.internal = true → step kind t action = none) →
        t.main = (if s.main.ending then .closed else .idle) ∧ t.frame = none ∧
          t.served = s.served ++ s.frame.toList) := by
  obtain ⟨⟨hsafe, hpromised⟩, hbound⟩ := Run.runs_length_add_le
    (fun u => Safe u ∧ u.promised = s.promised) remaining
    (fun u action u' hu hp hstep =>
      ⟨⟨step_safe kind u action u' hu.1 hstep, (internal_promised hu.1 hp hstep).trans hu.2⟩,
        internal_lowers hu.1 hp hstep⟩)
    actions s t ⟨reachable_safe kind s h, rfl⟩ hinternal hruns
  refine ⟨hbound, ?_⟩
  intro hstuck
  obtain ⟨hdone, hframe⟩ := rest_done hsafe hstuck
  rw [State.promised, State.promised, Prod.mk.injEq, Prod.mk.injEq] at hpromised
  obtain ⟨hserved, hending, _⟩ := hpromised
  refine ⟨?_, hframe, ?_⟩
  · rcases hdone with hplace | hplace <;> rw [hplace] at hending <;>
      rw [← hending, hplace] <;> rfl
  · rw [hframe, Option.toList_none, List.append_nil] at hserved
    exact hserved

/-- Two workers and two tasks: the schedule ends with the caller idle. -/
theorem twoWorkers_rest : ∃ s t, step .moeRoute (State.new 2 2) (.dispatch [2, 1]) = some s ∧
    Run.runs (step .moeRoute) s twoWorkers.tail = some t ∧
      29 + remaining t ≤ remaining s ∧ t.main = .idle := by
  refine ⟨_, _, rfl, rfl, ?_⟩
  have hreach : Reachable .moeRoute
      ((Run.runs (step .moeRoute) (State.new 2 2) [.dispatch [2, 1]]).get rfl) :=
    ⟨State.new 2 2, ⟨2, 2, by decide, rfl⟩, Run.reaches_of_runs _ _ [.dispatch [2, 1]] rfl⟩
  have hrest := pool_comes_to_rest .moeRoute _ _ twoWorkers.tail hreach (by decide) rfl
  refine ⟨hrest.1, (hrest.2 fun action haction => ?_).1⟩
  cases action with
  | main => rfl
  | dispatch job => cases haction
  | destroy => cases haction
  | worker k =>
      match k with
      | 0 => rfl
      | 1 => rfl
      | k + 2 => rfl

end WorkerPool

end QrtEngine
