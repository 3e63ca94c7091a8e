import QrtEngine.Server.QueueSafety

/-!
# Queue Outcomes and Shutdown

Which total a refused call is counted in, and what a shutdown does to the calls. Every
call records the totals it has counted itself in, so that its outcome can be compared
with its own record, and the totals of the queue are the sums of the records.

A failed reservation counts the call first and chooses its error afterwards, by loading
`accepting` again. A `stop_accepting` whose store lands between the two makes the call
return a shutdown error although it was counted as rejected because the queue was full.
The window opens already at the load inside `reserve_waiter`: a reservation that finds
the queue full after the store has the same effect. `Undisturbed` is the condition that
no step of a run does either, and under it every error is counted in its own total.

The shutdown itself needs no such condition. Once a `stop_accepting` has returned, a call
that begins finds `accepting` false and is refused, and a call still waiting for the gate
finds the gate closed at its next poll, also when it had already been handed the permit.

## Main definitions

* `counterOf`: The total that names an error.
* `Undisturbed`: No store lands in the window of a failed reservation.
* `Accounted`: What a call has counted agrees with where it stands.
* `Pc.waitsForGate`, `Pc.started`, `Pc.shutOut`: Where a call stands during a shutdown.

## Theorems

* `step_call`, `step_call_inv`: What one step does to one call.
* `undisturbed_accounted`: In an undisturbed run every error is counted in its own total.
* `late_shutDown`: A call that begins after a shutdown is refused.
* `shutOut_reaches`: A call waiting for the gate at a shutdown never starts.
* `outcomes_accounted`: The three together.
-/

namespace QrtEngine

namespace RequestQueue

/-- The total that names an error. -/
def counterOf : ErrorCode → Counter
  | .queueFull => .rejected
  | .queueTimeout => .timedOut
  | .serviceShuttingDown => .shutdownRejected

/-- A call after an operation of its own. -/
def Call.moved (c : Call) (m : Move) : Call :=
  { c with pc := m.pc, counted := c.counted ++ m.counted.toList }

/-- What one step can make of a call: nothing, handing it a permit, or its own operation. -/
def Call.Becomes (s : State) (a : Act) (j : Nat) (c d : Call) : Prop :=
  d = c ∨ d = c.assign ∨
    ∃ op m, a = .call j op ∧ moveOf s.queue op c.pc = some m ∧
      (d = c.moved m ∨ d = (c.moved m).assign)

/-- Releasing changes a call at most by handing it the permit. -/
theorem release_call (s : State) (j : Nat) (c : Call) (h : s.calls[j]? = some c) :
    ∃ d, s.release.calls[j]? = some d ∧ (d = c ∨ d = c.assign) := by
  unfold State.release
  cases hline : s.waiters with
  | nil => exact ⟨c, h, Or.inl rfl⟩
  | cons w waiters =>
      by_cases hw : w = j
      · refine ⟨c.assign, ?_, Or.inr rfl⟩
        simp only [List.getElem?_modify, if_pos hw, h]
        rfl
      · refine ⟨c, ?_, Or.inl rfl⟩
        simp only [List.getElem?_modify, if_neg hw, h]
        rfl

/-- What one step does to one call. -/
theorem step_call (s s' : State) (a : Act) (h : step s a = some s') (j : Nat) (c : Call)
    (hc : s.calls[j]? = some c) : ∃ d, s'.calls[j]? = some d ∧ c.Becomes s a j d := by
  have hj : j < s.calls.length := (List.getElem?_eq_some_iff.mp hc).1
  rcases step_cases s s' a h with ⟨-, rfl⟩ | ⟨i, op, c₀, m, rfl, hc₀, hm, rfl⟩ | ⟨-, rfl⟩ |
    ⟨-, -, rfl⟩
  · exact ⟨c, by rw [List.getElem?_append_left hj]; exact hc, Or.inl rfl⟩
  · -- First the operation's own call is replaced, then a release may hand on the permit.
    have hset : ∃ d, (s.calls.set i (c₀.moved m))[j]? = some d ∧
        (d = c ∨ (i = j ∧ c₀ = c ∧ d = c.moved m)) := by
      by_cases hij : i = j
      · subst hij
        have heq : c₀ = c := by rw [hc₀, Option.some.injEq] at hc; exact hc
        subst heq
        exact ⟨c₀.moved m, List.getElem?_set_self hj, Or.inr ⟨rfl, rfl, rfl⟩⟩
      · exact ⟨c, by rw [List.getElem?_set_ne hij]; exact hc, Or.inl rfl⟩
    rcases hset with ⟨d, hd, hcase⟩
    have hown : d = c ∨ ∃ op' m', Act.call i op = .call j op' ∧
        moveOf s.queue op' c.pc = some m' ∧ d = c.moved m' := by
      rcases hcase with rfl | ⟨rfl, rfl, rfl⟩
      · exact Or.inl rfl
      · exact Or.inr ⟨op, m, rfl, hm, rfl⟩
    have hplain : c.Becomes s (.call i op) j d := by
      rcases hown with rfl | ⟨op', m', ha, hm', rfl⟩
      · exact Or.inl rfl
      · exact Or.inr (Or.inr ⟨op', m', ha, hm', Or.inl rfl⟩)
    unfold State.apply
    cases hgate : m.gate with
    | keep => exact ⟨d, hd, hplain⟩
    | park => exact ⟨d, hd, hplain⟩
    | leave => exact ⟨d, hd, hplain⟩
    -- The permit may be handed to the call that was just moved.
    | release =>
        rcases release_call { s with queue := m.queue, calls := s.calls.set i (c₀.moved m) } j d hd
          with ⟨e, he, rfl | rfl⟩
        · exact ⟨e, he, hplain⟩
        · refine ⟨d.assign, he, ?_⟩
          rcases hown with rfl | ⟨op', m', ha, hm', rfl⟩
          · exact Or.inr (Or.inl rfl)
          · exact Or.inr (Or.inr ⟨op', m', ha, hm', Or.inr rfl⟩)
  · exact ⟨c, hc, Or.inl rfl⟩
  · exact ⟨c, hc, Or.inl rfl⟩

/-- A call as it begins. -/
def Call.fresh (s : State) : Call := { pc := .loadAccepting, counted := [], late := s.stopped }

/-- Every call was there before the step or has just begun. -/
theorem step_call_inv (s s' : State) (a : Act) (h : step s a = some s') (j : Nat) (d : Call)
    (hd : s'.calls[j]? = some d) :
    (a = .begin ∧ d = Call.fresh s) ∨ ∃ c, s.calls[j]? = some c ∧ c.Becomes s a j d := by
  by_cases hj : j < s.calls.length
  · right
    have hc : s.calls[j]? = some s.calls[j] := List.getElem?_eq_getElem hj
    rcases step_call s s' a h j _ hc with ⟨e, he, hbecomes⟩
    rw [hd, Option.some.injEq] at he
    subst he
    exact ⟨_, hc, hbecomes⟩
  -- No call was there, so the step is the one that appends it.
  · left
    have hj' := (List.getElem?_eq_some_iff.mp hd).1
    rcases step_cases s s' a h with ⟨ha, rfl⟩ | ⟨i, op, c₀, m, rfl, hc₀, hm, rfl⟩ | ⟨-, rfl⟩ |
      ⟨-, -, rfl⟩
    · refine ⟨ha, ?_⟩
      rw [List.length_append, List.length_singleton] at hj'
      rw [List.getElem?_append_right (Nat.le_of_not_lt hj)] at hd
      have hzero : j - s.calls.length = 0 := by omega
      rw [hzero, List.getElem?_cons_zero, Option.some.injEq] at hd
      exact hd.symm
    -- Operations replace calls in place.
    · have hlen : (s.apply i c₀ m).calls.length = s.calls.length := by
        unfold State.apply
        cases m.gate with
        | release =>
            simp only [State.release]
            cases s.waiters <;> simp
        | _ => simp
      exact absurd (hlen ▸ hj') hj
    · exact absurd hj' hj
    · exact absurd hj' hj

/-! ## Accounting -/

/-- No operation of a call touches the two shutdown flags. -/
theorem moveOf_flags (q : Queue) (op : Op) (pc : Pc) (m : Move) (h : moveOf q op pc = some m) :
    m.queue.accepting = q.accepting ∧ m.queue.closed = q.closed := by
  cases op with
  | advance =>
      simp only [moveOf] at h
      unfold advance at h
      split at h
      all_goals try split_ifs at h
      all_goals simp only [Option.some.injEq, reduceCtorEq] at h
      all_goals
        subst h
        exact ⟨rfl, rfl⟩
  | expire =>
      have hbal := interrupt_balanced q .expired pc m h
      exact ⟨hbal.accepting, hbal.closed⟩
  | cancel =>
      have hbal := interrupt_balanced q .cancelled pc m h
      exact ⟨hbal.accepting, hbal.closed⟩
  | finish =>
      cases pc with
      | running =>
          simp only [moveOf, Option.some.injEq] at h
          subst h
          exact ⟨rfl, rfl⟩
      | _ => exact absurd h (by simp only [moveOf, reduceCtorEq, not_false_eq_true])

/-- What a call has counted agrees with where it stands. A call between the count and the
    choice of its error is only in step with `accepting` if no store came in between. -/
def Accounted (accepting : Bool) (c : Call) : Prop :=
  match c.pc with
  | .reserveShutdown => c.counted = [] ∧ accepting = false
  | .reserveFull => c.counted = [] ∧ accepting = true
  | .chooseError => (c.counted = [.rejected] ∧ accepting = true) ∨
      (c.counted = [.shutdownRejected] ∧ accepting = false)
  | .returned error => c.counted = [counterOf error]
  | _ => c.counted = []

/-- The condition on a step: a store does not land while a call has been counted as
    rejected, or is about to be, and has not chosen its error; and a reservation does not
    find the queue full once a store has been made. -/
def Undisturbed (s : State) : Act → Prop
  | .stopStore => ∀ c ∈ s.calls, c.pc ≠ .reserveFull ∧
      (c.pc = .chooseError → c.counted ≠ [.rejected])
  | .call i .advance => ∀ c, s.calls[i]? = some c → c.pc = .reserveUpdate →
      s.queue.maxWaitingRequests ≤ s.queue.waiting → s.queue.accepting = true
  | _ => True

theorem Accounted.assign {accepting : Bool} {c : Call} (h : Accounted accepting c) :
    Accounted accepting c.assign := by
  unfold Call.assign
  cases hpc : c.pc with
  | parked wake => simpa only [Accounted, hpc] using h
  | _ => simpa only [hpc] using h

/-- An operation of a call keeps its record in step. -/
theorem advance_accounted (q : Queue) (c : Call) (m : Move) (h : Accounted q.accepting c)
    (hfull : c.pc = .reserveUpdate → q.maxWaitingRequests ≤ q.waiting → q.accepting = true)
    (hm : advance q c.pc = some m) : Accounted q.accepting (c.moved m) := by
  unfold Accounted at h
  cases hpc : c.pc with
  -- This is where the record and the error have to agree: the second load decides the error
  -- and the record was made by the first.
  | chooseError =>
      rw [hpc] at h hm
      simp only [advance] at hm
      rcases h with ⟨hcounted, haccepting⟩ | ⟨hcounted, haccepting⟩
      · simp only [haccepting, if_true, Option.some.injEq] at hm
        subst hm
        simp [Accounted, Call.moved, Move.to, hcounted, counterOf]
      · simp only [haccepting, Bool.false_eq_true, if_false, Option.some.injEq] at hm
        subst hm
        simp [Accounted, Call.moved, Move.to, hcounted, counterOf]
  | reserveUpdate =>
      rw [hpc] at h hm
      simp only [advance] at hm
      by_cases hroom : q.waiting < q.maxWaitingRequests
      · rw [if_pos hroom, Option.some.injEq] at hm
        subst hm
        simpa [Accounted, Call.moved, Move.to] using h
      · rw [if_neg hroom, Option.some.injEq] at hm
        subst hm
        -- Finding the queue full is harmless only while the service accepts requests.
        have haccepting := hfull hpc (Nat.le_of_not_lt hroom)
        simpa [Accounted, Call.moved, Move.to, haccepting] using h
  | reserveLoad =>
      rw [hpc] at h hm
      simp only [advance] at hm
      split_ifs at hm with haccepting <;>
        simp only [Option.some.injEq] at hm <;> subst hm <;>
        simpa [Accounted, Call.moved, Move.to, haccepting] using h
  | reserveFull =>
      rw [hpc] at h hm
      simp only [advance, Option.some.injEq] at hm
      subst hm
      simp [Accounted, Call.moved, Move.count, h.1, h.2]
  | reserveShutdown =>
      rw [hpc] at h hm
      simp only [advance, Option.some.injEq] at hm
      subst hm
      simp [Accounted, Call.moved, Move.count, h.1, h.2]
  | rejectShutdown =>
      rw [hpc] at h hm
      simp only [advance, Option.some.injEq] at hm
      subst hm
      simp [Accounted, Call.moved, Move.count, h, counterOf]
  | countTimeout =>
      rw [hpc] at h hm
      simp only [advance, Option.some.injEq] at hm
      subst hm
      simp [Accounted, Call.moved, Move.count, h, counterOf]
  | parked wake =>
      rw [hpc] at h hm
      cases wake <;> simp only [advance] at hm <;> (try split_ifs at hm) <;>
        simp only [Option.some.injEq] at hm <;> subst hm <;>
        simpa [Accounted, Call.moved, Move.to, Move.atGate] using h
  | assigned wake =>
      rw [hpc] at h hm
      cases wake <;> simp only [advance] at hm <;> (try split_ifs at hm) <;>
        simp only [Option.some.injEq] at hm <;> subst hm <;>
        simpa [Accounted, Call.moved, Move.to, Move.atGate] using h
  | unwinding wake =>
      rw [hpc] at h hm
      cases wake <;> simp only [advance, Option.some.injEq] at hm <;> subst hm <;>
        simpa [Accounted, Call.moved, Move.to] using h
  | _ =>
      -- Every other operation moves between places where nothing has been counted.
      rw [hpc] at h hm
      simp only [advance] at hm
      (try split_ifs at hm) <;> simp only [Option.some.injEq, reduceCtorEq] at hm <;>
        subst hm <;> simpa [Accounted, Call.moved, Move.to, Move.atGate] using h

theorem interrupt_accounted (q : Queue) (wake : Wake) (c : Call) (m : Move)
    (h : Accounted q.accepting c) (hm : interrupt q wake c.pc = some m) :
    Accounted q.accepting (c.moved m) := by
  unfold Accounted at h
  unfold interrupt at hm
  split at hm
  all_goals simp only [Option.some.injEq, reduceCtorEq] at hm
  all_goals
    rename_i hpc
    subst hm
    rw [hpc] at h
    simpa [Accounted, Call.moved, Move.to] using h

theorem moveOf_accounted (q : Queue) (op : Op) (c : Call) (m : Move)
    (h : Accounted q.accepting c)
    (hfull : op = .advance → c.pc = .reserveUpdate → q.maxWaitingRequests ≤ q.waiting →
      q.accepting = true)
    (hm : moveOf q op c.pc = some m) : Accounted q.accepting (c.moved m) := by
  cases op with
  | advance => exact advance_accounted q c m h (hfull rfl) hm
  | expire => exact interrupt_accounted q .expired c m h hm
  | cancel => exact interrupt_accounted q .cancelled c m h hm
  | finish =>
      cases hpc : c.pc with
      | running =>
          unfold Accounted at h
          simp only [hpc, moveOf, Option.some.injEq] at h hm
          subst hm
          simpa [Accounted, Call.moved, Move.to] using h
      | _ =>
          rw [hpc] at hm
          exact absurd hm (by simp only [moveOf, reduceCtorEq, not_false_eq_true])

/-- A store outside the windows disturbs no record. -/
theorem Accounted.stopStore {accepting : Bool} {c : Call} (h : Accounted accepting c)
    (hfull : c.pc ≠ .reserveFull) (hchoose : c.pc = .chooseError → c.counted ≠ [.rejected]) :
    Accounted false c := by
  unfold Accounted at h ⊢
  cases hpc : c.pc with
  | reserveFull => exact absurd hpc hfull
  -- A call that was counted as rejected is in the window, and the condition excludes it.
  | chooseError =>
      rw [hpc] at h
      rcases h with ⟨hcounted, -⟩ | ⟨hcounted, -⟩
      · exact absurd hcounted (hchoose hpc)
      · exact Or.inr ⟨hcounted, rfl⟩
  | reserveShutdown =>
      rw [hpc] at h
      exact ⟨h.1, rfl⟩
  | _ => simpa only [hpc] using h

/-- What a step does to the two shutdown flags. -/
theorem step_flags (s s' : State) (a : Act) (h : step s a = some s') :
    (s'.queue.accepting = if a = .stopStore then false else s.queue.accepting) ∧
      (s'.queue.closed = if a = .stopClose then true else s.queue.closed) := by
  rcases step_cases s s' a h with ⟨rfl, rfl⟩ | ⟨i, op, c, m, rfl, hc, hm, rfl⟩ | ⟨rfl, rfl⟩ |
    ⟨rfl, -, rfl⟩
  · exact ⟨rfl, rfl⟩
  · have hflags := moveOf_flags s.queue op c.pc m hm
    simp only [reduceCtorEq, if_false]
    unfold State.apply
    cases m.gate with
    | release =>
        simp only [State.release]
        cases s.waiters <;> exact hflags
    | _ => exact hflags
  · exact ⟨rfl, rfl⟩
  · exact ⟨rfl, rfl⟩

/-- An undisturbed step keeps every record in step. -/
theorem step_accounted (s s' : State) (a : Act)
    (hinv : ∀ c ∈ s.calls, Accounted s.queue.accepting c)
    (hok : Undisturbed s a) (h : step s a = some s') :
    ∀ d ∈ s'.calls, Accounted s'.queue.accepting d := by
  intro d hmem
  rcases List.mem_iff_getElem?.mp hmem with ⟨j, hd⟩
  have hflag := (step_flags s s' a h).1
  rcases step_call_inv s s' a h j d hd with ⟨rfl, rfl⟩ | ⟨c, hc, hbecomes⟩
  · rfl
  have hrecord := hinv c (List.mem_of_getElem? hc)
  by_cases hstore : a = .stopStore
  · -- A store changes no call, and finds none in the window.
    subst hstore
    rw [hflag, if_pos rfl]
    have hcalls := hok c (List.mem_of_getElem? hc)
    have hquiet := hrecord.stopStore hcalls.1 hcalls.2
    rcases hbecomes with rfl | rfl | ⟨op, m, ha, -, -⟩
    · exact hquiet
    · exact hquiet.assign
    · exact absurd ha (by simp only [reduceCtorEq, not_false_eq_true])
  · rw [hflag, if_neg hstore]
    -- Every other step moves one call, and may wake another.
    rcases hbecomes with rfl | rfl | ⟨op, m, rfl, hm, hd'⟩
    · exact hrecord
    · exact hrecord.assign
    · have hmoved := moveOf_accounted s.queue op c m hrecord
        (fun hop hpc hfull => by subst hop; exact hok c hc hpc hfull) hm
      rcases hd' with rfl | rfl
      · exact hmoved
      · exact hmoved.assign

/-- In an undisturbed run every error is counted in its own total, and nowhere else. -/
theorem undisturbed_accounted (maxWaitingRequests : Nat) (s : State)
    (h : Run.Reachable step Undisturbed (fun s₀ => s₀ = State.new maxWaitingRequests) s) :
    ∀ c ∈ s.calls, Accounted s.queue.accepting c := by
  refine h.invariant (fun s => ∀ c ∈ s.calls, Accounted s.queue.accepting c) ?_
    (fun s a s' hs hok hstep => step_accounted s s' a hs hok hstep)
  rintro s₀ rfl c hc
  exact absurd hc List.not_mem_nil

/-! ## Totals -/

/-- How often the calls have counted themselves in a total. -/
def recorded (k : Counter) (s : State) : Nat := (s.calls.map fun c => c.counted.count k).sum

/-- The total of the queue. -/
def Queue.total (q : Queue) : Counter → Nat
  | .rejected => q.rejectedTotal
  | .timedOut => q.timedOutTotal
  | .shutdownRejected => q.shutdownRejectedTotal

/-- An operation adds to a total exactly what it records. -/
theorem moveOf_total (q : Queue) (op : Op) (pc : Pc) (m : Move) (h : moveOf q op pc = some m)
    (k : Counter) : m.queue.total k = q.total k + m.counted.toList.count k := by
  cases op with
  | advance =>
      simp only [moveOf] at h
      unfold advance at h
      split at h
      -- One goal for each place a call can stand at.
      all_goals try split_ifs at h
      all_goals simp only [Option.some.injEq, reduceCtorEq] at h
      all_goals
        subst h
        cases k <;> simp [Move.to, Move.atGate, Move.count, Queue.count, Queue.total]
  | expire | cancel =>
      simp only [moveOf] at h
      unfold interrupt at h
      split at h
      all_goals simp only [Option.some.injEq, reduceCtorEq] at h
      all_goals
        subst h
        cases k <;> rfl
  | finish =>
      cases pc with
      | running =>
          simp only [moveOf, Option.some.injEq] at h
          subst h
          cases k <;> rfl
      | _ => exact absurd h (by simp only [moveOf, reduceCtorEq, not_false_eq_true])

theorem Call.assign_counted (c : Call) : c.assign.counted = c.counted := by
  unfold Call.assign
  split <;> rfl

theorem recorded_release (k : Counter) (s : State) : recorded k s.release = recorded k s := by
  unfold State.release recorded
  cases s.waiters with
  | nil => rfl
  | cons w waiters =>
      have hmap : (s.calls.modify w Call.assign).map (fun c => c.counted.count k) =
          s.calls.map (fun c => c.counted.count k) := by
        refine List.ext_getElem? fun j => ?_
        rw [List.getElem?_map, List.getElem?_map, List.getElem?_modify]
        cases s.calls[j]? with
        | none => rfl
        | some c =>
            by_cases hw : w = j
            · simp [hw, Call.assign_counted]
            · simp [hw]
      simp only [hmap]

/-- The totals of the queue are the sums of the records of the calls. -/
theorem step_recorded (s s' : State) (a : Act) (h : step s a = some s')
    (hinv : ∀ k, s.queue.total k = recorded k s) :
    ∀ k, s'.queue.total k = recorded k s' := by
  intro k
  rcases step_cases s s' a h with ⟨-, rfl⟩ | ⟨i, op, c, m, -, hc, hm, rfl⟩ | ⟨-, rfl⟩ |
    ⟨-, -, rfl⟩
  · rw [hinv k]
    simp [recorded]
  · -- The move adds to the total what it adds to the record of its call.
    have htotal := moveOf_total s.queue op c.pc m hm k
    have hset := Tally.sum_map_set_add (b := c.moved m) (fun d : Call => d.counted.count k) hc
    have hbase : m.queue.total k =
        recorded k { s with queue := m.queue, calls := s.calls.set i (c.moved m) } := by
      have hbefore := hinv k
      simp only [recorded] at hbefore ⊢
      simp only [Call.moved, List.count_append] at hset ⊢
      omega
    unfold State.apply
    cases m.gate with
    | release =>
        have hrelease : ∀ t : State, t.release.queue.total k = t.queue.total k := by
          intro t
          unfold State.release
          cases t.waiters <;> cases k <;> rfl
        simp only
        rw [hrelease, recorded_release]
        exact hbase
    | _ => exact hbase
  · rw [show ({ s with queue := { s.queue with accepting := false },
                       stopping := s.stopping + 1 } : State).queue.total k = s.queue.total k by
      cases k <;> rfl]
    exact hinv k
  · rw [show ({ s with queue := { s.queue with closed := true }, waiters := [],
                       stopping := s.stopping - 1, stopped := true } : State).queue.total k =
        s.queue.total k by cases k <;> rfl]
    exact hinv k

theorem reachable_recorded (maxWaitingRequests : Nat) (s : State)
    (h : Reachable maxWaitingRequests s) (k : Counter) : s.queue.total k = recorded k s := by
  refine h.invariant (fun s => ∀ k, s.queue.total k = recorded k s) ?_
    (fun s a s' hs _ hstep => step_recorded s s' a hstep hs) k
  rintro s₀ rfl k
  cases k <;> rfl

/-! ## Shutdown -/

/-- The places of a call that began after a shutdown. -/
def Pc.refusing : Pc → Bool
  | .loadAccepting | .rejectShutdown | .returned .serviceShuttingDown => true
  | _ => false

/-- A stop that has begun has cleared `accepting`, one that has returned has closed the
    gate, and the calls that began since are on their way out. -/
structure ShutDown (s : State) : Prop where
  accepting : 0 < s.stopping ∨ s.stopped = true → s.queue.accepting = false
  closed : s.stopped = true → s.queue.closed = true
  late : ∀ c ∈ s.calls, c.late = true → s.stopped = true ∧ c.pc.refusing = true

/-- What a step does to the calls of `stop_accepting`. -/
theorem step_stops (s s' : State) (a : Act) (h : step s a = some s') :
    (0 < s'.stopping ∨ s'.stopped = true →
      (0 < s.stopping ∨ s.stopped = true) ∨ a = .stopStore) ∧
    (s.stopped = true → s'.stopped = true) ∧
    (s'.stopped = true → s.stopped = true ∨ a = .stopClose ∧ 0 < s.stopping) := by
  rcases step_cases s s' a h with ⟨rfl, rfl⟩ | ⟨i, op, c, m, rfl, hc, hm, rfl⟩ | ⟨rfl, rfl⟩ |
    ⟨rfl, hpos, rfl⟩
  · exact ⟨Or.inl, id, Or.inl⟩
  · have hsame : (s.apply i c m).stopping = s.stopping ∧ (s.apply i c m).stopped = s.stopped := by
      unfold State.apply
      cases m.gate with
      | release =>
          simp only [State.release]
          cases s.waiters <;> exact ⟨rfl, rfl⟩
      | _ => exact ⟨rfl, rfl⟩
    rw [hsame.1, hsame.2]
    exact ⟨Or.inl, id, Or.inl⟩
  · exact ⟨fun _ => Or.inr rfl, id, Or.inl⟩
  · exact ⟨fun _ => Or.inl (Or.inl hpos), fun _ => rfl, fun _ => Or.inr ⟨rfl, hpos⟩⟩

theorem Call.assign_late (c : Call) : c.assign.late = c.late := by
  unfold Call.assign
  split <;> rfl

/-- Handing on a permit does not concern a call on its way out. -/
theorem Call.assign_refusing (c : Call) (h : c.pc.refusing = true) : c.assign = c := by
  unfold Call.assign
  cases hpc : c.pc with
  | parked wake => simp [hpc, Pc.refusing] at h
  | _ => rfl

/-- With `accepting` false, a call on its way out stays there. -/
theorem moveOf_refusing (q : Queue) (op : Op) (pc : Pc) (m : Move)
    (haccepting : q.accepting = false) (hpc : pc.refusing = true)
    (hm : moveOf q op pc = some m) : m.pc.refusing = true := by
  -- From the two places on the way out a call only moves on to its refusal.
  cases op with
  | advance =>
      cases pc with
      | loadAccepting =>
          simp only [moveOf, advance, haccepting, Bool.false_eq_true, if_false,
            Option.some.injEq] at hm
          subst hm
          rfl
      | rejectShutdown =>
          simp only [moveOf, advance, Option.some.injEq] at hm
          subst hm
          rfl
      | returned error => simp [moveOf, advance] at hm
      | _ => simp [Pc.refusing] at hpc
  | expire | cancel =>
      cases pc with
      | parked wake => simp [Pc.refusing] at hpc
      | assigned wake => simp [Pc.refusing] at hpc
      | _ => simp [moveOf, interrupt] at hm
  | finish =>
      cases pc with
      | running => simp [Pc.refusing] at hpc
      | _ => simp [moveOf] at hm

theorem step_shutDown (s s' : State) (a : Act) (hinv : ShutDown s) (h : step s a = some s') :
    ShutDown s' := by
  have hflags := step_flags s s' a h
  have hstops := step_stops s s' a h
  constructor
  · intro hs'
    rw [hflags.1]
    split_ifs with hstore
    · rfl
    · exact hinv.accepting ((hstops.1 hs').resolve_right hstore)
  · intro hs'
    rw [hflags.2]
    split_ifs with hclose
    · rfl
    · exact hinv.closed ((hstops.2.2 hs').resolve_right fun hboth => hclose hboth.1)
  · intro d hmem hlate
    rcases List.mem_iff_getElem?.mp hmem with ⟨j, hd⟩
    -- A call that began late finds the flag down, and never gets off its way out.
    rcases step_call_inv s s' a h j d hd with ⟨rfl, rfl⟩ | ⟨c, hc, hbecomes⟩
    · exact ⟨hstops.2.1 hlate, rfl⟩
    have hcall := hinv.late c (List.mem_of_getElem? hc)
    rcases hbecomes with rfl | rfl | ⟨op, m, rfl, hm, hd'⟩
    · exact ⟨hstops.2.1 (hcall hlate).1, (hcall hlate).2⟩
    · rw [Call.assign_late] at hlate
      rw [c.assign_refusing (hcall hlate).2]
      exact ⟨hstops.2.1 (hcall hlate).1, (hcall hlate).2⟩
    · have hlate' : c.late = true := by
        rcases hd' with rfl | rfl
        · exact hlate
        · rw [Call.assign_late] at hlate
          exact hlate
      have hstopped := (hcall hlate').1
      have hmoved : (c.moved m).pc.refusing = true :=
        moveOf_refusing s.queue op c.pc m (hinv.accepting (Or.inr hstopped)) (hcall hlate').2 hm
      refine ⟨hstops.2.1 hstopped, ?_⟩
      rcases hd' with rfl | rfl
      · exact hmoved
      · rw [(c.moved m).assign_refusing hmoved]
        exact hmoved

theorem reachable_shutDown (maxWaitingRequests : Nat) (s : State)
    (h : Reachable maxWaitingRequests s) : ShutDown s := by
  refine h.invariant ShutDown ?_ (fun s a s' hs _ hstep => step_shutDown s s' a hs hstep)
  rintro s₀ rfl
  refine ⟨?_, ?_, fun c hc => absurd hc List.not_mem_nil⟩
  · rintro (h | h)
    · exact absurd h (Nat.lt_irrefl 0)
    · exact absurd h Bool.false_ne_true
  · exact fun h => absurd h Bool.false_ne_true

/-- A call that begins after a shutdown returns the shutdown error within two operations of
    its own, and nothing it does can be held up. -/
theorem late_shutDown (maxWaitingRequests : Nat) (s : State) (h : Reachable maxWaitingRequests s)
    (i : Nat) (c : Call) (hc : s.calls[i]? = some c) (hlate : c.late = true) :
    ∃ k, k ≤ 2 ∧ ∃ s', Run.runs step s (List.replicate k (.call i .advance)) = some s' ∧
      ∃ c', s'.calls[i]? = some c' ∧ c'.pc = .returned .serviceShuttingDown := by
  have hdown := reachable_shutDown maxWaitingRequests s h
  have hi : i < s.calls.length := (List.getElem?_eq_some_iff.mp hc).1
  rcases hdown.late c (List.mem_of_getElem? hc) hlate with ⟨hstopped, hrefusing⟩
  have haccepting := hdown.accepting (Or.inr hstopped)
  cases hpc : c.pc with
  | returned error =>
      refine ⟨0, Nat.zero_le 2, s, rfl, c, hc, ?_⟩
      cases error with
      | serviceShuttingDown => exact hpc
      | _ => simp [hpc, Pc.refusing] at hrefusing
  | rejectShutdown =>
      refine ⟨1, Nat.le_succ 1, s.apply i c
        (Move.count s.queue .shutdownRejected (.returned .serviceShuttingDown)), ?_, _,
        List.getElem?_set_self hi, rfl⟩
      simp [Run.runs, step, hc, hpc, moveOf, advance]
  -- The load finds `accepting` false, and the next operation counts and returns.
  | loadAccepting =>
      have hstep : step s (.call i .advance) =
          some (s.apply i c (Move.to s.queue .rejectShutdown)) := by
        simp [step, hc, hpc, moveOf, advance, haccepting]
      have hc' : (s.apply i c (Move.to s.queue .rejectShutdown)).calls[i]? =
          some (c.moved (Move.to s.queue .rejectShutdown)) := List.getElem?_set_self hi
      have hlen : i < (s.apply i c (Move.to s.queue .rejectShutdown)).calls.length :=
        (List.getElem?_eq_some_iff.mp hc').1
      refine ⟨2, Nat.le_refl 2, (s.apply i c (Move.to s.queue .rejectShutdown)).apply i
        (c.moved (Move.to s.queue .rejectShutdown))
        (Move.count s.queue .shutdownRejected (.returned .serviceShuttingDown)), ?_, _,
        List.getElem?_set_self hlen, rfl⟩
      simp only [Run.runs, List.replicate, List.foldlM_cons, List.foldlM_nil, hstep,
        Option.bind_eq_bind, Option.bind_some]
      simp only [step, hc']
      rfl
  | _ => simp [hpc, Pc.refusing] at hrefusing

/-- The call has a waiting place and has not acquired the gate. -/
def Pc.waitsForGate : Pc → Bool
  | .countQueued | .firstPoll | .parked _ | .assigned _ => true
  | _ => false

/-- The call has been let through to `start_request`. -/
def Pc.started : Pc → Bool
  | .startActive | .startTotal | .running | .dropTotal | .dropGate | .completed => true
  | _ => false

/-- The places a closed gate keeps a call in: waiting for it, or on the way out. -/
def Pc.shutOut : Pc → Bool
  | .countQueued | .firstPoll | .parked _ | .assigned _ | .unwinding _ | .rejectShutdown
  | .countTimeout | .returned _ | .cancelled => true
  | _ => false

theorem Call.assign_shutOut (c : Call) (h : c.pc.shutOut = true) : c.assign.pc.shutOut = true := by
  unfold Call.assign
  cases hpc : c.pc with
  | parked wake => rfl
  | _ => simpa only [hpc] using h

/-- Past a closed gate no call that is shut out gets through. -/
theorem moveOf_shutOut (q : Queue) (op : Op) (pc : Pc) (m : Move) (hclosed : q.closed = true)
    (hpc : pc.shutOut = true) (hm : moveOf q op pc = some m) : m.pc.shutOut = true := by
  cases op with
  -- At a closed gate every poll refuses, so only the branches that lead out are left.
  | advance =>
      simp only [moveOf] at hm
      unfold advance at hm
      split at hm
      all_goals try (simp only [Pc.shutOut, Bool.false_eq_true] at hpc; done)
      all_goals try simp only [hclosed, if_true] at hm
      all_goals simp only [Option.some.injEq, reduceCtorEq] at hm
      all_goals
        subst hm
        rfl
  | expire | cancel =>
      simp only [moveOf] at hm
      unfold interrupt at hm
      split at hm
      all_goals simp only [Option.some.injEq, reduceCtorEq] at hm
      all_goals
        subst hm
        rfl
  | finish =>
      cases pc with
      | running => simp [Pc.shutOut] at hpc
      | _ => simp [moveOf] at hm

/-- A call that is shut out when the gate is closed is shut out for good. -/
theorem shutOut_reaches (s t : State) (i : Nat) (c : Call) (hclosed : s.queue.closed = true)
    (hc : s.calls[i]? = some c) (hout : c.pc.shutOut = true)
    (h : Run.Reaches step Run.anyStep s t) :
    ∃ c', t.calls[i]? = some c' ∧ c'.pc.shutOut = true := by
  refine (h.invariant (fun t => t.queue.closed = true ∧
    ∃ c', t.calls[i]? = some c' ∧ c'.pc.shutOut = true) ?_ ⟨hclosed, c, hc, hout⟩).2
  rintro s a s' ⟨hcl, d, hd, hdout⟩ - hstep
  refine ⟨?_, ?_⟩
  · rw [(step_flags s s' a hstep).2]
    split_ifs
    · rfl
    · exact hcl
  · rcases step_call s s' a hstep i d hd with ⟨e, he, rfl | rfl | ⟨op, m, -, hm, hcase⟩⟩
    · exact ⟨e, he, hdout⟩
    · exact ⟨_, he, d.assign_shutOut hdout⟩
    · have hmoved : (d.moved m).pc.shutOut = true :=
        moveOf_shutOut s.queue op d.pc m hcl hdout hm
      rcases hcase with rfl | rfl
      · exact ⟨_, he, hmoved⟩
      · exact ⟨_, he, (d.moved m).assign_shutOut hmoved⟩

/-- The initial state of the runs. -/
def Starts (maxWaitingRequests : Nat) (s : State) : Prop := s = State.new maxWaitingRequests

/-- Outcomes and shutdown. In every run in which no store lands in the window of a failed
    reservation, a call that has returned an error has counted itself exactly once, in the
    total that names the error, and the totals are what the calls have counted. In every
    run at all, a call that began after a `stop_accepting` returned comes back with the
    shutdown error within two operations of its own and with no other outcome, and a call
    waiting for the gate when one returned is never started. -/
theorem outcomes_accounted (maxWaitingRequests : Nat) :
    (∀ s, Run.Reachable step Undisturbed (Starts maxWaitingRequests) s →
      (∀ c ∈ s.calls, ∀ error, c.pc = .returned error → c.counted = [counterOf error]) ∧
      ∀ k, s.queue.total k = recorded k s) ∧
    (∀ (s : State) (i : Nat) (c : Call), Reachable maxWaitingRequests s → s.calls[i]? = some c →
      c.late = true → c.pc.refusing = true ∧
      ∃ k, k ≤ 2 ∧ ∃ s', Run.runs step s (List.replicate k (.call i .advance)) = some s' ∧
        ∃ c', s'.calls[i]? = some c' ∧ c'.pc = .returned .serviceShuttingDown) ∧
    (∀ (s t : State) (i : Nat) (c : Call), Reachable maxWaitingRequests s → s.stopped = true →
      s.calls[i]? = some c → c.pc.waitsForGate = true → Run.Reaches step Run.anyStep s t →
      ∃ c', t.calls[i]? = some c' ∧ c'.pc.started = false) := by
  refine ⟨?_, ?_, ?_⟩
  · intro s h
    refine ⟨?_, reachable_recorded maxWaitingRequests s (h.mono fun _ _ _ => trivial)⟩
    intro c hc error hpc
    have hrecord := undisturbed_accounted maxWaitingRequests s h c hc
    simpa only [Accounted, hpc] using hrecord
  · intro s i c h hc hlate
    have hdown := reachable_shutDown maxWaitingRequests s h
    exact ⟨(hdown.late c (List.mem_of_getElem? hc) hlate).2,
      late_shutDown maxWaitingRequests s h i c hc hlate⟩
  -- A stop that has returned has closed the gate, and a waiting call is shut out by it.
  · intro s t i c h hstopped hc hwaits hrun
    have hdown := reachable_shutDown maxWaitingRequests s h
    have hout : c.pc.shutOut = true := by
      cases hpc : c.pc <;> simp_all [Pc.waitsForGate, Pc.shutOut]
    rcases shutOut_reaches s t i c (hdown.closed hstopped) hc hout hrun with ⟨c', hc', hout'⟩
    refine ⟨c', hc', ?_⟩
    cases hpc : c'.pc <;> simp_all [Pc.started, Pc.shutOut]

/-- A full queue, and a store between the count and the choice of the error. -/
def storeInWindow : List Act :=
  [.begin, .call 0 .advance, .call 0 .advance, .call 0 .advance, .begin, .call 1 .advance,
   .call 1 .advance, .call 1 .advance, .call 1 .advance, .call 1 .advance, .stopStore,
   .call 1 .advance]

/-- The call returns the shutdown error and has counted itself as rejected. -/
theorem storeInWindow_miscounted :
    ∃ s, Reachable 0 s ∧ ∃ c ∈ s.calls, c.pc = .returned .serviceShuttingDown ∧
      c.counted = [.rejected] ∧ c.counted ≠ [counterOf .serviceShuttingDown] := by
  have hrun : (Run.runs step (State.new 0) storeInWindow).map (fun s => s.calls[1]?) =
      some (some { pc := .returned .serviceShuttingDown, counted := [.rejected],
                   late := false }) := by decide
  rcases Option.map_eq_some_iff.mp hrun with ⟨s, hs, hc⟩
  exact ⟨s, ⟨_, rfl, Run.reaches_of_runs _ _ _ hs⟩, _, List.mem_of_getElem? hc, rfl, rfl,
    by decide⟩

end RequestQueue

end QrtEngine
