import QrtEngine.Library.Tally
import QrtEngine.Server.Queue
import Mathlib.Data.List.Nodup

/-!
# Queue Safety

The counters of the request queue always agree with where the calls stand. A permit is
either in the semaphore or held by exactly one call, `waiting` is the number of calls
with a waiting place, `active` is the number of calls between the two ends of the active
window, and the totals differ by the calls between them.

Each operation of a call changes the counters by exactly what it changes about the call
itself, and `Balanced` says so in one place. Everything about whole runs follows from it
by adding up over the calls. A released permit is on its way between two holders, so the
invariant carries the number of permits let go and not handed on; it is zero between two
steps.

## Main definitions

* `Pc.holds`, `Pc.guarded`, `Pc.isActive`, `Pc.isOpen`: What a call counts for.
* `tally`: The number of calls that count for something.
* `Balanced`: An operation changes the counters as it changes its call.
* `Safe`: The invariant of the system.

## Theorems

* `moveOf_balanced`: Every operation is balanced.
* `step_safe`: Every step keeps the invariant.
* `reachable_safe`: It holds in every interleaving.
* `reachable_queue_safe`: What it says about the counters.
-/

namespace QrtEngine

namespace RequestQueue

/-- The call holds the gate's permit. -/
def Pc.holds : Pc → Bool
  | .reloadAccepting | .dropPermit | .assigned _ | .acquired | .startActive | .startTotal
  | .running | .dropTotal | .dropGate => true
  | _ => false

/-- The call holds a live `WaitingRequest`. -/
def Pc.guarded : Pc → Bool
  | .countQueued | .firstPoll | .parked _ | .assigned _ | .unwinding _ | .acquired => true
  | _ => false

/-- The call is counted in `active`. -/
def Pc.isActive : Pc → Bool
  | .startTotal | .running => true
  | _ => false

/-- The call is counted in `started_total` and not in `completed_total`. -/
def Pc.isOpen : Pc → Bool
  | .running | .dropTotal => true
  | _ => false

/-- The call is between the two counters of `start_request` or of the permit's drop. -/
def Pc.halfDone : Pc → Bool
  | .startTotal | .dropTotal => true
  | _ => false

/-- The call is in line at the gate. -/
def Pc.inLine : Pc → Bool
  | .parked _ => true
  | _ => false

/-- The call has ended, its permit included. -/
def Pc.ended : Pc → Bool
  | .returned _ | .completed | .cancelled => true
  | _ => false

/-- The number of calls that pass a test. -/
def tally (p : Pc → Bool) (s : State) : Nat := s.calls.countP fun c => p c.pc

/-- The permits an operation lets go without a holder. -/
def GateOp.loose : GateOp → Nat
  | .release => 1
  | _ => 0

/-- An operation changes the counters by what it changes about its call. -/
structure Balanced (q : Queue) (pc : Pc) (m : Move) : Prop where
  permits : m.queue.permits + m.pc.holds.toNat + m.gate.loose = q.permits + pc.holds.toNat
  waiting : m.queue.waiting + pc.guarded.toNat = q.waiting + m.pc.guarded.toNat
  waiting_le : q.waiting ≤ q.maxWaitingRequests → m.queue.waiting ≤ q.maxWaitingRequests
  active : m.queue.active + pc.isActive.toNat = q.active + m.pc.isActive.toNat
  totals : m.queue.startedTotal + q.completedTotal + pc.isOpen.toNat =
    q.startedTotal + m.queue.completedTotal + m.pc.isOpen.toNat
  maxWaiting : m.queue.maxWaitingRequests = q.maxWaitingRequests
  accepting : m.queue.accepting = q.accepting
  closed : m.queue.closed = q.closed
  park : m.gate = .park → pc.inLine = false ∧ m.pc.inLine = true
  leave : pc.inLine = true → m.pc.inLine = false → m.gate = .leave

theorem advance_balanced (q : Queue) (pc : Pc) (m : Move)
    (hwaiting : pc.guarded.toNat ≤ q.waiting) (h : advance q pc = some m) : Balanced q pc m := by
  -- One goal for each branch of the program, then one for each counter.
  unfold advance at h
  split at h
  all_goals try split_ifs at h
  all_goals simp only [Option.some.injEq, reduceCtorEq] at h
  all_goals
    subst h
    simp only [Pc.guarded, Bool.toNat_true, Bool.toNat_false] at hwaiting
    constructor <;>
      simp [Move.to, Move.atGate, Move.count, Queue.count, GateOp.loose, Pc.holds, Pc.guarded,
        Pc.isActive, Pc.isOpen, Pc.inLine]
  all_goals omega

theorem interrupt_balanced (q : Queue) (wake : Wake) (pc : Pc) (m : Move)
    (h : interrupt q wake pc = some m) : Balanced q pc m := by
  unfold interrupt at h
  split at h
  all_goals simp only [Option.some.injEq, reduceCtorEq] at h
  all_goals
    subst h
    constructor <;>
      simp [Move.to, GateOp.loose, Pc.holds, Pc.guarded, Pc.isActive, Pc.isOpen, Pc.inLine]

/-- Every operation is balanced, if the counters it lowers are not zero. -/
theorem moveOf_balanced (q : Queue) (op : Op) (pc : Pc) (m : Move)
    (hwaiting : pc.guarded.toNat ≤ q.waiting) (hactive : pc.isActive.toNat ≤ q.active)
    (h : moveOf q op pc = some m) : Balanced q pc m := by
  cases op with
  | advance => exact advance_balanced q pc m hwaiting h
  | expire => exact interrupt_balanced q .expired pc m h
  | cancel => exact interrupt_balanced q .cancelled pc m h
  | finish =>
      cases pc with
      | running =>
          simp only [moveOf, Option.some.injEq] at h
          subst h
          simp only [Pc.isActive, Bool.toNat_true] at hactive
          constructor <;>
            simp [Move.to, GateOp.loose, Pc.holds, Pc.guarded, Pc.isActive, Pc.isOpen, Pc.inLine]
          omega
      | _ => exact absurd h (by simp only [moveOf, reduceCtorEq, not_false_eq_true])

/-! ## The invariant -/

/-- The counters agree with the calls, with `loose` permits let go and not handed on. -/
structure Safe (maxWaitingRequests loose : Nat) (s : State) : Prop where
  maxWaiting : s.queue.maxWaitingRequests = maxWaitingRequests
  permits : s.queue.permits + tally Pc.holds s + loose = 1
  waiting : s.queue.waiting = tally Pc.guarded s
  waiting_le : s.queue.waiting ≤ s.queue.maxWaitingRequests
  active : s.queue.active = tally Pc.isActive s
  totals : s.queue.startedTotal = s.queue.completedTotal + tally Pc.isOpen s
  nodup : s.waiters.Nodup
  line : ∀ w ∈ s.waiters, ∃ c, s.calls[w]? = some c ∧ c.pc.inLine = true

theorem new_safe (maxWaitingRequests : Nat) :
    Safe maxWaitingRequests 0 (State.new maxWaitingRequests) := by
  constructor <;> simp [State.new, Queue.new, tally]

/-- What a call counts for is part of the tally. -/
theorem toNat_le_tally (p : Pc → Bool) (s : State) (i : Nat) (c : Call)
    (h : s.calls[i]? = some c) : (p c.pc).toNat ≤ tally p s :=
  Tally.toNat_le_countP (p := fun (d : Call) => p d.pc) h

/-- Handing a waiter a permit makes it a holder and changes nothing else it counts for. -/
theorem Call.assign_inLine (c : Call) (h : c.pc.inLine = true) :
    c.pc.holds = false ∧ c.assign.pc.holds = true ∧ c.assign.pc.guarded = c.pc.guarded ∧
      c.assign.pc.isActive = c.pc.isActive ∧ c.assign.pc.isOpen = c.pc.isOpen := by
  unfold Call.assign
  cases hpc : c.pc with
  | parked wake => simp [Pc.holds, Pc.guarded, Pc.isActive, Pc.isOpen]
  | _ => simp [hpc, Pc.inLine] at h

/-- Releasing gives the loose permit to the oldest waiter or to the semaphore. -/
theorem release_safe (n : Nat) (s : State) (h : Safe n 1 s) : Safe n 0 s.release := by
  unfold State.release
  cases hline : s.waiters with
  -- Nobody waits: the permit goes back into the semaphore.
  | nil =>
      have hpermits := h.permits
      refine ⟨h.maxWaiting, ?_, h.waiting, h.waiting_le, h.active, h.totals, List.nodup_nil,
        fun w hw => absurd hw List.not_mem_nil⟩
      simp only [tally] at hpermits ⊢
      omega
  -- The oldest waiter becomes the holder, so only the first tally moves.
  | cons w waiters =>
      have hnodup := h.nodup
      rw [hline, List.nodup_cons] at hnodup
      rcases h.line w (by rw [hline]; exact List.mem_cons_self) with ⟨c, hc, hpark⟩
      rcases c.assign_inLine hpark with ⟨hold, hnew, hguard, hact, hopen⟩
      have hmodify : ∀ p : Pc → Bool, tally p { s with
          waiters := waiters, calls := s.calls.modify w Call.assign } + (p c.pc).toNat =
          tally p s + (p c.assign.pc).toNat :=
        fun p => Tally.countP_modify_add (p := fun (d : Call) => p d.pc) hc
      have hpermits := h.permits
      have hholds := hmodify Pc.holds
      rw [hold, hnew] at hholds
      have hguards := hmodify Pc.guarded
      rw [hguard] at hguards
      have hactives := hmodify Pc.isActive
      rw [hact] at hactives
      have hopens := hmodify Pc.isOpen
      rw [hopen] at hopens
      have hwaiting := h.waiting
      have hactive := h.active
      have htotals := h.totals
      simp only [Bool.toNat_true, Bool.toNat_false] at hholds
      refine ⟨h.maxWaiting, ?_, ?_, h.waiting_le, ?_, ?_, hnodup.2, ?_⟩
      · dsimp only
        omega
      · dsimp only
        omega
      · dsimp only
        omega
      · dsimp only
        omega
      · -- The rest of the line is other calls, which are still parked.
        intro v hv
        rcases h.line v (by rw [hline]; exact List.mem_cons_of_mem w hv) with ⟨d, hd, hdpark⟩
        have hne : w ≠ v := fun hwv => hnodup.1 (hwv ▸ hv)
        refine ⟨d, ?_, hdpark⟩
        simp only [List.getElem?_modify, if_neg hne, hd]
        rfl

/-- Replacing a call by what a balanced operation makes of it. -/
theorem set_safe (n : Nat) (s : State) (i : Nat) (c c' : Call) (m : Move) (waiters : List Nat)
    (h : Safe n 0 s) (hc : s.calls[i]? = some c) (hpc : c'.pc = m.pc)
    (hm : Balanced s.queue c.pc m) (hnodup : waiters.Nodup)
    (hline : ∀ w ∈ waiters, ∃ d, (s.calls.set i c')[w]? = some d ∧ d.pc.inLine = true) :
    Safe n m.gate.loose
      { s with queue := m.queue, calls := s.calls.set i c', waiters := waiters } := by
  have hset : ∀ p : Pc → Bool,
      tally p { s with queue := m.queue, calls := s.calls.set i c', waiters := waiters } +
        (p c.pc).toNat = tally p s + (p m.pc).toNat := by
    intro p
    rw [← hpc]
    exact Tally.countP_set_add (p := fun (d : Call) => p d.pc) hc
  have hholds := hset Pc.holds
  have hguards := hset Pc.guarded
  have hactives := hset Pc.isActive
  have hopens := hset Pc.isOpen
  have hpermits := h.permits
  have hwaiting := h.waiting
  have hactive := h.active
  have htotals := h.totals
  -- Each counter moves with its tally: the invariant before, the balance of the operation and
  -- the change of the tally are three equations with one unknown.
  have bpermits := hm.permits
  have bwaiting := hm.waiting
  have bactive := hm.active
  have btotals := hm.totals
  have bound := hm.waiting_le h.waiting_le
  rw [← hm.maxWaiting] at bound
  refine ⟨by rw [← h.maxWaiting]; exact hm.maxWaiting, ?_, ?_, bound, ?_, ?_, hnodup, hline⟩
  · dsimp only
    omega
  · dsimp only
    omega
  · dsimp only
    omega
  · dsimp only
    omega

/-- Calls in line other than `i` stay in line when `i` is replaced. -/
theorem line_set (n : Nat) (s : State) (i : Nat) (c' : Call) (h : Safe n 0 s) (w : Nat)
    (hw : w ∈ s.waiters) (hne : w ≠ i) :
    ∃ d, (s.calls.set i c')[w]? = some d ∧ d.pc.inLine = true := by
  rcases h.line w hw with ⟨d, hd, hdpark⟩
  refine ⟨d, ?_, hdpark⟩
  rw [List.getElem?_set_ne (Ne.symm hne)]
  exact hd

/-- An operation of a call keeps the invariant. -/
theorem apply_safe (n : Nat) (s : State) (i : Nat) (c : Call) (op : Op) (m : Move)
    (h : Safe n 0 s)
    (hc : s.calls[i]? = some c) (hm : moveOf s.queue op c.pc = some m) :
    Safe n 0 (s.apply i c m) := by
  -- The counters an operation lowers are not zero, since they count this call too.
  have hguard := toNat_le_tally Pc.guarded s i c hc
  rw [← h.waiting] at hguard
  have hact := toNat_le_tally Pc.isActive s i c hc
  rw [← h.active] at hact
  have hbal := moveOf_balanced s.queue op c.pc m hguard hact hm
  have hi : i < s.calls.length := (List.getElem?_eq_some_iff.mp hc).1
  set c' : Call := { c with pc := m.pc, counted := c.counted ++ m.counted.toList } with hc'
  have hself : (s.calls.set i c')[i]? = some c' := List.getElem?_set_self hi
  -- While the call stays in line or was never there, the line is the calls it was.
  have hkeep : m.gate ≠ .leave → ∀ w ∈ s.waiters,
      ∃ d, (s.calls.set i c')[w]? = some d ∧ d.pc.inLine = true := by
    intro hgate w hw
    by_cases hwi : w = i
    · subst hwi
      rcases h.line w hw with ⟨d, hd, hdpark⟩
      rw [hc, Option.some.injEq] at hd
      subst hd
      refine ⟨c', hself, ?_⟩
      by_contra hout
      exact hgate (hbal.leave hdpark (by simpa only [Bool.not_eq_true] using hout))
    · exact line_set n s i c' h w hw hwi
  unfold State.apply
  cases hgate : m.gate with
  | keep =>
      have hsafe := set_safe n s i c c' m s.waiters h hc rfl hbal h.nodup
        (hkeep (by rw [hgate]; simp only [ne_eq, reduceCtorEq, not_false_eq_true]))
      rw [hgate] at hsafe
      exact hsafe
  | release =>
      have hsafe := set_safe n s i c c' m s.waiters h hc rfl hbal h.nodup
        (hkeep (by rw [hgate]; simp only [ne_eq, reduceCtorEq, not_false_eq_true]))
      rw [hgate] at hsafe
      exact release_safe n _ hsafe
  -- A call that parks was not in line, so the line stays free of duplicates.
  | park =>
      have hpark := hbal.park hgate
      have hnew : i ∉ s.waiters := by
        intro hin
        rcases h.line i hin with ⟨d, hd, hdpark⟩
        rw [hc, Option.some.injEq] at hd
        subst hd
        rw [hpark.1] at hdpark
        exact Bool.false_ne_true hdpark
      have hsafe := set_safe n s i c c' m (s.waiters ++ [i]) h hc rfl hbal
        (List.nodup_append.mpr ⟨h.nodup, List.nodup_singleton i, fun a ha b hb hab =>
          hnew (by rw [List.mem_singleton] at hb; exact hb ▸ hab ▸ ha)⟩) ?_
      · rw [hgate] at hsafe
        exact hsafe
      · intro w hw
        rcases List.mem_append.mp hw with hw | hw
        · exact hkeep (by rw [hgate]; simp only [ne_eq, reduceCtorEq, not_false_eq_true]) w hw
        · rw [List.mem_singleton] at hw
          subst hw
          exact ⟨c', hself, hpark.2⟩
  -- Who is left in line is another call than the one that leaves.
  | leave =>
      have hsafe := set_safe n s i c c' m (s.waiters.erase i) h hc rfl hbal (h.nodup.erase i) ?_
      · rw [hgate] at hsafe
        exact hsafe
      · intro w hw
        rw [h.nodup.mem_erase_iff] at hw
        exact line_set n s i c' h w hw.2 hw.1

/-! ## Every interleaving -/

/-- What a step of the system does. -/
theorem step_cases (s s' : State) (a : Act) (h : step s a = some s') :
    (a = .begin ∧ s' = { s with
        calls := s.calls ++ [{ pc := .loadAccepting, counted := [], late := s.stopped }] }) ∨
    (∃ i op c m, a = .call i op ∧ s.calls[i]? = some c ∧ moveOf s.queue op c.pc = some m ∧
      s' = s.apply i c m) ∨
    (a = .stopStore ∧ s' = { s with
        queue := { s.queue with accepting := false }, stopping := s.stopping + 1 }) ∨
    (a = .stopClose ∧ 0 < s.stopping ∧ s' = { s with
        queue := { s.queue with closed := true }, waiters := [],
        stopping := s.stopping - 1, stopped := true }) := by
  cases a with
  | begin => exact Or.inl ⟨rfl, (Option.some.inj h).symm⟩
  | call i op =>
      simp only [step] at h
      cases hc : s.calls[i]? with
      | none => simp only [hc, reduceCtorEq] at h
      | some c =>
          simp only [hc, Option.map_eq_some_iff] at h
          rcases h with ⟨m, hm, hs'⟩
          exact Or.inr (Or.inl ⟨i, op, c, m, rfl, hc, hm, hs'.symm⟩)
  | stopStore => exact Or.inr (Or.inr (Or.inl ⟨rfl, (Option.some.inj h).symm⟩))
  | stopClose =>
      simp only [step] at h
      -- The close of a `stop_accepting` needs a store of its own before it.
      by_cases hstop : 0 < s.stopping
      · rw [if_pos hstop] at h
        exact Or.inr (Or.inr (Or.inr ⟨rfl, hstop, (Option.some.inj h).symm⟩))
      · rw [if_neg hstop] at h
        exact absurd h (by simp only [reduceCtorEq, not_false_eq_true])

/-- Every step keeps the invariant. -/
theorem step_safe (n : Nat) (s s' : State) (a : Act) (h : Safe n 0 s)
    (hstep : step s a = some s') : Safe n 0 s' := by
  rcases step_cases s s' a hstep with ⟨-, rfl⟩ | ⟨i, op, c, m, -, hc, hm, rfl⟩ | ⟨-, rfl⟩ |
    ⟨-, -, rfl⟩
  · -- A call that begins counts for nothing yet.
    have htally : ∀ p : Pc → Bool, p .loadAccepting = false → tally p { s with
        calls := s.calls ++ [{ pc := .loadAccepting, counted := [], late := s.stopped }] } =
          tally p s := by
      intro p hp
      simp only [tally, List.countP_append, List.countP_singleton, hp, Bool.false_eq_true,
        if_false, Nat.add_zero]
    refine ⟨h.maxWaiting, ?_, ?_, h.waiting_le, ?_, ?_, h.nodup, ?_⟩
    · rw [htally Pc.holds rfl]
      exact h.permits
    · rw [htally Pc.guarded rfl]
      exact h.waiting
    · rw [htally Pc.isActive rfl]
      exact h.active
    · rw [htally Pc.isOpen rfl]
      exact h.totals
    · intro w hw
      rcases h.line w hw with ⟨d, hd, hdpark⟩
      refine ⟨d, ?_, hdpark⟩
      rw [List.getElem?_append_left (List.getElem?_eq_some_iff.mp hd).1]
      exact hd
  · exact apply_safe n s i c op m h hc hm
  · exact ⟨h.maxWaiting, h.permits, h.waiting, h.waiting_le, h.active, h.totals, h.nodup, h.line⟩
  -- Closing empties the line and moves no call, so no counter changes.
  · exact ⟨h.maxWaiting, h.permits, h.waiting, h.waiting_le, h.active, h.totals, List.nodup_nil,
      fun w hw => absurd hw List.not_mem_nil⟩

/-- The invariant holds in every interleaving. -/
theorem reachable_safe (maxWaitingRequests : Nat) (s : State)
    (h : Reachable maxWaitingRequests s) : Safe maxWaitingRequests 0 s := by
  refine h.invariant (Safe maxWaitingRequests 0) ?_
    (fun s a s' hs _ hstep => step_safe maxWaitingRequests s s' a hs hstep)
  rintro s₀ rfl
  exact new_safe maxWaitingRequests

/-- An active call holds the permit. -/
theorem tally_isActive_le (s : State) : tally Pc.isActive s ≤ tally Pc.holds s := by
  refine List.countP_mono_left ?_
  intro c _ hc
  cases hpc : c.pc <;> simp_all [Pc.isActive, Pc.holds]

/-- With no call between the two counters of a window, the windows coincide. -/
theorem tally_isActive_eq (s : State) (h : ∀ c ∈ s.calls, c.pc.halfDone = false) :
    tally Pc.isActive s = tally Pc.isOpen s := by
  refine List.countP_congr ?_
  intro c hc
  have hhalf := h c hc
  cases hpc : c.pc <;> simp_all [Pc.isActive, Pc.isOpen, Pc.halfDone]

/-- Calls that have ended count for nothing. -/
theorem tally_ended (p : Pc → Bool) (s : State) (hp : ∀ pc : Pc, pc.ended = true → p pc = false)
    (h : ∀ c ∈ s.calls, c.pc.ended = true) : tally p s = 0 := by
  refine List.countP_eq_zero.mpr ?_
  intro c hc
  simp only [hp c.pc (h c hc), Bool.false_eq_true, not_false_eq_true]

theorem Pc.ended_counts (pc : Pc) (h : pc.ended = true) :
    pc.holds = false ∧ pc.guarded = false ∧ pc.isActive = false ∧ pc.isOpen = false := by
  cases pc <;> simp_all [Pc.ended, Pc.holds, Pc.guarded, Pc.isActive, Pc.isOpen]

/-- Once every call has ended the queue is idle. -/
theorem idle_of_ended (n : Nat) (s : State) (h : Safe n 0 s)
    (hended : ∀ c ∈ s.calls, c.pc.ended = true) :
    s.queue.permits = 1 ∧ s.queue.active = 0 ∧ s.queue.waiting = 0 ∧
      s.queue.startedTotal = s.queue.completedTotal := by
  have hholds := tally_ended Pc.holds s (fun pc hpc => (pc.ended_counts hpc).1) hended
  have hguards := tally_ended Pc.guarded s (fun pc hpc => (pc.ended_counts hpc).2.1) hended
  have hactives := tally_ended Pc.isActive s (fun pc hpc => (pc.ended_counts hpc).2.2.1) hended
  have hopens := tally_ended Pc.isOpen s (fun pc hpc => (pc.ended_counts hpc).2.2.2) hended
  have hpermits := h.permits
  have hwaiting := h.waiting
  have hactive := h.active
  have htotals := h.totals
  exact ⟨by omega, by omega, by omega, by omega⟩

/-- What holds of the counters in every interleaving: at most one request is active, no
    more than the configured number wait and each with its own guard, the one permit is
    free or held by one call, and once every call has ended the queue is idle. -/
theorem reachable_queue_safe (maxWaitingRequests : Nat) (s : State)
    (h : Reachable maxWaitingRequests s) :
    s.queue.active ≤ 1 ∧
    s.queue.waiting ≤ maxWaitingRequests ∧
    s.queue.waiting = tally Pc.guarded s ∧
    s.queue.permits + tally Pc.holds s = 1 ∧
    ((∀ c ∈ s.calls, c.pc.halfDone = false) →
      s.queue.active + s.queue.completedTotal = s.queue.startedTotal) ∧
    ((∀ c ∈ s.calls, c.pc.ended = true) →
      s.queue.permits = 1 ∧ s.queue.active = 0 ∧ s.queue.waiting = 0 ∧
        s.queue.startedTotal = s.queue.completedTotal) := by
  have hsafe := reachable_safe maxWaitingRequests s h
  have hpermits := hsafe.permits
  have hactive := hsafe.active
  have htotals := hsafe.totals
  have hle := tally_isActive_le s
  -- There is one permit and an active call holds it, so there is at most one.
  refine ⟨by omega, hsafe.maxWaiting ▸ hsafe.waiting_le, hsafe.waiting, by omega, ?_,
    idle_of_ended maxWaitingRequests s hsafe⟩
  intro hhalf
  have heq := tally_isActive_eq s hhalf
  omega

/-- A request that runs, one that waits and is handed the gate, and one that is refused. -/
def handOver : List Act :=
  [.begin, .call 0 .advance, .call 0 .advance, .call 0 .advance, .call 0 .advance,
   .call 0 .advance, .begin, .call 1 .advance, .call 1 .advance, .call 1 .advance,
   .call 1 .advance, .call 1 .advance, .call 1 .advance, .begin, .call 2 .advance,
   .call 2 .advance, .call 2 .advance, .call 2 .advance, .call 2 .advance, .call 2 .advance,
   .call 0 .finish, .call 0 .advance, .call 0 .advance]

/-- The counters in the middle of that run, with the permit handed to the waiter. -/
theorem handOver_queue_safe : ∃ s, Run.runs step (State.new 1) handOver = some s ∧
    s.calls.map Call.pc = [.completed, .assigned .awaiting, .returned .queueFull] ∧
    s.queue.active ≤ 1 ∧ s.queue.waiting ≤ 1 ∧ s.queue.permits + tally Pc.holds s = 1 := by
  have hrun : (Run.runs step (State.new 1) handOver).isSome = true := by decide
  rcases Option.isSome_iff_exists.mp hrun with ⟨s, hs⟩
  have hreach : Reachable 1 s := ⟨_, rfl, Run.reaches_of_runs _ _ _ hs⟩
  have hsafe := reachable_queue_safe 1 s hreach
  refine ⟨s, hs, ?_, hsafe.1, hsafe.2.1, hsafe.2.2.2.1⟩
  have hpcs : (Run.runs step (State.new 1) handOver).map (fun s => s.calls.map Call.pc) =
      some [.completed, .assigned .awaiting, .returned .queueFull] := by decide
  rw [hs, Option.map_some, Option.some.injEq] at hpcs
  exact hpcs

end RequestQueue

end QrtEngine
