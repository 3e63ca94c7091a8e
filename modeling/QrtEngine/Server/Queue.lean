import QrtEngine.Library.Run

/-!
# The Request Queue

The server runs one generation at a time. A request first tries the gate, a semaphore of
one permit; if it is taken the request reserves one of a bounded number of waiting places
and waits for the gate with a deadline. The counters beside the semaphore are separate
atomics, so the queue is modelled at the grain of its atomic operations: a call of
`acquire_request_permit` is a program counter, and a step of the system is one atomic
operation of one call, or of `stop_accepting`, in any interleaving.

The semaphore is the library's: fair, first in first out. A released permit is handed to
the oldest waiter, which holds it from then on although it has not been polled yet;
closing drops every waiter out of the line and makes every later poll fail, also the poll
of a waiter that already holds a permit. A waiter's future is dropped when it was
refused, when its deadline passed or when the request was cancelled, and dropping it
returns a permit that was handed over in the meantime.

The wait clocks are left out, and the totals are natural numbers.

## Main definitions

* `Pc`: Where a call stands, between two of its atomic operations.
* `Queue`: The atomics and the semaphore.
* `State`: The queue, the line at the gate and all the calls.
* `moveOf`: The next atomic operation of a call.
* `step`: One step of the system.
-/

namespace QrtEngine

namespace RequestQueue

/-- The error codes a call can return. -/
inductive ErrorCode where
  | queueFull
  | queueTimeout
  | serviceShuttingDown
deriving DecidableEq, Repr

/-- The totals that count refused calls. -/
inductive Counter where
  | rejected
  | timedOut
  | shutdownRejected
deriving DecidableEq, Repr

/-- What ended a wait, once something did. -/
inductive Wake where
  | awaiting
  | refused
  | expired
  | cancelled
deriving DecidableEq, Repr

/-- Where a call stands: the atomic operation it performs next, or how it ended. -/
inductive Pc where
  /-- Load `accepting` on entry. -/
  | loadAccepting
  /-- Count a shutdown rejection and return it. -/
  | rejectShutdown
  /-- `try_acquire_owned` on the gate. -/
  | tryAcquire
  /-- Load `accepting` again with the permit in hand. -/
  | reloadAccepting
  /-- Drop the permit because of that load. -/
  | dropPermit
  /-- Load `accepting` in `reserve_waiter`. -/
  | reserveLoad
  /-- Count a shutdown rejection in `reserve_waiter`. -/
  | reserveShutdown
  /-- Update `waiting` in `reserve_waiter`. -/
  | reserveUpdate
  /-- Count a rejection in `reserve_waiter`. -/
  | reserveFull
  /-- Load `accepting` to choose the error of a failed reservation. -/
  | chooseError
  /-- Count the queued request. -/
  | countQueued
  /-- Poll the gate for the first time. -/
  | firstPoll
  /-- In line at the gate. -/
  | parked (wake : Wake)
  /-- Handed a permit that has not been polled. -/
  | assigned (wake : Wake)
  /-- The wait is over and its future dropped; drop the waiting place. -/
  | unwinding (wake : Wake)
  /-- The gate was acquired; drop the waiting place. -/
  | acquired
  /-- Count the request as active in `start_request`. -/
  | startActive
  /-- Count the request as started in `start_request`. -/
  | startTotal
  /-- Returned with a `RequestPermit` that is still alive. -/
  | running
  /-- Count the request as completed in the permit's drop. -/
  | dropTotal
  /-- Release the gate in the permit's drop. -/
  | dropGate
  /-- Count a timeout and return it. -/
  | countTimeout
  /-- Returned an error. -/
  | returned (error : ErrorCode)
  /-- The `RequestPermit` is gone. -/
  | completed
  /-- The future was dropped while waiting. -/
  | cancelled
deriving DecidableEq, Repr

/-- The atomics of the queue and the state of the semaphore. -/
structure Queue where
  maxWaitingRequests : Nat
  accepting : Bool
  permits : Nat
  closed : Bool
  active : Nat
  waiting : Nat
  startedTotal : Nat
  completedTotal : Nat
  queuedTotal : Nat
  rejectedTotal : Nat
  timedOutTotal : Nat
  shutdownRejectedTotal : Nat
deriving DecidableEq, Repr

/-- A fresh queue. -/
def Queue.new (maxWaitingRequests : Nat) : Queue :=
  { maxWaitingRequests := maxWaitingRequests
    accepting := true
    permits := 1
    closed := false
    active := 0
    waiting := 0
    startedTotal := 0
    completedTotal := 0
    queuedTotal := 0
    rejectedTotal := 0
    timedOutTotal := 0
    shutdownRejectedTotal := 0 }

/-- Add one to a total. -/
def Queue.count (q : Queue) : Counter → Queue
  | .rejected => { q with rejectedTotal := q.rejectedTotal + 1 }
  | .timedOut => { q with timedOutTotal := q.timedOutTotal + 1 }
  | .shutdownRejected => { q with shutdownRejectedTotal := q.shutdownRejectedTotal + 1 }

/-- One call, with the totals it has counted itself in and whether it began after a
    `stop_accepting` had returned. -/
structure Call where
  pc : Pc
  counted : List Counter
  late : Bool
deriving DecidableEq, Repr

/-- The queue, the line at the gate with its oldest waiter first, the calls so far, and
    how far the calls of `stop_accepting` are. -/
structure State where
  queue : Queue
  waiters : List Nat
  calls : List Call
  stopping : Nat
  stopped : Bool
deriving DecidableEq, Repr

/-- The state before any call. -/
def State.new (maxWaitingRequests : Nat) : State :=
  { queue := Queue.new maxWaitingRequests
    waiters := []
    calls := []
    stopping := 0
    stopped := false }

/-- What an atomic operation does to the line at the gate. -/
inductive GateOp where
  | keep
  | release
  | park
  | leave
deriving DecidableEq, Repr

/-- The effect of one atomic operation of a call. -/
structure Move where
  queue : Queue
  pc : Pc
  gate : GateOp
  counted : Option Counter

/-- An operation that only moves the call on. -/
def Move.to (q : Queue) (pc : Pc) : Move :=
  { queue := q, pc := pc, gate := .keep, counted := none }

/-- An operation at the gate that involves the line. -/
def Move.atGate (q : Queue) (gate : GateOp) (pc : Pc) : Move :=
  { queue := q, pc := pc, gate := gate, counted := none }

/-- An operation that counts the call in a total. -/
def Move.count (q : Queue) (c : Counter) (pc : Pc) : Move :=
  { queue := q.count c, pc := pc, gate := .keep, counted := some c }

/-- What can happen to a call: its own next operation, its deadline passing, its future
    being dropped, or its permit being dropped. -/
inductive Op where
  | advance
  | expire
  | cancel
  | finish
deriving DecidableEq, Repr

/-- The next atomic operation of a call on its own. -/
def advance (q : Queue) : Pc → Option Move
  | .loadAccepting =>
      if q.accepting then some (Move.to q .tryAcquire) else some (Move.to q .rejectShutdown)
  | .rejectShutdown =>
      some (Move.count q .shutdownRejected (.returned .serviceShuttingDown))
  | .tryAcquire =>
      if q.closed then some (Move.to q .rejectShutdown)
      else if 0 < q.permits then
        some (Move.to { q with permits := q.permits - 1 } .reloadAccepting)
      else some (Move.to q .reserveLoad)
  | .reloadAccepting =>
      if q.accepting then some (Move.to q .startActive) else some (Move.to q .dropPermit)
  | .dropPermit => some (Move.atGate q .release .rejectShutdown)
  | .reserveLoad =>
      if q.accepting then some (Move.to q .reserveUpdate) else some (Move.to q .reserveShutdown)
  | .reserveShutdown => some (Move.count q .shutdownRejected .chooseError)
  | .reserveUpdate =>
      if q.waiting < q.maxWaitingRequests then
        some (Move.to { q with waiting := q.waiting + 1 } .countQueued)
      else some (Move.to q .reserveFull)
  | .reserveFull => some (Move.count q .rejected .chooseError)
  -- `reserve_waiter` has already counted the call. The error is chosen afterwards, from a
  -- second load.
  | .chooseError =>
      if q.accepting then some (Move.to q (.returned .queueFull))
      else some (Move.to q (.returned .serviceShuttingDown))
  -- The place is reserved; from here on a `WaitingRequest` is alive.
  | .countQueued => some (Move.to { q with queuedTotal := q.queuedTotal + 1 } .firstPoll)
  | .firstPoll =>
      if q.closed then some (Move.to q (.unwinding .refused))
      else if 0 < q.permits then some (Move.to { q with permits := q.permits - 1 } .acquired)
      else some (Move.atGate q .park (.parked .awaiting))
  | .parked .awaiting =>
      if q.closed then some (Move.to q (.parked .refused))
      else if 0 < q.permits then
        some (Move.atGate { q with permits := q.permits - 1 } .leave .acquired)
      else none
  -- A closed gate refuses also the waiter that was handed the permit before it was
  -- closed.
  | .assigned .awaiting =>
      if q.closed then some (Move.to q (.assigned .refused)) else some (Move.to q .acquired)
  -- Dropping the future of a wait that is over.
  | .parked wake => some (Move.atGate q .leave (.unwinding wake))
  | .assigned wake => some (Move.atGate q .release (.unwinding wake))
  -- `drop(waiting)` comes before the result of the wait is looked at.
  | .unwinding .refused => some (Move.to { q with waiting := q.waiting - 1 } .rejectShutdown)
  | .unwinding .expired => some (Move.to { q with waiting := q.waiting - 1 } .countTimeout)
  | .unwinding _ => some (Move.to { q with waiting := q.waiting - 1 } .cancelled)
  | .acquired => some (Move.to { q with waiting := q.waiting - 1 } .startActive)
  | .startActive => some (Move.to { q with active := q.active + 1 } .startTotal)
  | .startTotal => some (Move.to { q with startedTotal := q.startedTotal + 1 } .running)
  | .dropTotal => some (Move.to { q with completedTotal := q.completedTotal + 1 } .dropGate)
  | .dropGate => some (Move.atGate q .release .completed)
  | .countTimeout => some (Move.count q .timedOut (.returned .queueTimeout))
  | .running | .returned _ | .completed | .cancelled => none

/-- End a wait from outside. -/
def interrupt (q : Queue) (wake : Wake) : Pc → Option Move
  | .parked .awaiting => some (Move.to q (.parked wake))
  | .assigned .awaiting => some (Move.to q (.assigned wake))
  | _ => none

/-- The effect of what happens to a call. -/
def moveOf (q : Queue) : Op → Pc → Option Move
  | .advance, pc => advance q pc
  | .expire, pc => interrupt q .expired pc
  | .cancel, pc => interrupt q .cancelled pc
  | .finish, .running => some (Move.to { q with active := q.active - 1 } .dropTotal)
  | .finish, _ => none

/-- A waiter is handed a permit. -/
def Call.assign (c : Call) : Call :=
  match c.pc with
  | .parked wake => { c with pc := .assigned wake }
  | _ => c

/-- Release a permit: to the oldest waiter, or back into the semaphore. -/
def State.release (s : State) : State :=
  match s.waiters with
  | [] => { s with queue := { s.queue with permits := s.queue.permits + 1 } }
  | w :: waiters => { s with waiters := waiters, calls := s.calls.modify w Call.assign }

/-- Carry out a call's operation. -/
def State.apply (s : State) (i : Nat) (c : Call) (m : Move) : State :=
  let s' := { s with
    queue := m.queue
    calls := s.calls.set i { c with pc := m.pc, counted := c.counted ++ m.counted.toList } }
  -- A release looks at the line after the call itself has moved.
  match m.gate with
  | .keep => s'
  | .release => s'.release
  | .park => { s' with waiters := s.waiters ++ [i] }
  | .leave => { s' with waiters := s.waiters.erase i }

/-- A step of the system: a call begins, something happens to a call, or one of the two
    operations of a `stop_accepting`. -/
inductive Act where
  | begin
  | call (i : Nat) (op : Op)
  | stopStore
  | stopClose
deriving DecidableEq, Repr

/-- One step. -/
def step (s : State) : Act → Option State
  | .begin =>
      some { s with
        calls := s.calls ++ [{ pc := .loadAccepting, counted := [], late := s.stopped }] }
  | .call i op =>
      match s.calls[i]? with
      | none => none
      | some c => (moveOf s.queue op c.pc).map (s.apply i c)
  | .stopStore =>
      some { s with queue := { s.queue with accepting := false }, stopping := s.stopping + 1 }
  | .stopClose =>
      if 0 < s.stopping then
        some { s with queue := { s.queue with closed := true }, waiters := [],
                      stopping := s.stopping - 1, stopped := true }
      else none

/-- The states of every interleaving. -/
def Reachable (maxWaitingRequests : Nat) (s : State) : Prop :=
  Run.Reachable step Run.anyStep (fun s₀ => s₀ = State.new maxWaitingRequests) s

end RequestQueue

end QrtEngine
