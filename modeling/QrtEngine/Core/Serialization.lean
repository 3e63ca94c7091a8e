import Mathlib.Data.List.Basic
import Mathlib.Data.List.Range
import QrtEngine.Library.Run
import QrtEngine.Core.Engine

/-!
# The Ledger of the Requests

The requests of one engine take turns: each holds a critical section while it runs, and beside the
critical section the engine keeps a ledger of who holds it, how deep, and with which ticket. A
request that calls another one enters the critical section again.

The critical section is assumed to do what it is documented to do: it has one owner at a time, and
its owner may enter it again. The guards of a thread are local variables of its calls, so a thread
gives back the guard it took last. The counters are natural numbers. The ledger only compares
counters that move together, so the width of the machine's counters makes no difference, and the
depth is bounded by the stack that holds the guards.

## Main definitions

* `Ledger`: The fields of the ledger.
* `requestSerializationAcquire`, `requestSerializationRelease`: Take and give back a guard.
* `requestSerializationSnapshot`: The check of the ledger.
* `System`, `step`: The threads, the critical section and the ledger, and their steps.

## Theorems

* `step_balanced`: Every step keeps the ledger balanced.
* `serialization_ledger`: What holds in every state that the threads reach.
-/

namespace QrtEngine

namespace Core

namespace Serialization

/-! ## The ledger -/

/-- The number of a thread. No thread has the number zero. -/
abbrev Thread := { id : UInt32 // id ≠ 0 }

/-- The operations that take a guard. -/
inductive Operation where
  | ordinary
  | prefixed
  | prefixFallback
  | prefixReset
  | stream
deriving DecidableEq, Repr

/-- The number of an operation. -/
def Operation.code : Operation → UInt32
  | ordinary => 1
  | prefixed => 2
  | prefixFallback => 3
  | prefixReset => 4
  | stream => 5

/-- The fields of the ledger. -/
structure Ledger where
  initialized : Bool
  ownerThreadId : UInt32
  recursionDepth : Nat
  activeTopLevelCalls : Nat
  maximumActiveTopLevelCalls : Nat
  currentOperation : UInt32
  ticketClock : Nat
  currentTicket : Nat
  lastCompletedTicket : Nat
  acquisitionCount : Nat
  completionCount : Nat
  contendedAcquisitionCount : Nat
  recursiveAcquisitionCount : Nat
  completionOrderViolationCount : Nat
  totalWaitNs : Nat
  maximumWaitNs : Nat
  ordinaryRequestCount : Nat
  prefixRequestCount : Nat
  prefixFallbackRequestCount : Nat
  prefixResetCount : Nat
  streamRequestCount : Nat
deriving DecidableEq, Repr

/-- The ledger of a new engine. -/
def Ledger.created : Ledger :=
  { initialized := true, ownerThreadId := 0, recursionDepth := 0, activeTopLevelCalls := 0
    maximumActiveTopLevelCalls := 0, currentOperation := 0, ticketClock := 0, currentTicket := 0
    lastCompletedTicket := 0, acquisitionCount := 0, completionCount := 0
    contendedAcquisitionCount := 0, recursiveAcquisitionCount := 0
    completionOrderViolationCount := 0, totalWaitNs := 0, maximumWaitNs := 0
    ordinaryRequestCount := 0, prefixRequestCount := 0, prefixFallbackRequestCount := 0
    prefixResetCount := 0, streamRequestCount := 0 }

/-- What a call holds while it is in the critical section. -/
structure Guard where
  ticket : Nat
  locked : Bool
  outermost : Bool
deriving DecidableEq, Repr

/-- Count an operation. One that is not known is a violation. -/
def Ledger.countOperation (ledger : Ledger) (operation : UInt32) : Ledger :=
  if operation = 1 then
    { ledger with ordinaryRequestCount := ledger.ordinaryRequestCount + 1 }
  else if operation = 2 then
    { ledger with prefixRequestCount := ledger.prefixRequestCount + 1 }
  else if operation = 3 then
    { ledger with prefixFallbackRequestCount := ledger.prefixFallbackRequestCount + 1 }
  else if operation = 4 then
    { ledger with prefixResetCount := ledger.prefixResetCount + 1 }
  else if operation = 5 then
    { ledger with streamRequestCount := ledger.streamRequestCount + 1 }
  else
    { ledger with completionOrderViolationCount := ledger.completionOrderViolationCount + 1 }

/-- Note a violation of the order if there is one. -/
def Ledger.noteViolation (ledger : Ledger) (violation : Prop) [Decidable violation] : Ledger :=
  if violation then
    { ledger with completionOrderViolationCount := ledger.completionOrderViolationCount + 1 }
  else ledger

/-- The ledger still says that some request is running. -/
def Ledger.occupied (ledger : Ledger) : Prop :=
  ledger.ownerThreadId ≠ 0 ∨ ledger.recursionDepth ≠ 0 ∨ ledger.activeTopLevelCalls ≠ 0 ∨
    ledger.currentTicket ≠ 0 ∨ ledger.currentOperation ≠ 0

instance (ledger : Ledger) : Decidable ledger.occupied :=
  inferInstanceAs (Decidable (_ ∨ _))

/-- Take a guard, if the critical section was set up. The thread has just entered it: it had to
    wait for it if `contended`, and for `waitNs`. -/
def requestSerializationAcquire (ledger : Ledger) (threadId : UInt32) (operation : UInt32)
    (contended : Bool) (waitNs : Nat) : Option (Ledger × Guard) :=
  if !ledger.initialized then none
  else if ledger.ownerThreadId = threadId ∧ ledger.recursionDepth ≠ 0 then
    -- The guard of a nested call has no ticket.
    some ({ ledger with
        recursionDepth := ledger.recursionDepth + 1
        recursiveAcquisitionCount := ledger.recursiveAcquisitionCount + 1 },
      { ticket := 0, locked := true, outermost := false })
  else
    let ledger := ledger.noteViolation ledger.occupied
    let ticket := ledger.ticketClock + 1
    let ledger :=
      { ledger with
        ownerThreadId := threadId
        recursionDepth := 1
        activeTopLevelCalls := 1
        maximumActiveTopLevelCalls := max ledger.maximumActiveTopLevelCalls 1
        currentOperation := operation
        ticketClock := ticket
        currentTicket := ticket
        acquisitionCount := ledger.acquisitionCount + 1
        contendedAcquisitionCount :=
          ledger.contendedAcquisitionCount + if contended then 1 else 0
        totalWaitNs := ledger.totalWaitNs + waitNs
        maximumWaitNs := max ledger.maximumWaitNs waitNs }
    some (ledger.countOperation operation, { ticket := ticket, locked := true, outermost := true })

/-- The guard is not the one that the ledger expects to be given back. -/
def Ledger.outOfOrder (ledger : Ledger) (guard : Guard) : Prop :=
  ledger.recursionDepth ≠ 1 ∨ ledger.activeTopLevelCalls ≠ 1 ∨
    ledger.currentTicket ≠ guard.ticket ∨ guard.ticket ≠ ledger.lastCompletedTicket + 1

instance (ledger : Ledger) (guard : Guard) : Decidable (ledger.outOfOrder guard) :=
  inferInstanceAs (Decidable (_ ∨ _))

/-- Give back a guard. A guard that holds nothing is ignored; any other leaves the critical
    section. -/
def requestSerializationRelease (ledger : Ledger) (threadId : UInt32) (guard : Guard) :
    Ledger × Bool :=
  if !guard.locked then (ledger, false)
  else if ledger.ownerThreadId ≠ threadId ∨ ledger.recursionDepth = 0 then
    ({ ledger with completionOrderViolationCount := ledger.completionOrderViolationCount + 1 },
      true)
  else if !guard.outermost then
    ({ ledger with recursionDepth := ledger.recursionDepth - 1 }, true)
  else
    let ledger := ledger.noteViolation (ledger.outOfOrder guard)
    ({ ledger with
        completionCount := ledger.completionCount + 1
        lastCompletedTicket := guard.ticket
        ownerThreadId := 0
        recursionDepth := 0
        activeTopLevelCalls := 0
        currentOperation := 0
        currentTicket := 0 }, true)

/-- The sum of the counters of the operations. -/
def Ledger.operationCount (ledger : Ledger) : Nat :=
  ledger.ordinaryRequestCount + ledger.prefixRequestCount + ledger.prefixFallbackRequestCount +
    ledger.prefixResetCount + ledger.streamRequestCount

/-- The snapshot of the ledger: it succeeds when no request is running and the counters agree. -/
def requestSerializationSnapshot (ready : Bool) (ledger : Ledger) : Status :=
  if !ready then .invalidArgument
  else if !ledger.initialized then .unsupported
  else if ledger.activeTopLevelCalls > 1 ∨ ledger.maximumActiveTopLevelCalls > 1 ∨
      ledger.recursionDepth ≠ 0 ∨ ledger.currentOperation ≠ 0 ∨ ledger.currentTicket ≠ 0 ∨
      ledger.completionCount ≠ ledger.acquisitionCount ∨
      ledger.lastCompletedTicket ≠ ledger.ticketClock ∨
      ledger.operationCount ≠ ledger.acquisitionCount then
    .unsupported
  else .ok

/-! ## The threads -/

/-- A critical section: its owner, and how often the owner has entered it beyond the first time. -/
abbrev CriticalSection := Option (Thread × Nat)

/-- The thread may enter: nobody is inside, or the thread itself. -/
def CriticalSection.enter (section_ : CriticalSection) (thread : Thread) :
    Option CriticalSection :=
  match section_ with
  | none => some (some (thread, 0))
  | some (owner, again) => if owner = thread then some (some (owner, again + 1)) else none

/-- The owner leaves. -/
def CriticalSection.leave (section_ : CriticalSection) : CriticalSection :=
  match section_ with
  | some (owner, again + 1) => some (owner, again)
  | _ => none

/-- The engine and the threads that use it. The guards of a thread are those of its calls, the
    innermost first. What was acquired and completed is noted for the statements only. -/
structure System where
  ledger : Ledger
  mutex : CriticalSection
  guards : Thread → List Guard
  acquired : List Nat
  completed : List Nat

/-- Nobody has used the engine yet. -/
def System.created : System :=
  { ledger := Ledger.created, mutex := none, guards := fun _ => [], acquired := []
    completed := [] }

/-- What a thread does. -/
inductive Action where
  | acquire (thread : Thread) (operation : Operation) (contended : Bool) (waitNs : Nat)
  | release (thread : Thread)

/-- The ticket of a guard, if it has one. -/
def Guard.tickets (guard : Guard) : List Nat := if guard.outermost then [guard.ticket] else []

/-- One step of a thread. A thread that has to wait for the critical section takes no step. -/
def step (system : System) : Action → Option System
  | .acquire thread operation contended waitNs =>
      (system.mutex.enter thread).bind fun mutex =>
        (requestSerializationAcquire system.ledger thread.val operation.code contended
          waitNs).map fun taken =>
            { ledger := taken.1
              mutex := mutex
              guards := Function.update system.guards thread (taken.2 :: system.guards thread)
              acquired := system.acquired ++ taken.2.tickets
              completed := system.completed }
  | .release thread =>
      match system.guards thread with
      | [] => none
      | guard :: guards =>
          let given := requestSerializationRelease system.ledger thread.val guard
          some
            { ledger := given.1
              mutex := if given.2 then system.mutex.leave else system.mutex
              guards := Function.update system.guards thread guards
              acquired := system.acquired
              completed := system.completed ++ guard.tickets }

/-- The states that the threads reach. -/
def Reachable : System → Prop := Run.Reachable step Run.anyStep (· = System.created)

/-! ## The balance of the ledger -/

/-- The guard of a call that another call of the same thread has made. -/
def nestedGuard : Guard := { ticket := 0, locked := true, outermost := false }

/-- The guard of a request. -/
def outermostGuard (ticket : Nat) : Guard := { ticket := ticket, locked := true, outermost := true }

/-- No request is running. -/
structure Idle (system : System) : Prop where
  mutex : system.mutex = none
  guards : ∀ thread, system.guards thread = []
  owner : system.ledger.ownerThreadId = 0
  depth : system.ledger.recursionDepth = 0
  active : system.ledger.activeTopLevelCalls = 0
  ticket : system.ledger.currentTicket = 0
  operation : system.ledger.currentOperation = 0
  completion : system.ledger.completionCount = system.ledger.acquisitionCount
  last : system.ledger.lastCompletedTicket = system.ledger.ticketClock

/-- A thread runs the request with the last ticket, with some calls nested in it. -/
structure Held (system : System) (thread : Thread) (nested : Nat) : Prop where
  mutex : system.mutex = some (thread, nested)
  guards : system.guards thread =
    List.replicate nested nestedGuard ++ [outermostGuard system.ledger.ticketClock]
  others : ∀ other, other ≠ thread → system.guards other = []
  owner : system.ledger.ownerThreadId = thread.val
  depth : system.ledger.recursionDepth = nested + 1
  active : system.ledger.activeTopLevelCalls = 1
  ticket : system.ledger.currentTicket = system.ledger.ticketClock
  completion : system.ledger.completionCount + 1 = system.ledger.acquisitionCount
  last : system.ledger.lastCompletedTicket + 1 = system.ledger.ticketClock

/-- The ledger agrees with the critical section and with the guards of the threads, and its
    counters with each other. -/
structure Balanced (system : System) : Prop where
  initialized : system.ledger.initialized = true
  violations : system.ledger.completionOrderViolationCount = 0
  operations : system.ledger.operationCount = system.ledger.acquisitionCount
  clock : system.ledger.ticketClock = system.ledger.acquisitionCount
  maximum : system.ledger.maximumActiveTopLevelCalls ≤ 1
  acquired : system.acquired = List.range' 1 system.ledger.ticketClock
  completed : system.completed = List.range' 1 system.ledger.lastCompletedTicket
  holder : Idle system ∨ ∃ thread nested, Held system thread nested

theorem created_balanced : Balanced System.created :=
  { initialized := rfl
    violations := rfl
    operations := rfl
    clock := rfl
    maximum := Nat.zero_le 1
    acquired := rfl
    completed := rfl
    holder := Or.inl ⟨rfl, fun _ => rfl, rfl, rfl, rfl, rfl, rfl, rfl, rfl⟩ }

/-- The ledger of a request that has just begun. -/
structure Opened (ledger : Ledger) (thread : Thread) (opened : Ledger) : Prop where
  initialized : opened.initialized = ledger.initialized
  violations : opened.completionOrderViolationCount = ledger.completionOrderViolationCount
  operations : opened.operationCount = ledger.operationCount + 1
  clock : opened.ticketClock = ledger.ticketClock + 1
  maximum : opened.maximumActiveTopLevelCalls = max ledger.maximumActiveTopLevelCalls 1
  acquisition : opened.acquisitionCount = ledger.acquisitionCount + 1
  completion : opened.completionCount = ledger.completionCount
  last : opened.lastCompletedTicket = ledger.lastCompletedTicket
  owner : opened.ownerThreadId = thread.val
  depth : opened.recursionDepth = 1
  active : opened.activeTopLevelCalls = 1
  ticket : opened.currentTicket = ledger.ticketClock + 1

/-- Counting a known operation adds one to the sum. -/
theorem operationCount_countOperation (ledger : Ledger) (operation : Operation) :
    (ledger.countOperation operation.code).operationCount = ledger.operationCount + 1 := by
  cases operation
  all_goals
    simp only [Ledger.countOperation, Operation.code, Ledger.operationCount]
    simp
    omega

/-- A thread that finds the ledger free opens it. -/
theorem acquire_of_free (ledger : Ledger) (thread : Thread) (operation : Operation)
    (contended : Bool) (waitNs : Nat) (hinitialized : ledger.initialized = true)
    (hfree : ¬ledger.occupied) :
    ∃ opened, requestSerializationAcquire ledger thread.val operation.code contended waitNs =
        some (opened, outermostGuard (ledger.ticketClock + 1)) ∧ Opened ledger thread opened := by
  have hdepth : ledger.recursionDepth = 0 := by
    unfold Ledger.occupied at hfree
    simp only [not_or, not_not] at hfree
    exact hfree.2.1
  unfold requestSerializationAcquire
  rw [if_neg (by simp [hinitialized]), if_neg (fun h => h.2 hdepth)]
  dsimp only
  have hnote : ledger.noteViolation ledger.occupied = ledger := if_neg hfree
  rw [hnote]
  refine ⟨_, rfl, ?_⟩
  -- Counting the operation touches one counter only.
  cases operation
  all_goals exact
    { initialized := rfl
      violations := rfl
      operations := operationCount_countOperation _ _
      clock := rfl
      maximum := rfl
      acquisition := rfl
      completion := rfl
      last := rfl
      owner := rfl
      depth := rfl
      active := rfl
      ticket := rfl }

/-! ## Steps -/

/-- A request begins. -/
theorem acquire_idle (system : System) (h : Balanced system) (hidle : Idle system)
    (thread : Thread) (operation : Operation) (contended : Bool) (waitNs : Nat)
    (system' : System)
    (hstep : step system (.acquire thread operation contended waitNs) = some system') :
    Balanced system' := by
  have hfree : ¬system.ledger.occupied := by
    simp [Ledger.occupied, hidle.owner, hidle.depth, hidle.active, hidle.ticket, hidle.operation]
  rcases acquire_of_free system.ledger thread operation contended waitNs h.initialized hfree with
    ⟨opened, htaken, hopened⟩
  simp only [step, hidle.mutex, CriticalSection.enter, htaken, Option.bind_some,
    Option.map_some, Option.some.injEq] at hstep
  subst hstep
  have hlast := hidle.last
  have hcompletion := hidle.completion
  -- The clock and the count go up together, and the new ticket is the last one acquired.
  refine ⟨?_, ?_, ?_, ?_, ?_, ?_, ?_, Or.inr ⟨thread, 0, ?_⟩⟩
  · exact hopened.initialized.trans h.initialized
  · exact hopened.violations.trans h.violations
  · dsimp only
    rw [hopened.operations, hopened.acquisition, h.operations]
  · dsimp only
    rw [hopened.clock, hopened.acquisition, h.clock]
  · dsimp only
    rw [hopened.maximum]
    exact Nat.max_le.mpr ⟨h.maximum, Nat.le_refl 1⟩
  · dsimp only
    rw [hopened.clock, h.acquired, List.range'_1_concat, Nat.add_comm 1]
    rfl
  · dsimp only
    rw [hopened.last]
    exact h.completed
  · -- The thread holds one guard with that ticket, and no other thread holds any.
    refine ⟨rfl, ?_, ?_, hopened.owner, hopened.depth, hopened.active, ?_, ?_, ?_⟩
    · dsimp only
      rw [Function.update_self, hidle.guards, hopened.clock]
      rfl
    · intro other hother
      dsimp only
      rw [Function.update_of_ne hother]
      exact hidle.guards other
    · exact hopened.ticket.trans hopened.clock.symm
    · dsimp only
      rw [hopened.completion, hopened.acquisition, hcompletion]
    · dsimp only
      rw [hopened.last, hopened.clock, hlast]

/-- The thread that runs a request calls another. -/
theorem acquire_held (system : System) (h : Balanced system) (owner : Thread) (nested : Nat)
    (hheld : Held system owner nested) (thread : Thread) (operation : Operation)
    (contended : Bool) (waitNs : Nat) (system' : System)
    (hstep : step system (.acquire thread operation contended waitNs) = some system') :
    Balanced system' := by
  -- The mutex is recursive: the same thread enters again, and only the depth changes.
  by_cases hthread : owner = thread
  · subst hthread
    have hagain : system.ledger.ownerThreadId = owner.val ∧ system.ledger.recursionDepth ≠ 0 := by
      refine ⟨hheld.owner, ?_⟩
      rw [hheld.depth]
      omega
    simp only [step, hheld.mutex, CriticalSection.enter, if_true, requestSerializationAcquire,
      h.initialized, Bool.not_true, Bool.false_eq_true, if_false, if_pos hagain,
      Option.bind_some, Option.map_some, Option.some.injEq] at hstep
    subst hstep
    refine ⟨rfl, h.violations, h.operations, h.clock, h.maximum, ?_, h.completed,
      Or.inr ⟨owner, nested + 1, ?_⟩⟩
    · -- The guard of a nested call has no ticket.
      simpa [Guard.tickets] using h.acquired
    · refine ⟨rfl, ?_, ?_, hheld.owner, ?_, hheld.active, hheld.ticket, hheld.completion,
        hheld.last⟩
      · dsimp only
        rw [Function.update_self, hheld.guards, List.replicate_succ]
        rfl
      · intro other hother
        dsimp only
        rw [Function.update_of_ne hother]
        exact hheld.others other hother
      · dsimp only
        rw [hheld.depth]
  · -- Another thread waits.
    simp only [step, hheld.mutex, CriticalSection.enter, if_neg hthread, Option.bind_none,
      reduceCtorEq] at hstep

/-- A call of the running request, or the request itself, is over. -/
theorem release_held (system : System) (h : Balanced system) (owner : Thread) (nested : Nat)
    (hheld : Held system owner nested) (thread : Thread) (system' : System)
    (hstep : step system (.release thread) = some system') : Balanced system' := by
  by_cases hthread : thread = owner
  · subst hthread
    have hmine : ¬(system.ledger.ownerThreadId ≠ thread.val ∨
        system.ledger.recursionDepth = 0) := by
      rw [hheld.owner, hheld.depth]
      simp
    cases nested with
    | zero =>
        -- The guard is the one with the ticket, and the ledger expects it.
        have hguards : system.guards thread = [outermostGuard system.ledger.ticketClock] :=
          hheld.guards
        have horder : ¬system.ledger.outOfOrder (outermostGuard system.ledger.ticketClock) := by
          simp [Ledger.outOfOrder, outermostGuard, hheld.depth, hheld.active, hheld.ticket,
            hheld.last]
        have hnote : system.ledger.noteViolation (system.ledger.outOfOrder
            (outermostGuard system.ledger.ticketClock)) = system.ledger := if_neg horder
        simp only [step, hguards, requestSerializationRelease, if_neg hmine, hnote,
          Option.some.injEq] at hstep
        simp only [outermostGuard, Bool.not_true, Bool.false_eq_true, if_false] at hstep
        subst hstep
        refine ⟨h.initialized, h.violations, h.operations, h.clock, h.maximum, h.acquired, ?_,
          Or.inl ?_⟩
        · dsimp only
          rw [h.completed, ← hheld.last, List.range'_1_concat, Nat.add_comm 1]
          rfl
        · refine ⟨?_, ?_, rfl, rfl, rfl, rfl, rfl, hheld.completion, rfl⟩
          · simp [hheld.mutex, CriticalSection.leave]
          · intro other
            dsimp only
            by_cases hother : other = thread
            · rw [hother, Function.update_self]
            · rw [Function.update_of_ne hother]
              exact hheld.others other hother
    | succ nested =>
        have hguards : system.guards thread = nestedGuard :: (List.replicate nested nestedGuard ++
            [outermostGuard system.ledger.ticketClock]) := hheld.guards
        simp only [step, hguards, requestSerializationRelease, if_neg hmine,
          Option.some.injEq] at hstep
        simp only [nestedGuard, Bool.not_true, Bool.not_false, Bool.false_eq_true, if_false,
          if_true] at hstep
        subst hstep
        refine ⟨h.initialized, h.violations, h.operations, h.clock, h.maximum, h.acquired, ?_,
          Or.inr ⟨thread, nested, ?_⟩⟩
        · simpa [Guard.tickets] using h.completed
        · refine ⟨?_, ?_, ?_, hheld.owner, ?_, hheld.active, hheld.ticket, hheld.completion,
            hheld.last⟩
          · simp [hheld.mutex, CriticalSection.leave]
          · exact Function.update_self _ _ _
          · intro other hother
            dsimp only
            rw [Function.update_of_ne hother]
            exact hheld.others other hother
          · dsimp only
            rw [hheld.depth]
            rfl
  · -- A thread that holds no guard has nothing to give back.
    simp only [step, hheld.others thread hthread, reduceCtorEq] at hstep

/-- Every step keeps the ledger balanced. -/
theorem step_balanced (system : System) (action : Action) (system' : System)
    (h : Balanced system) (hstep : step system action = some system') : Balanced system' := by
  rcases h.holder with hidle | ⟨owner, nested, hheld⟩
  · cases action with
    | acquire thread operation contended waitNs =>
        exact acquire_idle system h hidle thread operation contended waitNs system' hstep
    | release thread => simp only [step, hidle.guards thread, reduceCtorEq] at hstep
  · cases action with
    | acquire thread operation contended waitNs =>
        exact acquire_held system h owner nested hheld thread operation contended waitNs system'
          hstep
    | release thread => exact release_held system h owner nested hheld thread system' hstep

theorem reachable_balanced (system : System) (h : Reachable system) : Balanced system := by
  refine Run.Reachable.invariant Balanced ?_ ?_ h
  · rintro s rfl
    exact created_balanced
  · intro s action s' hs _ hstep
    exact step_balanced s action s' hs hstep

/-! ## The results -/

/-- The requests a thread runs. -/
def System.requests (system : System) (thread : Thread) : Nat :=
  (system.guards thread).countP Guard.outermost

/-- At most one request is running: no thread runs two, and no two threads run one each. -/
def System.exclusive (system : System) : Prop :=
  (∀ thread, system.requests thread ≤ 1) ∧
    ∀ thread other, 0 < system.requests thread → 0 < system.requests other → thread = other

theorem balanced_exclusive (system : System) (h : Balanced system) : system.exclusive := by
  -- The outermost guard is the only one that counts as a request, and one thread has it.
  rcases h.holder with hidle | ⟨owner, nested, hheld⟩
  · have hnone : ∀ thread, system.requests thread = 0 := by
      intro thread
      rw [System.requests, hidle.guards]
      rfl
    refine ⟨?_, ?_⟩
    · intro thread
      rw [hnone]
      exact Nat.zero_le 1
    · intro thread other hthread
      rw [hnone] at hthread
      exact absurd hthread (by simp)
  · have howner : system.requests owner = 1 := by
      rw [System.requests, hheld.guards, List.countP_append, List.countP_replicate]
      rfl
    have hothers : ∀ other, other ≠ owner → system.requests other = 0 := by
      intro other hother
      rw [System.requests, hheld.others other hother]
      rfl
    have hrunning : ∀ thread, 0 < system.requests thread → thread = owner := by
      intro thread hthread
      by_contra hne
      rw [hothers thread hne] at hthread
      exact absurd hthread (by simp)
    refine ⟨?_, ?_⟩
    · intro thread
      by_cases hthread : thread = owner
      · rw [hthread, howner]
      · rw [hothers thread hthread]
        exact Nat.zero_le 1
    · intro thread other hthread hother
      rw [hrunning thread hthread, hrunning other hother]

/-- In every state that the threads reach, at most one request is running, the tickets are
    completed in the order in which they were acquired, and the order is not violated; and when no
    request is running, the counters agree and the snapshot succeeds. -/
theorem serialization_ledger (system : System) (h : Reachable system) :
    system.exclusive ∧ system.ledger.activeTopLevelCalls ≤ 1 ∧
      system.ledger.maximumActiveTopLevelCalls ≤ 1 ∧
      system.acquired = List.range' 1 system.acquired.length ∧
      system.completed <+: system.acquired ∧
      system.ledger.completionOrderViolationCount = 0 ∧
      ((∀ thread, system.requests thread = 0) →
        system.ledger.completionCount = system.ledger.acquisitionCount ∧
        system.ledger.lastCompletedTicket = system.ledger.ticketClock ∧
        system.ledger.operationCount = system.ledger.acquisitionCount ∧
        system.completed = system.acquired ∧
        requestSerializationSnapshot true system.ledger = .ok) := by
  have hbalanced := reachable_balanced system h
  have hlength : system.acquired.length = system.ledger.ticketClock := by
    rw [hbalanced.acquired, List.length_range']
  have hlast : system.ledger.lastCompletedTicket ≤ system.ledger.ticketClock := by
    rcases hbalanced.holder with hidle | ⟨owner, nested, hheld⟩
    · exact Nat.le_of_eq hidle.last
    · have := hheld.last
      omega
  have hactive : system.ledger.activeTopLevelCalls ≤ 1 := by
    rcases hbalanced.holder with hidle | ⟨owner, nested, hheld⟩
    · rw [hidle.active]
      exact Nat.zero_le 1
    · exact Nat.le_of_eq hheld.active
  have horder : system.completed <+: system.acquired := by
    rw [hbalanced.completed, hbalanced.acquired]
    -- Tickets are numbered in the order of their acquisition, so a shorter list is a front.
    rcases Nat.le.dest hlast with ⟨running, hclock⟩
    exact ⟨_, by rw [← hclock, ← List.range'_append_1]⟩
  refine ⟨balanced_exclusive system hbalanced, hactive, hbalanced.maximum, ?_, horder,
    hbalanced.violations, ?_⟩
  · rw [hlength]
    exact hbalanced.acquired
  · intro hnone
    rcases hbalanced.holder with hidle | ⟨owner, nested, hheld⟩
    · refine ⟨hidle.completion, hidle.last, hbalanced.operations, ?_, ?_⟩
      · rw [hbalanced.completed, hbalanced.acquired, hidle.last]
      · have hmaximum := hbalanced.maximum
        have hoperations := hbalanced.operations
        simp only [requestSerializationSnapshot, hbalanced.initialized, hidle.active, hidle.depth,
          hidle.operation, hidle.ticket, hidle.completion, hidle.last, hoperations]
        simp
        omega
    · -- A request that is running has its guard.
      have howner := hnone owner
      rw [System.requests, hheld.guards, List.countP_append] at howner
      simp [outermostGuard] at howner

/-- A thread that seeds a prefix: its request calls an ordinary one. -/
def seedingActions : List Action :=
  [.acquire ⟨7, by decide⟩ .prefixFallback false 0, .acquire ⟨7, by decide⟩ .ordinary false 0,
    .release ⟨7, by decide⟩, .release ⟨7, by decide⟩]

/-- The ledger after a request that seeds a prefix passes its checks. -/
theorem seeding_snapshot :
    ∃ system, Run.runs step System.created seedingActions = some system ∧
      system.ledger.completionCount = 1 ∧ system.ledger.recursiveAcquisitionCount = 1 ∧
      requestSerializationSnapshot true system.ledger = .ok := by
  refine ⟨_, rfl, rfl, rfl, ?_⟩
  refine ((serialization_ledger _ ⟨_, rfl, Run.reaches_of_runs _ _ seedingActions rfl⟩).2.2.2.2.2.2
    ?_).2.2.2.2
  intro thread
  by_cases hthread : thread = ⟨7, by decide⟩
  · subst hthread
    rfl
  · simp [System.requests, Function.update, hthread, System.created]

end Serialization

end Core

end QrtEngine
