import Nosv.Ext.Reentrancy
import Nosv.Runtime.Core

/-!
# Which mutexes are held where

Every public operation and every native callback as the sequence of the mutexes that it takes and
releases and of the user code that it calls, on each of its paths. Guards are scoped as in the
source: what a function declares after a guard is dropped before it, on early returns as well. What
decides between paths (results of native calls, what is found under a mutex) is an argument.

User code is what a function is given to run: the iterator of a submission, the destructors of
futures and outputs, wakers, the polls of futures, and queries. The clone and drop functions of
wakers and the destructor of the iterator are not called back here.
-/

namespace Nosv.Locks

open Reentrancy
open Reentrancy.Prog (guarded owning each times)
open Nosv.Runtime (SpawnNative TaskId)

/-! ## Mutexes and user code -/

/-- Which submission, timer, owned operation, parker or lane a mutex belongs to. -/
abbrev Key := ℕ

/-- The mutexes of a runtime. -/
inductive Mutex where
  /-- `RuntimeCore::state` -/
  | runtimeState
  /-- `TaskCore::native` -/
  | taskGate (task : TaskId)
  /-- `JoinState::inner` -/
  | join (task : TaskId)
  /-- `Runnable::future` -/
  | future (task : TaskId)
  /-- `Parker::gate` -/
  | parker (key : Key)
  /-- `IoUringDriver::data` -/
  | driverData
  | ring
  /-- `IoUringDriver::gate` -/
  | driverGate
  | ownedAdmission
  /-- `IoUringDriver::completed` -/
  | driverCompleted
  /-- `SubmissionState::inner` -/
  | submission (key : Key)
  /-- `OwnedState::result` -/
  | result (key : Key)
  /-- `OwnedControl::waker` -/
  | waker (key : Key)
  /-- `read_ready` or `write_ready` of a stream. -/
  | lane (key : Key)
  /-- `TimerDriver::data` -/
  | timerHeap
  | timerState (key : Key)
  /-- `TimerDriver::gate` -/
  | timerGate
  /-- `TimerDriver::completed` -/
  | timerCompleted
  deriving DecidableEq, Repr

/-- User code. -/
inductive Site where
  /-- `Iterator::next` of a submission. -/
  | next
  | dropFuture
  | dropOutput
  | wake
  /-- `Future::poll` -/
  | poll
  /-- The closure of `with_current`. -/
  | query
  deriving DecidableEq, Repr

/-- A path through a function. -/
abbrev Path := Prog Mutex Site

/-- A critical section without user code. -/
def critical (m : Mutex) : Path := guarded m .done

/-- A section that waits on a condition variable `n` times, which releases the mutex each time. -/
def waiting (m : Mutex) (n : ℕ) : Path := times (n + 1) (critical m)

/-- A batch of wakers, outside all mutexes of the function. -/
def wakeWaiters (n : ℕ) : Path := times n (.call .wake)

/-! ## Runtime and tasks -/

/-- `RuntimeCore::ensure_running`, and the queries that read the lifecycle under its mutex. -/
def ensureRunning (forked : Bool) : Path := if forked then .done else critical .runtimeState

/-- `TaskCore::schedule` and `TaskCore::request_abort`; `gone` when there is no runtime of this
process. -/
def schedule (gone : Bool) (task : TaskId) : Path :=
  if gone then .done else critical (.taskGate task)

/-- `spawn_on`. The future is an argument, which outlives every guard, until it has moved into the
owner, which is declared after the guard of the runtime state. -/
def spawnOn (rejected running : Bool) (native : SpawnNative) (task : TaskId) : Path :=
  if rejected then owning .dropFuture .done
  else if !running then owning .dropFuture (critical .runtimeState)
  else
    guarded .runtimeState <|
      match native.create, native.metadata with
      | .error _, _ | .ok _, .error _ => owning .dropFuture .done
      | .ok _, .ok () =>
        critical (.taskGate task) ++ critical (.taskGate task) ++
          match native.submit with
          | .ok () => .done
          -- the owner is dropped with the gate locked
          | .error _ => guarded (.taskGate task) (.call .dropFuture)

/-- `Runtime::try_block_on`: the checks of owner thread and process, that of the lifecycle and those
of the attachment, and then polls until one is ready. -/
def tryBlockOn (rejected attached : Bool) (parker : Key) (polls : ℕ) : Path :=
  owning .dropFuture <|
    if rejected then .done
    else critical .runtimeState ++
      if attached then
        times polls (critical (.parker parker) ++ .call .poll) ++
          critical (.parker parker)
      else .done

/-- `JoinState::store` -/
def store (task : TaskId) : Path := critical (.join task)

/-- `Runnable::take_and_drop_future` -/
def takeAndDropFuture (task : TaskId) : Path := critical (.future task) ++ .call .dropFuture

/-- How `run_once` ends. -/
inductive RunEnd where
  /-- An abort was pending at its start. -/
  | cancelledEarly
  | runtimeGone
  | suspended
  /-- An abort has raced a poll that returned `Pending`. -/
  | cancelled
  | suspendFailed
  /-- An abort has raced a poll that returned `Ready`. -/
  | readyLost
  | ready
  /-- The destructor of the future has panicked. -/
  | readyDropPanicked
  | panicked
  deriving DecidableEq, Repr

/-- `Runnable::run_once` -/
def runOnce (task : TaskId) (how : RunEnd) : Path :=
  let gate := critical (.taskGate task)
  let polled := gate ++ guarded (.future task) (.call .poll) ++ gate
  let dropped := takeAndDropFuture task
  match how with
  | .cancelledEarly => gate ++ dropped ++ store task
  | .runtimeGone => gate ++ gate ++ dropped ++ store task
  | .suspended => polled
  | .cancelled => polled ++ dropped ++ store task
  | .suspendFailed => polled ++ gate ++ dropped ++ store task
  | .readyLost => polled ++ dropped ++ .call .dropOutput ++ store task
  | .ready => polled ++ dropped ++ store task
  | .readyDropPanicked => polled ++ dropped ++ gate ++ .call .dropOutput ++ store task
  | .panicked => polled ++ dropped ++ store task

/-- `completed_callback` of a task: `output` when the result stored is one, `waiter` when a join
waits for it, `detached` when the join handle is gone and the owner drops the result. -/
def taskCompletedCallback (task : TaskId) (destroy : Status) (output waiter detached gone : Bool) :
    Path :=
  critical (.taskGate task) ++
    match destroy with
    -- `force_native_error` replaces the result under the mutex, and the process aborts
    | .error _ => guarded (.join task) (if output then .call .dropOutput else .done)
    | .ok () =>
      critical (.join task) ++ wakeWaiters (if waiter then 1 else 0) ++
        (if output && detached then .call .dropOutput else .done) ++
        if gone then .done else critical .runtimeState

/-- Drop of a `JoinHandle`; `output` when it is the last to hold a result that is an output. -/
def joinDrop (output : Bool) : Path := if output then .call .dropOutput else .done

/-- `with_current` -/
def withCurrent (inTask : Bool) : Path := if inTask then .call .query else .done

/-- `YieldNow::poll` -/
def yieldPoll (yielded : Bool) : Path := if yielded then .done else .call .wake

/-! ## The ring -/

/-- `IoUringDriver::notify` -/
def notify : Path := critical .driverGate

/-- `IoUringHandle::submit_entries`; `gone` when the runtime core is. -/
def submitEntries (key : Key) (gone forked running : Bool) : Path :=
  critical .driverData ++ (if gone then .done else ensureRunning forked) ++
    if gone || forked || !running then critical (.submission key) else .done

/-- `IoUringDriver::request_cancel`; `targets` when there are originals to cancel. -/
def requestCancel (key : Key) (targets : Bool) : Path :=
  critical (.submission key) ++
    guarded .driverData (if targets then critical (.submission key) else .done) ++ notify

/-- `IoUringDriver::request_owned_cancel` -/
def requestOwnedCancel : Path := critical .driverData ++ notify

/-- `submit_staged`, with the submissions of the originals accepted. -/
def submitStaged (accepted : List Key) : Path :=
  each accepted fun key => critical (.submission key)

/-- One turn of the loop of `admit`. -/
inductive Turn where
  /-- The iterator has ended. -/
  | finished
  /-- There is no room for the SQE. -/
  | full
  | pushed
  deriving DecidableEq, Repr

/-- The loop of `admit`; `pending` when an SQE is left of the turn before, so that the iterator is
not asked. A loop without a last turn is one in which the iterator panics. -/
def admitLoop (key : Key) : Bool → List Turn → Path
  | pending, [] => if pending then .done else .call .next
  | pending, turn :: turns =>
    (if pending then .done else .call .next) ++
      match turn with
      | .finished => critical (.submission key)
      | .full => .done
      | .pushed => critical (.submission key) ++ admitLoop key false turns

/-- What `admit` finds. -/
structure Admission where
  accepting : Bool
  /-- Owned operations wait, and go first. -/
  owned : Bool
  /-- Originals are there to cancel, when admission is closed. -/
  targets : Bool
  /-- An SQE did not fit before. -/
  pending : Bool
  turns : List Turn
  accepted : List Key
  wakes : ℕ
  deriving DecidableEq, Repr

/-- The loop is reached. -/
def Admission.admits (a : Admission) : Bool := a.accepting && !a.owned

/-- The loop asks the iterator: at once, or when the SQE that is left has found room. -/
def Admission.pulls (a : Admission) : Bool :=
  a.admits && (!a.pending || a.turns.head? == some .pushed)

/-- The loop has no last turn, because the iterator panics. -/
def Admission.panics (a : Admission) : Bool :=
  a.admits && (a.turns.getLast? == none || a.turns.getLast? == some .pushed)

/-- An SQE was pushed or is left. -/
def Admission.notifies (a : Admission) : Bool := a.turns.any (· != .finished)

/-- `IoUringDriver::admit` -/
def admitEntries (key : Key) (a : Admission) : Path :=
  if !a.accepting then critical .driverData ++ requestCancel key a.targets
  else if a.owned then critical .driverData ++ notify
  else if a.panics then guarded .driverData (guarded .ring (admitLoop key a.pending a.turns))
  else
    guarded .driverData (guarded .ring (admitLoop key a.pending a.turns ++ submitStaged a.accepted))
      ++ wakeWaiters a.wakes ++ if a.notifies then notify else .done

/-- How a poll of `SubmitEntries` ends. -/
inductive SubmitEnd where
  | failed (targets : Bool)
  | admitted
  | pending
  deriving DecidableEq, Repr

/-- The end of a poll, after the submission was looked at. -/
def SubmitEnd.program (key : Key) : SubmitEnd → Path
  | .failed targets => requestCancel key targets
  | .admitted => .done
  | .pending => notify

/-- `SubmitEntries::poll` -/
def submitPoll (key : Key) (closed : Bool) (a : Admission) (how : SubmitEnd) : Path :=
  (if closed then .done else admitEntries key a) ++
    if !closed && a.panics then .done
    else critical (.submission key) ++ how.program key

/-! ## Owned operations and readiness lanes -/

/-- `OwnedHandler::complete` and `OwnedHandler::fail`, which return the waker. -/
def finish (key : Key) : Path := critical (.result key) ++ critical (.waker key)

/-- How far the first poll of an operation gets. -/
inductive Enqueue where
  /-- It was queued before. -/
  | queued
  /-- The runtime is closed or the driver refuses; the poll fails the handler and wakes who was
  registered. -/
  | refused (forked running : Bool) (wakes : ℕ)
  | accepted
  deriving DecidableEq, Repr

/-- `OwnedOp::poll` up to its first look at the flag. -/
def enqueue (key : Key) : Enqueue → Path
  | .queued => .done
  | .refused forked running wakes =>
    ensureRunning forked ++ (if !forked && running then critical .ownedAdmission else .done) ++
      finish key ++ wakeWaiters wakes
  | .accepted => ensureRunning false ++ critical .ownedAdmission ++ notify

/-- When a poll sees the flag. -/
inductive Seen where
  | first
  | second
  | never
  deriving DecidableEq, Repr

/-- `OwnedOp::poll` -/
def ownedPoll (key : Key) (how : Enqueue) (seen : Seen) : Path :=
  enqueue key how ++
    match seen with
    | .first => critical (.result key)
    | .second => critical (.waker key) ++ critical (.result key)
    | .never => critical (.waker key)

/-- Drop of an `OwnedOp`; `live` when it is queued and not done. -/
def ownedDrop (live : Bool) : Path := if live then requestOwnedCancel else .done

/-- The enqueue of a readiness operation. Only a first poll fails the handler, and no waker is
registered before it, which is `Nosv.Io.waker_eq_none_of_unqueued`. -/
def Enqueue.silent : Enqueue → Enqueue
  | .refused forked running _ => .refused forked running 0
  | how => how

/-- `poll_read` and `poll_write`, with the polls of their lane. -/
def streamPoll (lane : Key) (polls : List (Key × Enqueue × Seen)) : Path :=
  each polls fun (key, how, seen) => guarded (.lane lane) (ownedPoll key how.silent seen)

/-! ## Timers -/

/-- `TimerDriver::notify` -/
def timerNotify : Path := critical .timerGate

/-- `TimerDriver::register` -/
def register (key : Key) (shutdown : Bool) : Path :=
  if shutdown then guarded .timerHeap (critical (.timerState key))
  else critical .timerHeap ++ timerNotify

/-- `Sleep::poll`: `ready` or bound to a driver, or bound now. -/
def sleepPoll (key : Key) (ready bound forked running shutdown : Bool) : Path :=
  critical (.timerState key) ++
    if ready || bound then .done
    else ensureRunning forked ++ if !forked && running then register key shutdown else .done

/-- Drop of a `Sleep`. -/
def sleepDrop (key : Key) (bound : Bool) : Path :=
  critical (.timerState key) ++ if bound then timerNotify else .done

/-- `Timeout::poll`, of which the operation is polled first. -/
def timeoutPoll (key : Key) (done ready bound forked running shutdown : Bool) : Path :=
  .call .poll ++ if done then .done else sleepPoll key ready bound forked running shutdown

/-- Drop of a `Timeout`: its fields in the order of their declaration. -/
def timeoutDrop (key : Key) (bound : Bool) : Path := .call .dropFuture ++ sleepDrop key bound

/-- `TimerDriver::shutdown_and_wait` -/
def timerShutdown (waits : ℕ) : Path :=
  critical .timerHeap ++ timerNotify ++ waiting .timerCompleted waits

/-- One turn of `TimerDriver::run`: the entries looked at, the wakers taken, and whether it stops or
parks. -/
def timerRun (entries : List Key) (wakes : ℕ) (stops parks : Bool) : Path :=
  guarded .timerHeap (each entries fun key => critical (.timerState key)) ++
    wakeWaiters wakes ++ critical .timerHeap ++ critical .timerGate ++
    if !stops && parks then critical .timerGate else .done

/-- `TimerDriver::retire`, in the completed callback. -/
def timerRetire : Path := critical .timerGate ++ critical .timerCompleted

/-! ## The ring driver -/

/-- `IoUringDriver::shutdown_and_wait`, with the submissions and owned operations it cancels. -/
def driverShutdown (submissions : List (Key × Bool)) (owned waits : ℕ) : Path :=
  critical .ownedAdmission ++ critical .driverData ++
    each submissions (fun (key, targets) => requestCancel key targets) ++
    times owned requestOwnedCancel ++ notify ++
    waiting .driverCompleted waits

/-- `Runtime::shutdown_inner`: it refuses, finds the runtime closed, or closes it with its tasks and
drivers. -/
structure Closing where
  rejected : Bool
  closed : Bool
  tasks : List TaskId
  submissions : List (Key × Bool)
  owned : ℕ
  tasksWait : ℕ
  ringWait : ℕ
  timerWait : ℕ
  /-- Destroying the type of the ring driver has failed. -/
  ringFailed : Bool
  /-- Destroying one of the other types or shutting nOS-V down has failed. -/
  failed : Bool
  deriving DecidableEq, Repr

/-- `Runtime::shutdown_inner` -/
def shutdown (c : Closing) : Path :=
  if c.rejected then .done
  else if c.closed then critical .runtimeState
  else
    critical .runtimeState ++ each c.tasks (schedule false) ++ waiting .runtimeState c.tasksWait ++
      driverShutdown c.submissions c.owned c.ringWait ++
      if c.ringFailed then .done
      else timerShutdown c.timerWait ++ if c.failed then .done else critical .runtimeState

/-- A CQE. -/
inductive Cqe where
  /-- Of a raw original or of its cancellation. -/
  | raw (key : Key)
  /-- Of an owned operation. -/
  | owned (key : Key)
  | ownedCancel
  deriving DecidableEq, Repr

/-- `IoUringDriver::dispatch` -/
def dispatch : Cqe → Path
  | .raw key => critical .driverData ++ guarded .driverData (critical (.submission key))
  | .owned key => critical .driverData ++ critical .driverData ++ finish key
  | .ownedCancel => critical .driverData ++ critical .driverData

/-- One turn of `IoUringDriver::run`, and what its pass finds. -/
structure RingTurn where
  accepted : List Key
  /-- Submissions that wait for admission, looked at when no owned operation does. -/
  waiting : List Key
  /-- Owned operations that fail before submission. -/
  failed : List Key
  cqes : List Cqe
  overflow : List (Key × Bool)
  wakes : ℕ
  stops : Bool
  parks : Bool
  deriving DecidableEq, Repr

/-- `IoUringDriver::pass` -/
def pass (turn : RingTurn) : Path :=
  guarded .driverData (guarded .ring
      (submitStaged turn.accepted ++ each turn.waiting fun key => critical (.submission key))) ++
    each turn.failed finish ++ critical .ring ++ each turn.cqes dispatch ++
    each turn.overflow fun (key, targets) => requestCancel key targets

/-- `IoUringDriver::run`, one turn. -/
def driverRun (turn : RingTurn) : Path :=
  pass turn ++ wakeWaiters turn.wakes ++ critical .driverData ++
    if turn.stops then critical .ring ++ critical .driverGate
    else critical .driverGate ++ if turn.parks then critical .driverGate else .done

/-- `IoUringDriver::retire`, in the completed callback. -/
def driverRetire : Path := critical .driverGate ++ critical .driverCompleted

end Nosv.Locks
