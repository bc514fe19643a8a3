import Mathlib.Tactic.SplitIfs
import Nosv.Native

/-!
# The scheduling gate and the join cell

`TaskCore` of `task.rs` without its mutex: every function below is one critical section of the
native gate, with the result of the native call it makes as an argument. `JoinInner` is the cell
shared with the `JoinHandle`. The owner of a future is generic in its output `T`, in the panic
payloads `P` and in the wakers `W`, two of which are equal when `will_wake` says so.

`schedule_cases`, `requestAbort_cases`, `startPoll_cases` and `finishPending_cases` say what each
section does, `finishTerminal_eq` and `retire_eq` what the last two do.
-/

namespace Nosv.Task

/-! ## The gate -/

/-- Reason a Rust future stopped being runnable. -/
inductive TerminalKind where
  /-- The future returned `Poll::Ready`. -/
  | ready
  /-- A cooperative abort request won the race with completion. -/
  | cancelled
  /-- Polling or destroying the future panicked. -/
  | panicked
  /-- A native operation required to continue execution failed. -/
  | runtimeError
  deriving DecidableEq, Repr

/-- Lifecycle of the native descriptor. -/
inductive NativePhase where
  /-- Rust ownership exists, but the descriptor is not ready for submission. -/
  | building
  /-- The descriptor may be scheduled or executing its callback. -/
  | live
  /-- Rust polling ended and the completed callback may retire the descriptor. -/
  | terminal (kind : TerminalKind)
  /-- Destruction is in progress while the gate remains locked. -/
  | destroying
  /-- The descriptor can never be submitted again. -/
  | destroyed
  deriving DecidableEq, Repr

/-- State examined atomically when scheduling or retiring a task. -/
structure NativeGate where
  /-- Live native descriptor, removed immediately before destruction. -/
  task : Option RawTask
  phase : NativePhase
  /-- Whether this poll epoch already has a native submission in flight. -/
  wakeSubmitted : Bool
  /-- Whether the run callback is presently polling user code. -/
  polling : Bool
  cancelRequested : Bool
  deriving DecidableEq, Repr

/-- Why the process is aborted. The first six are calls of `invariant_abort` in `TaskCore`. -/
inductive TaskAbort where
  | liveWithoutDescriptor
  | wakeRejected
  | cancellationRejected
  | invalidEntry
  | invalidPending
  | invalidTerminal
  /-- `run_once` found no future to poll. -/
  | futureMissing
  /-- `JoinState::store` found a result. -/
  | storedTwice
  /-- `completed_callback` could not retire the descriptor. -/
  | retireFailed
  deriving DecidableEq, Repr

/-- The abort is one of `TaskCore`. -/
def TaskAbort.core : TaskAbort → Bool
  | .futureMissing | .storedTwice | .retireFailed => false
  | _ => true

/-- Whether the runtime a task refers to still exists and was created in process `pid`. -/
def processMatches (runtime : Option Pid) (pid : Pid) : Bool := runtime = some pid

namespace NativeGate

variable (gate : NativeGate)

/-- Coalesces a Rust wake into one native submission for this poll epoch, and says whether it made
that submission. -/
def schedule (runtime : Option Pid) (pid : Pid) (submit : Status) :
    Except TaskAbort (NativeGate × Bool) :=
  -- A copy of the waker that survives a fork, or the runtime itself, wakes nobody.
  if processMatches runtime pid = false then .ok (gate, false)
  -- The submission in flight already covers this wake.
  else if gate.phase ≠ .live ∨ gate.wakeSubmitted = true then .ok (gate, false)
  else
    match gate.task, submit with
    | none, _ => .error .liveWithoutDescriptor
    -- The lock is held across `nosv_submit`, so a rejection leaves no way to wake the task again.
    | some _, .error _ => .error .wakeRejected
    | some _, .ok () => .ok ({ gate with wakeSubmitted := true }, true)

/-- Requests cooperative cancellation and schedules an idle task to observe it. Says whether it
made a submission, and whether this call changed a live task from not cancelled to cancelled. -/
def requestAbort (runtime : Option Pid) (pid : Pid) (submit : Status) :
    Except TaskAbort (NativeGate × Bool × Bool) :=
  if processMatches runtime pid = false then .ok (gate, false, false)
  else if gate.phase ≠ .live ∨ gate.cancelRequested = true then .ok (gate, false, false)
  -- The submission in flight enters the callback, which then sees the request.
  else if gate.wakeSubmitted = true then
    .ok ({ gate with cancelRequested := true }, false, true)
  else
    match gate.task, submit with
    | none, _ => .error .liveWithoutDescriptor
    | some _, .error _ => .error .cancellationRejected
    | some _, .ok () =>
      .ok ({ gate with cancelRequested := true, wakeSubmitted := true }, true, true)

/-- Opens a poll epoch and consumes the submission that entered the callback. `false` means that
cancellation was already pending. -/
def startPoll : Except TaskAbort (NativeGate × Bool) :=
  if gate.phase ≠ .live ∨ gate.polling = true then .error .invalidEntry
  -- An abort that came while the task was suspended is seen before the future is touched.
  else if gate.cancelRequested = true then
    .ok ({ gate with wakeSubmitted := false, phase := .terminal .cancelled }, false)
  else .ok ({ gate with wakeSubmitted := false, polling := true }, true)

/-- Closes a poll epoch that returned `Poll::Pending`. Says whether the callback should suspend. -/
def finishPending : Except TaskAbort (NativeGate × Bool) :=
  if gate.phase ≠ .live ∨ gate.polling = false then .error .invalidPending
  else if gate.cancelRequested = true then
    .ok ({ gate with polling := false, phase := .terminal .cancelled }, false)
  else .ok ({ gate with polling := false }, true)

/-- Closes a poll epoch with a terminal outcome. Says whether that outcome won over a cancellation
request. -/
def finishTerminal (kind : TerminalKind) : Except TaskAbort (NativeGate × Bool) :=
  if gate.phase ≠ .live ∨ gate.polling = false then .error .invalidTerminal
  else
    -- `wakeSubmitted` stays: a wake during the poll has its submission in flight.
    .ok ({ gate with
      polling := false
      phase := .terminal (if gate.cancelRequested then .cancelled else kind) },
      !gate.cancelRequested)

/-- Replaces a terminal reason without reviving the task. -/
def replaceTerminal (kind : TerminalKind) : NativeGate :=
  match gate.phase with
  | .terminal _ => { gate with phase := .terminal kind }
  | _ => gate

/-- Converts a still-live pending task into a terminal native-runtime failure. -/
def suspendFailed : NativeGate :=
  if gate.phase = .live then { gate with phase := .terminal .runtimeError } else gate

/-- Destroys a terminal descriptor and permanently closes its scheduling gate. -/
def retire (destroy : Status) : Except NativeError NativeGate :=
  match gate.phase, gate.task, destroy with
  | .terminal _, some _, .ok () => .ok { gate with phase := .destroyed, task := none }
  -- The gate is left destroying and without its task. Nobody sees it so, for the caller aborts the
  -- process on every error.
  | .terminal _, some _, .error e => .error e
  | _, _, _ => .error .invalidOperation

section Cases

variable {gate} {gate' : NativeGate} {runtime : Option Pid} {pid : Pid}

/-- `schedule` leaves the gate alone, or issues a submission. -/
theorem schedule_cases {submit : Status} {issued : Bool}
    (h : gate.schedule runtime pid submit = .ok (gate', issued)) :
    (gate' = gate ∧ issued = false ∧
      (processMatches runtime pid = true → gate.phase = .live → gate.wakeSubmitted = true)) ∨
    (gate.phase = .live ∧ gate.wakeSubmitted = false ∧
      gate' = { gate with wakeSubmitted := true } ∧ issued = true) := by
  -- The guards in the order of the source: process, then phase and flag, then the native call.
  unfold schedule at h
  split_ifs at h with hpid hgate
  · cases h
    exact .inl ⟨rfl, rfl, fun hp => by simp [hpid] at hp⟩
  · cases h
    exact .inl ⟨rfl, rfl, fun _ hlive => by simpa [hlive] using hgate⟩
  · simp only [not_or, ne_eq, Decidable.not_not, Bool.not_eq_true] at hgate
    split at h
    case h_3 =>
      cases h
      exact .inr ⟨hgate.1, hgate.2, rfl, rfl⟩
    all_goals cases h

/-- `request_abort` loses, or is accepted with or without a submission. -/
theorem requestAbort_cases {submit : Status} {issued won : Bool}
    (h : gate.requestAbort runtime pid submit = .ok (gate', issued, won)) :
    (gate' = gate ∧ issued = false ∧ won = false ∧
      (processMatches runtime pid = true → gate.phase = .live → gate.cancelRequested = true)) ∨
    (gate.phase = .live ∧ gate.cancelRequested = false ∧ won = true ∧
      (gate.wakeSubmitted = true ∧ gate' = { gate with cancelRequested := true } ∧ issued = false ∨
        gate.wakeSubmitted = false ∧ issued = true ∧
          gate' = { gate with cancelRequested := true, wakeSubmitted := true })) := by
  unfold requestAbort at h
  split_ifs at h with hpid hgate hwake
  · cases h
    exact .inl ⟨rfl, rfl, rfl, fun hp => by simp [hpid] at hp⟩
  · cases h
    exact .inl ⟨rfl, rfl, rfl, fun _ hlive => by simpa [hlive] using hgate⟩
  · cases h
    simp only [not_or, ne_eq, Decidable.not_not, Bool.not_eq_true] at hgate
    exact .inr ⟨hgate.1, hgate.2, rfl, .inl ⟨hwake, rfl, rfl⟩⟩
  · simp only [not_or, ne_eq, Decidable.not_not, Bool.not_eq_true] at hgate hwake
    split at h
    case h_3 =>
      cases h
      exact .inr ⟨hgate.1, hgate.2, rfl, .inr ⟨hwake, rfl, rfl⟩⟩
    all_goals cases h

/-- `start_poll` begins a poll or finds a cancellation. -/
theorem startPoll_cases {polls : Bool} (h : gate.startPoll = .ok (gate', polls)) :
    gate.phase = .live ∧
      (gate.cancelRequested = false ∧ polls = true ∧
          gate' = { gate with wakeSubmitted := false, polling := true } ∨
        gate.cancelRequested = true ∧ polls = false ∧
          gate' = { gate with wakeSubmitted := false, phase := .terminal .cancelled }) := by
  unfold startPoll at h
  split_ifs at h with hgate hcancel <;> cases h <;>
    simp only [not_or, ne_eq, Decidable.not_not, Bool.not_eq_true] at hgate
  · exact ⟨hgate.1, .inr ⟨hcancel, rfl, rfl⟩⟩
  · exact ⟨hgate.1, .inl ⟨by simpa using hcancel, rfl, rfl⟩⟩

/-- `finish_pending` ends a poll or finds a cancellation. -/
theorem finishPending_cases {suspends : Bool}
    (h : gate.finishPending = .ok (gate', suspends)) :
    gate.cancelRequested = false ∧ suspends = true ∧ gate' = { gate with polling := false } ∨
      gate.cancelRequested = true ∧ suspends = false ∧
        gate' = { gate with polling := false, phase := .terminal .cancelled } := by
  unfold finishPending at h
  split_ifs at h with hgate hcancel <;> cases h
  · exact .inr ⟨hcancel, rfl, rfl⟩
  · exact .inl ⟨by simpa using hcancel, rfl, rfl⟩

/-- What `finish_terminal` leaves. -/
theorem finishTerminal_eq {kind : TerminalKind} {wins : Bool}
    (h : gate.finishTerminal kind = .ok (gate', wins)) :
    wins = !gate.cancelRequested ∧ gate' = { gate with
      polling := false
      phase := .terminal (if gate.cancelRequested then .cancelled else kind) } := by
  unfold finishTerminal at h
  split at h
  next => cases h
  next =>
    cases h
    exact ⟨rfl, rfl⟩

/-- What `retire` leaves. -/
theorem retire_eq {destroy : Status} (h : gate.retire destroy = .ok gate') :
    gate' = { gate with phase := .destroyed, task := none } := by
  unfold retire at h
  split at h
  case h_1 =>
    cases h
    rfl
  all_goals cases h

variable {e : TaskAbort}

/-- An entry of the run callback of a live task that is not polled is valid. -/
theorem startPoll_ne (hphase : gate.phase = .live) (hpolling : gate.polling = false) :
    gate.startPoll ≠ .error e := by
  unfold startPoll
  rw [if_neg (by simp [hphase, hpolling])]
  split_ifs <;> nofun

/-- The end of a poll of a live task is valid. -/
theorem finishPending_ne (hphase : gate.phase = .live) (hpolling : gate.polling = true) :
    gate.finishPending ≠ .error e := by
  unfold finishPending
  rw [if_neg (by simp [hphase, hpolling])]
  split_ifs <;> nofun

/-- A live task that is polled can go terminal. -/
theorem finishTerminal_ne {kind : TerminalKind} (hphase : gate.phase = .live)
    (hpolling : gate.polling = true) : gate.finishTerminal kind ≠ .error e := by
  unfold finishTerminal
  rw [if_neg (by simp [hphase, hpolling])]
  nofun

end Cases

end NativeGate

/-! ## The join cell -/

variable {T P W : Type}

/-- Why awaiting a task gives no output. -/
inductive JoinError (P : Type) where
  /-- Cancellation won its race with completion. -/
  | cancelled
  /-- The future panicked while being polled or dropped. -/
  | panic (payload : P)
  /-- An internal native operation failed. -/
  | runtime (error : NativeError)
  deriving DecidableEq, Repr

/-- Outcome of a task. -/
abbrev JoinResult (T P : Type) := Except (JoinError P) T

/-- Contents of `JoinState`. -/
structure JoinInner (T P W : Type) where
  /-- Outcome produced by polling but withheld until native completion. -/
  result : Option (JoinResult T P)
  /-- Whether descriptor retirement is finished and `result` is published. -/
  nativeCompleted : Bool
  /-- Most recent waker supplied by the join task. -/
  waiter : Option W
  /-- Whether the sole join result has already been returned. -/
  consumed : Bool

/-- What a poll of the `JoinHandle` does. -/
inductive JoinPoll (T P : Type) where
  | pending
  | ready (result : JoinResult T P)
  /-- "JoinHandle polled after completion" -/
  | panicked

namespace JoinInner

/-- An unpublished join cell with no terminal result. -/
def new : JoinInner T P W := ⟨none, false, none, false⟩

variable (inner : JoinInner T P W)

/-- Stores the unique terminal result without publishing it yet. -/
def store (result : JoinResult T P) : Except TaskAbort (JoinInner T P W) :=
  match inner.result with
  -- Not reached by one callback: every path through `run_once` stores once.
  | some _ => .error .storedTwice
  | none => .ok { inner with result := some result }

/-- Replaces an outcome with a callback-containment error while still unpublished. -/
def replaceErrorIfUnpublished (error : JoinError P) : JoinInner T P W :=
  if inner.nativeCompleted then inner else { inner with result := some (.error error) }

/-- Marks native cleanup complete and takes the waker to be woken. -/
def publish : JoinInner T P W × Option W :=
  ({ inner with
      -- A callback that stored nothing still answers its handle.
      result := inner.result <|> some (.error (.runtime .invalidOperation))
      nativeCompleted := true
      waiter := none },
    inner.waiter)

/-- Returns a published result or registers the most recent join waker. -/
def poll [DecidableEq W] (w : W) : JoinInner T P W × JoinPoll T P :=
  if inner.consumed then (inner, .panicked)
  else if inner.nativeCompleted then
    ({ inner with consumed := true, result := none },
      .ready (inner.result.getD (.error (.runtime .invalidOperation))))
  -- `will_wake`: the registered waker is kept.
  else if inner.waiter = some w then (inner, .pending)
  else ({ inner with waiter := some w }, .pending)

end JoinInner

end Nosv.Task
