import Mathlib.Data.Option.Basic
import Mathlib.Tactic.SplitIfs
import Nosv.Ext.Lts
import Nosv.Task.Core

/-!
# One spawned task

A task from its first submission to the end of its completed callback. The run callback is a
program counter that goes through `run_once`; any thread, user code inside a poll or a destructor
included, may wake the task, request its abort or poll its `JoinHandle` between two of its steps.
nOS-V is what its contract says: a submission adds a token, an entry of the run callback consumes
one, a callback that returned suspended is entered again when there is a token, and one that
returned without suspending is followed by the completed callback, once.

`move_of_step` lists in `Move` what a step can do.
-/

namespace Nosv.Task

variable {T P W : Type}

/-! ## State -/

/-- What one poll of the future does. -/
inductive Polled (T P : Type) where
  | pending
  | ready (output : T)
  | panicked (payload : P)

/-- Why `take_and_drop_future` is called. -/
inductive Cleanup (T P : Type) where
  /-- `terminal_cancelled` -/
  | cancelled
  /-- The runtime is gone. -/
  | unavailable
  /-- `nosv_suspend` failed. -/
  | failed (error : NativeError)
  /-- The future is ready. -/
  | ready (output : T)
  /-- The future is ready, but a cancellation request won. -/
  | late
  /-- The future panicked, and whether that won over a cancellation request. -/
  | panicked (payload : P) (wins : Bool)

/-- Where the native callbacks of the task are. -/
inductive Pc (T P : Type) where
  /-- No callback runs. -/
  | idle
  /-- The run callback was entered. -/
  | entered
  /-- `weak_handle` comes next. -/
  | upgrade
  /-- There was no runtime to enter. -/
  | unavailable
  | polling
  | polled (result : Polled T P)
  | suspending
  | suspendFailed (error : NativeError)
  | dropping (why : Cleanup T P)
  /-- The destructor of a ready future panicked. -/
  | replacing (payload : P)
  /-- Values nobody wants are dropped before the result is stored. -/
  | discarding (result : JoinResult T P)
  /-- `JoinState::store`, and whether values nobody wants are dropped afterwards. -/
  | storing (result : JoinResult T P) (debris : Bool)
  | discarded
  /-- A destructor of such a value panicked: `force_panic`. -/
  | unwinding (payload : P)
  | overwriting (payload : P)
  /-- The run callback returned. -/
  | returned (suspended : Bool)
  /-- The completed callback calls `retire`. -/
  | retiring
  | publishing
  | unregistering
  | done

/-- What has happened so far. -/
structure History (T P W : Type) where
  /-- Native submissions issued. -/
  submits : ℕ
  /-- Callback entries, counted at `start_poll`. -/
  entries : ℕ
  /-- Wakes and accepted aborts since the last `start_poll`. -/
  requests : ℕ
  /-- Abort calls that returned `true`. -/
  aborts : ℕ
  /-- What the last poll of the future did. -/
  outcome : Option (Polled T P)
  /-- The future was dropped, and what its destructor panicked with. -/
  dropped : Option (Option P)
  /-- Results stored. -/
  stored : List (JoinResult T P)
  /-- Polls of the `JoinHandle`, oldest first. -/
  polls : List (W × JoinPoll T P)
  /-- The published result, and how many polls of the handle came before. -/
  published : Option (ℕ × JoinResult T P)
  /-- Join wakers woken. -/
  woken : List W

/-- A spawned task and its native descriptor. -/
structure State (T P W : Type) where
  gate : NativeGate
  join : JoinInner T P W
  /-- The slot still holds the future. -/
  future : Bool
  /-- Process of the runtime, while the weak reference to it can be upgraded. -/
  runtime : Option Pid
  pc : Pc T P
  /-- Submissions not consumed by an entry of the run callback. -/
  tokens : ℕ
  history : History T P W

/-- The task when its first submission has succeeded. -/
def State.init (pid : Pid) (raw : RawTask) : State T P W where
  gate := ⟨some raw, .live, true, false, false⟩
  join := .new
  future := true
  runtime := some pid
  pc := .idle
  tokens := 1
  history := ⟨1, 0, 0, 0, none, none, [], [], none, []⟩

/-- What happens next when the future is dropped, given what its destructor panicked with. -/
def Cleanup.next (panic : Option P) : Cleanup T P → Pc T P
  | .cancelled => store (.error .cancelled)
  | .unavailable => store (.error (.runtime .invalidOperation))
  | .failed error => store (.error (.runtime error))
  | .ready output =>
    match panic with
    | none => .storing (.ok output) false
    | some payload => .replacing payload
  | .late => .discarding (.error .cancelled)
  | .panicked payload true =>
    match panic with
    | none => .storing (.error (.panic payload)) false
    | some payload => .discarding (.error (.panic payload))
  | .panicked _ false => .storing (.error .cancelled) true
where
  /-- The payload of the destructor is dropped before the result is stored. -/
  store (result : JoinResult T P) : Pc T P :=
    if panic.isSome then .discarding result else .storing result false

/-! ## Steps -/

/-- Steps of a task. -/
inductive Action (T P W : Type) where
  /-- A waker of the task is woken. -/
  | schedule (submit : Status)
  /-- `abort` is called on a handle, or by the shutdown of the runtime. -/
  | requestAbort (submit : Status)
  /-- The `JoinHandle` is polled. -/
  | joinPoll (waker : W)
  /-- nOS-V enters the run callback. -/
  | enter
  | startPoll
  | upgrade
  /-- `finish_terminal(RuntimeError)` without a runtime. -/
  | unavailable
  /-- User code runs and returns. -/
  | poll (result : Polled T P)
  /-- `finish_pending` or `finish_terminal`. -/
  | finish
  | suspend (result : Status)
  | suspendFailed
  /-- The future is dropped. -/
  | dropFuture (panic : Option P)
  | replaceTerminal
  /-- Values nobody wants are dropped. -/
  | discard (panic : Option P)
  | store
  | forcePanic
  | overwrite
  /-- The run callback returns to nOS-V. -/
  | leave
  | retire (destroy : Status)
  | publish
  /-- `task_completed` -/
  | unregister
  /-- The last strong reference to the runtime is dropped. The `Runtime` keeps one until its
  registry has drained. -/
  | dropRuntime

namespace State

variable (σ : State T P W)

/-- The task after a critical section of its gate that may have made a submission. -/
def submitted (gate : NativeGate) (submit : Bool) : State T P W :=
  { σ with
    -- One critical section makes at most one submission, and each adds one token.
    gate := gate
    tokens := σ.tokens + submit.toNat
    history.submits := σ.history.submits + submit.toNat }

end State

/-- A critical section that aborts makes the step abort. -/
def checked {α : Type} : Except TaskAbort α → Except (Halt TaskAbort) α
  | .ok a => .ok a
  | .error e => .error (.abort e)

/-- The next state of the task. -/
def step [DecidableEq W] (pid : Pid) :
    Action T P W → State T P W → Except (Halt TaskAbort) (State T P W)
  | .schedule submit, σ => do
    let (gate, submit) ← checked (σ.gate.schedule σ.runtime pid submit)
    -- A wake counts as a request even when it is coalesced: the submission in flight serves it.
    return { σ.submitted gate submit with history.requests := σ.history.requests + 1 }
  | .requestAbort submit, σ => do
    let (gate, submit, won) ← checked (σ.gate.requestAbort σ.runtime pid submit)
    return { σ.submitted gate submit with
      -- A call that lost the race asks for nothing.
      history.requests := σ.history.requests + won.toNat
      history.aborts := σ.history.aborts + won.toNat }
  | .joinPoll w, σ =>
    let (join, result) := σ.join.poll w
    return { σ with join := join, history.polls := σ.history.polls ++ [(w, result)] }
  | .enter, σ =>
    match σ.pc, σ.tokens with
    -- Without a token nOS-V does not enter the callback.
    | .idle, n + 1 => return { σ with pc := .entered, tokens := n }
    | _, _ => throw .disabled
  | .startPoll, σ =>
    match σ.pc with
    | .entered => do
      let (gate, polls) ← checked σ.gate.startPoll
      -- The submission that entered is consumed, and with it every request made so far.
      return { σ with
        gate := gate
        pc := if polls then .upgrade else .dropping .cancelled
        history.entries := σ.history.entries + 1
        history.requests := 0 }
    | _ => throw .disabled
  | .upgrade, σ =>
    match σ.pc with
    -- `Weak::upgrade` on the runtime.
    | .upgrade => return { σ with pc := if σ.runtime.isSome then .polling else .unavailable }
    | _ => throw .disabled
  | .unavailable, σ =>
    match σ.pc with
    | .unavailable => do
      -- The outcome is discarded: it is `RuntimeError` whether or not a cancellation request won.
      let (gate, _) ← checked (σ.gate.finishTerminal .runtimeError)
      return { σ with gate := gate, pc := .dropping .unavailable }
    | _ => throw .disabled
  | .poll result, σ =>
    match σ.pc with
    | .polling =>
      -- User code ran: the gate is not looked at before `finish`.
      if σ.future then return { σ with pc := .polled result, history.outcome := some result }
      else throw (.abort .futureMissing)
    | _ => throw .disabled
  | .finish, σ =>
    match σ.pc with
    | .polled .pending => do
      let (gate, suspends) ← checked σ.gate.finishPending
      -- A cancelled task does not suspend, it is dropped on the way out.
      return { σ with gate := gate, pc := if suspends then .suspending else .dropping .cancelled }
    | .polled (.ready output) => do
      let (gate, wins) ← checked (σ.gate.finishTerminal .ready)
      -- A ready output that lost to a cancellation request is dropped with the future.
      return { σ with gate := gate, pc := .dropping (if wins then .ready output else .late) }
    | .polled (.panicked payload) => do
      let (gate, wins) ← checked (σ.gate.finishTerminal .panicked)
      return { σ with gate := gate, pc := .dropping (.panicked payload wins) }
    | _ => throw .disabled
  | .suspend result, σ =>
    match σ.pc, result with
    | .suspending, .ok () => return { σ with pc := .returned true }
    -- The descriptor is still live here, the source marks it terminal and completes.
    | .suspending, .error e => return { σ with pc := .suspendFailed e }
    | _, _ => throw .disabled
  | .suspendFailed, σ =>
    match σ.pc with
    | .suspendFailed e =>
      return { σ with gate := σ.gate.suspendFailed, pc := .dropping (.failed e) }
    | _ => throw .disabled
  | .dropFuture panic, σ =>
    match σ.pc with
    | .dropping why =>
      return { σ with future := false, pc := why.next panic, history.dropped := some panic }
    | _ => throw .disabled
  | .replaceTerminal, σ =>
    match σ.pc with
    | .replacing payload =>
      return { σ with
        gate := σ.gate.replaceTerminal .panicked
        pc := .discarding (.error (.panic payload)) }
    | _ => throw .disabled
  | .discard panic, σ =>
    match σ.pc, panic with
    -- A destructor that panics leaves through `force_panic` on both sides of the store.
    | .discarding result, none => return { σ with pc := .storing result false }
    | .discarded, none => return { σ with pc := .returned false }
    | .discarding _, some payload => return { σ with pc := .unwinding payload }
    | .discarded, some payload => return { σ with pc := .unwinding payload }
    | _, _ => throw .disabled
  | .store, σ =>
    match σ.pc with
    | .storing result debris => do
      let join ← checked (σ.join.store result)
      return { σ with
        join := join
        -- The late debris is what a poll that lost to a cancellation panicked with.
        pc := if debris then .discarded else .returned false
        history.stored := σ.history.stored ++ [result] }
    | _ => throw .disabled
  | .forcePanic, σ =>
    match σ.pc with
    | .unwinding payload =>
      return { σ with gate := σ.gate.replaceTerminal .panicked, pc := .overwriting payload }
    | _ => throw .disabled
  | .overwrite, σ =>
    match σ.pc with
    | .overwriting payload =>
      return { σ with
        join := σ.join.replaceErrorIfUnpublished (.panic payload)
        pc := .returned false }
    | _ => throw .disabled
  | .leave, σ =>
    match σ.pc with
    -- A suspended callback waits for the next submission, any other is followed by completion.
    | .returned suspended => return { σ with pc := if suspended then .idle else .retiring }
    | _ => throw .disabled
  | .retire destroy, σ =>
    match σ.pc, σ.gate.retire destroy with
    -- Only a terminal descriptor is destroyed, a failure of `nosv_destroy` aborts the process.
    | .retiring, .ok gate => return { σ with gate := gate, pc := .publishing }
    | .retiring, .error _ => throw (.abort .retireFailed)
    | _, _ => throw .disabled
  | .publish, σ =>
    match σ.pc with
    | .publishing =>
      let (join, waiter) := σ.join.publish
      return { σ with
        join := join
        pc := .unregistering
        -- How many polls of the handle came before is what tells the early from the late ones.
        history.published := join.result.map fun result => (σ.history.polls.length, result)
        history.woken := σ.history.woken ++ waiter.toList }
    | _ => throw .disabled
  | .unregister, σ =>
    match σ.pc with
    | .unregistering => return { σ with pc := .done }
    | _ => throw .disabled
  | .dropRuntime, σ =>
    match σ.pc with
    -- The registry of the runtime keeps it alive until the task has left.
    | .done => return { σ with runtime := none }
    | _ => throw .disabled

/-! ## What a step can do -/

variable {pid : Pid} {σ τ : State T P W}

/-- One successful step, by cases. -/
inductive Move (pid : Pid) [DecidableEq W] (σ : State T P W) : Action T P W → State T P W → Prop
  /-- A wake finds a task that is not live, or has a submission in flight. -/
  | wakeNone {submit : Status}
      (hcoalesced : processMatches σ.runtime pid = true → σ.gate.phase = .live →
        σ.gate.wakeSubmitted = true) :
      Move pid σ (.schedule submit)
        { σ with history.requests := σ.history.requests + 1 }
  | wake {submit : Status} (hphase : σ.gate.phase = .live) (hwake : σ.gate.wakeSubmitted = false) :
      Move pid σ (.schedule submit)
        { σ with
          gate := { σ.gate with wakeSubmitted := true }
          tokens := σ.tokens + 1
          history.submits := σ.history.submits + 1
          history.requests := σ.history.requests + 1 }
  /-- An abort finds a task that is not live, or was already cancelled. -/
  | abortNone {submit : Status}
      (hlost : processMatches σ.runtime pid = true → σ.gate.phase = .live →
        σ.gate.cancelRequested = true) :
      Move pid σ (.requestAbort submit) σ
  /-- An abort is accepted while a submission is in flight. -/
  | abortQuiet {submit : Status} (hphase : σ.gate.phase = .live)
      (hcancel : σ.gate.cancelRequested = false) (hwake : σ.gate.wakeSubmitted = true) :
      Move pid σ (.requestAbort submit)
        { σ with
          gate := { σ.gate with cancelRequested := true }
          history.requests := σ.history.requests + 1
          history.aborts := σ.history.aborts + 1 }
  | abort {submit : Status} (hphase : σ.gate.phase = .live)
      (hcancel : σ.gate.cancelRequested = false) (hwake : σ.gate.wakeSubmitted = false) :
      Move pid σ (.requestAbort submit)
        { σ with
          gate := { σ.gate with cancelRequested := true, wakeSubmitted := true }
          tokens := σ.tokens + 1
          history.submits := σ.history.submits + 1
          history.requests := σ.history.requests + 1
          history.aborts := σ.history.aborts + 1 }
  | joinPoll {w : W} :
      Move pid σ (.joinPoll w)
        { σ with
          join := (σ.join.poll w).1
          history.polls := σ.history.polls ++ [(w, (σ.join.poll w).2)] }
  | enter {n : ℕ} (hpc : σ.pc = .idle) (htokens : σ.tokens = n + 1) :
      Move pid σ .enter { σ with pc := .entered, tokens := n }
  | startPoll (hpc : σ.pc = .entered) (hphase : σ.gate.phase = .live)
      (hcancel : σ.gate.cancelRequested = false) :
      Move pid σ .startPoll
        { σ with
          gate := { σ.gate with wakeSubmitted := false, polling := true }
          pc := .upgrade
          history.entries := σ.history.entries + 1
          history.requests := 0 }
  | startCancelled (hpc : σ.pc = .entered) (hphase : σ.gate.phase = .live)
      (hcancel : σ.gate.cancelRequested = true) :
      Move pid σ .startPoll
        { σ with
          gate := { σ.gate with wakeSubmitted := false, phase := .terminal .cancelled }
          pc := .dropping .cancelled
          history.entries := σ.history.entries + 1
          history.requests := 0 }
  | upgrade (hpc : σ.pc = .upgrade) :
      Move pid σ .upgrade { σ with pc := if σ.runtime.isSome then .polling else .unavailable }
  | unavailable (hpc : σ.pc = .unavailable) :
      Move pid σ .unavailable
        { σ with
          gate := { σ.gate with
            polling := false
            phase := .terminal (if σ.gate.cancelRequested then .cancelled else .runtimeError) }
          pc := .dropping .unavailable }
  | poll {result : Polled T P} (hpc : σ.pc = .polling) :
      Move pid σ (.poll result)
        { σ with pc := .polled result, history.outcome := some result }
  | finishPending (hpc : σ.pc = .polled .pending) (hcancel : σ.gate.cancelRequested = false) :
      Move pid σ .finish { σ with gate := { σ.gate with polling := false }, pc := .suspending }
  | finishCancelled (hpc : σ.pc = .polled .pending) (hcancel : σ.gate.cancelRequested = true) :
      Move pid σ .finish
        { σ with
          gate := { σ.gate with polling := false, phase := .terminal .cancelled }
          pc := .dropping .cancelled }
  | finishReady {output : T} (hpc : σ.pc = .polled (.ready output)) :
      Move pid σ .finish
        { σ with
          gate := { σ.gate with
            polling := false
            phase := .terminal (if σ.gate.cancelRequested then .cancelled else .ready) }
          pc := .dropping (if !σ.gate.cancelRequested then .ready output else .late) }
  | finishPanicked {payload : P} (hpc : σ.pc = .polled (.panicked payload)) :
      Move pid σ .finish
        { σ with
          gate := { σ.gate with
            polling := false
            phase := .terminal (if σ.gate.cancelRequested then .cancelled else .panicked) }
          pc := .dropping (.panicked payload !σ.gate.cancelRequested) }
  | suspend (hpc : σ.pc = .suspending) :
      Move pid σ (.suspend (.ok ())) { σ with pc := .returned true }
  | suspendError {e : NativeError} (hpc : σ.pc = .suspending) :
      Move pid σ (.suspend (.error e)) { σ with pc := .suspendFailed e }
  | suspendFailed {e : NativeError} (hpc : σ.pc = .suspendFailed e) :
      Move pid σ .suspendFailed
        { σ with gate := σ.gate.suspendFailed, pc := .dropping (.failed e) }
  | dropFuture {panic : Option P} {why : Cleanup T P} (hpc : σ.pc = .dropping why) :
      Move pid σ (.dropFuture panic)
        { σ with future := false, pc := why.next panic, history.dropped := some panic }
  | replaceTerminal {payload : P} (hpc : σ.pc = .replacing payload) :
      Move pid σ .replaceTerminal
        { σ with
          gate := σ.gate.replaceTerminal .panicked
          pc := .discarding (.error (.panic payload)) }
  | discard {result : JoinResult T P} (hpc : σ.pc = .discarding result) :
      Move pid σ (.discard none) { σ with pc := .storing result false }
  | discardLate (hpc : σ.pc = .discarded) :
      Move pid σ (.discard none) { σ with pc := .returned false }
  /-- A destructor panics while values nobody wants are dropped. -/
  | unwind {payload : P} (hpc : (∃ result, σ.pc = .discarding result) ∨ σ.pc = .discarded) :
      Move pid σ (.discard (some payload)) { σ with pc := .unwinding payload }
  | store {result : JoinResult T P} {debris : Bool} (hpc : σ.pc = .storing result debris)
      (hresult : σ.join.result = none) :
      Move pid σ .store
        { σ with
          join := { σ.join with result := some result }
          pc := if debris then .discarded else .returned false
          history.stored := σ.history.stored ++ [result] }
  | forcePanic {payload : P} (hpc : σ.pc = .unwinding payload) :
      Move pid σ .forcePanic
        { σ with gate := σ.gate.replaceTerminal .panicked, pc := .overwriting payload }
  | overwrite {payload : P} (hpc : σ.pc = .overwriting payload) :
      Move pid σ .overwrite
        { σ with
          join := σ.join.replaceErrorIfUnpublished (.panic payload)
          pc := .returned false }
  | leave {suspended : Bool} (hpc : σ.pc = .returned suspended) :
      Move pid σ .leave { σ with pc := if suspended then .idle else .retiring }
  | retire {destroy : Status} (hpc : σ.pc = .retiring) :
      Move pid σ (.retire destroy)
        { σ with gate := { σ.gate with phase := .destroyed, task := none }, pc := .publishing }
  | publish (hpc : σ.pc = .publishing) :
      Move pid σ .publish
        { σ with
          join := σ.join.publish.1
          pc := .unregistering
          history.published :=
            σ.join.publish.1.result.map fun result => (σ.history.polls.length, result)
          history.woken := σ.history.woken ++ σ.join.waiter.toList }
  | unregister (hpc : σ.pc = .unregistering) : Move pid σ .unregister { σ with pc := .done }
  | dropRuntime (hpc : σ.pc = .done) : Move pid σ .dropRuntime { σ with runtime := none }

section Inversion

variable {α β : Type}

theorem bind_eq_ok {x : Except (Halt TaskAbort) α} {f : α → Except (Halt TaskAbort) β} {b : β} :
    x >>= f = .ok b ↔ ∃ a, x = .ok a ∧ f a = .ok b := by
  cases x <;> simp [bind, Except.bind]

@[simp]
theorem checked_eq_ok {x : Except TaskAbort α} {a : α} : checked x = .ok a ↔ x = .ok a := by
  cases x <;> simp [checked]

@[simp]
theorem return_eq_ok {a b : α} : (pure a : Except (Halt TaskAbort) α) = .ok b ↔ a = b :=
  ⟨Except.ok.inj, congrArg _⟩

@[simp]
theorem throw_ne_ok {e : Halt TaskAbort} {b : α} :
    ¬ (throw e : Except (Halt TaskAbort) α) = .ok b := nofun

/-- Every successful step is one of the moves. -/
theorem move_of_step [DecidableEq W] {a : Action T P W} (h : step pid a σ = .ok τ) :
    Move pid σ a τ := by
  cases a with
  | schedule submit =>
    simp only [step, bind_eq_ok, checked_eq_ok, return_eq_ok] at h
    obtain ⟨⟨gate, issued⟩, hgate, rfl⟩ := h
    -- The gate knows whether the wake was coalesced.
    rcases NativeGate.schedule_cases hgate with ⟨rfl, rfl, hcoalesced⟩ | ⟨hlive, hwake, rfl, rfl⟩
    · exact .wakeNone hcoalesced
    · exact .wake hlive hwake
  | requestAbort submit =>
    simp only [step, bind_eq_ok, checked_eq_ok, return_eq_ok] at h
    obtain ⟨⟨gate, issued, won⟩, hgate, rfl⟩ := h
    rcases NativeGate.requestAbort_cases hgate with ⟨rfl, rfl, rfl, hlost⟩ |
      ⟨hlive, hcancel, rfl, ⟨hwake, rfl, rfl⟩ | ⟨hwake, rfl, rfl⟩⟩
    · exact .abortNone hlost
    · exact .abortQuiet hlive hcancel hwake
    · exact .abort hlive hcancel hwake
  | joinPoll w =>
    cases h
    exact .joinPoll
  | enter =>
    simp only [step] at h
    -- One token at least, or the step is disabled.
    split at h
    next hpc htokens =>
      cases h
      exact .enter hpc htokens
    next => cases h
  | startPoll =>
    simp only [step] at h
    split at h
    next hpc =>
      simp only [bind_eq_ok, checked_eq_ok, return_eq_ok] at h
      obtain ⟨⟨gate, polls⟩, hgate, rfl⟩ := h
      -- `start_poll` decides between a poll and the end of a cancelled task.
      obtain ⟨hlive, ⟨hcancel, rfl, rfl⟩ | ⟨hcancel, rfl, rfl⟩⟩ := NativeGate.startPoll_cases hgate
      · exact .startPoll hpc hlive hcancel
      · exact .startCancelled hpc hlive hcancel
    next => cases h
  | upgrade =>
    simp only [step] at h
    split at h
    next hpc =>
      cases h
      exact .upgrade hpc
    next => cases h
  | unavailable =>
    simp only [step] at h
    split at h
    next hpc =>
      simp only [bind_eq_ok, checked_eq_ok, return_eq_ok] at h
      obtain ⟨⟨gate, wins⟩, hgate, rfl⟩ := h
      obtain ⟨-, rfl⟩ := NativeGate.finishTerminal_eq hgate
      exact .unavailable hpc
    next => cases h
  | poll result =>
    simp only [step] at h
    split at h
    next hpc =>
      split_ifs at h
      cases h
      exact .poll hpc
    next => cases h
  | finish =>
    simp only [step] at h
    split at h
    next hpc =>
      simp only [bind_eq_ok, checked_eq_ok, return_eq_ok] at h
      obtain ⟨⟨gate, suspends⟩, hgate, rfl⟩ := h
      -- Pending: the gate decides between suspending and the drop of a cancelled task.
      rcases NativeGate.finishPending_cases hgate with ⟨hcancel, rfl, rfl⟩ | ⟨hcancel, rfl, rfl⟩
      · exact .finishPending hpc hcancel
      · exact .finishCancelled hpc hcancel
    next output hpc =>
      simp only [bind_eq_ok, checked_eq_ok, return_eq_ok] at h
      obtain ⟨⟨gate, wins⟩, hgate, rfl⟩ := h
      obtain ⟨rfl, rfl⟩ := NativeGate.finishTerminal_eq hgate
      exact .finishReady hpc
    next payload hpc =>
      simp only [bind_eq_ok, checked_eq_ok, return_eq_ok] at h
      obtain ⟨⟨gate, wins⟩, hgate, rfl⟩ := h
      obtain ⟨rfl, rfl⟩ := NativeGate.finishTerminal_eq hgate
      exact .finishPanicked hpc
    next => cases h
  | suspend result =>
    simp only [step] at h
    split at h
    next hpc =>
      cases h
      exact .suspend hpc
    next e hpc =>
      cases h
      exact .suspendError hpc
    next => cases h
  | suspendFailed =>
    simp only [step] at h
    split at h
    next e hpc =>
      cases h
      exact .suspendFailed hpc
    next => cases h
  | dropFuture panic =>
    simp only [step] at h
    split at h
    next why hpc =>
      cases h
      exact .dropFuture hpc
    next => cases h
  | replaceTerminal =>
    simp only [step] at h
    split at h
    next payload hpc =>
      cases h
      exact .replaceTerminal hpc
    next => cases h
  | discard panic =>
    simp only [step] at h
    split at h
    next result hpc =>
      cases h
      exact .discard hpc
    next hpc =>
      cases h
      exact .discardLate hpc
    next result payload hpc =>
      cases h
      exact .unwind (.inl ⟨result, hpc⟩)
    next payload hpc =>
      cases h
      exact .unwind (.inr hpc)
    next => cases h
  | store =>
    simp only [step] at h
    split at h
    next result debris hpc =>
      simp only [bind_eq_ok, checked_eq_ok, return_eq_ok, JoinInner.store] at h
      obtain ⟨join, hjoin, rfl⟩ := h
      -- A result that is there already is the abort of `store`.
      split at hjoin
      next => cases hjoin
      next hresult =>
        cases hjoin
        exact .store hpc hresult
    next => cases h
  | forcePanic =>
    simp only [step] at h
    split at h
    next payload hpc =>
      cases h
      exact .forcePanic hpc
    next => cases h
  | overwrite =>
    simp only [step] at h
    split at h
    next payload hpc =>
      cases h
      exact .overwrite hpc
    next => cases h
  | leave =>
    simp only [step] at h
    split at h
    next suspended hpc =>
      cases h
      exact .leave hpc
    next => cases h
  | retire destroy =>
    simp only [step] at h
    split at h
    next gate hpc hgate =>
      cases h
      obtain rfl := NativeGate.retire_eq hgate
      exact .retire hpc
    next => cases h
    next => cases h
  | publish =>
    simp only [step] at h
    split at h
    next hpc =>
      cases h
      exact .publish hpc
    next => cases h
  | unregister =>
    simp only [step] at h
    split at h
    next hpc =>
      cases h
      exact .unregister hpc
    next => cases h
  | dropRuntime =>
    simp only [step] at h
    split at h
    next hpc =>
      cases h
      exact .dropRuntime hpc
    next => cases h

end Inversion

end Nosv.Task
