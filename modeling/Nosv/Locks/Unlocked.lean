import Nosv.Locks.Programs

/-!
# User code and the mutexes of the runtime

Which operations call user code with a mutex held, and what a thread does that enters them, from
user code again and to any depth.

* `Operation.checked` and `Callback.clear_iff`: which of them call user code with a mutex held;
* `unlocked_iff`: a set of them is safe in all threads exactly when none does;
* `iterator_relocks`: an iterator that takes the mutex again.
-/

namespace Nosv.Locks

open Reentrancy
open Nosv.Runtime (SpawnNative TaskId)

/-! ## Shared mutexes -/

/-- The mutexes that public operations take. Only the run of a task takes the one of its future,
and polls the future with it held. -/
def shared : Mutex → Bool
  | .future _ => false
  | _ => true

/-- Mutexes are taken by public operations, but for those of futures. -/
@[simp]
theorem shared_eq_true {m : Mutex} : shared m = true ↔ ∀ task, m ≠ .future task := by
  cases m <;> simp [shared]

/-- The mutex is one of those. -/
def Shared (m : Mutex) : Prop := shared m = true

/-- All are but those of futures. -/
@[simp]
theorem shared_iff {m : Mutex} : Shared m ↔ ∀ task, m ≠ .future task := shared_eq_true

/-- Functions that take shared mutexes, none of them twice, and hold none while user code runs. -/
abbrev Free (held : List Mutex) (p : Path) : Prop := p.Free shared held

section Parts

variable {P : Mutex → Prop} {held : List Mutex} {m : Mutex} {key parker lane : Key} {task : TaskId}
  {gone forked running attached rejected live ready bound done closed targets : Bool} {n : ℕ}

@[simp]
theorem takes_critical : (critical m).Takes P ↔ P m := by
  simp [critical]

@[simp]
theorem clear_critical : (critical m).Clear shared held ↔ m ∉ held := by
  simp [critical]

@[simp]
theorem free_critical : Free held (critical m) ↔ shared m = true ∧ m ∉ held := by
  simp [critical]

@[simp]
theorem free_waiting : Free held (waiting m n) ↔ shared m = true ∧ m ∉ held := by
  simp [waiting]

/-- Wakers are invoked where nothing is held. -/
@[simp]
theorem free_wakeWaiters : Free [] (wakeWaiters n) := by
  simp [wakeWaiters]

@[simp]
theorem free_ensureRunning : Free [] (ensureRunning forked) := by
  simp [ensureRunning]

@[simp]
theorem free_schedule : Free [] (schedule gone task) := by
  simp [schedule]

@[simp]
theorem free_notify : Free held notify ↔ .driverGate ∉ held := by
  simp [notify]

/-- A cancellation locks its submission inside the data of the driver. -/
@[simp]
theorem free_requestCancel : Free [] (requestCancel key targets) := by
  simp [requestCancel]

@[simp]
theorem free_requestOwnedCancel : Free [] requestOwnedCancel := by
  simp [requestOwnedCancel]

@[simp]
theorem free_finish : Free held (finish key) ↔ .result key ∉ held ∧ .waker key ∉ held := by
  simp [finish]

end Parts

/-! ## Public operations -/

/-- A public operation, on one of its paths. -/
inductive Operation where
  /-- `Handle::spawn`, `TaskBuilder::spawn` and `spawn` -/
  | spawn (rejected running : Bool) (native : SpawnNative) (task : TaskId)
  /-- `Runtime::try_block_on` and `Runtime::block_on` -/
  | blockOn (rejected attached : Bool) (parker : Key) (polls : ℕ)
  /-- `Runtime::shutdown` and the drop of a `Runtime` -/
  | shutdown (c : Closing)
  /-- `Handle::topology` and its queries, `Handle::memory_stats` and `Handle::io_handle` -/
  | query (forked : Bool)
  /-- A wake of a task, or `abort` -/
  | schedule (gone : Bool) (task : TaskId)
  /-- A wake of a `try_block_on` -/
  | wakeParker (parker : Key)
  /-- `JoinHandle::poll` and `JoinHandle::is_finished` -/
  | join (task : TaskId)
  | joinDrop (output : Bool)
  /-- `AbortHandle::is_finished` -/
  | isFinished (task : TaskId)
  | withCurrent (inTask : Bool)
  | yieldPoll (yielded : Bool)
  | submitEntries (key : Key) (gone forked running : Bool)
  | submitPoll (key : Key) (closed : Bool) (a : Admission) (how : SubmitEnd)
  /-- Drop of a `SubmitEntries`, and `CompletionStream::cancel` and its drop -/
  | requestCancel (key : Key) (targets : Bool)
  /-- The polls of `NextCompletion`, `NextCancellation` and `WaitDrained`, and the drop of a
  `Cancellation` -/
  | completions (key : Key)
  | ownedPoll (key : Key) (how : Enqueue) (seen : Seen)
  | ownedDrop (live : Bool)
  | streamPoll (lane : Key) (polls : List (Key × Enqueue × Seen))
  | sleepPoll (key : Key) (ready bound forked running closed : Bool)
  | sleepDrop (key : Key) (bound : Bool)
  | timeoutPoll (key : Key) (done ready bound forked running closed : Bool)
  | timeoutDrop (key : Key) (bound : Bool)

/-- What the operation does. -/
def Operation.program : Operation → Path
  | .spawn rejected running native task => spawnOn rejected running native task
  | .blockOn rejected attached parker polls => tryBlockOn rejected attached parker polls
  | .shutdown c => Locks.shutdown c
  | .query forked => ensureRunning forked
  | .schedule gone task => Locks.schedule gone task
  | .wakeParker parker => critical (.parker parker)
  | .join task => critical (.join task)
  | .joinDrop output => Locks.joinDrop output
  | .isFinished task => critical (.taskGate task)
  | .withCurrent inTask => Locks.withCurrent inTask
  | .yieldPoll yielded => Locks.yieldPoll yielded
  | .submitEntries key gone forked running => Locks.submitEntries key gone forked running
  | .submitPoll key closed a how => Locks.submitPoll key closed a how
  | .requestCancel key targets => Locks.requestCancel key targets
  | .completions key => critical (.submission key)
  | .ownedPoll key how seen => Locks.ownedPoll key how seen
  | .ownedDrop live => Locks.ownedDrop live
  | .streamPoll lane polls => Locks.streamPoll lane polls
  | .sleepPoll key ready bound forked running closed =>
    Locks.sleepPoll key ready bound forked running closed
  | .sleepDrop key bound => Locks.sleepDrop key bound
  | .timeoutPoll key done ready bound forked running closed =>
    Locks.timeoutPoll key done ready bound forked running closed
  | .timeoutDrop key bound => Locks.timeoutDrop key bound

/-- A spawn whose native calls succeed, a poll of a submission that does not ask its iterator, and
every other operation. -/
def Operation.Clean : Operation → Prop
  | .spawn rejected running native _ =>
    rejected = true ∨ running = false ∨
      native.create.isOk = true ∧ native.metadata = .ok () ∧ native.submit = .ok ()
  | .submitPoll _ closed a _ => closed = true ∨ a.pulls = false
  | _ => True

/-! ## Operations that are clean -/

section Operations

variable {key parker lane : Key} {task : TaskId}
  {gone forked running attached rejected ready bound done closed : Bool}

theorem free_tryBlockOn {polls : ℕ} : Free [] (tryBlockOn rejected attached parker polls) := by
  simp [tryBlockOn, Prog.owning]

/-- A runtime is closed from the outside in. -/
theorem free_shutdown {c : Closing} : Free [] (shutdown c) := by
  simp [shutdown, driverShutdown, timerShutdown, timerNotify]

theorem free_submitEntries : Free [] (submitEntries key gone forked running) := by
  simp [submitEntries]

theorem free_ownedPoll {how : Enqueue} {seen : Seen} : Free [] (ownedPoll key how seen) := by
  cases how <;> cases seen <;> simp [ownedPoll, enqueue]

/-- The operation of a lane is polled with the lane locked, and wakes nobody. -/
theorem free_streamPoll {polls : List (Key × Enqueue × Seen)} :
    Free [] (streamPoll lane polls) := by
  simp only [streamPoll, Prog.free_each, Prog.free_guarded, shared_eq_true]
  rintro ⟨key, how, seen⟩ -
  refine ⟨⟨by simp, by simp⟩, ?_⟩
  cases how <;> cases seen <;> simp [ownedPoll, enqueue, Enqueue.silent, ensureRunning, wakeWaiters]

theorem free_sleepPoll : Free [] (sleepPoll key ready bound forked running closed) := by
  simp [sleepPoll, register, timerNotify]

theorem free_sleepDrop : Free [] (sleepDrop key bound) := by
  simp [sleepDrop, timerNotify]

/-- A spawn calls user code with the runtime state locked when a native call fails. -/
theorem spawnOn_clear_iff {native : SpawnNative} :
    (spawnOn rejected running native task).Clear shared [] ↔
      rejected = true ∨ running = false ∨
        native.create.isOk = true ∧ native.metadata = .ok () ∧ native.submit = .ok () := by
  obtain ⟨create, metadata, submit, destroy⟩ := native
  cases rejected <;> cases running <;> simp [spawnOn, Prog.owning]
  cases create <;> cases metadata <;> cases submit <;> simp [shared, Except.isOk, Except.toBool]

/-- The descriptor is locked inside the runtime state. -/
theorem spawnOn_takes {native : SpawnNative} :
    (spawnOn rejected running native task).Takes Shared := by
  obtain ⟨create, metadata, submit, destroy⟩ := native
  cases create <;> cases metadata <;> cases submit <;> simp [spawnOn, Prog.owning]

/-- The loop asks the iterator unless its only turn is that of an SQE left before. -/
theorem admitLoop_clear_iff {pending : Bool} {turns : List Turn} :
    (admitLoop key pending turns).Clear shared [.ring, .driverData] ↔
      pending = true ∧ turns.head? ≠ some .pushed := by
  have hnext : ¬(Prog.call .next : Path).Clear shared [.ring, .driverData] := by simp
  cases pending with
  | false => cases turns <;> simp [admitLoop, hnext]
  | true =>
    cases turns with
    | nil => simp [admitLoop]
    | cons turn turns =>
      cases turn with
      | finished | full => simp [admitLoop]
      | pushed =>
        -- the next turn asks
        cases turns <;> simp [admitLoop, hnext]

/-- Submissions are locked inside the data of the driver and the ring. -/
theorem admitLoop_takes {pending : Bool} {turns : List Turn} :
    (admitLoop key pending turns).Takes Shared := by
  induction turns generalizing pending with
  | nil => simp [admitLoop]
  | cons turn turns ih =>
    cases turn with
    | finished | full => simp [admitLoop]
    | pushed => simpa [admitLoop] using @ih false

/-- The staged prefix is submitted without user code. -/
theorem free_submitStaged {accepted : List Key} :
    Free [.ring, .driverData] (submitStaged accepted) := by
  simp [submitStaged]

/-- An admission calls user code with the driver locked when it asks the iterator. -/
theorem admitEntries_clear_iff {a : Admission} :
    (admitEntries key a).Clear shared [] ↔ a.pulls = false := by
  have hcancel : (requestCancel key a.targets).Clear shared [] := free_requestCancel.2
  have hnotify : notify.Clear shared [] := by simp [notify]
  have hwakes : (wakeWaiters a.wakes).Clear shared [] := free_wakeWaiters.2
  have hstaged : (submitStaged a.accepted).Clear shared [.ring, .driverData] := free_submitStaged.2
  cases haccepting : a.accepting with
  | false => simp [admitEntries, Admission.pulls, Admission.admits, haccepting, hcancel]
  | true =>
    cases howned : a.owned with
    | true => simp [admitEntries, Admission.pulls, Admission.admits, haccepting, howned, hnotify]
    | false =>
      simp [admitEntries, Admission.pulls, Admission.admits, haccepting, howned, hnotify, hwakes,
        hstaged, admitLoop_clear_iff]

@[simp]
theorem free_submitEnd {how : SubmitEnd} : Free [] (how.program key) := by
  cases how <;> simp [SubmitEnd.program]

/-- A poll of a submission does so when its admission does. -/
theorem submitPoll_clear_iff {a : Admission} {how : SubmitEnd} :
    (submitPoll key closed a how).Clear shared [] ↔ closed = true ∨ a.pulls = false := by
  have hend : (how.program key).Clear shared [] := free_submitEnd.2
  cases closed <;> simp [submitPoll, admitEntries_clear_iff, hend]

/-- The mutexes of a poll of a submission are shared. -/
theorem submitPoll_takes {a : Admission} {how : SubmitEnd} :
    (submitPoll key closed a how).Takes Shared := by
  have hcancel : (requestCancel key a.targets).Takes Shared := free_requestCancel.1
  have hend : (how.program key).Takes Shared := free_submitEnd.1
  have hstaged : (submitStaged a.accepted).Takes Shared := free_submitStaged.1
  have hwakes : (wakeWaiters a.wakes).Takes Shared := free_wakeWaiters.1
  have hnotify : notify.Takes Shared := by simp [notify]
  have hloop : (admitLoop key a.pending a.turns).Takes Shared := admitLoop_takes
  simp [submitPoll, admitEntries, hcancel, hend, hstaged, hwakes, hnotify, hloop]

/-- A function that holds nothing is checked. -/
theorem checked_of_free {p : Path} (hp : Free [] p) :
    p.Takes Shared ∧ (p.Clear shared [] ↔ True) :=
  ⟨hp.1, iff_true_intro hp.2⟩

/-- Operations take shared mutexes, and the clean ones call user code with none held. -/
theorem Operation.checked (op : Operation) :
    op.program.Takes Shared ∧ (op.program.Clear shared [] ↔ op.Clean) := by
  cases op with
  | spawn => exact ⟨spawnOn_takes, spawnOn_clear_iff⟩
  | submitPoll => exact ⟨submitPoll_takes, submitPoll_clear_iff⟩
  | blockOn => exact checked_of_free free_tryBlockOn
  | shutdown => exact checked_of_free free_shutdown
  | query => exact checked_of_free free_ensureRunning
  | schedule => exact checked_of_free free_schedule
  | wakeParker | join | isFinished | completions =>
    exact checked_of_free (free_critical.mpr ⟨by simp, by simp⟩)
  | joinDrop | withCurrent | yieldPoll =>
    exact checked_of_free (by simp [program, Locks.joinDrop, Locks.withCurrent, Locks.yieldPoll])
  | submitEntries => exact checked_of_free free_submitEntries
  | requestCancel => exact checked_of_free free_requestCancel
  | ownedPoll => exact checked_of_free free_ownedPoll
  | ownedDrop => exact checked_of_free (by simp [program, Locks.ownedDrop])
  | streamPoll => exact checked_of_free free_streamPoll
  | sleepPoll => exact checked_of_free free_sleepPoll
  | sleepDrop => exact checked_of_free free_sleepDrop
  | timeoutPoll => exact checked_of_free (by simp [program, Locks.timeoutPoll, free_sleepPoll])
  | timeoutDrop => exact checked_of_free (by simp [program, Locks.timeoutDrop, free_sleepDrop])

end Operations

/-! ## Native callbacks -/

/-- A native callback, on one of its paths. -/
inductive Callback where
  | runOnce (task : TaskId) (how : RunEnd)
  | completed (task : TaskId) (destroy : Status) (output waiter detached gone : Bool)
  | timerRun (entries : List Key) (wakes : ℕ) (stops parks : Bool)
  | timerRetire
  | driverRun (turn : RingTurn)
  | driverRetire

/-- What the callback does. -/
def Callback.program : Callback → Path
  | .runOnce task how => Locks.runOnce task how
  | .completed task destroy output waiter detached gone =>
    taskCompletedCallback task destroy output waiter detached gone
  | .timerRun entries wakes stops parks => Locks.timerRun entries wakes stops parks
  | .timerRetire => Locks.timerRetire
  | .driverRun turn => Locks.driverRun turn
  | .driverRetire => Locks.driverRetire

/-- A completion whose descriptor is destroyed or that has no output, and every other callback. -/
def Callback.Clean : Callback → Prop
  | .completed _ destroy output _ _ _ => destroy = .ok () ∨ output = false
  | _ => True

section Callbacks

variable {task : TaskId} {output waiter detached gone stops parks : Bool} {n : ℕ}

/-- A run of a task calls user code with nothing held but the mutex of the future that it polls. -/
theorem runOnce_clear {how : RunEnd} : (runOnce task how).Clear shared [] := by
  cases how <;> simp [runOnce, takeAndDropFuture, store, shared]

/-- A completion destroys the output with the join locked when the descriptor cannot be
destroyed. -/
theorem taskCompletedCallback_clear_iff {destroy : Status} :
    (taskCompletedCallback task destroy output waiter detached gone).Clear shared [] ↔
      destroy = .ok () ∨ output = false := by
  have hwakes : (wakeWaiters (if waiter then 1 else 0)).Clear shared [] := free_wakeWaiters.2
  cases destroy with
  | error => cases output <;> simp [taskCompletedCallback, shared]
  | ok => simp [taskCompletedCallback, hwakes]

/-- The timer driver takes the wakers under its mutexes and invokes them outside. -/
theorem free_timerRun {entries : List Key} : Free [] (timerRun entries n stops parks) := by
  simp [timerRun]

@[simp]
theorem free_dispatch {cqe : Cqe} : Free [] (dispatch cqe) := by
  cases cqe <;> simp [dispatch]

/-- The ring driver collects its wakers over the pass. -/
theorem free_driverRun {turn : RingTurn} : Free [] (driverRun turn) := by
  simp [driverRun, pass, free_submitStaged]

/-- The clean callbacks call user code with no shared mutex held. -/
theorem Callback.clear_iff (c : Callback) : c.program.Clear shared [] ↔ c.Clean := by
  cases c with
  | runOnce => exact iff_true_intro runOnce_clear
  | completed => exact taskCompletedCallback_clear_iff
  | timerRun => exact iff_true_intro free_timerRun.2
  | timerRetire => simp [program, Locks.timerRetire, Clean]
  | driverRun => exact iff_true_intro free_driverRun.2
  | driverRetire => simp [program, Locks.driverRetire, Clean]

end Callbacks

/-! ## Threads -/

/-- What unknown code may enter when these operations are available and these callbacks happen. -/
def Enters (A : Operation → Prop) (N : Callback → Prop) :
    Thread Mutex Site → Act Mutex Site → Prop :=
  Entered (fun p => ∃ op, A op ∧ op.program = p) fun p => ∃ c, N c ∧ c.program = p

/-- User code is called with no mutex held, at any depth, and no mutex is taken again, exactly when
no operation and no callback is one of those that are not clean. -/
theorem unlocked_iff (A : Operation → Prop) (N : Callback → Prop) :
    (∀ t : Thread Mutex Site, Lts.Reaches step (Enters A N) .start t → Safe shared t) ↔
      (∀ op, A op → op.Clean) ∧ ∀ c, N c → c.Clean := by
  have hpub : ∀ p, (∃ op, A op ∧ op.program = p) → p.Takes (shared · = true) := by
    rintro p ⟨op, -, rfl⟩
    exact op.checked.1
  refine (safe_iff hpub).trans ⟨fun hclear => ⟨fun op hop => ?_, fun c hc => ?_⟩, ?_⟩
  · exact op.checked.2.mp (hclear _ (.inl ⟨op, hop, rfl⟩))
  · exact c.clear_iff.mp (hclear _ (.inr ⟨c, hc, rfl⟩))
  · rintro ⟨hops, hcallbacks⟩ p (⟨op, hop, rfl⟩ | ⟨c, hc, rfl⟩)
    · exact op.checked.2.mpr (hops op hop)
    · exact c.clear_iff.mpr (hcallbacks c hc)

/-- A first poll of a submission that finds the driver idle, of one SQE. -/
def firstPoll : Operation :=
  .submitPoll 0 false ⟨true, false, false, false, [.pushed, .finished], [0], 0⟩ .admitted

/-- A new submission of the same runtime. -/
def newSubmission : Operation := .submitEntries 1 false false true

/-- An iterator that makes a new submission in `next` locks the data of the driver again. -/
theorem iterator_relocks :
    ¬∀ t : Thread Mutex Site, Lts.Reaches step (Enters (fun _ => True) fun _ => True) .start t →
      Safe shared t := by
  intro hall
  have hrun (t) : Enters (fun _ => True) (fun _ => True) t .run := trivial
  have hop (t) (op : Operation) : Enters (fun _ => True) (fun _ => True) t (.enter op.program) :=
    .inl ⟨op, trivial, rfl⟩
  have hentered : Lts.Reaches step (Enters (fun _ => True) fun _ => True) .start
      (⟨[⟨[], firstPoll.program.events⟩], false⟩ : Thread Mutex Site) :=
    .tail .refl (hop _ firstPoll) rfl
  -- `next` is called with the data and the ring locked
  have hlocked := (hentered.tail (hrun _) rfl).tail (hrun _) rfl
  have hcalled := hlocked.tail (hrun _) rfl
  have hreentered := hcalled.tail (hop _ newSubmission) rfl
  exact (hall _ hreentered).lock .driverData rfl

end Nosv.Locks
