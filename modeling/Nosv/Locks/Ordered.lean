import Nosv.Ext.LockOrder
import Nosv.Locks.Unlocked

/-!
# The order of the mutexes

The mutexes of a runtime are taken from the outside in: a future and a lane before everything, the
state of the runtime before its task gates, the data of the ring driver before the ring and the
ring before a submission, the heap of the timers before a timer, and what is left inside of all of
these. Every operation and every callback keeps to this order on each of its paths, also on those
that call user code with a mutex held.

A thread waits on a condition variable with the mutex of the condition released and holds no other.
Waits for a condition or for nOS-V are not waits for a mutex.

* `Operation.inOrder` and `Callback.inOrder`: every path keeps to the order;
* `no_deadlock`: what follows for any number of threads.
-/

namespace Nosv.Locks

open Reentrancy
open Nosv.Runtime (SpawnNative TaskId)

/-- A mutex may be taken with those of a lower rank held. -/
def rank : Mutex → ℕ
  | .future _ => 0
  | .lane _ => 1
  | .runtimeState | .driverData | .timerHeap => 2
  | .taskGate _ | .ring | .timerState _ => 3
  | .submission _ => 4
  | .join _ | .parker _ | .driverGate | .ownedAdmission | .driverCompleted | .result _ | .waker _
  | .timerGate | .timerCompleted => 5

/-- What only the run of a task takes is outside of everything. -/
theorem rank_lt_of_shared {m m' : Mutex} (hm : shared m = false) (hm' : shared m' = true) :
    rank m < rank m' := by
  cases m <;> cases m' <;> simp_all [shared, rank]

/-- Functions that are in order, with the mutexes held that are given. -/
abbrev InOrder (held : List Mutex) (p : Path) : Prop := p.Ordered rank held

/-! ## Parts -/

section Parts

variable {held : List Mutex} {m : Mutex} {key lane : Key} {task : TaskId}
  {gone forked running bound ready closed targets : Bool} {n : ℕ}

@[simp]
theorem inOrder_critical : InOrder held (critical m) ↔ ∀ m' ∈ held, rank m' < rank m := by
  simp [critical]

@[simp]
theorem inOrder_waiting : InOrder held (waiting m n) ↔ ∀ m' ∈ held, rank m' < rank m := by
  simp [waiting]

@[simp]
theorem inOrder_wakeWaiters : InOrder held (wakeWaiters n) := by
  simp [wakeWaiters]

/-- The state of the runtime is looked at with a lane locked. -/
@[simp]
theorem inOrder_ensureRunning :
    InOrder held (ensureRunning forked) ↔ forked = true ∨ ∀ m' ∈ held, rank m' < 2 := by
  cases forked <;> simp [ensureRunning, rank]

@[simp]
theorem inOrder_schedule :
    InOrder held (schedule gone task) ↔ gone = true ∨ ∀ m' ∈ held, rank m' < 3 := by
  cases gone <;> simp [schedule, rank]

@[simp]
theorem inOrder_notify : InOrder held notify ↔ ∀ m' ∈ held, rank m' < 5 := by
  simp [notify, rank]

@[simp]
theorem inOrder_timerNotify : InOrder held timerNotify ↔ ∀ m' ∈ held, rank m' < 5 := by
  simp [timerNotify, rank]

/-- The submission is locked inside the data of the driver. -/
@[simp]
theorem inOrder_requestCancel : InOrder [] (requestCancel key targets) := by
  simp [requestCancel, rank]

@[simp]
theorem inOrder_requestOwnedCancel : InOrder [] requestOwnedCancel := by
  simp [requestOwnedCancel]

@[simp]
theorem inOrder_finish : InOrder held (finish key) ↔ ∀ m' ∈ held, rank m' < 5 := by
  simp [finish, rank]

/-- Nothing is held where an operation of a lane is polled but the lane. -/
theorem inOrder_ownedPoll {how : Enqueue} {seen : Seen} (hheld : ∀ m' ∈ held, rank m' < 2) :
    InOrder held (ownedPoll key how seen) := by
  have hleaf : ∀ m' ∈ held, rank m' < 5 := fun m' hm' => (hheld m' hm').trans (by omega)
  have henqueue : InOrder held (enqueue key how) := by
    cases how with
    | queued => simp [enqueue]
    | refused forked running wakes =>
      refine ⟨⟨⟨inOrder_ensureRunning.mpr (.inr hheld), ?_⟩, inOrder_finish.mpr hleaf⟩, by simp⟩
      split
      · exact inOrder_critical.mpr hleaf
      · trivial
    | accepted =>
      exact ⟨⟨inOrder_ensureRunning.mpr (.inr hheld), inOrder_critical.mpr hleaf⟩,
        inOrder_notify.mpr hleaf⟩
  refine ⟨henqueue, ?_⟩
  cases seen with
  | first => exact inOrder_critical.mpr hleaf
  | second => exact ⟨inOrder_critical.mpr hleaf, inOrder_critical.mpr hleaf⟩
  | never => exact inOrder_critical.mpr hleaf

theorem inOrder_sleepPoll : InOrder [] (sleepPoll key ready bound forked running closed) := by
  simp [sleepPoll, register, rank]

theorem inOrder_sleepDrop : InOrder [] (sleepDrop key bound) := by
  simp [sleepDrop]

/-- Submissions are locked inside the data of the driver and the ring, also by the loop that asks
the iterator there. -/
theorem inOrder_admitLoop {pending : Bool} {turns : List Turn} :
    InOrder [.ring, .driverData] (admitLoop key pending turns) := by
  induction turns generalizing pending with
  | nil => simp [admitLoop]
  | cons turn turns ih =>
    cases turn with
    | finished | full => simp [admitLoop, rank]
    | pushed => simpa [admitLoop, rank] using @ih false

theorem inOrder_submitStaged {accepted : List Key} :
    InOrder [.ring, .driverData] (submitStaged accepted) := by
  simp [submitStaged, rank]

/-- The ring is locked inside the data of the driver. -/
theorem inOrder_admitEntries {a : Admission} : InOrder [] (admitEntries key a) := by
  have hloop : InOrder [.ring, .driverData] (admitLoop key a.pending a.turns) := inOrder_admitLoop
  have hstaged : InOrder [.ring, .driverData] (submitStaged a.accepted) := inOrder_submitStaged
  simp [admitEntries, hloop, hstaged, rank]

end Parts

/-! ## Operations and callbacks -/

/-- A spawn locks the gate of its task inside the state of the runtime. -/
theorem inOrder_spawnOn {rejected running : Bool} {native : SpawnNative} {task : TaskId} :
    InOrder [] (spawnOn rejected running native task) := by
  obtain ⟨create, metadata, submit, destroy⟩ := native
  cases create <;> cases metadata <;> cases submit <;> simp [spawnOn, Prog.owning, rank]

/-- Every public operation keeps to the order. -/
theorem Operation.inOrder (op : Operation) : InOrder [] op.program := by
  cases op with
  | spawn => exact inOrder_spawnOn
  | blockOn => simp [program, tryBlockOn, Prog.owning]
  | shutdown => simp [program, Locks.shutdown, driverShutdown, timerShutdown]
  | submitPoll key closed a how =>
    have hadmit : InOrder [] (admitEntries key a) := inOrder_admitEntries
    cases how <;> simp [program, Locks.submitPoll, SubmitEnd.program, hadmit]
  | ownedPoll => exact inOrder_ownedPoll (by simp)
  | streamPoll lane polls =>
    simp only [program, Locks.streamPoll, Prog.ordered_each, Prog.ordered_guarded]
    rintro ⟨key, how, seen⟩ -
    exact ⟨by simp, inOrder_ownedPoll (by simp [rank])⟩
  | sleepPoll => exact inOrder_sleepPoll
  | sleepDrop => exact inOrder_sleepDrop
  | timeoutPoll => simp [program, Locks.timeoutPoll, inOrder_sleepPoll]
  | timeoutDrop => simp [program, Locks.timeoutDrop, inOrder_sleepDrop]
  | submitEntries => simp [program, Locks.submitEntries]
  | query | schedule | wakeParker | join | isFinished | completions | requestCancel =>
    simp [program]
  | joinDrop | withCurrent | yieldPoll | ownedDrop =>
    simp [program, Locks.joinDrop, Locks.withCurrent, Locks.yieldPoll, Locks.ownedDrop]

/-- The mutexes of public operations are shared. -/
theorem Operation.takes (op : Operation) : op.program.Takes (shared · = true) := op.checked.1

/-- A pass of the ring driver locks the ring and the submissions inside its data. -/
theorem inOrder_driverRun {turn : RingTurn} : InOrder [] (driverRun turn) := by
  have hstaged : InOrder [.ring, .driverData] (submitStaged turn.accepted) := inOrder_submitStaged
  have hdispatch : ∀ cqe, InOrder [] (dispatch cqe) := fun cqe => by
    cases cqe <;> simp [dispatch, rank]
  simp [driverRun, pass, hstaged, hdispatch, rank]

/-- Every callback keeps to the order. -/
theorem Callback.inOrder (c : Callback) : InOrder [] c.program := by
  cases c with
  | runOnce task how => cases how <;> simp [program, Locks.runOnce, takeAndDropFuture, store]
  | completed task destroy output waiter detached gone =>
    cases destroy <;> simp [program, taskCompletedCallback]
  | timerRun => simp [program, Locks.timerRun, rank]
  | timerRetire => simp [program, Locks.timerRetire]
  | driverRun => exact inOrder_driverRun
  | driverRetire => simp [program, Locks.driverRetire]

/-! ## Threads -/

variable {ι : Type*} [Fintype ι] [DecidableEq ι]

/-- Operations are entered at any depth and callbacks at the bottom, neither from user code that
was called with a mutex held that operations take. -/
abbrev Enterable (A : Operation → Prop) (N : Callback → Prop) :
    (ι → Thread Mutex Site) → ι × Act Mutex Site → Prop :=
  Quiet shared (fun p => ∃ op, A op ∧ op.program = p) fun p => ∃ c, N c ∧ c.program = p

/-- Any number of threads, in any operations and callbacks, entered from user code to any depth: no
thread takes a mutex again that it holds, nobody waits in a circle, who waits for a mutex waits in
the end for a thread that waits for none, and if user code returns, all of them come to an end. -/
theorem no_deadlock (A : Operation → Prop) (N : Callback → Prop) (s : ι → Thread Mutex Site)
    (h : Lts.Reaches stepAll (Enterable A N) (fun _ => .start) s) :
    (∀ i m, step .run (s i) ≠ .error (.abort m)) ∧
      (∀ i, ¬Relation.TransGen (Waits s) i i) ∧
      (∀ i, ∃ j, Relation.ReflTransGen (Waits s) i j ∧ ∀ k, ¬Waits s j k) ∧
      ∃ s', Lts.Reaches stepAll Ending s s' ∧ ∀ i, (s' i).stack = [] := by
  have hs : ∀ i, (s i).Orderly rank shared := by
    refine orderly_of_reaches ?_ ?_ h
    · rintro p ⟨op, -, rfl⟩
      exact ⟨op.inOrder, op.takes⟩
    · rintro p ⟨c, -, rfl⟩
      exact c.inOrder
  have hrank : ∀ m m', shared m = false → shared m' = true → rank m < rank m' :=
    fun _ _ => rank_lt_of_shared
  exact ⟨fun i _ => (hs i).not_abort hrank, fun _ => not_transGen_self hs hrank,
    exists_not_waits hs hrank, exists_ending hs hrank⟩

/-- A thread opens a submission while another one polls its own and holds the data of the driver. -/
theorem no_deadlock_contended :
    ∃ s : Fin 2 → Thread Mutex Site,
      Lts.Reaches stepAll (Enterable (fun _ => True) fun _ => True) (fun _ => .start) s ∧
      Waits s 1 0 ∧ ¬Relation.TransGen (Waits s) 1 1 ∧
      ∃ s', Lts.Reaches stepAll Ending s s' ∧ ∀ i, (s' i).stack = [] := by
  have hrun (s : Fin 2 → Thread Mutex Site) (i) :
      Enterable (fun _ => True) (fun _ => True) s (i, .run) := trivial
  have hop (s : Fin 2 → Thread Mutex Site) (i) (op : Operation) (hheld : (s i).held = []) :
      Enterable (fun _ => True) (fun _ => True) s (i, .enter op.program) :=
    ⟨.inl ⟨op, trivial, rfl⟩, by simp [hheld]⟩
  have hstart : Lts.Reaches stepAll (Enterable (fun _ => True) fun _ => True)
      (fun _ : Fin 2 => (.start : Thread Mutex Site)) fun _ => .start := .refl
  have hpolled := hstart.tail (hop _ 0 firstPoll rfl) rfl
  have hlocked := hpolled.tail (hrun _ 0) rfl
  have hopened := hlocked.tail (hop _ 1 newSubmission rfl) rfl
  obtain ⟨-, hcircle, -, hends⟩ := no_deadlock _ _ _ hopened
  exact ⟨_, hopened, rfl, hcircle 1, hends⟩

end Nosv.Locks
