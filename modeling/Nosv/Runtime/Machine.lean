import Mathlib.Data.Finset.Dedup
import Mathlib.Data.Finset.Max
import Nosv.Runtime.Core
import Nosv.Task.Join

/-!
# A runtime and its tasks

Any number of threads call `spawn_on` while the tasks spawned run on their own, each by the steps
of `Task.Machine`, and the owner thread shuts the runtime down. The runtime-state mutex is held by a
successful `spawn_on` until it returns, so that its task can run to the end of its result
publication meanwhile, but cannot leave the registry. Shutdown works on a snapshot of the registry,
and then sleeps on a condition variable until the registry is empty.

`move_of_step` lists in `Move` what a step can do.
-/

namespace Nosv.Runtime

open Nosv.Task (TaskAbort)

variable {T P W : Type}

/-! ## State -/

/-- Where `shutdown_inner` is. -/
inductive ShutdownPc where
  /-- No attempt is under way. -/
  | idle
  /-- Requests the abort of the rest of the snapshot. -/
  | aborting (rest : List TaskId)
  /-- In the drain loop, and whether it sleeps on the condition variable. -/
  | draining (asleep : Bool)
  /-- The drain loop has been left. -/
  | drained
  deriving DecidableEq

/-- `notify_all` on the condition variable. -/
def ShutdownPc.notified : ShutdownPc → ShutdownPc
  | .draining _ => .draining false
  | pc => pc

/-- Nobody sleeps after a notification. -/
theorem ShutdownPc.notified_ne (pc : ShutdownPc) : pc.notified ≠ .draining true := by
  cases pc <;> simp [notified]

/-- A notification moves nobody but the sleeper. -/
theorem ShutdownPc.notified_eq {pc pc' : ShutdownPc} (h : ∀ asleep, pc' ≠ .draining asleep) :
    pc.notified = pc' ↔ pc = pc' := by
  cases pc with
  | draining => exact ⟨fun he => absurd he.symm (h _), fun he => absurd he.symm (h _)⟩
  | idle | aborting | drained => exact Iff.rfl

/-- A runtime with its tasks. -/
structure System (T P W : Type) where
  state : RuntimeState
  /-- A successful `spawn_on` still holds the state mutex. -/
  locked : Bool
  /-- The tasks that were submitted. -/
  tasks : TaskId → Option (Task.State T P W)
  shutdown : ShutdownPc
  /-- Every call of `spawn_on` that returned or is about to. -/
  spawns : List Spawn
  /-- The registry when the lifecycle left `Running`. -/
  snapshot : Finset TaskId

/-- A runtime just built. -/
def System.init : System T P W := ⟨.new, false, fun _ => none, .idle, [], ∅⟩

/-- Reasons the process aborts. -/
inductive RuntimeAbort where
  | task (reason : TaskAbort)
  | taskIdsExhausted
  deriving DecidableEq, Repr

/-! ## Steps -/

/-- Steps of a runtime. -/
inductive Action (T P W : Type) where
  /-- A thread calls `spawn_on`. -/
  | spawn (affinity : Status) (native : SpawnNative)
  /-- The successful call returns. -/
  | spawnReturn
  /-- A step of a task other than the last one of its completed callback. -/
  | task (id : TaskId) (action : Task.Action T P W)
  /-- The completed callback removes its task from the registry and returns. -/
  | taskCompleted (id : TaskId)
  /-- `shutdown_inner` closes the lifecycle and takes its snapshot, in the given order. -/
  | shutdownBegin (order : List TaskId)
  /-- It requests the next abort, or goes on to the drain loop. -/
  | shutdownAbort (submit : Status)
  /-- It looks at the registry, and leaves the loop or goes to sleep. -/
  | drainCheck
  /-- A spurious wake of the condition variable. -/
  | drainWake
  /-- Drivers, types and nOS-V itself are torn down, or an error is returned half way. -/
  | teardown (succeeds : Bool)

/-- The task steps that any thread or callback may take by itself. -/
def taskEnabled : Task.Action T P W → Bool
  | .unregister | .dropRuntime => false
  | _ => true

namespace System

variable (σ : System T P W)

/-- Put a task in its next state. -/
def setTask (id : TaskId) (t : Task.State T P W) : System T P W :=
  { σ with tasks := Function.update σ.tasks id (some t) }

end System

/-- A step of a task inside the system. -/
def lift (x : Except (Halt TaskAbort) (Task.State T P W)) :
    Except (Halt RuntimeAbort) (Task.State T P W) :=
  match x with
  | .ok t => .ok t
  | .error .disabled => .error .disabled
  | .error (.abort e) => .error (.abort (.task e))

/-- The next state of the system. -/
def step [DecidableEq W] (pid : Pid) :
    Action T P W → System T P W → Except (Halt RuntimeAbort) (System T P W)
  | .spawn affinity native, σ =>
    if σ.locked then .error .disabled
    else
      match spawnOn pid pid affinity native σ.state with
      | none => .error (.abort .taskIdsExhausted)
      | some (state, spawn) =>
        let σ := { σ with state := state, spawns := σ.spawns ++ [spawn] }
        -- The descriptor is live before the lock is released, and its callback may run at once.
        match spawn.result, spawn.created with
        | .ok id, some raw => .ok { σ.setTask id (.init pid raw) with locked := true }
        | _, _ => .ok σ
  | .spawnReturn, σ => if σ.locked then .ok { σ with locked := false } else .error .disabled
  | .task id a, σ =>
    match σ.tasks id with
    | none => .error .disabled
    | some t =>
      -- `task_completed` is a step of its own, it needs the lock of the registry.
      if taskEnabled a then
        match lift (Task.step pid a t) with
        | .ok t => .ok (σ.setTask id t)
        | .error e => .error e
      else .error .disabled
  | .taskCompleted id, σ =>
    -- The completed callback waits for a spawn that is under way.
    match σ.locked, σ.tasks id with
    | false, some t =>
      match lift (Task.step pid .unregister t) with
      | .ok t =>
        let (state, drained) := taskCompleted id σ.state
        .ok { σ.setTask id t with
          state := state
          shutdown := if drained then σ.shutdown.notified else σ.shutdown }
      | .error e => .error e
    | _, _ => .error .disabled
  | .shutdownBegin order, σ =>
    match σ.shutdown with
    | .idle =>
      -- The order is that of the hash map, and the list is taken under the lock.
      if σ.locked = false ∧ order.Nodup ∧ order.toFinset = σ.state.tasks then
        match σ.state.lifecycle with
        -- A second call returns at once.
        | .closed => .ok σ
        | .running => .ok { σ with
            state := { σ.state with lifecycle := .closing }
            -- A call that follows a failed teardown goes through the aborts again.
            shutdown := .aborting order
            snapshot := σ.state.tasks }
        | .closing => .ok { σ with shutdown := .aborting order }
      else .error .disabled
    | _ => .error .disabled
  | .shutdownAbort submit, σ =>
    match σ.shutdown with
    -- All aborts are requested, `Condvar::wait` comes next.
    | .aborting [] => .ok { σ with shutdown := .draining false }
    | .aborting (id :: rest) =>
      match σ.tasks id with
      | none => .error .disabled
      | some t =>
        match lift (Task.step pid (.requestAbort submit) t) with
        | .ok t => .ok { σ.setTask id t with shutdown := .aborting rest }
        | .error e => .error e
    | _ => .error .disabled
  | .drainCheck, σ =>
    match σ.shutdown, σ.locked with
    | .draining false, false =>
      -- The predicate is evaluated under the lock, so no notification is lost.
      .ok { σ with shutdown := if σ.state.tasks = ∅ then .drained else .draining true }
    | _, _ => .error .disabled
  | .drainWake, σ =>
    match σ.shutdown with
    | .draining true => .ok { σ with shutdown := .draining false }
    | _ => .error .disabled
  | .teardown succeeds, σ =>
    match σ.shutdown, σ.locked with
    | .drained, false => .ok { σ with
        -- A failed teardown leaves the runtime closing.
        state := { σ.state with lifecycle := if succeeds then .closed else σ.state.lifecycle }
        shutdown := .idle }
    | _, _ => .error .disabled

/-! ## What a step can do -/

variable [DecidableEq W] {pid : Pid} {σ τ : System T P W} {a : Action T P W}

/-- One successful step, by cases. -/
inductive Move (pid : Pid) (σ : System T P W) : Action T P W → System T P W → Prop
  | spawnFailed {affinity : Status} {native : SpawnNative} {state : RuntimeState} {spawn : Spawn}
      (hlock : σ.locked = false) (hfailed : spawn.Failed native.destroy σ.state state) :
      Move pid σ (.spawn affinity native)
        { σ with state := state, spawns := σ.spawns ++ [spawn] }
  | spawned {affinity : Status} {native : SpawnNative} {raw : RawTask} {gate : Task.NativeGate}
      (hlock : σ.locked = false) (hrunning : σ.state.lifecycle = .running) :
      Move pid σ (.spawn affinity native)
        { σ with
          state := { σ.state with
            tasks := insert σ.state.nextTaskId σ.state.tasks
            nextTaskId := σ.state.nextTaskId + 1 }
          spawns := σ.spawns ++ [⟨.ok σ.state.nextTaskId, some σ.state.nextTaskId, some raw, false,
            some gate, true⟩]
          tasks := Function.update σ.tasks σ.state.nextTaskId (some (.init pid raw))
          locked := true }
  | spawnReturn (hlock : σ.locked = true) : Move pid σ .spawnReturn { σ with locked := false }
  | task {id : TaskId} {a : Task.Action T P W} {t u : Task.State T P W}
      (ht : σ.tasks id = some t) (henabled : a ≠ .unregister) (hm : Task.Move pid t a u) :
      Move pid σ (.task id a) (σ.setTask id u)
  | taskCompleted {id : TaskId} {t : Task.State T P W} (hlock : σ.locked = false)
      (ht : σ.tasks id = some t) (hpc : t.pc = .unregistering) :
      Move pid σ (.taskCompleted id)
        { σ with
          tasks := Function.update σ.tasks id (some { t with pc := .done })
          state := { σ.state with tasks := σ.state.tasks.erase id }
          shutdown :=
            if σ.state.tasks.erase id = ∅ then σ.shutdown.notified else σ.shutdown }
  | beginClosed {order : List TaskId} (hshutdown : σ.shutdown = .idle)
      (hclosed : σ.state.lifecycle = .closed) : Move pid σ (.shutdownBegin order) σ
  | beginRunning {order : List TaskId} (hshutdown : σ.shutdown = .idle) (hlock : σ.locked = false)
      (horder : order.toFinset = σ.state.tasks) (hrunning : σ.state.lifecycle = .running) :
      Move pid σ (.shutdownBegin order)
        { σ with
          state := { σ.state with lifecycle := .closing }
          shutdown := .aborting order
          snapshot := σ.state.tasks }
  | beginClosing {order : List TaskId} (hshutdown : σ.shutdown = .idle) (hlock : σ.locked = false)
      (horder : order.toFinset = σ.state.tasks) (hclosing : σ.state.lifecycle = .closing) :
      Move pid σ (.shutdownBegin order) { σ with shutdown := .aborting order }
  | abort {submit : Status} {id : TaskId} {rest : List TaskId} {t u : Task.State T P W}
      (hshutdown : σ.shutdown = .aborting (id :: rest)) (ht : σ.tasks id = some t)
      (hm : Task.Move pid t (.requestAbort submit) u) :
      Move pid σ (.shutdownAbort submit) { σ.setTask id u with shutdown := .aborting rest }
  | abortEnd {submit : Status} (hshutdown : σ.shutdown = .aborting []) :
      Move pid σ (.shutdownAbort submit) { σ with shutdown := .draining false }
  | drainEnd (hshutdown : σ.shutdown = .draining false) (hlock : σ.locked = false)
      (hempty : σ.state.tasks = ∅) : Move pid σ .drainCheck { σ with shutdown := .drained }
  | drainSleep (hshutdown : σ.shutdown = .draining false) (hlock : σ.locked = false)
      (hempty : σ.state.tasks ≠ ∅) : Move pid σ .drainCheck { σ with shutdown := .draining true }
  | drainWake (hshutdown : σ.shutdown = .draining true) :
      Move pid σ .drainWake { σ with shutdown := .draining false }
  | teardown {succeeds : Bool} (hshutdown : σ.shutdown = .drained) (hlock : σ.locked = false) :
      Move pid σ (.teardown succeeds)
        { σ with
          state := { σ.state with
            lifecycle := if succeeds then .closed else σ.state.lifecycle }
          shutdown := .idle }

omit [DecidableEq W] in
/-- A step of a task that succeeds inside the system succeeds. -/
theorem lift_eq_ok {x : Except (Halt Task.TaskAbort) (Task.State T P W)} {t : Task.State T P W}
    (h : lift x = .ok t) : x = .ok t := by
  unfold lift at h
  split at h
  · exact congrArg _ (Except.ok.inj h)
  · cases h
  · cases h

/-- Every successful step is one of the moves. -/
theorem move_of_step (hfresh : σ.state.nextTaskId ∉ σ.state.tasks) (h : step pid a σ = .ok τ) :
    Move pid σ a τ := by
  cases a with
  | spawn affinity native =>
    simp only [step] at h
    split at h
    next => cases h
    next hlock =>
      rw [Bool.not_eq_true] at hlock
      split at h
      next => cases h
      next state spawn hspawn =>
        -- What `spawn_on` returns says whether there is a task to add.
        rcases spawnOn_cases hspawn hfresh with hfailed | ⟨hrunning, raw, rfl, rfl⟩
        · obtain ⟨e, he⟩ := hfailed.error
          rw [he] at h
          cases h
          exact .spawnFailed hlock hfailed
        · cases h
          exact .spawned hlock hrunning
  | spawnReturn =>
    simp only [step] at h
    split at h
    next hlock =>
      cases h
      exact .spawnReturn hlock
    next => cases h
  | task id a =>
    simp only [step] at h
    split at h
    next => cases h
    next t ht =>
      split at h
      next henabled =>
        split at h
        next u hu =>
          -- `unregister` is not among these steps, it is `task_completed`.
          cases h
          exact .task ht (by rintro rfl; cases henabled) (Task.move_of_step (lift_eq_ok hu))
        next => cases h
      next => cases h
  | taskCompleted id =>
    simp only [step] at h
    split at h
    next t hlock ht =>
      split at h
      next u hu =>
        -- The task is at its last step, and no other action does this.
        cases Task.move_of_step (lift_eq_ok hu) with
        | unregister hpc =>
          cases h
          have hmove := @Move.taskCompleted _ _ _ _ pid _ _ _ hlock ht hpc
          simpa [taskCompleted, System.setTask] using hmove
      next => cases h
    next => cases h
  | shutdownBegin order =>
    simp only [step] at h
    split at h
    next hshutdown =>
      split at h
      next hguard =>
        obtain ⟨hlock, -, horder⟩ := hguard
        -- The lifecycle decides what the call does.
        split at h
        next hclosed =>
          cases h
          exact .beginClosed hshutdown hclosed
        next hrunning =>
          cases h
          exact .beginRunning hshutdown hlock horder hrunning
        next hclosing =>
          cases h
          exact .beginClosing hshutdown hlock horder hclosing
      next => cases h
    next => cases h
  | shutdownAbort submit =>
    simp only [step] at h
    split at h
    next hshutdown =>
      cases h
      exact .abortEnd hshutdown
    next id rest hshutdown =>
      split at h
      next => cases h
      next t ht =>
        split at h
        next u hu =>
          cases h
          exact .abort hshutdown ht (Task.move_of_step (lift_eq_ok hu))
        next => cases h
    next => cases h
  | drainCheck =>
    simp only [step] at h
    split at h
    next hshutdown hlock =>
      cases h
      split
      next hempty => exact .drainEnd hshutdown hlock hempty
      next hempty => exact .drainSleep hshutdown hlock hempty
    next => cases h
  | drainWake =>
    simp only [step] at h
    split at h
    next hshutdown =>
      cases h
      exact .drainWake hshutdown
    next => cases h
  | teardown succeeds =>
    simp only [step] at h
    split at h
    next hshutdown hlock =>
      cases h
      exact .teardown hshutdown hlock
    next => cases h

end Nosv.Runtime
