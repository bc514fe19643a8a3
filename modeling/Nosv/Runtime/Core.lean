import Mathlib.Algebra.Group.Nat.Defs
import Mathlib.Data.Finset.Basic
import Nosv.Task.Core

/-!
# Lifecycle, registry and spawn

What the runtime-state mutex of `runtime.rs` protects, and `spawn_on` of `task.rs`. The body of
`spawn_on` runs under that mutex up to its return, and what it builds is reachable by nobody else
before `ffi::submit` succeeds, so it is one function of the state and of what the native calls
return.

`spawnOn_cases` says what a spawn does, and `Spawn.Failed.checks` what a failed one leaves.
-/

namespace Nosv.Runtime

open Nosv.Task (NativeGate)

/-- Identifier used for registry lookup. -/
abbrev TaskId := ℕ

/-- Acceptance and shutdown phase. -/
inductive Lifecycle where
  | running
  | closing
  | closed
  deriving DecidableEq, Repr

/-- What the runtime-state mutex protects, with the source of task identifiers. -/
structure RuntimeState where
  lifecycle : Lifecycle
  /-- Tasks registered until their completed callback has destroyed native ownership. -/
  tasks : Finset TaskId
  nextTaskId : ℕ

/-- A runtime just built. -/
def RuntimeState.new : RuntimeState := ⟨.running, ∅, 1⟩

/-- Why a task could not be spawned. -/
inductive SpawnError where
  | runtimeClosed
  | forkedProcess
  | native (error : NativeError)
  deriving DecidableEq, Repr

/-- What the native calls of one `spawn_on` return. -/
structure SpawnNative where
  create : Except NativeError RawTask
  metadata : Status
  submit : Status
  /-- `destroy` on a path that gives up the descriptor. Its result is ignored. -/
  destroy : Status

/-- What one call of `spawn_on` leaves. -/
structure Spawn where
  result : Except SpawnError TaskId
  /-- Identifier it allocated. -/
  id : Option TaskId
  /-- Descriptor it created. -/
  created : Option RawTask
  /-- It has destroyed that descriptor again. -/
  destroyed : Bool
  /-- Gate of the task, once there is a descriptor in it. -/
  gate : Option NativeGate
  /-- The future was not dropped. -/
  future : Bool

/-- The largest identifier aborts instead of wrapping. -/
def taskIdLimit : ℕ := 2 ^ 64 - 1

/-- `next_task_id`: the identifier allocated, or none when the process aborts. -/
def nextTaskId (state : RuntimeState) : Option (TaskId × RuntimeState) :=
  if state.nextTaskId = taskIdLimit then none
  -- The counter is checked before it moves, so the last identifier is never handed out.
  else some (state.nextTaskId, { state with nextTaskId := state.nextTaskId + 1 })

/-- A call that failed before it built anything, and dropped the future. -/
def Spawn.failed (error : SpawnError) : Spawn := ⟨.error error, none, none, false, none, false⟩

/-- The part of `spawn_on` behind its checks: creates the descriptor, registers the task and
submits it, or takes back what it has done. -/
def launch (native : SpawnNative) (id : TaskId) (state : RuntimeState) : RuntimeState × Spawn :=
  match native.create, native.metadata, native.submit with
  -- No descriptor: the future is dropped with the `Runnable`.
  | .error e, _, _ => (state, { Spawn.failed (.native e) with id := id })
  | .ok raw, .error e, _ =>
    -- `nosv_create` succeeded, so the descriptor is destroyed before the error is returned.
    (state, { Spawn.failed (.native e) with
      id := id
      created := raw
      destroyed := native.destroy.isOk })
  | .ok raw, .ok (), .error e =>
    -- Registered before the submission, and taken back under the same lock.
    let state := { state with tasks := insert id state.tasks }
    ({ state with tasks := state.tasks.erase id },
      { Spawn.failed (.native e) with
        id := id
        created := raw
        destroyed := native.destroy.isOk
        gate := some ⟨none, .destroyed, true, false, false⟩ })
  | .ok raw, .ok (), .ok () =>
    ({ state with tasks := insert id state.tasks },
      ⟨.ok id, id, raw, false, some ⟨some raw, .live, true, false, false⟩, true⟩)

/-- Constructs, registers and initially submits a native task for one future. `none` means that
the process aborts. -/
def spawnOn (runtime pid : Pid) (affinity : Status) (native : SpawnNative) (state : RuntimeState) :
    Option (RuntimeState × Spawn) :=
  -- The checks come in the order of the source: process, affinity, lifecycle, identifier.
  if runtime ≠ pid then some (state, .failed .forkedProcess)
  else
    match affinity with
    | .error e => some (state, .failed (.native e))
    | .ok () =>
      if state.lifecycle ≠ .running then some (state, .failed .runtimeClosed)
      else (nextTaskId state).map fun (id, state) => launch native id state

/-- `task_completed`: the registry without the task, and whether shutdown is notified. -/
def taskCompleted (id : TaskId) (state : RuntimeState) : RuntimeState × Bool :=
  let tasks := state.tasks.erase id
  -- Only the task that leaves last notifies the condition variable.
  ({ state with tasks := tasks }, tasks = ∅)

section Cases

variable {runtime pid : Pid} {affinity : Status} {native : SpawnNative}
  {state state' : RuntimeState} {spawn : Spawn}

/-- What `spawn_on` leaves when it fails: no registry entry, no future, and no descriptor but one
it has tried to destroy. -/
structure Spawn.Failed (spawn : Spawn) (destroy : Status) (state state' : RuntimeState) : Prop where
  error : ∃ e, spawn.result = .error e
  future : spawn.future = false
  lifecycle : state'.lifecycle = state.lifecycle
  tasks : state'.tasks = state.tasks
  next : state.nextTaskId ≤ state'.nextTaskId
  id : ∀ id, spawn.id = some id → state.nextTaskId ≤ id ∧ id < state'.nextTaskId
  created : spawn.created.isSome = true →
    state.lifecycle = .running ∧ spawn.destroyed = destroy.isOk

/-- A call that fails its checks changes nothing. -/
theorem Spawn.Failed.checks {error : SpawnError} {destroy : Status} :
    (Spawn.failed error).Failed destroy state state :=
  ⟨⟨error, rfl⟩, rfl, rfl, rfl, le_rfl, nofun, nofun⟩

/-- What is left of a call once it has an identifier. -/
theorem launch_cases
    (h : launch native state.nextTaskId { state with nextTaskId := state.nextTaskId + 1 } =
      (state', spawn)) (hrunning : state.lifecycle = .running)
    (hfresh : state.nextTaskId ∉ state.tasks) :
    spawn.Failed native.destroy state state' ∨
    (state.lifecycle = .running ∧ ∃ raw,
      state' = { state with
        tasks := insert state.nextTaskId state.tasks, nextTaskId := state.nextTaskId + 1 } ∧
      spawn = ⟨.ok state.nextTaskId, some state.nextTaskId, some raw, false,
        some ⟨some raw, .live, true, false, false⟩, true⟩) := by
  -- The identifier is used up whatever happens next.
  have hid : ∀ id, some state.nextTaskId = some id →
      state.nextTaskId ≤ id ∧ id < state.nextTaskId + 1 := by
    rintro id ⟨⟩
    exact ⟨le_rfl, Nat.lt_succ_self _⟩
  obtain ⟨create, metadata, submit, destroy⟩ := native
  cases create with
  | error e =>
    cases h
    exact .inl ⟨⟨_, rfl⟩, rfl, rfl, rfl, Nat.le_succ _, hid, nofun⟩
  | ok raw =>
    cases metadata with
    | error e =>
      cases h
      exact .inl ⟨⟨_, rfl⟩, rfl, rfl, rfl, Nat.le_succ _, hid, fun _ => ⟨hrunning, rfl⟩⟩
    | ok =>
      cases submit with
      | error e =>
        cases h
        exact .inl ⟨⟨_, rfl⟩, rfl, rfl, Finset.erase_insert hfresh, Nat.le_succ _, hid,
          fun _ => ⟨hrunning, rfl⟩⟩
      | ok =>
        cases h
        exact .inr ⟨hrunning, raw, rfl, rfl⟩

/-- `spawn_on` fails, or registers a submitted task in a running runtime. -/
theorem spawnOn_cases (h : spawnOn runtime pid affinity native state = some (state', spawn))
    (hfresh : state.nextTaskId ∉ state.tasks) :
    spawn.Failed native.destroy state state' ∨
    (state.lifecycle = .running ∧ ∃ raw,
      state' = { state with
        tasks := insert state.nextTaskId state.tasks, nextTaskId := state.nextTaskId + 1 } ∧
      spawn = ⟨.ok state.nextTaskId, some state.nextTaskId, some raw, false,
        some ⟨some raw, .live, true, false, false⟩, true⟩) := by
  unfold spawnOn at h
  split at h
  next =>
    cases h
    exact .inl .checks
  next =>
    cases affinity with
    | error e =>
      cases h
      exact .inl .checks
    | ok =>
      dsimp only at h
      split at h
      next =>
        cases h
        exact .inl .checks
      -- Past the checks an identifier is taken, and the native calls begin.
      next hrunning =>
        rw [ne_eq, Decidable.not_not] at hrunning
        obtain ⟨⟨id, state''⟩, hid, hlaunch⟩ := Option.map_eq_some_iff.mp h
        unfold nextTaskId at hid
        split_ifs at hid
        cases hid
        exact launch_cases hlaunch hrunning hfresh

end Cases

end Nosv.Runtime
