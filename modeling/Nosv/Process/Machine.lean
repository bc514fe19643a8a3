import Nosv.Process.Effects

/-!
# The whole process

One state for everything that a runtime is made of: the registry with its tasks, the ring driver,
the timer driver, the owner thread in `try_block_on`, and what `shutdown_inner` does behind its
drain loop. A step is one of a component, taken where the others let it, or one of `shutdown_inner`
itself, which moves from one component to the next.

Both drivers are there, so the features are the full ones. The owner thread is one thread: it is
not in `try_block_on` while it shuts the runtime down.

`move_of_step` lists in `Move` what a step can do.
-/

namespace Nosv.Process

open Nosv.BlockOn (HandleId)
open Nosv.IoUring (PreparedRing)
open Nosv.Runtime (NativeCall TaskId)

variable {T P W : Type}

/-! ## State -/

/-- Where `shutdown_inner` is behind its drain loop. -/
inductive TeardownPc where
  | outside
  /-- In `shutdown_and_wait` of the ring driver; its type comes next. -/
  | ringWait
  /-- About to shut the timer driver down. -/
  | timer
  /-- In `shutdown_and_wait` of the timer driver; its type comes next. -/
  | timerWait
  | asyncType
  /-- About to finalize nOS-V. -/
  | finalize
  /-- About to close the lifecycle. -/
  | close
  deriving DecidableEq, Repr

/-- The native call that comes next, and where it leads. -/
def TeardownPc.next : TeardownPc → Option (NativeCall × TeardownPc)
  | .ringWait => some (.typeDestroy .ioUring, .timer)
  | .timerWait => some (.typeDestroy .timer, .asyncType)
  | .asyncType => some (.typeDestroy .async, .finalize)
  | .finalize => some (.shutdown, .close)
  | .outside | .timer | .close => none

/-- The calls are those of a complete teardown, in their order. -/
example : ([.ringWait, .timerWait, .asyncType, .finalize] : List TeardownPc).filterMap
    (fun pc => pc.next.map Prod.fst) = (⟨true, true⟩ : Runtime.Features).teardown := rfl

/-- A process with one runtime. -/
structure State (T P W : Type) where
  runtime : Runtime.System T P W
  ring : IoUring.State
  timer : Timer.State W
  root : BlockOn.State
  teardown : TeardownPc

/-- The process when `build` has returned. -/
def State.init (cfg : PreparedRing) (raw : RawTask) (current : Option HandleId) : State T P W :=
  ⟨.init, .init cfg, .init raw, .init current, .outside⟩

/-- Why the process aborts. -/
inductive Abort where
  | runtime (reason : Runtime.RuntimeAbort)
  | ring (reason : IoUring.Abort)
  | timer (reason : Timer.TimerAbort)
  | root (reason : BlockOn.BlockOnAbort)
  deriving DecidableEq, Repr

/-! ## Steps -/

/-- Steps of the process. -/
inductive Action (T P W : Type) where
  | runtime (action : Runtime.Action T P W)
  /-- `shutdown_inner` closes the lifecycle. -/
  | shutdown (order : List TaskId)
  /-- The next step of `shutdown_inner` behind its drain loop, and what its native call returns. -/
  | teardown (native : Status)
  | ring (action : IoUring.Action)
  | timer (action : Timer.Action W)
  | root (action : BlockOn.Action)
  /-- A query of the topology or of the shared memory. -/
  | query (native : Status)
  /-- `topology` or `io_handle` of a handle. -/
  | capability
  /-- The first poll of an owned operation finds the runtime closed. -/
  | operation

/-- Steps of the runtime that `shutdown_inner` takes for the process. -/
def runtimeWhole : Runtime.Action T P W → Bool
  | .shutdownBegin _ | .teardown _ => true
  | _ => false

/-- Steps of the ring that `shutdown_inner` takes for the process. -/
def ringWhole : IoUring.Action → Bool
  | .beginShutdown | .shutdownAndWait => true
  | _ => false

namespace State

variable (σ : State T P W)

/-- The runtime accepts work. -/
def running : Bool := σ.runtime.state.lifecycle = .running

/-- What a component needs from the others to take a step. -/
def allows : Action T P W → Bool
  | .runtime a => !runtimeWhole a
  | .shutdown _ => σ.root.pc = .outside ∧ σ.teardown = .outside
  | .teardown _ => true
  | .ring a => !ringWhole a
  | .timer .shutdown => false
  -- `register` comes behind `ensure_running`.
  | .timer (.bind _ true) => σ.running
  | .timer _ => true
  | .root (.blockOn owner running _ _) =>
    running = σ.running ∧
      (owner = true → σ.runtime.shutdown = .idle ∧ σ.teardown = .outside)
  | .root _ => true
  -- The state mutex is held across the query.
  | .query _ | .capability => !σ.runtime.locked
  | .operation => !σ.running

/-- The call that `shutdown_inner` is in has returned. -/
def returned : Bool :=
  match σ.teardown with
  | .ringWait => σ.ring.owner = .idle
  | .timerWait => σ.timer.owner = .outside
  | _ => true

end State

/-- `shutdown_inner` makes its next native call, once the call it is in has returned. -/
def callStep [DecidableEq W] (pid : Pid) (native : Status) (σ : State T P W) :
    Except (Halt Abort) (State T P W) :=
  match σ.returned, σ.teardown.next, native with
  | true, some (_, next), .ok () => .ok { σ with teardown := next }
  -- The first failure returns, and leaves the lifecycle closing.
  | true, some _, .error _ =>
    Lts.inside .runtime (fun runtime => { σ with runtime := runtime, teardown := .outside })
      (Runtime.step pid (.teardown false) σ.runtime)
  | _, _, _ => .error .disabled

/-- The next step of `shutdown_inner` behind its drain loop. -/
def teardownStep [DecidableEq W] (pid : Pid) (cfg : PreparedRing) (native : Status)
    (σ : State T P W) : Except (Halt Abort) (State T P W) :=
  match σ.teardown with
  | .outside =>
    if σ.runtime.shutdown = .drained then
      Lts.inside .ring (fun ring => { σ with ring := ring, teardown := .ringWait })
        (IoUring.step cfg .shutdownAndWait σ.ring)
    else .error .disabled
  | .timer =>
    Lts.inside .timer (fun timer => { σ with timer := timer, teardown := .timerWait })
      (Timer.step .shutdown σ.timer)
  | .close =>
    Lts.inside .runtime (fun runtime => { σ with runtime := runtime, teardown := .outside })
      (Runtime.step pid (.teardown true) σ.runtime)
  | .ringWait | .timerWait | .asyncType | .finalize => callStep pid native σ

/-- The next state of the process. -/
def step [DecidableEq W] (pid : Pid) (handle : HandleId) (cfg : PreparedRing) (a : Action T P W)
    (σ : State T P W) : Except (Halt Abort) (State T P W) :=
  if σ.allows a then
    match a with
    | .runtime a =>
      Lts.inside .runtime (fun runtime => { σ with runtime := runtime })
        (Runtime.step pid a σ.runtime)
    | .shutdown order =>
      Lts.inside .runtime
        -- Whoever looks from now on finds a runtime that is not running.
        (fun runtime => { σ with runtime := runtime, ring := { σ.ring with running := false } })
        (Runtime.step pid (.shutdownBegin order) σ.runtime)
    | .teardown native => teardownStep pid cfg native σ
    | .ring a => Lts.inside .ring (fun ring => { σ with ring := ring }) (IoUring.step cfg a σ.ring)
    | .timer a => Lts.inside .timer (fun timer => { σ with timer := timer }) (Timer.step a σ.timer)
    | .root a =>
      Lts.inside .root (fun root => { σ with root := root })
        (BlockOn.step pid pid handle a σ.root)
    | .query _ | .capability | .operation => .ok σ
  else .error .disabled

/-- The events of a step. -/
def events (pid : Pid) : Action T P W → State T P W → List Event
  | .runtime a, σ => runtimeEvents pid a σ.runtime
  | .shutdown _, _ => []
  | .teardown native, σ =>
    match σ.teardown.next with
    | some (.typeDestroy t, _) => [.typeDestroy t native.isOk]
    | some (.shutdown, _) => [.shutdown native.isOk]
    | none => []
  | .ring a, σ => ringEvents a σ.ring
  | .timer a, σ => timerEvents a σ.timer
  | .root a, σ => rootEvents pid pid a σ.root
  | .query native, σ => if σ.running then [.query, .answer native.isOk] else [.answer false]
  | .capability, σ => [.answer σ.running]
  | .operation, _ => [.answer false]

/-! ## What a step can do -/

variable [DecidableEq W] {pid : Pid} {handle : HandleId} {cfg : PreparedRing} {σ τ : State T P W}
  {a : Action T P W}

/-- One successful step, by cases. -/
inductive Move (pid : Pid) (handle : HandleId) (cfg : PreparedRing) (σ : State T P W) :
    Action T P W → State T P W → Prop
  | runtime {a : Runtime.Action T P W} {runtime : Runtime.System T P W}
      (ha : runtimeWhole a = false) (hstep : Runtime.step pid a σ.runtime = .ok runtime) :
      Move pid handle cfg σ (.runtime a) { σ with runtime := runtime }
  | shutdown {order : List TaskId} {runtime : Runtime.System T P W}
      (hroot : σ.root.pc = .outside) (hteardown : σ.teardown = .outside)
      (hstep : Runtime.step pid (.shutdownBegin order) σ.runtime = .ok runtime) :
      Move pid handle cfg σ (.shutdown order)
        { σ with runtime := runtime, ring := { σ.ring with running := false } }
  | enterRing {native : Status} {ring : IoUring.State} (hteardown : σ.teardown = .outside)
      (hdrained : σ.runtime.shutdown = .drained)
      (hstep : IoUring.step cfg .shutdownAndWait σ.ring = .ok ring) :
      Move pid handle cfg σ (.teardown native) { σ with ring := ring, teardown := .ringWait }
  | enterTimer {native : Status} {timer : Timer.State W} (hteardown : σ.teardown = .timer)
      (hstep : Timer.step .shutdown σ.timer = .ok timer) :
      Move pid handle cfg σ (.teardown native) { σ with timer := timer, teardown := .timerWait }
  | call {call : NativeCall} {next : TeardownPc} (hnext : σ.teardown.next = some (call, next))
      (hreturned : σ.returned = true) :
      Move pid handle cfg σ (.teardown (.ok ())) { σ with teardown := next }
  | failed {call : NativeCall} {next : TeardownPc} {e : NativeError}
      {runtime : Runtime.System T P W} (hnext : σ.teardown.next = some (call, next))
      (hreturned : σ.returned = true)
      (hstep : Runtime.step pid (.teardown false) σ.runtime = .ok runtime) :
      Move pid handle cfg σ (.teardown (.error e))
        { σ with runtime := runtime, teardown := .outside }
  | close {native : Status} {runtime : Runtime.System T P W} (hteardown : σ.teardown = .close)
      (hstep : Runtime.step pid (.teardown true) σ.runtime = .ok runtime) :
      Move pid handle cfg σ (.teardown native) { σ with runtime := runtime, teardown := .outside }
  | ring {a : IoUring.Action} {ring : IoUring.State} (ha : ringWhole a = false)
      (hstep : IoUring.step cfg a σ.ring = .ok ring) :
      Move pid handle cfg σ (.ring a) { σ with ring := ring }
  | timer {a : Timer.Action W} {timer : Timer.State W} (ha : σ.allows (.timer a) = true)
      (hstep : Timer.step a σ.timer = .ok timer) :
      Move pid handle cfg σ (.timer a) { σ with timer := timer }
  | root {a : BlockOn.Action} {root : BlockOn.State} (ha : σ.allows (.root a) = true)
      (hstep : BlockOn.step pid pid handle a σ.root = .ok root) :
      Move pid handle cfg σ (.root a) { σ with root := root }
  | query {native : Status} (hlock : σ.runtime.locked = false) :
      Move pid handle cfg σ (.query native) σ
  | capability (hlock : σ.runtime.locked = false) : Move pid handle cfg σ .capability σ
  | operation (hrunning : σ.running = false) : Move pid handle cfg σ .operation σ

/-- The native calls of `shutdown_inner` are among the moves. -/
theorem Move.of_call {native : Status} (h : callStep pid native σ = .ok τ) :
    Move pid handle cfg σ (.teardown native) τ := by
  unfold callStep at h
  split at h
  next call next hreturned hnext =>
    cases h
    exact .call hnext hreturned
  next call e hreturned hnext =>
    obtain ⟨runtime, hstep, rfl⟩ := Lts.inside_eq_ok.mp h
    exact @Move.failed T P W _ _ _ _ _ call.1 call.2 e runtime hnext hreturned hstep
  next => cases h

/-- Every successful step of `shutdown_inner` behind its drain loop is one of the moves. -/
theorem Move.of_teardown {native : Status} (h : teardownStep pid cfg native σ = .ok τ) :
    Move pid handle cfg σ (.teardown native) τ := by
  unfold teardownStep at h
  split at h
  next hteardown =>
    split at h
    next hdrained =>
      obtain ⟨ring, hstep, rfl⟩ := Lts.inside_eq_ok.mp h
      exact .enterRing hteardown hdrained hstep
    next => cases h
  next hteardown =>
    obtain ⟨timer, hstep, rfl⟩ := Lts.inside_eq_ok.mp h
    exact .enterTimer hteardown hstep
  next hteardown =>
    obtain ⟨runtime, hstep, rfl⟩ := Lts.inside_eq_ok.mp h
    exact .close hteardown hstep
  all_goals exact .of_call h

/-- Every successful step is one of the moves. -/
theorem move_of_step (h : step pid handle cfg a σ = .ok τ) : Move pid handle cfg σ a τ := by
  unfold step at h
  split at h
  next hallows =>
    cases a with
    | runtime a =>
      obtain ⟨runtime, hstep, rfl⟩ := Lts.inside_eq_ok.mp h
      exact .runtime (by simpa [State.allows] using hallows) hstep
    | shutdown order =>
      obtain ⟨runtime, hstep, rfl⟩ := Lts.inside_eq_ok.mp h
      obtain ⟨hroot, hteardown⟩ := of_decide_eq_true hallows
      exact .shutdown hroot hteardown hstep
    | teardown native => exact .of_teardown h
    | ring a =>
      obtain ⟨ring, hstep, rfl⟩ := Lts.inside_eq_ok.mp h
      exact .ring (by simpa [State.allows] using hallows) hstep
    | timer a =>
      obtain ⟨timer, hstep, rfl⟩ := Lts.inside_eq_ok.mp h
      exact .timer hallows hstep
    | root a =>
      obtain ⟨root, hstep, rfl⟩ := Lts.inside_eq_ok.mp h
      exact .root hallows hstep
    | query native =>
      cases h
      exact .query (by simpa [State.allows] using hallows)
    | capability =>
      cases h
      exact .capability (by simpa [State.allows] using hallows)
    | operation =>
      cases h
      exact .operation (by simpa [State.allows] using hallows)
  next => cases h

end Nosv.Process
