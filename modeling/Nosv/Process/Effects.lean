import Nosv.IoUring.Resting
import Nosv.IoUring.Revoked
import Nosv.Process.Native
import Nosv.Runtime.Spawning
import Nosv.Timer.Machine

/-!
# The events of the components

What each step of a task, of the registry, of the two drivers and of the owner thread does to nOS-V
and the ring, as a function of the action and the state it is taken in, in the order of the source.
`taskEvents_cases`, `spawnEvents_cases`, `timerEvents_cases`, `ringEvents_cases` and
`rootEvents_cases` say which descriptor a step needs, and which it gives up.

Priority, affinity and submit windows have no part in the lifetime of a descriptor and are no
events.
-/

namespace Nosv.Process

variable {T P W : Type}

/-! ## Tasks -/

section Task

open Nosv.Task (processMatches)
open Nosv.Runtime (TaskId)

/-- The events of a step of a task. -/
def taskEvents (pid : Pid) (id : TaskId) : Task.Action T P W → Task.State T P W → List Event
  | .schedule _, t =>
    if processMatches t.runtime pid ∧ t.gate.phase = .live ∧ t.gate.wakeSubmitted = false then
      [.use (.task id) .submit]
    else []
  | .requestAbort _, t =>
    if processMatches t.runtime pid ∧ t.gate.phase = .live ∧ t.gate.cancelRequested = false ∧
        t.gate.wakeSubmitted = false then
      [.use (.task id) .submit]
    else []
  -- Both callbacks find their owner through the metadata.
  | .enter, _ => [.use (.task id) .metadata]
  | .suspend _, _ => [.use (.task id) .suspend]
  | .retire destroy, _ => [.use (.task id) .metadata, .destroy (.task id) destroy.isOk]
  | _, _ => []

variable {pid : Pid} {id : TaskId} {t u : Task.State T P W} {a : Task.Action T P W}

variable [DecidableEq W]

variable (id) in
/-- A step of a task uses a descriptor that it leaves in place, or gives it up. -/
theorem taskEvents_cases (hG : Task.Gated pid t) (hm : Task.Move pid t a u) :
    (∃ calls : List Use, taskEvents pid id a t = calls.map (Event.use (.task id)) ∧
      (calls ≠ [] → t.pc.stage ≠ .gone) ∧ (u.pc.stage = .gone ↔ t.pc.stage = .gone)) ∨
    (∃ ok, taskEvents pid id a t = [.use (.task id) .metadata, .destroy (.task id) ok]) ∧
      t.pc.stage ≠ .gone ∧ u.pc.stage = .gone := by
  have hlive : t.gate.phase = .live → t.pc.stage ≠ .gone := hG.fits.ne_gone
  -- A step that makes no call, and a step that makes one.
  have hnone : taskEvents pid id a t = [] → (u.pc.stage = .gone ↔ t.pc.stage = .gone) →
      ∃ calls : List Use, taskEvents pid id a t = calls.map (Event.use (.task id)) ∧
        (calls ≠ [] → t.pc.stage ≠ .gone) ∧ (u.pc.stage = .gone ↔ t.pc.stage = .gone) :=
    fun h hstage => ⟨[], h, fun hne => absurd rfl hne, hstage⟩
  have hone : ∀ call, taskEvents pid id a t = [.use (.task id) call] → t.pc.stage ≠ .gone →
      (u.pc.stage = .gone ↔ t.pc.stage = .gone) →
      ∃ calls : List Use, taskEvents pid id a t = calls.map (Event.use (.task id)) ∧
        (calls ≠ [] → t.pc.stage ≠ .gone) ∧ (u.pc.stage = .gone ↔ t.pc.stage = .gone) :=
    fun call h hne hstage => ⟨[call], h, fun _ => hne, hstage⟩
  cases hm with
  | wakeNone hcoalesced =>
    refine .inl (hnone (if_neg ?_) Iff.rfl)
    rintro ⟨hmatch, hphase, hwake⟩
    rw [hcoalesced hmatch hphase] at hwake
    cases hwake
  | wake hphase hwake =>
    have hruntime := hG.runtime (hlive hphase)
    refine .inl (hone .submit (if_pos ⟨?_, hphase, hwake⟩) (hlive hphase) Iff.rfl)
    simp [processMatches, hruntime]
  | abortNone hlost =>
    refine .inl (hnone (if_neg ?_) Iff.rfl)
    rintro ⟨hmatch, hphase, hcancel, -⟩
    rw [hlost hmatch hphase] at hcancel
    cases hcancel
  | abortQuiet hphase hcancel hwake =>
    refine .inl (hnone (if_neg ?_) Iff.rfl)
    rintro ⟨-, -, -, hwake'⟩
    rw [hwake] at hwake'
    cases hwake'
  | abort hphase hcancel hwake =>
    have hruntime := hG.runtime (hlive hphase)
    refine .inl (hone .submit (if_pos ⟨?_, hphase, hcancel, hwake⟩) (hlive hphase) Iff.rfl)
    simp [processMatches, hruntime]
  | enter hpc =>
    exact .inl (hone .metadata rfl (by simp [hpc, Task.Pc.stage]) (by simp [hpc, Task.Pc.stage]))
  | suspend hpc | suspendError hpc =>
    exact .inl (hone .suspend rfl (by simp [hpc, Task.Pc.stage]) (by simp [hpc, Task.Pc.stage]))
  | retire hpc => exact .inr ⟨⟨_, rfl⟩, by simp [hpc, Task.Pc.stage], rfl⟩
  | joinPoll | dropRuntime => exact .inl (hnone rfl Iff.rfl)
  | dropFuture hpc =>
    exact .inl (hnone rfl (by rw [Task.Cleanup.next_stage, hpc]; simp [Task.Pc.stage]))
  | unwind hpc =>
    refine .inl (hnone rfl ?_)
    rcases hpc with ⟨_, hpc⟩ | hpc <;> simp [hpc, Task.Pc.stage]
  | upgrade hpc | leave hpc | store hpc =>
    refine .inl (hnone rfl ?_)
    rw [hpc]
    dsimp only
    split <;> simp_all [Task.Pc.stage]
  | startPoll hpc | startCancelled hpc | unavailable hpc | poll hpc | finishPending hpc
  | finishCancelled hpc | finishReady hpc | finishPanicked hpc | suspendFailed hpc
  | replaceTerminal hpc | discard hpc | discardLate hpc | forcePanic hpc | overwrite hpc
  | publish hpc | unregister hpc =>
    exact .inl (hnone rfl (by simp [hpc, Task.Pc.stage]))

end Task

/-! ## Spawning -/

section Runtime

open Nosv.Runtime (RuntimeState SpawnNative System TaskId taskIdLimit)

/-- The events of one `spawn_on`: the paths that give up a descriptor destroy it, and go on whatever
nOS-V says to that. -/
def spawnEvents (runtime pid : Pid) (affinity : Status) (native : SpawnNative)
    (state : RuntimeState) : List Event :=
  if runtime ≠ pid ∨ affinity.isOk = false ∨ state.lifecycle ≠ .running then [.answer false]
  else
    let d : Descriptor := .task state.nextTaskId
    match native.create, native.metadata, native.submit with
    | .error _, _, _ => [.create d false, .answer false]
    | .ok _, .error _, _ =>
      [.create d true, .use d .metadata, .destroy d native.destroy.isOk, .answer false]
    | .ok _, .ok (), .error _ =>
      [.create d true, .use d .metadata, .use d .submit, .destroy d native.destroy.isOk,
        .answer false]
    | .ok _, .ok (), .ok () =>
      [.create d true, .use d .metadata, .use d .submit, .answer true]

/-- The events of a step of the runtime. -/
def runtimeEvents (pid : Pid) : Runtime.Action T P W → System T P W → List Event
  | .spawn affinity native, σ => spawnEvents pid pid affinity native σ.state
  | .task id a, σ => (σ.tasks id).elim [] (taskEvents pid id a)
  | .shutdownAbort submit, σ =>
    match σ.shutdown with
    | .aborting (id :: _) => (σ.tasks id).elim [] (taskEvents pid id (.requestAbort submit))
    | _ => []
  | _, _ => []

variable {pid : Pid} {affinity : Status} {native : SpawnNative} {state state' : RuntimeState}
  {spawn : Runtime.Spawn}

/-- A call of `spawn_on` is refused, gives up what it has created, or leaves a task. -/
theorem spawnEvents_cases
    (h : Runtime.spawnOn pid pid affinity native state = some (state', spawn)) :
    (spawnEvents pid pid affinity native state = [.answer false] ∧ state' = state ∧
      (∃ e, spawn.result = .error e)) ∨
    (state.lifecycle = .running ∧ state'.lifecycle = .running ∧
      state'.nextTaskId = state.nextTaskId + 1 ∧
      ((∃ e, spawn.result = .error e) ∧
        (∃ calls : List Use, spawnEvents pid pid affinity native state =
          .create (.task state.nextTaskId) true ::
            (calls.map (Event.use (.task state.nextTaskId)) ++
              [.destroy (.task state.nextTaskId) native.destroy.isOk, .answer false])) ∨
      (∃ e, spawn.result = .error e) ∧ spawnEvents pid pid affinity native state =
        [.create (.task state.nextTaskId) false, .answer false] ∨
      (∃ raw, spawn.result = .ok state.nextTaskId ∧ spawn.created = some raw) ∧
        ∃ calls : List Use, spawnEvents pid pid affinity native state =
          .create (.task state.nextTaskId) true ::
            (calls.map (Event.use (.task state.nextTaskId)) ++ [.answer true]))) := by
  unfold Runtime.spawnOn at h
  unfold spawnEvents
  rw [if_neg (by simp)] at h
  cases affinity with
  | error e =>
    cases h
    exact .inl ⟨by simp [Except.isOk, Except.toBool], rfl, _, rfl⟩
  | ok =>
    dsimp only at h
    split at h
    next hrunning =>
      cases h
      exact .inl ⟨if_pos (.inr (.inr hrunning)), rfl, _, rfl⟩
    next hrunning =>
      rw [ne_eq, Decidable.not_not] at hrunning
      obtain ⟨⟨id, state''⟩, hid, hlaunch⟩ := Option.map_eq_some_iff.mp h
      unfold Runtime.nextTaskId at hid
      split_ifs at hid
      cases hid
      rw [if_neg (by simp [hrunning, Except.isOk, Except.toBool])]
      refine .inr ⟨hrunning, ?_⟩
      -- The native calls of the source, one after the other.
      obtain ⟨create, metadata, submit, destroy⟩ := native
      cases create with
      | error e =>
        cases hlaunch
        exact ⟨hrunning, rfl, .inr (.inl ⟨⟨_, rfl⟩, rfl⟩)⟩
      | ok raw =>
        cases metadata with
        | error e =>
          cases hlaunch
          exact ⟨hrunning, rfl, .inl ⟨⟨_, rfl⟩, [.metadata], rfl⟩⟩
        | ok =>
          cases submit with
          | error e =>
            cases hlaunch
            exact ⟨hrunning, rfl, .inl ⟨⟨_, rfl⟩, [.metadata, .submit], rfl⟩⟩
          | ok =>
            cases hlaunch
            exact ⟨hrunning, rfl, .inr (.inr ⟨⟨raw, rfl, rfl⟩, [.metadata, .submit], rfl⟩)⟩

end Runtime

/-! ## The timer driver -/

section Timer

/-- The call that interrupts a park of the timer driver. -/
def wakeUse : Timer.Wake → Use
  | .submit => .submit
  | .deadlineWake => .deadlineWake

/-- The events of a step of the timer driver, its sleeps and its owner. -/
def timerEvents : Timer.Action W → Timer.State W → List Event
  | .notify _ _, σ | .shutdownNotify _, σ =>
    (σ.gate.phase.wake.map fun wake => .use .timer (wakeUse wake)).toList
  -- Without a running runtime the first pending poll panics.
  | .bind _ running, _ => [.answer running]
  | .driver native _, σ =>
    match σ.pc with
    | .parked _ => [.use .timer .park]
    | .finished => [.use .timer .metadata, .destroy .timer native.isOk]
    | _ => []
  | _, _ => []

/-- How the descriptor, the phase of the gate and the completion follow the driver. -/
structure TimerOwned (σ : Timer.State W) : Prop where
  raw : σ.gate.raw = none ↔ σ.pc = .retired ∨ σ.pc = .done
  phase : σ.gate.phase = .destroyed ↔ σ.pc = .retired ∨ σ.pc = .done
  completed : σ.completed = true ↔ σ.pc = .done

namespace TimerOwned

variable {σ τ : Timer.State W} {a : Timer.Action W}

/-- A driver just submitted. -/
theorem init (raw : RawTask) : TimerOwned (Timer.State.init raw : Timer.State W) := by
  constructor <;> simp [Timer.State.init, Timer.DriverGate.started]

/-- A step that leaves the gate and the driver alone. -/
theorem frame (h : TimerOwned σ) (hgate : τ.gate = σ.gate) (hpc : τ.pc = σ.pc)
    (hcompleted : τ.completed = σ.completed) : TimerOwned τ := by
  obtain ⟨h1, h2, h3⟩ := h
  constructor
  · rw [hgate, hpc, h1]
  · rw [hgate, hpc, h2]
  · rw [hcompleted, hpc, h3]

/-- A notification. -/
theorem noted (h : TimerOwned σ) (hgate : τ.gate = σ.gate.noted) (hpc : τ.pc = σ.pc)
    (hcompleted : τ.completed = σ.completed) : TimerOwned τ := by
  obtain ⟨h1, h2, h3⟩ := h
  have hphase : σ.gate.noted.phase = .destroyed ↔ σ.gate.phase = .destroyed := by
    unfold Timer.DriverGate.noted Timer.DriverPark.wake
    cases σ.gate.phase <;> simp
  constructor
  · rw [hgate, hpc, ← h1]
    rfl
  · rw [hgate, hpc, hphase, h2]
  · rw [hcompleted, hpc, h3]

/-- The driver goes from one place before its retirement to another. -/
theorem advance (h : TimerOwned σ) (hσ : σ.pc ≠ .retired ∧ σ.pc ≠ .done)
    (hτ : τ.pc ≠ .retired ∧ τ.pc ≠ .done) (hraw : τ.gate.raw = σ.gate.raw)
    (hphase : τ.gate.phase = σ.gate.phase ∨ τ.gate.phase ≠ .destroyed)
    (hcompleted : τ.completed = σ.completed) : TimerOwned τ := by
  obtain ⟨h1, h2, h3⟩ := h
  constructor
  · rw [hraw, h1]
    tauto
  · rcases hphase with hphase | hphase
    · rw [hphase, h2]
      tauto
    · tauto
  · rw [hcompleted, h3]
    tauto

/-- Every step of the timer driver keeps its task, its gate and its announcement together. -/
theorem driverMove (h : TimerOwned σ) (hm : Timer.DriverMove σ τ) : TimerOwned τ := by
  cases hm with
  | retire hpc => exact ⟨by simp, by simp, by simp [h.completed, hpc]⟩
  | complete hpc =>
    have hraw := h.raw.mpr (.inl hpc)
    have hphase := h.phase.mpr (.inl hpc)
    exact ⟨by simp [hraw], by simp [hphase], by simp⟩
  | drain hpc hentry => exact h.frame rfl rfl rfl
  | skip hpc hpeek hdue => exact h.frame rfl rfl rfl
  | prune hpc hpeek => exact h.frame rfl rfl rfl
  | decideNotified hpc | resume hpc | terminate hpc =>
    exact h.advance (by simp [hpc]) (by simp) rfl (.inr (by simp)) rfl
  | @park wait hpc =>
    refine h.advance (by simp [hpc]) (by simp) rfl (.inr ?_) rfl
    unfold Timer.DriverPark.ofWait
    dsimp only
    split <;> simp
  | scanShutdown hpc | scan hpc | drained hpc | fire hpc | expired hpc | pruned hpc | wake hpc
  | woken hpc | checkShutdown hpc | check hpc | unpark hpc =>
    exact h.advance (by simp [hpc]) (by simp) rfl (.inl rfl) rfl

/-- Every step keeps the task of the timer driver, its gate and its announcement together. -/
theorem move (h : TimerOwned σ) (hm : Timer.Move σ a τ) : TimerOwned τ := by
  cases hm with
  | driver hm => exact h.driverMove hm
  | notifyPushed | notifyDropped | shutdownNotify => exact h.noted rfl rfl rfl
  | _ => exact h.frame rfl rfl rfl

/-- In every reachable state the task of the timer driver, its gate and its announcement agree. -/
theorem of_reaches [DecidableEq W] {raw : RawTask}
    (h : Lts.Reaches Timer.step Lts.Always (.init raw) σ) : TimerOwned σ :=
  h.invariant (.init raw) fun _ _ _ hI _ hst => hI.move (Timer.move_of_step hst)

/-- A parked driver has its descriptor. -/
theorem isSome_of_wake (h : TimerOwned σ) {wake : Timer.Wake}
    (hwake : σ.gate.phase.wake = some wake) : σ.gate.raw.isSome = true := by
  rw [Option.isSome_iff_ne_none, ne_eq, h.raw, ← h.phase]
  intro hphase
  rw [hphase] at hwake
  cases hwake

end TimerOwned

variable {σ τ : Timer.State W} {a : Timer.Action W}

/-- A step of the timer uses its descriptor, answers, or gives the descriptor up. -/
theorem timerEvents_cases (h : TimerOwned σ) (hm : Timer.Move σ a τ) :
    ((∀ o ∈ timerEvents a σ, o.isAnswer = true ∨
        ∃ call, o = .use .timer call ∧ σ.gate.raw.isSome = true) ∧
      τ.gate.raw.isSome = σ.gate.raw.isSome) ∨
    (∃ ok, timerEvents a σ = [.use .timer .metadata, .destroy .timer ok]) ∧
      σ.gate.raw.isSome = true ∧ τ.gate.raw.isSome = false := by
  have hnoted : ∀ o ∈ (σ.gate.phase.wake.map fun wake =>
      Event.use .timer (wakeUse wake)).toList, o.isAnswer = true ∨
        ∃ call, o = .use .timer call ∧ σ.gate.raw.isSome = true := by
    intro o ho
    obtain ⟨wake, hwake, rfl⟩ := Option.map_eq_some_iff.mp (Option.mem_toList.mp ho)
    exact .inr ⟨_, rfl, h.isSome_of_wake hwake⟩
  have hsome : σ.pc ≠ .retired → σ.pc ≠ .done → σ.gate.raw.isSome = true := by
    intro h1 h2
    rw [Option.isSome_iff_ne_none, ne_eq, h.raw, not_or]
    exact ⟨h1, h2⟩
  cases hm with
  | notifyPushed | notifyDropped | shutdownNotify => exact .inl ⟨hnoted, rfl⟩
  | bind | bindPanic => exact .inl ⟨by simp [timerEvents, Event.isAnswer], rfl⟩
  -- Of the driver's own steps only parking and retiring make a call.
  | @driver native _ _ hm =>
    cases hm with
    | retire hpc =>
      refine .inr ⟨⟨native.isOk, ?_⟩, hsome (by simp [hpc]) (by simp [hpc]), rfl⟩
      simp [timerEvents, hpc]
    | unpark hpc =>
      refine .inl ⟨fun o ho => .inr ⟨.park, ?_, hsome (by simp [hpc]) (by simp [hpc])⟩, rfl⟩
      simpa [timerEvents, hpc] using ho
    | scanShutdown hpc | scan hpc | drained hpc | fire hpc | expired hpc | pruned hpc | wake hpc
    | woken hpc | checkShutdown hpc | check hpc | decideNotified hpc | resume hpc | terminate hpc
    | park hpc | complete hpc | drain hpc | skip hpc | prune hpc =>
      exact .inl ⟨by simp [timerEvents, hpc], rfl⟩
  | _ => exact .inl ⟨by simp [timerEvents], rfl⟩

end Timer

/-! ## The ring driver -/

section Ring

open Nosv.IoUring (PreparedRing Stopping)

/-- A native call on the descriptor of the ring driver. -/
def ringCall : IoUring.NativeCall → Event
  | .submit => .use .ring .submit
  | .submitDeadlineWake => .use .ring .deadlineWake
  -- The process aborts when it fails.
  | .destroy => .destroy .ring true

/-- The events of a step of the ring driver, its callers and its owner. -/
def ringEvents : IoUring.Action → IoUring.State → List Event
  | .notify _, σ => (σ.gate.phase.wake?.map ringCall).toList
  -- `admit` locks the ring behind its two early returns.
  | .pollSubmit s _, σ =>
    if (σ.clients s).role.fut?.any (!·.closed) ∧ σ.data.accepting ∧ σ.ownedWork = false then [.ring]
    else []
  | .stageCancellation _, _ | .stageOwnedCancellation _, _ | .stageOwned _, _
  | .stageOriginal _, _ | .submit _, _ | .passBegin, _ | .reap, _ => [.ring]
  | .checkSubmit s, σ =>
    let st := (σ.subs s).inner
    if (σ.clients s).role.fut?.any (·.closed) ∨ st.delivery ≠ .opened then [.answer false]
    else if st.iteratorFinished ∧ st.accepted = st.originals then [.answer true]
    else []
  | .enqueue _, σ => [.answer σ.ownedAdmission]
  | .resume, _ => [.use .ring .park]
  | .takeRing, _ => [.closeRing]
  | .retire, _ => [.use .ring .metadata, .destroy .ring true]
  | _, _ => []

variable {cfg : PreparedRing} {ok : IoUring.State → IoUring.Action → Prop}
  {σ τ : IoUring.State} {a : IoUring.Action}

/-- Whoever is inside the critical section of the driver data has a ring. -/
theorem ring_isSome_of_crit (h : Stopping σ) (hcrit : σ.crit ≠ none) : σ.ring.isSome = true := by
  rw [Option.isSome_iff_ne_none, ne_eq, h.ring]
  intro hringless
  have hstopping : σ.driver.stopping = true := by
    revert hringless
    cases σ.driver <;> simp [IoUring.DriverPc.ringless, IoUring.DriverPc.stopping]
  exact hcrit (h.idle hstopping).2.2.2

/-- The wake that the gate asks for is one of the driver's descriptor. -/
theorem ringEvents_notify (h : IoUring.Gated σ) :
    ∀ o ∈ (σ.gate.phase.wake?.map ringCall).toList,
      ∃ call, o = .use .ring call ∧ σ.gate.raw = true := by
  have hraw := h.raw
  intro o ho
  unfold IoUring.DriverPark.wake? at ho
  split at ho
  next hphase =>
    rw [hphase] at hraw
    exact ⟨.submit, by simpa [ringCall] using ho, hraw.mpr (by simp)⟩
  next hphase =>
    rw [hphase] at hraw
    exact ⟨.deadlineWake, by simpa [ringCall] using ho, hraw.mpr (by simp)⟩
  next => simp at ho

/-- A step of the ring uses ring and descriptor, answers, or gives one of the two up. -/
theorem ringEvents_cases (h : IoUring.Reachable cfg ok σ) (hm : IoUring.Move cfg σ a τ) :
    ((∀ o ∈ ringEvents a σ, o.isAnswer = true ∨ (o = .ring ∧ σ.ring.isSome = true) ∨
        ∃ call, o = .use .ring call ∧ σ.gate.raw = true) ∧
      τ.gate.raw = σ.gate.raw ∧ τ.ring.isSome = σ.ring.isSome) ∨
    (ringEvents a σ = [.closeRing] ∧ σ.ring.isSome = true ∧
      τ.gate.raw = σ.gate.raw ∧ τ.ring.isSome = false) ∨
    (ringEvents a σ = [.use .ring .metadata, .destroy .ring true] ∧ σ.gate.raw = true ∧
      τ.gate.raw = false ∧ τ.ring.isSome = σ.ring.isSome) := by
  have hG := IoUring.Gated.of_reachable h
  have hS := IoUring.Stopping.of_reachable h
  have hused : ∀ os : List Event, os = [.ring] → σ.ring.isSome = true →
      ∀ o ∈ os, o.isAnswer = true ∨ (o = .ring ∧ σ.ring.isSome = true) ∨
        ∃ call, o = .use .ring call ∧ σ.gate.raw = true := by
    rintro os rfl hring o ho
    exact .inr (.inl ⟨List.mem_singleton.mp ho, hring⟩)
  have hcrit : σ.crit ≠ none → σ.ring.isSome = true := ring_isSome_of_crit hS
  cases hm with
  | notify hcall hnotify =>
    refine .inl ⟨fun o ho => .inr (.inr (ringEvents_notify hG o ho)), ?_, rfl⟩
    rcases IoUring.notify_cases hnotify with rfl | ⟨-, -, rfl⟩ | ⟨-, -, rfl⟩ <;> rfl
  -- `admit` gets to the ring only behind its two early returns.
  | pollClosed hfut _ _ hclosed =>
    exact .inl ⟨by simp [ringEvents, hfut, hclosed], rfl, rfl⟩
  | pollRefused _ _ _ _ _ haccepting => exact .inl ⟨by simp [ringEvents, haccepting], rfl, rfl⟩
  | pollDeferred _ _ _ _ _ _ howned => exact .inl ⟨by simp [ringEvents, howned], rfl, rfl⟩
  | pollAdmit hfut _ _ hclosed _ haccepting howned hring =>
    refine .inl ⟨hused _ (if_pos ⟨?_, haccepting, howned⟩) (by simp [hring]), rfl, rfl⟩
    simp [hfut, hclosed]
  | stageCancellation _ hring | stageOwnedCancellation _ hring | stageOwned _ hring
  | originalStaged _ _ _ hring | passBegin _ _ hring | reap _ _ hring =>
    exact .inl ⟨hused _ rfl (by simp [hring]), rfl, by simp [hring]⟩
  | ownedBudget hc | originalFull hc | submitAccepted hc | submitRetry hc =>
    exact .inl ⟨hused _ rfl (hcrit (by simp [hc])), rfl, rfl⟩
  | kernelPost hring => exact .inl ⟨by simp [ringEvents], rfl, by simp [hring]⟩
  | accept _ hring => exact .inl ⟨by simp [ringEvents], rfl, by simp [hring]⟩
  -- The end of a poll is an answer at most.
  | submitFailed | submitOk | submitPending =>
    refine .inl ⟨fun o ho => .inl ?_, rfl, rfl⟩
    simp only [ringEvents] at ho
    split_ifs at ho
    all_goals simp_all [Event.isAnswer]
  | enqueueRejected | enqueue =>
    exact .inl ⟨by simp [ringEvents, Event.isAnswer], rfl, rfl⟩
  | resume hdriver =>
    have hraw : σ.gate.raw = true := hG.raw.mpr fun hphase => by
      have := hG.destroyed.mp hphase
      simp [hdriver] at this
    refine .inl ⟨fun o ho => .inr (.inr ⟨.park, ?_, hraw⟩), rfl, rfl⟩
    simpa [ringEvents] using ho
  -- The driver drops the ring first, and gives up its descriptor after that.
  | takeRing hdriver =>
    refine .inr (.inl ⟨rfl, ?_, rfl, rfl⟩)
    rw [Option.isSome_iff_ne_none, ne_eq, hS.ring, hdriver]
    simp [IoUring.DriverPc.ringless]
  | retire _ _ hraw => exact .inr (.inr ⟨rfl, hraw, rfl, rfl⟩)
  | _ => exact .inl ⟨by simp [ringEvents], rfl, rfl⟩

end Ring

/-! ## The owner thread -/

section Root

open Nosv.BlockOn (HandleId)

/-- The events of a step of the owner thread in `try_block_on`, or of a wake of its parker. -/
def rootEvents (pid here : Pid) : BlockOn.Action → BlockOn.State → List Event
  | .blockOn owner running inTask attach, σ =>
    -- Owner, process and lifecycle are looked at before nOS-V is asked for the current task.
    if owner = false ∨ pid ≠ here ∨ running = false then [.answer false]
    else if inTask ∨ σ.inBlockOn then [.query, .answer false]
    else [.query, .attach σ.made attach.isOk, .answer attach.isOk]
  | .pause _, σ => [.use (.root σ.parker) .park]
  | .detach native, σ => [.detach σ.parker native.isOk]
  | .wake k _, σ =>
    let gate := σ.gates k
    if gate.pid = here ∧ gate.live ∧ gate.wakeSubmitted = false then [.use (.root k) .submit]
    else []
  | _, _ => []

/-- The descriptor of a parker is that of an attached thread. -/
def RootLive (σ : BlockOn.State) (k : BlockOn.ParkerId) : Prop := k + 1 = σ.made ∧ σ.pc ≠ .outside

/-- A call of `try_block_on` that finds the runtime running. -/
def Asks (a : BlockOn.Action) : Prop := ∃ inTask attach, a = .blockOn true true inTask attach

variable {pid : Pid} {handle : HandleId} {σ τ : BlockOn.State} {a : BlockOn.Action}
  {current : Option HandleId}

/-- In a call, the descriptor is that of its parker. -/
theorem RootLive.parker (hO : BlockOn.Owner pid pid current σ) (hpc : σ.pc ≠ .outside) :
    RootLive σ σ.parker :=
  ⟨Nat.sub_add_cancel (hO.call hpc).1, hpc⟩

/-- A wake that gets through finds the thread attached. -/
theorem RootLive.of_wake (hP : BlockOn.Parkers pid σ) {k : BlockOn.ParkerId} (hk : k < σ.made)
    (hlive : (σ.gates k).live = true) : RootLive σ k := by
  have hdriving := (hP.made k hk).live.symm.trans hlive
  unfold BlockOn.State.stage at hdriving
  split at hdriving
  next hlast =>
    refine ⟨hlast, fun hpc => ?_⟩
    rw [hpc] at hdriving
    cases hdriving
  next => cases hdriving

/-- A refused call asks nOS-V for the current task at most. -/
theorem rootEvents_refused {owner running inTask : Bool} {attach : Except NativeError RawTask}
    {error : BlockOn.BlockOnError}
    (h : BlockOn.refuse pid pid owner running inTask σ.inBlockOn = some error) :
    ∀ o ∈ rootEvents pid pid (.blockOn owner running inTask attach) σ,
      o.isAnswer = true ∨ (Asks (.blockOn owner running inTask attach) ∧ o = .query) := by
  intro o ho
  by_cases hrunning : owner = true ∧ running = true
  · obtain ⟨rfl, rfl⟩ := hrunning
    -- What is left of the refusals are the two that come after the question.
    have hbusy : inTask = true ∨ σ.inBlockOn = true := by
      by_contra hfree
      rw [not_or] at hfree
      simp [BlockOn.refuse, hfree.1, hfree.2] at h
    simp only [rootEvents, Bool.true_eq_false, ne_eq, not_true_eq_false, or_self, if_false,
      if_pos hbusy, List.mem_cons, List.not_mem_nil, or_false] at ho
    rcases ho with rfl | rfl
    · exact .inr ⟨⟨_, _, rfl⟩, rfl⟩
    · exact .inl rfl
  · have hrefused : owner = false ∨ pid ≠ pid ∨ running = false := by
      rw [not_and_or, Bool.not_eq_true, Bool.not_eq_true] at hrunning
      exact hrunning.imp id .inr
    simp only [rootEvents, if_pos hrefused, List.mem_singleton] at ho
    exact .inl (ho ▸ rfl)

/-- A call of `try_block_on` asks nOS-V for the current task at most, cannot attach the thread, or
attaches it. -/
theorem rootEvents_blockOn {owner running inTask : Bool} {attach : Except NativeError RawTask}
    (h : BlockOn.step pid pid handle (.blockOn owner running inTask attach) σ = .ok τ) :
    ((∀ o ∈ rootEvents pid pid (.blockOn owner running inTask attach) σ, o.isAnswer = true ∨
        (Asks (.blockOn owner running inTask attach) ∧
          (o = .query ∨ o = .attach σ.made false))) ∧
      τ.made = σ.made ∧ τ.pc = σ.pc) ∨
    (rootEvents pid pid (.blockOn owner running inTask attach) σ =
        [.query, .attach σ.made true, .answer true] ∧
      Asks (.blockOn owner running inTask attach) ∧ σ.pc = .outside ∧ τ.made = σ.made + 1 ∧
      τ.pc ≠ .outside) := by
  simp only [BlockOn.step] at h
  cases hrefuse : BlockOn.refuse pid pid owner running inTask σ.inBlockOn with
  | some error =>
    rw [hrefuse] at h
    cases h
    refine .inl ⟨fun o ho => ?_, rfl, rfl⟩
    exact (rootEvents_refused hrefuse o ho).imp_right fun hasks => ⟨hasks.1, .inl hasks.2⟩
  | none =>
    -- The thread is the owner's, the runtime runs, and nOS-V knows of no current task.
    obtain ⟨rfl, rfl, rfl, hin⟩ :
        owner = true ∧ running = true ∧ inTask = false ∧ σ.inBlockOn = false := by
      unfold BlockOn.refuse at hrefuse
      split_ifs at hrefuse with h1 h2 h3 h4 h5
      simp_all
    have hasks : Asks (.blockOn true true false attach) := ⟨_, _, rfl⟩
    rw [hrefuse] at h
    dsimp only at h
    split at h
    next e hpc =>
      cases h
      refine .inl ⟨fun o ho => ?_, rfl, rfl⟩
      simp only [rootEvents, hin, Except.isOk, Except.toBool] at ho
      simp only [Bool.true_eq_false, ne_eq, not_true_eq_false, or_self, if_false,
        Bool.false_eq_true, List.mem_cons, List.not_mem_nil, or_false] at ho
      rcases ho with rfl | rfl | rfl
      · exact .inr ⟨hasks, .inl rfl⟩
      · exact .inr ⟨hasks, .inr rfl⟩
      · exact .inl rfl
    next raw hpc =>
      cases h
      refine .inr ⟨?_, hasks, hpc, rfl, by simp⟩
      simp [rootEvents, hin, Except.isOk, Except.toBool]
    next => cases h

/-- A step of the owner thread uses its descriptor, or attaches or detaches it. -/
theorem rootEvents_cases (hP : BlockOn.Parkers pid σ) (hO : BlockOn.Owner pid pid current σ)
    (h : BlockOn.step pid pid handle a σ = .ok τ) :
    ((∀ o ∈ rootEvents pid pid a σ, o.isAnswer = true ∨
        (Asks a ∧ (o = .query ∨ o = .attach σ.made false)) ∨
        ∃ k call, o = .use (.root k) call ∧ RootLive σ k) ∧
      τ.made = σ.made ∧ (τ.pc = .outside ↔ σ.pc = .outside)) ∨
    (rootEvents pid pid a σ = [.query, .attach σ.made true, .answer true] ∧ Asks a ∧
      σ.pc = .outside ∧ τ.made = σ.made + 1 ∧ τ.pc ≠ .outside) ∨
    (∃ ok, rootEvents pid pid a σ = [.detach σ.parker ok]) ∧ RootLive σ σ.parker ∧
      τ.made = σ.made ∧ τ.pc = .outside := by
  -- A thread that is in the call pauses with the descriptor of its parker.
  have hpark : ∀ native, σ.pc ≠ .outside → ∀ o ∈ rootEvents pid pid (.pause native) σ,
      ∃ k call, o = .use (.root k) call ∧ RootLive σ k := by
    intro native hpc o ho
    exact ⟨_, .park, by simpa [rootEvents] using ho, RootLive.parker hO hpc⟩
  cases a with
  | blockOn owner running inTask attach =>
    rcases rootEvents_blockOn h with ⟨hos, hmade, hpc⟩ | hattached
    · exact .inl ⟨fun o ho => (hos o ho).imp_right .inl, hmade, by rw [hpc]⟩
    · exact .inr (.inl hattached)
  | pause native =>
    simp only [BlockOn.step] at h
    split at h
    next e hpc =>
      cases h
      exact .inl ⟨fun o ho => .inr (.inr (hpark _ (by simp [hpc]) o ho)), rfl, by simp [hpc]⟩
    next hpc =>
      split at h
      next =>
        cases h
        exact .inl ⟨fun o ho => .inr (.inr (hpark _ (by simp [hpc]) o ho)), rfl, by simp [hpc]⟩
      next => cases h
    next => cases h
  | detach native =>
    simp only [BlockOn.step] at h
    split at h
    next driven hpc =>
      cases h
      exact .inr (.inr ⟨⟨_, rfl⟩, RootLive.parker hO (by simp [hpc]), rfl, rfl⟩)
    next => cases h
  | wake k submit =>
    simp only [BlockOn.step] at h
    split at h
    next hk =>
      split at h
      next => cases h
      next gate issued hgate =>
        cases h
        refine .inl ⟨fun o ho => .inr (.inr ?_), rfl, Iff.rfl⟩
        simp only [rootEvents] at ho
        split at ho
        next hlive => exact ⟨k, .submit, by simpa using ho, RootLive.of_wake hP hk hlive.2.1⟩
        next => cases ho
    next => cases h
  | poll result =>
    simp only [BlockOn.step] at h
    split at h
    next hpc =>
      cases h
      exact .inl ⟨by simp [rootEvents], rfl, by cases result <;> simp [hpc]⟩
    next => cases h
  | beginPoll | close | leave =>
    simp only [BlockOn.step] at h
    split at h
    next hpc =>
      cases h
      exact .inl ⟨by simp [rootEvents], rfl, by simp [hpc]⟩
    next => cases h

end Root

end Nosv.Process
