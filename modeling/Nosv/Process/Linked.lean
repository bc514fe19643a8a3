import Nosv.Process.Machine

/-!
# What holds between the components

Each component of a reachable process is reachable by itself, and they agree about the lifecycle:
the owner thread is inside a driver only while `shutdown_inner` waits for it, it goes on when the
driver has completed, and a closed runtime has no task, two completed drivers and an owner thread
outside of any call.

The registry needs no promise about the destruction of descriptors that a failed spawn gives up,
which is why the record of spawns is left out of its invariant here.

`Linked.of_reaches` has it for every reachable process.
-/

/-! ## The registry -/

namespace Nosv.Runtime

variable {T P W : Type} {pid : Pid} {σ τ : System T P W} {a : Action T P W}

/-- The runtime without the record of its spawns. -/
def System.unlogged (σ : System T P W) : System T P W := { σ with spawns := [] }

/-- A runtime stays well formed without the record of its spawns. -/
theorem Wf.unlogged (h : Wf pid σ) : Wf pid σ.unlogged :=
  h.frame rfl rfl le_rfl h.locked (by simp [System.unlogged]) h.running h.snapshot
    (fun id hid => Wf.covered_frame (h.covered id hid) rfl fun rest hr hmem => ⟨rest, hr, hmem⟩)
    h.asleep h.drained

variable [DecidableEq W]

/-- Without the record the invariant is kept by every step, whatever becomes of descriptors that
are given up. -/
theorem Wf.unlogged_move (h : Wf pid σ.unlogged) (hm : Move pid σ a τ) : Wf pid τ.unlogged := by
  cases hm with
  | spawnFailed hlock hfailed =>
    -- A `spawn_on` that fails leaves no task, whatever was created for it.
    refine h.frame rfl hfailed.tasks hfailed.next ?_ (by simp [System.unlogged]) ?_ ?_
      (fun id hid => Wf.covered_frame (h.covered id hid) rfl fun rest hr hmem => ⟨rest, hr, hmem⟩)
      ?_ ?_
    · intro hl
      exact absurd (hlock.symm.trans hl) Bool.false_ne_true
    · simpa [System.unlogged, hfailed.lifecycle] using h.running
    · simpa [System.unlogged, hfailed.lifecycle, hfailed.tasks] using h.snapshot
    · simpa [System.unlogged, hfailed.tasks] using h.asleep
    · simpa [System.unlogged, hfailed.tasks] using h.drained
  | @spawned affinity native raw gate hlock hrunning =>
    have hmove : Move pid σ.unlogged (.spawn affinity { native with destroy := .ok () }) _ :=
      @Move.spawned T P W _ pid σ.unlogged affinity _ raw gate hlock hrunning
    exact (h.move hmove rfl).unlogged
  | spawnReturn hlock => exact (h.move (.spawnReturn hlock) trivial).unlogged
  | task ht henabled hm => exact (h.move (.task ht henabled hm) trivial).unlogged
  | taskCompleted hlock ht hpc => exact (h.move (.taskCompleted hlock ht hpc) trivial).unlogged
  | beginClosed => exact h
  | beginRunning hs hlock horder hrunning =>
    exact (h.move (.beginRunning hs hlock horder hrunning) trivial).unlogged
  | beginClosing hs hlock horder hclosing =>
    exact (h.move (.beginClosing hs hlock horder hclosing) trivial).unlogged
  | @abort submit id rest t u hs ht hm =>
    exact (h.move (a := .shutdownAbort submit) (.abort hs ht hm) trivial).unlogged
  | @abortEnd submit hs =>
    exact (h.move (a := .shutdownAbort submit) (.abortEnd hs) trivial).unlogged
  | drainEnd hs hlock hempty => exact (h.move (.drainEnd hs hlock hempty) trivial).unlogged
  | drainSleep hs hlock hempty => exact (h.move (.drainSleep hs hlock hempty) trivial).unlogged
  | drainWake hs => exact (h.move (.drainWake hs) trivial).unlogged
  | @teardown succeeds hs hlock =>
    exact (h.move (a := .teardown succeeds) (.teardown hs hlock) trivial).unlogged

/-- The invariant without the record is enough to read a step. -/
theorem Wf.unlogged_step (h : Wf pid σ.unlogged) (hstep : step pid a σ = .ok τ) :
    Move pid σ a τ :=
  have hfresh : σ.state.nextTaskId ∉ σ.state.tasks := h.next_not_mem
  move_of_step hfresh hstep

/-- Steps other than the begin and the end of shutdown leave the lifecycle alone, and begin or end
no attempt. -/
theorem Move.within (hm : Move pid σ a τ) (ha : Process.runtimeWhole a = false) :
    τ.state.lifecycle = σ.state.lifecycle ∧ (τ.shutdown = .idle ↔ σ.shutdown = .idle) ∧
      (σ.shutdown = .drained → τ.shutdown = .drained) := by
  cases hm with
  | spawnFailed hlock hfailed => exact ⟨hfailed.lifecycle, Iff.rfl, id⟩
  | taskCompleted =>
    dsimp only
    split_ifs
    · rw [ShutdownPc.notified_eq (by simp), ShutdownPc.notified_eq (by simp)]
      exact ⟨rfl, Iff.rfl, id⟩
    · exact ⟨rfl, Iff.rfl, id⟩
  | abort hs | abortEnd hs | drainEnd hs | drainSleep hs | drainWake hs =>
    exact ⟨rfl, by simp [hs], by simp [hs]⟩
  | beginClosed | beginRunning | beginClosing | teardown => cases ha
  | _ => exact ⟨rfl, Iff.rfl, id⟩

end Nosv.Runtime

/-! ## The owner thread in a driver -/

namespace Nosv.IoUring

variable {cfg : PreparedRing} {σ τ : State} {a : Action}

/-- The owner thread enters the driver by `shutdown_and_wait` only, and leaves it when it has
completed. -/
theorem Move.owner (hm : Move cfg σ a τ) (ha : Process.ringWhole a = false) :
    τ.running = σ.running ∧ (σ.owner = .idle → τ.owner = .idle) ∧
      (τ.owner = .idle → σ.owner = .idle ∨ τ.completed = true) ∧
      (σ.completed = true → τ.completed = true) := by
  cases hm
  case beginShutdown | shutdownAndWait => cases ha
  case complete => exact ⟨rfl, id, .inl, fun _ => rfl⟩
  case closeAdmission h | raiseShutdown h _ _ _ | cancelSubmission _ h | submissionsEnd _ h
    | cancelSnapshot _ h | snapshotEnd _ h =>
    exact ⟨rfl, fun hidle => by simp [h] at hidle, nofun, id⟩
  case awaitCompleted hcompleted => exact ⟨rfl, fun _ => rfl, fun _ => .inr hcompleted, id⟩
  all_goals exact ⟨rfl, id, .inl, id⟩

end Nosv.IoUring

namespace Nosv.Timer

variable {W : Type} {σ τ : State W} {a : Action W}

/-- The owner thread enters the driver by `shutdown_and_wait` only, and leaves it when it has
completed. -/
theorem Move.owner (hm : Move σ a τ) (ha : a ≠ .shutdown) :
    (σ.owner = .outside → τ.owner = .outside) ∧
      (τ.owner = .outside → σ.owner = .outside ∨ τ.completed = true) ∧
      (σ.completed = true → τ.completed = true) := by
  cases hm with
  | shutdown => exact absurd rfl ha
  | shutdownNotify h => exact ⟨fun ho => by simp [h] at ho, nofun, id⟩
  | shutdownReturn h hcompleted => exact ⟨fun _ => rfl, fun _ => .inr hcompleted, id⟩
  | driver hm =>
    cases hm with
    | complete => exact ⟨id, .inl, fun _ => rfl⟩
    | _ => exact ⟨id, .inl, id⟩
  | _ => exact ⟨id, .inl, id⟩

end Nosv.Timer

namespace Nosv.BlockOn

/-- The owner thread enters a call by an attach. -/
theorem step_outside {pid : Pid} {handle : HandleId} {σ τ : State} {a : Action}
    (h : step pid pid handle a σ = .ok τ) (hpc : σ.pc = .outside) :
    τ.pc = .outside ∨ Process.Asks a := by
  cases a with
  | blockOn owner running inTask attach =>
    simp only [step] at h
    split at h
    next =>
      cases h
      exact .inl hpc
    next hrefuse =>
      unfold refuse at hrefuse
      split_ifs at hrefuse with h1 h2 h3
      exact .inr ⟨inTask, attach, by
        rw [Bool.eq_true_of_not_eq_false h1, Bool.eq_true_of_not_eq_false h3]⟩
  | wake k submit =>
    simp only [step] at h
    split at h
    next =>
      split at h
      next => cases h
      next =>
        cases h
        exact .inl hpc
    next => cases h
  | beginPoll | poll | pause | close | leave | detach =>
    simp only [step, hpc] at h
    cases h

end Nosv.BlockOn

/-! ## The invariant -/

namespace Nosv.Process

open Nosv.BlockOn (HandleId)
open Nosv.IoUring (PreparedRing)

variable {T P W : Type} [DecidableEq W] {pid : Pid} {handle : HandleId} {cfg : PreparedRing}
  {raw : RawTask} {current : Option HandleId} {σ τ : State T P W} {a : Action T P W}

/-- `shutdown_inner` is past the ring driver. -/
def TeardownPc.pastRing : TeardownPc → Bool
  | .timer | .timerWait | .asyncType | .finalize | .close => true
  | .outside | .ringWait => false

/-- `shutdown_inner` is past the timer driver. -/
def TeardownPc.pastTimer : TeardownPc → Bool
  | .asyncType | .finalize | .close => true
  | .outside | .ringWait | .timer | .timerWait => false

/-- What holds between the steps of a process. -/
structure Linked (pid : Pid) (handle : HandleId) (cfg : PreparedRing) (raw : RawTask)
    (current : Option HandleId) (σ : State T P W) : Prop where
  runtime : Runtime.Wf pid σ.runtime.unlogged
  ring : IoUring.Reachable cfg Lts.Always σ.ring
  timer : Lts.Reaches Timer.step Lts.Always (.init raw) σ.timer
  root : Lts.Reaches (BlockOn.step pid pid handle) Lts.Always (.init current) σ.root
  /-- Whoever asks the ring about the lifecycle is told the truth. -/
  running : σ.ring.running = σ.running
  drained : σ.teardown ≠ .outside → σ.runtime.shutdown = .drained
  ringOwner : σ.ring.owner ≠ .idle → σ.teardown = .ringWait
  timerOwner : σ.timer.owner ≠ .outside → σ.teardown = .timerWait
  ringDone : (σ.teardown = .ringWait ∧ σ.ring.owner = .idle) ∨ σ.teardown.pastRing = true →
    σ.ring.completed = true
  timerDone : (σ.teardown = .timerWait ∧ σ.timer.owner = .outside) ∨
    σ.teardown.pastTimer = true → σ.timer.completed = true
  /-- The owner thread shuts down outside `try_block_on`. -/
  outside : σ.runtime.shutdown ≠ .idle → σ.root.pc = .outside
  closed : σ.runtime.state.lifecycle = .closed → σ.runtime.shutdown = .idle ∧
    σ.runtime.state.tasks = ∅ ∧ σ.ring.completed = true ∧ σ.timer.completed = true ∧
    σ.root.pc = .outside

namespace Linked

omit [DecidableEq W] in
/-- Nothing is shut down while the runtime is running. -/
theorem idle (h : Runtime.Wf pid σ.runtime.unlogged) (hrunning : σ.running = true) :
    σ.runtime.shutdown = .idle :=
  (h.running (of_decide_eq_true hrunning)).1

/-- A process just built. -/
theorem init : Linked pid handle cfg raw current (State.init cfg raw current : State T P W) where
  runtime := Runtime.Wf.init.unlogged
  ring := .refl
  timer := .refl
  root := .refl
  running := rfl
  drained h := absurd rfl h
  ringOwner h := absurd rfl h
  timerOwner h := absurd rfl h
  ringDone h := by simp [State.init, TeardownPc.pastRing] at h
  timerDone h := by simp [State.init, TeardownPc.pastTimer] at h
  outside h := absurd rfl h
  closed h := by cases h

/-- A step of the registry. -/
theorem moveRuntime (h : Linked pid handle cfg raw current σ) {a : Runtime.Action T P W}
    {runtime : Runtime.System T P W} (ha : runtimeWhole a = false)
    (hstep : Runtime.step pid a σ.runtime = .ok runtime) :
    Linked pid handle cfg raw current { σ with runtime := runtime } := by
  have hm := h.runtime.unlogged_step hstep
  obtain ⟨hlifecycle, hidle, hdrained⟩ := hm.within ha
  refine
    { h with
      runtime := h.runtime.unlogged_move hm
      running := h.running.trans (by unfold State.running; rw [hlifecycle])
      drained := fun hpc => hdrained (h.drained hpc)
      outside := fun hne => h.outside fun hs => hne (hidle.mpr hs)
      closed := fun hclosed => ?_ }
  dsimp only at hclosed
  rw [hlifecycle] at hclosed
  obtain ⟨hs, hempty, hrest⟩ := h.closed hclosed
  refine ⟨hidle.mpr hs, ?_, hrest⟩
  -- A registry that is not running gains nothing.
  have hsub := (hm.closing (by simp [hclosed])).2.1
  rw [hempty] at hsub
  exact Finset.subset_empty.mp hsub

/-- `shutdown_inner` closes the lifecycle, or finds it closed. -/
theorem moveShutdown (h : Linked pid handle cfg raw current σ) {order : List Runtime.TaskId}
    {runtime : Runtime.System T P W} (hroot : σ.root.pc = .outside)
    (hteardown : σ.teardown = .outside)
    (hstep : Runtime.step pid (.shutdownBegin order) σ.runtime = .ok runtime) :
    Linked pid handle cfg raw current
      { σ with runtime := runtime, ring := { σ.ring with running := false } } := by
  have hm := h.runtime.unlogged_step hstep
  -- Between two attempts the owner thread is in no driver.
  have howner : σ.ring.owner = .idle := by
    by_contra hne
    have := h.ringOwner hne
    rw [hteardown] at this
    cases this
  have hring : IoUring.Reachable cfg Lts.Always { σ.ring with running := false } := by
    refine h.ring.tail (a := .beginShutdown) trivial ?_
    show IoUring.State.beginShutdown σ.ring = _
    rw [IoUring.State.beginShutdown, IoUring.require, if_pos howner]
    rfl
  have hnot : runtime.state.lifecycle ≠ .running := by
    cases hm with
    | beginClosed _ hclosed => simp [hclosed]
    | beginRunning => simp
    | beginClosing _ _ _ hclosing => simp [hclosing]
  refine
    { h with
      runtime := h.runtime.unlogged_move hm
      ring := hring
      running := by simp [State.running, hnot]
      drained := fun hpc => absurd hteardown hpc
      outside := fun _ => hroot
      closed := fun hclosed => ?_ }
  cases hm with
  | beginClosed => exact h.closed hclosed
  | beginRunning => cases hclosed
  | beginClosing _ _ _ hclosing => simp [hclosing] at hclosed

/-- An attempt of shutdown ends, in success or in an error. -/
theorem moveEnd (h : Linked pid handle cfg raw current σ) {succeeds : Bool}
    {runtime : Runtime.System T P W} (howner : σ.ring.owner = .idle ∧ σ.timer.owner = .outside)
    (hdone : succeeds = true → σ.ring.completed = true ∧ σ.timer.completed = true)
    (hstep : Runtime.step pid (.teardown succeeds) σ.runtime = .ok runtime) :
    Linked pid handle cfg raw current { σ with runtime := runtime, teardown := .outside } := by
  have hm := h.runtime.unlogged_step hstep
  cases hm with
  | teardown hs hlock =>
    have hroot : σ.root.pc = .outside := h.outside (by simp [hs])
    have hrunning : σ.running = false := by
      by_contra hr
      have := idle h.runtime (Bool.eq_true_of_not_eq_false hr)
      rw [hs] at this
      cases this
    have hne : σ.runtime.state.lifecycle ≠ .running := of_decide_eq_false hrunning
    refine
      { h with
        runtime := h.runtime.unlogged_move (h.runtime.unlogged_step hstep)
        running := h.running.trans (hrunning.trans (decide_eq_false ?_).symm)
        drained := fun hpc => absurd rfl hpc
        ringOwner := fun hne => absurd howner.1 hne
        timerOwner := fun hne => absurd howner.2 hne
        ringDone := fun hpc => by simp [TeardownPc.pastRing] at hpc
        timerDone := fun hpc => by simp [TeardownPc.pastTimer] at hpc
        outside := fun _ => hroot
        closed := fun hclosed => ?_ }
    · cases succeeds
      · exact hne
      · simp
    · cases succeeds with
      | true => exact ⟨rfl, h.runtime.drained hs, (hdone rfl).1, (hdone rfl).2, hroot⟩
      | false =>
        -- The drain loop was left in a lifecycle that is not closed.
        have := (h.closed hclosed).1
        rw [hs] at this
        cases this

/-- `shutdown_inner` enters the ring driver. -/
theorem enterRing (h : Linked pid handle cfg raw current σ) {ring : IoUring.State}
    (hteardown : σ.teardown = .outside) (hdrained : σ.runtime.shutdown = .drained)
    (hstep : IoUring.step cfg .shutdownAndWait σ.ring = .ok ring) :
    Linked pid handle cfg raw current { σ with ring := ring, teardown := .ringWait } := by
  cases IoUring.move_of_step hstep with
  | shutdownAndWait howner hrunning =>
    refine
      { h with
        ring := h.ring.tail trivial hstep
        drained := fun _ => hdrained
        ringOwner := fun _ => rfl
        timerOwner := fun hne => ?_
        ringDone := fun hpc => by simp [TeardownPc.pastRing] at hpc
        timerDone := fun hpc => by simp [TeardownPc.pastTimer] at hpc }
    have := h.timerOwner hne
    rw [hteardown] at this
    cases this

/-- The teardown enters the timer driver. -/
theorem enterTimer (h : Linked pid handle cfg raw current σ) {timer : Timer.State W}
    (hteardown : σ.teardown = .timer)
    (hstep : Timer.step .shutdown σ.timer = .ok timer) :
    Linked pid handle cfg raw current { σ with timer := timer, teardown := .timerWait } := by
  have hpast : σ.ring.completed = true := h.ringDone (.inr (by rw [hteardown]; rfl))
  cases Timer.move_of_step hstep with
  | shutdown howner hlock =>
    refine
      { h with
        timer := h.timer.tail trivial hstep
        drained := fun _ => h.drained (by simp [hteardown])
        ringOwner := fun hne => ?_
        timerOwner := fun _ => rfl
        ringDone := fun _ => hpast
        timerDone := fun hpc => by simp [TeardownPc.pastTimer] at hpc }
    have := h.ringOwner hne
    rw [hteardown] at this
    cases this

/-- A native call of the teardown succeeds. -/
theorem moveCall (h : Linked pid handle cfg raw current σ) {call : Runtime.NativeCall}
    {next : TeardownPc} (hnext : σ.teardown.next = some (call, next))
    (hreturned : σ.returned = true) :
    Linked pid handle cfg raw current { σ with teardown := next } := by
  have hdrained : σ.runtime.shutdown = .drained :=
    h.drained fun hpc => by simp [hpc, TeardownPc.next] at hnext
  -- The first call comes behind the ring's wait, the second behind the timer's.
  have hring : σ.ring.completed = true ∧ σ.ring.owner = .idle := by
    by_cases hpc : σ.teardown = .ringWait
    · have howner : σ.ring.owner = .idle := by simpa [State.returned, hpc] using hreturned
      exact ⟨h.ringDone (.inl ⟨hpc, howner⟩), howner⟩
    · refine ⟨h.ringDone (.inr ?_), not_not.mp fun hne => hpc (h.ringOwner hne)⟩
      revert hnext
      cases hteardown : σ.teardown <;> simp_all [TeardownPc.next, TeardownPc.pastRing]
  have htimer : σ.timer.owner = .outside ∧
      (next.pastTimer = true → σ.timer.completed = true) := by
    by_cases hpc : σ.teardown = .timerWait
    · have howner : σ.timer.owner = .outside := by simpa [State.returned, hpc] using hreturned
      exact ⟨howner, fun _ => h.timerDone (.inl ⟨hpc, howner⟩)⟩
    · refine ⟨not_not.mp fun hne => hpc (h.timerOwner hne), fun hpast => h.timerDone (.inr ?_)⟩
      revert hnext
      cases hteardown : σ.teardown <;> rintro ⟨⟩ <;> simp_all [TeardownPc.pastTimer]
  refine
    { h with
      drained := fun _ => hdrained
      ringOwner := fun hne => absurd hring.2 hne
      timerOwner := fun hne => absurd htimer.1 hne
      ringDone := fun _ => hring.1
      timerDone := fun hpc => htimer.2 ?_ }
  rcases hpc with ⟨hpc, -⟩ | hpc
  · -- No call leads into the wait for the timer.
    revert hnext
    cases hteardown : σ.teardown <;> simp_all [TeardownPc.next]
  · exact hpc

/-- A step of the ring. -/
theorem moveRing (h : Linked pid handle cfg raw current σ) {a : IoUring.Action}
    {ring : IoUring.State} (ha : ringWhole a = false)
    (hstep : IoUring.step cfg a σ.ring = .ok ring) :
    Linked pid handle cfg raw current { σ with ring := ring } := by
  obtain ⟨hrunning, hidle, hleft, hcompleted⟩ := (IoUring.move_of_step hstep).owner ha
  refine
    { h with
      ring := h.ring.tail trivial hstep
      running := hrunning.trans h.running
      ringOwner := fun hne => h.ringOwner fun hi => hne (hidle hi)
      ringDone := ?_
      closed := fun hclosed => ?_ }
  · rintro (⟨hpc, howner⟩ | hpast)
    · exact (hleft howner).elim (fun hi => hcompleted (h.ringDone (.inl ⟨hpc, hi⟩))) id
    · exact hcompleted (h.ringDone (.inr hpast))
  · obtain ⟨hs, hempty, hring, hrest⟩ := h.closed hclosed
    exact ⟨hs, hempty, hcompleted hring, hrest⟩

/-- A step of the timer. -/
theorem moveTimer (h : Linked pid handle cfg raw current σ) {a : Timer.Action W}
    {timer : Timer.State W} (ha : a ≠ .shutdown)
    (hstep : Timer.step a σ.timer = .ok timer) :
    Linked pid handle cfg raw current { σ with timer := timer } := by
  obtain ⟨houtside, hleft, hcompleted⟩ := (Timer.move_of_step hstep).owner ha
  refine
    { h with
      timer := h.timer.tail trivial hstep
      timerOwner := fun hne => h.timerOwner fun ho => hne (houtside ho)
      timerDone := ?_
      closed := fun hclosed => ?_ }
  · rintro (⟨hpc, howner⟩ | hpast)
    · exact (hleft howner).elim (fun ho => hcompleted (h.timerDone (.inl ⟨hpc, ho⟩))) id
    · exact hcompleted (h.timerDone (.inr hpast))
  · obtain ⟨hs, hempty, hring, htimer, hroot⟩ := h.closed hclosed
    exact ⟨hs, hempty, hring, hcompleted htimer, hroot⟩

/-- A step of the owner thread in `try_block_on`, or a wake. -/
theorem moveRoot (h : Linked pid handle cfg raw current σ) {a : BlockOn.Action}
    {root : BlockOn.State} (ha : σ.allows (.root a) = true)
    (hstep : BlockOn.step pid pid handle a σ.root = .ok root) :
    Linked pid handle cfg raw current { σ with root := root } := by
  have hasks : Asks a → σ.running = true ∧ σ.runtime.shutdown = .idle := by
    rintro ⟨inTask, attach, rfl⟩
    obtain ⟨hrunning, howner⟩ := of_decide_eq_true ha
    exact ⟨hrunning.symm, (howner rfl).1⟩
  refine
    { h with
      root := h.root.tail trivial hstep
      outside := fun hne => ?_
      closed := fun hclosed => ?_ }
  · exact (BlockOn.step_outside hstep (h.outside hne)).resolve_right
      fun ha => hne (hasks ha).2
  · obtain ⟨hs, hempty, hring, htimer, hroot⟩ := h.closed hclosed
    refine ⟨hs, hempty, hring, htimer, ?_⟩
    refine (BlockOn.step_outside hstep hroot).resolve_right fun ha => ?_
    have := of_decide_eq_true (hasks ha).1
    rw [hclosed] at this
    cases this

/-- Every step keeps the components linked. -/
theorem move (h : Linked pid handle cfg raw current σ) (hm : Move pid handle cfg σ a τ) :
    Linked pid handle cfg raw current τ := by
  cases hm with
  | runtime ha hstep => exact h.moveRuntime ha hstep
  | shutdown hroot hteardown hstep => exact h.moveShutdown hroot hteardown hstep
  | enterRing hteardown hdrained hstep => exact h.enterRing hteardown hdrained hstep
  | enterTimer hteardown hstep => exact h.enterTimer hteardown hstep
  | call hnext hreturned => exact h.moveCall hnext hreturned
  | @failed call next e runtime hnext hreturned hstep =>
    have hcall := h.moveCall hnext hreturned
    -- A failed call ends the attempt, and the owner thread is in no wait.
    have hnot : next ≠ .ringWait ∧ next ≠ .timerWait := by
      revert hnext
      cases σ.teardown <;> rintro ⟨⟩ <;> simp
    refine h.moveEnd ⟨?_, ?_⟩ (fun hs => absurd hs Bool.false_ne_true) hstep
    · exact not_not.mp fun hne => hnot.1 (hcall.ringOwner hne)
    · exact not_not.mp fun hne => hnot.2 (hcall.timerOwner hne)
  | close hteardown hstep =>
    refine h.moveEnd ⟨?_, ?_⟩ (fun _ => ⟨?_, ?_⟩) hstep
    · exact not_not.mp fun hne => by simpa [hteardown] using h.ringOwner hne
    · exact not_not.mp fun hne => by simpa [hteardown] using h.timerOwner hne
    · exact h.ringDone (.inr (by rw [hteardown]; rfl))
    · exact h.timerDone (.inr (by rw [hteardown]; rfl))
  | ring ha hstep => exact h.moveRing ha hstep
  | timer ha hstep => exact h.moveTimer (by rintro rfl; cases ha) hstep
  | root ha hstep => exact h.moveRoot ha hstep
  | query | capability | operation => exact h

/-- The components are linked in every reachable state. -/
theorem of_reaches {ok : State T P W → Action T P W → Prop}
    (h : Lts.Reaches (step pid handle cfg) ok (.init cfg raw current) σ) :
    Linked pid handle cfg raw current σ :=
  h.invariant .init fun _ _ _ hI _ hst => hI.move (move_of_step hst)

end Linked

end Nosv.Process
