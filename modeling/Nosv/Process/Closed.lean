import Nosv.IoUring.Contexts
import Nosv.Process.Contract

/-!
# A closed runtime

A process whose `shutdown_inner` has succeeded is done with nOS-V and with the ring for good: the
only thing that comes out of it is a refusal, one for each thing that is asked of it, and nothing
that anybody does with the handles, futures, wakers and streams that are left makes it abort.

* `Shut.events_eq`: the events of a closed process are its refusals;
* `closed_inert`: that, its lifecycle and the absence of aborts, in every continuation.
-/

/-! ## What is left of the components -/

namespace Nosv.Task

variable {T P W : Type} [DecidableEq W] {pid : Pid} {t u : State T P W} {a : Action T P W}

omit [DecidableEq W] in
/-- A task that is done has no gate that lets a wake through. -/
theorem Gated.done_not_live (h : Gated pid t) (hpc : t.pc = .done) : t.gate.phase ≠ .live :=
  fun hlive => h.fits.ne_gone hlive (by rw [hpc]; rfl)

/-- Wakes, aborts and polls of its handle are all that happens to a task that is done. -/
theorem Gated.done_no_abort (h : Gated pid t) (hpc : t.pc = .done) (e : TaskAbort) :
    step pid a t ≠ .error (.abort e) := by
  have hnot := h.done_not_live hpc
  intro hs
  cases a with
  | schedule submit =>
    simp only [step, NativeGate.schedule] at hs
    split_ifs at hs with hmatch hlive
    · cases hs
    · cases hs
    · exact hlive (.inl hnot)
  | requestAbort submit =>
    simp only [step, NativeGate.requestAbort] at hs
    split_ifs at hs with hmatch hlive
    · cases hs
    · cases hs
    all_goals exact hlive (.inl hnot)
  | joinPoll => cases hs
  | suspend result => cases result <;> simp [step, hpc] at hs <;> cases hs
  | discard panic => cases panic <;> simp [step, hpc] at hs <;> cases hs
  | _ =>
    simp only [step, hpc] at hs
    cases hs

end Nosv.Task

namespace Nosv.IoUring

variable {cfg : PreparedRing} {ok : State → Action → Prop} {σ τ : State} {a : Action}

/-- What a user asks of the ring. -/
def Action.asks : Action → Bool
  | .checkSubmit _ | .enqueue _ => true
  | _ => false

/-- The owner thread closes no delivery when it is not in the driver. -/
theorem Revoked.not_closes (h : Revoked σ) (howner : σ.owner = .idle) (s : SubId) :
    ¬σ.Closes s := by
  rintro (hs | ⟨d, hd⟩)
  · rw [howner] at hs
    cases hs
  · rw [h.outside (by rw [howner]; rfl)] at hd
    cases hd

/-- A driver that has completed refuses what it is asked, and does nothing else. -/
theorem ringEvents_completed (h : Reachable cfg ok σ) (hcompleted : σ.completed = true)
    (howner : σ.owner = .idle) (hm : Move cfg σ a τ) :
    Process.ringEvents a σ = if a.asks then [.answer false] else [] := by
  have hdriver := completed_of_reachable h hcompleted
  have hS := Stopping.of_reachable h
  have hphase : σ.gate.phase = .destroyed :=
    (Gated.of_reachable h).destroyed.mpr (.inr hdriver)
  obtain ⟨hshutdown, -, -, hcrit⟩ := hS.idle (by rw [hdriver]; rfl)
  have haccepting : σ.data.accepting = false := by rw [hS.accepting, hshutdown]; rfl
  have hadmission := hS.admission hshutdown
  -- An open future has lost its delivery by now.
  have hchecked : ∀ {s fut}, (σ.clients s).role.fut? = some fut →
      (σ.clients s).role.fut?.any (·.closed) = true ∨ (σ.subs s).inner.delivery ≠ .opened := by
    intro s fut hfut
    cases hclosed : fut.closed with
    | true => exact .inl (by rw [hfut]; exact hclosed)
    | false =>
      have hR := Revoked.of_reachable h
      exact .inr ((hR.futures hshutdown s fut (Role.fut?_eq_some.mp hfut) hclosed).resolve_right
        (hR.not_closes howner s))
  cases hm with
  | notify => simp [Process.ringEvents, DriverPark.wake?, hphase, Action.asks]
  | pollClosed | pollRefused | pollDeferred | pollAdmit =>
    simp [Process.ringEvents, haccepting, Action.asks]
  | submitFailed hfut | submitOk hfut | submitPending hfut =>
    simp only [Process.ringEvents, if_pos (hchecked hfut), Action.asks, if_true]
  | enqueueRejected | enqueue => simp [Process.ringEvents, hadmission, Action.asks]
  | stageCancellation hc | stageOwnedCancellation hc | ownedBudget hc | stageOwned hc
  | originalFull hc | originalStaged hc | submitAccepted hc | submitRetry hc =>
    rw [hcrit] at hc
    cases hc
  | passBegin hd | reap hd | resume hd | takeRing hd | retire hd =>
    rw [hdriver] at hd
    cases hd
  | _ => simp [Process.ringEvents, Action.asks]

/-- No step makes the ring abort once its driver has completed. -/
theorem completed_no_abort (h : Reachable cfg ok σ) (hcompleted : σ.completed = true) (e : Abort) :
    step cfg a σ ≠ .error (.abort e) := by
  intro ha
  have hdriver := completed_of_reachable h hcompleted
  obtain ⟨-, -, -, hcrit⟩ := (Stopping.of_reachable h).idle (by rw [hdriver]; rfl)
  cases excused_of_abort h ha with
  | @submit errno => simp [step, State.submit, hcrit] at ha
  | index hc =>
    rw [hcrit] at hc
    cases hc

end Nosv.IoUring

namespace Nosv.Timer

variable {W : Type} [DecidableEq W] {σ τ : State W} {a : Action W}

/-- What a user asks of the timers. -/
def Action.asks : Action W → Bool
  | .bind _ _ => true
  | _ => false

omit [DecidableEq W] in
/-- A driver that has completed notifies nobody. -/
theorem timerEvents_completed (h : Process.TimerOwned σ) (hcompleted : σ.completed = true)
    (ha : ∀ t, a ≠ .bind t true) (hm : Move σ a τ) :
    Process.timerEvents a σ = if a.asks then [.answer false] else [] := by
  have hpc := h.completed.mp hcompleted
  have hphase : σ.gate.phase = .destroyed := h.phase.mpr (.inr hpc)
  cases hm with
  | notifyPushed | notifyDropped | shutdownNotify =>
    simp [Process.timerEvents, DriverPark.wake, hphase, Action.asks]
  | bind => exact absurd rfl (ha _)
  | bindPanic => rfl
  | driver => simp [Process.timerEvents, hpc, Action.asks]
  | _ => rfl

/-- No step makes the timers abort once their driver has completed, unless a sleep is bound to a
running runtime. -/
theorem completed_no_abort (h : Process.TimerOwned σ) (hcompleted : σ.completed = true)
    (ha : ∀ t, a ≠ .bind t true) (e : TimerAbort) : step a σ ≠ .error (.abort e) := by
  have hpc := h.completed.mp hcompleted
  have hphase : σ.gate.phase = .destroyed := h.phase.mpr (.inr hpc)
  intro hs
  cases a with
  | bind t running =>
    cases running with
    | true => exact ha t rfl
    | false =>
      simp only [step, Bool.false_eq_true, if_false] at hs
      repeat' split at hs
      all_goals cases hs
  | driver => simp [step, driverStep, hpc] at hs
  | notify t submit =>
    simp only [step] at hs
    split at hs
    · cases hs
    · split at hs <;> simp [State.notify, DriverGate.notify, DriverPark.wake, State.setSleep,
        hphase] at hs
  | shutdownNotify submit =>
    simp only [step] at hs
    split at hs <;> simp [State.notify, DriverGate.notify, DriverPark.wake, hphase] at hs
  | tick | drop | poll | push =>
    simp only [step] at hs
    repeat' split at hs
    all_goals cases hs
  | create | shutdown | shutdownReturn =>
    simp only [step] at hs
    split at hs <;> cases hs

end Nosv.Timer

namespace Nosv.BlockOn

variable {pid : Pid} {handle : HandleId} {current : Option HandleId} {σ τ : State} {a : Action}

/-- What a user asks of the owner thread. -/
def Action.asks : Action → Bool
  | .blockOn _ _ _ _ => true
  | _ => false

/-- Outside of a call no parker lets a wake through. -/
theorem Parkers.not_live (h : Parkers pid σ) (hpc : σ.pc = .outside) {k : ParkerId}
    (hk : k < σ.made) : (σ.gates k).live = false := by
  by_contra hlive
  exact (Process.RootLive.of_wake h hk (Bool.eq_true_of_not_eq_false hlive)).2 hpc

/-- An owner thread that finds the runtime closed is refused, and a late wake goes nowhere. -/
theorem rootEvents_outside (h : Parkers pid σ) (hpc : σ.pc = .outside)
    (ha : ∀ owner inTask attach, a ≠ .blockOn owner true inTask attach)
    (hs : step pid pid handle a σ = .ok τ) :
    Process.rootEvents pid pid a σ = if a.asks then [.answer false] else [] := by
  cases a with
  | blockOn owner running inTask attach =>
    cases running with
    | true => exact absurd rfl (ha _ _ _)
    | false => exact if_pos (.inr (.inr rfl))
  | wake k submit =>
    simp only [step] at hs
    split at hs
    next hk => simp [Process.rootEvents, h.not_live hpc hk, Action.asks]
    next => cases hs
  | pause | detach =>
    simp only [step, hpc] at hs
    cases hs
  | _ => rfl

/-- No step makes the owner thread abort outside `try_block_on`. -/
theorem outside_no_abort (h : Parkers pid σ) (hpc : σ.pc = .outside) (e : BlockOnAbort) :
    step pid pid handle a σ ≠ .error (.abort e) := by
  intro hs
  cases a with
  | blockOn owner running inTask attach =>
    simp only [step] at hs
    split at hs
    · cases hs
    · split at hs <;> cases hs
  | wake k submit =>
    simp only [step] at hs
    split at hs
    next hk => simp [ParkerGate.wakeByRef, h.not_live hpc hk] at hs
    next => cases hs
  | _ =>
    simp only [step, hpc] at hs
    cases hs

end Nosv.BlockOn

/-! ## The process -/

namespace Nosv.Process

open Nosv.BlockOn (HandleId)
open Nosv.IoUring (PreparedRing)

variable {T P W : Type} [DecidableEq W] {pid : Pid} {handle : HandleId} {cfg : PreparedRing}
  {raw : RawTask} {current : Option HandleId} {σ τ : State T P W} {a : Action T P W}

/-- What a user asks of the process. -/
def Action.asks : Action T P W → Bool
  | .runtime (.spawn _ _) | .query _ | .capability | .operation => true
  | .ring a => a.asks
  | .timer a => a.asks
  | .root a => a.asks
  | _ => false

/-- A runtime that was shut down, with what is left of it. -/
structure Shut (pid : Pid) (handle : HandleId) (cfg : PreparedRing) (raw : RawTask)
    (current : Option HandleId) (σ : State T P W) : Prop where
  linked : Linked pid handle cfg raw current σ
  lifecycle : σ.runtime.state.lifecycle = .closed

namespace Shut

/-- A runtime that is shut is not running. -/
theorem running (h : Shut pid handle cfg raw current σ) : σ.running = false :=
  decide_eq_false (by simp [h.lifecycle])

/-- No attempt of shutdown is under way. -/
theorem settled (h : Shut pid handle cfg raw current σ) :
    σ.runtime.shutdown = .idle ∧ σ.teardown = .outside ∧ σ.ring.owner = .idle := by
  obtain ⟨hidle, -⟩ := h.linked.closed h.lifecycle
  have hpc : σ.teardown = .outside := by
    by_contra hpc
    have := h.linked.drained hpc
    rw [hidle] at this
    cases this
  refine ⟨hidle, hpc, ?_⟩
  by_contra howner
  have := h.linked.ringOwner howner
  rw [hpc] at this
  cases this

/-- Every task is done. -/
theorem done (h : Shut pid handle cfg raw current σ) {id : Runtime.TaskId}
    {t : Task.State T P W} (ht : σ.runtime.tasks id = some t) : t.pc = .done := by
  by_contra hne
  have hmem := (h.linked.runtime.registry id).mpr ⟨t, ht, hne⟩
  rw [show σ.runtime.unlogged.state.tasks = ∅ from (h.linked.closed h.lifecycle).2.1] at hmem
  simp at hmem

/-- What its tasks still do, nOS-V does not see. -/
theorem taskEvents_eq (h : Shut pid handle cfg raw current σ) {id : Runtime.TaskId}
    {t u : Task.State T P W} {b : Task.Action T P W} (ht : σ.runtime.tasks id = some t)
    (hm : Task.Move pid t b u) : taskEvents pid id b t = [] := by
  have hgone : t.pc.stage = .gone := by rw [h.done ht]; rfl
  rcases taskEvents_cases id (h.linked.runtime.gated id t ht).1 hm with
    ⟨calls, hos, hcalls, -⟩ | ⟨-, hne, -⟩
  · rw [hos, List.map_eq_nil_iff]
    by_contra hne
    exact hcalls hne hgone
  · exact absurd hgone hne

/-- A step of a closed process is a refusal, or nothing at all. -/
theorem events_eq (h : Shut pid handle cfg raw current σ) (hm : Move pid handle cfg σ a τ) :
    events pid a σ = if a.asks then [.answer false] else [] := by
  -- Everything the process consists of has come to its end.
  obtain ⟨hidle, hpc, howner⟩ := h.settled
  obtain ⟨-, -, hring, htimer, hroot⟩ := h.linked.closed h.lifecycle
  have hnot := h.running
  have hlifecycle : σ.runtime.state.lifecycle ≠ .running := of_decide_eq_false hnot
  have hnext : σ.teardown.next = none := by rw [hpc]; rfl
  cases hm with
  | runtime ha hstep =>
    simp only [events]
    cases h.linked.runtime.unlogged_step hstep with
    | spawnFailed | spawned => exact if_pos (.inr (.inr hlifecycle))
    | task ht _ hm =>
      simp only [runtimeEvents, ht, Option.elim_some, h.taskEvents_eq ht hm]
      rfl
    | abort hs | abortEnd hs =>
      rw [hidle] at hs
      cases hs
    | beginClosed | beginRunning | beginClosing | teardown => cases ha
    | _ => rfl
  | shutdown => rfl
  -- An attempt of shutdown is over when the runtime is closed.
  | enterRing | enterTimer | call | failed | close =>
    simp only [events, hnext]
    rfl
  | ring _ hstep =>
    exact IoUring.ringEvents_completed h.linked.ring hring howner (IoUring.move_of_step hstep)
  -- Sleeps are polled in a running runtime only.
  | @timer b timer ha hstep =>
    refine Timer.timerEvents_completed (.of_reaches h.linked.timer) htimer ?_
      (Timer.move_of_step hstep)
    rintro t rfl
    exact absurd (hnot.symm.trans ha) Bool.false_ne_true
  | @root b root ha hstep =>
    refine BlockOn.rootEvents_outside (BlockOn.invariant_of_reachable h.linked.root).1 hroot ?_
      hstep
    rintro owner inTask attach rfl
    exact absurd (hnot.symm.trans (of_decide_eq_true ha).1.symm) Bool.false_ne_true
  | query => simp [events, hnot, Action.asks]
  | capability => simp [events, hnot, Action.asks]
  | operation => rfl

/-- A closed runtime stays closed. -/
theorem move (h : Shut pid handle cfg raw current σ) (hm : Move pid handle cfg σ a τ) :
    Shut pid handle cfg raw current τ := by
  refine ⟨h.linked.move hm, ?_⟩
  obtain ⟨hidle, hpc, -⟩ := h.settled
  have hlifecycle := h.lifecycle
  cases hm with
  | runtime ha hstep =>
    exact ((h.linked.runtime.unlogged_step hstep).within ha).1.trans hlifecycle
  | shutdown _ _ hstep =>
    cases h.linked.runtime.unlogged_step hstep with
    | beginClosed => exact hlifecycle
    | beginRunning _ _ _ hl | beginClosing _ _ _ hl =>
      rw [hlifecycle] at hl
      cases hl
  | enterRing _ hs =>
    rw [hidle] at hs
    cases hs
  | enterTimer ht | close ht =>
    rw [hpc] at ht
    cases ht
  | call hnext | failed hnext =>
    rw [hpc] at hnext
    cases hnext
  | _ => exact hlifecycle

/-- No step of the registry aborts. -/
theorem runtime_no_abort (h : Shut pid handle cfg raw current σ) (b : Runtime.Action T P W)
    (e : Runtime.RuntimeAbort) : Runtime.step pid b σ.runtime ≠ .error (.abort e) := by
  obtain ⟨hidle, -, -⟩ := h.settled
  have hnot : σ.runtime.state.lifecycle ≠ .running := of_decide_eq_false h.running
  have htask : ∀ id t b e, σ.runtime.tasks id = some t →
      Runtime.lift (Task.step pid b t) ≠ .error (.abort e) := by
    intro id t b e ht hlift
    unfold Runtime.lift at hlift
    split at hlift
    · cases hlift
    · cases hlift
    · next e' hstep =>
      exact (h.linked.runtime.gated id t ht).1.done_no_abort (h.done ht) e' hstep
  intro hs
  cases b with
  | spawn affinity native =>
    have hsome : Runtime.spawnOn pid pid affinity native σ.runtime.state ≠ none := by
      -- Identifiers are given out by a running runtime only.
      unfold Runtime.spawnOn
      rw [if_neg (by simp)]
      cases affinity with
      | error => exact nofun
      | ok =>
        dsimp only
        rw [if_pos hnot]
        exact nofun
    simp only [Runtime.step] at hs
    split at hs
    next => cases hs
    next =>
      split at hs
      next hnone => exact hsome hnone
      next => split at hs <;> cases hs
  | task id b =>
    simp only [Runtime.step] at hs
    split at hs
    next => cases hs
    next t ht =>
      split at hs
      next =>
        split at hs
        next => cases hs
        next e' hlift =>
          cases hs
          exact htask id t b e ht hlift
      next => cases hs
  | taskCompleted id =>
    simp only [Runtime.step] at hs
    split at hs
    next t _ ht =>
      split at hs
      next => cases hs
      next e' hlift =>
        cases hs
        exact htask id t .unregister e ht hlift
    next => cases hs
  | shutdownBegin order =>
    simp only [Runtime.step, hidle, h.lifecycle] at hs
    split at hs <;> cases hs
  | spawnReturn =>
    simp only [Runtime.step] at hs
    split at hs <;> cases hs
  | shutdownAbort | drainCheck | drainWake | teardown =>
    simp only [Runtime.step, hidle] at hs
    cases hs

/-- No step of the process aborts. -/
theorem no_abort (h : Shut pid handle cfg raw current σ) (a : Action T P W) (e : Abort) :
    step pid handle cfg a σ ≠ .error (.abort e) := by
  obtain ⟨hidle, hpc, -⟩ := h.settled
  obtain ⟨-, -, hring, htimer, hroot⟩ := h.linked.closed h.lifecycle
  intro hs
  unfold step at hs
  split at hs
  next hallows =>
    cases a with
    | runtime b | shutdown order =>
      obtain ⟨e', he, -⟩ := Lts.inside_eq_abort.mp hs
      exact h.runtime_no_abort _ e' he
    | teardown native =>
      simp only [teardownStep, hpc, hidle] at hs
      cases hs
    | ring b =>
      obtain ⟨e', he, -⟩ := Lts.inside_eq_abort.mp hs
      exact IoUring.completed_no_abort h.linked.ring hring e' he
    | timer b =>
      obtain ⟨e', he, -⟩ := Lts.inside_eq_abort.mp hs
      refine Timer.completed_no_abort (.of_reaches h.linked.timer) htimer ?_ e' he
      rintro t rfl
      exact absurd (h.running.symm.trans hallows) Bool.false_ne_true
    | root b =>
      obtain ⟨e', he, -⟩ := Lts.inside_eq_abort.mp hs
      exact BlockOn.outside_no_abort (BlockOn.invariant_of_reachable h.linked.root).1 hroot e' he
    | query | capability | operation => cases hs
  next => cases hs

end Shut

/-- A closed runtime is inert: whatever is done with what is left of it, in any number of steps,
the runtime stays closed, each thing asked of it is refused, nOS-V and the ring see nothing, and
the process does not abort. -/
theorem closed_inert {os : List Event}
    (h : Lts.Reaches (step pid handle cfg) Lts.Always (.init cfg raw current) σ)
    (hclosed : σ.runtime.state.lifecycle = .closed)
    (hrun : Lts.Emits (step pid handle cfg) (events pid) σ os τ) :
    τ.runtime.state.lifecycle = .closed ∧ (∀ o ∈ os, o = .answer false) ∧
      ∀ a, (∀ e, step pid handle cfg a τ ≠ .error (.abort e)) ∧
        ∀ υ, step pid handle cfg a τ = .ok υ →
          events pid a τ = if a.asks then [.answer false] else [] := by
  have hσ : Shut pid handle cfg raw current σ := ⟨.of_reaches h, hclosed⟩
  have hτ : (∀ o ∈ os, o = .answer false) ∧ Shut pid handle cfg raw current τ := by
    refine hrun.invariant (R := fun os τ => (∀ o ∈ os, o = .answer false) ∧
      Shut pid handle cfg raw current τ) ⟨by simp, hσ⟩ fun os t u a ⟨hos, ht⟩ hst => ?_
    have hm := move_of_step hst
    refine ⟨fun o ho => (List.mem_append.mp ho).elim (hos o) fun ho => ?_, ht.move hm⟩
    rw [ht.events_eq hm] at ho
    split_ifs at ho
    · exact List.mem_singleton.mp ho
    · cases ho
  exact ⟨hτ.2.lifecycle, hτ.1, fun a => ⟨hτ.2.no_abort a, fun υ hst =>
    hτ.2.events_eq (move_of_step hst)⟩⟩

/-- What is still done with the handles of a closed runtime. -/
def afterlife : List (Action ℕ ℕ ℕ) :=
  [.runtime (.task 1 (.schedule (.error .busy))),
    .runtime (.spawn (.ok ()) ⟨.ok 2, .ok (), .ok (), .ok ()⟩), .root (.wake 0 (.error .busy)),
    .root (.blockOn true false false (.ok 41)), .query (.ok ()), .ring (.enqueue 7), .shutdown []]

/-- Four refusals; the wakes of the task and of the parker are dropped. -/
theorem closed_inert_afterlife :
    ∃ σ τ : State ℕ ℕ ℕ, Lts.Reaches (step 7 0 .tiny) Lts.Always (.init .tiny 5 none) σ ∧
      Lts.Emits (step 7 0 .tiny) (events 7) σ (List.replicate 4 (.answer false)) τ ∧
      τ.runtime.state.lifecycle = .closed ∧
      ∀ a e, step 7 0 .tiny a τ ≠ .error (.abort e) := by
  have hrun : (Lts.exec (step 7 0 .tiny) Lts.Always lifetime (.init .tiny 5 none)).any
      (fun σ => σ.runtime.state.lifecycle = .closed ∧
        (Lts.collect (step 7 0 .tiny) (events 7) afterlife [] σ).any
          (fun p => p.1 = List.replicate 4 (.answer false)) = true) = true := by
    decide +kernel
  obtain ⟨σ, hσ, hclosed, hlater⟩ := Lts.exists_of_exec hrun
  obtain ⟨⟨os, τ⟩, hcollect, h⟩ := (Option.any_eq_true _ _).mp hlater
  obtain rfl : os = List.replicate 4 (.answer false) := of_decide_eq_true h
  have hemits := Lts.emits_of_collect .refl hcollect
  obtain ⟨hlifecycle, -, hsteps⟩ := closed_inert hσ hclosed hemits
  exact ⟨σ, τ, hσ, hemits, hlifecycle, fun a => (hsteps a).1⟩

end Nosv.Process
