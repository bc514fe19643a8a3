import Nosv.Process.Contract
import Nosv.Timer.Punctual

/-!
# A forked child

A child has the memory of its parent and one thread, which uses what it has inherited: handles,
futures, streams, wakers and the runtime itself. By `fork_contract`, what it does to nOS-V and the
ring is what its parent has left open: one wake for each driver that was parked, since a
notification does not look at the process, and what a `SubmitEntries` future that was open lets
through.

No callback of nOS-V runs in the child, and it does not return from a poll, a waker or a destructor
that `try_block_on`, `shutdown_inner`, `run_once` or a driver was calling when the process forked.
These go on with a pause, a detach, a suspension or the rest of a teardown, and look at no process
either.

Calls that other threads of the parent were in may go on here as well. They do not in a child, which
only makes what is said of it stronger.
-/

namespace Nosv.IoUring

variable {cfg : PreparedRing} {σ τ : State} {a : Action}

/-- A notification leaves no wake to another. -/
theorem notify_spent {g : DriverGate} {y : DriverGate × List NativeCall}
    (h : IoUring.notify g = .ok y) : y.1.phase.wake? = none := by
  rcases notify_cases h with rfl | ⟨-, -, rfl⟩ | ⟨-, -, rfl⟩
  · unfold IoUring.notify at h
    cases hphase : g.phase <;> simp only [hphase] at h
    case paused | deadlineWait =>
      split at h
      · cases h
      · cases h
    all_goals rfl
  · rfl
  · rfl

/-- The steps of a child: those of a caller, and of an admission that it was forked in. -/
def Action.inherited (σ : State) : Action → Bool
  | .kernelPost _ | .registerSubmission | .openSubmission _ | .pollSubmit _ _ | .checkSubmit _
  | .dropSubmit _ | .pollCompletion _ _ | .dropFuture _ | .cancelStream _ | .dropStream _
  | .pollCancellation _ _ | .pollDrained _ _ | .dropCancellation _ | .close _ | .sweep _ _
  | .sweepOwned _ _ | .notify _ | .pollOwned _ _ | .dropOwned _ => true
  | .stageCancellation _ | .iteratorNext _ | .iteratorPanic | .stageOriginal _ | .submit _
  | .accept =>
    match σ.crit with
    | some (.admission _ _ _, _) => true
    | _ => false
  | _ => false

/-- A future that may stage entries, or one that is doing so. -/
def State.Admitting (σ : State) : Prop :=
  (∃ s fut, (σ.clients s).role = .submit fut ∧ fut.closed = false) ∨
    ∃ s w n stage, σ.crit = some (.admission s w n, stage)

/-- Inside the critical section a child is in an admission. -/
theorem State.Admitting.of_inherited {x : Holder × Stage} (hcrit : σ.crit = some x)
    (ha : (match σ.crit with
      | some (.admission _ _ _, _) => true
      | _ => false) = true) : σ.Admitting := by
  rw [hcrit] at ha
  obtain ⟨_ | _, _⟩ := x
  · exact .inr ⟨_, _, _, _, hcrit⟩
  · cases ha

/-- A child makes no future that may stage entries, and enters no admission without one. -/
theorem State.Admitting.back (h : τ.Admitting) (hσ : Reachable cfg Lts.Always σ)
    (hrunning : σ.running = false) (ha : a.inherited σ = true)
    (hstep : step cfg a σ = .ok τ) : σ.Admitting := by
  rcases h with ⟨s, fut, hrole, hopen⟩ | ⟨s, w, n, stage, hcrit⟩
  · rcases (hσ.view_step hstep s).open_future hrole hopen with ⟨fut', hrole', hopen'⟩ | rfl
    · exact .inl ⟨s, fut', hrole', hopen'⟩
    · cases move_of_step hstep with
      | openSubmission =>
        -- It is made closed, for the runtime belongs to another process.
        simp only [setClient_clients, if_true, Role.submit.injEq] at hrole
        rw [← hrole, hrunning] at hopen
        cases hopen
  · cases move_of_step hstep with
    | pollAdmit hfut _ _ hclosed =>
      exact .inl ⟨_, _, Role.fut?_eq_some.mp hfut, hclosed⟩
    | stageCancellation hc | iteratorSome hc | iteratorNone hc | iteratorPanic hc
    | originalFull hc | originalStaged hc | submitAccepted hc | submitRetry hc | admitEnd hc
    | passEnd hc | accept hc =>
      exact .of_inherited hc ha
    | stageOwnedCancellation | ownedBudget | stageOwned | admissionsEnd | wakeAdmission
    | admissionDead | enqueueRejected | enqueue | passBegin | failOwned | failEnd | reap
    | dispatchEnd | dispatch | publish | cancelOverflow | overflowEnd | decideStop | decide
    | parkNotified | park | resume | markRunning | takeRing | closeGate | retire | complete
    | beginShutdown | shutdownAndWait | closeAdmission | raiseShutdown | cancelSubmission
    | submissionsEnd | cancelSnapshot | snapshotEnd | awaitCompleted => cases ha
    | _ => exact .inr ⟨s, w, n, stage, hcrit⟩

end Nosv.IoUring

namespace Nosv.Task

variable {T P W : Type} [DecidableEq W] {here : Pid} {t u : State T P W}

/-- A copy of a live task that belongs to another process. -/
def Foreign (here : Pid) (t : State T P W) : Prop :=
  t.gate.phase = .live → processMatches t.runtime here = false

/-- A wake of such a copy goes nowhere. -/
theorem Foreign.schedule (h : Foreign here t) {submit : Status}
    (hstep : step here (.schedule submit) t = .ok u) :
    u.gate = t.gate ∧ u.runtime = t.runtime := by
  have hgate : t.gate.schedule t.runtime here submit = .ok (t.gate, false) := by
    unfold NativeGate.schedule
    by_cases hlive : t.gate.phase = .live
    · rw [if_pos (h hlive)]
    · rw [if_pos (Or.inl hlive), ite_self]
  simp only [step, hgate] at hstep
  cases hstep
  exact ⟨rfl, rfl⟩

/-- An abort of it neither. -/
theorem Foreign.requestAbort (h : Foreign here t) {submit : Status}
    (hstep : step here (.requestAbort submit) t = .ok u) :
    u.gate = t.gate ∧ u.runtime = t.runtime := by
  have hgate : t.gate.requestAbort t.runtime here submit = .ok (t.gate, false, false) := by
    unfold NativeGate.requestAbort
    by_cases hlive : t.gate.phase = .live
    · rw [if_pos (h hlive)]
    · rw [if_pos (Or.inl hlive), ite_self]
  simp only [step, hgate] at hstep
  cases hstep
  exact ⟨rfl, rfl⟩

end Nosv.Task

namespace Nosv.Process

open Nosv.BlockOn (HandleId)
open Nosv.IoUring (PreparedRing)

variable {T P W : Type}

/-! ## Steps of a child -/

/-- The event is neither an answer nor a use of the ring. -/
def Event.isCall : Event → Bool
  | .answer _ | .ring => false
  | _ => true

/-- The wake that a notification of the ring driver would submit. -/
def ringWakes (σ : IoUring.State) : List Event := (σ.gate.phase.wake?.map ringCall).toList

/-- The wake that a notification of the timer driver would submit. -/
def timerWakes (σ : Timer.State W) : List Event :=
  (σ.gate.phase.wake.map fun wake => Event.use .timer (wakeUse wake)).toList

namespace State

variable (σ : State T P W)

/-- The child: whoever looks for a running runtime finds another process's. -/
def fork : State T P W := { σ with ring := { σ.ring with running := false } }

/-- The wakes that drivers wait for. -/
def parked : List Event := ringWakes σ.ring ++ timerWakes σ.timer

/-- What a child does with what it has inherited: no step of a callback or of a driver, and none of
`try_block_on` or `shutdown_inner` behind their checks. -/
def inherits : Action T P W → Bool
  | .runtime (.spawn _ _) | .shutdown _ | .query _ | .capability | .operation => true
  | .runtime (.task _ (.schedule _)) | .runtime (.task _ (.requestAbort _))
  | .runtime (.task _ (.joinPoll _)) => true
  | .ring a => a.inherited σ.ring
  -- Without a driver task nothing expires, and no sleep finds a runtime to bind to.
  | .timer (.bind _ running) => !running
  | .timer (.driver _ _) | .timer .shutdown | .timer (.shutdownNotify _)
  | .timer .shutdownReturn => false
  | .timer _ => true
  | .root (.blockOn _ _ _ _) | .root (.wake _ _) => true
  | _ => false

end State

/-- The next state of a child `here` of process `pid`. -/
def childStep [DecidableEq W] (pid here : Pid) (handle : HandleId) (cfg : PreparedRing)
    (a : Action T P W) (σ : State T P W) : Except (Halt Abort) (State T P W) :=
  if σ.inherits a then
    match a with
    | .runtime (.task id a) =>
      match σ.runtime.tasks id with
      | none => .error .disabled
      | some t =>
        Lts.inside (fun e => .runtime (.task e))
          (fun t => { σ with runtime := σ.runtime.setTask id t }) (Task.step here a t)
    | .ring a => Lts.inside .ring (fun ring => { σ with ring := ring }) (IoUring.step cfg a σ.ring)
    | .timer a => Lts.inside .timer (fun timer => { σ with timer := timer }) (Timer.step a σ.timer)
    | .root a =>
      Lts.inside .root (fun root => { σ with root := root })
        (BlockOn.step pid here handle a σ.root)
    -- The others look at the process first.
    | _ => .ok σ
  else .error .disabled

/-- The events of a step of a child. -/
def childEvents (pid here : Pid) : Action T P W → State T P W → List Event
  | .runtime (.spawn affinity native), σ => spawnEvents pid here affinity native σ.runtime.state
  | .runtime (.task id a), σ => (σ.runtime.tasks id).elim [] (taskEvents here id a)
  | .shutdown _, _ | .query _, _ | .capability, _ | .operation, _ => [.answer false]
  | .ring a, σ => ringEvents a σ.ring
  | .timer a, σ => timerEvents a σ.timer
  | .root a, σ => rootEvents pid here a σ.root
  | _, _ => []

/-! ## What a component lets through -/

/-- Steps that call nothing and leave the phase of a driver alone. -/
theorem calls_append_wakes {os ws ws' : List Event} (hos : ∀ o ∈ os, o.isCall = false)
    (hws : ws' = ws) : os.filter Event.isCall ++ ws' = ws := by
  rw [List.filter_eq_nil_iff.mpr fun o ho => by simp [hos o ho], List.nil_append, hws]

section Ring

open Nosv.IoUring (Reachable)

variable {cfg : PreparedRing} {σ τ : IoUring.State} {a : IoUring.Action}

/-- A future that is granted its stream was open. -/
theorem checkSubmit_cases (s : IoUring.SubId) :
    ringEvents (.checkSubmit s) σ = [.answer false] ∨ ringEvents (.checkSubmit s) σ = [] ∨
      (ringEvents (.checkSubmit s) σ = [.answer true] ∧
        ¬(σ.clients s).role.fut?.any (·.closed) = true) := by
  simp only [ringEvents]
  split
  next => exact .inl rfl
  next hrefused =>
    split
    next => exact .inr (.inr ⟨rfl, (not_or.mp hrefused).1⟩)
    next => exact .inr (.inl rfl)

/-- A child notifies a parked ring driver once. -/
theorem ring_inherited (hσ : Reachable cfg Lts.Always σ) (ha : a.inherited σ = true)
    (hstep : IoUring.step cfg a σ = .ok τ) :
    (ringEvents a σ).filter Event.isCall ++ ringWakes τ = ringWakes σ ∧
      ((.ring ∈ ringEvents a σ ∨ .answer true ∈ ringEvents a σ) → σ.Admitting) := by
  -- A future made open can still admit.
  have hopen : ∀ {s fut}, (σ.clients s).role.fut? = some fut → fut.closed = false →
      σ.Admitting := fun hfut hclosed => .inl ⟨_, _, IoUring.Role.fut?_eq_some.mp hfut, hclosed⟩
  cases IoUring.move_of_step hstep with
  | notify hcall hnotify =>
    have hnotes := ringEvents_notify (.of_reachable hσ)
    refine ⟨?_, fun hor => ?_⟩
    · have hwakes : (ringWakes σ).filter Event.isCall = ringWakes σ :=
        List.filter_eq_self.mpr fun o ho => by
          obtain ⟨call, rfl, -⟩ := hnotes o ho
          rfl
      show (ringWakes σ).filter Event.isCall ++ _ = _
      rw [hwakes]
      simp [ringWakes, IoUring.State.setCall, IoUring.notify_spent hnotify]
    · rcases hor with ho | ho <;> obtain ⟨call, heq, -⟩ := hnotes _ ho <;> cases heq
  | pollClosed hfut | pollRefused hfut | pollDeferred hfut | pollAdmit hfut =>
    refine ⟨calls_append_wakes (fun o ho => ?_) rfl, fun hor => ?_⟩
    · simp only [ringEvents] at ho
      split_ifs at ho
      · exact List.mem_singleton.mp ho ▸ rfl
      · cases ho
    · simp only [ringEvents, hfut] at hor
      split_ifs at hor with hany
      · exact hopen hfut (by simpa using hany.1)
      · simp at hor
  | submitFailed hfut | submitOk hfut | submitPending hfut =>
    rcases checkSubmit_cases _ with hos | hos | ⟨hos, hany⟩
    · exact ⟨by rw [hos]; rfl, by simp [hos]⟩
    · exact ⟨by rw [hos]; rfl, by simp [hos]⟩
    · exact ⟨by rw [hos]; rfl, fun _ => hopen hfut (by simpa [hfut] using hany)⟩
  | stageCancellation hc | iteratorSome hc | iteratorNone hc | iteratorPanic hc
  | originalFull hc | originalStaged hc | submitAccepted hc | submitRetry hc | admitEnd hc
  | passEnd hc | accept hc =>
    exact ⟨calls_append_wakes (by simp [ringEvents, Event.isCall]) rfl,
      fun _ => .of_inherited hc ha⟩
  | stageOwnedCancellation | ownedBudget | stageOwned | admissionsEnd | wakeAdmission
  | admissionDead | enqueueRejected | enqueue | passBegin | failOwned | failEnd | reap
  | dispatchEnd | dispatch | publish | cancelOverflow | overflowEnd | decideStop | decide
  | parkNotified | park | resume | markRunning | takeRing | closeGate | retire | complete
  | beginShutdown | shutdownAndWait | closeAdmission | raiseShutdown | cancelSubmission
  | submissionsEnd | cancelSnapshot | snapshotEnd | awaitCompleted => cases ha
  | _ => exact ⟨calls_append_wakes (by simp [ringEvents]) rfl, by simp [ringEvents]⟩

end Ring

section Timer

variable [DecidableEq W] {σ τ : Timer.State W} {a : Timer.Action W}

omit [DecidableEq W] in
/-- A notification of the timer driver takes the wake that it waits for. -/
theorem timerWakes_noted (h : τ.gate = σ.gate.noted) : timerWakes τ = [] := by
  unfold timerWakes
  rw [h, Timer.DriverGate.noted]
  cases σ.gate.phase <;> rfl

/-- A child notifies a parked timer driver once. -/
theorem timer_inherited
    (ha : (∀ t, a ≠ .bind t true) ∧ (∀ native choice, a ≠ .driver native choice) ∧
      ∀ submit, a ≠ .shutdownNotify submit) (hstep : Timer.step a σ = .ok τ) :
    (timerEvents a σ).filter Event.isCall ++ timerWakes τ = timerWakes σ ∧
      ¬(.ring ∈ timerEvents a σ ∨ .answer true ∈ timerEvents a σ) := by
  obtain ⟨hbind, hdriver, hshutdown⟩ := ha
  have hnotify : (timerWakes σ).filter Event.isCall = timerWakes σ ∧
      ¬(.ring ∈ timerWakes σ ∨ .answer true ∈ timerWakes σ) := by
    unfold timerWakes
    cases σ.gate.phase.wake <;> simp [Event.isCall]
  cases Timer.move_of_step hstep with
  | notifyPushed | notifyDropped =>
    refine ⟨?_, hnotify.2⟩
    rw [timerWakes_noted rfl, List.append_nil]
    exact hnotify.1
  | bind => exact absurd rfl (hbind _)
  | driver => exact absurd rfl (hdriver _ _)
  | shutdownNotify => exact absurd rfl (hshutdown _)
  | bindPanic => exact ⟨rfl, by simp [timerEvents]⟩
  | _ => exact ⟨rfl, by simp [timerEvents]⟩

end Timer

section Root

variable {pid here : Pid} {handle : HandleId} {σ τ : BlockOn.State} {a : BlockOn.Action}

/-- A child is refused by `try_block_on`, and wakes no parker. -/
theorem root_inherited (hpid : pid ≠ here) (hσ : ∀ k < σ.made, (σ.gates k).pid = pid)
    (ha : (∃ owner running inTask attach, a = .blockOn owner running inTask attach) ∨
      ∃ k submit, a = .wake k submit) (hstep : BlockOn.step pid here handle a σ = .ok τ) :
    (∀ o ∈ rootEvents pid here a σ, o = .answer false) ∧
      ∀ k < τ.made, (τ.gates k).pid = pid := by
  rcases ha with ⟨owner, running, inTask, attach, rfl⟩ | ⟨k, submit, rfl⟩
  · have hrefuse : ∃ e, BlockOn.refuse pid here owner running inTask σ.inBlockOn = some e := by
      unfold BlockOn.refuse
      rw [if_pos hpid]
      split <;> exact ⟨_, rfl⟩
    obtain ⟨e, he⟩ := hrefuse
    simp only [BlockOn.step, he] at hstep
    cases hstep
    exact ⟨by simp [rootEvents, hpid], hσ⟩
  · simp only [BlockOn.step] at hstep
    split at hstep
    next hk =>
      have hforeign : (σ.gates k).pid ≠ here := by rw [hσ k hk]; exact hpid
      simp only [BlockOn.ParkerGate.wakeByRef, if_pos hforeign] at hstep
      cases hstep
      refine ⟨by simp [rootEvents, hforeign], fun k' hk' => ?_⟩
      simp only [BlockOn.State.setGate, Function.update_apply]
      split_ifs with heq
      · exact hσ k hk
      · exact hσ k' hk'
    next => cases hstep

end Root

/-! ## Runs of a child -/

variable [DecidableEq W] {pid here : Pid} {handle : HandleId} {cfg : PreparedRing} {raw : RawTask}
  {current : Option HandleId} {σ τ υ : State T P W} {os : List Event} {a : Action T P W}

/-- What holds in a child `τ` of `σ` that has caused the events `os`. -/
structure Child (pid here : Pid) (cfg : PreparedRing) (σ : State T P W) (os : List Event)
    (τ : State T P W) : Prop where
  ring : IoUring.Reachable cfg Lts.Always τ.ring
  running : τ.ring.running = false
  tasks : ∀ id t, τ.runtime.tasks id = some t → Task.Foreign here t
  parkers : ∀ k < τ.root.made, (τ.root.gates k).pid = pid
  /-- A wake that was issued, or can still be, is one of those that the parent's drivers wait
  for. -/
  calls : (os.filter Event.isCall ++ τ.parked).Perm σ.parked
  admitting : τ.ring.Admitting → σ.ring.Admitting
  granted : .ring ∈ os ∨ .answer true ∈ os → σ.ring.Admitting

namespace Child

omit [DecidableEq W] in
/-- The lifecycle of a ring that is being shut down is closed already. -/
theorem fork_ring (h : IoUring.Reachable cfg Lts.Always σ.ring) :
    IoUring.Reachable cfg Lts.Always σ.fork.ring := by
  by_cases howner : σ.ring.owner = .idle
  · refine h.tail (a := .beginShutdown) trivial ?_
    show IoUring.State.beginShutdown σ.ring = _
    rw [IoUring.State.beginShutdown, IoUring.require, if_pos howner]
    rfl
  · have hrunning := (IoUring.Revoked.of_reachable h).declined (.inl howner)
    have : σ.fork.ring = σ.ring := by
      show { σ.ring with running := false } = σ.ring
      rw [← hrunning]
    rwa [this]

/-- A child just forked. -/
theorem init (h : Linked pid handle cfg raw current σ) (hpid : pid ≠ here) :
    Child pid here cfg σ [] σ.fork where
  ring := fork_ring h.ring
  running := rfl
  tasks id t ht hlive := by
    have hG := (h.runtime.gated id t ht).1
    rw [Task.processMatches, hG.runtime (hG.fits.ne_gone hlive)]
    simpa using hpid
  parkers k hk := ((BlockOn.invariant_of_reachable h.root).1.made k hk).pid_eq
  calls := .refl _
  admitting := id
  granted := by simp

omit [DecidableEq W] in
/-- The log after a step of a child. -/
theorem extend (h : Child pid here cfg σ os τ) (es : List Event)
    (hes : (es.filter Event.isCall ++ υ.parked).Perm τ.parked)
    (hgranted : .ring ∈ es ∨ .answer true ∈ es → τ.ring.Admitting) :
    ((os ++ es).filter Event.isCall ++ υ.parked).Perm σ.parked ∧
      (.ring ∈ os ++ es ∨ .answer true ∈ os ++ es → σ.ring.Admitting) := by
  refine ⟨?_, fun hor => ?_⟩
  · rw [List.filter_append, List.append_assoc]
    exact (hes.append_left _).trans h.calls
  · simp only [List.mem_append] at hor
    rcases hor with (ho | ho) | (ho | ho)
    · exact h.granted (.inl ho)
    · exact h.admitting (hgranted (.inl ho))
    · exact h.granted (.inr ho)
    · exact h.admitting (hgranted (.inr ho))

omit [DecidableEq W] in
/-- A request that is refused at once. -/
theorem refused (h : Child pid here cfg σ os τ) {es : List Event}
    (hes : ∀ o ∈ es, o = .answer false) : Child pid here cfg σ (os ++ es) τ := by
  obtain ⟨hcalls, hgranted⟩ := h.extend es (υ := τ)
    (by rw [calls_append_wakes (fun o ho => by rw [hes o ho]; rfl) rfl])
    (by rintro (ho | ho) <;> cases hes _ ho)
  exact { h with calls := hcalls, granted := hgranted }

/-- A step of a task that lives in the parent. -/
theorem task (h : Child pid here cfg σ os τ) {id : Runtime.TaskId} {b : Task.Action T P W}
    {t u : Task.State T P W} (ht : τ.runtime.tasks id = some t)
    (ha : τ.inherits (.runtime (.task id b)) = true) (hstep : Task.step here b t = .ok u) :
    Child pid here cfg σ (os ++ taskEvents here id b t)
      { τ with runtime := τ.runtime.setTask id u } := by
  have hforeign := h.tasks id t ht
  -- The gate compares process identifiers before it does anything.
  have hkept : taskEvents here id b t = [] ∧ u.gate = t.gate ∧ u.runtime = t.runtime := by
    have hnot : ¬(Task.processMatches t.runtime here = true ∧ t.gate.phase = .live) := by
      rintro ⟨hmatch, hlive⟩
      rw [hforeign hlive] at hmatch
      cases hmatch
    cases b with
    | schedule submit =>
      exact ⟨if_neg fun hc => hnot ⟨hc.1, hc.2.1⟩, hforeign.schedule hstep⟩
    | requestAbort submit =>
      exact ⟨if_neg fun hc => hnot ⟨hc.1, hc.2.1⟩, hforeign.requestAbort hstep⟩
    | joinPoll w =>
      cases hstep
      exact ⟨rfl, rfl, rfl⟩
    | _ => cases ha
  obtain ⟨hos, hgate, hruntime⟩ := hkept
  rw [hos, List.append_nil]
  refine { h with tasks := fun k v hv => ?_ }
  simp only [Runtime.System.setTask, Function.update_apply] at hv
  split_ifs at hv with hk
  · cases hv
    intro hlive
    rw [hruntime]
    exact hforeign (hgate ▸ hlive)
  · exact h.tasks k v hv

/-- Every step of a child. -/
theorem step (h : Child pid here cfg σ os τ) (hpid : pid ≠ here)
    (hstep : childStep pid here handle cfg a τ = .ok υ) :
    Child pid here cfg σ (os ++ childEvents pid here a τ) υ := by
  unfold childStep at hstep
  split at hstep
  next ha =>
    cases a with
    | runtime b =>
      cases b with
      | task id b =>
        dsimp only at hstep
        split at hstep
        next => cases hstep
        next t ht =>
          obtain ⟨u, hu, rfl⟩ := Lts.inside_eq_ok.mp hstep
          simp only [childEvents, ht, Option.elim_some]
          exact h.task ht ha hu
      | spawn affinity native =>
        cases hstep
        refine h.refused fun o ho => ?_
        simp only [childEvents, spawnEvents, if_pos (Or.inl hpid), List.mem_singleton] at ho
        exact ho
      | _ => cases ha
    | ring b =>
      obtain ⟨ring, hring, rfl⟩ := Lts.inside_eq_ok.mp hstep
      obtain ⟨hwakes, hgranted⟩ := ring_inherited h.ring ha hring
      obtain ⟨hcalls, hgranted⟩ := h.extend _ (υ := { τ with ring := ring })
        (by rw [State.parked, ← List.append_assoc, hwakes]; rfl) hgranted
      exact
        { h with
          ring := h.ring.tail trivial hring
          running := (IoUring.move_of_step hring).running h.running
          calls := hcalls
          admitting := fun had => h.admitting (had.back h.ring h.running ha hring)
          granted := hgranted }
    | timer b =>
      obtain ⟨timer, htimer, rfl⟩ := Lts.inside_eq_ok.mp hstep
      have hb : (∀ t, b ≠ .bind t true) ∧ (∀ native choice, b ≠ .driver native choice) ∧
          ∀ submit, b ≠ .shutdownNotify submit := by
        refine ⟨?_, ?_, ?_⟩
        · rintro t rfl
          cases ha
        · rintro native choice rfl
          cases ha
        · rintro submit rfl
          cases ha
      obtain ⟨hwakes, hnone⟩ := timer_inherited hb htimer
      obtain ⟨hcalls, hgranted⟩ := h.extend _ (υ := { τ with timer := timer }) (by
        -- The wakes of the ring driver stand before those of the timer driver.
        refine List.perm_append_comm_assoc _ _ _ |>.trans ?_
        show (ringWakes τ.ring ++ (_ ++ timerWakes timer)).Perm _
        rw [hwakes]
        rfl) (absurd · hnone)
      exact { h with calls := hcalls, granted := hgranted }
    | root b =>
      obtain ⟨root, hroot, rfl⟩ := Lts.inside_eq_ok.mp hstep
      have hb : (∃ owner running inTask attach, b = .blockOn owner running inTask attach) ∨
          ∃ k submit, b = .wake k submit := by
        cases b with
        | blockOn => exact .inl ⟨_, _, _, _, rfl⟩
        | wake => exact .inr ⟨_, _, rfl⟩
        | _ => cases ha
      obtain ⟨hrefused, hparkers⟩ := root_inherited hpid h.parkers hb hroot
      exact { h.refused hrefused with parkers := hparkers }
    | shutdown | query | capability | operation =>
      cases hstep
      exact h.refused fun o ho => List.mem_singleton.mp ho
    | teardown => cases ha
  next => cases hstep

end Child

/-- Whatever a forked child does with what it has inherited, in any number of steps: the native
calls it makes are wakes of drivers that were parked when it was forked, one for each driver at
most and of the kind that the driver waits for. It touches the ring, or is granted anything, only
through an admission that was open then. -/
theorem fork_contract (hpid : pid ≠ here)
    (h : Lts.Reaches (step pid handle cfg) Lts.Always (.init cfg raw current) σ)
    (hrun : Lts.Emits (childStep pid here handle cfg) (childEvents pid here) σ.fork os τ) :
    (os.filter Event.isCall).Subperm σ.parked ∧
      (.ring ∈ os ∨ .answer true ∈ os → σ.ring.Admitting) := by
  have hchild : Child pid here cfg σ os τ :=
    hrun.invariant (R := fun os τ => Child pid here cfg σ os τ)
      (.init (.of_reaches h) hpid) fun _ _ _ _ hI hst => hI.step hpid hst
  refine ⟨?_, hchild.granted⟩
  exact (List.sublist_append_left _ _).subperm.trans hchild.calls.subperm

/-- A sleep is dropped in the child, while the timer driver waits for its deadline. -/
def orphaned : List (Action ℕ ℕ ℕ) :=
  [.runtime (.spawn (.ok ()) ⟨.ok 2, .ok (), .ok (), .ok ()⟩), .timer (.drop 0),
    .timer (.notify 0 (.ok ())), .root (.blockOn true true false (.ok 41)), .shutdown []]

/-- The wake that the parent's driver waits for comes from the child, between three refusals. -/
theorem fork_contract_orphaned :
    ∃ σ τ : State ℕ ℕ ℕ, Lts.Reaches (step 7 0 .tiny) Lts.Always (.init .tiny 5 none) σ ∧
      Lts.Emits (childStep 7 8 0 .tiny) (childEvents 7 8) σ.fork
        [.answer false, .use .timer .deadlineWake, .answer false, .answer false] τ ∧
      [Event.use .timer .deadlineWake].Subperm σ.parked := by
  have hrun : (Lts.exec (step 7 0 .tiny) Lts.Always (Timer.waiting.map .timer)
      (.init .tiny 5 none : State ℕ ℕ ℕ)).any (fun σ =>
        (Lts.collect (childStep 7 8 0 .tiny) (childEvents 7 8) orphaned [] σ.fork).any (fun p =>
          p.1 = [.answer false, .use .timer .deadlineWake, .answer false, .answer false])) =
      true := by
    decide +kernel
  obtain ⟨σ, hσ, hlater⟩ := Lts.exists_of_exec (P := fun σ => _ = true) (by simpa using hrun)
  obtain ⟨⟨os, τ⟩, hcollect, h⟩ := (Option.any_eq_true _ _).mp hlater
  obtain rfl := of_decide_eq_true h
  have hemits := Lts.emits_of_collect .refl hcollect
  exact ⟨σ, τ, hσ, hemits, (fork_contract (by decide) hσ hemits).1⟩

end Nosv.Process
