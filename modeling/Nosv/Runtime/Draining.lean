import Mathlib.Algebra.BigOperators.Group.Finset.Basic
import Mathlib.Algebra.Order.BigOperators.Group.Finset
import Nosv.Runtime.Spawning

/-!
# The registry drains

Once the abort of a task was accepted, or its gate closed, its callbacks take a bounded number of
steps to the end of the completed callback, whatever others do to the task in between. `Pc.left`
counts the longest way there. What the way is depends on what user code and the native calls return,
and the callbacks go on whatever that is. So when shutdown has requested its aborts, the registry
drains, and the drain loop is left.

* `Move.left_le`: no step adds to what a task has left;
* `Closing.exists_callback`: until the registry is empty a callback can go on;
* `registry_drains`: the bound, the progress and the end of the loop.
-/

namespace Nosv

variable {T P W : Type} {pid : Pid}

/-! ## One task -/

namespace Task

variable {σ τ : State T P W} {a : Action T P W}

/-- What user code and native calls return to the callbacks. Only `nosv_destroy` has no choice, a
failure of it aborts the process. -/
structure Outcomes (T P : Type) where
  /-- What a poll of the future does. -/
  polled : Polled T P
  suspended : Status
  /-- What the destructor of the future panics with. -/
  dropped : Option P
  /-- What the destructor of a value nobody wants panics with. -/
  discarded : Option P

/-- The step that the callbacks take next. -/
def Pc.next (o : Outcomes T P) : Pc T P → Action T P W
  | .idle => .enter
  | .entered => .startPoll
  | .upgrade => .upgrade
  | .unavailable => .unavailable
  | .polling => .poll o.polled
  | .polled _ => .finish
  | .suspending => .suspend o.suspended
  | .suspendFailed _ => .suspendFailed
  | .dropping _ => .dropFuture o.dropped
  | .replacing _ => .replaceTerminal
  | .discarding _ | .discarded => .discard o.discarded
  | .storing _ _ => .store
  | .unwinding _ => .forcePanic
  | .overwriting _ => .overwrite
  | .returned _ => .leave
  | .retiring => .retire (.ok ())
  | .publishing => .publish
  | .unregistering | .done => .unregister

/-- A step of the callbacks, as opposed to one of whoever holds a waker, a handle or the runtime. -/
def Action.callback : Action T P W → Bool
  | .schedule _ | .requestAbort _ | .joinPoll _ | .dropRuntime => false
  | .enter | .startPoll | .upgrade | .unavailable | .poll _ | .finish | .suspend _ | .suspendFailed
  | .dropFuture _ | .replaceTerminal | .discard _ | .store | .forcePanic | .overwrite | .leave
  | .retire _ | .publish | .unregister => true

/-- The next step is one of the callbacks. -/
@[simp]
theorem Pc.next_callback (o : Outcomes T P) (pc : Pc T P) :
    (pc.next o : Action T P W).callback = true := by
  cases pc <;> rfl

/-- How many steps are left at most when the future is dropped for a reason. -/
def Cleanup.left : Cleanup T P → ℕ
  | .cancelled | .unavailable | .failed _ | .late | .panicked _ true => 8
  | .ready _ | .panicked _ false => 9

/-- How many are left at most after a poll of an aborted task. -/
def Polled.left : Polled T P → ℕ
  | .pending | .ready _ => 9
  | .panicked _ => 10

/-- How many steps the callbacks of an aborted task have left at most. -/
def Pc.left : Pc T P → ℕ
  | .done => 0
  | .unregistering => 1
  | .publishing => 2
  | .retiring => 3
  | .returned false => 4
  -- A discarded value whose destructor panics takes two steps more before the callback returns.
  | .overwriting _ | .storing _ false => 5
  | .unwinding _ => 6
  | .discarding _ | .discarded => 7
  | .storing _ true | .replacing _ => 8
  | .dropping why => why.left
  | .polled result => result.left
  | .entered | .unavailable | .suspendFailed _ => 9
  | .idle => 10
  | .polling | .returned true => 11
  -- The abort is seen after the poll, or when the callback is entered again.
  | .upgrade | .suspending => 12

/-- Never more than twelve. -/
theorem Pc.left_le (pc : Pc T P) : pc.left ≤ 12 := by
  cases pc with
  | dropping why => cases why with
    | panicked payload wins => cases wins <;> simp [left, Cleanup.left]
    | _ => simp [left, Cleanup.left]
  | polled result => cases result <;> simp [left, Polled.left]
  | returned suspended => cases suspended <;> simp [left]
  | storing result debris => cases debris <;> simp [left]
  | _ => simp [left]

/-- Dropping the future is a step. -/
theorem Cleanup.left_next (why : Cleanup T P) (panic : Option P) :
    (why.next panic).left + 1 ≤ why.left := by
  -- A panic of the destructor decides which way it goes.
  cases why with
  | ready output => cases panic <;> simp [Cleanup.next, Cleanup.left, Pc.left]
  | panicked payload wins =>
    cases wins <;> cases panic <;> simp [Cleanup.next, Cleanup.left, Pc.left]
  | cancelled | unavailable | failed | late =>
    cases panic <;> simp [Cleanup.next, Cleanup.next.store, Cleanup.left, Pc.left]

/-- Nothing is stored before these points are left. -/
def Pc.unstored : Pc T P → Bool
  | .idle | .entered | .upgrade | .unavailable | .polling | .polled _ | .suspending
  | .suspendFailed _ | .returned true | .dropping _ | .replacing _ | .discarding _
  | .storing _ _ => true
  | .discarded | .unwinding _ | .overwriting _ | .returned false | .retiring | .publishing
  | .unregistering | .done => false

/-- What the callbacks find when they go on. -/
structure Intact (σ : State T P W) : Prop where
  /-- A live task has its future. -/
  future : σ.pc.stage = .resting ∨ σ.pc.stage = .polling → σ.future = true
  result : σ.pc.unstored = true → σ.join.result = none
  /-- An abort request has a submission in flight that will see it. -/
  wake : σ.gate.cancelRequested = true → σ.gate.phase = .live → σ.gate.wakeSubmitted = true

/-- A task that was just spawned. -/
theorem Intact.init (raw : RawTask) : Intact (State.init pid raw : State T P W) where
  future _ := rfl
  result _ := rfl
  wake h := by cases h

/-- Dropping the future stores nothing. -/
@[simp]
theorem Cleanup.next_unstored (why : Cleanup T P) (panic : Option P) :
    (why.next panic).unstored = true := by
  cases why with
  | ready output => cases panic <;> rfl
  | panicked payload wins => cases wins <;> cases panic <;> rfl
  | cancelled | unavailable | failed | late => cases panic <;> rfl

/-- A step that leaves the gate alone. -/
theorem Intact.frame (h : Intact σ) (hgate : τ.gate = σ.gate)
    (hfuture : τ.pc.stage = .resting ∨ τ.pc.stage = .polling → τ.future = true)
    (hresult : τ.pc.unstored = true → τ.join.result = none) : Intact τ where
  future := hfuture
  result := hresult
  wake := by rw [hgate]; exact h.wake

/-- A step that closes the gate, or works behind a closed one. -/
theorem Intact.close (h : Intact σ) (hunstored : σ.pc.unstored = true)
    (hstage : τ.pc.stage = .over) (hlive : τ.gate.phase ≠ .live) (hjoin : τ.join = σ.join) :
    Intact τ where
  future hs := by simp [hstage] at hs
  result _ := by rw [hjoin]; exact h.result hunstored
  wake _ hl := absurd hl hlive

/-- The invariant is kept by every step. -/
theorem Intact.move [DecidableEq W] (h : Intact σ) (hG : Gated pid σ) (hm : Move pid σ a τ) :
    Intact τ := by
  have hfuture := h.future
  have hresult := h.result
  cases hm with
  | wakeNone | abortNone => exact ⟨hfuture, hresult, h.wake⟩
  | wake | abort => exact ⟨hfuture, hresult, fun _ _ => rfl⟩
  | abortQuiet _ _ hwake => exact ⟨hfuture, hresult, fun _ _ => hwake⟩
  | joinPoll =>
    refine h.frame rfl hfuture fun hpc => ?_
    -- A poll of the handle only ever takes a result out.
    have hnone := hresult hpc
    show (JoinInner.poll _ _).1.result = none
    unfold JoinInner.poll
    split_ifs <;> first | exact hnone | rfl
  | enter hpc | suspend hpc | suspendError hpc | poll hpc =>
    rw [hpc] at hfuture hresult
    exact h.frame rfl (fun _ => hfuture (by simp [Pc.stage])) fun _ => hresult rfl
  | upgrade hpc =>
    rw [hpc] at hfuture hresult
    exact h.frame rfl (fun _ => hfuture (.inr rfl)) fun _ => hresult rfl
  | startPoll hpc _ hcancel =>
    rw [hpc] at hfuture hresult
    refine ⟨fun _ => hfuture (.inl rfl), fun _ => hresult rfl, fun hc _ => ?_⟩
    -- The submission that entered the callback is consumed, but there is no request.
    exact absurd (hcancel.symm.trans hc) (by decide)
  | finishPending hpc hcancel =>
    rw [hpc] at hfuture hresult
    refine ⟨fun _ => hfuture (.inr rfl), fun _ => hresult rfl, fun hc _ => ?_⟩
    exact absurd (hcancel.symm.trans hc) (by decide)
  | startCancelled hpc | unavailable hpc | finishCancelled hpc | finishReady hpc
  | finishPanicked hpc => exact h.close (by rw [hpc]; rfl) rfl (by simp) rfl
  | suspendFailed hpc =>
    refine h.close (by rw [hpc]; rfl) rfl ?_ rfl
    show σ.gate.suspendFailed.phase ≠ .live
    unfold NativeGate.suspendFailed
    split_ifs with hlive
    · simp
    · exact hlive
  | dropFuture hpc =>
    refine h.frame rfl (fun hs => by simp at hs) fun _ => ?_
    exact hresult (by rw [hpc]; rfl)
  | replaceTerminal hpc =>
    have hfits := hG.fits
    rw [hpc] at hfits
    obtain ⟨kind, hkind⟩ := hfits
    refine h.close (by rw [hpc]; rfl) rfl ?_ rfl
    show (σ.gate.replaceTerminal _).phase ≠ .live
    simp [NativeGate.replaceTerminal_eq hkind]
  | discard hpc =>
    exact h.frame rfl (fun hs => by simp [Pc.stage] at hs) fun _ => hresult (by rw [hpc]; rfl)
  | discardLate | unwind | overwrite | publish | unregister =>
    exact h.frame rfl (fun hs => by simp [Pc.stage] at hs) fun hs => by simp [Pc.unstored] at hs
  | @store result debris hpc =>
    refine h.frame rfl (fun hs => ?_) fun hs => ?_ <;> cases debris <;>
      simp [Pc.stage, Pc.unstored] at hs
  | forcePanic hpc =>
    have hfits := hG.fits
    rw [hpc] at hfits
    obtain ⟨kind, hkind⟩ := hfits
    refine ⟨fun hs => by simp [Pc.stage] at hs, fun hs => by simp [Pc.unstored] at hs,
      fun _ hlive => ?_⟩
    simp [NativeGate.replaceTerminal_eq hkind] at hlive
  | @leave suspended hpc =>
    rw [hpc] at hfuture hresult
    cases suspended with
    | true => exact h.frame rfl (fun _ => hfuture (.inl rfl)) fun _ => hresult rfl
    | false =>
      exact h.frame rfl (fun hs => by simp [Pc.stage] at hs) fun hs => by simp [Pc.unstored] at hs
  | retire =>
    exact ⟨fun hs => by simp [Pc.stage] at hs, fun hs => by simp [Pc.unstored] at hs,
      fun _ hlive => by simp at hlive⟩
  | dropRuntime => exact h.frame rfl hfuture hresult

/-! ### How far it has to go -/

/-- At a live task that is aborted the request is set. -/
theorem State.Aborted.requested (h : σ.Aborted) (hlive : σ.gate.phase = .live) :
    σ.gate.cancelRequested = true :=
  h.resolve_right fun hne => hne hlive

/-- A step of the callbacks of an aborted task uses up one of those that are left, and nobody else
adds to them. -/
theorem Move.left_le [DecidableEq W] (hm : Move pid σ a τ) (hG : Gated pid σ) (hab : σ.Aborted) :
    τ.pc.left + a.callback.toNat ≤ σ.pc.left := by
  have hfits := hG.fits
  cases hm with
  | wakeNone | wake | abortNone | abortQuiet | abort | joinPoll | dropRuntime => exact le_rfl
  | startPoll _ hphase hcancel =>
    exact absurd (hcancel.symm.trans (hab.requested hphase)) (by decide)
  | finishPending hpc hcancel =>
    rw [hpc] at hfits
    exact absurd (hcancel.symm.trans (hab.requested hfits.1)) (by decide)
  | finishReady hpc =>
    -- The request won over the output.
    rw [hpc] at hfits
    simp [hpc, hab.requested hfits.1, Pc.left, Cleanup.left, Polled.left, Action.callback]
  | finishPanicked hpc =>
    rw [hpc] at hfits
    simp [hpc, hab.requested hfits.1, Pc.left, Cleanup.left, Polled.left, Action.callback]
  | upgrade hpc =>
    rw [hpc]
    cases σ.runtime <;> simp [Pc.left, Action.callback]
  | @poll result hpc =>
    rw [hpc]
    cases result <;> simp [Pc.left, Polled.left, Action.callback]
  | @dropFuture panic why hpc =>
    rw [hpc]
    exact why.left_next panic
  | unwind hpc => obtain ⟨result, hpc⟩ | hpc := hpc <;> simp [hpc, Pc.left, Action.callback]
  | @store result debris hpc => cases debris <;> simp [hpc, Pc.left, Action.callback]
  | @leave suspended hpc => cases suspended <;> simp [hpc, Pc.left, Action.callback]
  | enter hpc | startCancelled hpc | unavailable hpc | finishCancelled hpc | suspend hpc
  | suspendError hpc | suspendFailed hpc | replaceTerminal hpc | discard hpc | discardLate hpc
  | forcePanic hpc | overwrite hpc | retire hpc | publish hpc | unregister hpc =>
    simp [hpc, Pc.left, Cleanup.left, Polled.left, Action.callback]

/-- The callbacks of an aborted task go on, whatever user code and the native calls return. -/
theorem Intact.exists_next [DecidableEq W] (h : Intact σ) (hG : Gated pid σ) (hab : σ.Aborted)
    (hdone : σ.pc ≠ .done) (o : Outcomes T P) : ∃ τ, step pid (σ.pc.next o) σ = .ok τ := by
  have hfits := hG.fits
  have hfuture := h.future
  have hresult := h.result
  -- A critical section of the gate that does not abort lets the step succeed.
  have hchecked : ∀ {α : Type} {x : Except TaskAbort α} {f : α → State T P W},
      (∀ e, x ≠ .error e) →
        ∃ τ, (checked x >>= fun r => (return f r : Except (Halt TaskAbort) _)) = .ok τ := by
    intro α x f hx
    cases x with
    | error e => exact absurd rfl (hx e)
    | ok r => exact ⟨f r, rfl⟩
  unfold step
  cases hpc : σ.pc with
  | idle =>
    -- The submission that will see the request is not consumed yet.
    rw [hpc] at hfits
    have hwake := h.wake (hab.requested hfits.1) hfits.1
    have hsubmits := hG.submits hfits.1
    have htokens := hG.tokens
    simp only [hpc, hwake, Pc.entry, Bool.toNat_true] at hsubmits htokens
    obtain ⟨n, hn⟩ : ∃ n, σ.tokens = n + 1 := ⟨σ.tokens - 1, by omega⟩
    simp only [Pc.next, hpc, hn]
    exact ⟨_, rfl⟩
  | entered =>
    rw [hpc] at hfits
    simp only [Pc.next, hpc]
    exact hchecked fun e => NativeGate.startPoll_ne hfits.1 hfits.2
  | unavailable =>
    rw [hpc] at hfits
    simp only [Pc.next, hpc]
    exact hchecked fun e => NativeGate.finishTerminal_ne hfits.1 hfits.2
  | polling =>
    rw [hpc] at hfuture
    simp only [Pc.next, hpc, hfuture (.inr rfl), if_true]
    exact ⟨_, rfl⟩
  | polled result =>
    rw [hpc] at hfits
    cases result with
    | pending =>
      simp only [Pc.next, hpc]
      exact hchecked fun e => NativeGate.finishPending_ne hfits.1 hfits.2
    | ready | panicked =>
      simp only [Pc.next, hpc]
      exact hchecked fun e => NativeGate.finishTerminal_ne hfits.1 hfits.2
  | suspending =>
    simp only [Pc.next, hpc]
    cases o.suspended <;> exact ⟨_, rfl⟩
  | discarding | discarded =>
    simp only [Pc.next, hpc]
    cases o.discarded <;> exact ⟨_, rfl⟩
  | storing result debris =>
    rw [hpc] at hresult
    simp only [Pc.next, hpc]
    refine hchecked fun e => ?_
    simp [JoinInner.store, hresult rfl]
  | retiring =>
    -- The descriptor is there and terminal.
    obtain ⟨raw, hraw⟩ := Option.isSome_iff_exists.mp (hG.task (by rw [hpc]; simp [Pc.stage]))
    rw [hpc] at hfits
    obtain ⟨kind, hkind⟩ := hfits
    simp only [Pc.next, hpc, NativeGate.retire, hkind, hraw]
    exact ⟨_, rfl⟩
  | done => exact absurd hpc hdone
  | upgrade | suspendFailed | dropping | replacing | unwinding | overwriting | returned | publishing
  | unregistering =>
    simp only [Pc.next, hpc]
    exact ⟨_, rfl⟩

end Task

/-! ## The runtime -/

namespace Runtime

variable {σ τ : System T P W} {a : Action T P W}

/-- A step of the callbacks of some task. -/
def Action.callback : Action T P W → Bool
  | .task _ a => a.callback
  | .taskCompleted _ => true
  | .spawn _ _ | .spawnReturn | .shutdownBegin _ | .shutdownAbort _ | .drainCheck | .drainWake
  | .teardown _ => false

/-- The step that the callbacks of a task take next. Leaving the registry is one of its own. -/
def next (o : Task.Outcomes T P) (id : TaskId) (t : Task.State T P W) : Action T P W :=
  match t.pc with
  | .unregistering => .taskCompleted id
  | pc => .task id (pc.next o)

/-- The next step of the callbacks is one of theirs. -/
@[simp]
theorem next_callback (o : Task.Outcomes T P) (id : TaskId) (t : Task.State T P W) :
    (next o id t).callback = true := by
  unfold next
  split
  · rfl
  · exact Task.Pc.next_callback o _

namespace System

/-- How many steps the callbacks of a task have left at most. -/
def left (σ : System T P W) (id : TaskId) : ℕ := (σ.tasks id).elim 0 (·.pc.left)

/-- How many those of all registered tasks have left. -/
def work (σ : System T P W) : ℕ := ∑ id ∈ σ.state.tasks, σ.left id

/-- At most twelve each. -/
theorem work_le (σ : System T P W) : σ.work ≤ 12 * σ.state.tasks.card := by
  have hle : ∀ id ∈ σ.state.tasks, σ.left id ≤ 12 := fun id _ => by
    unfold left
    cases σ.tasks id with
    | none => exact Nat.zero_le _
    | some t => exact t.pc.left_le
  calc σ.work ≤ ∑ _id ∈ σ.state.tasks, 12 := Finset.sum_le_sum hle
    _ = σ.state.tasks.card * 12 := Finset.sum_const_nat fun _ _ => rfl
    _ = 12 * σ.state.tasks.card := mul_comm _ _

end System

/-! ### Runtimes that are closing -/

variable [DecidableEq W]

/-- What a step does to a task: nothing, a step of its own, or it is spawned. -/
theorem Move.task_cases (hm : Move pid σ a τ) {id : TaskId} {u : Task.State T P W}
    (hu : τ.tasks id = some u) :
    σ.tasks id = some u ∨ (∃ t b, σ.tasks id = some t ∧ Task.Move pid t b u) ∨
      σ.state.lifecycle = .running ∧ ∃ raw, u = .init pid raw := by
  -- The step puts one task in its next state.
  have hupdate : ∀ {k : TaskId} {v : Task.State T P W},
      Function.update σ.tasks k (some v) id = some u → id = k ∧ u = v ∨ σ.tasks id = some u := by
    intro k v hv
    rw [Function.update_apply] at hv
    split_ifs at hv with hk
    · exact .inl ⟨hk, (Option.some.inj hv).symm⟩
    · exact .inr hv
  cases hm with
  | @spawned affinity native raw gate hlock hrunning =>
    rcases hupdate hu with ⟨-, rfl⟩ | hsame
    · exact .inr (.inr ⟨hrunning, raw, rfl⟩)
    · exact .inl hsame
  | @task k b t v ht henabled hm =>
    rcases hupdate hu with ⟨rfl, rfl⟩ | hsame
    · exact .inr (.inl ⟨t, b, ht, hm⟩)
    · exact .inl hsame
  | @taskCompleted k t hlock ht hpc =>
    rcases hupdate hu with ⟨rfl, rfl⟩ | hsame
    · exact .inr (.inl ⟨t, .unregister, ht, .unregister hpc⟩)
    · exact .inl hsame
  | @abort submit k rest t v hshutdown ht hm =>
    rcases hupdate hu with ⟨rfl, rfl⟩ | hsame
    · exact .inr (.inl ⟨t, .requestAbort submit, ht, hm⟩)
    · exact .inl hsame
  | spawnFailed | spawnReturn | beginClosed | beginRunning | beginClosing | abortEnd | drainEnd
  | drainSleep | drainWake | teardown => exact .inl hu

/-- The callbacks of every task find what they rely on. -/
theorem intact_of_reachable (h : Reachable pid σ) :
    ∀ id t, σ.tasks id = some t → Task.Intact t := by
  refine Lts.Reaches.invariant_of (I := fun σ => ∀ id t, σ.tasks id = some t → Task.Intact t) h
    (fun _ hr => Wf.of_reachable hr) (fun _ _ ht => by cases ht) ?_
  intro σ τ a hwf _ hintact _ hstep id u hu
  rcases (move_of_step hwf.next_not_mem hstep).task_cases hu with hsame | ⟨t, b, ht, hm⟩ |
    ⟨-, raw, rfl⟩
  · exact hintact id u hsame
  · exact (hintact id t ht).move (hwf.gated id t ht).1 hm
  · exact .init raw

/-- A runtime whose shutdown has requested its aborts. -/
structure Closing (pid : Pid) (σ : System T P W) : Prop where
  wf : Wf pid σ
  closing : σ.state.lifecycle ≠ .running
  intact : ∀ id t, σ.tasks id = some t → Task.Intact t
  aborted : ∀ id t, σ.tasks id = some t → t.Aborted

namespace Closing

/-- In the drain loop all aborts have been requested. -/
theorem of_draining (h : Reachable pid σ) {asleep : Bool}
    (hdraining : σ.shutdown = .draining asleep) : Closing pid σ := by
  have hwf := Wf.of_reachable h
  have hclosing : σ.state.lifecycle ≠ .running := fun hr => by
    have hidle := (hwf.running hr).1
    rw [hdraining] at hidle
    cases hidle
  refine ⟨hwf, hclosing, intact_of_reachable h, fun id t ht => ?_⟩
  by_cases hid : id ∈ σ.state.tasks
  · obtain ⟨t', ht', hab | ⟨rest, hrest, -⟩⟩ := hwf.covered id (hwf.snapshot hclosing hid)
    · cases ht.symm.trans ht'
      exact hab
    · rw [hdraining] at hrest
      cases hrest
  · -- A task that has left the registry is destroyed.
    have hdone : t.pc = .done := by
      by_contra hne
      exact hid ((hwf.registry id).mpr ⟨t, ht, hne⟩)
    have hfits := (hwf.gated id t ht).1.fits
    rw [hdone] at hfits
    exact .inr (by rw [show t.gate.phase = .destroyed from hfits]; decide)

/-- Every step of a sound run keeps a closing runtime as `Closing` says. -/
theorem move (h : Closing pid σ) (hm : Move pid σ a τ) (hok : Sound σ a) : Closing pid τ where
  wf := h.wf.move hm hok
  closing := (hm.closing h.closing).1
  intact id u hu := by
    rcases hm.task_cases hu with hsame | ⟨t, b, ht, hm⟩ | ⟨hrunning, -⟩
    · exact h.intact id u hsame
    · exact (h.intact id t ht).move (h.wf.gated id t ht).1 hm
    · exact absurd hrunning h.closing
  aborted id u hu := by
    rcases hm.task_cases hu with hsame | ⟨t, b, ht, hm⟩ | ⟨hrunning, -⟩
    · exact h.aborted id u hsame
    · exact (h.aborted id t ht).move hm
    · exact absurd hrunning h.closing

omit [DecidableEq W] in
/-- No spawn is under way. -/
theorem unlocked (h : Closing pid σ) : σ.locked = false := by
  rw [← Bool.not_eq_true]
  exact fun hlock => h.closing (h.wf.locked hlock)

end Closing

omit [DecidableEq W] in
/-- What a registered task has left counts. -/
theorem System.work_eq {id : TaskId} (hmem : id ∈ σ.state.tasks) :
    σ.work = σ.left id + ∑ k ∈ σ.state.tasks.erase id, σ.left k :=
  (Finset.add_sum_erase _ _ hmem).symm

omit [DecidableEq W] in
/-- The other tasks have left what they had. -/
theorem System.sum_left_congr {id : TaskId} {u : Task.State T P W}
    (htasks : τ.tasks = Function.update σ.tasks id (some u)) {s : Finset TaskId} (hs : id ∉ s) :
    ∑ k ∈ s, τ.left k = ∑ k ∈ s, σ.left k := by
  refine Finset.sum_congr rfl fun k hk => ?_
  rw [left, left, htasks, Function.update_of_ne (ne_of_mem_of_not_mem hk hs)]

namespace Closing

/-- A step of one task. -/
theorem work_task (h : Closing pid σ) {id : TaskId} {t u : Task.State T P W}
    {b : Task.Action T P W} (ht : σ.tasks id = some t) (hm : Task.Move pid t b u)
    (hregistry : τ.state.tasks = σ.state.tasks)
    (htasks : τ.tasks = Function.update σ.tasks id (some u)) :
    τ.work + b.callback.toNat ≤ σ.work := by
  have hle := hm.left_le (h.wf.gated id t ht).1 (h.aborted id t ht)
  by_cases hmem : id ∈ σ.state.tasks
  · have hτ : τ.left id = u.pc.left := by simp [System.left, htasks]
    have hσ : σ.left id = t.pc.left := by simp [System.left, ht]
    have hrest := System.sum_left_congr htasks (Finset.notMem_erase id σ.state.tasks)
    rw [System.work_eq hmem, System.work_eq (by rwa [hregistry]), hregistry, hrest, hτ, hσ]
    omega
  · -- It is at its end, so this was no step of its callbacks.
    have hdone : t.pc.left = 0 := by
      by_contra hne
      refine hmem ((h.wf.registry id).mpr ⟨t, ht, fun hdone => hne ?_⟩)
      rw [hdone]
      rfl
    have hrest := System.sum_left_congr htasks hmem
    rw [System.work, System.work, hregistry, hrest]
    omega

/-- The steps of the callbacks use up the work that is left, and nobody else adds to it. -/
theorem work_le (h : Closing pid σ) (hm : Move pid σ a τ) :
    τ.work + a.callback.toNat ≤ σ.work := by
  cases hm with
  | spawned hlock hrunning => exact absurd hrunning h.closing
  | spawnFailed hlock hfailed =>
    have hregistry := hfailed.tasks
    show ∑ id ∈ _, σ.left id ≤ σ.work
    rw [hregistry]
    exact le_rfl
  | task ht henabled hm => exact h.work_task ht hm rfl rfl
  | abort hshutdown ht hm => exact h.work_task ht hm rfl rfl
  | @taskCompleted id t hlock ht hpc =>
    -- The last step takes the task out of the registry.
    have hmem : id ∈ σ.state.tasks := (h.wf.registry id).mpr ⟨t, ht, by simp [hpc]⟩
    have hleft : σ.left id = 1 := by simp [System.left, ht, hpc, Task.Pc.left]
    rw [System.work_eq hmem, hleft, add_comm]
    exact Nat.add_le_add_left (System.sum_left_congr rfl (Finset.notMem_erase id _)).le 1
  | spawnReturn | beginClosed | beginRunning | beginClosing | abortEnd | drainEnd | drainSleep
  | drainWake | teardown => exact le_rfl

/-- The callbacks of a registered task go on. -/
theorem exists_next (h : Closing pid σ) {id : TaskId} {t : Task.State T P W}
    (ht : σ.tasks id = some t) (hdone : t.pc ≠ .done) (o : Task.Outcomes T P) :
    ∃ τ, step pid (next o id t) σ = .ok τ := by
  obtain ⟨u, hu⟩ := (h.intact id t ht).exists_next (h.wf.gated id t ht).1 (h.aborted id t ht)
    hdone o
  unfold next
  split
  next hpc =>
    -- The lock of the registry is free, for no spawn holds it.
    rw [hpc] at hu
    simp only [Task.Pc.next] at hu
    simp only [step, h.unlocked, ht, hu, lift]
    exact ⟨_, rfl⟩
  next hpc =>
    have henabled : taskEnabled (t.pc.next o : Task.Action T P W) = true := by
      cases hpc' : t.pc <;> first | rfl | exact absurd hpc' hpc | exact absurd hpc' hdone
    simp only [step, ht, henabled, if_true, hu, lift]
    exact ⟨_, rfl⟩

end Closing

/-! ### Runs -/

/-- The callbacks of the tasks go on, and the drain loop looks at the registry. -/
def Drains (_ : System T P W) (a : Action T P W) : Prop := a.callback = true ∨ a = .drainCheck

omit [DecidableEq W] in
/-- What the drain loop and the callbacks do is part of a sound run. -/
theorem Drains.sound (h : Drains σ a) : Sound σ a := by
  cases a with
  | spawn => rcases h with h | h <;> cases h
  | _ => trivial

/-- The drain loop stays in the loop while callbacks run. -/
theorem Move.draining (hm : Move pid σ a τ) (ha : a.callback = true) {asleep : Bool}
    (hdraining : σ.shutdown = .draining asleep) : ∃ asleep, τ.shutdown = .draining asleep := by
  cases hm with
  | task => exact ⟨asleep, hdraining⟩
  | taskCompleted =>
    dsimp only
    split_ifs
    · exact ⟨false, by rw [hdraining]; rfl⟩
    · exact ⟨asleep, hdraining⟩
  | spawnFailed | spawned | spawnReturn | beginClosed | beginRunning | beginClosing | abort
  | abortEnd | drainEnd | drainSleep | drainWake | teardown => cases ha

/-- In a drain loop whose registry is not empty, some callback goes on. -/
theorem Closing.exists_callback (h : Closing pid σ) {asleep : Bool}
    (hdraining : σ.shutdown = .draining asleep) (hne : σ.state.tasks ≠ ∅) :
    ∃ a τ, a.callback = true ∧ step pid a σ = .ok τ ∧
      (Closing pid τ ∧ ∃ asleep, τ.shutdown = .draining asleep) ∧ τ.work < σ.work := by
  obtain ⟨id, hid⟩ := Finset.nonempty_iff_ne_empty.mpr hne
  obtain ⟨t, ht, hdone⟩ := (h.wf.registry id).mp hid
  -- Any outcome will do.
  obtain ⟨τ, hτ⟩ := h.exists_next ht hdone ⟨.pending, .ok (), none, none⟩
  have hm := move_of_step h.wf.next_not_mem hτ
  have hwork := h.work_le hm
  rw [next_callback] at hwork
  exact ⟨_, τ, next_callback _ id t, hτ, ⟨h.move hm (Drains.sound (.inl (next_callback _ id t))),
    hm.draining (next_callback _ id t) hdraining⟩, hwork⟩

/-- Once shutdown is in its drain loop, in every run from there: the callbacks take at most twelve
steps for each registered task, whatever else happens. The callbacks of every registered task can go
on, whatever user code and the native calls return to them. Shutdown never sleeps with an empty
registry. So the callbacks, left to themselves, bring it to the end of its loop. -/
theorem registry_drains (h : Reachable pid σ) {asleep : Bool}
    (hdraining : σ.shutdown = .draining asleep) :
    (∀ as τ, Lts.Path (step pid) Sound σ as τ →
      as.countP Action.callback ≤ 12 * σ.state.tasks.card) ∧
    (∀ τ, Lts.Reaches (step pid) Sound σ τ → ∀ id ∈ τ.state.tasks, ∃ t, τ.tasks id = some t ∧
      ∀ o, ∃ υ, step pid (next o id t) τ = .ok υ) ∧
    (∀ τ, Lts.Reaches (step pid) Sound σ τ → τ.shutdown = .draining true → τ.state.tasks ≠ ∅) ∧
    ∃ τ, Lts.Reaches (step pid) Drains σ τ ∧ τ.shutdown = .drained := by
  have hC := Closing.of_draining h hdraining
  have hstep : ∀ (τ υ : System T P W) a, Closing pid τ → Sound τ a → step pid a τ = .ok υ →
      Closing pid υ ∧ υ.work + a.callback.toNat ≤ τ.work := fun τ υ a hC hok hs =>
    have hm := move_of_step hC.wf.next_not_mem hs
    ⟨hC.move hm hok, hC.work_le hm⟩
  have hreach : ∀ τ, Lts.Reaches (step pid) Sound σ τ → Closing pid τ := fun τ hτ =>
    hτ.invariant hC fun τ υ a hC hok hs => (hstep τ υ a hC hok hs).1
  refine ⟨fun as τ hpath => ?_, fun τ hτ id hid => ?_, fun τ hτ => (hreach τ hτ).wf.asleep, ?_⟩
  · have hle := (hpath.countP_add_le hC hstep).2
    have hwork := σ.work_le
    omega
  · obtain ⟨t, ht, hdone⟩ := ((hreach τ hτ).wf.registry id).mp hid
    exact ⟨t, ht, (hreach τ hτ).exists_next ht hdone⟩
  · -- The work that is left is the variant, until the registry is empty.
    have hprogress : ∀ τ : System T P W, (Closing pid τ ∧ ∃ asleep, τ.shutdown = .draining asleep) →
        ¬τ.state.tasks = ∅ → ∃ a υ, Drains τ a ∧ step pid a τ = .ok υ ∧
          (Closing pid υ ∧ ∃ asleep, υ.shutdown = .draining asleep) ∧ υ.work < τ.work := by
      rintro τ ⟨hCτ, asleep, hloop⟩ hne
      obtain ⟨a, υ, ha, hs, hυ, hlt⟩ := hCτ.exists_callback hloop hne
      exact ⟨a, υ, .inl ha, hs, hυ, hlt⟩
    obtain ⟨τ, hτ, ⟨hCτ, asleep', hloop⟩, hempty⟩ :=
      Lts.exists_of_progress ⟨hC, asleep, hdraining⟩ hprogress
    -- Nobody sleeps with an empty registry.
    cases asleep' with
    | true => exact absurd hempty (hCτ.wf.asleep hloop)
    | false =>
      refine ⟨{ τ with shutdown := .drained }, hτ.tail (.inr rfl) ?_, rfl⟩
      simp only [step, hloop, hCτ.unlocked, hempty, if_true]

/-- One task is spawned and polled; shutdown requests its abort during the poll, and sleeps. -/
def abortedPolling : List (Action ℕ ℕ ℕ) :=
  [.spawn (.ok ()) ⟨.ok 1, .ok (), .ok (), .ok ()⟩, .spawnReturn, .task 1 .enter,
    .task 1 .startPoll, .task 1 .upgrade, .shutdownBegin [1], .shutdownAbort (.ok ()),
    .shutdownAbort (.ok ()), .drainCheck]

/-- Shutdown wakes up when the task has left the registry. -/
theorem registry_drains_polling :
    ∃ σ τ : System ℕ ℕ ℕ, Reachable 7 σ ∧ σ.shutdown = .draining true ∧ 1 ∈ σ.state.tasks ∧
      Lts.Reaches (step 7) Drains σ τ ∧ τ.shutdown = .drained := by
  have hrun : (Lts.exec (step 7) Sound abortedPolling .init).any
      (fun σ : System ℕ ℕ ℕ => σ.shutdown = .draining true ∧ 1 ∈ σ.state.tasks) = true := by decide
  obtain ⟨σ, hσ, hdraining, hmem⟩ := Lts.exists_of_exec hrun
  obtain ⟨-, -, -, τ, hτ, hdrained⟩ := registry_drains hσ hdraining
  exact ⟨σ, τ, hσ, hdraining, hmem, hτ, hdrained⟩

end Runtime

end Nosv
