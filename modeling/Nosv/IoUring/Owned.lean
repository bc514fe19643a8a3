import Nosv.IoUring.Drain

/-!
# Owned operations

Where the handler of an owned operation is: the producer queue, `owned_pending`, its context, or
the list handed to `fail_owned`. `Custody` is that part of the state, `Custody.Step` what any step
of the system can do to it. Each handler is in one place until it is completed or failed, and a
dropped operation is either failed before submission or given exactly one cancellation.

* `custody_move`: every step of the system is one of `Custody.Step`;
* `Custody.Sound.of_reachable`: the balance of places and releases;
* `owned_completes_once`: each operation ends once, with the terminal CQE if its SQE was pushed.
-/

namespace Nosv.IoUring

/-- The operation was handed to the driver. -/
def OpState.accepted : OpState → Bool
  | .queued | .done | .dropped => true
  | .unborn | .rejected => false

/-- The context holds the handler of operation `c`. -/
def OwnedCqeContext.holds (c : ControlId) (k : OwnedCqeContext) : Bool :=
  k.handler.any fun h => h.control == c

/-- `enqueue`: publish the record, or hand it back once admission is closed. -/
def enqueue (admission : Bool) (operation : QueuedOwnedOp) (queue : List QueuedOwnedOp) :
    Except QueuedOwnedOp (List QueuedOwnedOp) :=
  if !admission then .error operation else .ok (queue ++ [operation])

/-- The part of the state that owned operations are about. -/
@[ext]
structure Custody where
  queue : List QueuedOwnedOp
  pending : List QueuedOwnedOp
  contexts : Finmap fun _ : Pointer => OwnedCqeContext
  /-- Discarded by a pass, and not yet failed. -/
  failing : List Failed
  released : List (ControlId × Release)
  ops : ControlId → OpState
  next : ControlId
  cancelled : ControlId → Bool
  /-- The call each operation's future is in. -/
  calls : ControlId → Option Call
  shutdown : Bool

/-- The handlers that the holder of the mutex has discarded. -/
def Holder.failed : Holder → List Failed
  | .pass failed => failed
  | .admission _ _ _ => []

/-- The handlers discarded in the critical section. -/
def critFailed (crit : Option (Holder × Stage)) : List Failed := crit.elim [] fun x => x.1.failed

@[simp]
theorem critFailed_none : critFailed none = [] := rfl

@[simp]
theorem critFailed_some (h : Holder) (stage : Stage) : critFailed (some (h, stage)) = h.failed :=
  rfl

/-- The discarded handlers that `fail_owned` holds. -/
def DriverPc.failed : DriverPc → List Failed
  | .fail failed => failed
  | _ => []

/-- Where the owned operations of a state are. -/
def State.custody (σ : State) : Custody where
  queue := σ.ownedQueue
  pending := σ.data.ownedPending
  contexts := σ.data.ownedContexts
  failing := critFailed σ.crit ++ σ.driver.failed
  released := σ.released
  ops := σ.ops
  next := σ.nextControl
  cancelled := fun c => (σ.controls c).cancelled
  calls := fun c => σ.calls (.op c)
  shutdown := σ.data.shutdown

namespace Custody

/-- In how many places the handler of operation `c` is. -/
def places (x : Custody) (c : ControlId) : ℕ :=
  x.queue.countP (fun op => op.handler.control == c) +
    x.pending.countP (fun op => op.handler.control == c) +
    (x.contexts.count fun _ k => k.holds c) + x.failing.countP (fun f => f.1.control == c)

/-- How often the handler of operation `c` was completed or failed. -/
def releases (x : Custody) (c : ControlId) : ℕ := x.released.countP fun r => r.1 == c

/-- `stage_owned` takes record `op`, from `owned_pending` first. -/
inductive Pop (x : Custody) (op : QueuedOwnedOp) : Custody → Prop
  | pending {rest : List QueuedOwnedOp} (h : x.pending = op :: rest) :
      Pop x op { x with pending := rest }
  | queue {rest : List QueuedOwnedOp} (hp : x.pending = []) (h : x.queue = op :: rest) :
      Pop x op { x with queue := rest }

/-- What a step of the system can do to the owned operations. -/
inductive Step (x : Custody) : Custody → Prop
  | stutter : Step x x
  | reject :
      Step x { x with
        next := x.next + 1
        cancelled := Function.update x.cancelled x.next false
        ops := Function.update x.ops x.next .rejected }
  | enqueue {opcode : ℕ} :
      Step x { x with
        next := x.next + 1
        cancelled := Function.update x.cancelled x.next false
        queue := x.queue ++ [⟨x.next, ⟨x.next, opcode⟩⟩]
        ops := Function.update x.ops x.next .queued
        calls := Function.update x.calls x.next (some .notify) }
  | resolve {c : ControlId} (hop : x.ops c = .queued) :
      Step x { x with ops := Function.update x.ops c .done }
  | drop {c : ControlId} (hop : x.ops c = .queued) :
      Step x { x with
        cancelled := Function.update x.cancelled c true
        ops := Function.update x.ops c .dropped
        calls := Function.update x.calls c (some (.requestOwnedCancel c)) }
  | notify {c : ControlId} (hcall : x.calls c = some .notify) :
      Step x { x with calls := Function.update x.calls c none }
  /-- `request_owned_cancel` for `c` finds the context at `p`. -/
  | ask {c : ControlId} {p : Pointer} {k : OwnedCqeContext} {calls : ControlId → Option Call}
      (hk : x.contexts.lookup p = some k) (hcancel : ownedCancellable c k = true)
      (hcalls : ∀ d, calls d = x.calls d ∨
        calls d = some .notify ∧ x.calls d = some (.requestOwnedCancel c)) :
      Step x { x with
        contexts := x.contexts.modify p fun k => { k with cancelQueued := true }
        calls := calls }
  /-- `request_owned_cancel` for `c` finds nothing. -/
  | askNone {c : ControlId} {calls : ControlId → Option Call}
      (hnone : ∀ p k, x.contexts.lookup p = some k → ownedCancellable c k = false)
      (hcalls : ∀ d, calls d = x.calls d ∨
        calls d = some .notify ∧ x.calls d = some (.requestOwnedCancel c)) :
      Step x { x with calls := calls }
  /-- `stage_owned` discards a record. -/
  | discard {op : QueuedOwnedOp} {reason : OwnedFailure} {y : Custody} (hpop : x.Pop op y) :
      Step x { y with failing := y.failing ++ [(op.handler, reason)] }
  /-- The SQ is full, and the record waits in `owned_pending`. -/
  | retain {op : QueuedOwnedOp} {y : Custody} (hpop : x.Pop op y) :
      Step x { y with pending := op :: y.pending }
  /-- `stage_owned` turns a record into an SQE. -/
  | stage {op : QueuedOwnedOp} {y : Custody} {p : Pointer} (hpop : x.Pop op y)
      (hp : x.contexts.lookup p = none) (hcancelled : x.cancelled op.control = false)
      (hopen : x.shutdown = false) :
      Step x { y with contexts := y.contexts.insert p op.boxed }
  | accept {p : Pointer} {k : OwnedCqeContext} (hk : x.contexts.lookup p = some k)
      (hphase : k.phase = .staged) :
      Step x { x with contexts := x.contexts.insert p { k with phase := .submitted } }
  /-- The terminal CQE of the context at `p` completes its handler. -/
  | complete {p : Pointer} {k : OwnedCqeContext} {handler : OwnedHandler} {result : ℤ}
      (hk : x.contexts.lookup p = some k) (hhandler : k.handler = some handler) :
      Step x { x with
        contexts :=
          if k.cancelQueued && !k.cancelSeen then
            x.contexts.insert p { k with phase := .terminal, handler := none }
          else x.contexts.erase p
        released := x.released ++ [(handler.control, .complete result)] }
  /-- The CQE of the cancellation of the context at `p`. -/
  | seen {p : Pointer} {k : OwnedCqeContext} (hk : x.contexts.lookup p = some k) :
      Step x { x with
        contexts :=
          if k.phase = .terminal then x.contexts.erase p
          else x.contexts.insert p { k with cancelSeen := true } }
  /-- Shutdown is raised. -/
  | raise : Step x { x with shutdown := true }
  | fail {handler : OwnedHandler} {reason : OwnedFailure} {rest : List Failed}
      (hfailing : x.failing = (handler, reason) :: rest) :
      Step x { x with
        failing := rest
        released := x.released ++ [(handler.control, .fail reason)] }

end Custody

variable {cfg : PreparedRing} {ok : State → Action → Prop} {σ τ : State} {a : Action}

/-- A step that leaves the owned operations alone. -/
theorem Custody.Step.frame {x y : Custody} (h : y = x) : x.Step y := h ▸ .stutter

/-- A step that reaches the state it should. -/
theorem Custody.Step.cast {x y z : Custody} (h : x.Step y) (he : z = y) : x.Step z := he ▸ h

/-- Control flags when the new control has the old flag. -/
theorem cancelled_update {controls : ControlId → OwnedControl} {c : ControlId} {k : OwnedControl}
    (h : k.cancelled = (controls c).cancelled) :
    (fun d => (Function.update controls c k d).cancelled) = fun d => (controls d).cancelled := by
  funext d
  rw [Function.update_apply]
  split_ifs with hd
  · rw [h, hd]
  · rfl

/-- Control flags after replacing one control. -/
theorem cancelled_update_apply (controls : ControlId → OwnedControl) (c : ControlId)
    (k : OwnedControl) :
    (fun d => (Function.update controls c k d).cancelled) =
      Function.update (fun d => (controls d).cancelled) c k.cancelled := by
  funext d
  rw [Function.update_apply, Function.update_apply]
  split_ifs <;> rfl

/-- The calls of operations after one of them goes on. -/
theorem opCalls_update (calls : Actor → Option Call) (c : ControlId) (x : Option Call) :
    (fun d => Function.update calls (.op c) x (.op d)) =
      Function.update (fun d => calls (.op d)) c x := by
  funext d
  rw [Function.update_apply, Function.update_apply]
  simp only [Actor.op.injEq]

/-- The calls of operations when another actor goes on. -/
theorem opCalls_update_of_ne (calls : Actor → Option Call) {b : Actor} (x : Option Call)
    (hb : ∀ c, b ≠ .op c) :
    (fun d => Function.update calls b x (.op d)) = fun d => calls (.op d) := by
  funext d
  exact Function.update_of_ne (Ne.symm (hb d)) _ _

/-- A sweep ends the call of the operation that makes it, if one does. -/
theorem opCalls_sweep {calls : Actor → Option Call} {b : Actor} {c : ControlId}
    (hcall : calls b = some (.requestOwnedCancel c)) (d : ControlId) :
    Function.update calls b (some .notify) (.op d) = calls (.op d) ∨
      Function.update calls b (some .notify) (.op d) = some .notify ∧
        calls (.op d) = some (.requestOwnedCancel c) := by
  by_cases hb : b = .op d
  · subst hb
    exact .inr ⟨Function.update_self .., hcall⟩
  · exact .inl (Function.update_of_ne (Ne.symm hb) _ _)

/-- Every move is a step of the owned operations. -/
theorem custody_move (hst : Staging σ) (hT : Threads σ) (hm : Move cfg σ a τ) :
    σ.custody.Step τ.custody := by
  -- A step that ends a `request_cancel` is of no owned operation.
  have hraw : ∀ {b st s d}, σ.calls b = some (.requestCancel st s d) → ∀ c, b ≠ .op c := by
    rintro b st s d hb c rfl
    have := hT.op c
    rw [hb] at this
    cases this
  -- A step that changes neither queues nor contexts, and calls of no operation.
  have hframe : ∀ {υ : State}, υ.ownedQueue = σ.ownedQueue →
      υ.data.shutdown = σ.data.shutdown →
      υ.data.ownedPending = σ.data.ownedPending →
      υ.data.ownedContexts = σ.data.ownedContexts →
      critFailed υ.crit ++ υ.driver.failed = critFailed σ.crit ++ σ.driver.failed →
      υ.released = σ.released → υ.ops = σ.ops → υ.nextControl = σ.nextControl →
      (fun c => (υ.controls c).cancelled) = (fun c => (σ.controls c).cancelled) →
      (fun c => υ.calls (.op c)) = (fun c => σ.calls (.op c)) →
      σ.custody.Step υ.custody := by
    intro υ h1 h2 h3 h4 h5 h6 h7 h8 h9 h10
    refine .frame ?_
    simp only [State.custody, h1, h2, h3, h4, h5, h6, h7, h8, h9, h10]
  cases hm
  case close b t d hcall =>
    exact hframe rfl rfl rfl rfl rfl rfl rfl rfl rfl (opCalls_update_of_ne _ _ (hraw hcall))
  case sweep b t d order hcall _ _ _ =>
    exact hframe rfl rfl rfl rfl rfl rfl rfl rfl rfl (opCalls_update_of_ne _ _ (hraw hcall))
  case sweepOwned b c p hcall hcrit ht =>
    simp only [State.ownedTargets, Finset.mem_filter, Option.any_eq_true] at ht
    obtain ⟨-, k, hk, hcancel⟩ := ht
    exact .ask hk hcancel (opCalls_sweep hcall)
  case sweepOwnedNone b c hcall hcrit ht =>
    refine .askNone (fun p k hk => ?_) (opCalls_sweep hcall)
    by_contra hcancel
    have hp : p ∈ σ.ownedTargets c := by
      simp only [State.ownedTargets, Finset.mem_filter, Finmap.mem_keys]
      refine ⟨Finmap.mem_of_lookup_eq_some hk, ?_⟩
      rw [show σ.data.ownedContexts.lookup p = some k from hk]
      simpa using hcancel
    rw [ht] at hp
    cases hp
  case notify b y hcall hnotify =>
    by_cases hb : ∃ c, b = .op c
    · obtain ⟨c, rfl⟩ := hb
      refine (Custody.Step.notify (x := σ.custody) hcall).cast ?_
      simp only [State.custody, State.setCall, opCalls_update]
    · exact hframe rfl rfl rfl rfl rfl rfl rfl rfl rfl
        (opCalls_update_of_ne _ _ fun c hc => hb ⟨c, hc⟩)
  case enqueueRejected =>
    refine .cast .reject ?_
    simp only [State.custody, cancelled_update_apply]
  case enqueue opcode _ =>
    refine (@Custody.Step.enqueue σ.custody opcode).cast ?_
    simp only [State.custody, State.setCall, cancelled_update_apply, opCalls_update]
  case ownedReady c _ hop _ _ => exact .resolve hop
  case ownedPending c _ _ _ _ =>
    exact hframe rfl rfl rfl rfl rfl rfl rfl rfl (cancelled_update rfl) rfl
  case dropOwned c hop _ =>
    refine (Custody.Step.drop (x := σ.custody) hop).cast ?_
    simp only [State.custody, State.setCall, cancelled_update_apply, opCalls_update]
  case stageCancellation hy =>
    rcases stageCancellation_cases hy with rfl | ⟨_, _, _, _, rfl⟩ <;>
      exact hframe rfl rfl rfl rfl (by simp [*]) rfl rfl rfl rfl rfl
  case stageOwnedCancellation hy =>
    rcases stageOwnedCancellation_cases hy with rfl | ⟨_, _, _, _, rfl⟩ <;>
      exact hframe rfl rfl rfl rfl (by simp [*]) rfl rfl rfl rfl rfl
  case stageOwned failed budget r p y hcrit hring hfresh hy =>
    -- While a pass holds the mutex its failures are with the mutex, not with the driver.
    have hdriver : σ.driver.failed = [] := by
      rw [hst.mpr ⟨_, _, hcrit⟩]
      rfl
    have hpop : ∀ {op x}, popOwned ⟨σ.data, σ.ownedQueue, r, failed⟩ = some (op, x) →
        σ.custody.Pop op
          { σ.custody with queue := x.queue, pending := x.data.ownedPending } ∧
        x.data.ownedContexts = σ.data.ownedContexts ∧
        x.data.shutdown = σ.data.shutdown ∧ x.failed = failed := by
      intro op x hx
      rcases popOwned_cases hx with ⟨rest, hp, rfl⟩ | ⟨rest, hp, hq, rfl⟩
      · exact ⟨.pending hp, rfl, rfl, rfl⟩
      · exact ⟨.queue hp hq, rfl, rfl, rfl⟩
    rcases stageOwned_cases hy with ⟨-, rfl⟩ | ⟨op, x, hx, hy⟩
    · exact hframe rfl rfl rfl rfl (by simp [hcrit]) rfl rfl rfl rfl rfl
    obtain ⟨hpop, hcontexts, hshutdown, hfailed⟩ := hpop hx
    rcases hy with ⟨reason, rfl⟩ | rfl | ⟨⟨hopen, hcancelled⟩, -, rfl⟩
    · refine (@Custody.Step.discard _ op reason _ hpop).cast ?_
      simp only [State.custody, hcontexts, hshutdown, hfailed, hcrit, hdriver, critFailed_some,
        Holder.failed, List.append_nil]
    · refine (Custody.Step.retain hpop).cast ?_
      simp only [State.custody, hcontexts, hshutdown, hfailed, hcrit, hdriver, critFailed_some,
        Holder.failed]
    · refine (Custody.Step.stage hpop hfresh.lookup.2.1 hcancelled
        (hshutdown.symm.trans hopen)).cast ?_
      simp only [State.custody, hcontexts, hshutdown, hfailed, hcrit, hdriver, critFailed_some,
        Holder.failed]
  case originalStaged hcrit _ _ _ _ hy =>
    obtain ⟨-, rfl⟩ := stageOriginal_staged hy
    exact hframe rfl rfl rfl rfl (by rw [hcrit]; rfl) rfl rfl rfl rfl rfl
  case accept hcrit _ hy =>
    rcases acceptStaged_cases hy with ⟨_, _, _, _, _, _, rfl⟩ | ⟨p, _, k, _, hk, hphase, rfl⟩ |
      ⟨_, _, _, _, _, _, rfl⟩
    · exact hframe rfl rfl rfl rfl (by rw [hcrit]; rfl) rfl rfl rfl rfl rfl
    · refine (Custody.Step.accept (x := σ.custody) hk hphase).cast ?_
      simp only [State.custody, hcrit, critFailed_some]
      rfl
    · exact hframe rfl rfl rfl rfl (by rw [hcrit]; rfl) rfl rfl rfl rfl rfl
  case admissionsEnd failed hcrit =>
    have hdriver : σ.driver = .staging := hst.mpr ⟨_, _, hcrit⟩
    -- The failures change hands here.
    refine hframe rfl rfl rfl rfl ?_ rfl rfl rfl rfl rfl
    rw [hcrit, hdriver]
    exact (List.append_nil failed).symm
  case failOwned handler reason rest hdriver =>
    -- The handler that fails is the head of the only list there is.
    have hcrit : critFailed σ.crit = [] := by
      rcases hc : σ.crit with _ | ⟨_ | failed, stage⟩
      · rfl
      · rfl
      · have := hst.mpr ⟨_, _, hc⟩
        rw [hdriver] at this
        cases this
    have hstep :=
      @Custody.Step.fail σ.custody handler reason rest (by rw [State.custody, hcrit, hdriver]; rfl)
    refine hstep.cast ?_
    simp only [State.custody, State.publishControl, State.wake, hcrit, DriverPc.failed,
      List.nil_append, cancelled_update]
  case dispatch cqe _ _ hdriver hreaped hcrit hy =>
    rcases dispatch_cases hy with ⟨c, -, -, -, rfl⟩ | ⟨c, _, _, -, -, -, -, -, -, rfl⟩ |
      ⟨k, handler, -, hk, -, hhandler, -, rfl⟩ | ⟨x, k, -, -, -, -, hk, -, rfl⟩
    · refine hframe rfl ?_ ?_ ?_ (by rw [hdriver]; rfl) (List.append_nil _) rfl rfl rfl rfl
      · split_ifs <;> rfl
      · split_ifs <;> rfl
      · split_ifs <;> rfl
    · exact hframe rfl rfl rfl rfl (by rw [hdriver]; rfl) (List.append_nil _) rfl rfl rfl rfl
    · refine (@Custody.Step.complete σ.custody _ k handler cqe.result hk hhandler).cast ?_
      simp only [State.custody, hdriver]
      rfl
    · refine (Custody.Step.seen (x := σ.custody) hk).cast ?_
      simp only [State.custody, hdriver, Option.toList_none, List.map_nil, List.append_nil]
      rfl
  case publish hdriver =>
    exact hframe rfl rfl rfl rfl (by rw [hdriver]; rfl) rfl rfl rfl (cancelled_update rfl) rfl
  case ownedBudget hcrit | iteratorNone hcrit _ _ | iteratorPanic hcrit _ _
    | originalFull hcrit _ _ _ _ | submitAccepted hcrit _ _ _ | submitRetry hcrit _
    | passEnd hcrit | wakeAdmission hcrit _ | admissionDead hcrit _ | pollAdmit hcrit _ _ _
    | admitEnd hcrit =>
    exact hframe rfl rfl rfl rfl (by rw [hcrit]; rfl) rfl rfl rfl rfl rfl
  case passBegin hdriver hcrit _ =>
    exact hframe rfl rfl rfl rfl (by rw [hcrit, hdriver]; rfl) rfl rfl rfl rfl rfl
  case failEnd hd | reap hd _ _ | dispatchEnd hd _ | cancelOverflow hd | decideStop hd _ |
      decide hd _ _ | parkNotified hd _ | park hd _ | resume hd _ | markRunning hd | takeRing hd _ |
      closeGate hd | retire hd _ _ | complete hd | overflowEnd hd =>
    exact hframe rfl rfl rfl rfl (by rw [hd]; rfl) rfl rfl rfl rfl rfl
  case raiseShutdown => exact .raise
  all_goals exact hframe rfl rfl rfl rfl rfl rfl rfl rfl rfl rfl

namespace Custody

variable {x y : Custody} {op : QueuedOwnedOp} {c : ControlId}

/-! ## One place, or one release -/

/-- Every handler handed to the driver is in one place or was released once, and no other handler is
anywhere. -/
structure Sound (x : Custody) : Prop where
  balance : ∀ c, x.places c + x.releases c = if (x.ops c).accepted then 1 else 0
  fresh : ∀ c, x.next ≤ c → x.ops c = .unborn
  queue : ∀ op ∈ x.queue, op.control = op.handler.control
  pending : ∀ op ∈ x.pending, op.control = op.handler.control
  context : ∀ p k h, x.contexts.lookup p = some k → k.handler = some h → k.control = h.control

/-- A context holds its handler until its CQE. -/
def Handled (x : Custody) : Prop :=
  ∀ p k, x.contexts.lookup p = some k → (k.handler.isSome = true ↔ k.phase ≠ .terminal)

/-- Taking a record changes the two queues only. -/
theorem Pop.keeps (h : x.Pop op y) :
    y.contexts = x.contexts ∧ y.failing = x.failing ∧ y.released = x.released ∧
      y.ops = x.ops ∧ y.next = x.next ∧ y.cancelled = x.cancelled ∧ y.calls = x.calls ∧
      y.shutdown = x.shutdown := by
  cases h <;> exact ⟨rfl, rfl, rfl, rfl, rfl, rfl, rfl, rfl⟩

/-- What is queued after taking a record was queued before. -/
theorem Pop.subset (h : x.Pop op y) :
    (∀ o ∈ y.queue, o ∈ x.queue) ∧ (∀ o ∈ y.pending, o ∈ x.pending) := by
  cases h with
  | pending h => exact ⟨fun _ ho => ho, fun o ho => by rw [h]; exact List.mem_cons_of_mem _ ho⟩
  | queue _ h => exact ⟨fun o ho => by rw [h]; exact List.mem_cons_of_mem _ ho, fun _ ho => ho⟩

/-- The record taken was queued. -/
theorem Pop.mem (h : x.Pop op y) : op ∈ x.queue ∨ op ∈ x.pending := by
  cases h with
  | pending h => exact .inr (by rw [h]; exact List.mem_cons_self)
  | queue _ h => exact .inl (by rw [h]; exact List.mem_cons_self)

/-- Taking a record takes its handler out of one place. -/
theorem Pop.places (h : x.Pop op y) (c : ControlId) :
    y.places c + (if op.handler.control == c then 1 else 0) = x.places c := by
  cases h with
  | pending h =>
    simp only [Custody.places, h, List.countP_cons]
    omega
  | queue _ h =>
    simp only [Custody.places, h, List.countP_cons]
    omega

/-- A record that was queued names the operation of its handler. -/
theorem Sound.pop (h : x.Sound) (hpop : x.Pop op y) : op.control = op.handler.control :=
  hpop.mem.elim (h.queue op) (h.pending op)

/-- What the contexts count after the terminal CQE of one of them. -/
theorem count_complete {p : Pointer} {k : OwnedCqeContext} {handler : OwnedHandler}
    (hk : x.contexts.lookup p = some k) (hhandler : k.handler = some handler) (c : ControlId) :
    (Finmap.count (fun _ k => k.holds c)
        (if k.cancelQueued && !k.cancelSeen then
          x.contexts.insert p { k with phase := .terminal, handler := none }
        else x.contexts.erase p)) + (if handler.control == c then 1 else 0) =
      x.contexts.count fun _ k => k.holds c := by
  have hholds : k.holds c = (handler.control == c) := by simp [OwnedCqeContext.holds, hhandler]
  rw [← hholds]
  split_ifs with h1 h2 h2
  · have := Finmap.count_insert_of_lookup (P := fun _ k => OwnedCqeContext.holds c k)
      (w := { k with phase := .terminal, handler := none }) hk
    rw [if_pos h2] at this
    simpa [OwnedCqeContext.holds] using this
  · have := Finmap.count_insert_of_lookup (P := fun _ k => OwnedCqeContext.holds c k)
      (w := { k with phase := .terminal, handler := none }) hk
    rw [if_neg h2] at this
    simpa [OwnedCqeContext.holds] using this
  · have := Finmap.count_erase_of_lookup (P := fun _ k => OwnedCqeContext.holds c k) hk
    rwa [if_pos h2] at this
  · have := Finmap.count_erase_of_lookup (P := fun _ k => OwnedCqeContext.holds c k) hk
    rwa [if_neg h2] at this

/-- Overwriting a context by one with the same handler moves no handler. -/
theorem count_insert {p : Pointer} {k : OwnedCqeContext} (k' : OwnedCqeContext)
    (hk : x.contexts.lookup p = some k) (hhandler : k'.handler = k.handler) (c : ControlId) :
    ((x.contexts.insert p k').count fun _ k => k.holds c) =
      x.contexts.count fun _ k => k.holds c := by
  have hholds : k'.holds c = k.holds c := by rw [OwnedCqeContext.holds, hhandler]; rfl
  have := Finmap.count_insert_of_lookup (P := fun _ k => OwnedCqeContext.holds c k) (w := k') hk
  rw [hholds] at this
  omega

/-- A step keeps each handler in one place, or releases it. -/
theorem Sound.step_balance (h : x.Sound) (hH : x.Handled) (hs : x.Step y) (c : ControlId) :
    y.places c + y.releases c = if (y.ops c).accepted then 1 else 0 := by
  have hb := h.balance c
  have hops : ∀ d o, (x.ops d).accepted = o.accepted →
      (Function.update x.ops d o c).accepted = (x.ops c).accepted := by
    intro d o ho
    rw [Function.update_apply]
    split_ifs with hc
    · rw [hc, ho]
    · rfl
  cases hs with
  | stutter | raise => exact hb
  | reject =>
    change x.places c + x.releases c =
      if (Function.update x.ops x.next .rejected c).accepted then 1 else 0
    rw [hops _ _ (by rw [h.fresh _ le_rfl]; rfl), hb]
  | @enqueue opcode =>
    -- The new handler is in the queue, and in no other place.
    have hqueue : List.countP (fun op : QueuedOwnedOp => op.handler.control == c)
        (x.queue ++ [⟨x.next, ⟨x.next, opcode⟩⟩]) =
        x.queue.countP (fun op => op.handler.control == c) + if x.next == c then 1 else 0 := by
      rw [List.countP_append, List.countP_singleton]
    simp only [places, releases, hqueue] at hb ⊢
    by_cases hc : c = x.next
    · subst hc
      rw [h.fresh _ le_rfl] at hb
      simp only [OpState.accepted, Bool.false_eq_true, if_false] at hb
      simp only [BEq.rfl, if_true, Function.update_self, OpState.accepted]
      omega
    · have hne : (x.next == c) = false := by simpa using Ne.symm hc
      simp only [hne, Bool.false_eq_true, if_false, Function.update_of_ne hc, ← hb]
      omega
  | @resolve d hop =>
    change x.places c + x.releases c = if (Function.update x.ops d .done c).accepted then 1 else 0
    rw [hops _ _ (by rw [hop]; rfl), hb]
  | @drop d hop =>
    change x.places c + x.releases c =
      if (Function.update x.ops d .dropped c).accepted then 1 else 0
    rw [hops _ _ (by rw [hop]; rfl), hb]
  | notify => exact hb
  | @ask d p k calls hk hcancel hcalls =>
    have hcount : (x.contexts.modify p fun k => { k with cancelQueued := true }).count
        (fun _ k => k.holds c) = x.contexts.count fun _ k => k.holds c :=
      Finmap.count_modify_of_forall_eq fun _ => rfl
    rw [← hb]
    simp only [places, releases, hcount]
  | askNone => exact hb
  -- Out of a queue and onto the list of failures.
  | @discard op reason y hpop =>
    obtain ⟨hcontexts, hfailing, hreleased, hops, -⟩ := hpop.keeps
    have hplaces := hpop.places c
    rw [hops, ← hb, ← hplaces]
    simp only [places, releases, hreleased, List.countP_append, List.countP_singleton]
    omega
  | @retain op y hpop =>
    obtain ⟨hcontexts, hfailing, hreleased, hops, -⟩ := hpop.keeps
    have hplaces := hpop.places c
    rw [hops, ← hb, ← hplaces]
    simp only [places, releases, hreleased, List.countP_cons]
    omega
  | @stage op y p hpop hp =>
    obtain ⟨hcontexts, hfailing, hreleased, hops, -⟩ := hpop.keeps
    have hplaces := hpop.places c
    rw [hops, ← hb, ← hplaces]
    simp only [places, releases, hreleased]
    have hcount : ((y.contexts.insert p op.boxed).count fun _ k => k.holds c) =
        (y.contexts.count fun _ k => k.holds c) + if op.handler.control == c then 1 else 0 :=
      Finmap.count_insert_of_lookup_none (hcontexts ▸ hp)
    rw [hcount]
    omega
  | @accept p k hk hphase =>
    have hcount : ((x.contexts.insert p { k with phase := .submitted }).count
        fun _ k => k.holds c) = x.contexts.count fun _ k => k.holds c :=
      count_insert { k with phase := .submitted } hk rfl c
    rw [← hb]
    simp only [places, releases, hcount]
  | @complete p k handler result hk hhandler =>
    have hcount := count_complete hk hhandler c
    rw [← hb]
    simp only [places, releases, List.countP_append, List.countP_singleton]
    omega
  | @seen p k hk =>
    rw [← hb]
    simp only [places, releases]
    split_ifs with hphase
    · -- A terminal context has given its handler away.
      have hnone : k.handler = none := by
        by_contra hne
        exact (hH p k hk).mp (Option.isSome_iff_ne_none.mpr hne) hphase
      have := Finmap.count_erase_of_lookup (P := fun _ k => OwnedCqeContext.holds c k) hk
      simp only [OwnedCqeContext.holds, hnone, Option.any_none, Bool.false_eq_true,
        if_false] at this
      simp only [OwnedCqeContext.holds]
      omega
    · have hcount : ((x.contexts.insert p { k with cancelSeen := true }).count
          fun _ k => k.holds c) = x.contexts.count fun _ k => k.holds c :=
        count_insert { k with cancelSeen := true } hk rfl c
      rw [hcount]
  | @fail handler reason rest hfailing =>
    rw [← hb]
    simp only [places, releases, hfailing, List.countP_append, List.countP_cons, List.countP_nil]
    omega

/-- What a step can do to a context that it leaves in the registry. -/
theorem Step.context_cases (hs : x.Step y) {p : Pointer} {k : OwnedCqeContext}
    (hk : y.contexts.lookup p = some k) :
    (∃ k', x.contexts.lookup p = some k' ∧ k.control = k'.control ∧
      (k.handler = k'.handler ∨ k.handler = none) ∧
      (k'.cancelQueued = true → k.cancelQueued = true)) ∨
    x.shutdown = false ∧ ∃ op z, x.Pop op z ∧ x.cancelled op.control = false ∧ y.ops = x.ops ∧
      k = op.boxed := by
  -- A context that the step leaves alone.
  have hsame : ∀ {k' : OwnedCqeContext}, x.contexts.lookup p = some k' → k = k' →
      ∃ k', x.contexts.lookup p = some k' ∧ k.control = k'.control ∧
        (k.handler = k'.handler ∨ k.handler = none) ∧
        (k'.cancelQueued = true → k.cancelQueued = true) := by
    rintro k' hk' rfl
    exact ⟨k, hk', rfl, .inl rfl, id⟩
  cases hs with
  | ask hp hcancel hcalls =>
    rw [Finmap.lookup_modify] at hk
    split_ifs at hk with hpq
    · obtain ⟨k', hk', rfl⟩ := Option.map_eq_some_iff.mp hk
      exact .inl ⟨k', hpq ▸ hk', rfl, .inl rfl, fun _ => rfl⟩
    · exact .inl (hsame hk rfl)
  | discard hpop | retain hpop =>
    simp only [hpop.keeps.1] at hk
    exact .inl (hsame hk rfl)
  -- Only a push makes a context, and then shutdown was not raised.
  | @stage op z q hpop hq hcancelled hopen =>
    simp only [hpop.keeps.1, Finmap.lookup_insert_eq_ite] at hk
    split_ifs at hk with hpq
    · exact .inr ⟨hopen, op, z, hpop, hcancelled, hpop.keeps.2.2.2.1, (Option.some.inj hk).symm⟩
    · exact .inl (hsame hk rfl)
  | @accept q k' hk' =>
    rw [Finmap.lookup_insert_eq_ite] at hk
    split_ifs at hk with hpq
    · cases hk
      exact .inl ⟨k', hpq ▸ hk', rfl, .inl rfl, id⟩
    · exact .inl (hsame hk rfl)
  -- The result takes the handler out; without an open cancellation the context goes too.
  | @complete q k' handler result hk' =>
    dsimp only at hk
    split_ifs at hk with hopen
    · rw [Finmap.lookup_insert_eq_ite] at hk
      split_ifs at hk with hpq
      · cases hk
        exact .inl ⟨k', hpq ▸ hk', rfl, .inr rfl, id⟩
      · exact .inl (hsame hk rfl)
    · rw [Finmap.lookup_erase_eq_ite] at hk
      split_ifs at hk with hpq
      exact .inl (hsame hk rfl)
  -- The answer to the cancellation; the context goes when its own CQE was there before.
  | @seen q k' hk' =>
    dsimp only at hk
    split_ifs at hk with hterminal
    · rw [Finmap.lookup_erase_eq_ite] at hk
      split_ifs at hk with hpq
      exact .inl (hsame hk rfl)
    · rw [Finmap.lookup_insert_eq_ite] at hk
      split_ifs at hk with hpq
      · cases hk
        exact .inl ⟨k', hpq ▸ hk', rfl, .inl rfl, id⟩
      · exact .inl (hsame hk rfl)
  | _ => exact .inl (hsame hk rfl)

/-- A record queued after a step was queued before, or is new. -/
theorem Step.queued_cases (hs : x.Step y) {op : QueuedOwnedOp}
    (hop : op ∈ y.queue ∨ op ∈ y.pending) :
    op ∈ x.queue ∨ op ∈ x.pending ∨ op.control = x.next ∧ op.handler.control = x.next := by
  cases hs with
  | enqueue =>
    rcases hop with hop | hop
    · rcases List.mem_append.mp hop with hop | hop
      · exact .inl hop
      · obtain rfl := List.mem_singleton.mp hop
        exact .inr (.inr ⟨rfl, rfl⟩)
    · exact .inr (.inl hop)
  | discard hpop | stage hpop =>
    rcases hop with hop | hop
    · exact .inl (hpop.subset.1 op hop)
    · exact .inr (.inl (hpop.subset.2 op hop))
  | retain hpop =>
    rcases hop with hop | hop
    · exact .inl (hpop.subset.1 op hop)
    · rcases List.mem_cons.mp hop with rfl | hop
      · exact hpop.mem.imp id .inl
      · exact .inr (.inl (hpop.subset.2 op hop))
  | _ => exact hop.imp id .inl

/-- A step changes the state of one operation, as its future does. -/
theorem Step.ops_cases (hs : x.Step y) (c : ControlId) :
    x.next ≤ y.next ∧ (y.ops c = x.ops c ∨ c = x.next ∧ y.next = x.next + 1 ∨
      x.ops c = .queued) := by
  have hupdate : ∀ d o, c ≠ d → Function.update x.ops d o c = x.ops c :=
    fun d o hc => Function.update_of_ne hc _ _
  cases hs with
  | reject | enqueue =>
    refine ⟨Nat.le_succ _, ?_⟩
    by_cases hc : c = x.next
    · exact .inr (.inl ⟨hc, rfl⟩)
    · exact .inl (hupdate _ _ hc)
  | @resolve d hop | @drop d hop =>
    refine ⟨le_rfl, ?_⟩
    by_cases hc : c = d
    · exact .inr (.inr (hc ▸ hop))
    · exact .inl (hupdate _ _ hc)
  | discard hpop | retain hpop | stage hpop =>
    obtain ⟨-, -, -, hops, hnext, -⟩ := hpop.keeps
    exact ⟨Nat.le_of_eq hnext.symm, .inl (congrFun hops c)⟩
  | _ => exact ⟨le_rfl, .inl rfl⟩

/-- A step keeps the handlers accounted for. -/
theorem Sound.step (h : x.Sound) (hH : x.Handled) (hs : x.Step y) : y.Sound where
  balance := h.step_balance hH hs
  fresh := by
    intro c hc
    obtain ⟨hnext, hops⟩ := hs.ops_cases c
    have hfresh := h.fresh c (hnext.trans hc)
    rcases hops with hops | ⟨rfl, hsucc⟩ | hqueued
    · rw [hops, hfresh]
    · rw [hsucc] at hc
      exact absurd hc (Nat.not_succ_le_self _)
    · rw [hfresh] at hqueued
      cases hqueued
  queue := by
    intro op hop
    rcases hs.queued_cases (.inl hop) with hop | hop | ⟨h1, h2⟩
    · exact h.queue op hop
    · exact h.pending op hop
    · rw [h1, h2]
  pending := by
    intro op hop
    rcases hs.queued_cases (.inr hop) with hop | hop | ⟨h1, h2⟩
    · exact h.queue op hop
    · exact h.pending op hop
    · rw [h1, h2]
  context := by
    intro p k handler hk hhandler
    -- A context with a handler was there before, or has just been made from the queue.
    rcases hs.context_cases hk with ⟨k', hk', hcontrol, hsame | hnone, -⟩ |
      ⟨-, op, z, hpop, -, -, rfl⟩
    · rw [hcontrol]
      exact h.context p k' handler hk' (hsame ▸ hhandler)
    · rw [hnone] at hhandler
      cases hhandler
    · cases hhandler
      exact h.pop hpop

end Custody

/-- Contexts hold their handlers in every reachable state. -/
theorem Custody.Handled.of_reachable (h : Reachable cfg ok σ) : σ.custody.Handled :=
  (Registry.Paired.of_reachable h).handler

/-- A step of the system, as a step of the owned operations. -/
theorem Reachable.custody_step (h : Reachable cfg ok σ) (hm : Move cfg σ a τ) :
    σ.custody.Step τ.custody :=
  custody_move (.of_reachable h) (.of_reachable h) hm

/-- Every handler is accounted for in every reachable state. -/
theorem Custody.Sound.of_reachable (h : Reachable cfg ok σ) : σ.custody.Sound := by
  refine h.inv_of (I := fun σ => σ.custody.Sound) (J := fun σ => Reachable cfg ok σ)
    (fun hr => hr) ?_ fun hσ _ hI _ hm => hI.step (.of_reachable hσ) (hσ.custody_step hm)
  refine ⟨fun c => rfl, fun c _ => rfl, fun op hop => ?_, fun op hop => ?_, fun p k hd hk => ?_⟩
  · cases hop
  · cases hop
  · cases hk

/-! ## Completion -/

/-- A context keeps its handler until the terminal CQE of its SQE completes it. -/
theorem Move.owned_context (hm : Move cfg σ a τ) (hH : σ.custody.Handled) {p : Pointer}
    {k : OwnedCqeContext} {handler : OwnedHandler} (hk : σ.data.ownedContexts.lookup p = some k)
    (hhandler : k.handler = some handler) :
    (∃ k', τ.data.ownedContexts.lookup p = some k' ∧ k'.handler = some handler) ∨
      a = .dispatch ∧ k.phase = .submitted ∧ ∃ cqe rest, σ.reaped = cqe :: rest ∧
        cqe.userData = p ∧ cqe.more = false ∧
        τ.released = σ.released ++ [(handler.control, .complete cqe.result)] := by
  -- What happens at another address leaves this context alone.
  have hother : ∀ {q k'}, q ≠ p →
      (σ.data.ownedContexts.insert q k').lookup p = some k := fun hne => by
    rw [Finmap.lookup_insert_of_ne _ (Ne.symm hne), hk]
  cases hm
  case sweepOwned b c q hcall hcrit ht =>
    refine .inl ?_
    have hlookup : (cancelOwned q σ.data).ownedContexts.lookup p =
        if p = q then (σ.data.ownedContexts.lookup q).map fun k => { k with cancelQueued := true }
        else σ.data.ownedContexts.lookup p := Finmap.lookup_modify
    by_cases hpq : p = q
    · subst hpq
      rw [if_pos rfl, hk] at hlookup
      exact ⟨_, hlookup, hhandler⟩
    · rw [if_neg hpq] at hlookup
      exact ⟨k, hlookup.trans hk, hhandler⟩
  case stageCancellation hy =>
    rcases stageCancellation_cases hy with rfl | ⟨_, _, _, _, rfl⟩ <;>
      exact .inl ⟨k, hk, hhandler⟩
  case stageOwnedCancellation hy =>
    rcases stageOwnedCancellation_cases hy with rfl | ⟨_, _, _, _, rfl⟩ <;>
      exact .inl ⟨k, hk, hhandler⟩
  case stageOwned failed budget r q y hcrit hring hfresh hy =>
    have hpop : ∀ {op x}, popOwned ⟨σ.data, σ.ownedQueue, r, failed⟩ = some (op, x) →
        x.data.ownedContexts = σ.data.ownedContexts := by
      intro op x hx
      rcases popOwned_cases hx with ⟨_, _, rfl⟩ | ⟨_, _, _, rfl⟩ <;> rfl
    refine .inl ⟨k, ?_, hhandler⟩
    rcases stageOwned_cases hy with ⟨-, rfl⟩ | ⟨op, x, hx, ⟨_, rfl⟩ | rfl | ⟨-, -, rfl⟩⟩
    · exact hk
    · exact (congrArg _ (hpop hx)).trans hk
    · exact (congrArg _ (hpop hx)).trans hk
    · -- The new context lives at a fresh address.
      have hne : q ≠ p := by
        rintro rfl
        rw [hfresh.lookup.2.1] at hk
        cases hk
      simp only [hpop hx]
      exact hother hne
  case originalStaged hy =>
    obtain ⟨-, rfl⟩ := stageOriginal_staged hy
    exact .inl ⟨k, hk, hhandler⟩
  case accept hy =>
    rcases acceptStaged_cases hy with ⟨_, _, _, _, _, _, rfl⟩ | ⟨q, _, k', _, hk', _, rfl⟩ |
      ⟨_, _, _, _, _, _, rfl⟩
    · exact .inl ⟨k, hk, hhandler⟩
    · by_cases hqp : q = p
      · subst hqp
        rw [hk] at hk'
        obtain rfl := Option.some.inj hk'
        exact .inl ⟨_, Finmap.lookup_insert _, hhandler⟩
      · exact .inl ⟨k, hother hqp, hhandler⟩
    · exact .inl ⟨k, hk, hhandler⟩
  case dispatch cqe rest y hdriver hreaped hcrit hy =>
    rcases dispatch_cases hy with ⟨c, -, -, -, rfl⟩ | ⟨c, _, _, -, -, -, -, -, -, rfl⟩ |
      -- Of the four kinds of CQE only the operation's own takes the handler out.
      ⟨k', handler', -, hk', hphase, hhandler', hmore, rfl⟩ | ⟨x, o, -, -, -, -, ho, -, rfl⟩
    · refine .inl ⟨k, ?_, hhandler⟩
      dsimp only
      split_ifs <;> exact hk
    · exact .inl ⟨k, hk, hhandler⟩
    · by_cases hp : p = cqe.userData
      · subst hp
        rw [hk] at hk'
        obtain rfl := Option.some.inj hk'
        rw [hhandler] at hhandler'
        obtain rfl := Option.some.inj hhandler'
        exact .inr ⟨rfl, hphase, cqe, _, hreaped, rfl, hmore, rfl⟩
      · refine .inl ⟨k, ?_, hhandler⟩
        change (retireOwned cqe.userData k' σ.data).ownedContexts.lookup p = some k
        rw [retireOwned_lookup, if_neg hp, hk]
    · have hlive : k.phase ≠ .terminal := (hH p k hk).mp (by rw [hhandler]; rfl)
      refine .inl ?_
      have hlookup := retireOwnedCancellation_lookup cqe.userData x.target p o σ.data
      by_cases hp : p = x.target
      · subst hp
        rw [hk] at ho
        obtain rfl := Option.some.inj ho
        rw [if_pos rfl, if_neg hlive] at hlookup
        exact ⟨_, hlookup, hhandler⟩
      · rw [if_neg hp, hk] at hlookup
        exact ⟨k, hlookup, hhandler⟩
  all_goals exact .inl ⟨k, hk, hhandler⟩

/-- A driver that has decided to stop holds no handler. -/
theorem Custody.places_of_stopping (hS : Stopping σ) (hstop : σ.driver.stopping = true)
    (c : ControlId) : σ.custody.places c = 0 := by
  obtain ⟨-, hidle, hqueue, hcrit⟩ := hS.idle hstop
  have hfailed : σ.driver.failed = [] := by
    cases hd : σ.driver with
    | fail =>
      rw [hd] at hstop
      cases hstop
    | _ => rfl
  simp only [Custody.places, State.custody, hqueue, hidle.ownedPending, hidle.ownedContexts, hcrit,
    hfailed]
  rfl

/-- What became of an operation that `enqueue` refused does not change. -/
theorem Reachable.rejected (h : Reachable cfg ok σ) {c : ControlId} (hc : σ.ops c = .rejected)
    (hτ : Lts.Reaches (step cfg) ok σ τ) : τ.ops c = .rejected := by
  have hall : Reachable cfg ok τ ∧ τ.ops c = .rejected := by
    refine Lts.Reaches.invariant (I := fun τ => Reachable cfg ok τ ∧ τ.ops c = .rejected) hτ
      ⟨h, hc⟩ ?_
    rintro τ υ a ⟨hreach, hops⟩ hok hstep
    refine ⟨hreach.tail hok hstep, ?_⟩
    rcases ((hreach.custody_step (move_of_step hstep)).ops_cases c).2 with hsame | ⟨rfl, -⟩ | hq
    · exact hsame.trans hops
    · have := (Custody.Sound.of_reachable hreach).fresh _ le_rfl
      rw [show τ.custody.ops τ.custody.next = _ from hops] at this
      cases this
    · rw [show τ.custody.ops c = _ from hops] at hq
      cases hq
  exact hall.2

/-- What is true of the owned operations in one state, and of the steps from it. -/
structure State.OwnsOnce (cfg : PreparedRing) (ok : State → Action → Prop) (σ : State) : Prop where
  /-- The handler of an accepted operation is in one place, or was completed or failed once. -/
  accepted : ∀ c, (σ.ops c).accepted = true → σ.custody.places c + σ.custody.releases c = 1
  /-- The driver never gets any other handler. -/
  refused : ∀ c, (σ.ops c).accepted = false →
    σ.custody.places c = 0 ∧ σ.custody.releases c = 0
  /-- A context that holds a handler waits for its SQE. -/
  held : ∀ p k, σ.data.ownedContexts.lookup p = some k → k.handler.isSome = true →
    k.phase = .staged ∨ k.phase = .submitted
  /-- It keeps the handler until the terminal CQE of that SQE completes it. -/
  pushed : ∀ a τ, step cfg a σ = .ok τ → ∀ p k handler,
    σ.data.ownedContexts.lookup p = some k → k.handler = some handler →
    (∃ k', τ.data.ownedContexts.lookup p = some k' ∧ k'.handler = some handler) ∨
      a = .dispatch ∧ k.phase = .submitted ∧ ∃ cqe rest, σ.reaped = cqe :: rest ∧
        cqe.userData = p ∧ cqe.more = false ∧
        τ.released = σ.released ++ [(handler.control, .complete cqe.result)]
  /-- When the driver stops, every accepted operation was completed or failed. -/
  stopped : σ.driver.stopping = true → ∀ c, (σ.ops c).accepted = true →
    σ.custody.releases c = 1
  /-- What `enqueue` takes is queued. -/
  taken : ∀ opcode τ queue, step cfg (.enqueue opcode) σ = .ok τ →
    IoUring.enqueue σ.ownedAdmission ⟨σ.nextControl, ⟨σ.nextControl, opcode⟩⟩ σ.ownedQueue =
        .ok queue →
    τ.ownedQueue = queue ∧ τ.ops σ.nextControl = .queued
  /-- What `enqueue` hands back is what it was given, and never reaches the driver. -/
  back : ∀ opcode τ operation, step cfg (.enqueue opcode) σ = .ok τ →
    IoUring.enqueue σ.ownedAdmission ⟨σ.nextControl, ⟨σ.nextControl, opcode⟩⟩ σ.ownedQueue =
      .error operation →
    operation = ⟨σ.nextControl, ⟨σ.nextControl, opcode⟩⟩ ∧ τ.data = σ.data ∧
      τ.ownedQueue = σ.ownedQueue ∧ ∀ υ, ok σ (.enqueue opcode) →
        Lts.Reaches (step cfg) ok τ υ →
          υ.custody.places σ.nextControl = 0 ∧ υ.custody.releases σ.nextControl = 0

/-- No handler is anywhere before its operation is accepted. -/
theorem Custody.Sound.refused {x : Custody} (h : x.Sound) {c : ControlId}
    (hc : (x.ops c).accepted = false) : x.places c = 0 ∧ x.releases c = 0 := by
  have := h.balance c
  rw [hc, if_neg Bool.false_ne_true] at this
  exact Nat.add_eq_zero_iff.mp this

/-- Every owned operation is completed or failed once, and its resources are kept until then, in
every interleaving. -/
theorem owned_completes_once (h : Reachable cfg ok σ) : σ.OwnsOnce cfg ok where
  -- Each clause reads one fact off the balance of places, or off the step itself.
  accepted := by
    intro c hc
    have := (Custody.Sound.of_reachable h).balance c
    rwa [show (σ.custody.ops c).accepted = true from hc, if_pos rfl] at this
  refused := fun c hc => (Custody.Sound.of_reachable h).refused hc
  held := by
    intro p k hk hhandler
    have hlive := (Custody.Handled.of_reachable h p k hk).mp hhandler
    cases hp : k.phase with
    | staged => exact .inl rfl
    | submitted => exact .inr rfl
    | terminal => exact absurd hp hlive
  pushed := fun a τ hstep p k handler hk hhandler =>
    (move_of_step hstep).owned_context (.of_reachable h) hk hhandler
  stopped := by
    intro hstop c hc
    have := (Custody.Sound.of_reachable h).balance c
    -- Once the driver has decided to stop there are no places left but the release.
    rw [Custody.places_of_stopping (.of_reachable h) hstop,
      show (σ.custody.ops c).accepted = true from hc, if_pos rfl] at this
    omega
  taken := by
    intro opcode τ queue hstep henqueue
    cases hadm : σ.ownedAdmission with
    | false =>
      rw [hadm] at henqueue
      cases henqueue
    | true =>
      rw [hadm] at henqueue
      cases move_of_step hstep with
      | enqueueRejected hclosed =>
        rw [hadm] at hclosed
        cases hclosed
      | enqueue => exact ⟨Except.ok.inj henqueue, Function.update_self ..⟩
  back := by
    intro opcode τ operation hstep henqueue
    cases hadm : σ.ownedAdmission with
    | true =>
      rw [hadm] at henqueue
      cases henqueue
    | false =>
      rw [hadm] at henqueue
      cases move_of_step hstep with
      | enqueue hopen =>
        rw [hadm] at hopen
        cases hopen
      | enqueueRejected =>
        refine ⟨(Except.error.inj henqueue).symm, rfl, rfl, fun υ hok hυ => ?_⟩
        have hτ := h.tail hok hstep
        have hrejected := Reachable.rejected hτ (Function.update_self ..) hυ
        refine (Custody.Sound.of_reachable (hτ.trans hυ)).refused ?_
        rw [show υ.custody.ops σ.nextControl = _ from hrejected]
        rfl

/-- An owned operation is queued, staged, and accepted by the kernel. -/
def stagedOperation : List Action :=
  [.enqueue 7, .notify (.op 0), .passBegin, .stageCancellation 10, .stageOwnedCancellation 10,
    .stageOwned 10, .stageOwned 20, .submit (.ok 1), .accept, .accept, .wakeAdmission, .failOwned]

/-- The CQE of a staged operation completes it, once. -/
theorem owned_completes_once_tiny :
    ∃ σ, Reachable .tiny Lts.Always σ ∧ σ.released = [(0, .complete 5)] ∧
      σ.OwnsOnce .tiny Lts.Always := by
  have hrun : (Lts.exec (step .tiny) Lts.Always
      (stagedOperation ++ [.kernelPost ⟨10, 5, 0⟩, .reap, .dispatch]) (.init .tiny)).any
      (fun σ => σ.released = [(0, .complete 5)]) = true := by decide
  obtain ⟨σ, hσ, hreleased⟩ := Lts.exists_of_exec hrun
  exact ⟨σ, hσ, hreleased, owned_completes_once hσ⟩

end Nosv.IoUring
