import Nosv.IoUring.Machine

/-!
# What a step can do

`Move` lists every branch an action can take, with the tests that lead to it and the state it
leads to. `move_of_step` reads each action once; every later fact about steps is a case analysis
of `Move`.

`Reachable.inv` and `Reachable.inv_of` are the induction over runs in these terms.
-/

namespace Nosv.IoUring

/-- `Move cfg σ a τ`: action `a` may take `σ` to `τ`. -/
inductive Move (cfg : PreparedRing) (σ : State) : Action → State → Prop
  | kernelPost {cqe : Cqe} {r : Ring} {e : Sqe} (hring : σ.ring = some r)
      (hfind : r.inflight.find? (fun e => e.userData == cqe.userData) = some e)
      (hmore : cqe.more = true → e.body.isRaw = true) :
      Move cfg σ (.kernelPost cqe)
        { σ with ring := some { r with
            cq := r.cq ++ [cqe]
            inflight := if cqe.more then r.inflight else r.inflight.erase e } }
  | registerSubmission (hcrit : σ.crit = none) :
      Move cfg σ .registerSubmission
        { σ with
          nextSub := σ.nextSub + 1
          subs := Function.update σ.subs σ.nextSub (.new cfg.config.maxBufferedCompletions)
          clients := Function.update σ.clients σ.nextSub ⟨.created, .idle, none⟩
          data := { σ.data with
            submissions := σ.data.submissions.filter σ.strong ++ [σ.nextSub] } }
  | openSubmission {s : SubId} (hrole : (σ.clients s).role = .created) :
      Move cfg σ (.openSubmission s)
        ((σ.setInner s
          (if !σ.running then { (σ.subs s).inner with delivery := .cancelling }
            else (σ.subs s).inner)).setClient s ⟨.submit ⟨none, 0, !σ.running⟩, .idle, none⟩)
  | pollClosed {s : SubId} {w : Waker} {fut : SubmitEntries}
      (hfut : (σ.clients s).role.fut? = some fut) (hpc : (σ.clients s).pc = .idle)
      (hcall : σ.calls (.client s) = none) (hclosed : fut.closed = true) :
      Move cfg σ (.pollSubmit s w) (σ.setClient s { σ.clients s with pc := .check w })
  | pollRefused {s : SubId} {w : Waker} {fut : SubmitEntries}
      (hfut : (σ.clients s).role.fut? = some fut) (hpc : (σ.clients s).pc = .idle)
      (hcall : σ.calls (.client s) = none) (hclosed : fut.closed = false) (hcrit : σ.crit = none)
      (haccepting : σ.data.accepting = false) :
      Move cfg σ (.pollSubmit s w)
        ((σ.setClient s { σ.clients s with pc := .check w }).setCall (.client s)
          (some (.requestCancel .close s .cancelling)))
  | pollDeferred {s : SubId} {w : Waker} {fut : SubmitEntries}
      (hfut : (σ.clients s).role.fut? = some fut) (hpc : (σ.clients s).pc = .idle)
      (hcall : σ.calls (.client s) = none) (hclosed : fut.closed = false) (hcrit : σ.crit = none)
      (haccepting : σ.data.accepting = true) (howned : σ.ownedWork = true) :
      Move cfg σ (.pollSubmit s w)
        ((σ.setClient s { σ.clients s with pc := .check w }).setCall (.client s) (some .notify))
  | pollAdmit {s : SubId} {w : Waker} {fut : SubmitEntries} {r : Ring}
      (hfut : (σ.clients s).role.fut? = some fut) (hpc : (σ.clients s).pc = .idle)
      (hcall : σ.calls (.client s) = none) (hclosed : fut.closed = false) (hcrit : σ.crit = none)
      (haccepting : σ.data.accepting = true) (howned : σ.ownedWork = false)
      (hring : σ.ring = some r) :
      Move cfg σ (.pollSubmit s w)
        { σ.setClient s { σ.clients s with pc := .admitting } with
          crit := some (.admission s w false, .cancels) }
  | submitFailed {s : SubId} {w : Waker} {fut : SubmitEntries} {kind : SubmissionErrorKind}
      (hfut : (σ.clients s).role.fut? = some fut) (hpc : (σ.clients s).pc = .check w)
      (hcall : σ.calls (.client s) = none)
      (hwhy : fut.closed = true ∨ (σ.subs s).inner.delivery ≠ .opened) :
      Move cfg σ (.checkSubmit s)
        (((σ.setClient s ⟨.cancellation, .idle, none⟩).setCall (.client s)
          (some (.requestCancel .close s .cancelling))).record s
            fun h => { h with outcome := some (.error kind) })
  | submitOk {s : SubId} {w : Waker} {fut : SubmitEntries}
      (hfut : (σ.clients s).role.fut? = some fut) (hpc : (σ.clients s).pc = .check w)
      (hcall : σ.calls (.client s) = none) (hclosed : fut.closed = false)
      (hopen : (σ.subs s).inner.delivery = .opened)
      (hfin : (σ.subs s).inner.iteratorFinished = true)
      (hacc : (σ.subs s).inner.accepted = (σ.subs s).inner.originals) :
      Move cfg σ (.checkSubmit s)
        ((σ.setClient s ⟨.stream, .idle, none⟩).record s
          fun h => { h with outcome := some (.ok ()) })
  | submitPending {s : SubId} {w : Waker} {fut : SubmitEntries}
      (hfut : (σ.clients s).role.fut? = some fut) (hpc : (σ.clients s).pc = .check w)
      (hcall : σ.calls (.client s) = none) (hclosed : fut.closed = false)
      (hopen : (σ.subs s).inner.delivery = .opened)
      (hnot : ¬ ((σ.subs s).inner.iteratorFinished = true ∧
        (σ.subs s).inner.accepted = (σ.subs s).inner.originals)) :
      Move cfg σ (.checkSubmit s)
        (((σ.setInner s { (σ.subs s).inner with admissionWaker := some w }).setClient s
          ⟨(σ.clients s).role, .idle, some ⟨.submitEntries, w, σ.woken.length⟩⟩).setCall (.client s)
            (some .notify))
  | dropSubmit {s : SubId} {fut : SubmitEntries} (hfut : (σ.clients s).role.fut? = some fut)
      (hpc : (σ.clients s).pc = .idle) (hcall : σ.calls (.client s) = none) :
      Move cfg σ (.dropSubmit s)
        ((σ.setClient s ⟨.gone, .idle, none⟩).setCall (.client s)
          (some (.requestCancel .close s .detached)))
  | nextReady {s : SubId} {w : Waker} {x : NextResult} {st : SubmissionInner}
      (hrole : (σ.clients s).role = .stream)
      (hnext : nextCompletion w (σ.subs s).inner = (.ready x, st)) :
      Move cfg σ (.pollCompletion s w)
        (((σ.setInner s st).setClient s { σ.clients s with pend := none }).record s
          fun h => { h with received := h.received ++ [x] })
  | nextPending {s : SubId} {w : Waker} {st : SubmissionInner}
      (hrole : (σ.clients s).role = .stream)
      (hnext : nextCompletion w (σ.subs s).inner = (.pending, st)) :
      Move cfg σ (.pollCompletion s w)
        ((σ.setInner s st).setClient s
          { σ.clients s with pend := some ⟨.nextCompletion, w, σ.woken.length⟩ })
  | dropFuture {s : SubId}
      (hrole : (σ.clients s).role = .stream ∨ (σ.clients s).role = .cancellation) :
      Move cfg σ (.dropFuture s) (σ.setClient s { σ.clients s with pend := none })
  | cancelStream {s : SubId} (hrole : (σ.clients s).role = .stream) :
      Move cfg σ (.cancelStream s)
        ((σ.setClient s ⟨.cancellation, .idle, none⟩).setCall (.client s)
          (some (.requestCancel .close s .cancelling)))
  | dropStream {s : SubId} (hrole : (σ.clients s).role = .stream) :
      Move cfg σ (.dropStream s)
        ((σ.setClient s ⟨.gone, .idle, none⟩).setCall (.client s)
          (some (.requestCancel .close s .detached)))
  | cancellationReady {s : SubId} {w : Waker} {x : NextResult} {st : SubmissionInner}
      (hrole : (σ.clients s).role = .cancellation) (hcall : σ.calls (.client s) = none)
      (hnext : nextCancellation w (σ.subs s).inner = (.ready x, st)) :
      Move cfg σ (.pollCancellation s w)
        (((σ.setInner s st).setClient s { σ.clients s with pend := none }).record s
          fun h => { h with cancelReceived := h.cancelReceived ++ [x] })
  | cancellationPending {s : SubId} {w : Waker} {st : SubmissionInner}
      (hrole : (σ.clients s).role = .cancellation) (hcall : σ.calls (.client s) = none)
      (hnext : nextCancellation w (σ.subs s).inner = (.pending, st)) :
      Move cfg σ (.pollCancellation s w)
        ((σ.setInner s st).setClient s
          { σ.clients s with pend := some ⟨.nextCancellation, w, σ.woken.length⟩ })
  | drainedReady {s : SubId} {w : Waker} (hrole : (σ.clients s).role = .cancellation)
      (hcall : σ.calls (.client s) = none) (hdrained : drained (σ.subs s).inner = true) :
      Move cfg σ (.pollDrained s w)
        ((σ.setInner s (σ.subs s).inner).setClient s { σ.clients s with pend := none })
  | drainedPending {s : SubId} {w : Waker} (hrole : (σ.clients s).role = .cancellation)
      (hcall : σ.calls (.client s) = none) (hdrained : drained (σ.subs s).inner = false) :
      Move cfg σ (.pollDrained s w)
        ((σ.setInner s { (σ.subs s).inner with drainWaker := some w }).setClient s
          { σ.clients s with pend := some ⟨.waitDrained, w, σ.woken.length⟩ })
  | dropCancellation {s : SubId} (hrole : (σ.clients s).role = .cancellation)
      (hcall : σ.calls (.client s) = none) :
      Move cfg σ (.dropCancellation s)
        ((σ.setInner s (detach (σ.subs s).inner)).setClient s ⟨.gone, .idle, none⟩)
  | close {a : Actor} {s : SubId} {d : Delivery}
      (hcall : σ.calls a = some (.requestCancel .close s d)) :
      Move cfg σ (.close a)
        ((σ.setInner s (closeDelivery d (σ.subs s).inner)).setCall a
          (some (.requestCancel .sweep s d)))
  | sweep {a : Actor} {s : SubId} {d : Delivery} {order : List Pointer}
      (hcall : σ.calls a = some (.requestCancel .sweep s d)) (hcrit : σ.crit = none)
      (hnodup : order.Nodup) (horder : order.toFinset = cancelTargets σ.data s) :
      Move cfg σ (.sweep a order)
        (({ σ with
            data := (cancelOriginals order s σ.data σ.subs).1
            subs := (cancelOriginals order s σ.data σ.subs).2 }.setCall a (some .notify)).record s
          fun h =>
            { h with
              generated := h.generated ++
                (order.filterMap (cancelCommand σ.data)).map CancelCommand.key })
  | sweepOwned {a : Actor} {c : ControlId} {p : Pointer}
      (hcall : σ.calls a = some (.requestOwnedCancel c)) (hcrit : σ.crit = none)
      (htarget : p ∈ σ.ownedTargets c) :
      Move cfg σ (.sweepOwned a (some p))
        ({ σ with data := cancelOwned p σ.data }.setCall a (some .notify))
  | sweepOwnedNone {a : Actor} {c : ControlId}
      (hcall : σ.calls a = some (.requestOwnedCancel c)) (hcrit : σ.crit = none)
      (htarget : σ.ownedTargets c = ∅) :
      Move cfg σ (.sweepOwned a none) (σ.setCall a (some .notify))
  | notify {a : Actor} {y : DriverGate × List NativeCall} (hcall : σ.calls a = some .notify)
      (hnotify : IoUring.notify σ.gate = .ok y) :
      Move cfg σ (.notify a)
        ({ σ with
          gate := y.1
          native := σ.native ++ y.2
          tokens := σ.tokens + y.2.count NativeCall.submit }.setCall a none)
  | stageCancellation {h : Holder} {r : Ring} {p : Pointer} {y : Bool × DriverData × Ring}
      (hcrit : σ.crit = some (h, .cancels)) (hring : σ.ring = some r) (hfresh : σ.data.Fresh p)
      (hstage : IoUring.stageCancellation p σ.data r = .ok y) :
      Move cfg σ (.stageCancellation p)
        { σ with
          data := y.2.1
          ring := some y.2.2
          crit := some (h, if y.1 then .cancels else State.afterCancels h) }
  | stageOwnedCancellation {h : Holder} {r : Ring} {p : Pointer} {y : Bool × DriverData × Ring}
      (hcrit : σ.crit = some (h, .ownedCancels)) (hring : σ.ring = some r)
      (hfresh : σ.data.Fresh p) (hstage : IoUring.stageOwnedCancellation p σ.data r = .ok y) :
      Move cfg σ (.stageOwnedCancellation p)
        { σ with
          data := y.2.1
          ring := some y.2.2
          crit := some (h, if y.1 then .ownedCancels else .owned cfg.config.entries) }
  | ownedBudget {failed : List Failed} {p : Pointer}
      (hcrit : σ.crit = some (.pass failed, .owned 0)) :
      Move cfg σ (.stageOwned p) { σ with crit := some (.pass failed, .submit) }
  | stageOwned {failed : List Failed} {budget : ℕ} {r : Ring} {p : Pointer}
      {y : Bool × OwnedStaging} (hcrit : σ.crit = some (.pass failed, .owned (budget + 1)))
      (hring : σ.ring = some r) (hfresh : σ.data.Fresh p)
      (hstage : IoUring.stageOwned cfg.supported (fun c => (σ.controls c).cancelled) p
        ⟨σ.data, σ.ownedQueue, r, failed⟩ = .ok y) :
      Move cfg σ (.stageOwned p)
        { σ with
          data := y.2.data
          ownedQueue := y.2.queue
          ring := some y.2.ring
          crit := some (.pass y.2.failed, if y.1 then .owned budget else .submit) }
  | iteratorSome {s : SubId} {w : Waker} {n : Bool} {fut : SubmitEntries} {entry : Sqe}
      (hcrit : σ.crit = some (.admission s w n, .originals))
      (hfut : (σ.clients s).role.fut? = some fut) (hpending : fut.pending = none)
      (hindex : fut.nextIndex + 1 < 2 ^ 64) :
      Move cfg σ (.iteratorNext (some entry))
        ((σ.setClient s
          { σ.clients s with
            role := .submit
              { fut with pending := some (fut.nextIndex, entry), nextIndex := fut.nextIndex + 1 }
          }).record s fun h => { h with yielded := h.yielded ++ [entry] })
  | iteratorNone {s : SubId} {w : Waker} {n : Bool} {fut : SubmitEntries}
      (hcrit : σ.crit = some (.admission s w n, .originals))
      (hfut : (σ.clients s).role.fut? = some fut) (hpending : fut.pending = none) :
      Move cfg σ (.iteratorNext none)
        { (σ.setInner s
            (takeAdmission ({ (σ.subs s).inner with iteratorFinished := true }, [])).1).wake
            (takeAdmission ({ (σ.subs s).inner with iteratorFinished := true }, [])).2 with
          crit := some (.admission s w n, .submit) }
  | iteratorPanic {s : SubId} {w : Waker} {n : Bool} {fut : SubmitEntries}
      (hcrit : σ.crit = some (.admission s w n, .originals))
      (hfut : (σ.clients s).role.fut? = some fut) (hpending : fut.pending = none) :
      Move cfg σ .iteratorPanic
        { σ.setClient s { σ.clients s with pc := .idle, pend := none } with crit := none }
  | originalFull {s : SubId} {w : Waker} {n : Bool} {fut : SubmitEntries} {item item' : ℕ × Sqe}
      {r : Ring} {p : Pointer} (hcrit : σ.crit = some (.admission s w n, .originals))
      (hfut : (σ.clients s).role.fut? = some fut) (hpending : fut.pending = some item)
      (hring : σ.ring = some r)
      (hstage : IoUring.stageOriginal s p item.1 item.2 σ.data r σ.subs = .ok (.inl item')) :
      Move cfg σ (.stageOriginal p)
        { σ.setClient s { σ.clients s with role := .submit { fut with pending := some item' } } with
          crit := some (.admission s w n, .submit) }
  | originalStaged {s : SubId} {w : Waker} {n : Bool} {fut : SubmitEntries} {item : ℕ × Sqe}
      {r : Ring} {p : Pointer} {y : DriverData × Ring × Submissions}
      (hcrit : σ.crit = some (.admission s w n, .originals))
      (hfut : (σ.clients s).role.fut? = some fut) (hpending : fut.pending = some item)
      (hring : σ.ring = some r) (hfresh : σ.data.Fresh p)
      (hstage : IoUring.stageOriginal s p item.1 item.2 σ.data r σ.subs = .ok (.inr y)) :
      Move cfg σ (.stageOriginal p)
        { (σ.setClient s
            { σ.clients s with role := .submit { fut with pending := none } }).record s
            fun h => { h with staged := h.staged ++ [item] } with
          data := y.1
          ring := some y.2.1
          subs := y.2.2
          crit := some (.admission s w true, .originals) }
  | submitAccepted {h : Holder} {r : Ring} {count : ℕ} (hcrit : σ.crit = some (h, .submit))
      (hring : σ.ring = some r) (hcount : count ≤ r.sq.length)
      (hstaged : count ≤ σ.data.staged.length) :
      Move cfg σ (.submit (.ok count)) { σ with crit := some (h, .accept count) }
  | submitRetry {h : Holder} {errno : ℕ} (hcrit : σ.crit = some (h, .submit))
      (hretry : isRetryable errno = true) :
      Move cfg σ (.submit (.error errno)) { σ with crit := some (h, .accept 0) }
  | admitEnd {s : SubId} {w : Waker} {n : Bool}
      (hcrit : σ.crit = some (.admission s w n, .accept 0)) :
      Move cfg σ .accept
        { (σ.setClient s { σ.clients s with pc := .check w }).setCall (.client s)
            (if n || ((σ.clients s).role.fut?.bind (·.pending)).isSome then some .notify
              else none) with
          crit := none }
  | passEnd {failed : List Failed} (hcrit : σ.crit = some (.pass failed, .accept 0)) :
      Move cfg σ .accept
        { σ with
          crit := some
            (.pass failed, .admissions (if σ.ownedWork then [] else σ.data.submissions)) }
  | accept {h : Holder} {count : ℕ} {r : Ring}
      {y : DriverData × Ring × Submissions × List Waker}
      (hcrit : σ.crit = some (h, .accept (count + 1))) (hring : σ.ring = some r)
      (haccept : acceptStaged σ.data r σ.subs = .ok y) :
      Move cfg σ .accept
        { σ.wake y.2.2.2 with
          data := y.1
          ring := some y.2.1
          subs := y.2.2.1
          crit := some (h, .accept count)
          history := σ.acceptHistory }
  | admissionsEnd {failed : List Failed} (hcrit : σ.crit = some (.pass failed, .admissions [])) :
      Move cfg σ .wakeAdmission { σ with crit := none, driver := .fail failed }
  | wakeAdmission {failed : List Failed} {s : SubId} {rest : List SubId}
      (hcrit : σ.crit = some (.pass failed, .admissions (s :: rest)))
      (hstrong : σ.strong s = true) :
      Move cfg σ .wakeAdmission
        { (σ.setInner s (wakeUnfinished ((σ.subs s).inner, [])).1).wake
            (wakeUnfinished ((σ.subs s).inner, [])).2 with
          crit := some (.pass failed, .admissions rest) }
  | admissionDead {failed : List Failed} {s : SubId} {rest : List SubId}
      (hcrit : σ.crit = some (.pass failed, .admissions (s :: rest)))
      (hstrong : σ.strong s = false) :
      Move cfg σ .wakeAdmission
        { (σ.setInner s (σ.subs s).inner).wake [] with
          crit := some (.pass failed, .admissions rest) }
  | enqueueRejected {opcode : ℕ} (hadmission : σ.ownedAdmission = false) :
      Move cfg σ (.enqueue opcode)
        { σ with
          nextControl := σ.nextControl + 1
          controls := Function.update σ.controls σ.nextControl ⟨false, false, none⟩
          ops := Function.update σ.ops σ.nextControl .rejected }
  | enqueue {opcode : ℕ} (hadmission : σ.ownedAdmission = true) :
      Move cfg σ (.enqueue opcode)
        (State.setCall
          { σ with
            nextControl := σ.nextControl + 1
            controls := Function.update σ.controls σ.nextControl ⟨false, false, none⟩
            ownedQueue := σ.ownedQueue ++ [⟨σ.nextControl, ⟨σ.nextControl, opcode⟩⟩]
            ops := Function.update σ.ops σ.nextControl .queued }
          (.op σ.nextControl) (some .notify))
  | ownedReady {c : ControlId} {w : Waker} (hop : σ.ops c = .queued)
      (hcall : σ.calls (.op c) = none) (hdone : (σ.controls c).completed = true) :
      Move cfg σ (.pollOwned c w) { σ with ops := Function.update σ.ops c .done }
  | ownedPending {c : ControlId} {w : Waker} (hop : σ.ops c = .queued)
      (hcall : σ.calls (.op c) = none) (hdone : (σ.controls c).completed = false) :
      Move cfg σ (.pollOwned c w)
        { σ with
          controls := Function.update σ.controls c { σ.controls c with waker := some w } }
  | dropOwned {c : ControlId} (hop : σ.ops c = .queued) (hcall : σ.calls (.op c) = none) :
      Move cfg σ (.dropOwned c)
        { σ.setCall (.op c) (some (.requestOwnedCancel c)) with
          controls := Function.update σ.controls c { σ.controls c with cancelled := true }
          ops := Function.update σ.ops c .dropped }
  | passBegin {r : Ring} (hdriver : σ.driver = .pass) (hcrit : σ.crit = none)
      (hring : σ.ring = some r) :
      Move cfg σ .passBegin { σ with driver := .staging, crit := some (.pass [], .cancels) }
  | failOwned {handler : OwnedHandler} {reason : OwnedFailure} {rest : List Failed}
      (hdriver : σ.driver = .fail ((handler, reason) :: rest)) :
      Move cfg σ .failOwned
        { σ.publishControl handler.control with
          released := σ.released ++ [(handler.control, .fail reason)]
          driver := .fail rest }
  | failEnd (hdriver : σ.driver = .fail []) : Move cfg σ .failOwned { σ with driver := .reap }
  | reap {r : Ring} (hdriver : σ.driver = .reap) (hcrit : σ.crit = none)
      (hring : σ.ring = some r) :
      Move cfg σ .reap
        { σ with
          reaped := r.cq.take cfg.config.reapSize
          ring := some { r with cq := r.cq.drop cfg.config.reapSize }
          driver := .dispatch ((r.cq.take cfg.config.reapSize).length == cfg.config.reapSize ||
            !(r.cq.drop cfg.config.reapSize).isEmpty) [] }
  | dispatchEnd {backlog : Bool} {overflow : List SubId}
      (hdriver : σ.driver = .dispatch backlog overflow) (hreaped : σ.reaped = []) :
      Move cfg σ .dispatch { σ with driver := .overflow overflow backlog }
  | dispatch {backlog : Bool} {overflow : List SubId} {cqe : Cqe} {rest : List Cqe}
      {y : Dispatched} (hdriver : σ.driver = .dispatch backlog overflow)
      (hreaped : σ.reaped = cqe :: rest) (hcrit : σ.crit = none)
      (hdispatch : IoUring.dispatch cqe σ.data σ.subs = .ok y) :
      Move cfg σ .dispatch
        { σ.wake y.wakes with
          data := y.data
          subs := y.subs
          history := σ.dispatchHistory cqe
          reaped := rest
          released := σ.released ++ y.handler.toList.map fun h => (h.control, .complete cqe.result)
          driver :=
            match y.handler with
            | some h => .publish h.control backlog (overflow ++ y.overflow.toList)
            | none => .dispatch backlog (overflow ++ y.overflow.toList) }
  | publish {c : ControlId} {backlog : Bool} {overflow : List SubId}
      (hdriver : σ.driver = .publish c backlog overflow) :
      Move cfg σ .publish { σ.publishControl c with driver := .dispatch backlog overflow }
  | cancelOverflow {s : SubId} {rest : List SubId} {backlog : Bool}
      (hcall : σ.calls .driver = none) (hdriver : σ.driver = .overflow (s :: rest) backlog) :
      Move cfg σ .cancelOverflow
        { σ.setCall .driver (some (.requestCancel .close s .overflow)) with
          driver := .overflow rest backlog }
  | overflowEnd {backlog : Bool} (hcall : σ.calls .driver = none)
      (hdriver : σ.driver = .overflow [] backlog) :
      Move cfg σ .cancelOverflow { σ with driver := .decide backlog }
  | decideStop {backlog : Bool} (hcrit : σ.crit = none) (hdriver : σ.driver = .decide backlog)
      (hdecide : IoUring.decide σ.data backlog σ.ownedQueue.isEmpty = .stop) :
      Move cfg σ .decide { σ with driver := .takeRing }
  | decide {backlog : Bool} {d : RunDecision} (hcrit : σ.crit = none)
      (hdriver : σ.driver = .decide backlog) (hne : d ≠ .stop)
      (hdecide : IoUring.decide σ.data backlog σ.ownedQueue.isEmpty = d) :
      Move cfg σ .decide { σ with driver := .park d }
  | parkNotified {d : RunDecision} (hdriver : σ.driver = .park d)
      (hnotified : σ.gate.notified = true) :
      Move cfg σ .park
        { σ with gate := { σ.gate with notified := false, phase := .running }, driver := .pass }
  | park {d : RunDecision} (hdriver : σ.driver = .park d) (hnotified : σ.gate.notified = false) :
      Move cfg σ .park
        { σ with gate := { σ.gate with phase := State.parkPhase d }, driver := .native d }
  | resume {d : RunDecision} (hdriver : σ.driver = .native d) (htoken : d = .pause → 0 < σ.tokens) :
      Move cfg σ .resume
        { σ with
          tokens := if d = .pause then σ.tokens - 1 else σ.tokens
          driver := .resumed }
  | markRunning (hdriver : σ.driver = .resumed) :
      Move cfg σ .markRunning
        { σ with gate := { σ.gate with phase := .running }, driver := .pass }
  | takeRing (hdriver : σ.driver = .takeRing) (hcrit : σ.crit = none) :
      Move cfg σ .takeRing { σ with ring := none, driver := .closeGate }
  | closeGate (hdriver : σ.driver = .closeGate) :
      Move cfg σ .closeGate
        { σ with gate := { σ.gate with phase := .terminal }, driver := .stopped }
  | retire (hdriver : σ.driver = .stopped) (hphase : σ.gate.phase = .terminal)
      (hraw : σ.gate.raw = true) :
      Move cfg σ .retire
        { σ with
          gate := { σ.gate with raw := false, phase := .destroyed }
          native := σ.native ++ [.destroy]
          driver := .retired }
  | complete (hdriver : σ.driver = .retired) :
      Move cfg σ .complete { σ with completed := true, driver := .completed }
  | beginShutdown (howner : σ.owner = .idle) :
      Move cfg σ .beginShutdown { σ with running := false }
  | shutdownAndWait (howner : σ.owner = .idle) (hrunning : σ.running = false) :
      Move cfg σ .shutdownAndWait { σ with owner := .closeAdmission }
  | closeAdmission (howner : σ.owner = .closeAdmission) :
      Move cfg σ .closeAdmission { σ with ownedAdmission := false, owner := .raiseShutdown }
  | raiseShutdown {order : List Pointer} (howner : σ.owner = .raiseShutdown)
      (hcrit : σ.crit = none) (hnodup : order.Nodup) (horder : order.toFinset = σ.ownedSnapshot) :
      Move cfg σ (.raiseShutdown order)
        { σ with
          data := { σ.data with accepting := false, shutdown := true }
          owner := .submissions (σ.data.submissions.filter σ.strong)
            (order.filterMap fun p => (σ.data.ownedContexts.lookup p).map (·.control)) }
  | cancelSubmission {s : SubId} {rest : List SubId} {owned : List ControlId}
      (hcall : σ.calls .owner = none) (howner : σ.owner = .submissions (s :: rest) owned) :
      Move cfg σ .cancelSubmission
        { σ.setCall .owner (some (.requestCancel .close s .detached)) with
          owner := .submissions rest owned }
  | submissionsEnd {owned : List ControlId} (hcall : σ.calls .owner = none)
      (howner : σ.owner = .submissions [] owned) :
      Move cfg σ .cancelSubmission { σ with owner := .owned owned }
  | cancelSnapshot {c : ControlId} {rest : List ControlId} (hcall : σ.calls .owner = none)
      (howner : σ.owner = .owned (c :: rest)) :
      Move cfg σ .cancelSnapshot
        { σ.setCall .owner (some (.requestOwnedCancel c)) with owner := .owned rest }
  | snapshotEnd (hcall : σ.calls .owner = none) (howner : σ.owner = .owned []) :
      Move cfg σ .cancelSnapshot { σ.setCall .owner (some .notify) with owner := .waiting }
  | awaitCompleted (howner : σ.owner = .waiting) (hcall : σ.calls .owner = none)
      (hcompleted : σ.completed = true) :
      Move cfg σ .awaitCompleted { σ with owner := .idle }

variable {cfg : PreparedRing} {σ τ : State}

/-! ## Reading each action -/

namespace Move

theorem of_kernelPost {cqe : Cqe} (h : σ.kernelPost cqe = .ok τ) :
    Move cfg σ (.kernelPost cqe) τ := by
  simp only [State.kernelPost, bind_eq_ok, need_eq_ok, require_eq_ok, pure_eq_ok] at h
  obtain ⟨r, hr, e, he, -, hm, rfl⟩ := h
  exact .kernelPost hr he hm

theorem of_registerSubmission (h : σ.registerSubmission cfg = .ok τ) :
    Move cfg σ .registerSubmission τ := by
  simp only [State.registerSubmission, bind_eq_ok, require_eq_ok, pure_eq_ok] at h
  obtain ⟨-, hc, rfl⟩ := h
  exact .registerSubmission hc

theorem of_openSubmission {s : SubId} (h : σ.openSubmission s = .ok τ) :
    Move cfg σ (.openSubmission s) τ := by
  simp only [State.openSubmission, bind_eq_ok, require_eq_ok, pure_eq_ok] at h
  obtain ⟨-, hr, rfl⟩ := h
  exact .openSubmission hr

theorem of_pollSubmit {s : SubId} {w : Waker} (h : σ.pollSubmit s w = .ok τ) :
    Move cfg σ (.pollSubmit s w) τ := by
  simp only [State.pollSubmit, bind_eq_ok, need_eq_ok, require_eq_ok] at h
  obtain ⟨fut, hfut, -, ⟨hpc, hcall⟩, h⟩ := h
  split at h
  next hclosed =>
    obtain rfl := pure_eq_ok.mp h
    exact .pollClosed hfut hpc hcall hclosed
  next hclosed =>
    have hclosed : fut.closed = false := by simpa using hclosed
    simp only [bind_eq_ok, require_eq_ok] at h
    obtain ⟨-, hcrit, h⟩ := h
    split at h
    next hacc =>
      obtain rfl := pure_eq_ok.mp h
      exact .pollRefused hfut hpc hcall hclosed hcrit (by simpa using hacc)
    next hacc =>
      have hacc : σ.data.accepting = true := by simpa using hacc
      split at h
      next how =>
        obtain rfl := pure_eq_ok.mp h
        exact .pollDeferred hfut hpc hcall hclosed hcrit hacc how
      next how =>
        split at h
        next => cases h
        next r hring =>
          obtain rfl := pure_eq_ok.mp h
          exact .pollAdmit hfut hpc hcall hclosed hcrit hacc (by simpa using how) hring

theorem of_checkSubmit {s : SubId} (h : σ.checkSubmit s = .ok τ) :
    Move cfg σ (.checkSubmit s) τ := by
  simp only [State.checkSubmit, bind_eq_ok, need_eq_ok] at h
  obtain ⟨fut, hfut, h⟩ := h
  split at h
  next w hpc =>
    simp only [bind_eq_ok, require_eq_ok] at h
    obtain ⟨-, hcall, h⟩ := h
    split at h
    next kind hkind =>
      obtain rfl := pure_eq_ok.mp h
      refine .submitFailed hfut hpc hcall ?_
      split_ifs at hkind with h1 h2
      · exact .inr (by simp [h1])
      · rcases h2 with h2 | h2 | h2
        · exact .inl h2
        · exact .inr (by simp [h2])
        · exact .inr (by simp [h2])
    next hkind =>
      have hopen : fut.closed = false ∧ (σ.subs s).inner.delivery = .opened := by
        split_ifs at hkind with h1 h2
        simp only [not_or] at h2
        refine ⟨by simpa using h2.1, ?_⟩
        cases hd : (σ.subs s).inner.delivery <;> simp_all
      split at h
      next hdone =>
        obtain rfl := pure_eq_ok.mp h
        exact .submitOk hfut hpc hcall hopen.1 hopen.2 hdone.1 hdone.2
      next hnot =>
        simp only [replaceWaker_eq] at h
        obtain rfl := pure_eq_ok.mp h
        exact .submitPending hfut hpc hcall hopen.1 hopen.2 hnot
  next => cases h

theorem of_dropSubmit {s : SubId} (h : σ.dropSubmit s = .ok τ) :
    Move cfg σ (.dropSubmit s) τ := by
  simp only [State.dropSubmit, bind_eq_ok, need_eq_ok, require_eq_ok, pure_eq_ok] at h
  obtain ⟨fut, hfut, -, ⟨hpc, hcall⟩, rfl⟩ := h
  exact .dropSubmit hfut hpc hcall

theorem of_pollCompletion {s : SubId} {w : Waker} (h : σ.pollCompletion s w = .ok τ) :
    Move cfg σ (.pollCompletion s w) τ := by
  simp only [State.pollCompletion, bind_eq_ok, require_eq_ok, pure_eq_ok] at h
  obtain ⟨-, hrole, rfl⟩ := h
  rcases hnext : nextCompletion w (σ.subs s).inner with ⟨x | _, st⟩
  · exact .nextReady hrole hnext
  · exact .nextPending hrole hnext

theorem of_dropFuture {s : SubId} (h : σ.dropFuture s = .ok τ) :
    Move cfg σ (.dropFuture s) τ := by
  simp only [State.dropFuture, bind_eq_ok, require_eq_ok, pure_eq_ok] at h
  obtain ⟨-, hrole, rfl⟩ := h
  exact .dropFuture hrole

theorem of_cancelStream {s : SubId} (h : σ.cancelStream s = .ok τ) :
    Move cfg σ (.cancelStream s) τ := by
  simp only [State.cancelStream, bind_eq_ok, require_eq_ok, pure_eq_ok] at h
  obtain ⟨-, hrole, rfl⟩ := h
  exact .cancelStream hrole

theorem of_dropStream {s : SubId} (h : σ.dropStream s = .ok τ) :
    Move cfg σ (.dropStream s) τ := by
  simp only [State.dropStream, bind_eq_ok, require_eq_ok, pure_eq_ok] at h
  obtain ⟨-, hrole, rfl⟩ := h
  exact .dropStream hrole

theorem of_pollCancellation {s : SubId} {w : Waker} (h : σ.pollCancellation s w = .ok τ) :
    Move cfg σ (.pollCancellation s w) τ := by
  simp only [State.pollCancellation, bind_eq_ok, require_eq_ok, pure_eq_ok] at h
  obtain ⟨-, ⟨hrole, hcall⟩, rfl⟩ := h
  rcases hnext : nextCancellation w (σ.subs s).inner with ⟨x | _, st⟩
  · exact .cancellationReady hrole hcall hnext
  · exact .cancellationPending hrole hcall hnext

theorem of_pollDrained {s : SubId} {w : Waker} (h : σ.pollDrained s w = .ok τ) :
    Move cfg σ (.pollDrained s w) τ := by
  simp only [State.pollDrained, bind_eq_ok, require_eq_ok, pure_eq_ok] at h
  obtain ⟨-, ⟨hrole, hcall⟩, rfl⟩ := h
  unfold waitDrained
  cases hd : drained (σ.subs s).inner with
  | true => exact .drainedReady hrole hcall hd
  | false =>
    simp only [Bool.false_eq_true, if_false, replaceWaker_eq]
    exact .drainedPending hrole hcall hd

theorem of_dropCancellation {s : SubId} (h : σ.dropCancellation s = .ok τ) :
    Move cfg σ (.dropCancellation s) τ := by
  simp only [State.dropCancellation, bind_eq_ok, require_eq_ok, pure_eq_ok] at h
  obtain ⟨-, ⟨hrole, hcall⟩, rfl⟩ := h
  exact .dropCancellation hrole hcall

theorem of_close {a : Actor} (h : σ.close a = .ok τ) : Move cfg σ (.close a) τ := by
  unfold State.close at h
  split at h
  next s d hcall =>
    cases h
    exact .close hcall
  next => cases h

theorem of_sweep {a : Actor} {order : List Pointer} (h : σ.sweep a order = .ok τ) :
    Move cfg σ (.sweep a order) τ := by
  unfold State.sweep at h
  split at h
  next s d hcall =>
    simp only [bind_eq_ok, require_eq_ok, pure_eq_ok] at h
    obtain ⟨-, hcrit, -, ⟨hnd, ho⟩, rfl⟩ := h
    exact .sweep hcall hcrit hnd ho
  next => cases h

theorem of_sweepOwned {a : Actor} {target : Option Pointer} (h : σ.sweepOwned a target = .ok τ) :
    Move cfg σ (.sweepOwned a target) τ := by
  unfold State.sweepOwned at h
  split at h
  next c hcall =>
    simp only [bind_eq_ok, require_eq_ok] at h
    obtain ⟨-, hcrit, h⟩ := h
    split at h
    next p =>
      simp only [bind_eq_ok, require_eq_ok, pure_eq_ok] at h
      obtain ⟨-, hp, rfl⟩ := h
      exact .sweepOwned hcall hcrit hp
    next =>
      simp only [bind_eq_ok, require_eq_ok, pure_eq_ok] at h
      obtain ⟨-, hnone, rfl⟩ := h
      exact .sweepOwnedNone hcall hcrit hnone
  next => cases h

theorem of_notify {a : Actor} (h : σ.notify a = .ok τ) : Move cfg σ (.notify a) τ := by
  unfold State.notify at h
  split at h
  next hcall =>
    simp only [bind_eq_ok, checked_eq_ok, pure_eq_ok] at h
    obtain ⟨y, hy, rfl⟩ := h
    exact .notify hcall hy
  next => cases h

theorem of_stageCancellation {p : Pointer} (h : σ.stageCancellation p = .ok τ) :
    Move cfg σ (.stageCancellation p) τ := by
  unfold State.stageCancellation at h
  split at h
  next holder hcrit =>
    simp only [bind_eq_ok, need_eq_ok, require_eq_ok, checked_eq_ok, pure_eq_ok] at h
    obtain ⟨r, hr, -, hp, y, hy, rfl⟩ := h
    exact .stageCancellation hcrit hr hp hy
  next => cases h

theorem of_stageOwnedCancellation {p : Pointer} (h : σ.stageOwnedCancellation cfg p = .ok τ) :
    Move cfg σ (.stageOwnedCancellation p) τ := by
  unfold State.stageOwnedCancellation at h
  split at h
  next holder hcrit =>
    simp only [bind_eq_ok, need_eq_ok, require_eq_ok, checked_eq_ok, pure_eq_ok] at h
    obtain ⟨r, hr, -, hp, y, hy, rfl⟩ := h
    exact .stageOwnedCancellation hcrit hr hp hy
  next => cases h

theorem of_stageOwned {p : Pointer} (h : σ.stageOwned cfg p = .ok τ) :
    Move cfg σ (.stageOwned p) τ := by
  unfold State.stageOwned at h
  split at h
  next failed budget hcrit =>
    simp only [bind_eq_ok, need_eq_ok, require_eq_ok] at h
    obtain ⟨r, hr, -, hp, h⟩ := h
    split at h
    next =>
      obtain rfl := pure_eq_ok.mp h
      exact .ownedBudget hcrit
    next budget =>
      simp only [bind_eq_ok, checked_eq_ok, pure_eq_ok] at h
      obtain ⟨y, hy, rfl⟩ := h
      exact .stageOwned hcrit hr hp hy
  next => cases h

theorem of_iteratorNext {next : Option Sqe} (h : σ.iteratorNext next = .ok τ) :
    Move cfg σ (.iteratorNext next) τ := by
  unfold State.iteratorNext at h
  split at h
  next s w n hcrit =>
    simp only [bind_eq_ok, need_eq_ok, require_eq_ok] at h
    obtain ⟨fut, hfut, -, hpending, h⟩ := h
    split at h
    next entry =>
      split at h
      next hindex =>
        obtain rfl := pure_eq_ok.mp h
        exact .iteratorSome hcrit hfut hpending hindex
      next => cases h
    next =>
      obtain rfl := pure_eq_ok.mp h
      exact .iteratorNone hcrit hfut hpending
  next => cases h

theorem of_iteratorPanic (h : σ.iteratorPanic = .ok τ) : Move cfg σ .iteratorPanic τ := by
  unfold State.iteratorPanic at h
  split at h
  next s w n hcrit =>
    simp only [bind_eq_ok, need_eq_ok, require_eq_ok, pure_eq_ok] at h
    obtain ⟨fut, hfut, -, hpending, rfl⟩ := h
    exact .iteratorPanic hcrit hfut hpending
  next => cases h

theorem of_stageOriginal {p : Pointer} (h : σ.stageOriginal p = .ok τ) :
    Move cfg σ (.stageOriginal p) τ := by
  unfold State.stageOriginal at h
  split at h
  next s w n hcrit =>
    simp only [bind_eq_ok, need_eq_ok, require_eq_ok, checked_eq_ok] at h
    obtain ⟨fut, hfut, item, hpending, r, hr, -, hp, y, hy, h⟩ := h
    split at h
    next item' =>
      obtain rfl := pure_eq_ok.mp h
      exact .originalFull hcrit hfut hpending hr hy
    next data ring subs =>
      obtain rfl := pure_eq_ok.mp h
      exact .originalStaged hcrit hfut hpending hr hp hy
  next => cases h

theorem of_submit {result : SubmitResult} (h : σ.submit result = .ok τ) :
    Move cfg σ (.submit result) τ := by
  unfold State.submit at h
  split at h
  next holder hcrit =>
    simp only [bind_eq_ok, need_eq_ok] at h
    obtain ⟨r, hr, h⟩ := h
    split at h
    next count =>
      simp only [bind_eq_ok, require_eq_ok] at h
      obtain ⟨-, hcount, h⟩ := h
      split at h
      next => cases h
      next hle =>
        obtain rfl := pure_eq_ok.mp h
        exact .submitAccepted hcrit hr hcount (by omega)
    next errno =>
      split at h
      next hretry =>
        obtain rfl := pure_eq_ok.mp h
        exact .submitRetry hcrit hretry
      next => cases h
  next => cases h

theorem of_accept (h : σ.accept = .ok τ) : Move cfg σ .accept τ := by
  unfold State.accept at h
  split at h
  next holder hcrit =>
    cases h
    cases holder with
    | admission s w n => exact .admitEnd hcrit
    | pass failed => exact .passEnd hcrit
  next holder count hcrit =>
    simp only [bind_eq_ok, need_eq_ok, checked_eq_ok, pure_eq_ok] at h
    obtain ⟨r, hr, y, hy, rfl⟩ := h
    exact .accept hcrit hr hy
  next => cases h

theorem of_wakeAdmission (h : σ.wakeAdmission = .ok τ) : Move cfg σ .wakeAdmission τ := by
  unfold State.wakeAdmission at h
  split at h
  next failed hcrit =>
    cases h
    exact .admissionsEnd hcrit
  next failed s rest hcrit =>
    cases hs : σ.strong s with
    | true =>
      simp only [hs, if_true] at h
      cases h
      exact .wakeAdmission hcrit hs
    | false =>
      simp only [hs, Bool.false_eq_true, if_false] at h
      cases h
      exact .admissionDead hcrit hs
  next => cases h

theorem of_enqueue {opcode : ℕ} (h : σ.enqueue opcode = .ok τ) :
    Move cfg σ (.enqueue opcode) τ := by
  unfold State.enqueue at h
  split at h
  next hadm =>
    cases h
    exact .enqueueRejected (by simpa using hadm)
  next hadm =>
    cases h
    exact .enqueue (by simpa using hadm)

theorem of_pollOwned {c : ControlId} {w : Waker} (h : σ.pollOwned c w = .ok τ) :
    Move cfg σ (.pollOwned c w) τ := by
  simp only [State.pollOwned, bind_eq_ok, require_eq_ok] at h
  obtain ⟨-, ⟨hop, hcall⟩, h⟩ := h
  split at h
  next hdone =>
    obtain rfl := pure_eq_ok.mp h
    exact .ownedReady hop hcall hdone
  next hdone =>
    simp only [replaceWaker_eq] at h
    obtain rfl := pure_eq_ok.mp h
    exact .ownedPending hop hcall (by simpa using hdone)

theorem of_dropOwned {c : ControlId} (h : σ.dropOwned c = .ok τ) :
    Move cfg σ (.dropOwned c) τ := by
  simp only [State.dropOwned, bind_eq_ok, require_eq_ok, pure_eq_ok] at h
  obtain ⟨-, ⟨hop, hcall⟩, rfl⟩ := h
  exact .dropOwned hop hcall

theorem of_passBegin (h : σ.passBegin = .ok τ) : Move cfg σ .passBegin τ := by
  simp only [State.passBegin, bind_eq_ok, require_eq_ok] at h
  obtain ⟨-, ⟨hdriver, hcrit⟩, h⟩ := h
  split at h
  next => cases h
  next r hring =>
    obtain rfl := pure_eq_ok.mp h
    exact .passBegin hdriver hcrit hring

theorem of_failOwned (h : σ.failOwned = .ok τ) : Move cfg σ .failOwned τ := by
  unfold State.failOwned at h
  split at h
  next handler reason rest hdriver =>
    cases h
    exact .failOwned hdriver
  next hdriver =>
    cases h
    exact .failEnd hdriver
  next => cases h

theorem of_reap (h : σ.reap cfg = .ok τ) : Move cfg σ .reap τ := by
  simp only [State.reap, bind_eq_ok, require_eq_ok] at h
  obtain ⟨-, ⟨hdriver, hcrit⟩, h⟩ := h
  split at h
  next => cases h
  next r hring =>
    obtain rfl := pure_eq_ok.mp h
    exact .reap hdriver hcrit hring

theorem of_dispatch (h : σ.dispatch = .ok τ) : Move cfg σ .dispatch τ := by
  unfold State.dispatch at h
  split at h
  next backlog overflow hdriver hreaped =>
    cases h
    exact .dispatchEnd hdriver hreaped
  next backlog overflow cqe rest hdriver hreaped =>
    simp only [bind_eq_ok, require_eq_ok, checked_eq_ok, pure_eq_ok] at h
    obtain ⟨-, hcrit, y, hy, rfl⟩ := h
    exact .dispatch hdriver hreaped hcrit hy
  next => cases h

theorem of_publish (h : σ.publish = .ok τ) : Move cfg σ .publish τ := by
  unfold State.publish at h
  split at h
  next c backlog overflow hdriver =>
    cases h
    exact .publish hdriver
  next => cases h

theorem of_cancelOverflow (h : σ.cancelOverflow = .ok τ) : Move cfg σ .cancelOverflow τ := by
  simp only [State.cancelOverflow, bind_eq_ok, require_eq_ok] at h
  obtain ⟨-, hcall, h⟩ := h
  split at h
  next s rest backlog hdriver =>
    obtain rfl := pure_eq_ok.mp h
    exact .cancelOverflow hcall hdriver
  next backlog hdriver =>
    obtain rfl := pure_eq_ok.mp h
    exact .overflowEnd hcall hdriver
  next => cases h

theorem of_decide (h : σ.decide = .ok τ) : Move cfg σ .decide τ := by
  simp only [State.decide, bind_eq_ok, require_eq_ok] at h
  obtain ⟨-, hcrit, h⟩ := h
  split at h
  next backlog hdriver =>
    split at h
    next hstop =>
      obtain rfl := pure_eq_ok.mp h
      exact .decideStop hcrit hdriver hstop
    next d hd hne =>
      obtain rfl := pure_eq_ok.mp h
      exact .decide hcrit hdriver hne rfl
  next => cases h

theorem of_park (h : σ.park = .ok τ) : Move cfg σ .park τ := by
  unfold State.park at h
  split at h
  next d hdriver =>
    split at h
    next hn =>
      cases h
      exact .parkNotified hdriver hn
    next hn =>
      cases h
      exact .park hdriver (by simpa using hn)
  next => cases h

theorem of_resume (h : σ.resume = .ok τ) : Move cfg σ .resume τ := by
  unfold State.resume at h
  split at h
  next d hdriver =>
    simp only [bind_eq_ok, require_eq_ok, pure_eq_ok] at h
    obtain ⟨-, htoken, rfl⟩ := h
    exact .resume hdriver htoken
  next => cases h

theorem of_markRunning (h : σ.markRunning = .ok τ) : Move cfg σ .markRunning τ := by
  simp only [State.markRunning, bind_eq_ok, require_eq_ok, pure_eq_ok] at h
  obtain ⟨-, hdriver, rfl⟩ := h
  exact .markRunning hdriver

theorem of_takeRing (h : σ.takeRing = .ok τ) : Move cfg σ .takeRing τ := by
  simp only [State.takeRing, bind_eq_ok, require_eq_ok, pure_eq_ok] at h
  obtain ⟨-, ⟨hdriver, hcrit⟩, rfl⟩ := h
  exact .takeRing hdriver hcrit

theorem of_closeGate (h : σ.closeGate = .ok τ) : Move cfg σ .closeGate τ := by
  simp only [State.closeGate, bind_eq_ok, require_eq_ok, pure_eq_ok] at h
  obtain ⟨-, hdriver, rfl⟩ := h
  exact .closeGate hdriver

theorem of_retire (h : σ.retire = .ok τ) : Move cfg σ .retire τ := by
  simp only [State.retire, bind_eq_ok, require_eq_ok] at h
  obtain ⟨-, hdriver, h⟩ := h
  split at h
  next => cases h
  next hphase =>
    split at h
    next => cases h
    next hraw =>
      obtain rfl := pure_eq_ok.mp h
      exact .retire hdriver (by simpa using hphase) (by simpa using hraw)

theorem of_complete (h : σ.complete = .ok τ) : Move cfg σ .complete τ := by
  simp only [State.complete, bind_eq_ok, require_eq_ok, pure_eq_ok] at h
  obtain ⟨-, hdriver, rfl⟩ := h
  exact .complete hdriver

theorem of_beginShutdown (h : σ.beginShutdown = .ok τ) : Move cfg σ .beginShutdown τ := by
  simp only [State.beginShutdown, bind_eq_ok, require_eq_ok, pure_eq_ok] at h
  obtain ⟨-, howner, rfl⟩ := h
  exact .beginShutdown howner

theorem of_shutdownAndWait (h : σ.shutdownAndWait = .ok τ) : Move cfg σ .shutdownAndWait τ := by
  simp only [State.shutdownAndWait, bind_eq_ok, require_eq_ok, pure_eq_ok] at h
  obtain ⟨-, ⟨howner, hrunning⟩, rfl⟩ := h
  exact .shutdownAndWait howner hrunning

theorem of_closeAdmission (h : σ.closeAdmission = .ok τ) : Move cfg σ .closeAdmission τ := by
  simp only [State.closeAdmission, bind_eq_ok, require_eq_ok, pure_eq_ok] at h
  obtain ⟨-, howner, rfl⟩ := h
  exact .closeAdmission howner

theorem of_raiseShutdown {order : List Pointer} (h : σ.raiseShutdown order = .ok τ) :
    Move cfg σ (.raiseShutdown order) τ := by
  simp only [State.raiseShutdown, bind_eq_ok, require_eq_ok, pure_eq_ok] at h
  obtain ⟨-, ⟨howner, hcrit⟩, -, ⟨hnd, ho⟩, rfl⟩ := h
  exact .raiseShutdown howner hcrit hnd ho

theorem of_cancelSubmission (h : σ.cancelSubmission = .ok τ) :
    Move cfg σ .cancelSubmission τ := by
  simp only [State.cancelSubmission, bind_eq_ok, require_eq_ok] at h
  obtain ⟨-, hcall, h⟩ := h
  split at h
  next s rest owned howner =>
    obtain rfl := pure_eq_ok.mp h
    exact .cancelSubmission hcall howner
  next owned howner =>
    obtain rfl := pure_eq_ok.mp h
    exact .submissionsEnd hcall howner
  next => cases h

theorem of_cancelSnapshot (h : σ.cancelSnapshot = .ok τ) : Move cfg σ .cancelSnapshot τ := by
  simp only [State.cancelSnapshot, bind_eq_ok, require_eq_ok] at h
  obtain ⟨-, hcall, h⟩ := h
  split at h
  next c rest howner =>
    obtain rfl := pure_eq_ok.mp h
    exact .cancelSnapshot hcall howner
  next howner =>
    obtain rfl := pure_eq_ok.mp h
    exact .snapshotEnd hcall howner
  next => cases h

theorem of_awaitCompleted (h : σ.awaitCompleted = .ok τ) : Move cfg σ .awaitCompleted τ := by
  simp only [State.awaitCompleted, bind_eq_ok, require_eq_ok, pure_eq_ok] at h
  obtain ⟨-, ⟨howner, hcall, hcompleted⟩, rfl⟩ := h
  exact .awaitCompleted howner hcall hcompleted

end Move

/-- Every step is one of the moves. -/
theorem move_of_step {a : Action} (h : step cfg a σ = .ok τ) : Move cfg σ a τ := by
  cases a with
  | kernelPost => exact .of_kernelPost h
  | registerSubmission => exact .of_registerSubmission h
  | openSubmission => exact .of_openSubmission h
  | pollSubmit => exact .of_pollSubmit h
  | checkSubmit => exact .of_checkSubmit h
  | dropSubmit => exact .of_dropSubmit h
  | pollCompletion => exact .of_pollCompletion h
  | dropFuture => exact .of_dropFuture h
  | cancelStream => exact .of_cancelStream h
  | dropStream => exact .of_dropStream h
  | pollCancellation => exact .of_pollCancellation h
  | pollDrained => exact .of_pollDrained h
  | dropCancellation => exact .of_dropCancellation h
  | close => exact .of_close h
  | sweep => exact .of_sweep h
  | sweepOwned => exact .of_sweepOwned h
  | notify => exact .of_notify h
  | stageCancellation => exact .of_stageCancellation h
  | stageOwnedCancellation => exact .of_stageOwnedCancellation h
  | stageOwned => exact .of_stageOwned h
  | iteratorNext => exact .of_iteratorNext h
  | iteratorPanic => exact .of_iteratorPanic h
  | stageOriginal => exact .of_stageOriginal h
  | submit => exact .of_submit h
  | accept => exact .of_accept h
  | wakeAdmission => exact .of_wakeAdmission h
  | enqueue => exact .of_enqueue h
  | pollOwned => exact .of_pollOwned h
  | dropOwned => exact .of_dropOwned h
  | passBegin => exact .of_passBegin h
  | failOwned => exact .of_failOwned h
  | reap => exact .of_reap h
  | dispatch => exact .of_dispatch h
  | publish => exact .of_publish h
  | cancelOverflow => exact .of_cancelOverflow h
  | decide => exact .of_decide h
  | park => exact .of_park h
  | resume => exact .of_resume h
  | markRunning => exact .of_markRunning h
  | takeRing => exact .of_takeRing h
  | closeGate => exact .of_closeGate h
  | retire => exact .of_retire h
  | complete => exact .of_complete h
  | beginShutdown => exact .of_beginShutdown h
  | shutdownAndWait => exact .of_shutdownAndWait h
  | closeAdmission => exact .of_closeAdmission h
  | raiseShutdown => exact .of_raiseShutdown h
  | cancelSubmission => exact .of_cancelSubmission h
  | cancelSnapshot => exact .of_cancelSnapshot h
  | awaitCompleted => exact .of_awaitCompleted h

/-! ## Invariants of runs -/

section Invariants

variable {ok : State → Action → Prop} {I J : State → Prop}

/-- What holds at the start and survives every move holds in every reachable state. -/
theorem Reachable.inv (h : Reachable cfg ok σ) (hinit : I (.init cfg))
    (hmove : ∀ {σ τ a}, I σ → ok σ a → Move cfg σ a τ → I τ) : I σ :=
  Lts.Reaches.invariant h hinit fun _ _ _ hI hok hstep => hmove hI hok (move_of_step hstep)

/-- What holds at the start and survives every move between states with `J` holds in every reachable
state. -/
theorem Reachable.inv_of (h : Reachable cfg ok σ) (hJ : ∀ {σ}, Reachable cfg ok σ → J σ)
    (hinit : I (.init cfg))
    (hmove : ∀ {σ τ a}, J σ → J τ → I σ → ok σ a → Move cfg σ a τ → I τ) : I σ :=
  Lts.Reaches.invariant_of h (fun _ => hJ) hinit fun _ _ _ hJσ hJτ hI hok hstep =>
    hmove hJσ hJτ hI hok (move_of_step hstep)

end Invariants

end Nosv.IoUring
