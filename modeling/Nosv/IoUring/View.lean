import Nosv.IoUring.Accounts

/-!
# What one submission sees

The part of the state one submission is about: what its mutex protects, its caller, its history,
and the few facts about the other threads its fate depends on. `View.Step` lists what any step of
the system can do to it; whatever is to be proved about a single submission is proved by cases on
it.

`Reachable.view_step` and `Reachable.view_inv` are the rules for these cases.
-/

namespace Nosv.IoUring

/-- The part of the state that concerns one submission. -/
@[ext]
structure View where
  inner : SubmissionInner
  limit : ℕ
  client : Client
  /-- The call its caller is in. -/
  call : Option Call
  history : History
  woken : List Waker
  /-- The call the owner thread is in. -/
  owner : Option Call
  /-- Whether `admit` for the submission holds the `data` mutex. -/
  admits : Bool
  /-- Whether the driver decided to stop. -/
  stopping : Bool

/-- What submission `s` sees. -/
def State.view (σ : State) (s : SubId) : View where
  inner := (σ.subs s).inner
  limit := (σ.subs s).limit
  client := σ.clients s
  call := σ.calls (.client s)
  history := σ.history s
  woken := σ.woken
  owner := σ.calls .owner
  admits := σ.admits s
  stopping := σ.driver.stopping

namespace View

/-- What a step of the system can do to the view of submission `s`. -/
inductive Step (s : SubId) (x : View) : Action → View → Prop
  /-- A step that does not concern the submission. -/
  | other {a : Action} {y : View} (hinner : y.inner = x.inner) (hlimit : y.limit = x.limit)
      (hclient : y.client = x.client) (hcall : y.call = x.call) (hhistory : y.history = x.history)
      (hwoken : ∃ ws, y.woken = x.woken ++ ws) (hadmits : y.admits = x.admits)
      (hstopping : y.stopping = x.stopping) : Step s x a y
  /-- The driver decides to stop. -/
  | stop : Step s x .decide { x with stopping := true }
  | register (hrole : x.client.role = .unborn) :
      Step s x .registerSubmission { x with client := ⟨.created, .idle, none⟩ }
  | opened {c : Bool} (hrole : x.client.role = .created) :
      Step s x (.openSubmission s)
        { x with
          inner := if c then { x.inner with delivery := .cancelling } else x.inner
          client := ⟨.submit ⟨none, 0, c⟩, .idle, none⟩ }
  /-- A poll that does not admit. -/
  | pollCheck {w : Waker} {fut : SubmitEntries} {call : Option Call}
      (hrole : x.client.role = .submit fut) (hpc : x.client.pc = .idle) (hx : x.call = none)
      (hwhy : call = none ∧ fut.closed = true ∨
        call = some (.requestCancel .close s .cancelling) ∨ call = some .notify) :
      Step s x (.pollSubmit s w) { x with client := { x.client with pc := .check w }, call := call }
  | pollAdmit {w : Waker} {fut : SubmitEntries} (hrole : x.client.role = .submit fut)
      (hpc : x.client.pc = .idle) (hx : x.call = none) (hclosed : fut.closed = false) :
      Step s x (.pollSubmit s w)
        { x with client := { x.client with pc := .admitting }, admits := true }
  | submitFailed {w : Waker} {fut : SubmitEntries} {kind : SubmissionErrorKind}
      (hrole : x.client.role = .submit fut) (hpc : x.client.pc = .check w) (hx : x.call = none)
      (hwhy : fut.closed = true ∨ x.inner.delivery ≠ .opened) :
      Step s x (.checkSubmit s)
        { x with
          client := ⟨.cancellation, .idle, none⟩
          call := some (.requestCancel .close s .cancelling)
          history := { x.history with outcome := some (.error kind) } }
  | submitOk {w : Waker} {fut : SubmitEntries} (hrole : x.client.role = .submit fut)
      (hpc : x.client.pc = .check w) (hx : x.call = none) (hclosed : fut.closed = false)
      (hopen : x.inner.delivery = .opened) (hfin : x.inner.iteratorFinished = true)
      (hacc : x.inner.accepted = x.inner.originals) :
      Step s x (.checkSubmit s)
        { x with
          client := ⟨.stream, .idle, none⟩
          history := { x.history with outcome := some (.ok ()) } }
  | submitPending {w : Waker} {fut : SubmitEntries} (hrole : x.client.role = .submit fut)
      (hpc : x.client.pc = .check w) (hx : x.call = none) (hclosed : fut.closed = false)
      (hopen : x.inner.delivery = .opened)
      (hnot : ¬ (x.inner.iteratorFinished = true ∧ x.inner.accepted = x.inner.originals)) :
      Step s x (.checkSubmit s)
        { x with
          inner := { x.inner with admissionWaker := some w }
          client := ⟨.submit fut, .idle, some ⟨.submitEntries, w, x.woken.length⟩⟩
          call := some .notify }
  | dropSubmit {fut : SubmitEntries} (hrole : x.client.role = .submit fut)
      (hpc : x.client.pc = .idle) (hx : x.call = none) :
      Step s x (.dropSubmit s)
        { x with
          client := ⟨.gone, .idle, none⟩
          call := some (.requestCancel .close s .detached) }
  | nextReady {w : Waker} {r : NextResult} {st : SubmissionInner}
      (hrole : x.client.role = .stream) (hnext : nextCompletion w x.inner = (.ready r, st)) :
      Step s x (.pollCompletion s w)
        { x with
          inner := st
          client := { x.client with pend := none }
          history := { x.history with received := x.history.received ++ [r] } }
  | nextPending {w : Waker} {st : SubmissionInner} (hrole : x.client.role = .stream)
      (hnext : nextCompletion w x.inner = (.pending, st)) :
      Step s x (.pollCompletion s w)
        { x with
          inner := st
          client := { x.client with pend := some ⟨.nextCompletion, w, x.woken.length⟩ } }
  | dropFuture (hrole : x.client.role = .stream ∨ x.client.role = .cancellation) :
      Step s x (.dropFuture s) { x with client := { x.client with pend := none } }
  | cancelStream (hrole : x.client.role = .stream) :
      Step s x (.cancelStream s)
        { x with
          client := ⟨.cancellation, .idle, none⟩
          call := some (.requestCancel .close s .cancelling) }
  | dropStream (hrole : x.client.role = .stream) :
      Step s x (.dropStream s)
        { x with
          client := ⟨.gone, .idle, none⟩
          call := some (.requestCancel .close s .detached) }
  | cancellationReady {w : Waker} {r : NextResult} {st : SubmissionInner}
      (hrole : x.client.role = .cancellation) (hx : x.call = none)
      (hnext : nextCancellation w x.inner = (.ready r, st)) :
      Step s x (.pollCancellation s w)
        { x with
          inner := st
          client := { x.client with pend := none }
          history := { x.history with cancelReceived := x.history.cancelReceived ++ [r] } }
  | cancellationPending {w : Waker} {st : SubmissionInner}
      (hrole : x.client.role = .cancellation) (hx : x.call = none)
      (hnext : nextCancellation w x.inner = (.pending, st)) :
      Step s x (.pollCancellation s w)
        { x with
          inner := st
          client := { x.client with pend := some ⟨.nextCancellation, w, x.woken.length⟩ } }
  | drainedReady {w : Waker} (hrole : x.client.role = .cancellation) (hx : x.call = none)
      (hdrained : drained x.inner = true) :
      Step s x (.pollDrained s w) { x with client := { x.client with pend := none } }
  | drainedPending {w : Waker} (hrole : x.client.role = .cancellation) (hx : x.call = none)
      (hdrained : drained x.inner = false) :
      Step s x (.pollDrained s w)
        { x with
          inner := { x.inner with drainWaker := some w }
          client := { x.client with pend := some ⟨.waitDrained, w, x.woken.length⟩ } }
  | dropCancellation (hrole : x.client.role = .cancellation) (hx : x.call = none) :
      Step s x (.dropCancellation s)
        { x with inner := detach x.inner, client := ⟨.gone, .idle, none⟩ }
  /-- The caller closes delivery. -/
  | close {d : Delivery} (hx : x.call = some (.requestCancel .close s d)) :
      Step s x (.close (.client s))
        { x with
          inner := closeDelivery d x.inner
          call := some (.requestCancel .sweep s d) }
  /-- The owner thread detaches. -/
  | ownerClose (howner : x.owner = some (.requestCancel .close s .detached)) :
      Step s x (.close .owner)
        { x with
          inner := closeDelivery .detached x.inner
          owner := some (.requestCancel .sweep s .detached) }
  /-- Some thread queues cancellations. -/
  | sweep {b : Actor} {order : List Pointer} {keys : List (ℕ × ℕ)} {call o : Option Call}
      (hcall : call = x.call ∨
        (∃ d, x.call = some (.requestCancel .sweep s d)) ∧ call = some .notify) :
      Step s x (.sweep b order)
        { x with
          inner := { x.inner with cancels := x.inner.cancels + keys.length }
          history := { x.history with generated := x.history.generated ++ keys }
          call := call
          owner := o }
  | notify (hx : x.call = some .notify) : Step s x (.notify (.client s)) { x with call := none }
  | iteratorSome {fut : SubmitEntries} {entry : Sqe} (hadmits : x.admits = true)
      (hrole : x.client.role = .submit fut) (hpending : fut.pending = none)
      (hindex : fut.nextIndex + 1 < 2 ^ 64) :
      Step s x (.iteratorNext (some entry))
        { x with
          client :=
            { x.client with
              role := .submit
                { fut with
                  pending := some (fut.nextIndex, entry), nextIndex := fut.nextIndex + 1 } }
          history := { x.history with yielded := x.history.yielded ++ [entry] } }
  | iteratorNone {fut : SubmitEntries} (hadmits : x.admits = true)
      (hrole : x.client.role = .submit fut) (hpending : fut.pending = none) :
      Step s x (.iteratorNext none)
        { x with
          inner := { x.inner with iteratorFinished := true, admissionWaker := none }
          woken := x.woken ++ x.inner.admissionWaker.toList }
  | iteratorPanic {fut : SubmitEntries} (hadmits : x.admits = true)
      (hrole : x.client.role = .submit fut) (hpending : fut.pending = none) :
      Step s x .iteratorPanic
        { x with client := { x.client with pc := .idle, pend := none }, admits := false }
  | staged {fut : SubmitEntries} {item : ℕ × Sqe} {p : Pointer} (hadmits : x.admits = true)
      (hrole : x.client.role = .submit fut) (hpending : fut.pending = some item) :
      Step s x (.stageOriginal p)
        { x with
          inner := { x.inner with originals := x.inner.originals + 1 }
          client := { x.client with role := .submit { fut with pending := none } }
          history := { x.history with staged := x.history.staged ++ [item] } }
  | admitEnd {w : Waker} {call : Option Call} (hadmits : x.admits = true)
      (hcall : call = none ∨ call = some .notify) :
      Step s x .accept
        { x with client := { x.client with pc := .check w }, call := call, admits := false }
  /-- The kernel accepted an original. -/
  | accept {i : ℕ} :
      Step s x .accept
        { x with
          inner := (acceptOriginal (x.inner, [])).1
          woken := x.woken ++ (acceptOriginal (x.inner, [])).2
          history := { x.history with accepted := x.history.accepted ++ [i] } }
  /-- A pass wakes the admission future. -/
  | wakeAdmission :
      Step s x .wakeAdmission
        { x with
          inner := (wakeUnfinished (x.inner, [])).1
          woken := x.woken ++ (wakeUnfinished (x.inner, [])).2 }
  /-- A CQE of an original is dispatched. -/
  | original {c : Completion} {m : Bool} (hlive : x.inner.originalTerminal < x.inner.originals) :
      Step s x .dispatch
        { x with
          inner := (dispatchOriginal x.limit c m (x.inner, [])).1.1
          woken := x.woken ++ (dispatchOriginal x.limit c m (x.inner, [])).1.2
          history :=
            x.history.dispatch (x.inner.delivery = .opened ∧ x.limit ≤ x.inner.normal.length) c }
  /-- The CQE of a cancellation is dispatched. -/
  | cancel {c : Completion} (hlive : x.inner.cancelTerminal < x.inner.cancels) :
      Step s x .dispatch
        { x with
          inner := (dispatchCancel x.limit c (x.inner, [])).1
          woken := x.woken ++ (dispatchCancel x.limit c (x.inner, [])).2
          history := { x.history with cancelled := x.history.cancelled ++ [c] } }

end View

variable {cfg : PreparedRing} {ok : State → Action → Prop} {σ τ : State} {a : Action} {s : SubId}

namespace View.Step

/-- A step that reaches the view it should. -/
theorem cast {x y y' : View} (h : x.Step s a y) (he : y' = y) : x.Step s a y' := he ▸ h

/-- A step that leaves everything the submission sees alone, apart from wakes of other tasks and
the owner thread. -/
theorem frame (hsubs : τ.subs s = σ.subs s) (hclient : τ.clients s = σ.clients s)
    (hcall : τ.calls (.client s) = σ.calls (.client s)) (hhistory : τ.history s = σ.history s)
    (hwoken : ∃ ws, τ.woken = σ.woken ++ ws) (hadmits : τ.admits s = σ.admits s)
    (hstopping : τ.driver.stopping = σ.driver.stopping) : (σ.view s).Step s a (τ.view s) :=
  .other (by simp only [State.view, hsubs]) (by simp only [State.view, hsubs]) hclient hcall
    hhistory hwoken hadmits hstopping

end View.Step

/-- Closing what the driver closes changes nothing: delivery has closed already. -/
theorem closeDelivery_overflow {st : SubmissionInner} (h : st.delivery ≠ .opened) :
    closeDelivery .overflow st = st := by
  simp [closeDelivery, h]

section Updates

variable (σ) (t : SubId)

/-- Only its own caller is in the view of a submission. -/
theorem view_setClient (c : Client) :
    (σ.setClient t c).view s = if s = t then { σ.view s with client := c } else σ.view s := by
  unfold State.view
  rw [State.setClient_clients]
  split_ifs <;> rfl

/-- Only what its own mutex protects is in the view of a submission. -/
theorem view_setInner (st : SubmissionInner) :
    (σ.setInner t st).view s = if s = t then { σ.view s with inner := st } else σ.view s := by
  have hlimit : ((σ.setInner t st).subs s).limit = (σ.subs s).limit := Submissions.set_limit ..
  unfold State.view
  rw [State.setInner_inner, hlimit]
  split_ifs <;> rfl

/-- Wakes are in every view. -/
theorem view_wake (ws : List Waker) :
    (σ.wake ws).view s = { σ.view s with woken := (σ.view s).woken ++ ws } := rfl

/-- Only its own history is in the view of a submission. -/
theorem view_record (f : History → History) :
    (σ.record t f).view s =
      if s = t then { σ.view s with history := f (σ.view s).history } else σ.view s := by
  unfold State.view
  rw [State.record_history]
  split_ifs with h
  · rw [h]
    rfl
  · rfl

/-- Only the call of its own caller is in the view of a submission. -/
theorem view_setCall_client (x : Option Call) :
    (σ.setCall (.client t) x).view s =
      if s = t then { σ.view s with call := x } else σ.view s := by
  unfold State.view
  simp only [State.setCall_calls, Actor.client.injEq, reduceCtorEq, if_false]
  split_ifs <;> rfl

/-- The call of the owner thread is in every view. -/
theorem view_setCall_owner (x : Option Call) :
    (σ.setCall .owner x).view s = { σ.view s with owner := x } := by
  unfold State.view
  simp only [State.setCall_calls, reduceCtorEq, if_true, if_false]
  rfl

/-- The call of an owned operation is in no view. -/
theorem view_setCall_op (c : ControlId) (x : Option Call) :
    (σ.setCall (.op c) x).view s = σ.view s := by
  unfold State.view
  simp only [State.setCall_calls, reduceCtorEq, if_false]
  rfl

/-- The call of the driver is in no view. -/
theorem view_setCall_driver (x : Option Call) :
    (σ.setCall .driver x).view s = σ.view s := by
  unfold State.view
  simp only [State.setCall_calls, reduceCtorEq, if_false]
  rfl

end Updates

namespace View.Step

/-- A step that does not change the view. -/
theorem same {x : View} : x.Step s a x :=
  .other rfl rfl rfl rfl rfl ⟨[], (List.append_nil _).symm⟩ rfl rfl

/-- A step of the owner thread. -/
theorem owner {x : View} {o : Option Call} : x.Step s a { x with owner := o } :=
  .other rfl rfl rfl rfl rfl ⟨[], (List.append_nil _).symm⟩ rfl rfl

/-- A step that only wakes tasks waiting for something else. -/
theorem woke {x : View} {ws : List Waker} : x.Step s a { x with woken := x.woken ++ ws } :=
  .other rfl rfl rfl rfl rfl ⟨ws, rfl⟩ rfl rfl

end View.Step

/-- Going on inside the critical section, the holder admits what it admitted. -/
theorem State.admits_stage {h : Holder} {st st' : Stage} (hσ : σ.crit = some (h, st))
    (hτ : τ.crit = some (h, st')) : τ.admits s = σ.admits s := by
  rw [State.admits_of_crit hσ, State.admits_of_crit hτ]

/-- The view of a state that differs in the holder of the mutex. -/
theorem view_crit (c : Option (Holder × Stage)) :
    { σ with crit := c }.view s = { σ.view s with admits := c.any fun x => x.1.admits s } := rfl

/-- The view of a holder that goes on. -/
theorem view_stage {h : Holder} {t u : Stage} (hcrit : σ.crit = some (h, t)) :
    { σ with crit := some (h, u) }.view s = σ.view s := by
  rw [view_crit]
  simp only [State.view, State.admits, hcrit, Option.any_some]

section Calls

variable {t : SubId} {d : Delivery} {b : Actor}

/-- Some thread closes delivery. -/
theorem view_close (hT : Threads σ) (hcall : σ.calls b = some (.requestCancel .close t d)) :
    (σ.view s).Step s (.close b)
      (((σ.setInner t (closeDelivery d (σ.subs t).inner)).setCall b
        (some (.requestCancel .sweep t d))).view s) := by
  -- Which clause of `Step` it is depends on whose call it is, and on whether `s` is its target.
  cases b with
  | client u =>
    obtain rfl : t = u := (hcall ▸ hT.fits u).target_eq
    rw [view_setCall_client, view_setInner]
    by_cases ht : s = t
    · subst ht
      simp only [if_true]
      exact .close hcall
    · simp only [ht, if_false]
      exact .same
  | op c =>
    have := hT.op c
    rw [hcall] at this
    cases this
  | owner =>
    obtain rfl := hT.owner _ _ _ hcall
    rw [view_setCall_owner, view_setInner]
    by_cases ht : s = t
    · subst ht
      simp only [if_true]
      exact .ownerClose hcall
    · simp only [ht, if_false]
      exact .owner
  -- The driver closes only what is closed already, so nobody sees it.
  | driver =>
    obtain ⟨rfl, hclosed⟩ := hT.driver _ _ _ hcall
    rw [view_setCall_driver, closeDelivery_overflow hclosed, view_setInner]
    by_cases ht : s = t
    · subst ht
      simp only [if_true]
      exact .same
    · simp only [ht, if_false]
      exact .same

/-- Some thread queues cancellations. -/
theorem view_sweep (hT : Threads σ) {order : List Pointer} {data : DriverData}
    {keys : List (ℕ × ℕ)} (hcall : σ.calls b = some (.requestCancel .sweep t d)) :
    (σ.view s).Step s (.sweep b order)
      ((({ σ with
          data := data
          subs := σ.subs.set t
            { (σ.subs t).inner with cancels := (σ.subs t).inner.cancels + keys.length } }.setCall b
            (some .notify)).record t
              fun h => { h with generated := h.generated ++ keys }).view s) := by
  have hinner : { σ with
      data := data
      subs := σ.subs.set t
        { (σ.subs t).inner with cancels := (σ.subs t).inner.cancels + keys.length } }.view s =
      (σ.setInner t
        { (σ.subs t).inner with cancels := (σ.subs t).inner.cancels + keys.length }).view s := rfl
  -- As for `close`, but this step of the driver is seen.
  cases b with
  | client u =>
    obtain rfl : t = u := (hcall ▸ hT.fits u).target_eq
    rw [view_record, view_setCall_client, hinner, view_setInner]
    by_cases ht : s = t
    · subst ht
      simp only [if_true]
      exact .sweep (o := (σ.view s).owner) (.inr ⟨⟨d, hcall⟩, rfl⟩)
    · simp only [ht, if_false]
      exact .same
  | op c =>
    have := hT.op c
    rw [hcall] at this
    cases this
  | owner =>
    rw [view_record, view_setCall_owner, hinner, view_setInner]
    by_cases ht : s = t
    · subst ht
      simp only [if_true]
      exact .sweep (.inl rfl)
    · simp only [ht, if_false]
      exact .owner
  | driver =>
    rw [view_record, view_setCall_driver, hinner, view_setInner]
    by_cases ht : s = t
    · subst ht
      simp only [if_true]
      exact .sweep (o := (σ.view s).owner) (.inl rfl)
    · simp only [ht, if_false]
      exact .same

/-- Some thread goes on with a call that has nothing to do with any submission. -/
theorem view_setCall (hb : ∀ u, b ≠ .client u) (x : Option Call) :
    (σ.view s).Step s a ((σ.setCall b x).view s) := by
  cases b with
  | client u => exact absurd rfl (hb u)
  | op c =>
    rw [view_setCall_op]
    exact .same
  | owner =>
    rw [view_setCall_owner]
    exact .owner
  | driver =>
    rw [view_setCall_driver]
    exact .same

/-- No caller of a submission cancels an owned operation. -/
theorem Threads.not_client (hT : Threads σ) {c : ControlId}
    (hcall : σ.calls b = some (.requestOwnedCancel c)) (u : SubId) : b ≠ .client u := by
  rintro rfl
  exact (hcall ▸ hT.fits u).not_owned

end Calls

/-- The kernel's acceptance of an SQE is seen by the submission of an original. -/
theorem view_accept {h : Holder} {count : ℕ} {r : Ring}
    {y : DriverData × Ring × Submissions × List Waker}
    (hcrit : σ.crit = some (h, .accept (count + 1)))
    (haccept : acceptStaged σ.data r σ.subs = .ok y) :
    (σ.view s).Step s .accept
      ({ σ.wake y.2.2.2 with
        data := y.1
        ring := some y.2.1
        subs := y.2.2.1
        crit := some (h, .accept count)
        history := σ.acceptHistory }.view s) := by
  rcases acceptStaged_cases haccept with ⟨p, rest, c, hs, hc, hp, rfl⟩ |
    ⟨p, rest, c, hs, hc, hp, rfl⟩ | ⟨p, rest, c, hs, hc, hp, rfl⟩
  · have hhistory := σ.acceptHistory_raw hs hc s
    -- Only originals are counted and recorded.
    by_cases hk : c.kind = .original
    · by_cases hsc : s = c.state
      · subst hsc
        refine (View.Step.accept (i := c.index)).cast ?_
        simp only [hk, and_self, if_true] at hhistory
        ext1 <;> simp [State.view, State.wake, hk, hhistory, State.admits, hcrit]
      · refine .frame ?_ rfl rfl ?_ ⟨_, rfl⟩ (State.admits_stage hcrit rfl) rfl
        · simp only [hk, if_true]
          exact Submissions.set_of_ne _ _ hsc
        · simpa [hsc] using hhistory
    · refine .frame (by simp [hk]) rfl rfl ?_ ⟨_, rfl⟩ (State.admits_stage hcrit rfl) rfl
      simpa [hk] using hhistory
  all_goals
    refine .frame rfl rfl rfl ?_ ⟨_, rfl⟩ (State.admits_stage hcrit rfl) rfl
    rw [σ.acceptHistory_owned fun p rest hp => by rw [hs] at hp; cases hp]

/-- A CQE is seen by its submission. -/
theorem view_dispatch {cqe : Cqe} {rest : List Cqe} {y : Dispatched} {backlog : Bool}
    {overflow : List SubId} (hB : σ.registry.Accounts)
    (hdriver : σ.driver = .dispatch backlog overflow)
    (hdispatch : IoUring.dispatch cqe σ.data σ.subs = .ok y) :
    (σ.view s).Step s .dispatch
      ({ σ.wake y.wakes with
        data := y.data
        subs := y.subs
        history := σ.dispatchHistory cqe
        reaped := rest
        released := σ.released ++
          y.handler.toList.map fun h : OwnedHandler => (h.control, Release.complete cqe.result)
        driver :=
          match y.handler with
          | some h => .publish h.control backlog (overflow ++ y.overflow.toList)
          | none => .dispatch backlog (overflow ++ y.overflow.toList) }.view s) := by
  have hstopping : DriverPc.stopping
      (match y.handler with
      | some h => .publish h.control backlog (overflow ++ y.overflow.toList)
      | none => .dispatch backlog (overflow ++ y.overflow.toList)) = σ.driver.stopping := by
    rw [hdriver]
    cases y.handler <;> rfl
  -- The CQE is for this submission, or its context names another one or none.
  by_cases hsc : ∃ c, σ.data.contexts.lookup cqe.userData = some c ∧ s = c.state
  · obtain ⟨c, hc, rfl⟩ := hsc
    rcases dispatch_cases hdispatch with ⟨c', hc', hk, hp, rfl⟩ |
      ⟨c', t, o, hc', hk, -, -, -, -, rfl⟩ | ⟨_, _, hnone, _⟩ | ⟨_, _, hnone, _⟩
    · obtain rfl := Option.some.inj (hc.symm.trans hc')
      refine (View.Step.original (c := ⟨c.index, cqe.setUserData c.originalUserData⟩)
        (m := cqe.more) (hB.original_lt hc hk hp)).cast ?_
      have hhistory := σ.dispatchHistory_original hc hk c.state
      rw [if_pos rfl] at hhistory
      ext1 <;> simp [State.view, State.wake, hhistory, State.admits, hdriver, DriverPc.stopping]
    · obtain rfl := Option.some.inj (hc.symm.trans hc')
      refine (View.Step.cancel (c := ⟨c.index, cqe.setUserData c.originalUserData⟩)
        (hB.cancel_lt hc hk)).cast ?_
      have hhistory := σ.dispatchHistory_cancel hc hk c.state
      rw [if_pos rfl] at hhistory
      ext1 <;> simp [State.view, State.wake, hhistory, State.admits, hdriver, DriverPc.stopping]
    · rw [hc] at hnone
      cases hnone
    · rw [hc] at hnone
      cases hnone
  · have hne : ∀ c, σ.data.contexts.lookup cqe.userData = some c → s ≠ c.state :=
      fun c hc hs => hsc ⟨c, hc, hs⟩
    exact .frame (dispatch_subs hdispatch hne) rfl rfl (σ.dispatchHistory_of_ne cqe hne) ⟨_, rfl⟩
      rfl
      hstopping

/-- A move that only touches submission `t` is seen by no other one. -/
theorem View.Step.only {x y : View} {t : SubId} (h : s = t → x.Step s a y) (hne : s ≠ t → y = x) :
    x.Step s a y := by
  by_cases ht : s = t
  · exact h ht
  · rw [hne ht]
    exact .same

/-- Every move is a step of every view. -/
theorem view_move (hA : Allocated cfg σ) (hT : Threads σ) (hSt : Staging σ)
    (hB : σ.registry.Accounts) (hm : Move cfg σ a τ) (s : SubId) :
    (σ.view s).Step s a (τ.view s) := by
  have hnil : ∃ ws, σ.woken = σ.woken ++ ws := ⟨[], (List.append_nil _).symm⟩
  cases hm
  case registerSubmission hcrit =>
    -- The new number belonged to a view that nothing has touched yet.
    by_cases hs : s = σ.nextSub
    · have hrole : (σ.clients s).role = .unborn := by
        by_contra hne
        exact Nat.lt_irrefl _ (hs ▸ hA.client s hne)
      refine (View.Step.register hrole).cast ?_
      have hnew := (hA.fresh s (Nat.le_of_eq hs.symm)).1
      subst hs
      simp only [State.view, Function.update_self, hnew]
      rfl
    · exact .frame (Function.update_of_ne hs _ _) (Function.update_of_ne hs _ _) rfl rfl hnil rfl
        rfl
  case openSubmission t hrole =>
    rw [view_setClient, view_setInner]
    refine .only (t := t) (fun ht => ?_) fun ht => by simp only [ht, if_false]
    subst ht
    simp only [if_true]
    exact View.Step.opened (c := !σ.running) hrole
  case pollClosed t w fut hfut hpc hcall hclosed =>
    rw [view_setClient]
    refine .only (t := t) (fun ht => ?_) fun ht => by rw [if_neg ht]
    subst ht
    rw [if_pos rfl]
    exact (View.Step.pollCheck (Role.fut?_eq_some.mp hfut) hpc hcall (.inl ⟨rfl, hclosed⟩)).cast
      (by rw [← hcall]; rfl)
  case pollRefused t w fut hfut hpc hcall hclosed hcrit haccepting =>
    rw [view_setCall_client, view_setClient]
    refine .only (t := t) (fun ht => ?_) fun ht => by simp only [ht, if_false]
    subst ht
    simp only [if_true]
    exact .pollCheck (Role.fut?_eq_some.mp hfut) hpc hcall (.inr (.inl rfl))
  case pollDeferred t w fut hfut hpc hcall hclosed hcrit haccepting howned =>
    rw [view_setCall_client, view_setClient]
    refine .only (t := t) (fun ht => ?_) fun ht => by simp only [ht, if_false]
    subst ht
    simp only [if_true]
    exact .pollCheck (Role.fut?_eq_some.mp hfut) hpc hcall (.inr (.inr rfl))
  case pollAdmit t w fut r hfut hpc hcall hclosed hcrit haccepting howned hring =>
    -- Taking the mutex shows in the view of the submission that takes it, and in no other.
    rw [view_crit (σ := σ.setClient t { σ.clients t with pc := .admitting }), view_setClient]
    by_cases ht : s = t
    · subst ht
      simp only [if_true]
      exact (View.Step.pollAdmit (Role.fut?_eq_some.mp hfut) hpc hcall hclosed).cast
        (by simp [Holder.admits, State.view])
    · simp only [ht, if_false]
      refine View.Step.same.cast ?_
      simp [State.view, State.admits_of_free hcrit, Holder.admits, Ne.symm ht]
  case submitFailed t w fut kind hfut hpc hcall hwhy =>
    rw [view_record, view_setCall_client, view_setClient]
    refine .only (t := t) (fun ht => ?_) fun ht => by simp only [ht, if_false]
    subst ht
    simp only [if_true]
    exact .submitFailed (Role.fut?_eq_some.mp hfut) hpc hcall hwhy
  case submitOk t w fut hfut hpc hcall hclosed hopen hfin hacc =>
    rw [view_record, view_setClient]
    refine .only (t := t) (fun ht => ?_) fun ht => by simp only [ht, if_false]
    subst ht
    simp only [if_true]
    exact .submitOk (Role.fut?_eq_some.mp hfut) hpc hcall hclosed hopen hfin hacc
  case submitPending t w fut hfut hpc hcall hclosed hopen hnot =>
    rw [view_setCall_client, view_setClient, view_setInner]
    refine .only (t := t) (fun ht => ?_) fun ht => by simp only [ht, if_false]
    subst ht
    simp only [if_true]
    have hrole := Role.fut?_eq_some.mp hfut
    rw [hrole]
    exact .submitPending hrole hpc hcall hclosed hopen hnot
  case dropSubmit t fut hfut hpc hcall =>
    rw [view_setCall_client, view_setClient]
    refine .only (t := t) (fun ht => ?_) fun ht => by simp only [ht, if_false]
    subst ht
    simp only [if_true]
    exact .dropSubmit (Role.fut?_eq_some.mp hfut) hpc hcall
  case nextReady t w r st hrole hnext =>
    rw [view_record, view_setClient, view_setInner]
    refine .only (t := t) (fun ht => ?_) fun ht => by simp only [ht, if_false]
    subst ht
    simp only [if_true]
    exact .nextReady hrole hnext
  case nextPending t w st hrole hnext =>
    rw [view_setClient, view_setInner]
    refine .only (t := t) (fun ht => ?_) fun ht => by simp only [ht, if_false]
    subst ht
    simp only [if_true]
    exact .nextPending hrole hnext
  case dropFuture t hrole =>
    rw [view_setClient]
    refine .only (t := t) (fun ht => ?_) fun ht => by rw [if_neg ht]
    subst ht
    rw [if_pos rfl]
    exact .dropFuture hrole
  case cancelStream t hrole =>
    rw [view_setCall_client, view_setClient]
    refine .only (t := t) (fun ht => ?_) fun ht => by simp only [ht, if_false]
    subst ht
    simp only [if_true]
    exact .cancelStream hrole
  case dropStream t hrole =>
    rw [view_setCall_client, view_setClient]
    refine .only (t := t) (fun ht => ?_) fun ht => by simp only [ht, if_false]
    subst ht
    simp only [if_true]
    exact .dropStream hrole
  case cancellationReady t w r st hrole hcall hnext =>
    rw [view_record, view_setClient, view_setInner]
    refine .only (t := t) (fun ht => ?_) fun ht => by simp only [ht, if_false]
    subst ht
    simp only [if_true]
    exact .cancellationReady hrole hcall hnext
  case cancellationPending t w st hrole hcall hnext =>
    rw [view_setClient, view_setInner]
    refine .only (t := t) (fun ht => ?_) fun ht => by simp only [ht, if_false]
    subst ht
    simp only [if_true]
    exact .cancellationPending hrole hcall hnext
  case drainedReady t w hrole hcall hdrained =>
    rw [view_setClient, view_setInner]
    refine .only (t := t) (fun ht => ?_) fun ht => by simp only [ht, if_false]
    subst ht
    simp only [if_true]
    exact .drainedReady hrole hcall hdrained
  case drainedPending t w hrole hcall hdrained =>
    rw [view_setClient, view_setInner]
    refine .only (t := t) (fun ht => ?_) fun ht => by simp only [ht, if_false]
    subst ht
    simp only [if_true]
    exact .drainedPending hrole hcall hdrained
  case dropCancellation t hrole hcall =>
    rw [view_setClient, view_setInner]
    refine .only (t := t) (fun ht => ?_) fun ht => by simp only [ht, if_false]
    subst ht
    simp only [if_true]
    exact .dropCancellation hrole hcall
  case close hcall => exact view_close hT hcall
  case sweep b t d order hcall hcrit hnodup horder =>
    -- Only the number of commands and their keys reach the view.
    rw [cancelOriginals_subs, ← List.length_map (f := CancelCommand.key)]
    exact view_sweep hT hcall
  case sweepOwned b c p hcall hcrit htarget =>
    exact view_setCall (σ := { σ with data := cancelOwned p σ.data }) (hT.not_client hcall) _
  case sweepOwnedNone b c hcall hcrit htarget => exact view_setCall (hT.not_client hcall) _
  case notify b y hcall hnotify =>
    cases b with
    | client u =>
      rw [view_setCall_client]
      by_cases ht : s = u
      · subst ht
        rw [if_pos rfl]
        exact .notify hcall
      · rw [if_neg ht]
        exact .same
    | op c => exact view_setCall (by simp) _
    | owner => exact view_setCall (by simp) _
    | driver => exact view_setCall (by simp) _
  case stageCancellation hcrit hring hfresh hstage
    | stageOwnedCancellation hcrit hring hfresh hstage | ownedBudget hcrit =>
    exact .frame rfl rfl rfl rfl hnil (State.admits_stage hcrit rfl) rfl
  case stageOwned hcrit hring hfresh hstage =>
    refine .frame rfl rfl rfl rfl hnil ?_ rfl
    rw [State.admits_of_crit hcrit, State.admits_of_crit rfl]
    rfl
  case iteratorSome t w n fut entry hcrit hfut hpending hindex =>
    rw [view_record, view_setClient]
    refine .only (t := t) (fun ht => ?_) fun ht => by simp only [ht, if_false]
    subst ht
    simp only [if_true]
    exact .iteratorSome (by simp [State.view, State.admits_of_crit hcrit, Holder.admits])
      (Role.fut?_eq_some.mp hfut) hpending hindex
  case iteratorNone t w n fut hcrit hfut hpending =>
    have hview := view_stage (s := s) (u := .submit)
      (σ := (σ.setInner t
        (takeAdmission ({ (σ.subs t).inner with iteratorFinished := true }, [])).1).wake
        (takeAdmission ({ (σ.subs t).inner with iteratorFinished := true }, [])).2) hcrit
    rw [hview, view_wake, view_setInner]
    by_cases ht : s = t
    · subst ht
      simp only [if_true]
      exact .iteratorNone (by simp [State.view, State.admits_of_crit hcrit, Holder.admits])
        (Role.fut?_eq_some.mp hfut) hpending
    · simp only [ht, if_false]
      exact .woke
  case iteratorPanic t w n fut hcrit hfut hpending =>
    rw [view_crit (σ := σ.setClient t { σ.clients t with pc := .idle, pend := none }),
      view_setClient]
    by_cases ht : s = t
    · subst ht
      simp only [if_true]
      exact .iteratorPanic (by simp [State.view, State.admits_of_crit hcrit, Holder.admits])
        (Role.fut?_eq_some.mp hfut) hpending
    · simp only [ht, if_false]
      refine View.Step.same.cast ?_
      simp [State.view, State.admits_of_crit hcrit, Holder.admits, Ne.symm ht]
  case originalFull t w n fut item item' r p hcrit hfut hpending hring hstage =>
    -- The item goes back with the index it had, so the future is as before.
    obtain rfl := stageOriginal_full hstage
    have hrole := Role.fut?_eq_some.mp hfut
    have hview := view_stage (s := s) (u := .submit)
      (σ := σ.setClient t
        { σ.clients t with role := .submit { fut with pending := some (item.1, item.2) } }) hcrit
    rw [hview, view_setClient]
    refine .only (t := t) (fun ht => ?_) fun ht => by simp only [ht, if_false]
    subst ht
    simp only [if_true]
    refine View.Step.same.cast ?_
    rw [Prod.mk.eta, ← hpending]
    simp only [State.view, ← hrole]
  case originalStaged t w n fut item r p y hcrit hfut hpending hring hfresh hstage =>
    obtain ⟨-, rfl⟩ := stageOriginal_staged hstage
    have hview : State.view
        { (σ.setClient t
            { σ.clients t with role := .submit { fut with pending := none } }).record t
            fun h => { h with staged := h.staged ++ [item] } with
          data :=
            { σ.data with
              contexts := σ.data.contexts.insert p (item.2.boxed t item.1)
              staged := σ.data.staged ++ [.raw p] }
          ring := some { r with sq := r.sq ++ [⟨item.2.body, p⟩] }
          subs := σ.subs.set t
            { (σ.subs t).inner with originals := (σ.subs t).inner.originals + 1 }
          crit := some (.admission t w true, .originals) } s =
        (((σ.setInner t
            { (σ.subs t).inner with originals := (σ.subs t).inner.originals + 1 }).setClient t
          { σ.clients t with role := .submit { fut with pending := none } }).record t
            fun h => { h with staged := h.staged ++ [item] }).view s := by
      unfold State.view
      rw [State.admits_of_crit rfl, State.admits_of_crit (σ := ((σ.setInner t _).setClient t
        _).record t _) hcrit]
      rfl
    rw [hview, view_record, view_setClient, view_setInner]
    refine .only (t := t) (fun ht => ?_) fun ht => by simp only [ht, if_false]
    subst ht
    simp only [if_true]
    exact .staged (by simp [State.view, State.admits_of_crit hcrit, Holder.admits])
      (Role.fut?_eq_some.mp hfut) hpending
  case submitAccepted hcrit hring hcount hstaged | submitRetry hcrit hretry | passEnd hcrit =>
    rw [view_stage hcrit]
    exact .same
  case admitEnd t w n hcrit =>
    rw [view_crit (σ := (σ.setClient t { σ.clients t with pc := .check w }).setCall (.client t)
      (if n || ((σ.clients t).role.fut?.bind (·.pending)).isSome then some .notify else none)),
      view_setCall_client, view_setClient]
    by_cases ht : s = t
    · subst ht
      simp only [if_true]
      refine .admitEnd (by simp [State.view, State.admits_of_crit hcrit, Holder.admits]) ?_
      split_ifs
      · exact .inr rfl
      · exact .inl rfl
    · simp only [ht, if_false]
      refine View.Step.same.cast ?_
      simp [State.view, State.admits_of_crit hcrit, Holder.admits, Ne.symm ht]
  case accept h count r y hcrit hring haccept => exact view_accept hcrit haccept
  case admissionsEnd failed hcrit =>
    refine .frame rfl rfl rfl rfl hnil ?_ ?_
    · rw [State.admits_of_free rfl, State.admits_of_crit hcrit]
      rfl
    · rw [hSt.mpr ⟨_, _, hcrit⟩]
      rfl
  case wakeAdmission failed t rest hcrit hstrong =>
    have hview := view_stage (s := s) (u := .admissions rest)
      (σ := (σ.setInner t (wakeUnfinished ((σ.subs t).inner, [])).1).wake
        (wakeUnfinished ((σ.subs t).inner, [])).2) hcrit
    rw [hview, view_wake, view_setInner]
    by_cases ht : s = t
    · subst ht
      simp only [if_true]
      exact .wakeAdmission
    · simp only [ht, if_false]
      exact .woke
  case admissionDead failed t rest hcrit hstrong =>
    have hview := view_stage (s := s) (u := .admissions rest)
      (σ := (σ.setInner t (σ.subs t).inner).wake []) hcrit
    rw [hview, view_wake, view_setInner]
    by_cases ht : s = t
    · subst ht
      simp only [if_true]
      exact .woke
    · simp only [ht, if_false]
      exact .woke
  case enqueue => exact view_setCall (by simp) _
  case dropOwned c hop hcall =>
    exact view_setCall (b := .op c) (by simp) (some (.requestOwnedCancel c))
  case passBegin hdriver hcrit hring =>
    refine .frame rfl rfl rfl rfl hnil ?_ (by rw [hdriver]; rfl)
    rw [State.admits_of_free hcrit, State.admits_of_crit rfl]
    rfl
  case failOwned handler reason rest hdriver =>
    exact .frame rfl rfl rfl rfl ⟨_, rfl⟩ rfl (by rw [hdriver]; rfl)
  case failEnd hdriver | reap hdriver hcrit hring | dispatchEnd hdriver hreaped
    | overflowEnd hcall hdriver | park hdriver hnotified | resume hdriver htoken
    | markRunning hdriver | takeRing hdriver hcrit | closeGate hdriver
    | retire hdriver hphase hraw | complete hdriver | decide hcrit hdriver hne hdecide
    | parkNotified hdriver hnotified =>
    exact .frame rfl rfl rfl rfl hnil rfl (by rw [hdriver]; rfl)
  case dispatch hdriver hreaped hcrit hdispatch => exact view_dispatch hB hdriver hdispatch
  case publish hdriver => exact .frame rfl rfl rfl rfl ⟨_, rfl⟩ rfl (by rw [hdriver]; rfl)
  case cancelOverflow t rest backlog hcall hdriver =>
    have hcalls : (σ.setCall .driver (some (.requestCancel .close t .overflow))).calls
        (.client s) = σ.calls (.client s) := by simp
    exact .frame rfl rfl hcalls rfl hnil rfl (by rw [hdriver]; rfl)
  case decideStop hcrit hdriver hdecide =>
    -- From here on no pass begins, and the view remembers it.
    exact View.Step.stop.cast (by simp [State.view, DriverPc.stopping, State.admits])
  case cancelSubmission | cancelSnapshot | snapshotEnd =>
    exact view_setCall (b := .owner) (by simp) _
  all_goals exact .frame rfl rfl rfl rfl hnil rfl rfl

/-- No counter in the view of what is over exceeds the counter of what there was. -/
structure View.Counted (x : View) : Prop where
  accepted : x.inner.accepted ≤ x.inner.originals
  originals : x.inner.originalTerminal ≤ x.inner.originals
  cancels : x.inner.cancelTerminal ≤ x.inner.cancels

/-- The counters in every view of a reachable state are in order. -/
theorem View.Counted.of_reachable (h : Reachable cfg ok σ) (s : SubId) : (σ.view s).Counted := by
  obtain ⟨h1, h2, h3⟩ := (Registry.Accounts.of_reachable h).le s
  exact ⟨h1, h2, h3⟩

/-- Every step from a reachable state is a step of every view. -/
theorem Reachable.view_step (h : Reachable cfg ok σ) (hstep : step cfg a σ = .ok τ) (s : SubId) :
    (σ.view s).Step s a (τ.view s) :=
  view_move (.of_reachable h) (.of_reachable h) (.of_reachable h) (.of_reachable h)
    (move_of_step hstep) s

/-- What every view has at the start and keeps in every step, every view of a reachable state
has. -/
theorem Reachable.view_inv {I : SubId → View → Prop} (h : Reachable cfg ok σ)
    (hinit : ∀ s, I s ((State.init cfg).view s))
    (hstep : ∀ {σ a s y}, (σ.view s).client.Fits s (σ.view s).call (σ.view s).admits →
      (σ.view s).Counted → I s (σ.view s) → ok σ a → (σ.view s).Step s a y → I s y) (s : SubId) :
    I s (σ.view s) := by
  refine h.inv_of (I := fun σ => ∀ s, I s (σ.view s)) (J := fun σ => Reachable cfg ok σ)
    (fun hr => hr) hinit ?_ s
  intro σ τ a hσ _ hI hok hm s
  exact hstep ((Threads.of_reachable hσ).fits s) (.of_reachable hσ s) (hI s) hok
    (view_move (.of_reachable hσ) (.of_reachable hσ) (.of_reachable hσ) (.of_reachable hσ) hm s)

end Nosv.IoUring
