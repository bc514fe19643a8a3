import Nosv.IoUring.Driver

/-!
# The driver under all interleavings

One state for everything that runs: the shared memory of `IoUringDriver`, the program counters of
the threads inside it (callers of each submission, owned operations, the owner thread in
`shutdown_and_wait`, the driver task in `run`), and the kernel. One action is the code between two
lock acquisitions; the thread that holds the `data` mutex is recorded in `crit` together with what
it still has to do under it, so every other thread's use of a submission lock may come in between.

The kernel moves as it is documented to: it consumes SQEs from the head of the SQ, posts CQEs only
for SQEs it has consumed, exactly one of them without `IORING_CQE_F_MORE` and that one last, and
sets the flag on callers' entries only. The allocator returns a non-null address no live box has.
-/

namespace Nosv.IoUring

/-! ## Threads -/

/-- Fields of a live `SubmitEntries` future. -/
structure SubmitEntries where
  /-- SQE removed from the iterator but not yet staged because the SQ was full. -/
  pending : Option (ℕ × Sqe)
  /-- Iterator index assigned to the next yielded SQE. -/
  nextIndex : ℕ
  /-- Whether the originating runtime was already unavailable at construction. -/
  closed : Bool
  deriving DecidableEq, Repr

/-- The capability a caller holds for one submission, or will hold once the call it is in
returns. -/
inductive Role where
  /-- Not allocated yet. -/
  | unborn
  /-- `submit_entries` registered the submission and has not returned. -/
  | created
  /-- A `SubmitEntries` future. -/
  | submit (fut : SubmitEntries)
  /-- A `CompletionStream`. -/
  | stream
  /-- A `Cancellation`. -/
  | cancellation
  /-- Dropped. -/
  | gone
  deriving DecidableEq, Repr

/-- Where a `SubmitEntries::poll` in progress is. -/
inductive PollPc where
  | idle
  /-- Inside `admit`, holding the `data` mutex. -/
  | admitting
  /-- `admit` returned; about to check the submission state. -/
  | check (w : Waker)
  deriving DecidableEq, Repr

/-- The future a pending poll belongs to. -/
inductive FutureKind where
  | submitEntries
  | nextCompletion
  | nextCancellation
  | waitDrained
  deriving DecidableEq, Repr

/-- A live future whose last poll returned `Pending`: the waker it passed, and how many wakers had
been moved to wake batches by then. -/
structure Pending where
  future : FutureKind
  waker : Waker
  since : ℕ
  deriving DecidableEq, Repr

/-- The caller side of one submission. -/
structure Client where
  role : Role
  pc : PollPc
  /-- The live future of this capability whose last poll returned `Pending`. At most one exists:
  each borrows its capability mutably. -/
  pend : Option Pending
  deriving DecidableEq, Repr

/-- The caller side of one owned operation. -/
inductive OpState where
  /-- Not polled yet. -/
  | unborn
  /-- `enqueue` returned `Ok`. -/
  | queued
  /-- `enqueue` returned `Err`. -/
  | rejected
  /-- The future returned its result. -/
  | done
  /-- The future was dropped before its result. -/
  | dropped
  deriving DecidableEq, Repr

/-- A thread that may be inside the driver. -/
inductive Actor where
  | client (s : SubId)
  | op (c : ControlId)
  | owner
  | driver
  deriving DecidableEq, Repr

/-- Rest of a `request_cancel` call. -/
inductive CancelStage where
  | close
  | sweep
  deriving DecidableEq, Repr

/-- A library call in progress. `request_cancel` and `request_owned_cancel` end in `notify`. -/
inductive Call where
  | requestCancel (stage : CancelStage) (s : SubId) (delivery : Delivery)
  | requestOwnedCancel (c : ControlId)
  | notify
  deriving DecidableEq, Repr

/-- Program counter of the driver task. -/
inductive DriverPc where
  /-- About to start a pass. -/
  | pass
  /-- In the data-lock section of a pass. -/
  | staging
  /-- `fail_owned`. -/
  | fail (failed : List Failed)
  /-- About to read the CQ. -/
  | reap
  /-- Dispatching the CQEs that were read. -/
  | dispatch (backlog : Bool) (overflow : List SubId)
  /-- `handler.complete` was called and has yet to publish. -/
  | publish (control : ControlId) (backlog : Bool) (overflow : List SubId)
  /-- Cancelling the submissions that overflowed. -/
  | overflow (rest : List SubId) (backlog : Bool)
  | decide (backlog : Bool)
  /-- `Stop` was decided; about to drop the ring. -/
  | takeRing
  /-- About to mark the gate terminal. -/
  | closeGate
  /-- `run` has returned. -/
  | stopped
  /-- The completion callback destroyed the descriptor and has yet to announce it. -/
  | retired
  /-- The completion callback is over. -/
  | completed
  | park (d : RunDecision)
  /-- Inside the native yield, wait or pause. -/
  | native (d : RunDecision)
  | resumed
  deriving DecidableEq, Repr

/-- Program counter of the owner thread. -/
inductive OwnerPc where
  | idle
  /-- `shutdown_and_wait` entered. -/
  | closeAdmission
  | raiseShutdown
  /-- Cancelling the snapshot of submissions; owned controls still to cancel. -/
  | submissions (rest : List SubId) (owned : List ControlId)
  | owned (rest : List ControlId)
  | waiting
  deriving DecidableEq, Repr

/-- Who holds the `data` mutex across several steps. -/
inductive Holder where
  /-- `admit` for submission `s`, called by a poll with waker `w`; whether it staged anything. -/
  | admission (s : SubId) (w : Waker) (notify : Bool)
  /-- The first half of `pass`; owned operations failed so far. -/
  | pass (failed : List Failed)
  deriving DecidableEq, Repr

/-- Where the holder of the `data` mutex is. -/
inductive Stage where
  | cancels
  | ownedCancels
  | owned (budget : ℕ)
  | originals
  | submit
  | accept (count : ℕ)
  | admissions (rest : List SubId)
  deriving DecidableEq, Repr

/-- How a handler was consumed. -/
inductive Release where
  | complete (result : ℤ)
  | fail (reason : OwnedFailure)
  deriving DecidableEq, Repr

/-- What happened to one submission, for specification only: no step reads it. -/
structure History where
  /-- Items the iterator has yielded. -/
  yielded : List Sqe
  /-- Index and caller's entry of every original staged, in order. -/
  staged : List (ℕ × Sqe)
  /-- Indices of the originals the kernel accepted. -/
  accepted : List ℕ
  /-- How `SubmitEntries` resolved. -/
  outcome : Option (Except SubmissionErrorKind Unit)
  /-- Original CQEs in dispatch order. -/
  dispatched : List Completion
  /-- How many original CQEs were dispatched before one found the buffer full. -/
  full : Option ℕ
  /-- Index and caller `user_data` of every cancellation generated. -/
  generated : List (ℕ × ℕ)
  /-- Cancellation CQEs in dispatch order. -/
  cancelled : List Completion
  /-- Ready results of the stream's `next`. -/
  received : List NextResult
  /-- Ready results of the cancellation's `next`. -/
  cancelReceived : List NextResult
  deriving DecidableEq, Repr

/-- The history after one more original CQE, which found the buffer full or not. -/
def History.dispatch (full : Bool) (c : Completion) (h : History) : History :=
  { h with
    full := if full then h.full <|> some h.dispatched.length else h.full
    dispatched := h.dispatched ++ [c] }

/-- The history of a submission nothing happened to. -/
def History.new : History := ⟨[], [], [], none, [], none, [], [], [], []⟩

/-- The whole system. -/
structure State where
  /-- `data` mutex of the driver. -/
  data : DriverData
  /-- The lock-free producer queue. -/
  ownedQueue : List QueuedOwnedOp
  ownedAdmission : Bool
  /-- Ring removed when the driver reaches terminal shutdown. -/
  ring : Option Ring
  gate : DriverGate
  completed : Bool
  /-- Heap of submission states, and the first free identity. -/
  subs : Submissions
  nextSub : SubId
  /-- Heap of owned controls, and the first free identity. -/
  controls : ControlId → OwnedControl
  nextControl : ControlId
  /-- The runtime's lifecycle is `Running` in this process. -/
  running : Bool
  /-- The critical section holding `data`, when it spans several steps. -/
  crit : Option (Holder × Stage)
  /-- CQEs read from the CQ and not yet dispatched. -/
  reaped : List Cqe
  driver : DriverPc
  owner : OwnerPc
  clients : SubId → Client
  ops : ControlId → OpState
  calls : Actor → Option Call
  /-- Ordinary native submits not yet consumed by a pause. -/
  tokens : ℕ
  /-- Every waker moved to a wake batch, in order. -/
  woken : List Waker
  /-- Every native call on the driver's descriptor. -/
  native : List NativeCall
  /-- Every `handler.complete` and `handler.fail` call. -/
  released : List (ControlId × Release)
  history : SubId → History

/-- The system when `IoUringDriver::start` returns: the driver task is submitted. -/
def State.init (cfg : PreparedRing) : State where
  data := .new
  ownedQueue := []
  ownedAdmission := true
  ring := some ⟨cfg.config.entries, [], [], []⟩
  gate := ⟨true, .running, false⟩
  completed := false
  subs := fun _ => .new cfg.config.maxBufferedCompletions
  nextSub := 0
  controls := fun _ => ⟨false, false, none⟩
  nextControl := 0
  running := true
  crit := none
  reaped := []
  driver := .pass
  owner := .idle
  clients := fun _ => ⟨.unborn, .idle, none⟩
  ops := fun _ => .unborn
  calls := fun _ => none
  tokens := 0
  woken := []
  native := []
  released := []
  history := fun _ => .new

/-- The submission a call in progress keeps alive. -/
def Call.holds (s : SubId) : Call → Bool
  | .requestCancel _ t _ => t == s
  | _ => false

/-- The submissions the driver task keeps alive while it dispatches. -/
def DriverPc.overflowed : DriverPc → List SubId
  | .dispatch _ xs | .publish _ _ xs | .overflow xs _ => xs
  | _ => []

/-- The submissions the owner thread keeps alive. -/
def OwnerPc.snapshot : OwnerPc → List SubId
  | .submissions rest _ => rest
  | _ => []

/-- The admission future of a caller that has one. -/
def Role.fut? : Role → Option SubmitEntries
  | .submit fut => some fut
  | _ => none

@[simp]
theorem Role.fut?_eq_some {r : Role} {fut : SubmitEntries} :
    r.fut? = some fut ↔ r = .submit fut := by
  cases r <;> simp [Role.fut?]

/-- Whether the caller holds a strong reference to its submission. -/
def Role.holds : Role → Bool
  | .unborn | .gone => false
  | .created | .submit _ | .stream | .cancellation => true

/-- A caller's entry, as opposed to one of the library's. -/
def SqeBody.isRaw : SqeBody → Bool
  | .raw _ => true
  | _ => false

/-! ## Steps -/

/-- Result of a step. -/
abbrev StepM := Except (Halt Abort)

/-- Enabling condition of a step. -/
def require (p : Prop) [Decidable p] : StepM Unit := if p then .ok () else .error .disabled

/-- Code that aborts makes the step abort. -/
def checked {α : Type} : Checked α → StepM α
  | .ok a => .ok a
  | .error e => .error (.abort e)

/-- The value an optional must have for the step to be enabled. -/
def need {α : Type} : Option α → StepM α
  | some a => .ok a
  | none => .error .disabled

/-- A step that goes on went through its first part. -/
@[simp]
theorem bind_eq_ok {α β : Type} {x : StepM α} {f : α → StepM β} {b : β} :
    x >>= f = .ok b ↔ ∃ a, x = .ok a ∧ f a = .ok b := by
  cases x with
  | ok a => simp [bind, Except.bind]
  | error e => simp [bind, Except.bind]

/-- A step aborts in its first part or after it. -/
theorem bind_eq_abort {α β : Type} {x : StepM α} {f : α → StepM β} {e : Abort} :
    x >>= f = .error (.abort e) ↔
      x = .error (.abort e) ∨ ∃ a, x = .ok a ∧ f a = .error (.abort e) := by
  cases x with
  | ok a => simp [bind, Except.bind]
  | error e => simp [bind, Except.bind]

@[simp]
theorem pure_eq_ok {α : Type} {a b : α} : (pure a : StepM α) = .ok b ↔ a = b :=
  ⟨fun h => by cases h; rfl, fun h => by cases h; rfl⟩

@[simp]
theorem require_eq_ok {p : Prop} [Decidable p] {u : Unit} : require p = .ok u ↔ p := by
  unfold require
  split_ifs with h <;> simp [h]

@[simp]
theorem checked_eq_ok {α : Type} {x : Checked α} {a : α} : checked x = .ok a ↔ x = .ok a := by
  cases x <;> simp [checked]

@[simp]
theorem need_eq_ok {α : Type} {x : Option α} {a : α} : need x = .ok a ↔ x = some a := by
  cases x <;> simp [need]

@[simp]
theorem pure_eq_abort {α : Type} {a : α} {e : Abort} :
    (pure a : StepM α) = .error (.abort e) ↔ False := by
  constructor <;> intro h <;> cases h

@[simp]
theorem require_eq_abort {p : Prop} [Decidable p] {e : Abort} :
    require p = .error (.abort e) ↔ False := by
  unfold require
  split_ifs <;> simp

@[simp]
theorem checked_eq_abort {α : Type} {x : Checked α} {e : Abort} :
    checked x = .error (.abort e) ↔ x = .error e := by
  cases x <;> simp [checked]

@[simp]
theorem need_eq_abort {α : Type} {x : Option α} {e : Abort} :
    need x = .error (.abort e) ↔ False := by
  cases x <;> simp [need]

namespace State

variable (σ : State)

/-- Replace the caller side of submission `s`. -/
def setClient (s : SubId) (c : Client) : State :=
  { σ with clients := Function.update σ.clients s c }

/-- Put actor `a` into call `c`, or out of any. -/
def setCall (a : Actor) (c : Option Call) : State :=
  { σ with calls := Function.update σ.calls a c }

/-- Replace what the mutex of submission `s` protects. -/
def setInner (s : SubId) (st : SubmissionInner) : State := { σ with subs := σ.subs.set s st }

/-- Extend the history of submission `s`. -/
def record (s : SubId) (f : History → History) : State :=
  { σ with history := Function.update σ.history s (f (σ.history s)) }

/-- Move wakers to a wake batch. -/
def wake (ws : List Waker) : State := { σ with woken := σ.woken ++ ws }

@[simp]
theorem setClient_clients (s t : SubId) (c : Client) :
    (σ.setClient s c).clients t = if t = s then c else σ.clients t :=
  Function.update_apply ..

@[simp]
theorem setCall_calls (a b : Actor) (c : Option Call) :
    (σ.setCall a c).calls b = if b = a then c else σ.calls b :=
  Function.update_apply ..

@[simp]
theorem setInner_inner (s t : SubId) (st : SubmissionInner) :
    ((σ.setInner s st).subs t).inner = if t = s then st else (σ.subs t).inner :=
  Submissions.set_inner ..

@[simp]
theorem record_history (s t : SubId) (f : History → History) :
    (σ.record s f).history t = if t = s then f (σ.history s) else σ.history t :=
  Function.update_apply ..

/-- Whether anything holds a strong reference to submission `s`, so that upgrading a weak one
succeeds. -/
def strong (s : SubId) : Bool :=
  (σ.clients s).role.holds || (σ.calls (.client s)).isSome ||
    σ.data.contexts.any (fun _ c => c.state == s) || σ.data.cancelQueue.any (·.state == s) ||
    σ.driver.overflowed.contains s || (σ.calls .driver).any (Call.holds s) ||
    σ.owner.snapshot.contains s || (σ.calls .owner).any (Call.holds s)

/-! ### Kernel -/

/-- The kernel posts a CQE for an SQE it has consumed. -/
def kernelPost (cqe : Cqe) : StepM State := do
  let r ← need σ.ring
  let e ← need (r.inflight.find? fun e => e.userData == cqe.userData)
  require (cqe.more = true → e.body.isRaw = true)
  return { σ with
    -- A multishot SQE stays with the kernel as long as its CQEs say so.
    ring := some { r with
      cq := r.cq ++ [cqe]
      inflight := if cqe.more then r.inflight else r.inflight.erase e } }

/-! ### Callers of a submission -/

/-- `register_submission`, the first half of `submit_entries`. -/
def registerSubmission (cfg : PreparedRing) : StepM State := do
  -- Dead weak entries are pruned before the new one is added.
  require (σ.crit = none)
  let s := σ.nextSub
  return { σ with
    nextSub := s + 1
    subs := Function.update σ.subs s (.new cfg.config.maxBufferedCompletions)
    clients := Function.update σ.clients s ⟨.created, .idle, none⟩
    data := { σ.data with submissions := σ.data.submissions.filter σ.strong ++ [s] } }

/-- The rest of `submit_entries`: the lifecycle check. -/
def openSubmission (s : SubId) : StepM State := do
  require ((σ.clients s).role = .created)
  let closed := !σ.running
  -- The state is in the registry already, so a shutdown in between finds it.
  let st := (σ.subs s).inner
  return (σ.setInner s (if closed then { st with delivery := .cancelling } else st)).setClient s
    ⟨.submit ⟨none, 0, closed⟩, .idle, none⟩

/-- Owned operations or their cancellations are waiting for SQ slots. -/
def ownedWork : Bool :=
  !σ.data.ownedPending.isEmpty || !σ.data.ownedCancelQueue.isEmpty || !σ.ownedQueue.isEmpty

/-- `SubmitEntries::poll` up to taking the `data` mutex in `admit`, with the two early returns. -/
def pollSubmit (s : SubId) (w : Waker) : StepM State := do
  let c := σ.clients s
  let fut ← need c.role.fut?
  require (c.pc = .idle ∧ σ.calls (.client s) = none)
  let check := σ.setClient s { c with pc := .check w }
  -- A future made after shutdown never reaches the driver.
  if fut.closed then return check
  else
    require (σ.crit = none)
    if !σ.data.accepting then
      return check.setCall (.client s) (some (.requestCancel .close s .cancelling))
    -- Owned work goes first: admission yields, and waits to be woken by a pass.
    else if σ.ownedWork then
      return check.setCall (.client s) (some .notify)
    else
      match σ.ring with
      | none => .error (.abort .ringMissingDuringAdmission)
      | some _ =>
        -- The mutex is held from here to `endSubmit`, whatever the iterator does meanwhile.
        return { σ.setClient s { c with pc := .admitting } with
          crit := some (.admission s w false, .cancels) }

/-- The second half of `SubmitEntries::poll`: resolve, or register the admission waiter. -/
def checkSubmit (s : SubId) : StepM State := do
  let c := σ.clients s
  let fut ← need c.role.fut?
  match c.pc with
  | .check w => do
    require (σ.calls (.client s) = none)
    let st := (σ.subs s).inner
    let failure : Option SubmissionErrorKind :=
      -- Overflow is told apart from the other ways in which delivery was closed.
      if st.delivery = .overflow then some .completionBufferOverflow
      else if fut.closed = true ∨ st.delivery = .cancelling ∨ st.delivery = .detached then
        some .runtimeClosed
      else none
    match failure with
    | some kind =>
      return ((σ.setClient s ⟨.cancellation, .idle, none⟩).setCall (.client s)
        (some (.requestCancel .close s .cancelling))).record s
          fun h => { h with outcome := some (.error kind) }
    | none =>
      if st.iteratorFinished = true ∧ st.accepted = st.originals then
        return (σ.setClient s ⟨.stream, .idle, none⟩).record s
          fun h => { h with outcome := some (.ok ()) }
      else
        -- The waker goes in under the lock under which acceptance is counted.
        let st := { st with admissionWaker := replaceWaker st.admissionWaker w }
        return ((σ.setInner s st).setClient s
          ⟨c.role, .idle, some ⟨.submitEntries, w, σ.woken.length⟩⟩).setCall (.client s)
            (some .notify)
  | _ => .error .disabled

/-- Dropping an unresolved `SubmitEntries`. -/
def dropSubmit (s : SubId) : StepM State := do
  let c := σ.clients s
  let _ ← need c.role.fut?
  require (c.pc = .idle ∧ σ.calls (.client s) = none)
  return (σ.setClient s ⟨.gone, .idle, none⟩).setCall (.client s)
    (some (.requestCancel .close s .detached))

/-- The future a poll leaves behind. -/
def pendingAfter {α : Type} (result : Poll α) (future : FutureKind) (w : Waker) : Option Pending :=
  match result with
  | .ready _ => none
  | .pending => some ⟨future, w, σ.woken.length⟩

/-- `NextCompletion::poll`. -/
def pollCompletion (s : SubId) (w : Waker) : StepM State := do
  require ((σ.clients s).role = .stream)
  let y := nextCompletion w (σ.subs s).inner
  let τ := (σ.setInner s y.2).setClient s
    { σ.clients s with pend := σ.pendingAfter y.1 .nextCompletion w }
  return match y.1 with
    | .ready r => τ.record s fun h => { h with received := h.received ++ [r] }
    | .pending => τ

/-- Dropping the future borrowed from a stream or a cancellation. -/
def dropFuture (s : SubId) : StepM State := do
  require ((σ.clients s).role = .stream ∨ (σ.clients s).role = .cancellation)
  return σ.setClient s { σ.clients s with pend := none }

/-- `CompletionStream::cancel`. -/
def cancelStream (s : SubId) : StepM State := do
  require ((σ.clients s).role = .stream)
  return (σ.setClient s ⟨.cancellation, .idle, none⟩).setCall (.client s)
    (some (.requestCancel .close s .cancelling))

/-- Dropping a `CompletionStream`. -/
def dropStream (s : SubId) : StepM State := do
  require ((σ.clients s).role = .stream)
  return (σ.setClient s ⟨.gone, .idle, none⟩).setCall (.client s)
    (some (.requestCancel .close s .detached))

/-- `NextCancellation::poll`. -/
def pollCancellation (s : SubId) (w : Waker) : StepM State := do
  require ((σ.clients s).role = .cancellation ∧ σ.calls (.client s) = none)
  let y := nextCancellation w (σ.subs s).inner
  let τ := (σ.setInner s y.2).setClient s
    { σ.clients s with pend := σ.pendingAfter y.1 .nextCancellation w }
  return match y.1 with
    | .ready r => τ.record s fun h => { h with cancelReceived := h.cancelReceived ++ [r] }
    | .pending => τ

/-- `WaitDrained::poll`. -/
def pollDrained (s : SubId) (w : Waker) : StepM State := do
  require ((σ.clients s).role = .cancellation ∧ σ.calls (.client s) = none)
  let y := waitDrained w (σ.subs s).inner
  return (σ.setInner s y.2).setClient s
    { σ.clients s with pend := σ.pendingAfter y.1 .waitDrained w }

/-- Dropping a `Cancellation`. -/
def dropCancellation (s : SubId) : StepM State := do
  require ((σ.clients s).role = .cancellation ∧ σ.calls (.client s) = none)
  return (σ.setInner s (detach (σ.subs s).inner)).setClient s ⟨.gone, .idle, none⟩

/-! ### Calls in progress -/

/-- `request_cancel` under the submission lock. -/
def close (a : Actor) : StepM State :=
  match σ.calls a with
  | some (.requestCancel .close s d) =>
    .ok ((σ.setInner s (closeDelivery d (σ.subs s).inner)).setCall a
      (some (.requestCancel .sweep s d)))
  | _ => .error .disabled

/-- `request_cancel` under the `data` mutex, collecting the keys in the given order. -/
def sweep (a : Actor) (order : List Pointer) : StepM State :=
  match σ.calls a with
  | some (.requestCancel .sweep s _) => do
    require (σ.crit = none)
    require (order.Nodup ∧ order.toFinset = cancelTargets σ.data s)
    -- Only contexts whose `cancel_queued` is clear are among the targets.
    let y := cancelOriginals order s σ.data σ.subs
    let keys := (order.filterMap (cancelCommand σ.data)).map CancelCommand.key
    return (({ σ with data := y.1, subs := y.2 }).setCall a (some .notify)).record s
      fun h => { h with generated := h.generated ++ keys }
  | _ => .error .disabled

/-- The keys `request_owned_cancel` may find. -/
def ownedTargets (c : ControlId) : Finset Pointer :=
  σ.data.ownedContexts.keys.filter fun p =>
    (σ.data.ownedContexts.lookup p).any (ownedCancellable c)

/-- `request_owned_cancel` under the `data` mutex, with what `find_map` found. -/
def sweepOwned (a : Actor) (target : Option Pointer) : StepM State :=
  match σ.calls a with
  | some (.requestOwnedCancel c) => do
    require (σ.crit = none)
    match target with
    | some p => do
      require (p ∈ σ.ownedTargets c)
      return ({ σ with data := cancelOwned p σ.data }).setCall a (some .notify)
    | none => do
      require (σ.ownedTargets c = ∅)
      return σ.setCall a (some .notify)
  | _ => .error .disabled

/-- `notify`. -/
def notify (a : Actor) : StepM State :=
  match σ.calls a with
  | some .notify => do
    let y ← checked (IoUring.notify σ.gate)
    return ({ σ with
      gate := y.1
      native := σ.native ++ y.2
      tokens := σ.tokens + y.2.count NativeCall.submit }).setCall a none
  | _ => .error .disabled

/-! ### Under the `data` mutex -/

/-- The stage after `stage_cancellations`. -/
def afterCancels : Holder → Stage
  | .admission _ _ _ => .originals
  | .pass _ => .ownedCancels

/-- One iteration of `stage_cancellations`, boxing at address `p`. -/
def stageCancellation (p : Pointer) : StepM State :=
  match σ.crit with
  | some (h, .cancels) => do
    let r ← need σ.ring
    require (σ.data.Fresh p)
    let y ← checked (IoUring.stageCancellation p σ.data r)
    return { σ with
      data := y.2.1
      ring := some y.2.2
      crit := some (h, if y.1 then .cancels else afterCancels h) }
  | _ => .error .disabled

/-- One iteration of `stage_owned_cancellations`, boxing at address `p`. -/
def stageOwnedCancellation (cfg : PreparedRing) (p : Pointer) : StepM State :=
  match σ.crit with
  | some (h, .ownedCancels) => do
    let r ← need σ.ring
    require (σ.data.Fresh p)
    let y ← checked (IoUring.stageOwnedCancellation p σ.data r)
    return { σ with
      data := y.2.1
      ring := some y.2.2
      -- Nothing left, or the queue is full: the driver goes on with the operations themselves.
      crit := some (h, if y.1 then .ownedCancels else .owned cfg.config.entries) }
  | _ => .error .disabled

/-- One iteration of `stage_owned`, boxing at address `p`. -/
def stageOwned (cfg : PreparedRing) (p : Pointer) : StepM State :=
  match σ.crit with
  | some (.pass failed, .owned budget) => do
    let r ← need σ.ring
    require (σ.data.Fresh p)
    match budget with
    -- At most `entries` operations are tried in a pass.
    | 0 => return { σ with crit := some (.pass failed, .submit) }
    | budget + 1 => do
      let y ← checked (IoUring.stageOwned cfg.supported (fun c => (σ.controls c).cancelled) p
        ⟨σ.data, σ.ownedQueue, r, failed⟩)
      return { σ with
        data := y.2.data
        ownedQueue := y.2.queue
        ring := some y.2.ring
        crit := some (.pass y.2.failed, if y.1 then .owned budget else .submit) }
  | _ => .error .disabled

/-- `iterator.next()` in the loop of `admit`, when no item is pending. -/
def iteratorNext (next : Option Sqe) : StepM State :=
  match σ.crit with
  | some (.admission s w n, .originals) => do
    let c := σ.clients s
    let fut ← need c.role.fut?
    require (fut.pending = none)
    match next with
    | some entry =>
      -- The index is taken before the item is known to fit.
      if fut.nextIndex + 1 < 2 ^ 64 then
        return (σ.setClient s
          { c with
            role := .submit
              { fut with pending := some (fut.nextIndex, entry), nextIndex := fut.nextIndex + 1 }
          }).record s fun h => { h with yielded := h.yielded ++ [entry] }
      else .error (.abort .sqeIndexExhausted)
    | none =>
      -- The waiter is this very future, which is woken although it is being polled.
      let x := takeAdmission ({ (σ.subs s).inner with iteratorFinished := true }, [])
      return { (σ.setInner s x.1).wake x.2 with crit := some (.admission s w n, .submit) }
  | _ => .error .disabled

/-- The iterator panics: `admit` and the poll unwind, releasing the mutex. -/
def iteratorPanic : StepM State :=
  match σ.crit with
  | some (.admission s _ _, .originals) => do
    let c := σ.clients s
    let fut ← need c.role.fut?
    require (fut.pending = none)
    -- The mutex is poisoned, and recovered by the next owner.
    return { σ.setClient s { c with pc := .idle, pend := none } with crit := none }
  | _ => .error .disabled

/-- The rest of the loop body of `admit`, boxing the pending item at address `p`. -/
def stageOriginal (p : Pointer) : StepM State :=
  match σ.crit with
  | some (.admission s w n, .originals) => do
    let c := σ.clients s
    let fut ← need c.role.fut?
    let item ← need fut.pending
    let r ← need σ.ring
    require (σ.data.Fresh p)
    let y ← checked (IoUring.stageOriginal s p item.1 item.2 σ.data r σ.subs)
    match y with
    | .inl item =>
      -- It keeps its index, and the next poll tries it before it asks the iterator again.
      return { σ.setClient s { c with role := .submit { fut with pending := some item } } with
        crit := some (.admission s w n, .submit) }
    | .inr (data, ring, subs) =>
      return { (σ.setClient s { c with role := .submit { fut with pending := none } }).record s
          fun h => { h with staged := h.staged ++ [item] } with
        data := data
        ring := some ring
        subs := subs
        crit := some (.admission s w true, .originals) }
  | _ => .error .disabled

/-- `ring.submit()` in `submit_staged`. -/
def submit (result : SubmitResult) : StepM State :=
  match σ.crit with
  | some (h, .submit) => do
    let r ← need σ.ring
    match result with
    | .ok count => do
      require (count ≤ r.sq.length)
      -- The kernel took more than the driver has staged.
      if count > σ.data.staged.length then .error (.abort .kernelAcceptedUnstaged)
      else return { σ with crit := some (h, .accept count) }
    | .error errno =>
      -- Nothing was taken: the entries stay in the queue for the next submit.
      if isRetryable errno then return { σ with crit := some (h, .accept 0) }
      else .error (.abort .unrecoverableSubmit)
  | _ => .error .disabled

/-- Index of the original that the head of `staged` stands for. -/
def headOriginal : Option (SubId × ℕ) :=
  match σ.data.staged with
  | .raw p :: _ =>
    match σ.data.contexts.lookup p with
    | some c => if c.kind = .original then some (c.state, c.index) else none
    | none => none
  | _ => none

/-- The end of `submit_staged`: `admit` returns, or `pass` goes on to wake admission futures. -/
def endSubmit (h : Holder) : State :=
  match h with
  | .admission s w n =>
    let c := σ.clients s
    -- A full queue leaves an item behind, and the driver makes room for it.
    let again := n || (c.role.fut?.bind (·.pending)).isSome
    { (σ.setClient s { c with pc := .check w }).setCall (.client s)
        (if again then some .notify else none) with
      crit := none }
  | .pass failed =>
    { σ with
      -- Admission futures are woken only when no owned operation waits for the slots.
      crit := some (.pass failed, .admissions (if σ.ownedWork then [] else σ.data.submissions)) }

/-- What accepting the head of `staged` adds to the history of its submission. -/
def acceptHistory : SubId → History :=
  match σ.headOriginal with
  | some (s, i) =>
    Function.update σ.history s
      { σ.history s with accepted := (σ.history s).accepted ++ [i] }
  | none => σ.history

/-- Accepting a raw context is recorded when it is an original. -/
theorem acceptHistory_raw {p : Pointer} {rest : List StagedContext} {c : CqeContext}
    (hs : σ.data.staged = .raw p :: rest) (hc : σ.data.contexts.lookup p = some c) (s : SubId) :
    σ.acceptHistory s =
      if c.kind = .original ∧ s = c.state then
        { σ.history s with accepted := (σ.history s).accepted ++ [c.index] }
      else σ.history s := by
  simp only [acceptHistory, headOriginal, hs, hc]
  by_cases hk : c.kind = .original <;> by_cases hsc : s = c.state
  · subst hsc
    simp [hk]
  · simp [hk, hsc]
  · simp [hk]
  · simp [hk]

/-- Accepting an owned context is not recorded. -/
theorem acceptHistory_owned (hs : ∀ p rest, σ.data.staged ≠ .raw p :: rest) :
    σ.acceptHistory = σ.history := by
  have hnone : σ.headOriginal = none := by
    unfold headOriginal
    split
    next p rest h => exact absurd h (hs p rest)
    next => rfl
  simp only [acceptHistory, hnone]

/-- One iteration over the accepted prefix in `submit_staged`, or its end. -/
def accept : StepM State :=
  match σ.crit with
  | some (h, .accept 0) => .ok (σ.endSubmit h)
  | some (h, .accept (count + 1)) => do
    let r ← need σ.ring
    let y ← checked (acceptStaged σ.data r σ.subs)
    return { σ.wake y.2.2.2 with
      data := y.1
      ring := some y.2.1
      subs := y.2.2.1
      crit := some (h, .accept count)
      history := σ.acceptHistory }
  | _ => .error .disabled

/-- One iteration of the loop of `pass` over the weak registry, or its end. -/
def wakeAdmission : StepM State :=
  match σ.crit with
  | some (.pass failed, .admissions []) => .ok { σ with crit := none, driver := .fail failed }
  | some (.pass failed, .admissions (s :: rest)) =>
    -- `filter_map(Weak::upgrade)`: the state of a submission nobody holds is skipped.
    let x := if σ.strong s then wakeUnfinished ((σ.subs s).inner, []) else ((σ.subs s).inner, [])
    .ok { (σ.setInner s x.1).wake x.2 with crit := some (.pass failed, .admissions rest) }
  | _ => .error .disabled

/-! ### Owned operations -/

/-- `enqueue` of a new operation. -/
def enqueue (opcode : ℕ) : StepM State :=
  let c := σ.nextControl
  let τ := { σ with
    nextControl := c + 1
    controls := Function.update σ.controls c ⟨false, false, none⟩ }
  -- The handler comes back, and the future fails at once.
  if !σ.ownedAdmission then .ok { τ with ops := Function.update σ.ops c .rejected }
  else
    .ok (State.setCall
      { τ with
        ownedQueue := σ.ownedQueue ++ [⟨c, ⟨c, opcode⟩⟩]
        ops := Function.update σ.ops c .queued }
      (.op c) (some .notify))

/-- A later `OwnedOp::poll`. -/
def pollOwned (c : ControlId) (w : Waker) : StepM State := do
  require (σ.ops c = .queued ∧ σ.calls (.op c) = none)
  let k := σ.controls c
  if k.completed then return { σ with ops := Function.update σ.ops c .done }
  else
    return { σ with
      controls := Function.update σ.controls c { k with waker := replaceWaker k.waker w } }

/-- `OwnedOp::drop`: set the flag, then ask the driver. -/
def dropOwned (c : ControlId) : StepM State := do
  require (σ.ops c = .queued ∧ σ.calls (.op c) = none)
  return { σ.setCall (.op c) (some (.requestOwnedCancel c)) with
    -- The flag first: an operation still in the queue is dropped when it is staged.
    controls := Function.update σ.controls c { σ.controls c with cancelled := true }
    ops := Function.update σ.ops c .dropped }

/-- `OwnedControl::publish`. -/
def publishControl (c : ControlId) : State :=
  let k := σ.controls c
  { σ.wake k.waker.toList with
    controls := Function.update σ.controls c { k with completed := true, waker := none } }

/-! ### The driver task -/

/-- `pass` takes the `data` and ring mutexes. -/
def passBegin : StepM State := do
  require (σ.driver = .pass ∧ σ.crit = none)
  match σ.ring with
  | none => .error (.abort .ringMissingDuringSubmit)
  | some _ => return { σ with driver := .staging, crit := some (.pass [], .cancels) }

/-- One iteration of `fail_owned`, or its end. -/
def failOwned : StepM State :=
  match σ.driver with
  | .fail ((handler, reason) :: rest) =>
    .ok { σ.publishControl handler.control with
      released := σ.released ++ [(handler.control, .fail reason)]
      driver := .fail rest }
  | .fail [] => .ok { σ with driver := .reap }
  | _ => .error .disabled

/-- `pass` reads up to `reap_size` CQEs. -/
def reap (cfg : PreparedRing) : StepM State := do
  require (σ.driver = .reap ∧ σ.crit = none)
  match σ.ring with
  | none => .error (.abort .ringMissingDuringReap)
  | some r =>
    let values := r.cq.take cfg.config.reapSize
    let rest := r.cq.drop cfg.config.reapSize
    -- A full batch says nothing about what is behind it.
    let backlog := values.length == cfg.config.reapSize || !rest.isEmpty
    return { σ with
      reaped := values
      ring := some { r with cq := rest }
      driver := .dispatch backlog [] }

/-- What dispatching `cqe` adds to the history of its submission. -/
def dispatchHistory (cqe : Cqe) : SubId → History :=
  match σ.data.contexts.lookup cqe.userData with
  | none => σ.history
  | some c =>
    let completion : Completion := ⟨c.index, cqe.setUserData c.originalUserData⟩
    let st := σ.subs c.state
    let h := σ.history c.state
    Function.update σ.history c.state
      (match c.kind with
        | .original => h.dispatch (st.inner.delivery = .opened ∧ st.limit ≤ st.inner.normal.length)
            completion
        | .cancel => { h with cancelled := h.cancelled ++ [completion] })

/-- Dispatch of an original is recorded in the history of its submission. -/
theorem dispatchHistory_original {cqe : Cqe} {c : CqeContext}
    (hc : σ.data.contexts.lookup cqe.userData = some c) (hk : c.kind = .original) (s : SubId) :
    σ.dispatchHistory cqe s =
      if s = c.state then
        (σ.history s).dispatch
          ((σ.subs s).inner.delivery = .opened ∧
            (σ.subs s).limit ≤ (σ.subs s).inner.normal.length)
          ⟨c.index, cqe.setUserData c.originalUserData⟩
      else σ.history s := by
  simp only [dispatchHistory, hc, hk, Function.update_apply]
  split_ifs with h
  · rw [h]
  · rfl

/-- Dispatch of a cancellation is recorded in the history of its submission. -/
theorem dispatchHistory_cancel {cqe : Cqe} {c : CqeContext}
    (hc : σ.data.contexts.lookup cqe.userData = some c) (hk : c.kind = .cancel) (s : SubId) :
    σ.dispatchHistory cqe s =
      if s = c.state then
        { σ.history s with
          cancelled := (σ.history s).cancelled ++
            [⟨c.index, cqe.setUserData c.originalUserData⟩] }
      else σ.history s := by
  simp only [dispatchHistory, hc, hk, Function.update_apply]
  split_ifs with h
  · rw [h]
  · rfl

/-- Dispatch is recorded in the history of no other submission. -/
theorem dispatchHistory_of_ne (cqe : Cqe) {s : SubId}
    (hs : ∀ c, σ.data.contexts.lookup cqe.userData = some c → s ≠ c.state) :
    σ.dispatchHistory cqe s = σ.history s := by
  cases hc : σ.data.contexts.lookup cqe.userData with
  | none => simp only [dispatchHistory, hc]
  | some c =>
    simp only [dispatchHistory, hc]
    exact Function.update_of_ne (hs c hc) _ _

/-- Dispatch of an owned CQE is not recorded. -/
theorem dispatchHistory_owned {cqe : Cqe} (hc : σ.data.contexts.lookup cqe.userData = none) :
    σ.dispatchHistory cqe = σ.history := by
  simp only [dispatchHistory, hc]

/-- `dispatch` of the next CQE that was read, or the end of that loop. Consuming the handler of an
owned original is the call of `complete`; what it publishes is the next step. -/
def dispatch : StepM State :=
  match σ.driver, σ.reaped with
  | .dispatch backlog overflow, [] => .ok { σ with driver := .overflow overflow backlog }
  | .dispatch backlog overflow, cqe :: rest => do
    require (σ.crit = none)
    let y ← checked (IoUring.dispatch cqe σ.data σ.subs)
    let overflow := overflow ++ y.overflow.toList
    return { σ.wake y.wakes with
      data := y.data
      subs := y.subs
      history := σ.dispatchHistory cqe
      reaped := rest
      released := σ.released ++ y.handler.toList.map fun h => (h.control, .complete cqe.result)
      driver :=
        match y.handler with
        | some h => .publish h.control backlog overflow
        | none => .dispatch backlog overflow }
  | _, _ => .error .disabled

/-- `handler.complete` publishes its result. -/
def publish : StepM State :=
  match σ.driver with
  | .publish c backlog overflow =>
    .ok { σ.publishControl c with driver := .dispatch backlog overflow }
  | _ => .error .disabled

/-- `pass` cancels the next submission that overflowed, or returns. -/
def cancelOverflow : StepM State := do
  require (σ.calls .driver = none)
  match σ.driver with
  | .overflow (s :: rest) backlog =>
    return { σ.setCall .driver (some (.requestCancel .close s .overflow)) with
      driver := .overflow rest backlog }
  | .overflow [] backlog => return { σ with driver := .decide backlog }
  | _ => .error .disabled

/-- `run` chooses how to proceed. -/
def decide : StepM State := do
  require (σ.crit = none)
  match σ.driver with
  | .decide backlog =>
    match IoUring.decide σ.data backlog σ.ownedQueue.isEmpty with
    | .stop => return { σ with driver := .takeRing }
    | d => return { σ with driver := .park d }
  | _ => .error .disabled

/-- The gate phase a decision parks in. -/
def parkPhase : RunDecision → DriverPark
  | .wait => .deadlineWait
  | .pause => .paused
  | .yield | .stop => .running

/-- `run` commits to parking, or observes a notification and starts another pass. -/
def park : StepM State :=
  match σ.driver with
  | .park d =>
    -- A note left since the last park means that there may be work which this pass has not seen.
    if σ.gate.notified then
      .ok { σ with gate := { σ.gate with notified := false, phase := .running }, driver := .pass }
    else .ok { σ with gate := { σ.gate with phase := parkPhase d }, driver := .native d }
  | _ => .error .disabled

/-- The native yield, wait or pause returns; a pause consumes one submit. -/
def resume : StepM State :=
  match σ.driver with
  | .native d => do
    -- The other parks end by themselves.
    require (d = .pause → 0 < σ.tokens)
    return { σ with
      tokens := if d = .pause then σ.tokens - 1 else σ.tokens
      driver := .resumed }
  | _ => .error .disabled

/-- `run` marks itself running after a park. -/
def markRunning : StepM State := do
  require (σ.driver = .resumed)
  return { σ with gate := { σ.gate with phase := .running }, driver := .pass }

/-- `run` drops the ring. -/
def takeRing : StepM State := do
  require (σ.driver = .takeRing ∧ σ.crit = none)
  -- Closes the ring before the gate, while the descriptor is still there.
  return { σ with ring := none, driver := .closeGate }

/-- `run` marks the gate terminal and returns. -/
def closeGate : StepM State := do
  require (σ.driver = .closeGate)
  return { σ with gate := { σ.gate with phase := .terminal }, driver := .stopped }

/-- `retire` under the gate. -/
def retire : StepM State := do
  require (σ.driver = .stopped)
  -- nOS-V completes a task whose callback has returned, and no other.
  if σ.gate.phase ≠ .terminal then .error (.abort .earlyCompletion)
  else if !σ.gate.raw then .error (.abort .missingDescriptor)
  else
    return { σ with
      gate := { σ.gate with raw := false, phase := .destroyed }
      native := σ.native ++ [.destroy]
      driver := .retired }

/-- `retire` announces completion. -/
def complete : StepM State := do
  require (σ.driver = .retired)
  return { σ with completed := true, driver := .completed }

/-! ### The owner thread -/

/-- `shutdown_inner` closes the lifecycle. -/
def beginShutdown : StepM State := do
  require (σ.owner = .idle)
  return { σ with running := false }

/-- `shutdown_inner` calls `shutdown_and_wait`. -/
def shutdownAndWait : StepM State := do
  require (σ.owner = .idle ∧ σ.running = false)
  return { σ with owner := .closeAdmission }

/-- `shutdown_and_wait` closes owned admission. -/
def closeAdmission : StepM State := do
  require (σ.owner = .closeAdmission)
  return { σ with ownedAdmission := false, owner := .raiseShutdown }

/-- The owned contexts `shutdown_and_wait` collects. -/
def ownedSnapshot : Finset Pointer :=
  σ.data.ownedContexts.keys.filter fun p =>
    (σ.data.ownedContexts.lookup p).any fun c => c.phase != .terminal

/-- The critical section of `shutdown_and_wait`, with the owned contexts in the order the hash map
yielded them. -/
def raiseShutdown (order : List Pointer) : StepM State := do
  require (σ.owner = .raiseShutdown ∧ σ.crit = none)
  -- `cancel` is idempotent, so the order in which the map yields them does not matter.
  require (order.Nodup ∧ order.toFinset = σ.ownedSnapshot)
  let controls := order.filterMap fun p => (σ.data.ownedContexts.lookup p).map (·.control)
  return { σ with
    data := { σ.data with accepting := false, shutdown := true }
    -- From here on no submission gets past the check in `pollSubmit`.
    owner := .submissions (σ.data.submissions.filter σ.strong) controls }

/-- `shutdown_and_wait` cancels the next submission of its snapshot. -/
def cancelSubmission : StepM State := do
  require (σ.calls .owner = none)
  match σ.owner with
  | .submissions (s :: rest) owned =>
    -- Detached, so the wakers of a stream are dropped with its queues.
    return { σ.setCall .owner (some (.requestCancel .close s .detached)) with
      owner := .submissions rest owned }
  | .submissions [] owned => return { σ with owner := .owned owned }
  | _ => .error .disabled

/-- `shutdown_and_wait` cancels the next owned operation of its snapshot, or notifies. -/
def cancelSnapshot : StepM State := do
  require (σ.calls .owner = none)
  match σ.owner with
  | .owned (c :: rest) =>
    return { σ.setCall .owner (some (.requestOwnedCancel c)) with owner := .owned rest }
  -- Notified once more although each request has done so, for there may have been none.
  | .owned [] => return { σ.setCall .owner (some .notify) with owner := .waiting }
  | _ => .error .disabled

/-- `shutdown_and_wait` returns. -/
def awaitCompleted : StepM State := do
  require (σ.owner = .waiting ∧ σ.calls .owner = none ∧ σ.completed = true)
  return { σ with owner := .idle }

end State

/-- One atomic step of some thread or of the kernel. -/
inductive Action where
  | kernelPost (cqe : Cqe)
  | registerSubmission
  | openSubmission (s : SubId)
  | pollSubmit (s : SubId) (w : Waker)
  | checkSubmit (s : SubId)
  | dropSubmit (s : SubId)
  | pollCompletion (s : SubId) (w : Waker)
  | dropFuture (s : SubId)
  | cancelStream (s : SubId)
  | dropStream (s : SubId)
  | pollCancellation (s : SubId) (w : Waker)
  | pollDrained (s : SubId) (w : Waker)
  | dropCancellation (s : SubId)
  | close (a : Actor)
  | sweep (a : Actor) (order : List Pointer)
  | sweepOwned (a : Actor) (target : Option Pointer)
  | notify (a : Actor)
  | stageCancellation (p : Pointer)
  | stageOwnedCancellation (p : Pointer)
  | stageOwned (p : Pointer)
  | iteratorNext (next : Option Sqe)
  | iteratorPanic
  | stageOriginal (p : Pointer)
  | submit (result : SubmitResult)
  | accept
  | wakeAdmission
  | enqueue (opcode : ℕ)
  | pollOwned (c : ControlId) (w : Waker)
  | dropOwned (c : ControlId)
  | passBegin
  | failOwned
  | reap
  | dispatch
  | publish
  | cancelOverflow
  | decide
  | park
  | resume
  | markRunning
  | takeRing
  | closeGate
  | retire
  | complete
  | beginShutdown
  | shutdownAndWait
  | closeAdmission
  | raiseShutdown (order : List Pointer)
  | cancelSubmission
  | cancelSnapshot
  | awaitCompleted
  deriving DecidableEq, Repr

/-- The effect of one action. -/
def step (cfg : PreparedRing) (a : Action) (σ : State) : StepM State :=
  match a with
  | .kernelPost cqe => σ.kernelPost cqe
  | .registerSubmission => σ.registerSubmission cfg
  | .openSubmission s => σ.openSubmission s
  | .pollSubmit s w => σ.pollSubmit s w
  | .checkSubmit s => σ.checkSubmit s
  | .dropSubmit s => σ.dropSubmit s
  | .pollCompletion s w => σ.pollCompletion s w
  | .dropFuture s => σ.dropFuture s
  | .cancelStream s => σ.cancelStream s
  | .dropStream s => σ.dropStream s
  | .pollCancellation s w => σ.pollCancellation s w
  | .pollDrained s w => σ.pollDrained s w
  | .dropCancellation s => σ.dropCancellation s
  | .close a => σ.close a
  | .sweep a order => σ.sweep a order
  | .sweepOwned a target => σ.sweepOwned a target
  | .notify a => σ.notify a
  | .stageCancellation p => σ.stageCancellation p
  | .stageOwnedCancellation p => σ.stageOwnedCancellation cfg p
  | .stageOwned p => σ.stageOwned cfg p
  | .iteratorNext next => σ.iteratorNext next
  | .iteratorPanic => σ.iteratorPanic
  | .stageOriginal p => σ.stageOriginal p
  | .submit result => σ.submit result
  | .accept => σ.accept
  | .wakeAdmission => σ.wakeAdmission
  | .enqueue opcode => σ.enqueue opcode
  | .pollOwned c w => σ.pollOwned c w
  | .dropOwned c => σ.dropOwned c
  | .passBegin => σ.passBegin
  | .failOwned => σ.failOwned
  | .reap => σ.reap cfg
  | .dispatch => σ.dispatch
  | .publish => σ.publish
  | .cancelOverflow => σ.cancelOverflow
  | .decide => σ.decide
  | .park => σ.park
  | .resume => σ.resume
  | .markRunning => σ.markRunning
  | .takeRing => σ.takeRing
  | .closeGate => σ.closeGate
  | .retire => σ.retire
  | .complete => σ.complete
  | .beginShutdown => σ.beginShutdown
  | .shutdownAndWait => σ.shutdownAndWait
  | .closeAdmission => σ.closeAdmission
  | .raiseShutdown order => σ.raiseShutdown order
  | .cancelSubmission => σ.cancelSubmission
  | .cancelSnapshot => σ.cancelSnapshot
  | .awaitCompleted => σ.awaitCompleted

/-- States some interleaving reaches, by steps that each satisfy `ok`. -/
abbrev Reachable (cfg : PreparedRing) (ok : State → Action → Prop) (σ : State) : Prop :=
  Lts.Reaches (step cfg) ok (State.init cfg) σ

/-- A ring of one SQ slot that reads up to four CQEs and buffers two, for trying the model out. -/
def PreparedRing.tiny : PreparedRing := ⟨⟨1, 4, 1, 2⟩, rfl, fun _ => true⟩

end Nosv.IoUring
