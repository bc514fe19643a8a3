import Mathlib.Logic.Function.Basic
import Nosv.Ext.Finmap
import Nosv.Ext.Lts

/-!
# Data model of the ring driver

The records of `io_uring.rs`: submission state, pointer-keyed contexts, the driver data behind one
mutex, the park gate, and the ring with the kernel's side of it. `u64` pointers, `usize` counters
and `Arc` identities are natural numbers; a `Waker` is the task it wakes, so `will_wake` is
equality.
-/

namespace Nosv.IoUring

/-- A pointer-backed `user_data` value. -/
abbrev Pointer := ℕ

/-- Identity of one `Arc<SubmissionState>`. -/
abbrev SubId := ℕ

/-- Identity of one `Arc<OwnedControl>`, hence of one owned operation. -/
abbrev ControlId := ℕ

/-- A task waker, up to `will_wake`. -/
abbrev Waker := ℕ

/-! ## Configuration -/

/-- Configuration for the runtime-wide ring and its driver. -/
structure IoUringConfig where
  /-- Number of entries in the kernel submission queue. -/
  entries : ℕ
  /-- Maximum number of CQEs processed in one driver pass. -/
  reapSize : ℕ
  /-- Maximum delay between CQ polls, in nanoseconds. -/
  pollInterval : ℕ
  /-- Maximum number of undelivered CQEs retained for one submission. -/
  maxBufferedCompletions : ℕ
  deriving DecidableEq, Repr

/-- Reason an `IoUringConfig` cannot be used to construct a ring. -/
inductive InvalidIoUringConfig where
  | zeroEntries
  | entriesNotPowerOfTwo
  | zeroReapSize
  | zeroPollInterval
  | zeroCompletionBuffer
  deriving DecidableEq, Repr

/-- Validates fields required for bounded buffering and driver progress. -/
def IoUringConfig.validate (c : IoUringConfig) : Except InvalidIoUringConfig IoUringConfig :=
  if c.entries = 0 then .error .zeroEntries
  else if ¬ c.entries.isPowerOfTwo then .error .entriesNotPowerOfTwo
  else if c.reapSize = 0 then .error .zeroReapSize
  else if c.pollInterval = 0 then .error .zeroPollInterval
  else if c.maxBufferedCompletions = 0 then .error .zeroCompletionBuffer
  else .ok c

/-- What a driver is started with: a configuration that passed `validate`, and the opcode support
retained from the kernel probe. -/
structure PreparedRing where
  /-- Scheduling and buffering policy. -/
  config : IoUringConfig
  /-- The policy was validated before the ring was built. -/
  valid : config.validate = .ok config
  /-- Opcode support retained from the kernel probe. -/
  supported : ℕ → Bool

/-! ## Queue entries -/

/-- What an SQE asks for, apart from its `user_data`. -/
inductive SqeBody where
  /-- A caller's raw entry. -/
  | raw (bytes : ℕ)
  /-- `IORING_OP_ASYNC_CANCEL` of the request with the given `user_data`. -/
  | asyncCancel (target : Pointer)
  /-- The entry an owned handler builds. -/
  | owned (opcode : ℕ)
  deriving DecidableEq, Repr

/-- A submission queue entry. -/
structure Sqe where
  body : SqeBody
  userData : ℕ
  deriving DecidableEq, Repr

/-- A completion queue entry. -/
structure Cqe where
  userData : ℕ
  result : ℤ
  flags : ℕ
  deriving DecidableEq, Repr

/-- `cqueue::more`: whether `IORING_CQE_F_MORE` (bit 1) is set. -/
def Cqe.more (c : Cqe) : Bool := c.flags.testBit 1

/-- `set_user_data` of an SQE. -/
def Sqe.setUserData (e : Sqe) (v : ℕ) : Sqe := { e with userData := v }

/-- `set_user_data` of a CQE. -/
def Cqe.setUserData (c : Cqe) (v : ℕ) : Cqe := { c with userData := v }

/-- One typed CQE and the index of the SQE that produced it. -/
structure Completion where
  index : ℕ
  cqe : Cqe
  deriving DecidableEq, Repr

/-- The index and the caller's `user_data`. -/
def Completion.key (c : Completion) : ℕ × ℕ := (c.index, c.cqe.userData)

/-- Error reported in place of a buffered completion. -/
inductive CompletionError where
  | bufferOverflow
  deriving DecidableEq, Repr

/-- Reason an SQE iterator could not be fully admitted. -/
inductive SubmissionErrorKind where
  | runtimeClosed
  | completionBufferOverflow
  deriving DecidableEq, Repr

/-! ## Submissions -/

/-- Which completion queues remain visible for one submission. -/
inductive Delivery where
  /-- Original CQEs are delivered normally. -/
  | opened
  /-- Explicit cancellation has closed original-CQE delivery. -/
  | cancelling
  /-- Original-CQE buffering overflowed and cancellation was requested. -/
  | overflow
  /-- The caller dropped its capability, so no CQEs are retained. -/
  | detached
  deriving DecidableEq, Repr

/-- The counters of a submission. -/
structure Counters where
  /-- Number of original SQEs staged in the userspace SQ. -/
  originals : ℕ
  /-- Number of original SQEs accepted by the kernel. -/
  accepted : ℕ
  /-- Number of original SQEs whose CQE cleared `IORING_CQE_F_MORE`. -/
  originalTerminal : ℕ
  /-- Number of cancellation SQEs created for this submission. -/
  cancels : ℕ
  /-- Number of cancellation SQEs with a terminal CQE. -/
  cancelTerminal : ℕ
  deriving DecidableEq, Repr

/-- Mutable counters and delivery state for one submitted iterator. -/
structure SubmissionInner extends Counters where
  /-- Current caller-visible delivery mode. -/
  delivery : Delivery
  /-- Original-operation CQEs awaiting stream consumption. -/
  normal : List Completion
  /-- `AsyncCancel` CQEs awaiting cancellation-stream consumption. -/
  cancellations : List Completion
  /-- Whether an original completion overflow still needs to be reported. -/
  normalOverflow : Bool
  /-- Whether a cancellation completion overflow still needs to be reported. -/
  cancelOverflow : Bool
  /-- Whether the admission iterator has returned `None`. -/
  iteratorFinished : Bool
  /-- Task waiting for full iterator admission. -/
  admissionWaker : Option Waker
  /-- Task waiting for an original CQE or end of stream. -/
  normalWaker : Option Waker
  /-- Task waiting for a cancellation CQE or end of stream. -/
  cancelWaker : Option Waker
  /-- Task waiting for all original and cancellation contexts to retire. -/
  drainWaker : Option Waker
  deriving DecidableEq, Repr

/-- Shared state for one submitted iterator. -/
structure SubmissionState where
  inner : SubmissionInner
  /-- Maximum retained items in each delivery queue. -/
  limit : ℕ
  deriving DecidableEq, Repr

/-- Zeroed tracking state with the given per-queue delivery limit. -/
def SubmissionState.new (limit : ℕ) : SubmissionState where
  limit := limit
  inner :=
    { originals := 0, accepted := 0, originalTerminal := 0, cancels := 0, cancelTerminal := 0
      delivery := .opened, normal := [], cancellations := []
      normalOverflow := false, cancelOverflow := false, iteratorFinished := false
      admissionWaker := none, normalWaker := none, cancelWaker := none, drainWaker := none }

/-! ## Contexts -/

/-- The operation a pointer-backed CQE context represents. -/
inductive ContextKind where
  | original
  | cancel
  deriving DecidableEq, Repr

/-- Whether an SQE context is local, kernel-owned, or terminal. -/
inductive ContextPhase where
  /-- The SQE is in the userspace SQ but is not known to be submitted. -/
  | staged
  /-- The kernel accepted the SQE and may produce CQEs for it. -/
  | submitted
  /-- The context received its terminal CQE. -/
  | terminal
  deriving DecidableEq, Repr

/-- Stable allocation addressed through the SQE and CQE `user_data` fields. -/
structure CqeContext where
  kind : ContextKind
  phase : ContextPhase
  /-- Iterator index of the associated original SQE. -/
  index : ℕ
  /-- Caller `user_data` temporarily replaced by this allocation's address. -/
  originalUserData : ℕ
  /-- Submission-level queues, counts, and waiter registrations. -/
  state : SubId
  /-- Original context pointer targeted by a cancellation SQE. -/
  target : Option Pointer
  /-- Whether cancellation has been requested for an original context. -/
  cancelQueued : Bool
  /-- Whether the cancellation context targeting this original has retired. -/
  cancelSeen : Bool
  deriving DecidableEq, Repr

/-- What a completion delivered for the context identifies its SQE by. -/
def CqeContext.key (c : CqeContext) : ℕ × ℕ := (c.index, c.originalUserData)

/-- Pending request to create and stage an `AsyncCancel` SQE. -/
structure CancelCommand where
  target : Pointer
  index : ℕ
  originalUserData : ℕ
  state : SubId
  deriving DecidableEq, Repr

/-- The key of the original to be cancelled. -/
def CancelCommand.key (c : CancelCommand) : ℕ × ℕ := (c.index, c.originalUserData)

/-- The erased resources and behaviour of one owned operation. -/
structure OwnedHandler where
  /-- The operation whose result the handler stores. -/
  control : ControlId
  /-- Opcode used for retained probe validation. -/
  opcode : ℕ
  deriving DecidableEq, Repr

/-- One record in the lock-free producer queue. -/
structure QueuedOwnedOp where
  control : ControlId
  handler : OwnedHandler
  deriving DecidableEq, Repr

/-- Completion-native context retaining resources until the original CQE. -/
structure OwnedCqeContext where
  phase : ContextPhase
  control : ControlId
  /-- Operation resources, consumed by terminal completion. -/
  handler : Option OwnedHandler
  cancelQueued : Bool
  cancelSeen : Bool
  deriving DecidableEq, Repr

/-- Stable context for one completion-native `AsyncCancel` SQE. -/
structure OwnedCancelContext where
  phase : ContextPhase
  target : Pointer
  deriving DecidableEq, Repr

/-- Pending cancellation for a completion-native context. -/
structure OwnedCancelCommand where
  target : Pointer
  deriving DecidableEq, Repr

/-- A userspace SQ entry awaiting kernel acceptance. -/
inductive StagedContext where
  | raw (p : Pointer)
  | owned (p : Pointer)
  | ownedCancel (p : Pointer)
  deriving DecidableEq, Repr

/-- The context pointer of a staged entry. -/
def StagedContext.pointer : StagedContext → Pointer
  | raw p => p
  | owned p => p
  | ownedCancel p => p

/-- State serialized across all producers and the sole CQ consumer. -/
structure DriverData where
  /-- Live contexts keyed by the pointer stored in kernel `user_data`. -/
  contexts : Finmap fun _ : Pointer => CqeContext
  /-- Context pointers in SQ order not yet known to be accepted. -/
  staged : List StagedContext
  /-- Cancellation commands waiting for free SQ slots. -/
  cancelQueue : List CancelCommand
  /-- Completion-native original contexts keyed by kernel user data. -/
  ownedContexts : Finmap fun _ : Pointer => OwnedCqeContext
  /-- Completion-native cancellation contexts keyed by kernel user data. -/
  ownedCancelContexts : Finmap fun _ : Pointer => OwnedCancelContext
  /-- Records popped from UBQ but not yet staged because the SQ was full. -/
  ownedPending : List QueuedOwnedOp
  /-- Cancellation commands for staged completion-native operations. -/
  ownedCancelQueue : List OwnedCancelCommand
  /-- Weak registry used to cancel submissions during runtime shutdown. -/
  submissions : List SubId
  /-- Whether submission futures may admit more original SQEs. -/
  accepting : Bool
  /-- Whether the driver should stop once every work queue is empty. -/
  shutdown : Bool

/-- The driver data of a driver that has just been started. -/
def DriverData.new : DriverData where
  contexts := ∅
  staged := []
  cancelQueue := []
  ownedContexts := ∅
  ownedCancelContexts := ∅
  ownedPending := []
  ownedCancelQueue := []
  submissions := []
  accepting := true
  shutdown := false

/-- Cancellation and wake state shared by an owned future and its driver record. -/
structure OwnedControl where
  /-- Set by future drop before notifying the driver. -/
  cancelled : Bool
  /-- Published after the typed result has been stored. -/
  completed : Bool
  /-- Caller waiting for completion. -/
  waker : Option Waker
  deriving DecidableEq, Repr

/-- Reason a queued owned operation completed before submission. -/
inductive OwnedFailure where
  | closed
  | cancelled
  | unsupported
  deriving DecidableEq, Repr

/-! ## Ring and gate -/

/-- The kernel ring: the SQ in push order, the SQEs the kernel has accepted and not yet finished,
and the CQEs it has posted that were not read. -/
structure Ring where
  /-- Slots of the SQ. -/
  entries : ℕ
  sq : List Sqe
  inflight : List Sqe
  cq : List Cqe
  deriving DecidableEq, Repr

/-- `sq.push`: refused when every slot is taken. -/
def Ring.push (r : Ring) (e : Sqe) : Option Ring :=
  if r.sq.length < r.entries then some { r with sq := r.sq ++ [e] } else none

/-- Native scheduling state of the driver task. -/
inductive DriverPark where
  | building
  | running
  | paused
  | deadlineWait
  | wakePending
  | terminal
  | destroyed
  deriving DecidableEq, Repr

/-- Native task descriptor and lost-wakeup prevention state. -/
structure DriverGate where
  /-- Whether the gate still holds the task descriptor. -/
  raw : Bool
  phase : DriverPark
  /-- Work was announced before or while the driver tried to park. -/
  notified : Bool
  deriving DecidableEq, Repr

/-- Scheduling action selected after a driver pass. -/
inductive RunDecision where
  | stop
  | yield
  | wait
  | pause
  deriving DecidableEq, Repr

/-- A native call on the driver's descriptor. -/
inductive NativeCall where
  | submit
  | submitDeadlineWake
  | destroy
  deriving DecidableEq, Repr

/-- The `invariant_abort` calls of the driver. -/
inductive Abort where
  | ringMissingDuringAdmission
  | ringMissingDuringSubmit
  | ringMissingDuringReap
  | sqeIndexExhausted
  | allocatorReusedLivePointer
  | reusedLiveCancelPointer
  | reusedLiveOwnedCancelPointer
  | reusedLiveOwnedPointer
  | kernelAcceptedUnstaged
  | stagedRawDisappeared
  | rawSubmittedTwice
  | stagedOwnedDisappeared
  | ownedSubmittedTwice
  | stagedOwnedCancelDisappeared
  | ownedCancelSubmittedTwice
  | unrecoverableSubmit
  | nullOwnedPointer
  | unsubmittedOwned
  | multishotOwned
  | ownedHandlerCompletedTwice
  | unsubmittedOwnedCancel
  | multishotOwnedCancel
  | ownedCancelTargetDisappeared
  | unknownOwnedPointer
  | nullPointer
  | unknownPointer
  | unsubmittedContext
  | multishotCancel
  | cancelWithoutTarget
  | cancelTargetDisappeared
  | descriptorMissing
  | earlyCompletion
  | missingDescriptor
  deriving DecidableEq, Repr

/-- Outcome of code that may abort. -/
abbrev Checked := Except Abort

end Nosv.IoUring
