import Mathlib.Algebra.Group.Nat.Defs
import Mathlib.Tactic.SplitIfs
import Nosv.Ext.SortedHeap
import Nosv.Native

/-!
# Timers, their heap and the park gate

`TimerState`, `TimerEntry` and `DriverGate` of `time.rs` without their mutexes: every function below
is one critical section, with the results of the native calls it makes as arguments. Instants and
durations are natural numbers, instants counted from the origin of the monotonic clock. Wakers are
of any type `W`, two of which are equal when `will_wake` says so.

`notify_cases` and `deadline_le_of_peek` are what later modules use of gate and heap.
-/

namespace Nosv.Timer

/-- Which allocation a `Sleep` shares with the driver. -/
abbrev TimerId := ℕ

/-- Reasons the process aborts. -/
inductive TimerAbort where
  | idsExhausted
  | descriptorMissing
  | wakeRejected
  | parkFailed
  | completedEarly
  | destroyFailed
  deriving DecidableEq, Repr

/-! ## The shared state of a timer -/

section TimerState

variable {W : Type}

/-- State shared by a `Sleep` and the timer driver. -/
structure TimerState (W : Type) where
  /-- The deadline has been observed and completion may be returned. -/
  fired : Bool
  /-- Dropping the future made the heap entry stale. -/
  cancelled : Bool
  /-- Most recent async task waiting for this timer. -/
  waiter : Option W

/-- Nobody has polled the timer. -/
def TimerState.new : TimerState W := ⟨false, false, none⟩

/-- The critical section of `Sleep::poll`, and whether the poll is ready. -/
def TimerState.poll [DecidableEq W] (now deadline : ℕ) (waker : W) (state : TimerState W) :
    TimerState W × Bool :=
  if state.fired = true ∨ deadline ≤ now then ({ state with fired := true }, true)
  else if state.waiter = some waker then (state, false)
  else ({ state with waiter := some waker }, false)

/-- The driver pops the entry of a timer: what it takes to wake. -/
def TimerState.fire (state : TimerState W) : TimerState W × Option W :=
  if state.cancelled then (state, none)
  else ({ state with fired := true, waiter := none }, state.waiter)

/-- Drop of the `Sleep`, a shutdown pass, or registration after shutdown. -/
def TimerState.cancel (state : TimerState W) : TimerState W :=
  { state with cancelled := true, waiter := none }

variable [DecidableEq W] {state : TimerState W} {now deadline : ℕ} {waker : W}

/-- A poll is ready when the timer has fired or the clock has reached the deadline. -/
theorem TimerState.poll_ready (h : state.fired = true ∨ deadline ≤ now) :
    state.poll now deadline waker = ({ state with fired := true }, true) :=
  if_pos h

/-- A poll that is not ready makes the task that polls the waiter. -/
theorem TimerState.poll_pending (h : ¬(state.fired = true ∨ deadline ≤ now)) :
    state.poll now deadline waker = ({ state with waiter := some waker }, false) := by
  unfold TimerState.poll
  rw [if_neg h]
  split
  next hw => rw [← hw]
  next => rfl

end TimerState

/-! ## The heap -/

/-- Heap record of a timer. -/
structure TimerEntry where
  deadline : ℕ
  /-- Tie-breaker that gives otherwise equal deadlines a total order. -/
  id : ℕ
  timer : TimerId
  deriving DecidableEq, Repr

/-- The reverse of `TimerEntry::cmp`: a `BinaryHeap` pops the greatest element first. -/
def TimerEntry.before (a b : TimerEntry) : Prop :=
  a.deadline < b.deadline ∨ (a.deadline = b.deadline ∧ a.id ≤ b.id)

instance : DecidableRel TimerEntry.before := fun _ _ => inferInstanceAs (Decidable (_ ∨ _))

instance : Std.Total TimerEntry.before where
  total a b := by
    unfold TimerEntry.before
    omega

instance : IsTrans TimerEntry TimerEntry.before where
  trans a b c hab hbc := by
    unfold TimerEntry.before at *
    omega

/-- What comes first is not due later. -/
theorem TimerEntry.before.deadline_le {a b : TimerEntry} (h : a.before b) :
    a.deadline ≤ b.deadline :=
  h.elim Nat.le_of_lt fun h => Nat.le_of_eq h.1

/-- Minimum-deadline heap. -/
abbrev TimerHeap := SortedHeap TimerEntry.before

/-- Nothing in the heap is due before its first entry. -/
theorem deadline_le_of_peek {heap : TimerHeap} {entry other : TimerEntry}
    (hpeek : heap.peek = some entry) (hother : other ∈ heap) : entry.deadline ≤ other.deadline := by
  rcases SortedHeap.peek_first hpeek hother with rfl | hbefore
  · exact le_rfl
  · exact hbefore.deadline_le

/-! ## The park gate -/

/-- Callback or park phase of the timer driver. -/
inductive DriverPark where
  /-- Descriptor initialization is incomplete. -/
  | building
  /-- The callback is inspecting timers or invoking wakers. -/
  | running
  /-- The callback is parked with no deadline. -/
  | paused
  /-- The callback is parked in a relative deadline wait. -/
  | deadlineWait
  /-- A submit has been issued to interrupt the current park operation. -/
  | wakePending
  /-- The run callback returned without parking again. -/
  | terminal
  /-- The completed callback destroyed the descriptor. -/
  | destroyed
  deriving DecidableEq, Repr

/-- Descriptor state serialized across parking, notification and retirement. -/
structure DriverGate where
  raw : Option RawTask
  phase : DriverPark
  /-- New work arrived and must be observed before the next park. -/
  notified : Bool
  deriving DecidableEq, Repr

/-- The two ways to submit the driver again. -/
inductive Wake where
  | submit
  | deadlineWake
  deriving DecidableEq, Repr

/-- The submission that interrupts a park. -/
def DriverPark.wake : DriverPark → Option Wake
  | .paused => some .submit
  | .deadlineWait => some .deadlineWake
  | .running | .wakePending | .building | .terminal | .destroyed => none

/-- The phase of the park chosen for a wait. -/
def DriverPark.ofWait (wait : Option ℕ) : DriverPark :=
  if wait.isSome then .deadlineWait else .paused

namespace DriverGate

/-- The gate after `start` has submitted the driver. -/
def started (raw : RawTask) : DriverGate := ⟨some raw, .running, false⟩

/-- Records pending driver work and interrupts a native park when necessary. -/
def notify (submit : Status) (gate : DriverGate) : Except TimerAbort (DriverGate × Option Wake) :=
  let gate := { gate with notified := true }
  match gate.phase.wake with
  | none => .ok (gate, none)
  | some wake =>
    match gate.raw, submit with
    | none, _ => .error .descriptorMissing
    | some _, .error _ => .error .wakeRejected
    | some _, .ok () => .ok ({ gate with phase := .wakePending }, some wake)

/-- The decision of the driver loop, and whether it parks. -/
def choose (wait : Option ℕ) (gate : DriverGate) : DriverGate × Bool :=
  if gate.notified then ({ gate with notified := false, phase := .running }, false)
  else ({ gate with phase := .ofWait wait }, true)

/-- The first part of `retire`: destroys the terminal descriptor. -/
def retire (destroy : Status) (gate : DriverGate) : Except TimerAbort DriverGate :=
  if gate.phase ≠ .terminal then .error .completedEarly
  else
    match gate.raw, destroy with
    | none, _ => .error .descriptorMissing
    | some _, .error _ => .error .destroyFailed
    | some _, .ok () => .ok { gate with raw := none, phase := .destroyed }

/-- The gate after a notification. -/
def noted (gate : DriverGate) : DriverGate :=
  { gate with
    notified := true
    phase := if gate.phase.wake.isSome then .wakePending else gate.phase }

variable {gate gate' : DriverGate} {submit : Status} {wake : Option Wake}

/-- What a notification leaves: the note, and a wake if the driver was parked. -/
theorem notify_cases (h : gate.notify submit = .ok (gate', wake)) :
    wake = gate.phase.wake ∧ gate' = gate.noted := by
  unfold noted
  unfold notify at h
  dsimp only at h
  split at h
  next hwake =>
    cases h
    simp [hwake]
  next hwake =>
    split at h
    · cases h
    · cases h
    · cases h
      simp [hwake]

end DriverGate

end Nosv.Timer
