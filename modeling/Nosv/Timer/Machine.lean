import Mathlib.Logic.Function.Basic
import Nosv.Ext.Lts
import Nosv.Timer.Core

/-!
# The timer driver and its sleeps

The run loop of the driver is a program counter that stops wherever the loop releases or takes a
mutex. Between two of its steps any thread, user code inside a waker included, polls or drops a
`Sleep`, finishes a registration, or shuts the driver down, and the clock advances. The heap mutex
is held from the top of a pass until the pass has looked at every entry it wants to, while the state
of each entry has a mutex of its own, so that polls and drops go on in the middle of a pass.

A native park returns whenever it likes. What it is told is recorded: `wakes` are the submissions
that were made since the driver has chosen its park.

`move_of_step` and `driverMove_of_step` list what a step can do.
-/

namespace Nosv.Timer

variable {W : Type}

/-! ## State -/

/-- Where the owner of a `Sleep` is. -/
inductive SleepPc where
  /-- Between two polls. -/
  | idle
  /-- The waiter is stored, and the runtime has to be found. -/
  | binding
  /-- Inside `register`, with an identifier. -/
  | allocated (id : ℕ)
  /-- Inside `register`, with the entry in the heap. -/
  | pushed
  /-- Dropped, and the driver has to be notified. -/
  | dropping
  | dropped
  deriving DecidableEq, Repr

/-- A `Sleep` future. -/
structure Sleep (W : Type) where
  deadline : ℕ
  /-- `driver` is set: `register` has returned. -/
  bound : Bool
  pc : SleepPc
  /-- The waker of its most recent pending poll. -/
  pending : Option W

/-- Where `shutdown_and_wait` is. -/
inductive OwnerPc where
  | outside
  /-- The flag is set, and the driver has to be notified. -/
  | raised
  | waiting
  deriving DecidableEq, Repr

/-- Where the driver task is. -/
inductive Pc (W : Type) where
  /-- At the top of the loop. -/
  | scan
  /-- Cancels every timer in the heap. -/
  | draining
  /-- Pops entries that are due. -/
  | expiring (wake : List W)
  /-- Pops cancelled entries in front of the first live one. -/
  | pruning (wake : List W)
  /-- Invokes the wakers taken, outside all locks. -/
  | waking (wait : Option ℕ) (wake : List W)
  /-- Reads `shutdown` for the second time. -/
  | checking (wait : Option ℕ)
  /-- The second read has found shutdown. -/
  | terminating
  | deciding (wait : Option ℕ)
  /-- In `waitfor` or `pause`, or on the way there. -/
  | parked (wait : Option ℕ)
  /-- The native call has returned. -/
  | resumed (wait : Option ℕ)
  /-- The run callback has returned. -/
  | finished
  /-- The descriptor is destroyed. -/
  | retired
  | done
  deriving DecidableEq

/-- The driver holds the heap mutex. -/
def Pc.locked : Pc W → Bool
  | .draining | .expiring _ | .pruning _ => true
  | _ => false

/-- Wakers taken and not invoked yet. -/
def Pc.wake : Pc W → List W
  | .expiring wake | .pruning wake | .waking _ wake => wake
  | _ => []

/-- What the pass has chosen to wait for. -/
def Pc.chosen : Pc W → Option (Option ℕ)
  | .waking wait _ | .checking wait | .deciding wait | .parked wait | .resumed wait => some wait
  | _ => none

/-- The driver has popped the entry of a timer that was not cancelled. -/
structure Fire (W : Type) where
  timer : TimerId
  waiter : Option W

/-- The driver with everything it shares, and the sleeps there ever were. -/
structure State (W : Type) where
  clock : ℕ
  heap : TimerHeap
  shutdown : Bool
  nextId : ℕ
  gate : DriverGate
  completed : Bool
  pc : Pc W
  /-- What the last pass has read from the clock. -/
  pass : ℕ
  timers : TimerId → TimerState W
  sleeps : TimerId → Option (Sleep W)
  owner : OwnerPc
  /-- The entries fired by the driver. -/
  fires : List (Fire W)
  /-- The wakers it has invoked. -/
  woken : List W
  /-- What was submitted since it has chosen its park. -/
  wakes : List Wake

/-- A driver that was submitted, with no timers. -/
def State.init (raw : RawTask) : State W :=
  ⟨0, .empty, false, 1, .started raw, false, .scan, 0, fun _ => .new, fun _ => none, .outside,
    [], [], []⟩

namespace State

variable (σ : State W)

/-- Put a timer in its next state. -/
def setTimer (t : TimerId) (state : TimerState W) : State W :=
  { σ with timers := Function.update σ.timers t state }

/-- Put a sleep in its next state. -/
def setSleep (t : TimerId) (s : Sleep W) : State W :=
  { σ with sleeps := Function.update σ.sleeps t (some s) }

/-- `TimerDriver::notify` -/
def notify (submit : Status) : Except (Halt TimerAbort) (State W) :=
  match σ.gate.notify submit with
  | .error e => .error (.abort e)
  -- The submission is made under the lock of the gate.
  | .ok (gate, wake) => .ok { σ with gate := gate, wakes := σ.wakes ++ wake.toList }

end State

/-! ## Steps -/

/-- Steps of anybody. -/
inductive Action (W : Type) where
  /-- The clock advances. -/
  | tick (now : ℕ)
  /-- A `Sleep` is made. -/
  | create (timer : TimerId) (deadline : ℕ)
  | poll (timer : TimerId) (waker : W)
  /-- The first poll looks for a running runtime, and panics or takes an identifier. -/
  | bind (timer : TimerId) (running : Bool)
  /-- The critical section of `register`. -/
  | push (timer : TimerId)
  /-- The notification at the end of `register` or of drop. -/
  | notify (timer : TimerId) (submit : Status)
  | drop (timer : TimerId)
  /-- `shutdown_and_wait` sets the flag. -/
  | shutdown
  /-- It notifies the driver. -/
  | shutdownNotify (submit : Status)
  /-- It returns. -/
  | shutdownReturn
  /-- The next step of the driver task. `native` is what the native call in it returns, `choice` is
  the position of the entry that a drain yields next. -/
  | driver (native : Status) (choice : ℕ)

/-- The largest identifier aborts instead of wrapping. -/
def timerIdLimit : ℕ := 2 ^ 64 - 1

/-- The next step of the driver task: `run`, and then `retire`. -/
def driverStep (native : Status) (choice : ℕ) (σ : State W) :
    Except (Halt TimerAbort) (State W) :=
  match σ.pc with
  | .scan =>
    -- The flag is read under the lock of the heap, together with what the pass does to it.
    if σ.shutdown then .ok { σ with pc := .draining }
    else .ok { σ with pc := .expiring [], pass := σ.clock }
  | .draining =>
    if σ.heap.items = [] then .ok { σ with pc := .waking none [] }
    else
      match σ.heap.items[choice]? with
      | none => .error .disabled
      -- `BinaryHeap::drain` yields in no order, each entry is cancelled and none is woken.
      | some entry => .ok { σ.setTimer entry.timer (σ.timers entry.timer).cancel with
          heap := σ.heap.take choice }
  | .expiring wake =>
    -- Expiring, pruning and the wait are one critical section of the heap, the clock was read
    -- once.
    match σ.heap.peek with
    | none => .ok { σ with pc := .pruning wake }
    | some entry =>
      if entry.deadline ≤ σ.pass then
        let (state, waiter) := (σ.timers entry.timer).fire
        .ok { σ.setTimer entry.timer state with
          heap := σ.heap.pop
          pc := .expiring (wake ++ waiter.toList)
          -- A cancelled sleep leaves the heap, but it does not fire.
          fires := if (σ.timers entry.timer).cancelled then σ.fires
            else σ.fires ++ [⟨entry.timer, waiter⟩] }
      else .ok { σ with pc := .pruning wake }
  | .pruning wake =>
    match σ.heap.peek with
    | none => .ok { σ with pc := .waking none wake }
    -- Only cancelled entries at the top are removed, so the first live one gives the wait.
    | some entry =>
      if (σ.timers entry.timer).cancelled then .ok { σ with heap := σ.heap.pop }
      -- `saturating_duration_since`
      else .ok { σ with pc := .waking (some (entry.deadline - σ.pass)) wake }
  | .waking wait [] => .ok { σ with pc := .checking wait }
  -- The wakers run without the lock.
  | .waking wait (waiter :: wake) =>
    .ok { σ with pc := .waking wait wake, woken := σ.woken ++ [waiter] }
  -- Shutdown may have been raised while the wakers ran.
  | .checking wait => .ok { σ with pc := if σ.shutdown then .terminating else .deciding wait }
  | .terminating => .ok { σ with gate := { σ.gate with phase := .terminal }, pc := .finished }
  | .deciding wait =>
    -- The gate parks only if no notification came since the last pass.
    let (gate, parks) := σ.gate.choose wait
    if parks then .ok { σ with gate := gate, pc := .parked wait, wakes := [] }
    else .ok { σ with gate := gate, pc := .scan }
  | .parked wait =>
    match native with
    -- A failing `nosv_pause` or `nosv_waitfor` aborts the process.
    | .error _ => .error (.abort .parkFailed)
    | .ok () => .ok { σ with pc := .resumed wait }
  -- The phase is reset, a notification that woke the driver stays recorded.
  | .resumed _ => .ok { σ with gate := { σ.gate with phase := .running }, pc := .scan }
  | .finished =>
    match σ.gate.retire native with
    | .error e => .error (.abort e)
    | .ok gate => .ok { σ with gate := gate, pc := .retired }
  | .retired => .ok { σ with completed := true, pc := .done }
  | .done => .error .disabled

/-- The next state. -/
def step [DecidableEq W] : Action W → State W → Except (Halt TimerAbort) (State W)
  | .tick now, σ => if σ.clock ≤ now then .ok { σ with clock := now } else .error .disabled
  | .create t deadline, σ =>
    match σ.sleeps t with
    | some _ => .error .disabled
    | none => .ok ((σ.setTimer t .new).setSleep t ⟨deadline, false, .idle, none⟩)
  | .poll t waker, σ =>
    match σ.sleeps t with
    | none => .error .disabled
    | some s =>
      -- `&mut Sleep`: a sleep is in one poll or drop at a time.
      if s.pc = .idle then
        let (state, ready) := (σ.timers t).poll σ.clock s.deadline waker
        if ready then .ok (σ.setTimer t state)
        else .ok ((σ.setTimer t state).setSleep t
          -- The waiter is registered before the runtime is looked for.
          { s with pending := some waker, pc := if s.bound then .idle else .binding })
      else .error .disabled
  | .bind t running, σ =>
    match σ.sleeps t with
    | none => .error .disabled
    | some s =>
      if s.pc = .binding then
        if running then
          if σ.nextId = timerIdLimit then .error (.abort .idsExhausted)
          else .ok { σ.setSleep t { s with pc := .allocated σ.nextId } with
            nextId := σ.nextId + 1 }
        -- `Handle::current` panics, and the sleep stays unregistered.
        else .ok (σ.setSleep t { s with pc := .idle })
      else .error .disabled
  | .push t, σ =>
    match σ.sleeps t with
    | none => .error .disabled
    | some s =>
      match s.pc, σ.pc.locked with
      | .allocated id, false =>
        -- After shutdown the sleep is cancelled instead: nobody will wake it.
        if σ.shutdown then
          .ok ((σ.setTimer t (σ.timers t).cancel).setSleep t { s with bound := true, pc := .idle })
        else .ok { σ.setSleep t { s with pc := .pushed } with
          heap := σ.heap.push ⟨s.deadline, id, t⟩ }
      | _, _ => .error .disabled
  | .notify t submit, σ =>
    match σ.sleeps t with
    | none => .error .disabled
    | some s =>
      match s.pc with
      | .pushed => (σ.setSleep t { s with bound := true, pc := .idle }).notify submit
      | .dropping => (σ.setSleep t { s with pc := .dropped }).notify submit
      | _ => .error .disabled
  | .drop t, σ =>
    match σ.sleeps t with
    | none => .error .disabled
    | some s =>
      if s.pc = .idle then
        -- Dropping takes no lock of the heap, the entry is removed by a later pass.
        .ok ((σ.setTimer t (σ.timers t).cancel).setSleep t
          { s with pc := if s.bound then .dropping else .dropped })
      else .error .disabled
  | .shutdown, σ =>
    match σ.owner, σ.pc.locked with
    | .outside, false => .ok { σ with shutdown := true, owner := .raised }
    | _, _ => .error .disabled
  | .shutdownNotify submit, σ =>
    match σ.owner with
    -- The flag goes up before the driver is notified.
    | .raised => { σ with owner := .waiting }.notify submit
    | _ => .error .disabled
  | .shutdownReturn, σ =>
    match σ.owner, σ.completed with
    | .waiting, true => .ok { σ with owner := .outside }
    | _, _ => .error .disabled
  | .driver native choice, σ => driverStep native choice σ

/-! ## What a step can do -/

/-- One successful step of the driver task, by cases. -/
inductive DriverMove (σ : State W) : State W → Prop
  | scanShutdown (hpc : σ.pc = .scan) (hshutdown : σ.shutdown = true) :
      DriverMove σ { σ with pc := .draining }
  | scan (hpc : σ.pc = .scan) (hshutdown : σ.shutdown = false) :
      DriverMove σ { σ with pc := .expiring [], pass := σ.clock }
  | drained (hpc : σ.pc = .draining) (hempty : σ.heap.items = []) :
      DriverMove σ { σ with pc := .waking none [] }
  | drain {entry : TimerEntry} {i : ℕ} (hpc : σ.pc = .draining)
      (hentry : σ.heap.items[i]? = some entry) :
      DriverMove σ { σ.setTimer entry.timer (σ.timers entry.timer).cancel with
        heap := σ.heap.take i }
  | skip {entry : TimerEntry} {wake : List W} (hpc : σ.pc = .expiring wake)
      (hpeek : σ.heap.peek = some entry) (hdue : entry.deadline ≤ σ.pass)
      (hcancelled : (σ.timers entry.timer).cancelled = true) :
      DriverMove σ { σ with heap := σ.heap.pop }
  | fire {entry : TimerEntry} {wake : List W} (hpc : σ.pc = .expiring wake)
      (hpeek : σ.heap.peek = some entry) (hdue : entry.deadline ≤ σ.pass)
      (hcancelled : (σ.timers entry.timer).cancelled = false) :
      DriverMove σ
        { σ.setTimer entry.timer { σ.timers entry.timer with fired := true, waiter := none } with
          heap := σ.heap.pop
          pc := .expiring (wake ++ (σ.timers entry.timer).waiter.toList)
          fires := σ.fires ++ [⟨entry.timer, (σ.timers entry.timer).waiter⟩] }
  | expired {wake : List W} (hpc : σ.pc = .expiring wake)
      (hlate : ∀ entry ∈ σ.heap, σ.pass < entry.deadline) :
      DriverMove σ { σ with pc := .pruning wake }
  | prune {entry : TimerEntry} {wake : List W} (hpc : σ.pc = .pruning wake)
      (hpeek : σ.heap.peek = some entry)
      (hcancelled : (σ.timers entry.timer).cancelled = true) :
      DriverMove σ { σ with heap := σ.heap.pop }
  | pruned {wait : Option ℕ} {wake : List W} (hpc : σ.pc = .pruning wake)
      (hwait : wait = σ.heap.peek.map (·.deadline - σ.pass)) :
      DriverMove σ { σ with pc := .waking wait wake }
  | wake {wait : Option ℕ} {waiter : W} {wake : List W}
      (hpc : σ.pc = .waking wait (waiter :: wake)) :
      DriverMove σ { σ with pc := .waking wait wake, woken := σ.woken ++ [waiter] }
  | woken {wait : Option ℕ} (hpc : σ.pc = .waking wait []) :
      DriverMove σ { σ with pc := .checking wait }
  | checkShutdown {wait : Option ℕ} (hpc : σ.pc = .checking wait) (hshutdown : σ.shutdown = true) :
      DriverMove σ { σ with pc := .terminating }
  | check {wait : Option ℕ} (hpc : σ.pc = .checking wait) (hshutdown : σ.shutdown = false) :
      DriverMove σ { σ with pc := .deciding wait }
  | terminate (hpc : σ.pc = .terminating) :
      DriverMove σ { σ with gate := { σ.gate with phase := .terminal }, pc := .finished }
  | decideNotified {wait : Option ℕ} (hpc : σ.pc = .deciding wait)
      (hnotified : σ.gate.notified = true) :
      DriverMove σ
        { σ with gate := { σ.gate with notified := false, phase := .running }, pc := .scan }
  | park {wait : Option ℕ} (hpc : σ.pc = .deciding wait) (hnotified : σ.gate.notified = false) :
      DriverMove σ
        { σ with gate := { σ.gate with phase := .ofWait wait }, pc := .parked wait, wakes := [] }
  | unpark {wait : Option ℕ} (hpc : σ.pc = .parked wait) :
      DriverMove σ { σ with pc := .resumed wait }
  | resume {wait : Option ℕ} (hpc : σ.pc = .resumed wait) :
      DriverMove σ { σ with gate := { σ.gate with phase := .running }, pc := .scan }
  | retire (hpc : σ.pc = .finished) (hphase : σ.gate.phase = .terminal) :
      DriverMove σ
        { σ with gate := { σ.gate with raw := none, phase := .destroyed }, pc := .retired }
  | complete (hpc : σ.pc = .retired) : DriverMove σ { σ with completed := true, pc := .done }

/-- The state after a notification. -/
def State.noted (σ : State W) : State W :=
  { σ with gate := σ.gate.noted, wakes := σ.wakes ++ σ.gate.phase.wake.toList }

/-- One successful step, by cases. -/
inductive Move (σ : State W) : Action W → State W → Prop
  | tick {now : ℕ} (hle : σ.clock ≤ now) : Move σ (.tick now) { σ with clock := now }
  | create {t : TimerId} {deadline : ℕ} (hs : σ.sleeps t = none) :
      Move σ (.create t deadline)
        ((σ.setTimer t .new).setSleep t ⟨deadline, false, .idle, none⟩)
  | pollReady {t : TimerId} {waker : W} {s : Sleep W} (hs : σ.sleeps t = some s)
      (hpc : s.pc = .idle) (hready : (σ.timers t).fired = true ∨ s.deadline ≤ σ.clock) :
      Move σ (.poll t waker) (σ.setTimer t { σ.timers t with fired := true })
  | pollPending {t : TimerId} {waker : W} {s : Sleep W} (hs : σ.sleeps t = some s)
      (hpc : s.pc = .idle) (hready : ¬((σ.timers t).fired = true ∨ s.deadline ≤ σ.clock)) :
      Move σ (.poll t waker)
        ((σ.setTimer t { σ.timers t with waiter := some waker }).setSleep t
          { s with pending := some waker, pc := if s.bound then .idle else .binding })
  | bind {t : TimerId} {s : Sleep W} (hs : σ.sleeps t = some s) (hpc : s.pc = .binding) :
      Move σ (.bind t true)
        { σ.setSleep t { s with pc := .allocated σ.nextId } with nextId := σ.nextId + 1 }
  | bindPanic {t : TimerId} {s : Sleep W} (hs : σ.sleeps t = some s) (hpc : s.pc = .binding) :
      Move σ (.bind t false) (σ.setSleep t { s with pc := .idle })
  | push {t : TimerId} {s : Sleep W} {id : ℕ} (hs : σ.sleeps t = some s)
      (hpc : s.pc = .allocated id) (hlock : σ.pc.locked = false)
      (hshutdown : σ.shutdown = false) :
      Move σ (.push t)
        { σ.setSleep t { s with pc := .pushed } with heap := σ.heap.push ⟨s.deadline, id, t⟩ }
  | pushClosed {t : TimerId} {s : Sleep W} {id : ℕ} (hs : σ.sleeps t = some s)
      (hpc : s.pc = .allocated id) (hlock : σ.pc.locked = false)
      (hshutdown : σ.shutdown = true) :
      Move σ (.push t)
        ((σ.setTimer t (σ.timers t).cancel).setSleep t { s with bound := true, pc := .idle })
  | notifyPushed {t : TimerId} {s : Sleep W} {submit : Status} (hs : σ.sleeps t = some s)
      (hpc : s.pc = .pushed) :
      Move σ (.notify t submit) (σ.setSleep t { s with bound := true, pc := .idle }).noted
  | notifyDropped {t : TimerId} {s : Sleep W} {submit : Status} (hs : σ.sleeps t = some s)
      (hpc : s.pc = .dropping) :
      Move σ (.notify t submit) (σ.setSleep t { s with pc := .dropped }).noted
  | drop {t : TimerId} {s : Sleep W} (hs : σ.sleeps t = some s) (hpc : s.pc = .idle) :
      Move σ (.drop t)
        ((σ.setTimer t (σ.timers t).cancel).setSleep t
          { s with pc := if s.bound then .dropping else .dropped })
  | shutdown (howner : σ.owner = .outside) (hlock : σ.pc.locked = false) :
      Move σ .shutdown { σ with shutdown := true, owner := .raised }
  | shutdownNotify {submit : Status} (howner : σ.owner = .raised) :
      Move σ (.shutdownNotify submit) { σ with owner := .waiting : State W }.noted
  | shutdownReturn (howner : σ.owner = .waiting) (hcompleted : σ.completed = true) :
      Move σ .shutdownReturn { σ with owner := .outside }
  | driver {native : Status} {choice : ℕ} {τ : State W} (hm : DriverMove σ τ) :
      Move σ (.driver native choice) τ

section Move

variable {σ τ : State W} {a : Action W}

/-- Every successful step of the driver task is one of the moves. -/
theorem driverMove_of_step {native : Status} {choice : ℕ}
    (h : driverStep native choice σ = .ok τ) : DriverMove σ τ := by
  unfold driverStep at h
  split at h
  -- The statements of `run`, in the order of its program counter.
  next hpc =>
    split at h
    next hshutdown =>
      cases h
      exact .scanShutdown hpc hshutdown
    next hshutdown =>
      cases h
      exact .scan hpc (by simpa using hshutdown)
  next hpc =>
    split at h
    next hempty =>
      cases h
      exact .drained hpc hempty
    next =>
      split at h
      next => cases h
      next entry hentry =>
        cases h
        exact .drain hpc hentry
  -- An entry that is due is fired, or skipped when its state was cancelled meanwhile.
  next wake hpc =>
    split at h
    next hpeek =>
      cases h
      refine .expired hpc fun entry hentry => ?_
      rw [← SortedHeap.mem_items, SortedHeap.peek_eq_none.mp hpeek] at hentry
      cases hentry
    next entry hpeek =>
      split at h
      next hdue =>
        unfold TimerState.fire at h
        cases hc : (σ.timers entry.timer).cancelled with
        | true =>
          simp only [hc, if_true, Option.toList_none, List.append_nil, Except.ok.injEq] at h
          subst h
          have hmove := DriverMove.skip hpc hpeek hdue hc
          simpa [State.setTimer, ← hpc] using hmove
        | false =>
          simp only [hc, Bool.false_eq_true, if_false, Except.ok.injEq] at h
          subst h
          have hmove := DriverMove.fire hpc hpeek hdue hc
          simpa [State.setTimer, hc] using hmove
      next hdue =>
        cases h
        refine .expired hpc fun other hother => ?_
        exact (Nat.lt_of_not_le hdue).trans_le (deadline_le_of_peek hpeek hother)
  -- Cancelled entries are pruned from the top of the heap only.
  next wake hpc =>
    split at h
    next hpeek =>
      cases h
      exact .pruned hpc (by rw [hpeek]; rfl)
    next entry hpeek =>
      split at h
      next hcancelled =>
        cases h
        exact .prune hpc hpeek hcancelled
      next =>
        cases h
        exact .pruned hpc (by rw [hpeek]; rfl)
  next wait hpc =>
    cases h
    exact .woken hpc
  next wait waiter wake hpc =>
    cases h
    exact .wake hpc
  next wait hpc =>
    cases h
    split
    next hshutdown => exact .checkShutdown hpc hshutdown
    next hshutdown => exact .check hpc (by simpa using hshutdown)
  next hpc =>
    cases h
    exact .terminate hpc
  -- The gate decides on the park, unless it was notified.
  next wait hpc =>
    unfold DriverGate.choose at h
    cases hnotified : σ.gate.notified with
    | true =>
      simp only [hnotified, if_true, Bool.false_eq_true, if_false, Except.ok.injEq] at h
      subst h
      exact .decideNotified hpc hnotified
    | false =>
      simp only [hnotified, Bool.false_eq_true, if_false, if_true, Except.ok.injEq] at h
      subst h
      have hmove := DriverMove.park hpc hnotified
      simpa [hnotified] using hmove
  next wait hpc =>
    split at h
    next => cases h
    next =>
      cases h
      exact .unpark hpc
  next wait hpc =>
    cases h
    exact .resume hpc
  next hpc =>
    split at h
    next => cases h
    next gate hgate =>
      cases h
      unfold DriverGate.retire at hgate
      split at hgate
      next => cases hgate
      next hphase =>
        split at hgate
        · cases hgate
        · cases hgate
        · cases hgate
          exact .retire hpc (not_not.mp hphase)
  next hpc =>
    cases h
    exact .complete hpc
  next => cases h

/-- What a notification leaves of the state. -/
theorem State.notify_eq {submit : Status} (h : σ.notify submit = .ok τ) : τ = σ.noted := by
  unfold State.notify at h
  split at h
  next => cases h
  next gate wake hgate =>
    cases h
    obtain ⟨rfl, rfl⟩ := DriverGate.notify_cases hgate
    rfl

/-- Every successful step is one of the moves. -/
theorem move_of_step [DecidableEq W] (h : step a σ = .ok τ) : Move σ a τ := by
  cases a with
  | tick now =>
    simp only [step] at h
    split at h
    next hle =>
      cases h
      exact .tick hle
    next => cases h
  | create t deadline =>
    simp only [step] at h
    split at h
    next => cases h
    next hs =>
      cases h
      exact .create hs
  | poll t waker =>
    simp only [step] at h
    split at h
    next => cases h
    next s hs =>
      split at h
      next hpc =>
        -- A poll resolves when the timer has fired, or when the clock has passed the deadline.
        by_cases hready : (σ.timers t).fired = true ∨ s.deadline ≤ σ.clock
        · rw [TimerState.poll_ready hready] at h
          cases h
          exact .pollReady hs hpc hready
        · rw [TimerState.poll_pending hready] at h
          cases h
          exact .pollPending hs hpc hready
      next => cases h
  | bind t running =>
    simp only [step] at h
    split at h
    next => cases h
    next s hs =>
      split at h
      next hpc =>
        cases running with
        | true =>
          simp only [if_true] at h
          split at h
          next => cases h
          next =>
            cases h
            exact .bind hs hpc
        | false =>
          cases h
          exact .bindPanic hs hpc
      next => cases h
  | push t =>
    simp only [step] at h
    split at h
    next => cases h
    next s hs =>
      split at h
      next id hpc hlock =>
        -- A sleep that comes after shutdown is dropped instead of pushed.
        split at h
        next hshutdown =>
          cases h
          exact .pushClosed hs hpc hlock hshutdown
        next hshutdown =>
          cases h
          exact .push hs hpc hlock (by simpa using hshutdown)
      next => cases h
  | notify t submit =>
    simp only [step] at h
    split at h
    next => cases h
    next s hs =>
      split at h
      next hpc =>
        rw [State.notify_eq h]
        exact .notifyPushed hs hpc
      next hpc =>
        rw [State.notify_eq h]
        exact .notifyDropped hs hpc
      next => cases h
  | drop t =>
    simp only [step] at h
    split at h
    next => cases h
    next s hs =>
      split at h
      next hpc =>
        cases h
        exact .drop hs hpc
      next => cases h
  | shutdown =>
    simp only [step] at h
    split at h
    next howner hlock =>
      cases h
      exact .shutdown howner hlock
    next => cases h
  | shutdownNotify submit =>
    simp only [step] at h
    split at h
    next howner =>
      rw [State.notify_eq h]
      exact .shutdownNotify howner
    next => cases h
  | shutdownReturn =>
    simp only [step] at h
    split at h
    next howner hcompleted =>
      cases h
      exact .shutdownReturn howner hcompleted
    next => cases h
  | driver native choice => exact .driver (driverMove_of_step h)

end Move

end Nosv.Timer
