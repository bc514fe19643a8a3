import Mathlib.Data.Nat.Basic
import Mathlib.Logic.Function.Basic
import Mathlib.Tactic.SplitIfs
import Nosv.Ext.Lts
import Nosv.Native

/-!
# The root future

`try_block_on` polls a root future on the attached owner thread and pauses between two polls. Its
waker is a `Parker`, whose gate lets one submission through for each poll epoch and none once it is
closed. Clones of the waker outlive the call, so the machine keeps the parkers of all calls that
were ever made, and any thread may wake any of them between two steps of the owner thread.

A successful pause consumes one submission, and returns only when there is one.

* `invariant_of_reachable`: parkers and owner thread agree in every reachable state;
* `blockOn_correct`: no wake is lost, doubled or submitted late, and every return detaches.
-/

namespace Nosv.BlockOn

/-! ## The parker -/

/-- Which `Parker`. Each call that attaches makes one. -/
abbrev ParkerId := ℕ

/-- Mutable state protected by the mutex of a `Parker`. -/
structure ParkerGate where
  /-- Implicit external task returned by `nosv_attach`. -/
  raw : RawTask
  /-- Process generation used to reject fork-inherited wakers. -/
  pid : Pid
  /-- Whether wake is still allowed to submit the attached descriptor. -/
  live : Bool
  /-- Whether this poll epoch already has a native wake in flight. -/
  wakeSubmitted : Bool
  deriving DecidableEq, Repr

namespace ParkerGate

/-- The gate of a parker just made. -/
def new (raw : RawTask) (pid : Pid) : ParkerGate := ⟨raw, pid, true, true⟩

/-- Opens a new poll epoch. -/
def beginPoll (gate : ParkerGate) : ParkerGate := { gate with wakeSubmitted := false }

/-- Makes late wakers no-ops. -/
def close (gate : ParkerGate) : ParkerGate := { gate with live := false }

/-- `wake_by_ref` in process `here`: the gate, and whether the descriptor was submitted. `none`
means that the process aborts. -/
def wakeByRef (here : Pid) (submit : Status) (gate : ParkerGate) : Option (ParkerGate × Bool) :=
  if gate.pid ≠ here then some (gate, false)
  else if gate.live = false ∨ gate.wakeSubmitted = true then some (gate, false)
  else
    match submit with
    | .ok () => some ({ gate with wakeSubmitted := true }, true)
    | .error _ => none

variable {here : Pid} {submit : Status} {gate gate' : ParkerGate} {issued : Bool}

/-- A wake leaves the gate alone, or submits and closes the epoch. -/
theorem wakeByRef_cases (h : gate.wakeByRef here submit = some (gate', issued)) :
    (gate' = gate ∧ issued = false ∧
      (gate.pid = here → gate.live = true → gate.wakeSubmitted = true)) ∨
    (gate.pid = here ∧ gate.live = true ∧ gate.wakeSubmitted = false ∧
      gate' = { gate with wakeSubmitted := true } ∧ issued = true) := by
  unfold wakeByRef at h
  split_ifs at h with hpid hgate
  · cases h
    exact .inl ⟨rfl, rfl, fun he => absurd he hpid⟩
  · cases h
    exact .inl ⟨rfl, rfl, fun _ hlive => hgate.resolve_left (by simp [hlive])⟩
  · simp only [not_or, Bool.not_eq_true, Bool.not_eq_false] at hgate
    cases submit with
    | ok =>
      cases h
      exact .inr ⟨not_not.mp hpid, hgate.1, hgate.2, rfl, rfl⟩
    | error => cases h

end ParkerGate

/-! ## State -/

/-- Why a root future could not be driven. -/
inductive BlockOnError where
  | wrongThread
  | forkedProcess
  | runtimeClosed
  | alreadyInTask
  | nested
  | native (error : NativeError)
  deriving DecidableEq, Repr

/-- What one poll of the root future does. -/
inductive Polled where
  | pending
  | ready
  | panicked
  deriving DecidableEq, Repr

/-- How the loop of `try_block_on` was left. -/
inductive Driven where
  | ready
  | failed (error : NativeError)
  | panicked
  deriving DecidableEq, Repr

/-- How a call of `try_block_on` ended. -/
inductive Outcome where
  | returned (result : Except BlockOnError Unit)
  /-- The panic of the root future is resumed. -/
  | panicked

/-- The end of `try_block_on`, given what `ffi::detach` returns. -/
def Driven.outcome (detached : Status) : Driven → Outcome
  | .ready =>
    match detached with
    | .ok () => .returned (.ok ())
    | .error e => .returned (.error (.native e))
  | .failed e => .returned (.error (.native e))
  | .panicked => .panicked

/-- A `Handle`, up to the runtime it belongs to. -/
abbrev HandleId := ℕ

/-- Where the owner thread is in `try_block_on`. -/
inductive Pc where
  | outside
  /-- At the top of the loop. -/
  | opening
  | polling
  | pausing
  /-- The loop was left, and the parker has to be closed. -/
  | closing (driven : Driven)
  /-- The thread-local values have to be restored. -/
  | leaving (driven : Driven)
  | detaching (driven : Driven)
  deriving DecidableEq, Repr

/-- What happened to a parker, for specification only. -/
inductive Event where
  | attach
  | submit
  /-- A pause returned successfully. -/
  | pause
  | close
  | detach
  deriving DecidableEq, Repr

/-- The owner thread, with the parkers of all its calls. -/
structure State where
  /-- `IN_BLOCK_ON` -/
  inBlockOn : Bool
  /-- `CURRENT` -/
  current : Option HandleId
  /-- What `CURRENT` held before this call. -/
  previous : Option HandleId
  pc : Pc
  /-- How many parkers there are; the last one is that of the call in progress. -/
  made : ℕ
  gates : ParkerId → ParkerGate
  /-- Submissions of a parker not consumed by a pause. -/
  tokens : ParkerId → ℕ
  events : ParkerId → List Event
  /-- The parker of the call in progress was woken since its last `begin_poll`. -/
  woken : Bool
  outcomes : List Outcome

/-- A thread outside any call, with the given current handle. -/
def State.init (current : Option HandleId) : State :=
  ⟨false, current, none, .outside, 0, fun _ => .new 0 0, fun _ => 0, fun _ => [], false, []⟩

namespace State

variable (σ : State)

/-- The parker of the call in progress. -/
def parker : ParkerId := σ.made - 1

/-- Put a parker in its next state, after the given events. -/
def setGate (k : ParkerId) (gate : ParkerGate) (events : List Event) : State :=
  { σ with
    gates := Function.update σ.gates k gate
    events := Function.update σ.events k (σ.events k ++ events) }

end State

/-! ## Steps -/

/-- Steps of the owner thread, and wakes by any thread. -/
inductive Action where
  /-- `try_block_on` up to the making of its parker; `running` says what the lifecycle is, `inTask`
  whether `ffi::current` finds a task. -/
  | blockOn (owner running inTask : Bool) (attach : Except NativeError RawTask)
  | beginPoll
  | poll (result : Polled)
  | pause (native : Status)
  | close
  /-- The guard of the current handle is dropped and `IN_BLOCK_ON` reset. -/
  | leave
  | detach (native : Status)
  /-- A clone of the waker of a parker is woken. -/
  | wake (k : ParkerId) (submit : Status)

/-- The only reason to abort: an attached thread's wake was rejected. -/
inductive BlockOnAbort where
  | wakeRejected
  deriving DecidableEq, Repr

/-- The calls that return before they attach. -/
def refuse (pid here : Pid) (owner running inTask inBlockOn : Bool) : Option BlockOnError :=
  if owner = false then some .wrongThread
  else if pid ≠ here then some .forkedProcess
  else if running = false then some .runtimeClosed
  else if inTask = true then some .alreadyInTask
  else if inBlockOn = true then some .nested
  else none

/-- The next state. The runtime was built in process `pid`, has the given handle, and is used in
process `here`. -/
def step (pid here : Pid) (handle : HandleId) :
    Action → State → Except (Halt BlockOnAbort) State
  | .blockOn owner running inTask attach, σ =>
    -- The checks come before the attach, so a refused call leaves no trace.
    match refuse pid here owner running inTask σ.inBlockOn with
    | some error => .ok { σ with outcomes := σ.outcomes ++ [.returned (.error error)] }
    | none =>
      match σ.pc, attach with
      | .outside, .error e =>
        .ok { σ with outcomes := σ.outcomes ++ [.returned (.error (.native e))] }
      | .outside, .ok raw =>
        -- The parker is made before the thread-local values are set.
        .ok { σ.setGate σ.made (.new raw pid) [.attach] with
          inBlockOn := true
          current := some handle
          previous := σ.current
          pc := .opening
          made := σ.made + 1 }
      | _, _ => .error .disabled
  | .beginPoll, σ =>
    match σ.pc with
    | .opening =>
      -- `begin_poll` clears the flag, the submission it stands for was consumed by the pause.
      .ok { σ.setGate σ.parker (σ.gates σ.parker).beginPoll [] with
        pc := .polling
        woken := false }
    | _ => .error .disabled
  | .poll result, σ =>
    match σ.pc with
    | .polling =>
      .ok { σ with
        pc :=
          match result with
          | .pending => .pausing
          | .ready => .closing .ready
          | .panicked => .closing .panicked }
    | _ => .error .disabled
  | .pause native, σ =>
    match σ.pc, native with
    -- The error is returned, and the guards run as after a result.
    | .pausing, .error e => .ok { σ with pc := .closing (.failed e) }
    | .pausing, .ok () =>
      -- A pause consumes one submission, and blocks until there is one.
      if 0 < σ.tokens σ.parker then
        .ok { σ.setGate σ.parker (σ.gates σ.parker) [.pause] with
          tokens := Function.update σ.tokens σ.parker (σ.tokens σ.parker - 1)
          pc := .opening }
      else .error .disabled
    | _, _ => .error .disabled
  | .close, σ =>
    match σ.pc with
    | .closing driven =>
      -- The guards are dropped in the reverse order of their making.
      .ok { σ.setGate σ.parker (σ.gates σ.parker).close [.close] with pc := .leaving driven }
    | _ => .error .disabled
  | .leave, σ =>
    match σ.pc with
    | .leaving driven =>
      .ok { σ with
        current := σ.previous
        previous := none
        inBlockOn := false
        pc := .detaching driven }
    | _ => .error .disabled
  | .detach native, σ =>
    match σ.pc with
    | .detaching driven =>
      .ok { σ.setGate σ.parker (σ.gates σ.parker) [.detach] with
        pc := .outside
        -- The result of the native detach is reported only when nothing worse happened.
        outcomes := σ.outcomes ++ [driven.outcome native] }
    | _ => .error .disabled
  | .wake k submit, σ =>
    if k < σ.made then
      -- Any thread may hold a clone of the waker, also of a parker whose call is over.
      match (σ.gates k).wakeByRef here submit with
      | none => .error (.abort .wakeRejected)
      | some (gate, issued) =>
        .ok { σ.setGate k gate (if issued then [.submit] else []) with
          tokens := Function.update σ.tokens k (σ.tokens k + issued.toNat)
          woken := if k = σ.parker then true else σ.woken }
    else .error .disabled

/-! ## What a step can do -/

/-- The parker of a call in progress still lets wakes through. -/
def Pc.driving : Pc → Bool
  | .opening | .polling | .pausing | .closing _ => true
  | .outside | .leaving _ | .detaching _ => false

/-- The thread-local values are those of a call in progress. -/
def Pc.entered : Pc → Bool
  | .opening | .polling | .pausing | .closing _ | .leaving _ => true
  | .outside | .detaching _ => false

/-- One constructor for each step that is enabled. -/
inductive Move (pid here : Pid) (handle : HandleId) (σ : State) : State → Prop
  | refused (outcome : Outcome) :
      Move pid here handle σ { σ with outcomes := σ.outcomes ++ [outcome] }
  | attached (raw : RawTask) (hpid : pid = here) (hin : σ.inBlockOn = false)
      (hpc : σ.pc = .outside) :
      Move pid here handle σ { σ.setGate σ.made (.new raw pid) [.attach] with
        inBlockOn := true
        current := some handle
        previous := σ.current
        pc := .opening
        made := σ.made + 1 }
  | opened (hpc : σ.pc = .opening) :
      Move pid here handle σ { σ.setGate σ.parker (σ.gates σ.parker).beginPoll [] with
        pc := .polling
        woken := false }
  | pended (hpc : σ.pc = .polling) : Move pid here handle σ { σ with pc := .pausing }
  | ended (driven : Driven) (hpc : σ.pc = .polling ∨ σ.pc = .pausing) :
      Move pid here handle σ { σ with pc := .closing driven }
  | resumed (hpc : σ.pc = .pausing) (htoken : 0 < σ.tokens σ.parker) :
      Move pid here handle σ { σ.setGate σ.parker (σ.gates σ.parker) [.pause] with
        tokens := Function.update σ.tokens σ.parker (σ.tokens σ.parker - 1)
        pc := .opening }
  | closed (driven : Driven) (hpc : σ.pc = .closing driven) :
      Move pid here handle σ
        { σ.setGate σ.parker (σ.gates σ.parker).close [.close] with pc := .leaving driven }
  | left (driven : Driven) (hpc : σ.pc = .leaving driven) :
      Move pid here handle σ { σ with
        current := σ.previous
        previous := none
        inBlockOn := false
        pc := .detaching driven }
  | detached (driven : Driven) (hpc : σ.pc = .detaching driven) (outcomes : List Outcome) :
      Move pid here handle σ { σ.setGate σ.parker (σ.gates σ.parker) [.detach] with
        pc := .outside
        outcomes := outcomes }
  | coalesced (k : ParkerId) (hk : k < σ.made)
      (hgate : (σ.gates k).pid = here → (σ.gates k).live = true →
        (σ.gates k).wakeSubmitted = true) :
      Move pid here handle σ { σ with woken := if k = σ.parker then true else σ.woken }
  | submitted (k : ParkerId) (hk : k < σ.made) (hlive : (σ.gates k).live = true)
      (hgate : (σ.gates k).wakeSubmitted = false) :
      Move pid here handle σ
        { σ.setGate k { σ.gates k with wakeSubmitted := true } [.submit] with
          tokens := Function.update σ.tokens k (σ.tokens k + 1)
          woken := if k = σ.parker then true else σ.woken }

section Move

variable {pid here : Pid} {handle : HandleId} {σ τ : State} {a : Action}

/-- A call that is not refused is one in the right process and not nested. -/
theorem refuse_eq_none {owner running inTask inBlockOn : Bool}
    (h : refuse pid here owner running inTask inBlockOn = none) :
    pid = here ∧ inBlockOn = false := by
  unfold refuse at h
  split_ifs at h with _ hpid _ _ hin
  exact ⟨not_not.mp hpid, Bool.not_eq_true _ ▸ hin⟩

/-- Every step is one of the moves. -/
theorem Move.of_step (h : step pid here handle a σ = .ok τ) : Move pid here handle σ τ := by
  cases a with
  | blockOn owner running inTask attach =>
    simp only [step] at h
    split at h
    · cases h
      exact .refused _
    · next hrefuse =>
      obtain ⟨hpid, hin⟩ := refuse_eq_none hrefuse
      split at h
      · cases h
        exact .refused _
      · next hpc =>
        cases h
        exact .attached _ hpid hin hpc
      · cases h
  | beginPoll =>
    simp only [step] at h
    split at h
    · next hpc =>
      cases h
      exact .opened hpc
    · cases h
  | poll result =>
    simp only [step] at h
    split at h
    · next hpc =>
      cases h
      cases result with
      | pending => exact .pended hpc
      | ready => exact .ended .ready (.inl hpc)
      | panicked => exact .ended .panicked (.inl hpc)
    · cases h
  | pause native =>
    simp only [step] at h
    split at h
    · next hpc =>
      cases h
      exact .ended _ (.inr hpc)
    · next hpc =>
      split_ifs at h with htoken
      cases h
      exact .resumed hpc htoken
    · cases h
  | close =>
    simp only [step] at h
    split at h
    · next hpc =>
      cases h
      exact .closed _ hpc
    · cases h
  | leave =>
    simp only [step] at h
    split at h
    · next hpc =>
      cases h
      exact .left _ hpc
    · cases h
  | detach native =>
    simp only [step] at h
    split at h
    · next hpc =>
      cases h
      exact .detached _ hpc _
    · cases h
  | wake k submit =>
    by_cases hk : k < σ.made
    · simp only [step, if_pos hk] at h
      split at h
      · cases h
      · next hwake =>
        cases h
        -- A wake is coalesced, or submits.
        rcases ParkerGate.wakeByRef_cases hwake with
          ⟨rfl, rfl, hgate⟩ | ⟨-, hlive, hws, rfl, rfl⟩
        · simpa [State.setGate] using Move.coalesced k hk hgate
        · exact .submitted k hk hlive hws
    · rw [step, if_neg hk] at h
      cases h

end Move

/-! ## One parker -/

/-- Everything but submissions and pauses. -/
def Event.bracket : Event → Bool
  | .attach | .close | .detach => true
  | .submit | .pause => false

/-- The brackets of a parker whose call is at the given place. -/
def Pc.brackets : Pc → List Event
  | .opening | .polling | .pausing | .closing _ => [.attach]
  | .leaving _ | .detaching _ => [.attach, .close]
  | .outside => [.attach, .close, .detach]

/-- A parker whose call is at `pc`. While the parker is driven its flag says whether a submission
is outstanding, except between a pause and the next epoch, where the flag is still set. -/
structure Parked (pid : Pid) (pc : Pc) (gate : ParkerGate) (tokens : ℕ)
    (events : List Event) : Prop where
  pid_eq : gate.pid = pid
  count : events.count .submit = events.count .pause + tokens
  le_one : tokens ≤ 1
  live : gate.live = pc.driving
  opening : pc = .opening → tokens = 0 ∧ gate.wakeSubmitted = true
  owed : pc.driving = true → pc ≠ .opening → tokens = gate.wakeSubmitted.toNat
  brackets : events.filter Event.bracket = pc.brackets
  late : events.Pairwise fun a b => a = .close → b ≠ .submit

namespace Parked

variable {pid : Pid} {pc pc' : Pc} {gate : ParkerGate} {tokens : ℕ} {events : List Event}
  {driven : Driven}

/-- The parker of a call that has just attached. -/
theorem new (raw : RawTask) : Parked pid .opening (.new raw pid) 0 [.attach] :=
  ⟨rfl, rfl, by decide, rfl, fun _ => ⟨rfl, rfl⟩, fun _ h => absurd rfl h, rfl, by simp⟩

/-- A driven parker has not been closed. -/
theorem not_closed (h : Parked pid pc gate tokens events) (hpc : pc.driving = true) :
    Event.close ∉ events := by
  intro hmem
  have hclose : Event.close ∈ pc.brackets := h.brackets ▸ List.mem_filter.mpr ⟨hmem, rfl⟩
  cases pc <;> simp [Pc.driving, Pc.brackets] at hpc hclose

/-- An event that is no submission may come at any time. -/
theorem late_append {event : Event} (h : Parked pid pc gate tokens events)
    (hevent : event ≠ .submit ∨ pc.driving = true) :
    (events ++ [event]).Pairwise fun a b => a = .close → b ≠ .submit := by
  refine List.pairwise_append.mpr ⟨h.late, List.pairwise_singleton _ _, fun a ha b hb hclose => ?_⟩
  rcases hevent with hne | hdriving
  · rwa [List.mem_singleton.mp hb]
  · exact absurd (hclose ▸ ha) (h.not_closed hdriving)

/-- The flag of a new epoch is clear, and nothing is outstanding. -/
theorem beginPoll (h : Parked pid .opening gate tokens events) :
    Parked pid .polling gate.beginPoll tokens (events ++ []) := by
  obtain ⟨htokens, -⟩ := h.opening rfl
  rw [List.append_nil]
  exact ⟨h.pid_eq, h.count, h.le_one, h.live, nofun, fun _ _ => htokens, h.brackets, h.late⟩

/-- A step from the poll or the pause that stays in the call. -/
theorem goto (h : Parked pid pc gate tokens events) (hpc : pc = .polling ∨ pc = .pausing)
    (hpc' : pc' = .pausing ∨ ∃ driven, pc' = .closing driven) :
    Parked pid pc' gate tokens events := by
  have howed : tokens = gate.wakeSubmitted.toNat := by
    rcases hpc with rfl | rfl <;> exact h.owed rfl (by simp)
  have hlive : gate.live = true := by rcases hpc with rfl | rfl <;> exact h.live
  have hbrackets : events.filter Event.bracket = [.attach] := by
    rcases hpc with rfl | rfl <;> exact h.brackets
  obtain rfl | ⟨driven, rfl⟩ := hpc' <;>
    exact ⟨h.pid_eq, h.count, h.le_one, hlive, nofun, fun _ _ => howed, hbrackets, h.late⟩

/-- A pause takes the one submission that is outstanding; the flag stays set. -/
theorem pause (h : Parked pid .pausing gate tokens events) (htokens : 0 < tokens) :
    Parked pid .opening gate (tokens - 1) (events ++ [.pause]) := by
  have howed := h.owed rfl (by simp)
  have hws : gate.wakeSubmitted = true := by
    cases hws : gate.wakeSubmitted with
    | true => rfl
    | false =>
      rw [hws, Bool.toNat_false] at howed
      omega
  have hle := h.le_one
  refine ⟨h.pid_eq, ?_, by omega, h.live, fun _ => ⟨by omega, hws⟩, fun _ hne => absurd rfl hne,
    ?_, h.late_append (.inl (by simp))⟩
  · have hcount := h.count
    simp only [List.count_append, List.count_singleton, beq_iff_eq, reduceCtorEq, if_false,
      if_true]
    omega
  · rw [List.filter_append, h.brackets]
    rfl

/-- After this no wake gets through. -/
theorem close (h : Parked pid (.closing driven) gate tokens events) :
    Parked pid (.leaving driven) gate.close tokens (events ++ [.close]) := by
  refine ⟨h.pid_eq, ?_, h.le_one, rfl, nofun, nofun, ?_, h.late_append (.inl (by simp))⟩
  · simpa using h.count
  · rw [List.filter_append, h.brackets]
    rfl

/-- The thread-local values are none of the parker's business. -/
theorem leave (h : Parked pid (.leaving driven) gate tokens events) :
    Parked pid (.detaching driven) gate tokens events :=
  ⟨h.pid_eq, h.count, h.le_one, h.live, nofun, nofun, h.brackets, h.late⟩

/-- The end of a call. -/
theorem detach (h : Parked pid (.detaching driven) gate tokens events) :
    Parked pid .outside gate tokens (events ++ [.detach]) := by
  refine ⟨h.pid_eq, ?_, h.le_one, h.live, nofun, nofun, ?_, h.late_append (.inl (by simp))⟩
  · simpa using h.count
  · rw [List.filter_append, h.brackets]
    rfl

/-- A wake that gets through is the only submission outstanding. -/
theorem submit (h : Parked pid pc gate tokens events) (hlive : gate.live = true)
    (hws : gate.wakeSubmitted = false) :
    Parked pid pc { gate with wakeSubmitted := true } (tokens + 1) (events ++ [.submit]) := by
  have hdriving : pc.driving = true := h.live ▸ hlive
  have hne : pc ≠ .opening := fun hpc => by simp [(h.opening hpc).2] at hws
  have htokens : tokens = 0 := by simpa [hws] using h.owed hdriving hne
  subst htokens
  refine ⟨h.pid_eq, ?_, Nat.le_refl _, h.live, fun hpc => absurd hpc hne, fun _ _ => rfl, ?_,
    h.late_append (.inr hdriving)⟩
  · simpa using h.count
  · rw [List.filter_append, h.brackets]
    exact List.append_nil _

end Parked

/-! ## All parkers and the owner thread -/

/-- Where the call of a parker is. -/
def State.stage (σ : State) (k : ParkerId) : Pc :=
  if k + 1 = σ.made then σ.pc else .outside

/-- Every parker is in its place, and the numbers not given out are unused. -/
structure Parkers (pid : Pid) (σ : State) : Prop where
  made : ∀ k < σ.made, Parked pid (σ.stage k) (σ.gates k) (σ.tokens k) (σ.events k)
  unmade : ∀ k, σ.made ≤ k → σ.tokens k = 0 ∧ σ.events k = []

/-- The owner thread: what its thread-local values are, and that it is in a call only after its
process was checked. -/
structure Owner (pid here : Pid) (current : Option HandleId) (σ : State) : Prop where
  call : σ.pc ≠ .outside → 0 < σ.made ∧ pid = here
  inBlockOn : σ.inBlockOn = σ.pc.entered
  entered : σ.pc.entered = true → σ.previous = current
  left : σ.pc.entered = false → σ.current = current
  woken : σ.pc = .polling ∨ σ.pc = .pausing → σ.woken = true →
    (σ.gates σ.parker).wakeSubmitted = true

section Invariant

variable {pid here : Pid} {handle : HandleId} {current : Option HandleId} {σ τ : State}
  {k : ParkerId}

/-- In a call, the last parker is that of the call. -/
theorem Parkers.parker (h : Parkers pid σ) (hmade : 0 < σ.made) :
    Parked pid σ.pc (σ.gates σ.parker) (σ.tokens σ.parker) (σ.events σ.parker) := by
  have hstage : σ.stage σ.parker = σ.pc := if_pos (Nat.sub_add_cancel hmade)
  exact hstage ▸ h.made σ.parker (Nat.sub_lt hmade Nat.one_pos)

/-- Only the parker of the call moves. -/
theorem Parkers.moveParker (h : Parkers pid σ) (hpos : 0 < σ.made)
    (hmade : τ.made = σ.made)
    (hrest : ∀ k, k ≠ σ.parker → τ.gates k = σ.gates k ∧ τ.tokens k = σ.tokens k ∧
      τ.events k = σ.events k)
    (hparker : Parked pid τ.pc (τ.gates σ.parker) (τ.tokens σ.parker) (τ.events σ.parker)) :
    Parkers pid τ := by
  have hlast : σ.parker + 1 = σ.made := Nat.sub_add_cancel hpos
  -- The parker of the call is the last one, and every other belongs to a call that is over.
  constructor
  · intro k hk
    by_cases hkp : k = σ.parker
    · have hstage : τ.stage σ.parker = τ.pc := if_pos (hlast.trans hmade.symm)
      rw [hkp, hstage]
      exact hparker
    · obtain ⟨hgates, htokens, hevents⟩ := hrest k hkp
      have hne : k + 1 ≠ σ.made := fun he => hkp (Nat.succ.inj (he.trans hlast.symm))
      have hstage : τ.stage k = σ.stage k := by
        rw [State.stage, State.stage, hmade, if_neg hne, if_neg hne]
      rw [hgates, htokens, hevents, hstage]
      exact h.made k (hmade ▸ hk)
  · intro k hk
    have hlt : σ.parker < k :=
      Nat.lt_of_lt_of_le (Nat.lt_of_lt_of_eq (Nat.lt_succ_self _) hlast) (hmade ▸ hk)
    obtain ⟨-, htokens, hevents⟩ := hrest k (Nat.ne_of_gt hlt)
    rw [htokens, hevents]
    exact h.unmade k (hmade ▸ hk)

/-- One parker is put in its next state; the place of the call may change with it. -/
theorem Parkers.setGate (h : Parkers pid σ) (hpos : 0 < σ.made) {pc : Pc} {gate : ParkerGate}
    {tokens : ℕ} {events : List Event} (hmade : τ.made = σ.made) (hpc : τ.pc = pc)
    (hgates : τ.gates = Function.update σ.gates σ.parker gate)
    (htokens : τ.tokens = Function.update σ.tokens σ.parker tokens)
    (hevents : τ.events = Function.update σ.events σ.parker events)
    (hparker : Parked pid pc gate tokens events) : Parkers pid τ := by
  refine h.moveParker hpos hmade (fun k hk => ?_) ?_
  · simp [hgates, htokens, hevents, hk]
  · simpa [hgates, htokens, hevents, hpc] using hparker

/-- Nothing but the place of the call changes. -/
theorem Parkers.goto (h : Parkers pid σ) (hpos : 0 < σ.made) (hmade : τ.made = σ.made)
    (hgates : τ.gates = σ.gates) (htokens : τ.tokens = σ.tokens) (hevents : τ.events = σ.events)
    (hparker : Parked pid τ.pc (σ.gates σ.parker) (σ.tokens σ.parker) (σ.events σ.parker)) :
    Parkers pid τ :=
  h.moveParker hpos hmade (fun _ _ => ⟨congrFun hgates _, congrFun htokens _, congrFun hevents _⟩)
    (hgates ▸ htokens ▸ hevents ▸ hparker)

/-- Every step keeps every parker in its place. -/
theorem Parkers.step (h : Parkers pid σ) (ho : Owner pid here current σ)
    (hmove : Move pid here handle σ τ) : Parkers pid τ := by
  cases hmove with
  | refused => exact ⟨h.made, h.unmade⟩
  | attached raw hpid hin hpc =>
    -- The number is a fresh one.
    obtain ⟨htokens, hevents⟩ := h.unmade σ.made le_rfl
    constructor
    · intro k hk
      by_cases hlast : k = σ.made
      · subst hlast
        simpa [State.stage, State.setGate, htokens, hevents] using Parked.new raw
      · have hlt : k < σ.made := lt_of_le_of_ne (Nat.le_of_lt_succ hk) hlast
        simpa [State.stage, State.setGate, hlast, hpc] using h.made k hlt
    · intro k hk
      have hne : k ≠ σ.made := Nat.ne_of_gt (Nat.lt_of_succ_le hk)
      simpa [State.setGate, hne] using h.unmade k (Nat.le_of_succ_le hk)
  | opened hpc =>
    have hpos := (ho.call (by simp [hpc])).1
    have hp := hpc ▸ h.parker hpos
    exact h.setGate hpos rfl rfl rfl (Function.update_eq_self _ _).symm rfl hp.beginPoll
  | pended hpc =>
    have hpos := (ho.call (by simp [hpc])).1
    exact h.goto hpos rfl rfl rfl rfl ((h.parker hpos).goto (.inl hpc) (.inl rfl))
  | ended driven hpc =>
    have hpos := (ho.call (by rcases hpc with hpc | hpc <;> simp [hpc])).1
    exact h.goto hpos rfl rfl rfl rfl ((h.parker hpos).goto hpc (.inr ⟨driven, rfl⟩))
  | resumed hpc htoken =>
    have hpos := (ho.call (by simp [hpc])).1
    have hp := hpc ▸ h.parker hpos
    exact h.setGate hpos rfl rfl rfl rfl rfl (hp.pause htoken)
  | closed driven hpc =>
    have hpos := (ho.call (by simp [hpc])).1
    have hp := hpc ▸ h.parker hpos
    exact h.setGate hpos rfl rfl rfl (Function.update_eq_self _ _).symm rfl hp.close
  | left driven hpc =>
    have hpos := (ho.call (by simp [hpc])).1
    have hp := hpc ▸ h.parker hpos
    exact h.goto hpos rfl rfl rfl rfl hp.leave
  | detached driven hpc outcomes =>
    have hpos := (ho.call (by simp [hpc])).1
    have hp := hpc ▸ h.parker hpos
    refine h.setGate hpos rfl rfl rfl (Function.update_eq_self _ _).symm rfl hp.detach
  | coalesced => exact ⟨h.made, h.unmade⟩
  | submitted k hk hlive hws =>
    constructor
    · -- The wake may be one of an earlier call, whose parker keeps its place.
      intro k' hk'
      by_cases hkk : k' = k
      · subst hkk
        show Parked pid (σ.stage k') _ _ _
        simpa [State.setGate] using (h.made k' hk).submit hlive hws
      · show Parked pid (σ.stage k') _ _ _
        simpa [State.setGate, hkk] using h.made k' hk'
    · intro k' hk'
      have hne : k' ≠ k := Nat.ne_of_gt (lt_of_lt_of_le hk hk')
      simpa [State.setGate, hne] using h.unmade k' hk'

/-- Every step keeps the thread-local values right, and remembers a wake. -/
theorem Owner.step (h : Owner pid here current σ) (hp : Parkers pid σ)
    (hmove : Move pid here handle σ τ) : Owner pid here current τ := by
  obtain ⟨hcall, hin, hentered, hleft, hwoken⟩ := h
  cases hmove with
  | refused => exact ⟨hcall, hin, hentered, hleft, hwoken⟩
  | attached raw hpid hnot hpc =>
    exact ⟨fun _ => ⟨Nat.succ_pos _, hpid⟩, rfl, fun _ => hleft (by rw [hpc]; rfl), nofun, nofun⟩
  | opened hpc =>
    exact ⟨fun _ => hcall (by simp [hpc]), hin.trans (by rw [hpc]; rfl),
      fun _ => hentered (by rw [hpc]; rfl), nofun, nofun⟩
  -- A poll that returned pending may have been woken meanwhile.
  | pended hpc =>
    exact ⟨fun _ => hcall (by simp [hpc]), hin.trans (by rw [hpc]; rfl),
      fun _ => hentered (by rw [hpc]; rfl), nofun, fun _ => hwoken (.inl hpc)⟩
  | ended driven hpc =>
    have hpc' : σ.pc.entered = true ∧ σ.pc ≠ .outside := by
      rcases hpc with hpc | hpc <;> simp [hpc, Pc.entered]
    exact ⟨fun _ => hcall hpc'.2, hin.trans hpc'.1, fun _ => hentered hpc'.1, nofun, nofun⟩
  | resumed hpc =>
    exact ⟨fun _ => hcall (by simp [hpc]), hin.trans (by rw [hpc]; rfl),
      fun _ => hentered (by rw [hpc]; rfl), nofun, nofun⟩
  | closed driven hpc =>
    exact ⟨fun _ => hcall (by simp [hpc]), hin.trans (by rw [hpc]; rfl),
      fun _ => hentered (by rw [hpc]; rfl), nofun, nofun⟩
  | left driven hpc =>
    exact ⟨fun _ => hcall (by simp [hpc]), rfl, nofun, fun _ => hentered (by rw [hpc]; rfl), nofun⟩
  | detached driven hpc =>
    exact ⟨nofun, hin.trans (by rw [hpc]; rfl), nofun, fun _ => hleft (by rw [hpc]; rfl), nofun⟩
  | coalesced k hk hgate =>
    refine ⟨hcall, hin, hentered, hleft, fun (hpc : σ.pc = _ ∨ σ.pc = _) hw => ?_⟩
    by_cases hkp : k = σ.parker
    · -- the parker is live and of this process, so the flag was set when the wake came
      obtain ⟨hpos, hpid⟩ := hcall (by rcases hpc with hpc | hpc <;> simp [hpc])
      have hparker := hp.parker hpos
      have hlive : (σ.gates σ.parker).live = true := by
        rw [hparker.live]
        rcases hpc with hpc | hpc <;> rw [hpc] <;> rfl
      exact (hkp ▸ hgate) (hparker.pid_eq.trans hpid) hlive
    · exact hwoken hpc (by simpa [hkp] using hw)
  -- A wake that is submitted leaves its mark in the gate.
  | submitted k hk hlive hws =>
    refine ⟨hcall, hin, hentered, hleft, fun (hpc : σ.pc = _ ∨ σ.pc = _) hw => ?_⟩
    by_cases hkp : σ.parker = k
    · subst hkp
      simp [State.setGate, State.parker]
    · have hw' : σ.woken = true := by simpa [Ne.symm hkp] using hw
      show (Function.update σ.gates k _ σ.parker).wakeSubmitted = true
      rw [Function.update_of_ne hkp]
      exact hwoken hpc hw'

/-- Parkers and thread of a reachable state. -/
theorem invariant_of_reachable
    (h : Lts.Reaches (step pid here handle) Lts.Always (.init current) σ) :
    Parkers pid σ ∧ Owner pid here current σ := by
  have hparkers : Parkers pid (State.init current) := ⟨nofun, fun _ _ => ⟨rfl, rfl⟩⟩
  have howner : Owner pid here current (State.init current) :=
    ⟨fun hpc => absurd rfl hpc, rfl, nofun, fun _ => rfl, nofun⟩
  refine h.invariant (I := fun σ => Parkers pid σ ∧ Owner pid here current σ)
    ⟨hparkers, howner⟩ ?_
  rintro σ τ a ⟨hp, ho⟩ - hstep
  exact ⟨hp.step ho (.of_step hstep), ho.step hp (.of_step hstep)⟩

end Invariant

/-! ## No wake is lost and none is late -/

/-- No parker has more than one submission outstanding, a wake since the last epoch is one while
the owner pauses, and nothing is submitted after the close. Each call brackets its parker by one
attach, one close and one detach, leaves by these however its loop was left, and puts the
thread-local values back. -/
theorem blockOn_correct (pid here : Pid) (handle : HandleId) (current : Option HandleId) (σ : State)
    (h : Lts.Reaches (step pid here handle) Lts.Always (.init current) σ) :
    (∀ k, (σ.events k).count .pause ≤ (σ.events k).count .submit ∧
      (σ.events k).count .submit ≤ (σ.events k).count .pause + 1) ∧
    (σ.pc = .pausing → σ.woken = true →
      (σ.events σ.parker).count .submit = (σ.events σ.parker).count .pause + 1 ∧
      ∃ τ, step pid here handle (.pause (.ok ())) σ = .ok τ) ∧
    (∀ k, (σ.events k).Pairwise fun a b => a = .close → b ≠ .submit) ∧
    (∀ k < σ.made, (σ.events k).filter Event.bracket = (σ.stage k).brackets) ∧
    (∀ driven, σ.pc = .closing driven → ∀ native,
      ∃ τ, Lts.exec (step pid here handle) Lts.Always [.close, .leave, .detach native] σ = some τ ∧
        τ.pc = .outside ∧ τ.outcomes = σ.outcomes ++ [driven.outcome native]) ∧
    (σ.pc = .outside →
      (∀ k < σ.made, (σ.events k).filter Event.bracket = [.attach, .close, .detach]) ∧
      σ.inBlockOn = false ∧ σ.current = current) := by
  obtain ⟨hp, ho⟩ := invariant_of_reachable h
  -- Every submit is in the tokens or in a pause that has returned.
  have hevents : ∀ k, (σ.events k).count .submit = (σ.events k).count .pause + σ.tokens k ∧
      σ.tokens k ≤ 1 ∧ (σ.events k).Pairwise fun a b => a = .close → b ≠ .submit := by
    intro k
    rcases Nat.lt_or_ge k σ.made with hk | hk
    · exact ⟨(hp.made k hk).count, (hp.made k hk).le_one, (hp.made k hk).late⟩
    · obtain ⟨htokens, hnil⟩ := hp.unmade k hk
      rw [htokens, hnil]
      exact ⟨rfl, Nat.zero_le _, .nil⟩
  refine ⟨fun k => ?_, fun hpc hwoken => ?_, fun k => (hevents k).2.2,
    fun k hk => (hp.made k hk).brackets, fun driven hpc native => ?_, fun hpc => ⟨?_, ?_, ?_⟩⟩
  · obtain ⟨hcount, hle, -⟩ := hevents k
    omega
  · -- A wake since the last pause has its token, so the next pause returns.
    have hparker := hp.parker (ho.call (by simp [hpc])).1
    have htokens : σ.tokens σ.parker = 1 := by
      rw [hparker.owed (by rw [hpc]; rfl) (by simp [hpc]), ho.woken (.inr hpc) hwoken]
      rfl
    refine ⟨by rw [hparker.count, htokens], ?_⟩
    simp [step, hpc, htokens]
  · simp [Lts.exec, Lts.Always, step, hpc, State.setGate]
  · intro k hk
    have hstage : σ.stage k = .outside := by simp [State.stage, hpc]
    rw [(hp.made k hk).brackets, hstage]
    rfl
  · rw [ho.inBlockOn, hpc]
    rfl
  · exact ho.left (by rw [hpc]; rfl)

/-- A wake that comes between the poll and the pause. -/
theorem blockOn_correct_early :
    ∃ σ, Lts.Reaches (step 1 1 0) Lts.Always (.init none) σ ∧ σ.pc = .pausing ∧ σ.woken = true ∧
      (σ.events σ.parker).count .submit = (σ.events σ.parker).count .pause + 1 := by
  have hrun : (Lts.exec (step 1 1 0) Lts.Always
      [.blockOn true true false (.ok 7), .beginPoll, .poll .pending, .wake 0 (.ok ())]
      (.init none)).any (fun σ => σ.pc = .pausing ∧ σ.woken = true) = true := by decide
  obtain ⟨σ, hσ, hpc, hwoken⟩ := Lts.exists_of_exec hrun
  exact ⟨σ, hσ, hpc, hwoken, ((blockOn_correct 1 1 0 none σ hσ).2.1 hpc hwoken).1⟩

end Nosv.BlockOn
