import Mathlib.Logic.Basic
import Mathlib.Tactic.SplitIfs
import Nosv.Ext.Lts
import Nosv.Io.Core

/-!
# The owned-operation future

`OwnedOp` shares three cells with its handler: the result slot, the `completed` flag and the waker
slot, each synchronized by itself. A poll reads the flag twice and registers its waker in between;
the handler, once it is the driver's, stores the result, sets the flag and takes the waker at any
time. The machine takes each of these as a step of its own.

A waker stands for the task it wakes, so `will_wake` is equality.

* `Linked.step`, `Results.step` and `Waiting.step`: what every step keeps;
* `ownedOp_correct`: the future returns its result once, and who waits is woken;
* `publication_overtaken`: the waker that is woken need not be the last one registered.
-/

namespace Nosv.Io.OwnedOp

/-! ## State -/

/-- How a handler is finished. -/
inductive Finish where
  /-- `complete` with a terminal kernel result. -/
  | complete (result : ℤ)
  /-- `fail` before submission. -/
  | fail (error : Error)
  deriving DecidableEq, Repr

/-- The value the work converts a finish to. -/
def Finish.value {T : Type} (work : OpWork T) : Finish → T
  | .complete result => work.complete result
  | .fail error => work.fail error

/-- Where the handler is, and how far it has published its result. -/
inductive HandlerPc (W : Type) where
  /-- In the `handler` field of the future. -/
  | held
  /-- Moved out of the future by the first poll. -/
  | taken
  /-- Owned by the driver. -/
  | enqueued
  /-- The result is stored. -/
  | stored
  /-- The flag is set. -/
  | completed
  /-- `publish` has returned the waker it took. -/
  | published (waker : Option W)
  deriving DecidableEq, Repr

/-- Where the task that polls is; the waker is that of the poll in progress. -/
inductive PollPc (W : Type) where
  /-- Between two polls. -/
  | idle
  /-- The first poll has the handler in hand. -/
  | enqueueing (waker : W)
  /-- The first poll fails the handler itself, because the runtime is closed. -/
  | failing (waker : W)
  /-- Before the first check of the flag. -/
  | checking (waker : W)
  | registering (waker : W)
  /-- Before the second check of the flag. -/
  | rechecking (waker : W)
  /-- The flag was seen. -/
  | taking
  deriving DecidableEq, Repr

/-- Why a poll panics. -/
inductive Panic where
  /-- `owned I/O operation polled after completion` -/
  | polledAfterCompletion
  /-- `unsubmitted owned handler` -/
  | unsubmittedHandler
  /-- `published owned result missing` -/
  | resultMissing
  deriving DecidableEq, Repr

/-- One future with the cells it shares with its handler. -/
structure State (T W : Type) where
  /-- `OwnedControl::cancelled` -/
  cancelled : Bool
  /-- `OwnedControl::completed` -/
  completed : Bool
  /-- `OwnedControl::waker` -/
  waker : Option W
  /-- `OwnedState::result` -/
  result : Option T
  queued : Bool
  done : Bool
  /-- The future was dropped. -/
  dropped : Bool
  handler : HandlerPc W
  poll : PollPc W
  /-- The value the handler has stored, for specification only. -/
  value : Option T
  /-- What the polls have returned, for specification only. -/
  returns : List T
  /-- The waker of the most recent poll that returned `Pending`, for specification only. -/
  pended : Option W

variable {T W : Type}

/-- A lazy operation. -/
def State.init : State T W :=
  ⟨false, false, none, none, false, false, false, .held, .idle, none, [], none⟩

/-! ## Steps -/

/-- Steps of the polling task and of the handler. -/
inductive Action (W : Type) where
  /-- A poll up to the enqueue, or up to the first check when the operation is queued. -/
  | poll (waker : W)
  /-- `ensure_running`, and `enqueue` when the runtime is running. -/
  | enqueue (running accepted : Bool)
  /-- `complete` or `fail` up to the store of the result. -/
  | store (finish : Finish)
  | setCompleted
  | takeWaker
  | check
  | register
  | recheck
  /-- The result is taken and the poll returns. -/
  | take
  | drop
  deriving DecidableEq

/-- The poll goes on to its first check when it was waiting for a failure to be published. -/
def PollPc.published : PollPc W → PollPc W
  | .failing waker => .checking waker
  | pc => pc

/-- The poll has to fail the handler. -/
def PollPc.isFailing : PollPc W → Bool
  | .failing _ => true
  | _ => false

/-- The finish that a handler may be given: any by the driver, only closure by the poll. -/
def State.MayStore (σ : State T W) (finish : Finish) : Prop :=
  match σ.handler with
  | .enqueued => True
  | .taken => σ.poll.isFailing = true ∧ finish = .fail runtimeClosedError
  | _ => False

instance (σ : State T W) (finish : Finish) : Decidable (σ.MayStore finish) := by
  unfold State.MayStore
  split <;> infer_instance

/-- The next state of an operation with the given work. -/
def step [DecidableEq W] (work : OpWork T) : Action W → State T W → Except (Halt Panic) (State T W)
  | .poll waker, σ =>
    match σ.poll, σ.dropped with
    | .idle, false =>
      if σ.done then .error (.abort .polledAfterCompletion)
      else if σ.queued then .ok { σ with poll := .checking waker }
      else
        match σ.handler with
        | .held => .ok { σ with handler := .taken, poll := .enqueueing waker }
        -- `expect`: an unsubmitted operation holds its handler
        | _ => .error (.abort .unsubmittedHandler)
    | _, _ => .error .disabled
  | .enqueue running accepted, σ =>
    match σ.poll with
    | .enqueueing waker =>
      -- a closed runtime or driver gives the handler back, and the poll fails it by itself
      if running ∧ accepted then
        .ok { σ with queued := true, handler := .enqueued, poll := .checking waker }
      else .ok { σ with poll := .failing waker }
    | _ => .error .disabled
  | .store finish, σ =>
    if σ.MayStore finish then
      .ok { σ with
        result := some (finish.value work)
        value := some (finish.value work)
        handler := .stored }
    else .error .disabled
  | .setCompleted, σ =>
    -- the flag goes up only after the result is in its slot
    match σ.handler with
    | .stored => .ok { σ with completed := true, handler := .completed }
    | _ => .error .disabled
  | .takeWaker, σ =>
    match σ.handler with
    | .completed =>
      .ok { σ with waker := none, handler := .published σ.waker, poll := σ.poll.published }
    | _ => .error .disabled
  | .check, σ =>
    match σ.poll with
    | .checking waker =>
      if σ.completed then .ok { σ with done := true, poll := .taking }
      else .ok { σ with poll := .registering waker }
    | _ => .error .disabled
  | .register, σ =>
    match σ.poll with
    | .registering waker =>
      -- `will_wake`
      .ok { σ with
        waker := if σ.waker.any (· = waker) then σ.waker else some waker
        poll := .rechecking waker }
    | _ => .error .disabled
  | .recheck, σ =>
    match σ.poll with
    | .rechecking waker =>
      if σ.completed then .ok { σ with done := true, poll := .taking }
      else .ok { σ with poll := .idle, pended := some waker }
    | _ => .error .disabled
  | .take, σ =>
    match σ.poll, σ.result with
    | .taking, some value =>
      .ok { σ with result := none, returns := σ.returns ++ [value], poll := .idle }
    | .taking, none => .error (.abort .resultMissing)
    | _, _ => .error .disabled
  | .drop, σ =>
    -- a queued operation that was not taken is cancelled, a lazy one has nothing to cancel
    match σ.poll, σ.dropped with
    | .idle, false =>
      .ok { σ with dropped := true, cancelled := σ.cancelled || (σ.queued && !σ.done) }
    | _, _ => .error .disabled

/-! ## What a step can do -/

/-- One constructor for each step that is enabled. -/
inductive Move (work : OpWork T) (σ : State T W) : State T W → Prop
  | polled (waker : W) (hpoll : σ.poll = .idle) (hdone : σ.done = false)
      (hqueued : σ.queued = true) : Move work σ { σ with poll := .checking waker }
  | opened (waker : W) (hpoll : σ.poll = .idle) (hdone : σ.done = false)
      (hqueued : σ.queued = false) (hheld : σ.handler = .held) :
      Move work σ { σ with handler := .taken, poll := .enqueueing waker }
  | enqueued (waker : W) (hpoll : σ.poll = .enqueueing waker) :
      Move work σ { σ with queued := true, handler := .enqueued, poll := .checking waker }
  | refused (waker : W) (hpoll : σ.poll = .enqueueing waker) :
      Move work σ { σ with poll := .failing waker }
  | stored (finish : Finish) (hmay : σ.MayStore finish) :
      Move work σ { σ with
        result := some (finish.value work)
        value := some (finish.value work)
        handler := .stored }
  | completed (hstored : σ.handler = .stored) :
      Move work σ { σ with completed := true, handler := .completed }
  | published (hcompleted : σ.handler = .completed) :
      Move work σ { σ with
        waker := none
        handler := .published σ.waker
        poll := σ.poll.published }
  | seen (waker : W) (hpoll : σ.poll = .checking waker ∨ σ.poll = .rechecking waker)
      (hcompleted : σ.completed = true) :
      Move work σ { σ with done := true, poll := .taking }
  | missed (waker : W) (hpoll : σ.poll = .checking waker) (hcompleted : σ.completed = false) :
      Move work σ { σ with poll := .registering waker }
  | registered (waker : W) (hpoll : σ.poll = .registering waker) :
      Move work σ { σ with waker := some waker, poll := .rechecking waker }
  | pended (waker : W) (hpoll : σ.poll = .rechecking waker) (hcompleted : σ.completed = false) :
      Move work σ { σ with poll := .idle, pended := some waker }
  | returned (value : T) (hpoll : σ.poll = .taking) (hresult : σ.result = some value) :
      Move work σ { σ with result := none, returns := σ.returns ++ [value], poll := .idle }
  | dropped (cancelled : Bool) (hpoll : σ.poll = .idle) :
      Move work σ { σ with dropped := true, cancelled := cancelled }

section Move

variable [DecidableEq W] {work : OpWork T} {σ τ : State T W} {a : Action W}

/-- Every step is one of the moves. -/
theorem Move.of_step (h : step work a σ = .ok τ) : Move work σ τ := by
  cases a with
  | poll waker =>
    simp only [step] at h
    split at h
    · -- A poll of a finished future aborts, so this one goes on to its check or opens it.
      next hpoll _ =>
      split_ifs at h with hdone hqueued
      · cases h
        exact .polled waker hpoll (by simpa using hdone) hqueued
      · split at h
        · next hheld =>
          cases h
          exact .opened waker hpoll (by simpa using hdone) (by simpa using hqueued) hheld
        · cases h
    · cases h
  | enqueue running accepted =>
    simp only [step] at h
    split at h
    · next waker hpoll =>
      split_ifs at h
      · cases h
        exact .enqueued waker hpoll
      · cases h
        exact .refused waker hpoll
    · cases h
  | store finish =>
    simp only [step] at h
    split_ifs at h with hmay
    cases h
    exact .stored finish hmay
  | setCompleted =>
    simp only [step] at h
    split at h
    · next hstored =>
      cases h
      exact .completed hstored
    · cases h
  | takeWaker =>
    simp only [step] at h
    split at h
    · next hcompleted =>
      cases h
      exact .published hcompleted
    · cases h
  | check =>
    simp only [step] at h
    split at h
    · next waker hpoll =>
      split_ifs at h with hcompleted
      · cases h
        exact .seen waker (.inl hpoll) hcompleted
      · cases h
        exact .missed waker hpoll (by simpa using hcompleted)
    · cases h
  | register =>
    simp only [step] at h
    split at h
    · next waker hpoll =>
      -- A waker that would wake the same task is kept, which comes to the same.
      have hslot : (if σ.waker.any (· = waker) then σ.waker else some waker) = some waker := by
        cases hw : σ.waker with
        | none => rfl
        | some old =>
          by_cases hold : old = waker
          · simp [hold]
          · simp [hold]
      rw [hslot] at h
      cases h
      exact .registered waker hpoll
    · cases h
  | recheck =>
    simp only [step] at h
    split at h
    · next waker hpoll =>
      split_ifs at h with hcompleted
      · cases h
        exact .seen waker (.inr hpoll) hcompleted
      · cases h
        exact .pended waker hpoll (by simpa using hcompleted)
    · cases h
  | take =>
    simp only [step] at h
    split at h
    · next value hpoll hresult =>
      cases h
      exact .returned value hpoll hresult
    · cases h
    · cases h
  | drop =>
    simp only [step] at h
    split at h
    · next hpoll _ =>
      cases h
      exact .dropped _ hpoll
    · cases h

end Move

/-! ## Who holds the handler -/

/-- The poll in progress has not yet looked at the flag for the last time. -/
def PollPc.looking : PollPc W → Bool
  | .checking _ | .registering _ | .rechecking _ => true
  | .idle | .enqueueing _ | .failing _ | .taking => false

/-- The flag is set. -/
def HandlerPc.isCompleted : HandlerPc W → Bool
  | .completed | .published _ => true
  | .held | .taken | .enqueued | .stored => false

/-- The result was stored. -/
def HandlerPc.isStored : HandlerPc W → Bool
  | .stored | .completed | .published _ => true
  | .held | .taken | .enqueued => false

/-- Where the handler and the poll can be before the operation is queued. A poll that fails the
handler by itself publishes it before its first check, and returns. -/
def Local : HandlerPc W → PollPc W → Bool → Prop
  | .held, .idle, done => done = false
  | .taken, .enqueueing _, done => done = false
  | .taken, .failing _, done | .stored, .failing _, done | .completed, .failing _, done =>
    done = false
  | .published _, .checking _, done => done = false
  | .published _, .taking, done | .published _, .idle, done => done = true
  | _, _, _ => False

/-- Where they can be after that: the poll sees the flag only when it is set. -/
def Remote (handler : HandlerPc W) (poll : PollPc W) (done : Bool) : Prop :=
  handler ≠ .held ∧ handler ≠ .taken ∧
    ((poll.looking = true ∨ poll = .idle) ∧ done = false ∨
      handler.isCompleted = true ∧ (poll = .taking ∨ poll = .idle) ∧ done = true)

/-- The handler, the poll and the flags of the future agree. -/
structure Linked (σ : State T W) : Prop where
  completed : σ.completed = σ.handler.isCompleted
  unqueued : σ.queued = false → Local σ.handler σ.poll σ.done
  queued : σ.queued = true → Remote σ.handler σ.poll σ.done

section Linked

variable {work : OpWork T} {σ τ : State T W} {handler : HandlerPc W} {poll : PollPc W}
  {done : Bool} {waker : W}

/-- A poll looks at the flag of an unqueued operation only after it has published it. -/
theorem Local.of_looking (h : Local handler poll done) (hpoll : poll.looking = true) :
    (∃ v, handler = .published v) ∧ (∃ waker, poll = .checking waker) ∧ done = false := by
  cases poll with
  | checking waker =>
    cases handler with
    | published v => exact ⟨⟨v, rfl⟩, ⟨waker, rfl⟩, h⟩
    | held | taken | enqueued | stored | completed => exact h.elim
  | registering | rechecking => cases handler <;> exact h.elim
  | idle | enqueueing | failing | taking => cases hpoll

/-- The handler is in hand between the call and the enqueue. -/
theorem Linked.of_enqueueing (h : Linked σ) (hpoll : σ.poll = .enqueueing waker) :
    σ.handler = .taken ∧ σ.queued = false ∧ σ.done = false := by
  cases hqueued : σ.queued with
  | true =>
    obtain ⟨-, -, ⟨hlook | hidle, -⟩ | ⟨-, htake | hidle, -⟩⟩ := h.queued hqueued <;>
      simp [hpoll, PollPc.looking] at *
  | false =>
    have hlocal := h.unqueued hqueued
    rw [hpoll] at hlocal
    cases hhandler : σ.handler <;> rw [hhandler] at hlocal
    case taken => exact ⟨rfl, rfl, hlocal⟩
    all_goals exact hlocal.elim

/-- A poll that sees the flag is either alone with a handler it has failed, or the operation is
queued. -/
theorem Linked.of_looking (h : Linked σ) (hpoll : σ.poll.looking = true) :
    σ.done = false ∧ (σ.queued = false → (∃ v, σ.handler = .published v) ∧
      ∃ waker, σ.poll = .checking waker) := by
  cases hqueued : σ.queued with
  | true =>
    obtain ⟨-, -, ⟨-, hdone⟩ | ⟨-, htake | hidle, -⟩⟩ := h.queued hqueued
    · exact ⟨hdone, nofun⟩
    · simp [htake, PollPc.looking] at hpoll
    · simp [hidle, PollPc.looking] at hpoll
  | false =>
    obtain ⟨hv, hw, hdone⟩ := (h.unqueued hqueued).of_looking hpoll
    exact ⟨hdone, fun _ => ⟨hv, hw⟩⟩

/-- The task that takes the result has seen the flag. -/
theorem Linked.of_taking (h : Linked σ) (hpoll : σ.poll = .taking) :
    σ.completed = true ∧ σ.done = true := by
  rw [h.completed]
  cases hqueued : σ.queued with
  | true =>
    obtain ⟨-, -, ⟨hlook | hidle, -⟩ | ⟨hcompleted, -, hdone⟩⟩ := h.queued hqueued
    · simp [hpoll, PollPc.looking] at hlook
    · simp [hpoll] at hidle
    · exact ⟨hcompleted, hdone⟩
  | false =>
    have hlocal := h.unqueued hqueued
    rw [hpoll] at hlocal
    cases hhandler : σ.handler <;> rw [hhandler] at hlocal
    case published v => exact ⟨rfl, hlocal⟩
    all_goals exact hlocal.elim

/-- A future that is done has seen the flag. -/
theorem Linked.of_done (h : Linked σ) (hdone : σ.done = true) :
    σ.completed = true ∧ (σ.poll = .taking ∨ σ.poll = .idle) := by
  rw [h.completed]
  cases hqueued : σ.queued with
  | true =>
    obtain ⟨-, -, ⟨-, hnot⟩ | ⟨hcompleted, hpoll, -⟩⟩ := h.queued hqueued
    · simp [hdone] at hnot
    · exact ⟨hcompleted, hpoll⟩
  | false =>
    have hlocal := h.unqueued hqueued
    cases hhandler : σ.handler <;> cases hpoll : σ.poll <;>
      simp [hhandler, hpoll, Local, hdone] at hlocal ⊢ <;> rfl

/-- A handler that has yet to be finished belongs to a future that is not done. -/
theorem Linked.of_mayStore {finish : Finish} (h : Linked σ) (hmay : σ.MayStore finish) :
    σ.done = false := by
  cases hdone : σ.done with
  | false => rfl
  | true =>
    have hcompleted := (h.of_done hdone).1
    rw [h.completed] at hcompleted
    unfold State.MayStore at hmay
    cases hhandler : σ.handler <;> simp [hhandler, HandlerPc.isCompleted] at hmay hcompleted

/-- Every step keeps handler, poll and flags in agreement. -/
theorem Linked.step (h : Linked σ) (hmove : Move work σ τ) : Linked τ := by
  cases hmove with
  | polled waker hpoll hdone hqueued =>
    obtain ⟨hheld, htaken, -⟩ := h.queued hqueued
    exact ⟨h.completed, fun hq => by simp [hqueued] at hq,
      fun _ => ⟨hheld, htaken, .inl ⟨.inl rfl, hdone⟩⟩⟩
  | opened waker hpoll hdone hqueued hheld =>
    exact ⟨by rw [h.completed, hheld]; rfl, fun _ => hdone, fun hq => by simp [hqueued] at hq⟩
  | enqueued waker hpoll =>
    obtain ⟨htaken, -, hdone⟩ := h.of_enqueueing hpoll
    exact ⟨by rw [h.completed, htaken]; rfl, nofun,
      fun _ => ⟨by simp, by simp, .inl ⟨.inl rfl, hdone⟩⟩⟩
  | refused waker hpoll =>
    obtain ⟨htaken, hqueued, hdone⟩ := h.of_enqueueing hpoll
    refine ⟨h.completed, fun _ => ?_, fun hq => by simp [hqueued] at hq⟩
    show Local σ.handler (.failing waker) σ.done
    rw [htaken]
    exact hdone
  | stored finish hmay =>
    -- by the driver when queued, else by the poll that was turned away
    unfold State.MayStore at hmay
    refine ⟨?_, fun hqueued => ?_, fun hqueued => ?_⟩
    · rw [h.completed]
      cases hhandler : σ.handler <;> simp [hhandler, HandlerPc.isCompleted] at hmay ⊢
    · have hlocal := h.unqueued hqueued
      show Local .stored σ.poll σ.done
      cases hhandler : σ.handler <;> cases hpoll : σ.poll <;>
        simp [hhandler, hpoll, Local, PollPc.isFailing] at hmay hlocal ⊢
      exact hlocal
    · obtain ⟨-, htaken, hcase⟩ := h.queued hqueued
      refine ⟨by simp, by simp, ?_⟩
      rcases hcase with hcase | ⟨hcompleted, -⟩
      · exact .inl hcase
      · cases hhandler : σ.handler <;> simp [hhandler, HandlerPc.isCompleted] at hmay hcompleted
  | completed hstored =>
    refine ⟨rfl, fun hqueued => ?_, fun hqueued => ?_⟩
    · have hlocal := h.unqueued hqueued
      rw [hstored] at hlocal
      show Local .completed σ.poll σ.done
      cases hpoll : σ.poll <;> simp [hpoll, Local] at hlocal ⊢
      exact hlocal
    · obtain ⟨-, -, hcase⟩ := h.queued hqueued
      exact ⟨by simp, by simp, hcase.imp id fun ⟨_, hrest⟩ => ⟨rfl, hrest⟩⟩
  | published hcompleted =>
    refine ⟨by rw [h.completed, hcompleted]; rfl, fun hqueued => ?_, fun hqueued => ?_⟩
    · have hlocal := h.unqueued hqueued
      rw [hcompleted] at hlocal
      show Local (.published σ.waker) σ.poll.published σ.done
      cases hpoll : σ.poll <;> simp [hpoll, Local, PollPc.published] at hlocal ⊢
      exact hlocal
    · -- a queued operation is not failed by its poll
      obtain ⟨-, -, hcase⟩ := h.queued hqueued
      have hsame : σ.poll.published = σ.poll := by
        cases hpoll : σ.poll <;> simp [hpoll, PollPc.looking] at hcase ⊢ <;> rfl
      show Remote (.published σ.waker) σ.poll.published σ.done
      rw [hsame]
      exact ⟨by simp, by simp, hcase.imp id fun ⟨_, hrest⟩ => ⟨rfl, hrest⟩⟩
  | seen waker hpoll hcompleted =>
    have hlook : σ.poll.looking = true := by rcases hpoll with hpoll | hpoll <;> rw [hpoll] <;> rfl
    refine ⟨h.completed, fun hqueued => ?_, fun hqueued => ?_⟩
    · obtain ⟨⟨v, hv⟩, -⟩ := (h.of_looking hlook).2 hqueued
      show Local σ.handler .taking true
      rw [hv]
      rfl
    · obtain ⟨hheld, htaken, -⟩ := h.queued hqueued
      exact ⟨hheld, htaken, .inr ⟨h.completed ▸ hcompleted, .inl rfl, rfl⟩⟩
  | missed waker hpoll hcompleted =>
    have hlook : σ.poll.looking = true := by rw [hpoll]; rfl
    obtain ⟨hdone, hlocal⟩ := h.of_looking hlook
    refine ⟨h.completed, fun hqueued => ?_, fun hqueued => ?_⟩
    · -- a handler that the poll has failed is published, so the flag would be set
      obtain ⟨⟨v, hv⟩, -⟩ := hlocal hqueued
      simp [h.completed, hv, HandlerPc.isCompleted] at hcompleted
    · obtain ⟨hheld, htaken, -⟩ := h.queued hqueued
      exact ⟨hheld, htaken, .inl ⟨.inl rfl, hdone⟩⟩
  | registered waker hpoll =>
    have hlook : σ.poll.looking = true := by rw [hpoll]; rfl
    obtain ⟨hdone, hlocal⟩ := h.of_looking hlook
    refine ⟨h.completed, fun hqueued => ?_, fun hqueued => ?_⟩
    · obtain ⟨-, w, hw⟩ := hlocal hqueued
      simp [hpoll] at hw
    · obtain ⟨hheld, htaken, -⟩ := h.queued hqueued
      exact ⟨hheld, htaken, .inl ⟨.inl rfl, hdone⟩⟩
  | pended waker hpoll hcompleted =>
    have hlook : σ.poll.looking = true := by rw [hpoll]; rfl
    obtain ⟨hdone, hlocal⟩ := h.of_looking hlook
    refine ⟨h.completed, fun hqueued => ?_, fun hqueued => ?_⟩
    · obtain ⟨-, w, hw⟩ := hlocal hqueued
      simp [hpoll] at hw
    · obtain ⟨hheld, htaken, -⟩ := h.queued hqueued
      exact ⟨hheld, htaken, .inl ⟨.inr rfl, hdone⟩⟩
  | returned value hpoll hresult =>
    obtain ⟨hcompleted, hdone⟩ := h.of_taking hpoll
    refine ⟨h.completed, fun hqueued => ?_, fun hqueued => ?_⟩
    · have hlocal := h.unqueued hqueued
      rw [hpoll] at hlocal
      show Local σ.handler .idle σ.done
      cases hhandler : σ.handler <;> simp [hhandler, Local] at hlocal ⊢
      exact hlocal
    · obtain ⟨hheld, htaken, -⟩ := h.queued hqueued
      exact ⟨hheld, htaken, .inr ⟨h.completed ▸ hcompleted, .inr rfl, hdone⟩⟩
  | dropped => exact ⟨h.completed, h.unqueued, h.queued⟩

end Linked

/-! ## What polls return -/

/-- The result is the stored value until the one poll that returns it. -/
structure Results (σ : State T W) : Prop where
  value : σ.value.isSome = σ.handler.isStored
  kept : σ.done = false ∨ σ.poll = .taking → σ.result = σ.value ∧ σ.returns = []
  returned : σ.done = true → σ.poll = .idle → ∃ v, σ.value = some v ∧ σ.returns = [v]

section Results

variable {work : OpWork T} {σ τ : State T W}

/-- Every step keeps the result where it is to be found. -/
theorem Results.step (h : Results σ) (hl : Linked σ) (hmove : Move work σ τ) : Results τ := by
  obtain ⟨hvalue, hkept, hreturned⟩ := h
  cases hmove with
  | polled waker hpoll hdone =>
    exact ⟨hvalue, fun _ => hkept (.inl hdone), fun hd => by simp [hdone] at hd⟩
  | opened waker hpoll hdone hqueued hheld =>
    exact ⟨by rw [hvalue, hheld]; rfl, fun _ => hkept (.inl hdone), fun hd => by simp [hdone] at hd⟩
  | enqueued waker hpoll =>
    obtain ⟨htaken, -, hdone⟩ := hl.of_enqueueing hpoll
    exact ⟨by rw [hvalue, htaken]; rfl, fun _ => hkept (.inl hdone),
      fun hd => by simp [hdone] at hd⟩
  | refused waker hpoll =>
    obtain ⟨-, -, hdone⟩ := hl.of_enqueueing hpoll
    exact ⟨hvalue, fun _ => hkept (.inl hdone), fun hd => by simp [hdone] at hd⟩
  | stored finish hmay =>
    have hdone := hl.of_mayStore hmay
    exact ⟨rfl, fun _ => ⟨rfl, (hkept (.inl hdone)).2⟩, fun hd => by simp [hdone] at hd⟩
  | completed hstored => exact ⟨by rw [hvalue, hstored]; rfl, hkept, hreturned⟩
  | published hcompleted =>
    refine ⟨by rw [hvalue, hcompleted]; rfl, fun hcase => hkept ?_, fun hdone hidle => ?_⟩
    · refine hcase.imp id fun htaking => ?_
      change σ.poll.published = .taking at htaking
      cases hpoll : σ.poll <;> simp [hpoll, PollPc.published] at htaking ⊢
    · refine hreturned hdone ?_
      change σ.poll.published = .idle at hidle
      cases hpoll : σ.poll <;> simp [hpoll, PollPc.published] at hidle ⊢
  | seen waker hpoll =>
    have hlook : σ.poll.looking = true := by rcases hpoll with hpoll | hpoll <;> rw [hpoll] <;> rfl
    exact ⟨hvalue, fun _ => hkept (.inl (hl.of_looking hlook).1), fun _ hidle => by simp at hidle⟩
  | missed waker hpoll | registered waker hpoll | pended waker hpoll =>
    -- a poll that still looks at the flag belongs to a future that is not done
    have hdone := (hl.of_looking (by rw [hpoll]; rfl)).1
    exact ⟨hvalue, fun _ => hkept (.inl hdone), fun hd => by simp [hdone] at hd⟩
  | returned value hpoll hresult =>
    obtain ⟨hsame, hnil⟩ := hkept (.inr hpoll)
    have hdone := (hl.of_taking hpoll).2
    refine ⟨hvalue, fun hcase => ?_, fun _ _ => ⟨value, hsame ▸ hresult, by simp [hnil]⟩⟩
    rcases hcase with hnot | htaking
    · simp [hdone] at hnot
    · simp at htaking
  | dropped => exact ⟨hvalue, hkept, hreturned⟩

/-- A task that has seen the flag finds the result. -/
theorem Results.of_taking (h : Results σ) (hl : Linked σ) (hpoll : σ.poll = .taking) :
    ∃ v, σ.result = some v ∧ σ.value = some v ∧ σ.returns = [] := by
  obtain ⟨hsame, hnil⟩ := h.kept (.inr hpoll)
  have hcompleted := (hl.of_taking hpoll).1
  rw [hl.completed] at hcompleted
  have hstored : σ.value.isSome = true := by
    rw [h.value]
    cases hhandler : σ.handler <;> simp [hhandler, HandlerPc.isCompleted] at hcompleted <;> rfl
  obtain ⟨v, hv⟩ := Option.isSome_iff_exists.mp hstored
  exact ⟨v, hsame.trans hv, hv, hnil⟩

end Results

/-! ## Whom the publication wakes -/

/-- `v` is the waker of the most recent poll that returned `Pending`, or that of a later poll that
has registered its own and does not wait. -/
def State.Answers (σ : State T W) (v : Option W) : Prop :=
  ∀ w, σ.pended = some w →
    v = some w ∨ ∃ w', v = some w' ∧ (σ.poll = .rechecking w' ∨ σ.done = true)

/-- Who waits is in the slot until the handler has taken the waker. -/
structure Waiting (σ : State T W) : Prop where
  slot : (∀ v, σ.handler ≠ .published v) → σ.Answers σ.waker
  registered : (∀ v, σ.handler ≠ .published v) → ∀ w, σ.poll = .rechecking w → σ.waker = some w
  published : ∀ v, σ.handler = .published v → σ.Answers v

section Waiting

variable {work : OpWork T} {σ τ : State T W}

/-- A poll that has registered its waker goes on, or has seen the flag. -/
theorem State.Answers.mono {v : Option W} (h : σ.Answers v) (hpended : τ.pended = σ.pended)
    (hpoll : ∀ w, σ.poll = .rechecking w → τ.poll = .rechecking w ∨ τ.done = true)
    (hdone : σ.done = true → τ.done = true) : τ.Answers v := by
  intro w hw
  rcases h w (hpended ▸ hw) with hv | ⟨w', hv, hlater⟩
  · exact .inl hv
  · exact .inr ⟨w', hv, hlater.elim (hpoll w') fun hd => .inr (hdone hd)⟩

/-- Steps between polls and before the registration. -/
theorem Waiting.goto (h : Waiting σ) (hpended : τ.pended = σ.pended) (hwaker : τ.waker = σ.waker)
    (hhandler : ∀ v, τ.handler = .published v ↔ σ.handler = .published v)
    (hpoll : ∀ w, σ.poll = .rechecking w → τ.poll = .rechecking w ∨ τ.done = true)
    (hrechecking : ∀ w, τ.poll = .rechecking w → σ.poll = .rechecking w)
    (hdone : σ.done = true → τ.done = true) : Waiting τ where
  slot hnot :=
    hwaker ▸ (h.slot fun v hv => hnot v ((hhandler v).mpr hv)).mono hpended hpoll hdone
  registered hnot w hw :=
    hwaker ▸ h.registered (fun v hv => hnot v ((hhandler v).mpr hv)) w (hrechecking w hw)
  published v hv := (h.published v ((hhandler v).mp hv)).mono hpended hpoll hdone

/-- Every step keeps the waker of who waits where the publication finds it. -/
theorem Waiting.step (h : Waiting σ) (hl : Linked σ) (hmove : Move work σ τ) : Waiting τ := by
  cases hmove with
  | polled waker hpoll =>
    exact h.goto rfl rfl (fun _ => .rfl) (fun w hw => by simp [hpoll] at hw) nofun id
  | opened waker hpoll _ _ hheld =>
    exact h.goto rfl rfl (fun v => by simp [hheld]) (fun w hw => by simp [hpoll] at hw) nofun id
  | enqueued waker hpoll =>
    have htaken := (hl.of_enqueueing hpoll).1
    exact h.goto rfl rfl (fun v => by simp [htaken]) (fun w hw => by simp [hpoll] at hw) nofun id
  | refused waker hpoll =>
    exact h.goto rfl rfl (fun _ => .rfl) (fun w hw => by simp [hpoll] at hw) nofun id
  | stored finish hmay =>
    have hnot : ∀ v, σ.handler ≠ .published v := by
      intro v hv
      simp [State.MayStore, hv] at hmay
    exact h.goto rfl rfl (fun v => by simp [hnot v]) (fun _ hw => .inl hw) (fun _ hw => hw) id
  | completed hstored =>
    exact h.goto rfl rfl (fun v => by simp [hstored]) (fun _ hw => .inl hw) (fun _ hw => hw) id
  | published hcompleted =>
    have hnot : ∀ v, σ.handler ≠ .published v := by simp [hcompleted]
    refine ⟨fun hall => absurd rfl (hall σ.waker), fun hall => absurd rfl (hall σ.waker), ?_⟩
    rintro v ⟨⟩
    exact (h.slot hnot).mono rfl (fun w hw => .inl (by rw [hw]; rfl)) id
  | seen waker hpoll =>
    exact h.goto rfl rfl (fun _ => .rfl) (fun _ _ => .inr rfl) nofun fun _ => rfl
  | missed waker hpoll =>
    exact h.goto rfl rfl (fun _ => .rfl) (fun w hw => by simp [hpoll] at hw) nofun id
  | registered waker hpoll =>
    -- the waker of an earlier poll is replaced by that of this one, which will look again
    refine ⟨fun _ w _ => .inr ⟨waker, rfl, .inl rfl⟩, fun _ w hw => ?_, fun v hv => ?_⟩
    · cases hw
      rfl
    · exact (h.published v hv).mono rfl (fun w hw => by simp [hpoll] at hw) id
  | pended waker hpoll hcompleted =>
    -- the flag is not set, so the waker is still in the slot
    have hnot : ∀ v, σ.handler ≠ .published v := by
      intro v hv
      simp [hl.completed, hv, HandlerPc.isCompleted] at hcompleted
    refine ⟨fun _ w hw => .inl ?_, fun _ => nofun, fun v hv => absurd hv (hnot v)⟩
    cases hw
    exact h.registered hnot waker hpoll
  | returned value hpoll =>
    have hdone := (hl.of_taking hpoll).2
    exact h.goto rfl rfl (fun _ => .rfl) (fun _ _ => .inr hdone) nofun id
  | dropped =>
    exact h.goto rfl rfl (fun _ => .rfl) (fun _ hw => .inl hw) (fun _ hw => hw) id

end Waiting

/-! ## The future over whole runs -/

section Reachable

variable [DecidableEq W] {work : OpWork T} {σ τ : State T W} {a : Action W} {panic : Panic}

/-- Control, results and wakers of a reachable state. -/
theorem invariant_of_reachable (h : Lts.Reaches (step work) Lts.Always .init σ) :
    Linked σ ∧ Results σ ∧ Waiting σ := by
  have hlinked : Linked (.init : State T W) := ⟨rfl, fun _ => rfl, nofun⟩
  have hresults : Results (.init : State T W) := ⟨rfl, fun _ => ⟨rfl, rfl⟩, nofun⟩
  have hwaiting : Waiting (.init : State T W) := ⟨fun _ => nofun, fun _ => nofun, nofun⟩
  refine h.invariant (I := fun σ => Linked σ ∧ Results σ ∧ Waiting σ)
    ⟨hlinked, hresults, hwaiting⟩ ?_
  rintro σ τ a ⟨hl, hr, hw⟩ - hstep
  exact ⟨hl.step (.of_step hstep), hr.step hl (.of_step hstep), hw.step hl (.of_step hstep)⟩

/-- A waker is registered only when the operation is queued. -/
theorem waker_eq_none_of_unqueued (h : Lts.Reaches (step work) Lts.Always .init σ)
    (hqueued : σ.queued = false) : σ.waker = none := by
  have hinv : Linked σ ∧ (σ.queued = false → σ.waker = none) := by
    refine h.invariant (I := fun σ => Linked σ ∧ (σ.queued = false → σ.waker = none))
      ⟨⟨rfl, fun _ => rfl, nofun⟩, fun _ => rfl⟩ ?_
    rintro σ τ a ⟨hl, hw⟩ - hstep
    refine ⟨hl.step (.of_step hstep), fun hunqueued => ?_⟩
    cases Move.of_step hstep with
    | registered waker hpoll =>
      -- an unqueued operation has published itself before its first look at the flag
      obtain ⟨-, w, hw⟩ := (hl.of_looking (by rw [hpoll]; rfl)).2 hunqueued
      rw [hpoll] at hw
      cases hw
    | enqueued => cases hunqueued
    | published => rfl
    | _ => exact hw hunqueued
  exact hinv.2 hqueued

/-- The only panic is that of a poll after the one that returned `Ready`. -/
theorem abort_cases (hl : Linked σ) (hr : Results σ) (h : step work a σ = .error (.abort panic)) :
    panic = .polledAfterCompletion ∧ ∃ v, σ.value = some v ∧ σ.returns = [v] := by
  cases a with
  | poll waker =>
    simp only [step] at h
    split at h
    · next hpoll _ =>
      split_ifs at h with hdone hqueued
      · cases h
        exact ⟨rfl, hr.returned hdone hpoll⟩
      · split at h
        · cases h
        · -- An operation that was not submitted has its handler.
          next hheld =>
          have hlocal := hl.unqueued (by simpa using hqueued)
          rw [hpoll] at hlocal
          cases hhandler : σ.handler <;> simp [hhandler, Local, hdone] at hlocal hheld
    · cases h
  | take =>
    simp only [step] at h
    split at h
    · cases h
    · -- A poll that has seen the flag finds the result.
      next hpoll hnone =>
      obtain ⟨v, hv, -⟩ := hr.of_taking hl hpoll
      simp [hnone] at hv
    · cases h
  | enqueue | store | setCompleted | takeWaker | check | register | recheck | drop =>
    simp only [step] at h
    repeat' split at h
    all_goals cases h

/-- The two internal panics are unreachable and polling panics only after `Ready`; what polls
return is at most one value, the one that was stored. A task whose poll was the last to return
`Pending` is still registered or was returned by the publication, and the publication returns
its waker unless a later poll has registered its own and returns `Ready` itself. -/
theorem ownedOp_correct (work : OpWork T) (σ : State T W)
    (h : Lts.Reaches (step work) Lts.Always .init σ) :
    (∀ a, step work a σ ≠ .error (.abort .resultMissing) ∧
      step work a σ ≠ .error (.abort .unsubmittedHandler)) ∧
    (∀ a, step work a σ = .error (.abort .polledAfterCompletion) → σ.returns ≠ []) ∧
    (∀ v ∈ σ.returns, σ.returns = [v] ∧ σ.value = some v) ∧
    (∀ w, σ.pended = some w → σ.poll = .idle → σ.done = false →
      σ.waker = some w ∧ (∀ v, σ.handler ≠ .published v) ∨ σ.handler = .published (some w)) ∧
    (∀ v w, σ.handler = .published v → σ.pended = some w →
      v = some w ∨ ∃ w', v = some w' ∧ (σ.done = true ∨ σ.poll = .rechecking w' ∧
        ∃ τ x, Lts.exec (step work) Lts.Always [.recheck, .take] σ = some τ ∧
          τ.returns = [x])) := by
  obtain ⟨hl, hr, hw⟩ := invariant_of_reachable h
  refine ⟨fun a => ⟨fun ha => ?_, fun ha => ?_⟩, fun a ha => ?_, fun v hv => ?_,
    fun w hpended hpoll hdone => ?_, fun v w hpublished hpended => ?_⟩
  · cases (abort_cases hl hr ha).1
  · cases (abort_cases hl hr ha).1
  · obtain ⟨-, v, -, hreturns⟩ := abort_cases hl hr ha
    simp [hreturns]
  · have hdone : σ.done = true := by
      cases hdone : σ.done with
      | true => rfl
      | false => simp [(hr.kept (.inl hdone)).2] at hv
    have hpoll : σ.poll = .idle := by
      rcases (hl.of_done hdone).2 with htaking | hidle
      · simp [(hr.kept (.inr htaking)).2] at hv
      · exact hidle
    obtain ⟨v', hvalue, hreturns⟩ := hr.returned hdone hpoll
    rw [hreturns, List.mem_singleton] at hv
    exact hv ▸ ⟨hreturns, hvalue⟩
  · -- between two polls no later poll has registered
    have hidle : ∀ v, σ.Answers v → v = some w := by
      intro v hv
      obtain hv | ⟨w', -, hrechecking | hd⟩ := hv w hpended
      · exact hv
      · simp [hpoll] at hrechecking
      · simp [hdone] at hd
    cases hhandler : σ.handler with
    | published v => exact .inr (hidle v (hw.published v hhandler) ▸ rfl)
    | held | taken | enqueued | stored | completed =>
      exact .inl ⟨hidle _ (hw.slot (by simp [hhandler])), nofun⟩
  · rcases hw.published v hpublished w hpended with hv | ⟨w', hv, hpoll | hdone⟩
    · exact .inl hv
    · -- the later poll finds the flag set at its second look
      refine .inr ⟨w', hv, .inr ⟨hpoll, ?_⟩⟩
      have hcompleted : σ.completed = true := by
        rw [hl.completed, hpublished]
        rfl
      have hdone := (hl.of_looking (by rw [hpoll]; rfl)).1
      obtain ⟨hsame, hnil⟩ := hr.kept (.inl hdone)
      have hstored : σ.value.isSome = true := by
        rw [hr.value, hpublished]
        rfl
      obtain ⟨x, hx⟩ := Option.isSome_iff_exists.mp hstored
      have hresult : σ.result = some x := hsame.trans hx
      simp [Lts.exec, Lts.Always, step, hpoll, hcompleted, hresult, hnil]
    · exact .inr ⟨w', hv, .inl hdone⟩

end Reachable

/-- Work that returns what it is given. -/
def echo : OpWork ℤ := ⟨id, fun _ => -1⟩

/-- Polls by task 1 and by task 2; the handler sets the flag before the second registers. -/
def overtaken : List (Action ℕ) :=
  [.poll 1, .enqueue true true, .check, .register, .recheck, .poll 2, .check,
    .store (.complete 4), .setCompleted, .register, .takeWaker]

/-- The publication need not return the waker of the poll that was the last to return `Pending`:
in this run it returns that of the later poll, which will return `Ready`. -/
theorem publication_overtaken :
    ¬∀ σ : State ℤ ℕ, Lts.Reaches (step echo) Lts.Always .init σ →
      ∀ v w, σ.handler = .published v → σ.pended = some w → v = some w := by
  intro hall
  have hrun : (Lts.exec (step echo) Lts.Always overtaken .init).any
      (fun σ => σ.handler = .published (some 2) ∧ σ.pended = some 1) = true := by decide
  obtain ⟨σ, hσ, hpublished, hpended⟩ := Lts.exists_of_exec hrun
  exact absurd (hall σ hσ _ _ hpublished hpended) (by decide)

/-- The state of that run is one of those that the theorem is about. -/
theorem ownedOp_correct_overtaken :
    ∃ σ : State ℤ ℕ, Lts.Reaches (step echo) Lts.Always .init σ ∧
      σ.handler = .published (some 2) ∧ ∀ v ∈ σ.returns, σ.returns = [v] ∧ σ.value = some v := by
  have hrun : (Lts.exec (step echo) Lts.Always (overtaken ++ [.recheck, .take]) .init).any
      (fun σ => σ.handler = .published (some 2)) = true := by decide
  obtain ⟨σ, hσ, hpublished⟩ := Lts.exists_of_exec hrun
  exact ⟨σ, hσ, hpublished, (ownedOp_correct echo σ hσ).2.2.1⟩

end Nosv.Io.OwnedOp
