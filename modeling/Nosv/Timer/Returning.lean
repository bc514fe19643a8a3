import Nosv.Timer.Punctual

/-!
# The timer driver comes to its end

Once the shutdown flag is raised the heap gains nothing, and every step of the driver brings it
closer to the end of its completed callback; `State.left` counts the longest way there. The driver
reaches its next look at the flag also when it is parked, because the notification that follows the
flag interrupts the park. So `shutdown_and_wait` returns.

* `DriverMove.left_lt` and `Move.left_le`: how far the driver is from its end;
* `shutdown_returns`: the bound, the progress and the return of the call.
-/

namespace Nosv.Timer

variable {W : Type} {σ τ : State W} {a : Action W}

/-- A step of the driver task. -/
def Action.ofDriver : Action W → Bool
  | .driver _ _ => true
  | .tick _ | .create _ _ | .poll _ _ | .bind _ _ | .push _ | .notify _ _ | .drop _ | .shutdown
  | .shutdownNotify _ | .shutdownReturn => false

/-! ## How far it has to go -/

/-- How many steps the driver has left at most when the flag is raised. -/
def State.left (σ : State W) : ℕ :=
  match σ.pc with
  | .done => 0
  | .retired => 1
  | .finished => 2
  | .terminating => 3
  | .checking _ => 4
  | .waking _ wake => wake.length + 5
  | .draining => σ.heap.items.length + 6
  -- An entry that is pruned is a step, one that expires is a waker to invoke in addition.
  | .pruning wake => wake.length + σ.heap.items.length + 6
  | .expiring wake => wake.length + 2 * σ.heap.items.length + 7
  | .scan => σ.heap.items.length + 7
  | .resumed _ => σ.heap.items.length + 8
  | .parked _ => σ.heap.items.length + 9
  | .deciding _ => σ.heap.items.length + 10

/-- Two for each entry of the heap, one for each waker taken, and ten. -/
theorem State.left_le (σ : State W) : σ.left ≤ 2 * σ.heap.items.length + σ.pc.wake.length + 10 := by
  unfold left
  split <;> simp only [*, Pc.wake, List.length_nil] <;> omega

/-- Popping the first entry makes the heap smaller. -/
theorem length_pop {heap : TimerHeap} {entry : TimerEntry} (hpeek : heap.peek = some entry) :
    heap.items.length = heap.pop.items.length + 1 := by
  rw [SortedHeap.items_of_peek hpeek, List.length_cons]

/-- With the flag raised every step of the driver is one of those that are left. -/
theorem DriverMove.left_lt (hm : DriverMove σ τ) (hshutdown : σ.shutdown = true) :
    τ.left < σ.left := by
  -- A driver that finds the flag raised scans no more.
  have hraised : σ.shutdown ≠ false := by simp [hshutdown]
  cases hm with
  | scan _ hfalse | check _ hfalse => exact absurd hfalse hraised
  -- An entry that is drained, skipped or fired leaves the heap.
  | @drain entry i hpc hentry =>
    have hlt : i < σ.heap.items.length := (List.getElem?_eq_some_iff.mp hentry).1
    have hlength : (σ.heap.items.eraseIdx i).length + 1 = σ.heap.items.length := by
      rw [List.length_eraseIdx_of_lt hlt]
      omega
    simp only [State.left, State.setTimer, hpc, SortedHeap.take]
    omega
  | skip hpc hpeek | prune hpc hpeek =>
    have hlength := length_pop hpeek
    simp only [State.left, hpc]
    omega
  | @fire entry wake hpc hpeek =>
    have hlength := length_pop hpeek
    have hwaiter : (σ.timers entry.timer).waiter.toList.length ≤ 1 := by
      cases (σ.timers entry.timer).waiter <;> simp
    simp only [State.left, hpc, List.length_append]
    omega
  | scanShutdown hpc | drained hpc | expired hpc | pruned hpc | wake hpc | woken hpc
  | checkShutdown hpc | terminate hpc | decideNotified hpc | park hpc | unpark hpc | resume hpc
  | retire hpc | complete hpc =>
    simp only [State.left, hpc, List.length_cons, List.length_nil]
    omega

/-- Nobody adds to the steps that are left, for after the flag nothing is pushed. -/
theorem Move.left_le (hm : Move σ a τ) (hshutdown : σ.shutdown = true) :
    τ.shutdown = true ∧ τ.left + a.ofDriver.toNat ≤ σ.left := by
  cases hm with
  | push _ _ _ hfalse => exact absurd hfalse (by simp [hshutdown])
  | driver hm =>
    refine ⟨?_, hm.left_lt hshutdown⟩
    cases hm <;> exact hshutdown
  | shutdown => exact ⟨rfl, le_rfl⟩
  | tick | create | pollReady | pollPending | bind | bindPanic | pushClosed | notifyPushed
  | notifyDropped | drop | shutdownNotify | shutdownReturn => exact ⟨hshutdown, le_rfl⟩

/-! ## What the driver relies on -/

/-- What the driver finds when it goes on, and what `shutdown_and_wait` has told it. -/
structure Summoned (σ : State W) : Prop where
  flag : σ.owner ≠ .outside → σ.shutdown = true
  /-- The driver does not park without having seen the flag. -/
  deciding : σ.owner = .waiting → ∀ wait, σ.pc = .deciding wait → σ.gate.notified = true
  /-- A driver that was parked already is interrupted. -/
  parked : σ.owner = .waiting → ∀ wait, σ.pc = .parked wait → σ.gate.phase = .wakePending
  terminal : σ.pc = .finished → σ.gate.phase = .terminal
  raw : σ.pc ≠ .retired → σ.pc ≠ .done → σ.gate.raw.isSome = true
  completed : σ.completed = true ↔ σ.pc = .done

namespace Summoned

/-- A driver that was just submitted. -/
theorem init (raw : RawTask) : Summoned (State.init raw : State W) where
  flag h := absurd rfl h
  deciding h := by cases h
  parked h := by cases h
  terminal h := by cases h
  raw _ _ := rfl
  completed := by simp [State.init]

/-- A step of somebody else that does not notify. -/
theorem frame (h : Summoned σ) (hpc : τ.pc = σ.pc) (hgate : τ.gate = σ.gate)
    (hcompleted : τ.completed = σ.completed) (hflag : σ.shutdown = true → τ.shutdown = true)
    (howner : τ.owner = .waiting → σ.owner = .waiting)
    (hraised : τ.owner ≠ .outside → σ.owner ≠ .outside ∨ τ.shutdown = true) : Summoned τ where
  flag ho := (hraised ho).elim (fun ho => hflag (h.flag ho)) id
  deciding ho := by rw [hpc, hgate]; exact h.deciding (howner ho)
  parked ho := by rw [hpc, hgate]; exact h.parked (howner ho)
  terminal := by rw [hpc, hgate]; exact h.terminal
  raw := by rw [hpc, hgate]; exact h.raw
  completed := by rw [hcompleted, hpc]; exact h.completed

/-- A notification, by the owner or by anybody else. -/
theorem noted (h : Summoned σ) (hd : Driving σ) (hpc : τ.pc = σ.pc) (hgate : τ.gate = σ.gate.noted)
    (hcompleted : τ.completed = σ.completed) (hflag : τ.shutdown = σ.shutdown)
    (howner : τ.owner ≠ .outside → σ.owner ≠ .outside) : Summoned τ where
  flag ho := by rw [hflag]; exact h.flag (howner ho)
  deciding _ _ _ := by rw [hgate]; rfl
  parked _ wait hp := by
    rw [hpc] at hp
    rw [hgate]
    -- The phase of the park is left, or was left before.
    rcases hd.woken wait hp with hof | ⟨hpending, -⟩
    · rcases DriverPark.ofWait_cases wait with ⟨-, hphase⟩ | ⟨-, hphase⟩ <;>
        simp [DriverGate.noted, hof, hphase, DriverPark.wake]
    · simp [DriverGate.noted, hpending, DriverPark.wake]
  terminal hp := by
    rw [hpc] at hp
    rw [hgate]
    simp [DriverGate.noted, h.terminal hp, DriverPark.wake]
  raw := by rw [hpc, hgate]; exact h.raw
  completed := by rw [hcompleted, hpc]; exact h.completed

/-- A step of the driver to a place where it is neither about to park nor parked. -/
theorem advance (h : Summoned σ) (howner : τ.owner = σ.owner) (hflag : τ.shutdown = σ.shutdown)
    (hdeciding : ∀ wait, τ.pc ≠ .deciding wait) (hparked : ∀ wait, τ.pc ≠ .parked wait)
    (hterminal : τ.pc = .finished → τ.gate.phase = .terminal)
    (hraw : τ.pc ≠ .retired → τ.pc ≠ .done → τ.gate.raw.isSome = true)
    (hcompleted : τ.completed = true ↔ τ.pc = .done) : Summoned τ where
  flag ho := by rw [hflag]; exact h.flag (howner ▸ ho)
  deciding _ wait hp := absurd hp (hdeciding wait)
  parked _ wait hp := absurd hp (hparked wait)
  terminal := hterminal
  raw := hraw
  completed := hcompleted

/-- Every step of the driver keeps what its shutdown relies on. -/
theorem driverMove (h : Summoned σ) (hm : DriverMove σ τ) : Summoned τ := by
  have hraw := h.raw
  have hcompleted := h.completed
  cases hm with
  | @check wait hpc hfalse =>
    rw [hpc] at hraw hcompleted
    refine ⟨h.flag, fun ho => ?_, fun _ _ hp => by simp at hp, fun hp => by simp at hp,
      fun _ _ => hraw (by simp) (by simp), by simpa using hcompleted⟩
    -- The owner has raised the flag before it notified.
    have hflag := h.flag (by rw [show σ.owner = .waiting from ho]; simp)
    exact absurd (hfalse.symm.trans hflag) (by decide)
  | @park wait hpc hnotified =>
    rw [hpc] at hraw hcompleted
    refine ⟨h.flag, fun _ _ hp => by simp at hp, fun ho => ?_, fun hp => by simp at hp,
      fun _ _ => hraw (by simp) (by simp), by simpa using hcompleted⟩
    -- It has left its note.
    exact absurd (hnotified.symm.trans (h.deciding ho wait hpc)) (by decide)
  | terminate hpc =>
    rw [hpc] at hraw hcompleted
    exact h.advance rfl rfl (by simp) (by simp) (fun _ => rfl)
      (fun _ _ => hraw (by simp) (by simp)) (by simpa using hcompleted)
  | retire hpc =>
    rw [hpc] at hcompleted
    exact h.advance rfl rfl (by simp) (by simp) (fun hp => by simp at hp)
      (fun hne => absurd rfl hne) (by simpa using hcompleted)
  | complete hpc =>
    exact h.advance rfl rfl (by simp) (by simp) (fun hp => by simp at hp)
      (fun _ hne => absurd rfl hne) (by simp)
  | drain hpc | skip hpc | prune hpc | fire hpc =>
    rw [hpc] at hraw hcompleted
    refine h.advance rfl rfl ?_ ?_ ?_ (fun _ _ => hraw (by simp) (by simp)) ?_ <;>
      simp [State.setTimer, hpc, hcompleted]
  | scanShutdown hpc | scan hpc | drained hpc | expired hpc | pruned hpc | wake hpc | woken hpc
  | checkShutdown hpc | decideNotified hpc | unpark hpc | resume hpc =>
    rw [hpc] at hraw hcompleted
    exact h.advance rfl rfl (by simp) (by simp) (fun hp => by simp at hp)
      (fun _ _ => hraw (by simp) (by simp)) (by simpa using hcompleted)

/-- Every step keeps what the shutdown of the driver relies on. -/
theorem move (h : Summoned σ) (hd : Driving σ) (hm : Move σ a τ) : Summoned τ := by
  cases hm with
  | driver hm => exact h.driverMove hm
  | notifyPushed | notifyDropped => exact h.noted hd rfl rfl rfl rfl id
  | shutdownNotify howner =>
    exact h.noted hd rfl rfl rfl rfl fun _ => by rw [howner]; simp
  | shutdown => exact h.frame rfl rfl rfl (fun _ => rfl) (fun ho => by simp at ho) fun _ => .inr rfl
  | shutdownReturn =>
    exact h.frame rfl rfl rfl id (fun ho => by simp at ho) fun ho => by simp at ho
  | tick | create | pollReady | pollPending | bind | bindPanic | push | pushClosed | drop =>
    exact h.frame rfl rfl rfl id id .inl

/-- The driver can go on, from any position of a drain, when the native call in the step
succeeds. -/
theorem exists_driverStep (h : Summoned σ) (hdone : σ.pc ≠ .done) {choice : ℕ}
    (hchoice : σ.heap.items ≠ [] → choice < σ.heap.items.length) :
    ∃ τ, driverStep (.ok ()) choice σ = .ok τ := by
  have hraw := h.raw
  unfold driverStep
  cases hpc : σ.pc with
  | draining =>
    dsimp only
    split
    next => exact ⟨_, rfl⟩
    next hne =>
      rw [List.getElem?_eq_getElem (hchoice hne)]
      exact ⟨_, rfl⟩
  | finished =>
    rw [hpc] at hraw
    obtain ⟨raw, hsome⟩ := Option.isSome_iff_exists.mp (hraw (by simp) (by simp))
    simp only [DriverGate.retire, h.terminal hpc, hsome]
    exact ⟨_, rfl⟩
  | done => exact absurd hpc hdone
  | scan | expiring | pruning | deciding =>
    -- Each of them looks at something, and goes on either way.
    dsimp only
    repeat' split
    all_goals exact ⟨_, rfl⟩
  | waking wait wake => cases wake <;> exact ⟨_, rfl⟩
  | checking | terminating | parked | resumed | retired => exact ⟨_, rfl⟩

end Summoned

/-! ## Runs -/

variable [DecidableEq W]

/-- The invariant of every run. -/
theorem summoned_of_reaches {raw : RawTask}
    (h : Lts.Reaches step Lts.Always (State.init raw) σ) : Summoned σ :=
  h.invariant_of (J := Driving) (fun _ hr => (invariant hr).2) (.init raw)
    fun _ _ _ hd _ hs _ hst => hs.move hd (move_of_step hst)

/-- The driver goes on, and nobody else. -/
def Unattended (_ : State W) (a : Action W) : Prop := a.ofDriver = true

/-- When `shutdown_and_wait` has notified the driver, in every run from there: the driver takes at
most two steps for each entry of its heap, one for each waker it has taken, and ten, whatever sleeps
and their owners do meanwhile. Until it has announced its completion it can go on, and a park that
it is in has been sent the wake it returns for. So the driver, left to itself, lets the call
return. -/
theorem shutdown_returns (raw : RawTask) (σ : State W)
    (h : Lts.Reaches step Lts.Always (State.init raw) σ) (howner : σ.owner = .waiting) :
    (∀ as τ, Lts.Path step Lts.Always σ as τ →
      as.countP Action.ofDriver ≤ 2 * σ.heap.items.length + σ.pc.wake.length + 10) ∧
    (∀ τ, Lts.Reaches step Lts.Always σ τ → τ.completed = false →
      (∀ choice, (τ.heap.items ≠ [] → choice < τ.heap.items.length) →
        ∃ υ, step (.driver (.ok ()) choice) τ = .ok υ) ∧
      (τ.owner = .waiting → ∀ wait, τ.pc = .parked wait →
        ∃ wake, (DriverPark.ofWait wait).wake = some wake ∧ wake ∈ τ.wakes)) ∧
    ∃ τ υ, Lts.Reaches step Unattended σ τ ∧ step .shutdownReturn τ = .ok υ := by
  have hS := summoned_of_reaches h
  have hshutdown : σ.shutdown = true := hS.flag (by rw [howner]; simp)
  refine ⟨fun as τ hpath => ?_, fun τ hτ hcompleted => ⟨fun choice hchoice => ?_,
    fun hwaiting wait hpc => ?_⟩, ?_⟩
  · -- Each of the driver's steps lowers `left`, and no other raises it.
    have hcount := (hpath.countP_add_le (I := fun τ => τ.shutdown = true) hshutdown
      fun _ _ _ hs _ hst => (move_of_step hst).left_le hs).2
    have hle := σ.left_le
    omega
  · have hSτ := summoned_of_reaches (h.trans hτ)
    refine hSτ.exists_driverStep (fun hdone => ?_) hchoice
    rw [hSτ.completed.mpr hdone] at hcompleted
    cases hcompleted
  · -- Its phase says that it was interrupted.
    have hreach := h.trans hτ
    have hpending := (summoned_of_reaches hreach).parked hwaiting wait hpc
    rcases (invariant hreach).2.woken wait hpc with hof | ⟨-, hwake⟩
    · rcases DriverPark.ofWait_cases wait with ⟨-, hphase⟩ | ⟨-, hphase⟩ <;>
        rw [hphase, hpending] at hof <;> cases hof
    · exact hwake
  · -- Left alone, the driver takes steps until it has completed.
    have hprogress : ∀ τ : State W, (Summoned τ ∧ τ.shutdown = true ∧ τ.owner = .waiting) →
        ¬τ.completed = true → ∃ a υ, Unattended τ a ∧ step a τ = .ok υ ∧
          (Summoned υ ∧ υ.shutdown = true ∧ υ.owner = .waiting) ∧ υ.left < τ.left := by
      rintro τ ⟨hSτ, hs, hw⟩ hcompleted
      have hdone : τ.pc ≠ .done := fun hpc => hcompleted (hSτ.completed.mpr hpc)
      have hstep : ∃ υ, driverStep (.ok ()) 0 τ = .ok υ :=
        hSτ.exists_driverStep hdone List.length_pos_iff.mpr
      obtain ⟨υ, hυ⟩ := hstep
      have hm := driverMove_of_step hυ
      have hkept : υ.shutdown = τ.shutdown ∧ υ.owner = τ.owner := by cases hm <;> exact ⟨rfl, rfl⟩
      exact ⟨.driver (.ok ()) 0, υ, rfl, hυ, ⟨hSτ.driverMove hm, hkept.1.trans hs,
        hkept.2.trans hw⟩, hm.left_lt hs⟩
    obtain ⟨τ, hτ, ⟨-, -, hw⟩, hcompleted⟩ :=
      Lts.exists_of_progress ⟨hS, hshutdown, howner⟩ hprogress
    refine ⟨τ, { τ with owner := .outside }, hτ, ?_⟩
    simp only [step, hw, hcompleted]

/-- The driver waits for a timer that is due at 10 when it is shut down. -/
def interrupting : List (Action ℕ) :=
  waiting ++ [.shutdown, .shutdownNotify (.ok ())]

/-- The wait of the driver is interrupted; it cancels the timer and ends, although the clock stands
still. -/
theorem shutdown_returns_parked :
    ∃ σ τ υ : State ℕ, Lts.Reaches step Lts.Always (.init 5) σ ∧ σ.pc = .parked (some 10) ∧
      Lts.Reaches step Unattended σ τ ∧ step .shutdownReturn τ = .ok υ := by
  have hrun : (Lts.exec step Lts.Always interrupting (.init 5)).any
      (fun σ : State ℕ => σ.pc = .parked (some 10) ∧ σ.owner = .waiting) = true := by decide
  obtain ⟨σ, hσ, hpc, howner⟩ := Lts.exists_of_exec hrun
  obtain ⟨-, -, τ, υ, hτ, hυ⟩ := shutdown_returns 5 σ hσ howner
  exact ⟨σ, τ, υ, hσ, hpc, hτ, hυ⟩

end Nosv.Timer
