import Nosv.Timer.Punctual

/-!
# Shutting the timer driver down

A pass that finds the shutdown flag cancels every timer it retains. The flag is read once more
before the driver decides about its next park, and if it is found there the driver leaves at once.
That is right when the pass before has found the flag too. When the flag is raised in between, while
the wakers of a pass run, the driver leaves whatever is in the heap behind: it becomes terminal with
timers that are neither fired nor cancelled.

* `shutdown_cancels`: in a run where the flag is raised in time (`Orderly`), a driver that ends has
  cancelled all it retained;
* `shutdown_abandons`: a timer that is left behind otherwise.
-/

namespace Nosv.Timer

variable {W : Type}

/-! ## A registered timer is in the heap until it is fired or cancelled -/

/-- The timer is in the heap, has fired, or is cancelled. -/
def State.Settled (σ : State W) (t : TimerId) : Prop :=
  (∃ e ∈ σ.heap, e.timer = t) ∨ (σ.timers t).fired = true ∨ (σ.timers t).cancelled = true

/-- Every registered timer is in the heap, has fired, or is cancelled. -/
def Accounted (σ : State W) : Prop :=
  ∀ t s, σ.sleeps t = some s → s.Registered → σ.Settled t

section Accounted

variable {σ τ : State W} {a : Action W} {t : TimerId} {s s' : Sleep W}

/-- The rest of the state does not matter. -/
theorem Accounted.frame (h : Accounted σ) (hheap : τ.heap = σ.heap)
    (hsleeps : τ.sleeps = σ.sleeps) (htimers : τ.timers = σ.timers) : Accounted τ := by
  intro t s hs hreg
  unfold State.Settled
  rw [hheap, htimers]
  exact h t s (hsleeps ▸ hs) hreg

/-- A timer that is settled stays so when its flags are only raised. -/
theorem Accounted.setTimer (h : Accounted σ) (t : TimerId) {state : TimerState W}
    (hfired : (σ.timers t).fired = true → state.fired = true)
    (hcancelled : (σ.timers t).cancelled = true → state.cancelled = true) :
    Accounted (σ.setTimer t state) := by
  intro u v hv hreg
  refine (h u v hv hreg).imp_right ?_
  by_cases hu : u = t
  · subst hu
    simpa [State.setTimer] using Or.imp hfired hcancelled
  · simp [State.setTimer, hu]

/-- A timer that is cancelled is settled, and the others stay so. -/
theorem Accounted.cancel (h : Accounted σ) (t : TimerId) :
    Accounted (σ.setTimer t (σ.timers t).cancel) ∧
      (σ.setTimer t (σ.timers t).cancel).Settled t := by
  refine ⟨h.setTimer t (fun hfired => hfired) fun _ => rfl, .inr (.inr ?_)⟩
  simp [State.setTimer, TimerState.cancel]

/-- The owner of a sleep moves on. -/
theorem Accounted.setSleep (h : Accounted σ) (hs : σ.sleeps t = some s)
    (hreg : s'.Registered → s.Registered ∨ σ.Settled t) : Accounted (σ.setSleep t s') := by
  intro u v hv hreg'
  by_cases hu : u = t
  · subst hu
    simp only [State.setSleep, Function.update_self, Option.some.injEq] at hv
    subst hv
    exact (hreg hreg').elim (h u s hs) id
  · simp only [State.setSleep, Function.update_of_ne hu] at hv
    exact h u v hv hreg'

/-- An entry that leaves the heap is one of a timer that is fired or cancelled. -/
theorem Accounted.shrink (h : Accounted σ) {heap : TimerHeap} {e : TimerEntry}
    (he : (σ.timers e.timer).fired = true ∨ (σ.timers e.timer).cancelled = true)
    (hkeep : ∀ other ∈ σ.heap, other = e ∨ other ∈ heap) :
    Accounted { σ with heap := heap } := by
  intro t s hs hreg
  -- The entry that accounts for the timer is the one that goes, or it stays.
  rcases h t s hs hreg with ⟨other, hother, rfl⟩ | hflag
  · rcases hkeep other hother with rfl | hmem
    · exact .inr he
    · exact .inl ⟨other, hmem, rfl⟩
  · exact .inr hflag

/-- The driver takes no entry out of the heap without firing or cancelling its timer. -/
theorem Accounted.driverMove (h : Accounted σ) (hm : DriverMove σ τ) : Accounted τ := by
  cases hm with
  | @drain entry i hpc hentry =>
    refine (h.cancel entry.timer).1.shrink (e := entry) (.inr ?_) fun other hother =>
      SortedHeap.mem_take_or hentry hother
    simp [State.setTimer, TimerState.cancel]
  | skip hpc hpeek hdue hcancelled =>
    exact h.shrink (.inr hcancelled) fun other hother =>
      (SortedHeap.mem_iff_of_peek hpeek).mp hother
  | prune hpc hpeek hcancelled =>
    exact h.shrink (.inr hcancelled) fun other hother =>
      (SortedHeap.mem_iff_of_peek hpeek).mp hother
  | @fire entry wake hpc hpeek =>
    have hset : Accounted
        (σ.setTimer entry.timer { σ.timers entry.timer with fired := true, waiter := none }) :=
      h.setTimer entry.timer (fun _ => rfl) fun hc => hc
    have hpop : Accounted
        { σ.setTimer entry.timer { σ.timers entry.timer with fired := true, waiter := none } with
          heap := σ.heap.pop } :=
      hset.shrink (e := entry) (.inl (by simp [State.setTimer])) fun other hother =>
        (SortedHeap.mem_iff_of_peek hpeek).mp hother
    exact hpop.frame rfl rfl rfl
  | scanShutdown | scan | drained | expired | pruned | wake | woken | checkShutdown | check
  | terminate | decideNotified | park | unpark | resume | retire | complete =>
    exact h.frame rfl rfl rfl

/-- Every registered timer stays accounted for. -/
theorem Accounted.move (h : Accounted σ) (hm : Move σ a τ) : Accounted τ := by
  cases hm with
  | tick | shutdown | shutdownNotify | shutdownReturn => exact h.frame rfl rfl rfl
  | @create t deadline hs =>
    intro u v hv hreg
    by_cases hu : u = t
    · subst hu
      simp only [State.setSleep, Function.update_self, Option.some.injEq] at hv
      subst hv
      rcases hreg with hbound | hpc
      · cases hbound
      · cases hpc
    · simp only [State.setSleep, State.setTimer, Function.update_of_ne hu] at hv
      refine (h u v hv hreg).imp_right ?_
      simp [State.setSleep, State.setTimer, hu]
  | @pollReady t => exact h.setTimer t (fun _ => rfl) fun hc => hc
  | @pollPending t waker s hs hpc =>
    have hset : Accounted (σ.setTimer t { σ.timers t with waiter := some waker }) :=
      h.setTimer t (fun hf => hf) fun hc => hc
    refine hset.setSleep hs fun hreg => .inl ?_
    rcases hreg with hbound | hpc'
    · exact .inl hbound
    · dsimp only at hpc'
      split at hpc' <;> cases hpc'
  | @bind t s hs hpc =>
    have hset : Accounted (σ.setSleep t { s with pc := .allocated σ.nextId }) := by
      refine h.setSleep hs fun hreg => .inl ?_
      rcases hreg with hbound | hpc'
      · exact .inl hbound
      · cases hpc'
    exact hset.frame rfl rfl rfl
  | bindPanic hs hpc =>
    refine h.setSleep hs fun hreg => .inl ?_
    rcases hreg with hbound | hpc'
    · exact .inl hbound
    · cases hpc'
  | @push t s id hs hpc =>
    -- The new entry accounts for its timer.
    intro u v hv hreg
    by_cases hu : u = t
    · subst hu
      exact .inl ⟨⟨s.deadline, id, u⟩, SortedHeap.mem_push.mpr (.inl rfl), rfl⟩
    · simp only [State.setSleep, Function.update_of_ne hu] at hv
      rcases h u v hv hreg with ⟨e, he, het⟩ | hflag
      · exact .inl ⟨e, SortedHeap.mem_push.mpr (.inr he), het⟩
      · exact .inr hflag
  | @pushClosed t s id hs hpc =>
    exact (h.cancel t).1.setSleep hs fun _ => .inr (h.cancel t).2
  | @notifyPushed t s submit hs hpc =>
    have hset : Accounted (σ.setSleep t { s with bound := true, pc := .idle }) :=
      h.setSleep hs fun _ => .inl (.inr hpc)
    exact hset.frame rfl rfl rfl
  | @notifyDropped t s submit hs hpc =>
    have hset : Accounted (σ.setSleep t { s with pc := .dropped }) := by
      refine h.setSleep hs fun hreg => .inl ?_
      rcases hreg with hbound | hpc'
      · exact .inl hbound
      · cases hpc'
    exact hset.frame rfl rfl rfl
  | @drop t s hs hpc =>
    exact (h.cancel t).1.setSleep hs fun _ => .inr (h.cancel t).2
  | driver hm => exact h.driverMove hm

end Accounted

/-! ## Where the flag may be raised -/

/-- Between a pass that looked for due timers and the second read of the flag. -/
def Pc.window : Pc W → Bool
  | .waking _ _ | .checking _ => true
  | _ => false

/-- The flag is not raised in the window, or there are no timers. -/
def Orderly (σ : State W) : Action W → Prop
  | .shutdown => σ.pc.window = false ∨ σ.heap.items = []
  | _ => True

instance (σ : State W) (a : Action W) : Decidable (Orderly σ a) :=
  match a with
  | .shutdown => inferInstanceAs (Decidable (_ ∨ _))
  | .tick _ | .create _ _ | .poll _ _ | .bind _ _ | .push _ | .notify _ _ | .drop _
  | .shutdownNotify _ | .shutdownReturn | .driver _ _ => .isTrue trivial

/-- The driver has left its loop, or is about to. -/
def Pc.leaving : Pc W → Bool
  | .terminating | .finished | .retired | .done => true
  | _ => false

/-- In a pass that looks for due timers. -/
def Pc.scanning : Pc W → Bool
  | .expiring _ | .pruning _ => true
  | _ => false

/-- A pass that looks for due timers holds the heap mutex. -/
theorem Pc.locked_of_scanning {pc : Pc W} (h : pc.scanning = true) : pc.locked = true := by
  cases pc with
  | expiring | pruning => rfl
  | _ => cases h

/-- A pass that looks for due timers is neither in the window nor behind the loop. -/
theorem Pc.of_scanning {pc : Pc W} (h : pc.scanning = true) :
    pc.window = false ∧ pc.leaving = false := by
  cases pc with
  | expiring | pruning => exact ⟨rfl, rfl⟩
  | _ => cases h

/-- What the flag says about the driver and its heap. -/
structure Flagged (σ : State W) : Prop where
  scanning : σ.pc.scanning = true → σ.shutdown = false
  leaving : σ.pc.leaving = true → σ.shutdown = true
  empty : σ.shutdown = true → σ.pc.window = true ∨ σ.pc.leaving = true → σ.heap.items = []
  terminal : σ.gate.phase = .terminal ∨ σ.gate.phase = .destroyed → σ.pc.leaving = true

section Flagged

variable {σ τ : State W} {a : Action W}

/-- At first the flag is not raised. -/
theorem Flagged.init (raw : RawTask) : Flagged (State.init raw : State W) where
  scanning _ := rfl
  leaving h := by cases h
  empty h := by cases h
  terminal h := by rcases h with h | h <;> cases h

/-- The rest of the state does not matter. -/
theorem Flagged.frame (h : Flagged σ) (hpc : τ.pc = σ.pc) (hshutdown : τ.shutdown = σ.shutdown)
    (hheap : τ.heap = σ.heap)
    (hphase : τ.gate.phase = .terminal ∨ τ.gate.phase = .destroyed →
      σ.gate.phase = .terminal ∨ σ.gate.phase = .destroyed) : Flagged τ := by
  obtain ⟨hscanning, hleaving, hempty, hterminal⟩ := h
  rw [← hpc] at hscanning hleaving hempty hterminal
  rw [← hshutdown] at hscanning hleaving hempty
  rw [← hheap] at hempty
  exact ⟨hscanning, hleaving, hempty, fun hp => hterminal (hphase hp)⟩

/-- A notification does not end the driver. -/
theorem DriverGate.noted_phase {gate : DriverGate}
    (h : gate.noted.phase = .terminal ∨ gate.noted.phase = .destroyed) :
    gate.phase = .terminal ∨ gate.phase = .destroyed := by
  unfold DriverGate.noted at h
  dsimp only at h
  split at h
  · rcases h with h | h <;> cases h
  · exact h

/-- The driver goes on inside its loop. -/
theorem Flagged.advance (h : Flagged σ) (hpc : σ.pc.leaving = false) (hgate : τ.gate = σ.gate)
    (hscanning : τ.pc.scanning = true → τ.shutdown = false)
    (hleaving : τ.pc.leaving = true → τ.shutdown = true)
    (hempty : τ.shutdown = true → τ.pc.window = true ∨ τ.pc.leaving = true →
      τ.heap.items = []) : Flagged τ := by
  refine ⟨hscanning, hleaving, hempty, fun hphase => ?_⟩
  rw [hgate] at hphase
  rw [h.terminal hphase] at hpc
  cases hpc

/-- The driver goes on in a pass that was begun without the flag. -/
theorem Flagged.scans (h : Flagged σ) (hpc : σ.pc.leaving = false) (hgate : τ.gate = σ.gate)
    (hshutdown : τ.shutdown = false) (hscanning : τ.pc.scanning = true) : Flagged τ := by
  obtain ⟨hwindow, hleaving⟩ := Pc.of_scanning hscanning
  refine h.advance hpc hgate (fun _ => hshutdown) (fun hl => ?_) fun _ hw => ?_
  · rw [hleaving] at hl
    cases hl
  · rw [hwindow, hleaving] at hw
    rcases hw with hw | hw <;> cases hw

/-- The driver goes to a place where the flag says nothing. -/
theorem Flagged.idle (h : Flagged σ) (hpc : σ.pc.leaving = false)
    (hscanning : τ.pc.scanning = false) (hleaving : τ.pc.leaving = false)
    (hwindow : τ.pc.window = false)
    (hphase : ¬(τ.gate.phase = .terminal ∨ τ.gate.phase = .destroyed) ∨ τ.gate = σ.gate) :
    Flagged τ := by
  refine ⟨fun hs => ?_, fun hl => ?_, fun _ hw => ?_, fun hp => ?_⟩
  · rw [hscanning] at hs
    cases hs
  · rw [hleaving] at hl
    cases hl
  · rw [hleaving, hwindow] at hw
    rcases hw with hw | hw <;> cases hw
  · rcases hphase with hphase | hgate
    · exact absurd hp hphase
    · rw [hgate] at hp
      rw [h.terminal hp] at hpc
      cases hpc

/-- The driver leaves its loop. -/
theorem Flagged.leave (h : Flagged σ) (hpc : σ.pc.leaving = true) (hleaving : τ.pc.leaving = true)
    (hscanning : τ.pc.scanning = false) (hshutdown : τ.shutdown = σ.shutdown)
    (hheap : τ.heap = σ.heap) : Flagged τ := by
  refine ⟨fun hs => ?_, fun _ => hshutdown.trans (h.leaving hpc), fun _ _ => ?_, fun _ => hleaving⟩
  · rw [hscanning] at hs
    cases hs
  · rw [hheap]
    exact h.empty (h.leaving hpc) (.inr hpc)

/-- The driver keeps what the flag says. -/
theorem Flagged.driverMove (h : Flagged σ) (hm : DriverMove σ τ) : Flagged τ := by
  cases hm with
  | scanShutdown hpc => exact h.idle (by rw [hpc]; rfl) rfl rfl rfl (.inr rfl)
  | drain hpc =>
    exact h.idle (by rw [hpc]; rfl) (by simp [State.setTimer, hpc, Pc.scanning])
      (by simp [State.setTimer, hpc, Pc.leaving]) (by simp [State.setTimer, hpc, Pc.window])
      (.inr rfl)
  | check hpc => exact h.idle (by rw [hpc]; rfl) rfl rfl rfl (.inr rfl)
  | decideNotified hpc => exact h.idle (by rw [hpc]; rfl) rfl rfl rfl (.inl (by simp))
  | @park wait hpc =>
    refine h.idle (by rw [hpc]; rfl) rfl rfl rfl (.inl ?_)
    rcases DriverPark.ofWait_cases wait with ⟨-, hof⟩ | ⟨-, hof⟩ <;> simp [hof]
  | unpark hpc => exact h.idle (by rw [hpc]; rfl) rfl rfl rfl (.inr rfl)
  | resume hpc => exact h.idle (by rw [hpc]; rfl) rfl rfl rfl (.inl (by simp))
  | scan hpc hshutdown => exact h.scans (by rw [hpc]; rfl) rfl hshutdown rfl
  -- The heap stays locked through the two loops, so the flag is not raised in them.
  | skip hpc | prune hpc =>
    have hscanning : σ.pc.scanning = true := by rw [hpc]; rfl
    exact h.scans (by rw [hpc]; rfl) rfl (h.scanning hscanning) hscanning
  | fire hpc | expired hpc =>
    exact h.scans (by rw [hpc]; rfl) rfl (h.scanning (by rw [hpc]; rfl)) rfl
  | @pruned wait wake hpc =>
    -- A pass that looked for due timers was begun without the flag, and kept the heap locked.
    have hshutdown := h.scanning (by rw [hpc]; rfl)
    refine h.advance (by rw [hpc]; rfl) rfl (by simp [Pc.scanning]) (by simp [Pc.leaving])
      fun htrue _ => ?_
    rw [show σ.shutdown = true from htrue] at hshutdown
    cases hshutdown
  | drained hpc hempty =>
    exact h.advance (by rw [hpc]; rfl) rfl (by simp [Pc.scanning]) (by simp [Pc.leaving])
      fun _ _ => hempty
  | wake hpc =>
    exact h.advance (by rw [hpc]; rfl) rfl (by simp [Pc.scanning]) (by simp [Pc.leaving])
      fun htrue _ => h.empty htrue (.inl (by rw [hpc]; rfl))
  | woken hpc =>
    exact h.advance (by rw [hpc]; rfl) rfl (by simp [Pc.scanning]) (by simp [Pc.leaving])
      fun htrue _ => h.empty htrue (.inl (by rw [hpc]; rfl))
  | checkShutdown hpc hshutdown =>
    exact h.advance (by rw [hpc]; rfl) rfl (by simp [Pc.scanning]) (fun _ => hshutdown)
      fun htrue _ => h.empty htrue (.inl (by rw [hpc]; rfl))
  | terminate hpc => exact h.leave (by rw [hpc]; rfl) rfl rfl rfl rfl
  | retire hpc => exact h.leave (by rw [hpc]; rfl) rfl rfl rfl rfl
  | complete hpc => exact h.leave (by rw [hpc]; rfl) rfl rfl rfl rfl

/-- Every orderly step keeps what the flag says. -/
theorem Flagged.move (h : Flagged σ) (horderly : Orderly σ a) (hm : Move σ a τ) : Flagged τ := by
  cases hm with
  | tick | create | pollReady | pollPending | bind | bindPanic | pushClosed | drop
  | shutdownReturn => exact h.frame rfl rfl rfl id
  | notifyPushed | notifyDropped | shutdownNotify =>
    exact h.frame rfl rfl rfl DriverGate.noted_phase
  | push hs hpc hlock hshutdown =>
    -- `register` pushes only behind a flag that is down.
    refine ⟨h.scanning, h.leaving, fun htrue _ => ?_, h.terminal⟩
    rw [show σ.shutdown = true from htrue] at hshutdown
    cases hshutdown
  | shutdown howner hlock =>
    refine ⟨?_, fun _ => rfl, fun _ hw => ?_, h.terminal⟩
    · intro hscanning
      rw [Pc.locked_of_scanning hscanning] at hlock
      cases hlock
    · rcases hw with hw | hw
      · -- In the window the step is orderly only on an empty heap.
        rcases horderly with hno | hempty
        · rw [show σ.pc.window = true from hw] at hno
          cases hno
        · exact hempty
      · exact h.empty (h.leaving hw) (.inr hw)
  | driver hm => exact h.driverMove hm

end Flagged

/-! ## Shutdown cancels every timer -/

/-- The driver has nothing left, and gets nothing any more. -/
structure Cancelled [DecidableEq W] (σ : State W) : Prop where
  heap : σ.heap.items = []
  /-- It retains no waiter. -/
  waiters : σ.pc.wake = []
  /-- Every timer ever registered is fired or cancelled. -/
  timers : ∀ t s, σ.sleeps t = some s → s.Registered →
    (σ.timers t).fired = true ∨ (σ.timers t).cancelled = true
  /-- No later registration adds an entry. -/
  closed : ∀ τ, Lts.Reaches step Lts.Always σ τ → τ.heap.items = []

section Cancelled

variable {σ τ : State W} {a : Action W}

/-- With the flag raised an empty heap stays empty. -/
theorem Move.closed (hm : Move σ a τ) (hshutdown : σ.shutdown = true) (hempty : σ.heap.items = []) :
    τ.shutdown = true ∧ τ.heap.items = [] := by
  cases hm with
  | push hs hpc hlock hfalse =>
    rw [hshutdown] at hfalse
    cases hfalse
  | shutdown => exact ⟨rfl, hempty⟩
  | driver hm =>
    cases hm with
    | drain => exact ⟨hshutdown, by simp [SortedHeap.take, hempty]⟩
    | skip | prune | fire => exact ⟨hshutdown, by simp [SortedHeap.pop, hempty]⟩
    | scanShutdown | scan | drained | expired | pruned | wake | woken | checkShutdown | check
    | terminate | decideNotified | park | unpark | resume | retire | complete =>
      exact ⟨hshutdown, hempty⟩
  | tick | create | pollReady | pollPending | bind | bindPanic | pushClosed | notifyPushed
  | notifyDropped | drop | shutdownNotify | shutdownReturn => exact ⟨hshutdown, hempty⟩

variable [DecidableEq W]

/-- In a run that raises the flag only when no pass is between its look at the heap and its second
look at the flag, or when there is no timer, a driver that has become terminal has cancelled every
timer it has not fired, and retains nothing. -/
theorem shutdown_cancels (raw : RawTask) (σ : State W)
    (h : Lts.Reaches step Orderly (State.init raw) σ)
    (hterminal : σ.gate.phase = .terminal ∨ σ.gate.phase = .destroyed) : Cancelled σ := by
  have hflagged : Flagged σ := h.invariant (.init raw) fun _ _ _ hf hok hstep =>
    hf.move hok (move_of_step hstep)
  have haccounted : Accounted σ := h.invariant (fun _ _ hs => by cases hs) fun _ _ _ ha _ hstep =>
    ha.move (move_of_step hstep)
  have hleaving := hflagged.terminal hterminal
  have hshutdown := hflagged.leaving hleaving
  have hempty := hflagged.empty hshutdown (.inr hleaving)
  refine ⟨hempty, ?_, fun t s hs hreg => ?_, fun τ hτ => ?_⟩
  · cases hpc : σ.pc <;> rw [hpc] at hleaving <;> first | rfl | cases hleaving
  · rcases haccounted t s hs hreg with ⟨e, he, -⟩ | hflag
    · rw [← SortedHeap.mem_items, hempty] at he
      cases he
    · exact hflag
  · have hclosed := hτ.invariant (I := fun τ => τ.shutdown = true ∧ τ.heap.items = [])
      ⟨hshutdown, hempty⟩ fun _ _ _ hi _ hstep => (move_of_step hstep).closed hi.1 hi.2
    exact hclosed.2

/-- A timer due at 10 is registered, and the flag is raised while the driver waits for it. -/
def cancelling : List (Action ℕ) :=
  waiting ++ [.shutdown, .shutdownNotify (.ok ())] ++ List.replicate 8 (.driver (.ok ()) 0)

/-- The timer is cancelled when the driver is terminal. -/
theorem shutdown_cancels_tiny :
    ∃ σ : State ℕ, Lts.Reaches step Orderly (.init 5) σ ∧ σ.gate.phase = .terminal ∧
      Cancelled σ := by
  have hrun : (Lts.exec step Orderly cancelling (.init 5)).any
      (fun σ : State ℕ => σ.gate.phase = .terminal) = true := by decide
  obtain ⟨σ, hσ, hphase⟩ := Lts.exists_of_exec hrun
  exact ⟨σ, hσ, hphase, shutdown_cancels 5 σ hσ (.inl hphase)⟩

/-- A timer is registered, and the flag is raised behind the first pass. -/
def abandoning : List (Action ℕ) :=
  [.create 0 10, .poll 0 7, .bind 0 true, .push 0, .notify 0 (.ok ())] ++
    List.replicate 3 (.driver (.ok ()) 0) ++ [.shutdown] ++ List.replicate 3 (.driver (.ok ()) 0)

/-- The driver becomes terminal with the timer in its heap. -/
theorem shutdown_abandons :
    ¬∀ σ : State ℕ, Lts.Reaches step Lts.Always (.init 5) σ → σ.gate.phase = .terminal →
      Cancelled σ := by
  intro h
  have hrun : (Lts.exec step Lts.Always abandoning (.init 5)).any
      (fun σ : State ℕ => σ.gate.phase = .terminal ∧ σ.heap.items ≠ []) = true := by decide
  obtain ⟨σ, hσ, hphase, hheap⟩ := Lts.exists_of_exec hrun
  exact hheap (h σ hσ hphase).heap

end Cancelled

end Nosv.Timer
