import Nosv.Timer.Registered

/-!
# No timer early, no deadline slept through

After a pass nothing in the heap is due before the wait that the pass has chosen. An entry that
comes later is either still on its way to notify the driver or has left a note in the gate, and the
driver does not park with a note in the gate. So a driver that is parked sleeps through no deadline
of a registration that has returned, and one whose gate does not say that it is parked any more has
been sent the wake its park listens to.

* `invariant`: what the driver keeps in every reachable state;
* `timers_punctual`: no timer fires early, and no deadline is slept through.
-/

namespace Nosv.Timer

variable {W : Type}

/-- The entry is not due within the wait chosen, or the driver will look at the heap again before
it parks. -/
def State.Seen (σ : State W) (wait : Option ℕ) (e : TimerEntry) : Prop :=
  (∃ d, wait = some d ∧ σ.pass + d ≤ e.deadline) ∨ σ.gate.notified = true ∨
    ∃ s, σ.sleeps e.timer = some s ∧ s.pc = .pushed

/-- Where the driver is, against the heap and the gate. -/
structure Driving (σ : State W) : Prop where
  pass : σ.pass ≤ σ.clock
  late : ∀ wake, σ.pc = .pruning wake → ∀ e ∈ σ.heap, σ.pass < e.deadline
  seen : ∀ wait, σ.pc.chosen = some wait → ∀ e ∈ σ.heap, σ.Seen wait e
  parked : σ.gate.phase = .paused ∨ σ.gate.phase = .deadlineWait → σ.gate.notified = false ∧
    ∃ wait, (σ.pc = .parked wait ∨ σ.pc = .resumed wait) ∧ σ.gate.phase = .ofWait wait
  woken : ∀ wait, σ.pc = .parked wait → σ.gate.phase = .ofWait wait ∨
    σ.gate.phase = .wakePending ∧ ∃ wake, (DriverPark.ofWait wait).wake = some wake ∧
      wake ∈ σ.wakes
  /-- The wakers taken have been invoked, or are about to be. -/
  taken : σ.woken ++ σ.pc.wake = σ.fires.filterMap (·.waiter)

section Driving

variable {σ τ : State W} {a : Action W} {t : TimerId}

/-- The phase of a park is one of the two. -/
theorem DriverPark.ofWait_cases (wait : Option ℕ) :
    (wait = none ∧ DriverPark.ofWait wait = .paused) ∨
      (∃ d, wait = some d) ∧ DriverPark.ofWait wait = .deadlineWait := by
  cases wait with
  | none => exact .inl ⟨rfl, rfl⟩
  | some d => exact .inr ⟨⟨d, rfl⟩, rfl⟩

/-- A driver that was just submitted is at the top of its loop. -/
theorem Driving.init (raw : RawTask) : Driving (State.init raw : State W) where
  pass := le_rfl
  late _ hpc := by cases hpc
  seen _ hpc := by cases hpc
  parked hphase := by rcases hphase with h | h <;> cases h
  woken _ hpc := by cases hpc
  taken := rfl

/-- A driver that is neither in a park nor just out of one has no park phase. -/
theorem Driving.awake (h : Driving σ) (hparked : ∀ wait, σ.pc ≠ .parked wait)
    (hresumed : ∀ wait, σ.pc ≠ .resumed wait) :
    ¬(σ.gate.phase = .paused ∨ σ.gate.phase = .deadlineWait) := by
  intro hphase
  obtain ⟨-, wait, hpc | hpc, -⟩ := h.parked hphase
  · exact hparked wait hpc
  · exact hresumed wait hpc

/-- What sleeps do beside the notifications does not concern the driver. -/
theorem Driving.frame (h : Driving σ) (hclock : σ.clock ≤ τ.clock) (hheap : τ.heap = σ.heap)
    (hgate : τ.gate = σ.gate) (hpc : τ.pc = σ.pc) (hpass : τ.pass = σ.pass)
    (hfires : τ.fires = σ.fires) (hwoken : τ.woken = σ.woken) (hwakes : τ.wakes = σ.wakes)
    (hpushed : ∀ t s, σ.sleeps t = some s → s.pc = .pushed →
      ∃ s', τ.sleeps t = some s' ∧ s'.pc = .pushed) : Driving τ := by
  obtain ⟨hp, hlate, hseen, hparked, hw, htaken⟩ := h
  rw [← hgate] at hparked hw
  rw [← hpc] at hlate hseen hparked hw htaken
  rw [← hpass] at hp hlate
  rw [← hheap] at hlate hseen
  rw [← hfires, ← hwoken] at htaken
  rw [← hwakes] at hw
  refine ⟨hp.trans hclock, hlate, fun wait hwait e he => ?_, hparked, hw, htaken⟩
  -- An entry was seen by the pass, or is covered by a note that is there or to come.
  rcases hseen wait hwait e he with ⟨d, hd, hle⟩ | hnotified | ⟨s, hs, hs'⟩
  · exact .inl ⟨d, hd, hpass ▸ hle⟩
  · exact .inr (.inl (hgate ▸ hnotified))
  · exact .inr (.inr (hpushed _ s hs hs'))

/-- A sleep that is not between push and notification may do what it likes. -/
theorem Driving.setSleep (h : Driving σ) {s : Sleep W} (hs : σ.sleeps t = some s)
    (hpc : s.pc ≠ .pushed) (s' : Sleep W) (state : TimerState W) :
    Driving ((σ.setTimer t state).setSleep t s') := by
  refine h.frame le_rfl rfl rfl rfl rfl rfl rfl rfl fun u v hv hv' => ?_
  have hu : u ≠ t := by
    rintro rfl
    exact hpc (Option.some.inj (hs.symm.trans hv) ▸ hv')
  exact ⟨v, by simp [State.setSleep, State.setTimer, hu, hv], hv'⟩

/-- A notification covers every entry. -/
theorem Driving.noted (h : Driving σ) (sleeps : TimerId → Option (Sleep W)) (owner : OwnerPc) :
    Driving { σ with sleeps := sleeps, owner := owner : State W }.noted where
  pass := h.pass
  late := h.late
  seen _ _ _ _ := .inr (.inl rfl)
  parked := by
    show (if σ.gate.phase.wake.isSome then DriverPark.wakePending else σ.gate.phase) = _ ∨
      (if σ.gate.phase.wake.isSome then DriverPark.wakePending else σ.gate.phase) = _ → _
    cases hphase : σ.gate.phase <;> simp [DriverPark.wake]
  woken wait hpc := by
    -- The first notification of a park sends the wake, the others find it sent.
    rcases h.woken wait hpc with hphase | ⟨hphase, wake, hwake, hmem⟩
    · right
      show (if σ.gate.phase.wake.isSome then DriverPark.wakePending else σ.gate.phase) = _ ∧
        ∃ wake, _ ∧ wake ∈ σ.wakes ++ σ.gate.phase.wake.toList
      rw [hphase]
      rcases DriverPark.ofWait_cases wait with ⟨-, hof⟩ | ⟨-, hof⟩ <;>
        simp [hof, DriverPark.wake]
    · right
      refine ⟨?_, wake, hwake, List.mem_append_left _ hmem⟩
      show (if σ.gate.phase.wake.isSome then DriverPark.wakePending else σ.gate.phase) = _
      simp [hphase]
  taken := h.taken

/-- An entry that was just pushed will be followed by a notification. -/
theorem Driving.push (h : Driving σ) {s : Sleep W} {id : ℕ} (hs : σ.sleeps t = some s)
    (hpc : s.pc = .allocated id) (hlock : σ.pc.locked = false) :
    Driving
      { σ.setSleep t { s with pc := .pushed } with heap := σ.heap.push ⟨s.deadline, id, t⟩ } := by
  have hset : Driving (σ.setSleep t { s with pc := .pushed }) := by
    have := h.setSleep hs (by simp [hpc]) { s with pc := .pushed } (σ.timers t)
    simpa [State.setTimer] using this
  refine { hset with late := fun wake hpruning => ?_, seen := fun wait hwait e he => ?_ }
  · -- The lock of the heap keeps registrations out of a pass.
    have hpruning' : σ.pc = .pruning wake := hpruning
    rw [hpruning'] at hlock
    cases hlock
  · rw [SortedHeap.mem_push] at he
    rcases he with rfl | he
    · exact .inr (.inr ⟨{ s with pc := .pushed }, by simp [State.setSleep], rfl⟩)
    · exact hset.seen wait hwait e he

/-- The driver goes on inside a pass, or between a pass and its decision. -/
theorem Driving.advance (h : Driving σ) (hparked : ∀ wait, σ.pc ≠ .parked wait)
    (hresumed : ∀ wait, σ.pc ≠ .resumed wait) (hpass : τ.pass ≤ τ.clock) (hgate : τ.gate = σ.gate)
    (hlate : ∀ wake, τ.pc = .pruning wake → ∀ e ∈ τ.heap, τ.pass < e.deadline)
    (hseen : ∀ wait, τ.pc.chosen = some wait → ∀ e ∈ τ.heap, τ.Seen wait e)
    (hparked' : ∀ wait, τ.pc ≠ .parked wait)
    (htaken : τ.woken ++ τ.pc.wake = τ.fires.filterMap (·.waiter)) : Driving τ where
  pass := hpass
  late := hlate
  seen := hseen
  parked hphase := absurd (hgate ▸ hphase) (h.awake hparked hresumed)
  woken wait hpc := absurd hpc (hparked' wait)
  taken := htaken

/-- The driver goes on where nothing is chosen to wait for. -/
theorem Driving.unchosen (h : Driving σ) (hparked : ∀ wait, σ.pc ≠ .parked wait)
    (hresumed : ∀ wait, σ.pc ≠ .resumed wait) (hpass : τ.pass ≤ τ.clock) (hgate : τ.gate = σ.gate)
    (hpruning : ∀ wake, τ.pc ≠ .pruning wake) (hchosen : τ.pc.chosen = none)
    (htaken : τ.woken ++ τ.pc.wake = τ.fires.filterMap (·.waiter)) : Driving τ := by
  refine h.advance hparked hresumed hpass hgate (fun wake hpc => absurd hpc (hpruning wake))
    (fun wait hwait => ?_) (fun wait hpc => ?_) htaken
  · rw [hchosen] at hwait
    cases hwait
  · rw [hpc] at hchosen
    cases hchosen

/-- The driver is on its way to the next pass, or out of its loop. -/
theorem Driving.leave (hpass : τ.pass ≤ τ.clock) (hpruning : ∀ wake, τ.pc ≠ .pruning wake)
    (hchosen : τ.pc.chosen = none)
    (hphase : ¬(τ.gate.phase = .paused ∨ τ.gate.phase = .deadlineWait))
    (htaken : τ.woken ++ τ.pc.wake = τ.fires.filterMap (·.waiter)) : Driving τ where
  pass := hpass
  late wake hpc := absurd hpc (hpruning wake)
  seen wait hwait := by
    rw [hchosen] at hwait
    cases hwait
  parked h := absurd h hphase
  woken wait hpc := by
    rw [hpc] at hchosen
    cases hchosen
  taken := htaken

/-- Nothing in the heap is due before the wait that a pass chooses. -/
theorem Driving.choose (h : Driving σ) {wake : List W} (hpc : σ.pc = .pruning wake)
    {e : TimerEntry} (he : e ∈ σ.heap) :
    ∃ d, σ.heap.peek.map (·.deadline - σ.pass) = some d ∧ σ.pass + d ≤ e.deadline := by
  cases hpeek : σ.heap.peek with
  | none =>
    rw [← SortedHeap.mem_items, SortedHeap.peek_eq_none.mp hpeek] at he
    cases he
  | some first =>
    -- The first entry is late, so the subtraction of the wait does not saturate.
    refine ⟨first.deadline - σ.pass, rfl, ?_⟩
    have hle := deadline_le_of_peek hpeek he
    have hlt := h.late wake hpc first (SortedHeap.mem_of_peek hpeek)
    omega

/-- The driver keeps its promises. -/
theorem Driving.driverMove (h : Driving σ) (hm : DriverMove σ τ) : Driving τ := by
  have htaken := h.taken
  cases hm with
  | scanShutdown hpc =>
    rw [hpc] at htaken
    exact h.unchosen (by simp [hpc]) (by simp [hpc]) h.pass rfl (by simp) rfl htaken
  | scan hpc =>
    rw [hpc] at htaken
    exact h.unchosen (by simp [hpc]) (by simp [hpc]) le_rfl rfl (by simp) rfl htaken
  | drained hpc hempty =>
    rw [hpc] at htaken
    refine h.advance (by simp [hpc]) (by simp [hpc]) h.pass rfl (by simp) ?_ (by simp) htaken
    -- A drained heap has nothing to be seen.
    intro wait _ e he
    rw [← SortedHeap.mem_items, hempty] at he
    cases he
  | drain hpc =>
    refine h.advance (by simp [hpc]) (by simp [hpc]) h.pass rfl ?_ ?_
      (by simp [State.setTimer, hpc]) htaken
    · simp [State.setTimer, hpc]
    · simp [State.setTimer, hpc, Pc.chosen]
  | skip hpc =>
    refine h.advance (by simp [hpc]) (by simp [hpc]) h.pass rfl ?_ ?_ (by simp [hpc]) htaken
    · simp [hpc]
    · simp [hpc, Pc.chosen]
  | @fire entry wake hpc =>
    rw [hpc] at htaken
    refine h.unchosen (by simp [hpc]) (by simp [hpc]) h.pass rfl (by simp) rfl ?_
    simp only [Pc.wake, State.setTimer] at htaken ⊢
    -- The waiter goes to the end of the list of those to be woken.
    rw [← List.append_assoc, htaken, List.filterMap_append]
    cases (σ.timers entry.timer).waiter <;> rfl
  | expired hpc hlate =>
    rw [hpc] at htaken
    exact h.advance (by simp [hpc]) (by simp [hpc]) h.pass rfl (fun _ _ => hlate)
      (by simp [Pc.chosen]) (by simp) htaken
  | prune hpc =>
    refine h.advance (by simp [hpc]) (by simp [hpc]) h.pass rfl ?_ ?_ (by simp [hpc]) htaken
    · exact fun wake hpc' e he => h.late wake hpc' e (SortedHeap.mem_of_mem_pop he)
    · simp [hpc, Pc.chosen]
  | pruned hpc hwait =>
    rw [hpc] at htaken
    refine h.advance (by simp [hpc]) (by simp [hpc]) h.pass rfl (by simp) ?_ (by simp) htaken
    rintro _ ⟨⟩ e he
    obtain ⟨d, hd, hle⟩ := h.choose hpc he
    exact .inl ⟨d, hwait.trans hd, hle⟩
  | @wake wait waiter rest hpc =>
    have hseen := h.seen wait (by rw [hpc]; rfl)
    rw [hpc] at htaken
    refine h.advance (by simp [hpc]) (by simp [hpc]) h.pass rfl (by simp) ?_ (by simp) ?_
    · rintro _ ⟨⟩
      exact hseen
    · rw [← htaken]
      simp [Pc.wake]
  | @woken wait hpc =>
    have hseen := h.seen wait (by rw [hpc]; rfl)
    rw [hpc] at htaken
    refine h.advance (by simp [hpc]) (by simp [hpc]) h.pass rfl (by simp) ?_ (by simp) htaken
    rintro _ ⟨⟩
    exact hseen
  | checkShutdown hpc =>
    rw [hpc] at htaken
    exact h.unchosen (by simp [hpc]) (by simp [hpc]) h.pass rfl (by simp) rfl htaken
  | @check wait hpc =>
    have hseen := h.seen wait (by rw [hpc]; rfl)
    rw [hpc] at htaken
    refine h.advance (by simp [hpc]) (by simp [hpc]) h.pass rfl (by simp) ?_ (by simp) htaken
    rintro _ ⟨⟩
    exact hseen
  | terminate hpc =>
    rw [hpc] at htaken
    exact .leave h.pass (by simp) rfl (by simp) htaken
  | decideNotified hpc =>
    rw [hpc] at htaken
    exact .leave h.pass (by simp) rfl (by simp) htaken
  | @park wait hpc hnotified =>
    have hseen := h.seen wait (by rw [hpc]; rfl)
    rw [hpc] at htaken
    -- With no note in the gate, the entries are those the pass has seen.
    refine ⟨h.pass, (by simp), ?_, fun _ => ⟨hnotified, wait, .inl rfl, rfl⟩, ?_, htaken⟩
    · rintro _ ⟨⟩
      exact hseen
    · rintro _ ⟨⟩
      exact .inl rfl
  | @unpark wait hpc =>
    have hseen := h.seen wait (by rw [hpc]; rfl)
    rw [hpc] at htaken
    refine ⟨h.pass, (by simp), ?_, fun hphase => ?_, (by simp), htaken⟩
    · rintro _ ⟨⟩
      exact hseen
    · obtain ⟨hnotified, wait', hpc' | hpc', hof⟩ := h.parked hphase
      · rw [hpc] at hpc'
        cases hpc'
        exact ⟨hnotified, wait, .inr rfl, hof⟩
      · rw [hpc] at hpc'
        cases hpc'
  | resume hpc =>
    rw [hpc] at htaken
    exact .leave h.pass (by simp) rfl (by simp) htaken
  | retire hpc =>
    rw [hpc] at htaken
    exact .leave h.pass (by simp) rfl (by simp) htaken
  | complete hpc =>
    rw [hpc] at htaken
    exact h.unchosen (by simp [hpc]) (by simp [hpc]) h.pass rfl (by simp) rfl htaken

/-- Every step keeps the promises of the driver. -/
theorem Driving.move (h : Driving σ) (hm : Move σ a τ) : Driving τ := by
  -- Only pushes, notifications and the driver's own steps matter to it.
  cases hm with
  | tick hle => exact h.frame hle rfl rfl rfl rfl rfl rfl rfl fun _ s hs hpc => ⟨s, hs, hpc⟩
  | @create t deadline hs =>
    refine h.frame le_rfl rfl rfl rfl rfl rfl rfl rfl fun u v hv hv' => ?_
    have hu : u ≠ t := by
      rintro rfl
      rw [hs] at hv
      cases hv
    exact ⟨v, by simp [State.setSleep, State.setTimer, hu, hv], hv'⟩
  | pollReady => exact h.frame le_rfl rfl rfl rfl rfl rfl rfl rfl fun _ s hs hpc => ⟨s, hs, hpc⟩
  | pollPending hs hpc => exact h.setSleep hs (by simp [hpc]) _ _
  -- The identifier is taken before the push.
  | @bind t s hs hpc =>
    have hset := h.setSleep hs (by simp [hpc]) { s with pc := .allocated σ.nextId } (σ.timers t)
    exact hset.frame le_rfl rfl rfl rfl rfl rfl rfl rfl fun _ s hs hpc => ⟨s, hs, hpc⟩
  | @bindPanic t s hs hpc =>
    have hset := h.setSleep hs (by simp [hpc]) { s with pc := .idle } (σ.timers t)
    exact hset.frame le_rfl rfl rfl rfl rfl rfl rfl rfl fun _ s hs hpc => ⟨s, hs, hpc⟩
  | push hs hpc hlock => exact h.push hs hpc hlock
  | pushClosed hs hpc => exact h.setSleep hs (by simp [hpc]) _ _
  | notifyPushed hs => exact h.noted _ _
  | notifyDropped hs => exact h.noted _ _
  | drop hs hpc => exact h.setSleep hs (by simp [hpc]) _ _
  | shutdown => exact h.frame le_rfl rfl rfl rfl rfl rfl rfl rfl fun _ s hs hpc => ⟨s, hs, hpc⟩
  | shutdownNotify => exact h.noted _ _
  | shutdownReturn =>
    exact h.frame le_rfl rfl rfl rfl rfl rfl rfl rfl fun _ s hs hpc => ⟨s, hs, hpc⟩
  | driver hm => exact h.driverMove hm

end Driving

/-! ## Punctuality -/

section Punctual

variable [DecidableEq W] {raw : RawTask} {ok : State W → Action W → Prop} {σ : State W}

/-- The invariant of every run. -/
theorem invariant (h : Lts.Reaches step ok (State.init raw) σ) : Wf σ ∧ Driving σ :=
  h.invariant (I := fun σ => Wf σ ∧ Driving σ) ⟨.init raw, .init raw⟩
    fun _ _ _ ⟨hwf, hdriving⟩ _ hstep =>
      have hm := move_of_step hstep
      ⟨hwf.move hdriving.pass hm, hdriving.move hm⟩

/-- The entry is of a live timer whose registration has returned. -/
def State.Outstanding (σ : State W) (e : TimerEntry) : Prop :=
  (σ.timers e.timer).cancelled = false ∧ (σ.timers e.timer).fired = false ∧
    ∃ s, σ.sleeps e.timer = some s ∧ s.bound = true

/-- No timer fires early, and the driver sleeps through no deadline. -/
structure Punctual (σ : State W) : Prop where
  /-- A timer has fired only if the clock has reached its deadline. -/
  due : ∀ t s, σ.sleeps t = some s → (σ.timers t).fired = true → s.deadline ≤ σ.clock
  /-- There is no note in the gate of a parked driver. -/
  notified : σ.gate.phase = .paused ∨ σ.gate.phase = .deadlineWait → σ.gate.notified = false
  /-- Every registered timer is due after the wait of the driver. -/
  wait : σ.gate.phase = .deadlineWait → ∃ wait, σ.pc.chosen = some (some wait) ∧
    ∀ e ∈ σ.heap, σ.Outstanding e → σ.pass + wait ≤ e.deadline
  /-- The driver pauses with nothing to wait for. -/
  pause : σ.gate.phase = .paused → ∀ e ∈ σ.heap, ¬σ.Outstanding e
  /-- A park that the gate has left was sent the wake it returns for. -/
  woken : ∀ wait, σ.pc = .parked wait → σ.gate.phase = .ofWait wait ∨
    ∃ wake, (DriverPark.ofWait wait).wake = some wake ∧ wake ∈ σ.wakes
  /-- What the driver takes when it fires a timer is the waiter of its last pending poll. -/
  fires : ∀ f ∈ σ.fires, ∃ s, σ.sleeps f.timer = some s ∧ s.pending = f.waiter ∧
    f.waiter.isSome = true
  /-- And all that it has taken is woken, before it parks. -/
  wakes : σ.woken ++ σ.pc.wake = σ.fires.filterMap (·.waiter)
  parked : σ.gate.phase = .paused ∨ σ.gate.phase = .deadlineWait → σ.pc.wake = []

omit [DecidableEq W] in
/-- The registration of an entry that is outstanding has notified the driver. -/
theorem Wf.not_pushed (hwf : Wf σ) {e : TimerEntry} (h : σ.Outstanding e) :
    ¬∃ s, σ.sleeps e.timer = some s ∧ s.pc = .pushed := by
  rintro ⟨s, hs, hpc⟩
  obtain ⟨-, -, s', hs', hbound⟩ := h
  obtain rfl := Option.some.inj (hs.symm.trans hs')
  rw [hwf.early _ _ hs (.inr hpc)] at hbound
  cases hbound

/-- Whatever the sleeps, their owners, the driver and the clock do, and in whatever order, no timer
fires before its deadline, a parked driver has seen every registration that has returned and wakes
up for the first of them, and a timer that the driver fires wakes the task that waits for it. -/
theorem timers_punctual (raw : RawTask) (σ : State W)
    (h : Lts.Reaches step Lts.Always (State.init raw) σ) : Punctual σ := by
  obtain ⟨hwf, hdriving⟩ := invariant h
  have hparked := hdriving.parked
  refine ⟨hwf.due, fun hphase => (hparked hphase).1, fun hphase => ?_, fun hphase e he hout => ?_,
    fun wait hpc => ?_, fun f hf => ?_, hdriving.taken, fun hphase => ?_⟩
  · obtain ⟨hnotified, wait, hpc, hof⟩ := hparked (.inr hphase)
    have hchosen : σ.pc.chosen = some wait := by rcases hpc with hpc | hpc <;> rw [hpc] <;> rfl
    rcases DriverPark.ofWait_cases wait with ⟨-, hof'⟩ | ⟨⟨d, rfl⟩, -⟩
    · rw [hphase, hof'] at hof
      cases hof
    · refine ⟨d, hchosen, fun e he hout => ?_⟩
      rcases hdriving.seen _ hchosen e he with ⟨d', hd, hle⟩ | hnote | hpushed
      · obtain rfl := Option.some.inj hd
        exact hle
      · -- A parked driver has no note.
        rw [hnotified] at hnote
        cases hnote
      · -- A registration still to notify has not returned.
        exact absurd hpushed (hwf.not_pushed hout)
  · obtain ⟨hnotified, wait, hpc, hof⟩ := hparked (.inl hphase)
    have hchosen : σ.pc.chosen = some wait := by rcases hpc with hpc | hpc <;> rw [hpc] <;> rfl
    rcases DriverPark.ofWait_cases wait with ⟨rfl, -⟩ | ⟨-, hof'⟩
    · rcases hdriving.seen _ hchosen e he with ⟨d, hd, -⟩ | hnote | hpushed
      · cases hd
      · rw [hnotified] at hnote
        cases hnote
      · exact hwf.not_pushed hout hpushed
    · rw [hphase, hof'] at hof
      cases hof
  · exact (hdriving.woken wait hpc).imp_right And.right
  · obtain ⟨s, hs, -, -, hpending, hsome⟩ := hwf.fire f hf
    exact ⟨s, hs, hpending, hsome⟩
  · obtain ⟨-, wait, hpc | hpc, -⟩ := hparked hphase <;> rw [hpc] <;> rfl

/-- A timer due at 10 is registered, and the driver waits for it after a second pass. -/
def waiting : List (Action ℕ) :=
  [.create 0 10, .poll 0 7, .bind 0 true, .push 0, .notify 0 (.ok ())] ++
    List.replicate 12 (.driver (.ok ()) 0)

/-- The driver that waits for the first timer has chosen a wait of 10. -/
theorem timers_punctual_tiny :
    ∃ σ : State ℕ, Lts.Reaches step Lts.Always (.init 5) σ ∧ σ.gate.phase = .deadlineWait ∧
      Punctual σ := by
  have hrun : (Lts.exec step Lts.Always waiting (.init 5)).any
      (fun σ : State ℕ => σ.gate.phase = .deadlineWait) = true := by decide
  obtain ⟨σ, hσ, hphase⟩ := Lts.exists_of_exec hrun
  exact ⟨σ, hσ, hphase, timers_punctual 5 σ hσ⟩

end Punctual

end Nosv.Timer
