import Nosv.Timer.Machine

/-!
# Timers, their entries and their firings

A `Sleep` is registered at most once, so that it has at most one entry in the heap, and it has none
once the driver has fired it. While it is neither cancelled nor fired by the driver, the waiter in
its shared state is the one its most recent pending poll has left.

`Wf.move` is the result: every step keeps the timers well formed.
-/

namespace Nosv.Timer

variable {W : Type}

/-- The entry has been pushed, or the registration was turned down. -/
def Sleep.Registered (s : Sleep W) : Prop := s.bound = true ∨ s.pc = .pushed

/-- The first pending poll has not reached the critical section of `register`. -/
def Sleep.Early (s : Sleep W) : Prop := s.pc = .binding ∨ ∃ id, s.pc = .allocated id

/-- What holds of the timers between two steps. -/
structure Wf (σ : State W) : Prop where
  entry : ∀ e ∈ σ.heap, ∃ s, σ.sleeps e.timer = some s ∧ s.deadline = e.deadline ∧ s.Registered
  nodup : (σ.heap.items.map (·.timer)).Nodup
  fire : ∀ f ∈ σ.fires, ∃ s, σ.sleeps f.timer = some s ∧ s.Registered ∧
    (σ.timers f.timer).fired = true ∧ s.pending = f.waiter ∧ f.waiter.isSome = true
  /-- The driver fires a timer when it pops its entry. -/
  apart : ∀ f ∈ σ.fires, ∀ e ∈ σ.heap, e.timer ≠ f.timer
  waiter : ∀ t s, σ.sleeps t = some s → (σ.timers t).cancelled = false →
    (∀ f ∈ σ.fires, f.timer ≠ t) → (σ.timers t).waiter = s.pending
  pending : ∀ t s, σ.sleeps t = some s → s.Registered ∨ s.Early → s.pending.isSome = true
  early : ∀ t s, σ.sleeps t = some s → s.Early ∨ s.pc = .pushed → s.bound = false
  /-- No timer fires before its deadline. -/
  due : ∀ t s, σ.sleeps t = some s → (σ.timers t).fired = true → s.deadline ≤ σ.clock

section Wf

variable {σ τ : State W} {a : Action W} {t : TimerId} {s s' : Sleep W}

/-- A timer whose registration is under way is not registered. -/
theorem Wf.not_registered (h : Wf σ) (hs : σ.sleeps t = some s) (he : s.Early) :
    ¬s.Registered := by
  rintro (hbound | hpc)
  · rw [h.early t s hs (.inl he)] at hbound
    cases hbound
  · rcases he with hpc' | ⟨id, hpc'⟩ <;> rw [hpc] at hpc' <;> cases hpc'

/-- A driver that was just submitted has no timers. -/
theorem Wf.init (raw : RawTask) : Wf (State.init raw : State W) where
  entry e he := absurd he SortedHeap.not_mem_empty
  nodup := List.nodup_nil
  fire f hf := absurd hf List.not_mem_nil
  apart f hf := absurd hf List.not_mem_nil
  waiter _ _ hs := by cases hs
  pending _ _ hs := by cases hs
  early _ _ hs := by cases hs
  due _ _ hs := by cases hs

/-- Timers stay well formed when neither they nor the heap change and the clock does not go back. -/
theorem Wf.frame (h : Wf σ) (hheap : τ.heap = σ.heap) (hfires : τ.fires = σ.fires)
    (hsleeps : τ.sleeps = σ.sleeps) (htimers : τ.timers = σ.timers) (hclock : σ.clock ≤ τ.clock) :
    Wf τ := by
  obtain ⟨hentry, hnodup, hfire, hapart, hwaiter, hpending, hearly, hdue⟩ := h
  rw [← hheap] at hentry hnodup hapart
  rw [← hfires] at hfire hapart hwaiter
  rw [← hsleeps] at hentry hfire hwaiter hpending hearly hdue
  rw [← htimers] at hfire hwaiter hdue
  exact ⟨hentry, hnodup, hfire, hapart, hwaiter, hpending, hearly,
    fun t s hs hf => (hdue t s hs hf).trans hclock⟩

/-- Timers stay well formed when entries leave the heap. -/
theorem Wf.shrink (h : Wf σ) {heap : TimerHeap} (hsub : heap.items.Sublist σ.heap.items) :
    Wf { σ with heap := heap } :=
  { h with
    entry := fun e he => h.entry e (hsub.subset he)
    nodup := h.nodup.sublist (hsub.map _)
    apart := fun f hf e he => h.apart f hf e (hsub.subset he) }

/-- A cancelled timer has no waiter to keep. -/
theorem Wf.cancel (h : Wf σ) (t : TimerId) : Wf (σ.setTimer t (σ.timers t).cancel) := by
  have hfired : ∀ u, ((σ.setTimer t (σ.timers t).cancel).timers u).fired =
      (σ.timers u).fired := by
    intro u
    by_cases hu : u = t
    · subst hu
      simp [State.setTimer, TimerState.cancel]
    · simp [State.setTimer, hu]
  refine { h with fire := fun f hf => ?_, waiter := fun u s hs hc hf => ?_, due := ?_ }
  · obtain ⟨s, hs, hreg, hfire, hrest⟩ := h.fire f hf
    exact ⟨s, hs, hreg, (hfired _).trans hfire, hrest⟩
  · by_cases hu : u = t
    · subst hu
      simp [State.setTimer, TimerState.cancel] at hc
    · simp only [State.setTimer, Function.update_of_ne hu] at hc ⊢
      exact h.waiter u s hs hc hf
  · intro u s hs hf
    rw [hfired] at hf
    exact h.due u s hs hf

/-- A sleep is the one that was just put there, or an old one. -/
theorem State.setSleep_cases {u : TimerId} {v : Sleep W}
    (hv : (σ.setSleep t s').sleeps u = some v) :
    (u = t ∧ v = s') ∨ (u ≠ t ∧ σ.sleeps u = some v) := by
  by_cases hu : u = t
  · subst hu
    simp only [State.setSleep, Function.update_self, Option.some.injEq] at hv
    exact .inl ⟨rfl, hv.symm⟩
  · simp only [State.setSleep, Function.update_of_ne hu] at hv
    exact .inr ⟨hu, hv⟩

/-- The owner of a sleep moves on without looking at the shared state. -/
theorem Wf.setSleep (h : Wf σ) (hs : σ.sleeps t = some s) (hdeadline : s'.deadline = s.deadline)
    (hpending : s'.pending = s.pending) (hregistered : s.Registered → s'.Registered)
    (hfresh : s'.Registered ∨ s'.Early → s.Registered ∨ s.Early)
    (hearly : s'.Early ∨ s'.pc = .pushed → s'.bound = false) : Wf (σ.setSleep t s') := by
  have hsleep : ∀ u v, (σ.setSleep t s').sleeps u = some v →
      ∃ w, σ.sleeps u = some w ∧ v.deadline = w.deadline ∧ v.pending = w.pending ∧
        (v.Registered ∨ v.Early → w.Registered ∨ w.Early) ∧
        (v.Early ∨ v.pc = .pushed → v.bound = false) := by
    intro u v hv
    rcases State.setSleep_cases hv with ⟨rfl, rfl⟩ | ⟨-, hv⟩
    · exact ⟨s, hs, hdeadline, hpending, hfresh, hearly⟩
    · exact ⟨v, hv, rfl, rfl, id, h.early u v hv⟩
  -- The other way round, for what is known to be registered.
  have hsleep' : ∀ u w, σ.sleeps u = some w → ∃ v, (σ.setSleep t s').sleeps u = some v ∧
      v.deadline = w.deadline ∧ v.pending = w.pending ∧ (w.Registered → v.Registered) := by
    intro u w hw
    by_cases hu : u = t
    · subst hu
      obtain rfl := Option.some.inj (hs.symm.trans hw)
      exact ⟨s', by simp [State.setSleep], hdeadline, hpending, hregistered⟩
    · exact ⟨w, by simp [State.setSleep, hu, hw], rfl, rfl, id⟩
  refine { h with entry := ?_, fire := ?_, waiter := ?_, pending := ?_, early := ?_, due := ?_ }
  · intro e he
    obtain ⟨w, hw, hd, hreg⟩ := h.entry e he
    obtain ⟨v, hv, hdv, -, hregv⟩ := hsleep' _ _ hw
    exact ⟨v, hv, hdv.trans hd, hregv hreg⟩
  · intro f hf
    obtain ⟨w, hw, hreg, hfired, hp, hsome⟩ := h.fire f hf
    obtain ⟨v, hv, -, hpv, hregv⟩ := hsleep' _ _ hw
    exact ⟨v, hv, hregv hreg, hfired, hpv.trans hp, hsome⟩
  · intro u v hv hc hf
    obtain ⟨w, hw, -, hpv, -⟩ := hsleep u v hv
    exact (h.waiter u w hw hc hf).trans hpv.symm
  · intro u v hv hwait
    obtain ⟨w, hw, -, hpv, hfr, -⟩ := hsleep u v hv
    rw [hpv]
    exact h.pending u w hw (hfr hwait)
  · intro u v hv
    obtain ⟨w, -, -, -, -, hearlyv⟩ := hsleep u v hv
    exact hearlyv
  · intro u v hv hf
    obtain ⟨w, hw, hdv, -⟩ := hsleep u v hv
    rw [hdv]
    exact h.due u w hw hf

/-- A new sleep has no entry yet. -/
theorem Wf.create (h : Wf σ) (hs : σ.sleeps t = none) {deadline : ℕ} :
    Wf ((σ.setTimer t .new).setSleep t ⟨deadline, false, .idle, none⟩) := by
  -- The sleep is a new one, so nothing refers to it.
  have hne : ∀ u s, σ.sleeps u = some s → u ≠ t := by
    rintro u s hu rfl
    rw [hs] at hu
    cases hu
  refine { h with entry := ?_, fire := ?_, waiter := ?_, pending := ?_, early := ?_, due := ?_ }
  · intro e he
    obtain ⟨s, hs', hrest⟩ := h.entry e he
    exact ⟨s, by simp [State.setSleep, State.setTimer, hne _ _ hs', hs'], hrest⟩
  · intro f hf
    obtain ⟨s, hs', hrest⟩ := h.fire f hf
    refine ⟨s, by simp [State.setSleep, State.setTimer, hne _ _ hs', hs'], ?_⟩
    simpa [State.setSleep, State.setTimer, hne _ _ hs'] using hrest
  · intro u v hv hc hf
    rcases State.setSleep_cases hv with ⟨rfl, rfl⟩ | ⟨hu, hv⟩
    · simp [State.setSleep, State.setTimer, TimerState.new]
    · simp only [State.setSleep, State.setTimer, Function.update_of_ne hu] at hc ⊢
      exact h.waiter u v hv hc hf
  · intro u v hv hwait
    rcases State.setSleep_cases hv with ⟨rfl, rfl⟩ | ⟨hu, hv⟩
    · simp [Sleep.Registered, Sleep.Early] at hwait
    · exact h.pending u v hv hwait
  · intro u v hv he
    rcases State.setSleep_cases hv with ⟨rfl, rfl⟩ | ⟨hu, hv⟩
    · rfl
    · exact h.early u v hv he
  · intro u v hv hf
    rcases State.setSleep_cases hv with ⟨rfl, rfl⟩ | ⟨hu, hv⟩
    · simp [State.setSleep, State.setTimer, TimerState.new] at hf
    · simp only [State.setSleep, State.setTimer, Function.update_of_ne hu] at hf
      exact h.due u v hv hf

/-- A poll finds that the deadline has passed. -/
theorem Wf.pollReady (h : Wf σ) (hs : σ.sleeps t = some s)
    (hready : (σ.timers t).fired = true ∨ s.deadline ≤ σ.clock) :
    Wf (σ.setTimer t { σ.timers t with fired := true }) := by
  refine { h with fire := fun f hf => ?_, waiter := fun u v hv hc hf => ?_, due := ?_ }
  · obtain ⟨v, hv, hreg, hfired, hrest⟩ := h.fire f hf
    refine ⟨v, hv, hreg, ?_, hrest⟩
    by_cases hu : f.timer = t <;> simp [State.setTimer, hu, hfired]
  · by_cases hu : u = t
    · subst hu
      simp only [State.setTimer, Function.update_self] at hc ⊢
      exact h.waiter u v hv hc hf
    · simp only [State.setTimer, Function.update_of_ne hu] at hc ⊢
      exact h.waiter u v hv hc hf
  · intro u v hv hf
    by_cases hu : u = t
    · subst hu
      obtain rfl := Option.some.inj (hs.symm.trans hv)
      exact hready.elim (h.due u s hs) id
    · simp only [State.setTimer, Function.update_of_ne hu] at hf
      exact h.due u v hv hf

/-- A poll before the deadline leaves its waker. -/
theorem Wf.pollPending (h : Wf σ) (hs : σ.sleeps t = some s) (hpc : s.pc = .idle)
    (hready : (σ.timers t).fired = false) {waker : W} :
    Wf ((σ.setTimer t { σ.timers t with waiter := some waker }).setSleep t
      { s with pending := some waker, pc := if s.bound then .idle else .binding }) := by
  -- The first pending poll goes on to bind, so it registers nothing by itself.
  have hregistered : ∀ {v : Sleep W},
      v = { s with pending := some waker, pc := if s.bound then .idle else .binding } →
      (v.Registered ↔ s.Registered) := by
    rintro _ rfl
    simp only [Sleep.Registered, hpc]
    split <;> simp
  -- The driver has not fired a timer whose poll is pending.
  have hunfired : ∀ f ∈ σ.fires, f.timer ≠ t := by
    rintro f hf rfl
    obtain ⟨-, -, -, hfired, -⟩ := h.fire f hf
    rw [hready] at hfired
    cases hfired
  refine { h with entry := ?_, fire := ?_, waiter := ?_, pending := ?_, early := ?_, due := ?_ }
  · intro e he
    obtain ⟨w, hw, hd, hreg⟩ := h.entry e he
    by_cases hu : e.timer = t
    · obtain rfl := Option.some.inj (hs.symm.trans (hu ▸ hw))
      refine ⟨{ s with pending := some waker, pc := if s.bound then .idle else .binding },
        ?_, hd, (hregistered rfl).mpr hreg⟩
      rw [hu]
      exact Function.update_self ..
    · exact ⟨w, by simp [State.setSleep, State.setTimer, hu, hw], hd, hreg⟩
  · intro f hf
    obtain ⟨w, hw, hrest⟩ := h.fire f hf
    have hu := hunfired f hf
    refine ⟨w, by simp [State.setSleep, State.setTimer, hu, hw], ?_⟩
    simpa [State.setSleep, State.setTimer, hu] using hrest
  · intro u v hv hc hf
    rcases State.setSleep_cases hv with ⟨rfl, rfl⟩ | ⟨hu, hv⟩
    · simp [State.setSleep, State.setTimer]
    · simp only [State.setSleep, State.setTimer, Function.update_of_ne hu] at hc ⊢
      exact h.waiter u v hv hc hf
  · intro u v hv hwait
    rcases State.setSleep_cases hv with ⟨rfl, rfl⟩ | ⟨hu, hv⟩
    · rfl
    · exact h.pending u v hv hwait
  · intro u v hv he
    rcases State.setSleep_cases hv with ⟨rfl, rfl⟩ | ⟨hu, hv⟩
    · simp only [Sleep.Early] at he
      split at he
      next => simp at he
      next hbound => exact Bool.not_eq_true _ ▸ hbound
    · exact h.early u v hv he
  · intro u v hv hf
    rcases State.setSleep_cases hv with ⟨rfl, rfl⟩ | ⟨hu, hv⟩
    · simp only [State.setSleep, State.setTimer, Function.update_self] at hf
      exact h.due u s hs hf
    · simp only [State.setSleep, State.setTimer, Function.update_of_ne hu] at hf
      exact h.due u v hv hf

/-- Registration adds the only entry of the timer. -/
theorem Wf.push (h : Wf σ) (hs : σ.sleeps t = some s) {id : ℕ} (hpc : s.pc = .allocated id) :
    Wf { σ.setSleep t { s with pc := .pushed } with heap := σ.heap.push ⟨s.deadline, id, t⟩ } := by
  -- A sleep that has just taken its identifier is in no entry and has not fired.
  have hearly : s.Early := .inr ⟨id, hpc⟩
  have hno := h.not_registered hs hearly
  have hentry : ∀ e ∈ σ.heap, e.timer ≠ t := by
    rintro e he rfl
    obtain ⟨w, hw, -, hreg⟩ := h.entry e he
    exact hno (Option.some.inj (hs.symm.trans hw) ▸ hreg)
  have hfire : ∀ f ∈ σ.fires, f.timer ≠ t := by
    rintro f hf rfl
    obtain ⟨w, hw, hreg, -⟩ := h.fire f hf
    exact hno (Option.some.inj (hs.symm.trans hw) ▸ hreg)
  have hset : Wf (σ.setSleep t { s with pc := .pushed }) := by
    exact h.setSleep hs rfl rfl (fun _ => .inr rfl) (fun _ => .inr hearly) fun _ =>
      h.early t s hs (.inl hearly)
  have hperm := SortedHeap.push_perm (h := σ.heap) (a := ⟨s.deadline, id, t⟩)
  refine { hset with entry := ?_, nodup := ?_, apart := ?_ }
  · intro e he
    rw [SortedHeap.mem_push] at he
    rcases he with rfl | he
    · exact ⟨{ s with pc := .pushed }, by simp [State.setSleep], rfl, .inr rfl⟩
    · exact hset.entry e he
  · rw [(hperm.map _).nodup_iff, List.map_cons, List.nodup_cons]
    refine ⟨fun hmem => ?_, h.nodup⟩
    obtain ⟨e, he, het⟩ := List.mem_map.mp hmem
    exact hentry e he het
  · intro f hf e he
    rw [SortedHeap.mem_push] at he
    rcases he with rfl | he
    · exact (hfire f hf).symm
    · exact h.apart f hf e he

/-- The driver pops an entry, and takes the waiter of the most recent pending poll. -/
theorem Wf.fires (h : Wf σ) {entry : TimerEntry} (hpeek : σ.heap.peek = some entry)
    (hdue : entry.deadline ≤ σ.clock) (hcancelled : (σ.timers entry.timer).cancelled = false) :
    Wf { σ.setTimer entry.timer { σ.timers entry.timer with fired := true, waiter := none } with
      heap := σ.heap.pop
      fires := σ.fires ++ [⟨entry.timer, (σ.timers entry.timer).waiter⟩] } := by
  have hmem := SortedHeap.mem_of_peek hpeek
  obtain ⟨s, hs, hdeadline, hreg⟩ := h.entry entry hmem
  -- Its timer has not fired, since an entry and a fire exclude each other.
  have hunfired : ∀ f ∈ σ.fires, f.timer ≠ entry.timer := fun f hf =>
    (h.apart f hf entry hmem).symm
  have hwaiter := h.waiter _ s hs hcancelled hunfired
  have hnodup := h.nodup
  rw [SortedHeap.items_of_peek hpeek, List.map_cons, List.nodup_cons] at hnodup
  have hsub : ∀ e ∈ σ.heap.pop, e ∈ σ.heap := fun _ => SortedHeap.mem_of_mem_pop
  refine { h with
    entry := fun e he => h.entry e (hsub e he)
    nodup := hnodup.2, fire := ?_, apart := ?_, waiter := ?_, due := ?_ }
  · intro f hf
    rcases List.mem_append.mp hf with hf | hf
    · obtain ⟨w, hw, hregw, hfired, hrest⟩ := h.fire f hf
      refine ⟨w, hw, hregw, ?_, hrest⟩
      simp [State.setTimer, hunfired f hf, hfired]
    · obtain rfl := List.mem_singleton.mp hf
      refine ⟨s, hs, hreg, by simp [State.setTimer], hwaiter.symm, ?_⟩
      rw [hwaiter]
      exact h.pending _ s hs (.inl hreg)
  · intro f hf e he
    rcases List.mem_append.mp hf with hf | hf
    · exact h.apart f hf e (hsub e he)
    · obtain rfl := List.mem_singleton.mp hf
      exact fun heq => hnodup.1 (List.mem_map.mpr ⟨e, he, heq⟩)
  · intro u v hv hc hf
    have hu : u ≠ entry.timer := by
      rintro rfl
      exact hf ⟨entry.timer, (σ.timers entry.timer).waiter⟩ (by simp) rfl
    simp only [State.setTimer, Function.update_of_ne hu] at hc ⊢
    exact h.waiter u v hv hc fun f hf' => hf f (List.mem_append_left _ hf')
  · intro u v hv hf
    by_cases hu : u = entry.timer
    · subst hu
      obtain rfl := Option.some.inj (hs.symm.trans hv)
      rw [hdeadline]
      exact hdue
    · simp only [State.setTimer, Function.update_of_ne hu] at hf
      exact h.due u v hv hf

/-- The driver keeps the timers well formed. -/
theorem Wf.driverMove (h : Wf σ) (hpass : σ.pass ≤ σ.clock) (hm : DriverMove σ τ) : Wf τ := by
  cases hm with
  | drain hpc hentry => exact (h.cancel _).shrink (List.eraseIdx_sublist _ _)
  | skip hpc hpeek => exact h.shrink (List.tail_sublist _)
  | prune hpc hpeek => exact h.shrink (List.tail_sublist _)
  | fire hpc hpeek hdue hcancelled =>
    exact (h.fires hpeek (hdue.trans hpass) hcancelled).frame rfl rfl rfl rfl le_rfl
  | scanShutdown | scan | drained | expired | pruned | wake | woken | checkShutdown | check
  | terminate | decideNotified | park | unpark | resume | retire | complete =>
    exact h.frame rfl rfl rfl rfl le_rfl

/-- Every step keeps the timers well formed. -/
theorem Wf.move (h : Wf σ) (hpass : σ.pass ≤ σ.clock) (hm : Move σ a τ) : Wf τ := by
  cases hm with
  | tick hle => exact h.frame rfl rfl rfl rfl hle
  | create hs => exact h.create hs
  | pollReady hs hpc hready => exact h.pollReady hs hready
  | pollPending hs hpc hready =>
    rw [not_or, Bool.not_eq_true] at hready
    exact h.pollPending hs hpc hready.1
  | @bind t s hs hpc =>
    have hearly := h.early _ _ hs (.inl (.inl hpc))
    have hset : Wf (σ.setSleep t { s with pc := .allocated σ.nextId }) :=
      h.setSleep hs rfl rfl (fun hreg => absurd hreg (h.not_registered hs (.inl hpc)))
        (fun _ => .inr (.inl hpc)) fun _ => hearly
    exact hset.frame rfl rfl rfl rfl le_rfl
  | bindPanic hs hpc =>
    have hearly := h.early _ _ hs (.inl (.inl hpc))
    -- The panic leaves a sleep that the next poll binds again.
    refine h.setSleep hs rfl rfl ?_ (fun _ => .inr (.inl hpc)) fun _ => hearly
    exact fun hreg => absurd hreg (h.not_registered hs (.inl hpc))
  | push hs hpc => exact h.push hs hpc
  | @pushClosed t s id hs hpc =>
    refine (h.cancel t).setSleep hs rfl rfl (fun _ => .inl rfl) ?_ ?_
    · exact fun _ => .inr (.inr ⟨id, hpc⟩)
    · rintro ((hpc' | ⟨_, hpc'⟩) | hpc') <;> cases hpc'
  | @notifyPushed t s submit hs hpc =>
    have hset : Wf (σ.setSleep t { s with bound := true, pc := .idle }) := by
      refine h.setSleep hs rfl rfl (fun _ => .inl rfl) (fun _ => .inl (.inr hpc)) ?_
      rintro ((hpc' | ⟨_, hpc'⟩) | hpc') <;> cases hpc'
    exact hset.frame rfl rfl rfl rfl le_rfl
  | @notifyDropped t s submit hs hpc =>
    suffices hset : Wf (σ.setSleep t { s with pc := .dropped }) from
      hset.frame rfl rfl rfl rfl le_rfl
    refine h.setSleep hs rfl rfl ?_ ?_ ?_
    · rintro (hbound | hpc')
      · exact .inl hbound
      · rw [hpc] at hpc'
        cases hpc'
    · rintro ((hbound | hpc') | hpc' | ⟨_, hpc'⟩)
      · exact .inl (.inl hbound)
      all_goals cases hpc'
    · rintro ((hpc' | ⟨_, hpc'⟩) | hpc') <;> cases hpc'
  | @drop t s hs hpc =>
    refine (h.cancel t).setSleep hs rfl rfl ?_ ?_ ?_
    · rintro (hbound | hpc')
      · exact .inl hbound
      · rw [hpc] at hpc'
        cases hpc'
    · rintro ((hbound | hpc') | hpc' | ⟨_, hpc'⟩)
      · exact .inl (.inl hbound)
      all_goals (dsimp only at hpc'; split at hpc' <;> cases hpc')
    · rintro ((hpc' | ⟨_, hpc'⟩) | hpc') <;> (dsimp only at hpc'; split at hpc' <;> cases hpc')
  | shutdown | shutdownNotify | shutdownReturn => exact h.frame rfl rfl rfl rfl le_rfl
  | driver hm => exact h.driverMove hpass hm

end Wf

end Nosv.Timer
