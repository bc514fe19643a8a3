import Nosv.Task.Wakes

/-!
# What awaiting a task gives

The join result is decided in three places, under the gate, stored under another mutex and
published under the same after the descriptor is gone. `answer` is what the joiner is owed when no
abort was accepted. The invariant says at every program point what was already decided and what was
already stored, and of the cell what the polls of the handle have seen of it.

* `Joining.of_reaches`: the invariant holds in every reachable state;
* `Joining.of_published`: what was published is what was decided;
* `join_outcome`: what the joiner gets, when, and how often.
-/

namespace Nosv.Task

variable {T P W : Type} {pid : Pid} {σ τ : State T P W} {a : Action T P W}

/-! ## What the joiner is owed -/

/-- The result of a task that was not cancelled: the output of the future, or the panic of its
poll or of its destructor. -/
def answer : Option (Polled T P) → Option (Option P) → Option (JoinResult T P)
  | some (.ready output), some none => some (.ok output)
  | some (.ready _), some (some payload) => some (.error (.panic payload))
  | some (.panicked payload), some panic => some (.error (.panic (panic.getD payload)))
  | _, _ => none

/-- The result of a task, once its future was dropped. -/
def State.verdict (σ : State T P W) : Option (JoinResult T P) :=
  if σ.gate.cancelRequested then some (.error .cancelled)
  else answer σ.history.outcome σ.history.dropped

/-! ## The invariant -/

/-- Nothing is stored yet. -/
structure State.Unstored (σ : State T P W) : Prop where
  stored : σ.history.stored = []
  result : σ.join.result = none
  published : σ.history.published = none

/-- The future was dropped. -/
structure State.Dropped (σ : State T P W) : Prop where
  future : σ.future = false
  dropped : σ.history.dropped.isSome = true

/-- The gate agrees with the reason the future is dropped for. -/
def Cleanup.Agrees (σ : State T P W) : Cleanup T P → Prop
  | .cancelled | .late => σ.gate.cancelRequested = true
  | .ready output => σ.gate.cancelRequested = false ∧ σ.history.outcome = some (.ready output)
  | .panicked payload wins =>
    wins = !σ.gate.cancelRequested ∧ σ.history.outcome = some (.panicked payload)
  | .unavailable | .failed _ => False

/-- What has been decided and stored at a program point. -/
def State.Progress (σ : State T P W) : Pc T P → Prop
  | .idle | .entered | .upgrade | .polling | .suspending | .returned true =>
    σ.Unstored ∧ σ.future = true
  | .polled result => σ.Unstored ∧ σ.future = true ∧ σ.history.outcome = some result
  | .dropping why => σ.Unstored ∧ σ.future = true ∧ why.Agrees σ
  | .replacing payload => σ.Unstored ∧ σ.Dropped ∧ σ.verdict = some (.error (.panic payload))
  | .discarding result | .storing result _ => σ.Unstored ∧ σ.Dropped ∧ σ.verdict = some result
  | .discarded | .returned false | .retiring | .publishing =>
    σ.Dropped ∧ σ.history.published = none ∧
      ∃ result, σ.verdict = some result ∧ σ.history.stored = [result] ∧
        σ.join.result = some result
  | .unregistering | .done =>
    σ.Dropped ∧ ∃ n result, σ.history.published = some (n, result) ∧ σ.verdict = some result ∧
      σ.history.stored = [result]
  | .unavailable | .suspendFailed _ | .unwinding _ | .overwriting _ => False

/-- What the polls of the handle have seen of the cell before publication. -/
structure State.Waiting (σ : State T P W) : Prop where
  completed : σ.join.nativeCompleted = false
  consumed : σ.join.consumed = false
  pending : ∀ x ∈ σ.history.polls, x.2 = .pending
  /-- The waker of the last poll is registered. -/
  waiter : σ.join.waiter = σ.history.polls.getLast?.map Prod.fst
  woken : σ.history.woken = []

/-- What they have seen of it after `n` polls and the publication of `result`. -/
structure State.Published (σ : State T P W) (n : ℕ) (result : JoinResult T P) : Prop where
  completed : σ.join.nativeCompleted = true
  /-- The first poll after publication returned the result, the later ones panicked. -/
  polls : ∃ before after, σ.history.polls = before ++ after ∧ before.length = n ∧
    (∀ x ∈ before, x.2 = .pending) ∧
    σ.history.woken = (before.getLast?.map Prod.fst).toList ∧
    (after = [] ∧ σ.join.consumed = false ∧ σ.join.result = some result ∨
      σ.join.consumed = true ∧
        ∃ w rest, after = (w, .ready result) :: rest ∧ ∀ x ∈ rest, x.2 = .panicked)

/-- What ties the gate, the results and the handle together. -/
structure Joining (σ : State T P W) : Prop where
  aborts : σ.history.aborts = σ.gate.cancelRequested.toNat
  progress : σ.Progress σ.pc
  waiting : σ.history.published = none → σ.Waiting
  published : ∀ n result, σ.history.published = some (n, result) → σ.Published n result

/-- Nothing has happened when the task is spawned. -/
theorem Joining.init (raw : RawTask) : Joining (State.init pid raw : State T P W) where
  aborts := rfl
  progress := ⟨⟨rfl, rfl, rfl⟩, rfl⟩
  waiting _ := ⟨rfl, rfl, by simp [State.init], rfl, rfl⟩
  published := by simp [State.init]

/-- Suspending succeeds, and no destructor panics of a value that is dropped because nobody wants
it. -/
def Healthy : State T P W → Action T P W → Prop
  | _, .suspend (.error _) | _, .discard (some _) => False
  | σ, a => Contract σ a

section Steps

/-- What was decided and stored does not depend on the handle. -/
theorem State.Progress.congr {pc : Pc T P} (h : σ.Progress pc)
    (hcancel : τ.gate.cancelRequested = σ.gate.cancelRequested) (hfuture : τ.future = σ.future)
    (hstored : τ.history.stored = σ.history.stored)
    (houtcome : τ.history.outcome = σ.history.outcome)
    (hdropped : τ.history.dropped = σ.history.dropped)
    (hpublished : τ.history.published = σ.history.published)
    (hresult : σ.history.published = none → τ.join.result = σ.join.result) : τ.Progress pc := by
  -- Each program point promises a few of these, and none depends on the polls of the handle.
  have hunstored : σ.Unstored → τ.Unstored := fun hu =>
    ⟨hstored.trans hu.stored, (hresult hu.published).trans hu.result,
      hpublished.trans hu.published⟩
  have hdrop : σ.Dropped → τ.Dropped := fun hd =>
    ⟨hfuture.trans hd.future, by rw [hdropped]; exact hd.dropped⟩
  have hverdict : τ.verdict = σ.verdict := by
    rw [State.verdict, State.verdict, hcancel, houtcome, hdropped]
  cases pc with
  | idle | entered | upgrade | polling | suspending => exact ⟨hunstored h.1, hfuture.trans h.2⟩
  | polled => exact ⟨hunstored h.1, hfuture.trans h.2.1, houtcome.trans h.2.2⟩
  | dropping why =>
    refine ⟨hunstored h.1, hfuture.trans h.2.1, ?_⟩
    have hagrees := h.2.2
    cases why <;> simp only [Cleanup.Agrees, hcancel, houtcome] at hagrees ⊢ <;> exact hagrees
  | replacing | discarding | storing => exact ⟨hunstored h.1, hdrop h.2.1, hverdict.trans h.2.2⟩
  | discarded | retiring | publishing =>
    obtain ⟨hd, hnone, result, hv, hs, hr⟩ := h
    exact ⟨hdrop hd, hpublished.trans hnone, result, hverdict.trans hv, hstored.trans hs,
      (hresult hnone).trans hr⟩
  | returned suspended =>
    cases suspended with
    | true => exact ⟨hunstored h.1, hfuture.trans h.2⟩
    | false =>
      obtain ⟨hd, hnone, result, hv, hs, hr⟩ := h
      exact ⟨hdrop hd, hpublished.trans hnone, result, hverdict.trans hv, hstored.trans hs,
        (hresult hnone).trans hr⟩
  -- After publication the cell may have been emptied by the handle.
  | unregistering | done =>
    obtain ⟨hd, n, result, hp, hv, hs⟩ := h
    exact ⟨hdrop hd, n, result, hpublished.trans hp, hverdict.trans hv, hstored.trans hs⟩
  | unavailable | suspendFailed | unwinding | overwriting => exact h

/-- Before the gate closes nothing was decided, so a cancellation request changes nothing. -/
theorem State.Progress.of_live {pc : Pc T P} (h : σ.Progress pc)
    (hpc : pc.stage = .resting ∨ pc.stage = .polling) (hfuture : τ.future = σ.future)
    (hjoin : τ.join = σ.join) (hstored : τ.history.stored = σ.history.stored)
    (houtcome : τ.history.outcome = σ.history.outcome)
    (hpublished : τ.history.published = σ.history.published) : τ.Progress pc := by
  -- The verdict is not mentioned at these points, so the flag may change.
  have hunstored : σ.Unstored → τ.Unstored := fun hu =>
    ⟨hstored.trans hu.stored, hjoin ▸ hu.result, hpublished.trans hu.published⟩
  cases pc with
  | idle | entered | upgrade | polling | suspending => exact ⟨hunstored h.1, hfuture.trans h.2⟩
  | polled => exact ⟨hunstored h.1, hfuture.trans h.2.1, houtcome.trans h.2.2⟩
  | returned suspended =>
    cases suspended with
    | true => exact ⟨hunstored h.1, hfuture.trans h.2⟩
    | false => simp [Pc.stage] at hpc
  | unavailable | suspendFailed => exact h
  | dropping | replacing | discarding | storing | discarded | unwinding | overwriting | retiring |
      publishing | unregistering | done =>
    simp [Pc.stage] at hpc

instance : ∀ (σ : State T P W) (a : Action T P W), Decidable (Healthy σ a)
  | _, .suspend (.error _) | _, .discard (some _) => inferInstanceAs (Decidable False)
  | _, .suspend (.ok _) | _, .discard none => inferInstanceAs (Decidable True)
  | σ, .schedule submit => inferInstanceAs (Decidable (Contract σ (.schedule submit)))
  | σ, .requestAbort submit => inferInstanceAs (Decidable (Contract σ (.requestAbort submit)))
  | _, .joinPoll _ | _, .enter | _, .startPoll | _, .upgrade | _, .unavailable | _, .poll _
  | _, .finish | _, .suspendFailed | _, .dropFuture _ | _, .replaceTerminal | _, .store
  | _, .forcePanic | _, .overwrite | _, .leave | _, .retire _ | _, .publish | _, .unregister
  | _, .dropRuntime => inferInstanceAs (Decidable True)

/-- A step that leaves the cell alone. -/
theorem Joining.frame (h : Joining σ) (haborts : τ.history.aborts = τ.gate.cancelRequested.toNat)
    (hprogress : τ.Progress τ.pc) (hjoin : τ.join.nativeCompleted = σ.join.nativeCompleted ∧
      τ.join.consumed = σ.join.consumed ∧ τ.join.waiter = σ.join.waiter)
    (hresult : τ.join.result = σ.join.result ∨ σ.history.published = none)
    (hpolls : τ.history.polls = σ.history.polls)
    (hpublished : τ.history.published = σ.history.published)
    (hwoken : τ.history.woken = σ.history.woken) : Joining τ where
  aborts := haborts
  progress := hprogress
  waiting hnone := by
    have hw := h.waiting (hpublished ▸ hnone)
    exact
      { completed := hjoin.1.trans hw.completed
        consumed := hjoin.2.1.trans hw.consumed
        pending := hpolls ▸ hw.pending
        waiter := by rw [hjoin.2.2, hpolls]; exact hw.waiter
        woken := hwoken.trans hw.woken }
  published n result hsome := by
    rw [hpublished] at hsome
    have hp := h.published n result hsome
    have hr : τ.join.result = σ.join.result :=
      -- Once published, the result stays in the cell until the handle takes it.
      hresult.resolve_right (by rw [hsome]; exact Option.some_ne_none _)
    refine ⟨hjoin.1.trans hp.completed, ?_⟩
    rw [hpolls, hwoken, hjoin.2.1, hr]
    exact hp.polls

/-- What is decided when the future is dropped. -/
theorem Cleanup.Agrees.next {why : Cleanup T P} {panic : Option P} (h : why.Agrees σ)
    (hunstored : τ.Unstored) (hdropped : τ.Dropped)
    (hcancel : τ.gate.cancelRequested = σ.gate.cancelRequested)
    (houtcome : τ.history.outcome = σ.history.outcome)
    (hpanic : τ.history.dropped = some panic) : τ.Progress (why.next panic) := by
  -- The verdict of a cancelled task, and of one that is not.
  have hcancelled : σ.gate.cancelRequested = true → τ.verdict = some (.error .cancelled) := by
    intro hc
    rw [State.verdict, hcancel, if_pos hc]
  have hanswer : σ.gate.cancelRequested = false →
      τ.verdict = answer σ.history.outcome (some panic) := by
    intro hc
    rw [State.verdict, hcancel, if_neg (by simp [hc]), houtcome, hpanic]
  -- The reason says which of the two it is.
  cases why with
  | cancelled => cases panic <;> exact ⟨hunstored, hdropped, hcancelled h⟩
  | late => exact ⟨hunstored, hdropped, hcancelled h⟩
  | ready output =>
    have hverdict := hanswer h.1
    rw [h.2] at hverdict
    cases panic <;> exact ⟨hunstored, hdropped, hverdict⟩
  | panicked payload wins =>
    -- Whether the panic wins was decided by `finish_terminal` under the lock of the gate.
    obtain ⟨rfl, hpayload⟩ := h
    cases hc : σ.gate.cancelRequested with
    | true => exact ⟨hunstored, hdropped, hcancelled hc⟩
    | false =>
      have hverdict := hanswer hc
      rw [hpayload] at hverdict
      cases panic <;> exact ⟨hunstored, hdropped, hverdict⟩
  | unavailable | failed => exact h.elim

section Handle

variable [DecidableEq W] {w : W} {n : ℕ} {result : JoinResult T P}

/-- Before publication a poll of the handle registers its waker. -/
theorem State.Waiting.poll (h : σ.Waiting) : State.Waiting { σ with
    join := (σ.join.poll w).1
    history.polls := σ.history.polls ++ [(w, (σ.join.poll w).2)] } := by
  -- The cell stays as it is when `will_wake` holds, and the waker is then the registered one.
  have hpoll : σ.join.poll w = ({ σ.join with waiter := some w }, .pending) := by
    unfold JoinInner.poll
    rw [if_neg (by simp [h.consumed]), if_neg (by simp [h.completed])]
    split_ifs with hw
    · rw [← hw]
    · rfl
  rw [hpoll]
  exact
    { completed := h.completed
      consumed := h.consumed
      pending := by
        intro x hx
        rcases List.mem_append.mp hx with hx | hx
        · exact h.pending x hx
        · rw [List.mem_singleton.mp hx]
      waiter := by simp
      woken := h.woken }

/-- After publication the first poll of the handle returns the result, and no other does. -/
theorem State.Published.poll (h : σ.Published n result) : State.Published { σ with
    join := (σ.join.poll w).1
    history.polls := σ.history.polls ++ [(w, (σ.join.poll w).2)] } n result := by
  obtain ⟨before, after, hpolls, hlength, hpending, hwoken, hafter⟩ := h.polls
  -- Either nobody has taken the result, or the handle has and panics from now on.
  rcases hafter with ⟨rfl, hconsumed, hresult⟩ | ⟨hconsumed, v, rest, rfl, hrest⟩
  · have hpoll : σ.join.poll w = ({ σ.join with consumed := true, result := none },
        .ready result) := by
      unfold JoinInner.poll
      rw [if_neg (by simp [hconsumed]), if_pos h.completed, hresult]
      rfl
    rw [hpoll]
    refine ⟨h.completed, before, [(w, .ready result)], ?_, hlength, hpending, hwoken,
      .inr ⟨rfl, w, [], rfl, by simp⟩⟩
    rw [hpolls, List.append_nil]
  · have hpoll : σ.join.poll w = (σ.join, .panicked) := by
      unfold JoinInner.poll
      rw [if_pos hconsumed]
    rw [hpoll]
    refine ⟨h.completed, before, (v, .ready result) :: (rest ++ [(w, .panicked)]), ?_, hlength,
      hpending, hwoken, .inr ⟨hconsumed, v, _, rfl, ?_⟩⟩
    · rw [hpolls]
      simp
    · intro x hx
      rcases List.mem_append.mp hx with hx | hx
      · exact hrest x hx
      · rw [List.mem_singleton.mp hx]

end Handle

/-- The invariant is kept by every step of a healthy run. -/
theorem Joining.move [DecidableEq W] (h : Joining σ) (hG : Gated pid σ) (hm : Move pid σ a τ)
    (hok : Healthy σ a) : Joining τ := by
  have hprogress := h.progress
  cases hm with
  | wakeNone | wake =>
    exact h.frame h.aborts (hprogress.congr rfl rfl rfl rfl rfl rfl fun _ => rfl) ⟨rfl, rfl, rfl⟩
      (.inl rfl) rfl rfl rfl
  | abortNone => exact h
  | abortQuiet hphase hcancel | abort hphase hcancel =>
    -- No request was accepted before this one.
    have haborts := h.aborts
    rw [hcancel] at haborts
    refine h.frame (congrArg (· + 1) haborts) ?_ ⟨rfl, rfl, rfl⟩ (.inl rfl) rfl rfl rfl
    exact hprogress.of_live (hG.fits.live.mp hphase) rfl rfl rfl rfl rfl
  | joinPoll =>
    exact
      { aborts := h.aborts
        progress := by
          refine hprogress.congr rfl rfl rfl rfl rfl rfl fun hnone => ?_
          have hw := h.waiting hnone
          simp only [JoinInner.poll, hw.consumed, hw.completed, Bool.false_eq_true, if_false]
          split_ifs <;> rfl
        waiting := fun hnone => (h.waiting hnone).poll
        published := fun n result hsome => (h.published n result hsome).poll }
  | enter hpc | startPoll hpc | suspend hpc | discard hpc | discardLate hpc
  | retire hpc | unregister hpc =>
    rw [hpc] at hprogress
    exact h.frame h.aborts (hprogress.congr rfl rfl rfl rfl rfl rfl fun _ => rfl)
      ⟨rfl, rfl, rfl⟩ (.inl rfl) rfl rfl rfl
  | finishPending hpc =>
    rw [hpc] at hprogress
    -- The outcome of a pending poll is forgotten.
    have hrest : σ.Progress .suspending := ⟨hprogress.1, hprogress.2.1⟩
    exact h.frame h.aborts (hrest.congr rfl rfl rfl rfl rfl rfl fun _ => rfl)
      ⟨rfl, rfl, rfl⟩ (.inl rfl) rfl rfl rfl
  | upgrade hpc =>
    rw [hpc] at hprogress
    -- The registry keeps the runtime alive, so the weak reference upgrades.
    have hruntime : σ.runtime = some pid := hG.runtime (by rw [hpc]; nofun)
    refine h.frame h.aborts ?_ ⟨rfl, rfl, rfl⟩ (.inl rfl) rfl rfl rfl
    rw [hruntime]
    exact hprogress.congr rfl rfl rfl rfl rfl rfl fun _ => rfl
  | startCancelled hpc hphase hcancel =>
    rw [hpc] at hprogress
    exact h.frame h.aborts ⟨⟨hprogress.1.1, hprogress.1.2, hprogress.1.3⟩, hprogress.2, hcancel⟩
      ⟨rfl, rfl, rfl⟩ (.inl rfl) rfl rfl rfl
  | unavailable hpc | suspendFailed hpc | forcePanic hpc | overwrite hpc =>
    rw [hpc] at hprogress
    exact hprogress.elim
  | poll hpc =>
    rw [hpc] at hprogress
    exact h.frame h.aborts ⟨⟨hprogress.1.1, hprogress.1.2, hprogress.1.3⟩, hprogress.2, rfl⟩
      ⟨rfl, rfl, rfl⟩ (.inl rfl) rfl rfl rfl
  | finishCancelled hpc hcancel =>
    rw [hpc] at hprogress
    exact h.frame h.aborts ⟨⟨hprogress.1.1, hprogress.1.2, hprogress.1.3⟩, hprogress.2.1, hcancel⟩
      ⟨rfl, rfl, rfl⟩ (.inl rfl) rfl rfl rfl
  | @finishReady output hpc =>
    rw [hpc] at hprogress
    refine h.frame h.aborts
      ⟨⟨hprogress.1.1, hprogress.1.2, hprogress.1.3⟩, hprogress.2.1, ?_⟩
      ⟨rfl, rfl, rfl⟩ (.inl rfl) rfl rfl rfl
    cases hcancel : σ.gate.cancelRequested with
    | true => exact hcancel
    | false => exact ⟨hcancel, hprogress.2.2⟩
  | finishPanicked hpc =>
    rw [hpc] at hprogress
    exact h.frame h.aborts
      ⟨⟨hprogress.1.1, hprogress.1.2, hprogress.1.3⟩, hprogress.2.1, rfl, hprogress.2.2⟩
      ⟨rfl, rfl, rfl⟩ (.inl rfl) rfl rfl rfl
  | suspendError hpc => exact hok.elim
  | dropFuture hpc =>
    rw [hpc] at hprogress
    refine h.frame h.aborts ?_ ⟨rfl, rfl, rfl⟩ (.inl rfl) rfl rfl rfl
    exact hprogress.2.2.next ⟨hprogress.1.1, hprogress.1.2, hprogress.1.3⟩ ⟨rfl, rfl⟩ rfl rfl rfl
  | replaceTerminal hpc =>
    rw [hpc] at hprogress
    have hfits := hG.fits
    rw [hpc] at hfits
    obtain ⟨kind, hkind⟩ := hfits
    have hgate := @NativeGate.replaceTerminal_eq _ _ .panicked hkind
    have hcancel : (σ.gate.replaceTerminal .panicked).cancelRequested = σ.gate.cancelRequested := by
      rw [hgate]
    refine h.frame (by rw [hcancel]; exact h.aborts) ?_ ⟨rfl, rfl, rfl⟩ (.inl rfl) rfl rfl rfl
    -- The verdict is a panic already, and only the terminal reason is replaced.
    have hrest : σ.Progress (.discarding _) := hprogress
    exact hrest.congr hcancel rfl rfl rfl rfl rfl fun _ => rfl
  | unwind hpc => exact hok.elim
  | @store result debris hpc hresult =>
    rw [hpc] at hprogress
    -- The cell is empty: every program point before this one stored nothing.
    obtain ⟨hunstored, hdropped, hverdict⟩ := hprogress
    refine h.frame h.aborts ?_ ⟨rfl, rfl, rfl⟩ (.inr hunstored.published) rfl rfl rfl
    have hstored : σ.history.stored ++ [result] = [result] := by rw [hunstored.stored]; rfl
    cases debris <;>
    exact ⟨⟨hdropped.1, hdropped.2⟩, hunstored.published, result, hverdict, hstored, rfl⟩
  | @leave suspended hpc =>
    rw [hpc] at hprogress
    refine h.frame h.aborts ?_ ⟨rfl, rfl, rfl⟩ (.inl rfl) rfl rfl rfl
    cases suspended <;> exact hprogress.congr rfl rfl rfl rfl rfl rfl fun _ => rfl
  | publish hpc =>
    rw [hpc] at hprogress
    obtain ⟨hdropped, hnone, result, hverdict, hstored, hresult⟩ := hprogress
    -- The last poll before publication left its waker, and it is taken here.
    have hw := h.waiting hnone
    have hpublish : σ.join.publish.1.result = some result := by simp [JoinInner.publish, hresult]
    exact
      { aborts := h.aborts
        progress := ⟨⟨hdropped.1, hdropped.2⟩, _, result, by rw [hpublish]; rfl, hverdict, hstored⟩
        waiting := fun hnone' => by
          rw [hpublish] at hnone'
          cases hnone'
        published := fun n r hsome => by
          rw [hpublish] at hsome
          cases hsome
          refine ⟨rfl, σ.history.polls, [], (List.append_nil _).symm, rfl, hw.pending, ?_,
            .inl ⟨rfl, hw.consumed, hpublish⟩⟩
          rw [hw.woken, hw.waiter]
          rfl }
  | dropRuntime hpc =>
    rw [hpc] at hprogress
    refine h.frame h.aborts ?_ ⟨rfl, rfl, rfl⟩ (.inl rfl) rfl rfl rfl
    rw [hpc]
    exact hprogress.congr rfl rfl rfl rfl rfl rfl fun _ => rfl

end Steps

/-! ## Runs -/

section Runs

variable {raw : RawTask} {ok : State T P W → Action T P W → Prop}

/-- A healthy run keeps the contract of nOS-V. -/
theorem Healthy.contract (h : Healthy σ a) : Contract σ a := by
  cases a with
  | suspend result => exact trivial
  | discard panic => exact trivial
  | _ => exact h

/-- Nothing was stored, or one result, which may have been published since. -/
theorem State.Progress.stored_cases {pc : Pc T P} (h : σ.Progress pc) :
    (σ.history.stored = [] ∧ σ.history.published = none) ∨
      ∃ result, σ.history.stored = [result] ∧ (σ.history.published = none ∨
        pc.stage = .gone ∧ σ.Dropped ∧ σ.verdict = some result ∧
          ∃ n, σ.history.published = some (n, result)) := by
  have hunstored : σ.Unstored → (σ.history.stored = [] ∧ σ.history.published = none) := fun hu =>
    ⟨hu.stored, hu.published⟩
  have hstored : (σ.Dropped ∧ σ.history.published = none ∧ ∃ result, σ.verdict = some result ∧
      σ.history.stored = [result] ∧ σ.join.result = some result) →
      ∃ result, σ.history.stored = [result] ∧ (σ.history.published = none ∨
        pc.stage = .gone ∧ σ.Dropped ∧ σ.verdict = some result ∧
          ∃ n, σ.history.published = some (n, result)) := by
    rintro ⟨-, hnone, result, -, hs, -⟩
    exact ⟨result, hs, .inl hnone⟩
  -- The cases follow the clauses of `Progress`.
  cases pc with
  | idle | entered | upgrade | polling | suspending | polled | dropping | replacing | discarding
  | storing => exact .inl (hunstored h.1)
  | discarded | retiring | publishing => exact .inr (hstored h)
  | returned suspended =>
    cases suspended with
    | true => exact .inl (hunstored h.1)
    | false => exact .inr (hstored h)
  | unregistering | done =>
    obtain ⟨hd, n, result, hp, hv, hs⟩ := h
    exact .inr ⟨result, hs, .inr ⟨rfl, hd, hv, n, hp⟩⟩
  | unavailable | suspendFailed | unwinding | overwriting => exact h.elim

/-- At most one result was stored. -/
theorem Joining.stored_length (h : Joining σ) : σ.history.stored.length ≤ 1 := by
  rcases h.progress.stored_cases with ⟨hs, -⟩ | ⟨result, hs, -⟩ <;> simp [hs]

/-- After publication the future is dropped, the gate closed for good and the result the one that
was stored. -/
theorem Joining.of_published (h : Joining σ) {n : ℕ} {result : JoinResult T P}
    (hp : σ.history.published = some (n, result)) :
    σ.pc.stage = .gone ∧ σ.Dropped ∧ σ.verdict = some result ∧ σ.history.stored = [result] := by
  -- A published result leaves only the last case.
  rcases h.progress.stored_cases with
    ⟨-, hnone⟩ | ⟨r, hs, hnone | ⟨hgone, hdropped, hverdict, m, hm⟩⟩
  · cases hnone.symm.trans hp
  · cases hnone.symm.trans hp
  · cases hm.symm.trans hp
    exact ⟨hgone, hdropped, hverdict, hs⟩

/-- Without a cancellation the result is not `Cancelled`. -/
theorem answer_ne_cancelled (outcome : Option (Polled T P)) (dropped : Option (Option P)) :
    answer outcome dropped ≠ some (.error .cancelled) := by
  unfold answer
  split <;> simp

variable [DecidableEq W]

/-- The invariant holds in every state of a healthy run. -/
theorem Joining.of_reaches (h : Lts.Reaches (step pid) Healthy (.init pid raw) σ) : Joining σ :=
  h.invariant_of (J := Gated pid) (fun _ hr => Gated.of_reaches hr) (Joining.init raw)
    fun _ _ _ hG _ hI hok hs => hI.move hG (move_of_step hs) hok

/-- The process aborts only when the descriptor cannot be destroyed. -/
theorem Joining.no_abort (h : Joining σ) (hG : Gated pid σ) (hok : Healthy σ a) {e : TaskAbort}
    (hs : step pid a σ = .error (.abort e)) : e = .retireFailed := by
  have hprogress := h.progress
  -- The future is there when it is polled, and nothing is stored before `store`.
  obtain ⟨hpc, hfuture, -⟩ | ⟨result, debris, hpc, hresult, -⟩ | rfl := hG.aborts hok.contract hs
  · rw [hpc] at hprogress
    exact absurd (hfuture.symm.trans hprogress.2) (by decide)
  · rw [hpc] at hprogress
    exact absurd hprogress.1.result hresult
  · rfl

/-- Of one task in every healthy run: at most one abort is accepted. One result at most is stored.
It is published after the future was dropped and the descriptor destroyed, and is `Cancelled`
exactly when an abort was accepted, else the output of the future or the panic of its poll or
destructor. Every poll of the handle before publication is pending and the last of them is woken by
it; the first one afterwards returns the result, and no other does. No result is stored twice. -/
theorem join_outcome (h : Lts.Reaches (step pid) Healthy (.init pid raw) σ) :
    σ.history.aborts ≤ 1 ∧ σ.history.stored.length ≤ 1 ∧
    (σ.join.nativeCompleted = true ↔ σ.history.published ≠ none) ∧
    (σ.history.published = none →
      (∀ x ∈ σ.history.polls, x.2 = .pending) ∧ σ.history.woken = []) ∧
    (∀ n result, σ.history.published = some (n, result) →
      σ.history.stored = [result] ∧ σ.future = false ∧ σ.gate.phase = .destroyed ∧
      (result = .error .cancelled ↔ σ.history.aborts = 1) ∧
      (σ.history.aborts = 0 → answer σ.history.outcome σ.history.dropped = some result) ∧
      ∃ before after, σ.history.polls = before ++ after ∧ before.length = n ∧
        (∀ x ∈ before, x.2 = .pending) ∧
        σ.history.woken = (before.getLast?.map Prod.fst).toList ∧
        (after = [] ∨ ∃ w rest, after = (w, .ready result) :: rest ∧ ∀ x ∈ rest, x.2 = .panicked)) ∧
    ∀ a e, Healthy σ a → step pid a σ = .error (.abort e) → e = .retireFailed := by
  have hG := Gated.of_reaches h
  have hJ := Joining.of_reaches h
  have hle : σ.history.aborts ≤ 1 := by
    rw [hJ.aborts]
    exact Bool.toNat_le _
  refine ⟨hle, hJ.stored_length, ⟨fun hc hnone => ?_, fun hsome => ?_⟩, fun hnone => ?_,
    fun n result hsome => ?_, fun a e hok hs => hJ.no_abort hG hok hs⟩
  · rw [(hJ.waiting hnone).completed] at hc
    cases hc
  · obtain ⟨⟨n, result⟩, hp⟩ := Option.ne_none_iff_exists'.mp hsome
    exact (hJ.published n result hp).completed
  · exact ⟨(hJ.waiting hnone).pending, (hJ.waiting hnone).woken⟩
  · -- A published result is the stored one, and the stored one is the verdict.
    obtain ⟨hgone, hdropped, hverdict, hstored⟩ := hJ.of_published hsome
    have hfits := hG.fits
    rw [hgone] at hfits
    have haborts := hJ.aborts
    rw [State.verdict] at hverdict
    refine ⟨hstored, hdropped.future, hfits, ?_, fun hzero => ?_, ?_⟩
    · -- The verdict is `Cancelled` exactly when an abort came in time.
      cases hc : σ.gate.cancelRequested with
      | true =>
        rw [hc] at haborts hverdict
        cases hverdict
        exact ⟨fun _ => haborts, fun _ => rfl⟩
      | false =>
        rw [hc] at haborts hverdict
        refine ⟨fun hr => ?_, fun hone => ?_⟩
        · exact absurd (hr ▸ hverdict) (answer_ne_cancelled _ _)
        · exact absurd (hone.symm.trans haborts) (by decide)
    · cases hc : σ.gate.cancelRequested with
      | true =>
        rw [hc] at haborts
        exact absurd (hzero.symm.trans haborts) (by decide)
      | false =>
        rw [hc] at hverdict
        exact hverdict
    · -- The polls before the publication were pending, the first one after it is not.
      obtain ⟨before, after, hpolls, hlength, hpending, hwoken, hafter⟩ :=
        (hJ.published n result hsome).polls
      refine ⟨before, after, hpolls, hlength, hpending, hwoken, ?_⟩
      rcases hafter with ⟨hnil, -⟩ | ⟨-, hready⟩
      · exact .inl hnil
      · exact .inr hready

/-- A task is aborted while its only poll returns its output, and awaited before and after. -/
def abortedLate : List (Action ℕ ℕ ℕ) :=
  [.enter, .startPoll, .upgrade, .poll (.ready 5), .requestAbort (.ok ()), .joinPoll 3, .finish,
    .dropFuture none, .discard none, .store, .leave, .retire (.ok ()), .publish, .joinPoll 3]

/-- The joiner is woken and gets `Cancelled`. -/
theorem join_outcome_tiny :
    ∃ σ : State ℕ ℕ ℕ, Lts.Reaches (step 7) Healthy (.init 7 1) σ ∧ σ.history.woken = [3] ∧
      σ.history.polls.length = 2 ∧ σ.history.aborts ≤ 1 := by
  have hrun : (Lts.exec (step 7) Healthy abortedLate (.init 7 1)).any
      (fun σ => σ.history.woken = [3] ∧ σ.history.polls.length = 2) = true := by decide
  obtain ⟨σ, hσ, hwoken, hpolls⟩ := Lts.exists_of_exec hrun
  exact ⟨σ, hσ, hwoken, hpolls, (join_outcome hσ).1⟩

end Runs

end Nosv.Task
