import Nosv.Task.Machine

/-!
# Wakes are submitted once

Where the callbacks are says which phase the gate is in; while it is `Live`, the flag
`wake_submitted` says whether there is one submission that no entry of the run callback has
consumed. Nothing is submitted later, and no check of `TaskCore` fails.

* `Gated.of_reaches`: the gate and the submissions fit the callbacks;
* `Gated.aborts`: which step can abort;
* `wakes_submitted_once`: both together, with the balance of submissions and entries.
-/

namespace Nosv.Task

variable {T P W : Type} {pid : Pid} {σ τ : State T P W} {a : Action T P W}

/-! ## The invariant -/

/-- How far the callbacks of a task have come. -/
inductive Stage where
  /-- Live, and not inside a poll. -/
  | resting
  /-- Inside a poll. -/
  | polling
  /-- The gate was closed. -/
  | over
  /-- The descriptor was destroyed. -/
  | gone
  deriving DecidableEq

/-- The stage of a program point. -/
def Pc.stage : Pc T P → Stage
  | .idle | .entered | .suspending | .suspendFailed _ | .returned true => .resting
  | .upgrade | .unavailable | .polling | .polled _ => .polling
  | .dropping _ | .replacing _ | .discarding _ | .storing _ _ | .discarded | .unwinding _
  | .overwriting _ | .returned false | .retiring => .over
  | .publishing | .unregistering | .done => .gone

/-- The state of the gate at a stage. -/
def Stage.Fits (gate : NativeGate) : Stage → Prop
  | .resting => gate.phase = .live ∧ gate.polling = false
  | .polling => gate.phase = .live ∧ gate.polling = true
  | .over => ∃ kind, gate.phase = .terminal kind
  | .gone => gate.phase = .destroyed

/-- An entry of the run callback was not yet counted. -/
def Pc.entry : Pc T P → ℕ
  | .entered => 1
  | _ => 0

/-- What ties the gate, the callbacks and the submissions together. -/
structure Gated (pid : Pid) (σ : State T P W) : Prop where
  fits : σ.pc.stage.Fits σ.gate
  task : σ.pc.stage ≠ .gone → σ.gate.task.isSome = true
  runtime : σ.pc.stage ≠ .gone → σ.runtime = some pid
  /-- One submission is out exactly when the flag is set. -/
  submits : σ.gate.phase = .live →
    σ.history.submits = σ.history.entries + σ.gate.wakeSubmitted.toNat
  tokens : σ.history.submits = σ.history.entries + σ.tokens + σ.pc.entry
  /-- A wake or abort sets the flag. -/
  requests : σ.gate.phase = .live → σ.gate.wakeSubmitted = false → σ.history.requests = 0

/-- A live gate is at one of the first two stages. -/
theorem Stage.Fits.live {gate : NativeGate} {s : Stage} (h : s.Fits gate) :
    gate.phase = .live ↔ s = .resting ∨ s = .polling := by
  cases s with
  | resting => simp [h.1]
  | polling => simp [h.1]
  | gone => simp [show gate.phase = .destroyed from h]
  | _ =>
    obtain ⟨kind, hkind⟩ := h
    simp [hkind]

/-- The descriptor of a live task is not destroyed. -/
theorem Stage.Fits.ne_gone {gate : NativeGate} {s : Stage} (h : s.Fits gate)
    (hlive : gate.phase = .live) : s ≠ .gone := by
  rintro rfl
  exact absurd (hlive.symm.trans h) (by decide)

/-- The program point after the future is dropped. -/
@[simp]
theorem Cleanup.next_stage (why : Cleanup T P) (panic : Option P) :
    (why.next panic).stage = .over := by
  cases why with
  | ready => cases panic <;> rfl
  | panicked payload wins => cases wins <;> cases panic <;> rfl
  | cancelled | unavailable | failed | late => cases panic <;> rfl

/-- A cleanup does not lead to an entry of the callback. -/
@[simp]
theorem Cleanup.next_entry (why : Cleanup T P) (panic : Option P) : (why.next panic).entry = 0 := by
  cases why with
  | ready => cases panic <;> rfl
  | panicked payload wins => cases wins <;> cases panic <;> rfl
  | cancelled | unavailable | failed | late => cases panic <;> rfl

/-- Nothing is out before the task is polled for the first time but its first submission. -/
theorem Gated.init (raw : RawTask) : Gated pid (State.init pid raw : State T P W) where
  fits := ⟨rfl, rfl⟩
  task _ := rfl
  runtime _ := rfl
  submits _ := rfl
  tokens := rfl
  requests _ h := by cases h

/-- A step that leaves the gate alone and stays at its stage. -/
theorem Gated.frame (h : Gated pid σ) (hgate : τ.gate = σ.gate) (hruntime : τ.runtime = σ.runtime)
    (hstage : τ.pc.stage = σ.pc.stage) (hsubmits : τ.history.submits = σ.history.submits)
    (hentries : τ.history.entries = σ.history.entries)
    (hrequests : τ.history.requests = σ.history.requests)
    (htokens : τ.tokens + τ.pc.entry = σ.tokens + σ.pc.entry) : Gated pid τ where
  fits := by rw [hstage, hgate]; exact h.fits
  task := by rw [hstage, hgate]; exact h.task
  runtime := by rw [hstage, hruntime]; exact h.runtime
  submits := by rw [hgate, hsubmits, hentries]; exact h.submits
  tokens := by
    have := h.tokens
    omega
  requests := by rw [hgate, hrequests]; exact h.requests

/-- A step that closes the gate or works behind a closed one. -/
theorem Gated.close (h : Gated pid σ) (hover : σ.pc.stage ≠ .gone) (hstage : τ.pc.stage = .over)
    (hphase : ∃ kind, τ.gate.phase = .terminal kind) (htask : τ.gate.task = σ.gate.task)
    (hruntime : τ.runtime = σ.runtime)
    (htokens : τ.history.submits = τ.history.entries + τ.tokens + τ.pc.entry) : Gated pid τ := by
  obtain ⟨kind, hkind⟩ := hphase
  have hlive : τ.gate.phase ≠ .live := by
    rw [hkind]
    nofun
  exact
    { fits := by rw [hstage]; exact ⟨kind, hkind⟩
      task := fun _ => by rw [htask]; exact h.task hover
      runtime := fun _ => by rw [hruntime]; exact h.runtime hover
      submits := fun hl => absurd hl hlive
      tokens := htokens
      requests := fun hl => absurd hl hlive }

/-- `replace_terminal` closes nothing and opens nothing. -/
theorem NativeGate.replaceTerminal_eq {gate : NativeGate} {kind kind' : TerminalKind}
    (h : gate.phase = .terminal kind) :
    gate.replaceTerminal kind' = { gate with phase := .terminal kind' } := by
  unfold NativeGate.replaceTerminal
  rw [h]

/-- At a live task `suspend_failed` closes the gate. -/
theorem NativeGate.suspendFailed_eq {gate : NativeGate} (h : gate.phase = .live) :
    gate.suspendFailed = { gate with phase := .terminal .runtimeError } := by
  unfold NativeGate.suspendFailed
  rw [if_pos h]

/-- The stage says nothing of the flags. -/
theorem Stage.Fits.of_eq {gate gate' : NativeGate} {s : Stage} (h : s.Fits gate)
    (hphase : gate'.phase = gate.phase) (hpolling : gate'.polling = gate.polling) :
    s.Fits gate' := by
  cases s <;> simp only [Stage.Fits, hphase, hpolling] <;> exact h

/-- A wake or abort of a live task, with one submission in flight afterwards. -/
theorem Gated.request (h : Gated pid σ) (hlive : σ.gate.phase = .live) (hpc : τ.pc = σ.pc)
    (hphase : τ.gate.phase = σ.gate.phase) (hpolling : τ.gate.polling = σ.gate.polling)
    (htask : τ.gate.task = σ.gate.task) (hruntime : τ.runtime = σ.runtime)
    (hwake : τ.gate.wakeSubmitted = true)
    (hentries : τ.history.entries = σ.history.entries)
    (hsubmits : τ.history.submits + σ.gate.wakeSubmitted.toNat = σ.history.submits + 1)
    (htokens : τ.tokens + σ.gate.wakeSubmitted.toNat = σ.tokens + 1) : Gated pid τ where
  fits := by rw [hpc]; exact h.fits.of_eq hphase hpolling
  task := by rw [hpc, htask]; exact h.task
  runtime := by rw [hpc, hruntime]; exact h.runtime
  submits _ := by
    have hcount := h.submits hlive
    rw [hentries, hwake, Bool.toNat_true]
    omega
  tokens := by
    have hcount := h.tokens
    rw [hentries, hpc]
    omega
  requests _ hfalse := by
    rw [hwake] at hfalse
    cases hfalse

/-- The invariant is kept by every step. -/
theorem Gated.move [DecidableEq W] (h : Gated pid σ) (hm : Move pid σ a τ) : Gated pid τ := by
  have hcount := h.tokens
  have hfits := h.fits
  have hruntime := h.runtime
  cases hm with
  | wakeNone hcoalesced =>
    refine { h with requests := fun hlive hwake => ?_ }
    -- the descriptor is not destroyed, so the runtime is there and the wake was coalesced
    have hne : σ.pc.stage ≠ .gone := hfits.ne_gone hlive
    have hset := hcoalesced (by simp [processMatches, hruntime hne]) hlive
    exact absurd (hset.symm.trans hwake) (by decide)
  | wake hphase hwake =>
    -- flag and counters go up together
    exact h.request hphase rfl rfl rfl rfl rfl rfl rfl (by rw [hwake]; rfl) (by rw [hwake]; rfl)
  | abortNone => exact h
  | abortQuiet hphase hcancel hwake =>
    exact h.request hphase rfl rfl rfl rfl rfl hwake rfl (by rw [hwake]; rfl) (by rw [hwake]; rfl)
  | abort hphase hcancel hwake =>
    exact h.request hphase rfl rfl rfl rfl rfl rfl rfl (by rw [hwake]; rfl) (by rw [hwake]; rfl)
  | joinPoll => exact h.frame rfl rfl rfl rfl rfl rfl rfl
  | enter hpc htokens =>
    refine h.frame rfl rfl (by rw [hpc]; rfl) rfl rfl rfl ?_
    -- the token becomes an entry that `start_poll` will count
    rw [hpc, htokens]
    rfl
  | startPoll hpc hphase hcancel =>
    rw [hpc] at hcount
    exact
      { fits := ⟨hphase, rfl⟩
        task := fun _ => h.task (by rw [hpc]; nofun)
        runtime := fun _ => hruntime (by rw [hpc]; nofun)
        submits := fun _ => by
          -- an entry not yet counted means that the flag was set
          have hsubmits := h.submits hphase
          have hle := Bool.toNat_le σ.gate.wakeSubmitted
          show σ.history.submits = σ.history.entries + 1 + 0
          change _ = _ + _ + 1 at hcount
          omega
        tokens := by
          show σ.history.submits = σ.history.entries + 1 + σ.tokens + 0
          change _ = _ + _ + 1 at hcount
          omega
        requests := fun _ _ => rfl }
  | startCancelled hpc hphase hcancel =>
    refine h.close (by rw [hpc]; nofun) rfl ⟨_, rfl⟩ rfl rfl ?_
    rw [hpc] at hcount
    change _ = _ + _ + 1 at hcount
    show σ.history.submits = σ.history.entries + 1 + σ.tokens + 0
    omega
  | upgrade hpc =>
    have hsome : σ.runtime = some pid := hruntime (by rw [hpc]; nofun)
    refine h.frame rfl rfl ?_ rfl rfl rfl ?_ <;> rw [hpc, hsome] <;> rfl
  | unavailable hpc =>
    refine h.close (by rw [hpc]; nofun) rfl ⟨_, rfl⟩ rfl rfl ?_
    rw [hpc] at hcount
    exact hcount
  | poll hpc => exact h.frame rfl rfl (by rw [hpc]; rfl) rfl rfl rfl (by rw [hpc]; rfl)
  | finishPending hpc hcancel =>
    rw [hpc] at hfits hcount
    exact
      { fits := ⟨hfits.1, rfl⟩
        task := fun _ => h.task (by rw [hpc]; nofun)
        runtime := fun _ => hruntime (by rw [hpc]; nofun)
        submits := h.submits
        tokens := hcount
        requests := h.requests }
  | finishCancelled hpc | finishReady hpc | finishPanicked hpc =>
    refine h.close (by rw [hpc]; nofun) rfl ⟨_, rfl⟩ rfl rfl ?_
    rw [hpc] at hcount
    exact hcount
  | suspend hpc => exact h.frame rfl rfl (by rw [hpc]; rfl) rfl rfl rfl (by rw [hpc]; rfl)
  | suspendError hpc => exact h.frame rfl rfl (by rw [hpc]; rfl) rfl rfl rfl (by rw [hpc]; rfl)
  | suspendFailed hpc =>
    rw [hpc] at hfits hcount
    have hgate := NativeGate.suspendFailed_eq hfits.1
    exact h.close (by rw [hpc]; nofun) rfl ⟨_, by rw [hgate]⟩ (by rw [hgate]) rfl hcount
  | dropFuture hpc =>
    -- whatever the reason, the gate is closed and stays closed
    refine h.frame rfl rfl ?_ rfl rfl rfl ?_ <;> rw [hpc]
    · exact Cleanup.next_stage _ _
    · exact congrArg _ (Cleanup.next_entry _ _)
  | replaceTerminal hpc =>
    rw [hpc] at hfits hcount
    obtain ⟨kind, hkind⟩ := hfits
    have hgate := @NativeGate.replaceTerminal_eq _ _ .panicked hkind
    exact h.close (by rw [hpc]; nofun) rfl ⟨_, by rw [hgate]⟩ (by rw [hgate]) rfl hcount
  | discard hpc => exact h.frame rfl rfl (by rw [hpc]; rfl) rfl rfl rfl (by rw [hpc]; rfl)
  | discardLate hpc => exact h.frame rfl rfl (by rw [hpc]; rfl) rfl rfl rfl (by rw [hpc]; rfl)
  | unwind hpc =>
    obtain ⟨result, hpc⟩ | hpc := hpc <;>
    exact h.frame rfl rfl (by rw [hpc]; rfl) rfl rfl rfl (by rw [hpc]; rfl)
  | @store result debris hpc hresult =>
    refine h.frame rfl rfl ?_ rfl rfl rfl ?_ <;> rw [hpc] <;> cases debris <;> rfl
  | forcePanic hpc =>
    rw [hpc] at hfits hcount
    obtain ⟨kind, hkind⟩ := hfits
    have hgate := @NativeGate.replaceTerminal_eq _ _ .panicked hkind
    exact h.close (by rw [hpc]; nofun) rfl ⟨_, by rw [hgate]⟩ (by rw [hgate]) rfl hcount
  | overwrite hpc => exact h.frame rfl rfl (by rw [hpc]; rfl) rfl rfl rfl (by rw [hpc]; rfl)
  | @leave suspended hpc =>
    refine h.frame rfl rfl ?_ rfl rfl rfl ?_ <;> rw [hpc] <;> cases suspended <;> rfl
  | retire hpc =>
    -- nothing is promised of a destroyed descriptor but the count of its tokens
    rw [hpc] at hcount
    exact
      { fits := rfl
        task := fun hne => absurd rfl hne
        runtime := fun hne => absurd rfl hne
        submits := fun hlive => by cases hlive
        tokens := hcount
        requests := fun hlive => by cases hlive }
  | publish hpc => exact h.frame rfl rfl (by rw [hpc]; rfl) rfl rfl rfl (by rw [hpc]; rfl)
  | unregister hpc => exact h.frame rfl rfl (by rw [hpc]; rfl) rfl rfl rfl (by rw [hpc]; rfl)
  | dropRuntime hpc =>
    exact { h with runtime := fun hne => absurd (by rw [hpc]; rfl) hne }

/-! ## Runs -/

/-- The submissions a task makes succeed, as the contract of nOS-V says. -/
def Contract : State T P W → Action T P W → Prop
  | _, .schedule (.error _) | _, .requestAbort (.error _) => False
  | _, _ => True

instance : ∀ (σ : State T P W) (a : Action T P W), Decidable (Contract σ a)
  | _, .schedule (.error _) | _, .requestAbort (.error _) => inferInstanceAs (Decidable False)
  | _, .schedule (.ok _) | _, .requestAbort (.ok _) | _, .joinPoll _ | _, .enter | _, .startPoll
  | _, .upgrade | _, .unavailable | _, .poll _ | _, .finish | _, .suspend _ | _, .suspendFailed
  | _, .dropFuture _ | _, .replaceTerminal | _, .discard _ | _, .store | _, .forcePanic
  | _, .overwrite | _, .leave | _, .retire _ | _, .publish | _, .unregister | _, .dropRuntime =>
    inferInstanceAs (Decidable True)

/-- A submission that succeeds makes `schedule` succeed on a gate that fits its stage. -/
theorem Gated.schedule_ne (h : Gated pid σ) {e : TaskAbort} :
    σ.gate.schedule σ.runtime pid (.ok ()) ≠ .error e := by
  unfold NativeGate.schedule
  split_ifs with hpid hgate
  · nofun
  · nofun
  · have hlive : σ.gate.phase = .live := by simpa using (not_or.mp hgate).1
    have hne : σ.pc.stage ≠ .gone := h.fits.ne_gone hlive
    obtain ⟨raw, hraw⟩ := Option.isSome_iff_exists.mp (h.task hne)
    rw [hraw]
    nofun

/-- A submission that succeeds makes `request_abort` succeed on a gate that fits its stage. -/
theorem Gated.requestAbort_ne (h : Gated pid σ) {e : TaskAbort} :
    σ.gate.requestAbort σ.runtime pid (.ok ()) ≠ .error e := by
  unfold NativeGate.requestAbort
  split_ifs with hpid hgate hwake
  · nofun
  · nofun
  · nofun
  · have hlive : σ.gate.phase = .live := by simpa using (not_or.mp hgate).1
    have hne : σ.pc.stage ≠ .gone := h.fits.ne_gone hlive
    obtain ⟨raw, hraw⟩ := Option.isSome_iff_exists.mp (h.task hne)
    rw [hraw]
    nofun

variable [DecidableEq W] {ok : State T P W → Action T P W → Prop} {raw : RawTask}

/-- The invariant holds in every state a task can come to. -/
theorem Gated.of_reaches (h : Lts.Reaches (step pid) ok (.init pid raw) σ) : Gated pid σ :=
  h.invariant (Gated.init raw) fun _ _ _ hI _ hs => hI.move (move_of_step hs)

/-- Once the gate is closed, nothing is submitted any more. -/
theorem Move.submits (hm : Move pid σ a τ) (hlive : σ.gate.phase ≠ .live) :
    τ.gate.phase ≠ .live ∧ τ.history.submits = σ.history.submits := by
  cases hm with
  -- the moves that need a live gate
  | wake hphase | abortQuiet hphase | abort hphase | startPoll _ hphase | startCancelled _ hphase =>
    exact absurd hphase hlive
  | suspendFailed =>
    unfold NativeGate.suspendFailed
    rw [if_neg hlive]
    exact ⟨hlive, rfl⟩
  | replaceTerminal | forcePanic =>
    refine ⟨?_, rfl⟩
    unfold NativeGate.replaceTerminal
    split
    · nofun
    · exact hlive
  -- the moves that leave it closed, whatever it was
  | unavailable | finishCancelled | finishReady | finishPanicked | retire => exact ⟨nofun, rfl⟩
  | _ => exact ⟨hlive, rfl⟩

/-- A step that ends with a critical section aborts where that section does. -/
theorem bind_return_eq_abort {α β : Type} {x : Except TaskAbort α} {f : α → β} {e : TaskAbort}
    (h : (checked x >>= fun r => (return f r : Except (Halt TaskAbort) β)) = .error (.abort e)) :
    x = .error e := by
  cases x with
  | ok r => cases h
  | error e' =>
    cases h
    rfl

/-- No check of `TaskCore` fails: what can abort is a poll without a future, a second result, or
the destruction of the descriptor. -/
theorem Gated.aborts (h : Gated pid σ) (hok : Contract σ a) {e : TaskAbort}
    (hs : step pid a σ = .error (.abort e)) :
    (σ.pc = .polling ∧ σ.future = false ∧ e = .futureMissing) ∨
    (∃ result debris, σ.pc = .storing result debris ∧ σ.join.result ≠ none ∧ e = .storedTwice) ∨
    e = .retireFailed := by
  have hfits := h.fits
  cases a with
  | schedule submit =>
    cases submit with
    | error => exact hok.elim
    | ok => exact absurd (bind_return_eq_abort hs) h.schedule_ne
  | requestAbort submit =>
    cases submit with
    | error => exact hok.elim
    | ok => exact absurd (bind_return_eq_abort hs) h.requestAbort_ne
  | startPoll =>
    simp only [step] at hs
    split at hs
    next hpc =>
      -- a callback that was entered is not inside another poll
      rw [hpc] at hfits
      exact absurd (bind_return_eq_abort hs) (NativeGate.startPoll_ne hfits.1 hfits.2)
    next => cases hs
  | unavailable =>
    simp only [step] at hs
    split at hs
    next hpc =>
      rw [hpc] at hfits
      exact absurd (bind_return_eq_abort hs) (NativeGate.finishTerminal_ne hfits.1 hfits.2)
    next => cases hs
  | finish =>
    simp only [step] at hs
    split at hs
    next hpc =>
      rw [hpc] at hfits
      exact absurd (bind_return_eq_abort hs) (NativeGate.finishPending_ne hfits.1 hfits.2)
    next hpc =>
      rw [hpc] at hfits
      exact absurd (bind_return_eq_abort hs) (NativeGate.finishTerminal_ne hfits.1 hfits.2)
    next hpc =>
      rw [hpc] at hfits
      exact absurd (bind_return_eq_abort hs) (NativeGate.finishTerminal_ne hfits.1 hfits.2)
    next => cases hs
  | store =>
    simp only [step] at hs
    split at hs
    next result debris hpc =>
      have herr := bind_return_eq_abort hs
      unfold JoinInner.store at herr
      split at herr
      next r hr =>
        cases herr
        exact .inr (.inl ⟨result, debris, hpc, by simp [hr], rfl⟩)
      next => cases herr
    next => cases hs
  | poll =>
    simp only [step] at hs
    split at hs
    next hpc =>
      split_ifs at hs with hfuture
      · cases hs
      · cases hs
        exact .inl ⟨hpc, by simpa using hfuture, rfl⟩
    next => cases hs
  | retire =>
    simp only [step] at hs
    split at hs <;> cases hs
    exact .inr (.inr rfl)
  | joinPoll => cases hs
  -- the other steps have no check that can fail
  | enter | upgrade | suspend | suspendFailed | dropFuture | replaceTerminal | discard |
    forcePanic |
      overwrite | leave | publish | unregister | dropRuntime =>
    simp only [step] at hs
    split at hs <;> cases hs

/-- Of one spawned task, in every run: while the phase is `Live`, one submission more was issued
than the callback was entered exactly when `wake_submitted` is set; a live suspended task without
a token has had no wake and no accepted abort since its last `start_poll`; after the phase has left
`Live` nothing is submitted; and `TaskCore` never aborts. -/
theorem wakes_submitted_once (h : Lts.Reaches (step pid) Contract (.init pid raw) σ) :
    (σ.gate.phase = .live →
      σ.history.submits = σ.history.entries + if σ.gate.wakeSubmitted then 1 else 0) ∧
    (σ.gate.phase = .live → σ.pc = .idle → σ.tokens = 0 → σ.history.requests = 0) ∧
    (σ.gate.phase ≠ .live → ∀ τ, Lts.Reaches (step pid) Contract σ τ →
      τ.history.submits = σ.history.submits) ∧
    ∀ a e, Contract σ a → step pid a σ = .error (.abort e) → e.core = false := by
  have hG := Gated.of_reaches h
  refine ⟨fun hlive => ?_, fun hlive hpc htokens => ?_, fun hlive τ hτ => ?_,
    fun a e hok hs => ?_⟩
  · rw [hG.submits hlive]
    cases σ.gate.wakeSubmitted <;> rfl
  · refine hG.requests hlive ?_
    -- with no token left every submission was entered, so the flag is clear
    have hcount := hG.tokens
    have hsubmits := hG.submits hlive
    rw [hpc, htokens] at hcount
    cases hwake : σ.gate.wakeSubmitted with
    | false => rfl
    | true =>
      rw [hwake] at hsubmits
      exact absurd (hsubmits.symm.trans hcount) (by simp [Pc.entry])
  · have hall : τ.gate.phase ≠ .live ∧ τ.history.submits = σ.history.submits :=
      Lts.Reaches.invariant
        (I := fun τ => τ.gate.phase ≠ .live ∧ τ.history.submits = σ.history.submits) hτ
        ⟨hlive, rfl⟩ fun _ _ _ hI _ hs =>
          have hm := (move_of_step hs).submits hI.1
          ⟨hm.1, hm.2.trans hI.2⟩
    exact hall.2
  · obtain ⟨-, -, rfl⟩ | ⟨-, -, -, -, rfl⟩ | rfl := hG.aborts hok hs <;> rfl

/-- A task that is woken before and during its first poll, and suspends. -/
def wokenTwice : List (Action ℕ ℕ ℕ) :=
  [.schedule (.ok ()), .enter, .startPoll, .upgrade, .poll .pending, .schedule (.ok ()),
    .schedule (.ok ()), .finish, .suspend (.ok ()), .leave]

/-- The first wake was coalesced with the first submission, the last one with the second. -/
theorem wakes_submitted_once_tiny :
    ∃ σ : State ℕ ℕ ℕ, Lts.Reaches (step 7) Contract (.init 7 1) σ ∧ σ.history.submits = 2 ∧
      σ.tokens = 1 ∧ (σ.gate.phase = .live →
        σ.history.submits = σ.history.entries + if σ.gate.wakeSubmitted then 1 else 0) := by
  have hrun : (Lts.exec (step 7) Contract wokenTwice (.init 7 1)).any
      (fun σ => σ.history.submits = 2 ∧ σ.tokens = 1) = true := by decide
  obtain ⟨σ, hσ, hsubmits, htokens⟩ := Lts.exists_of_exec hrun
  exact ⟨σ, hσ, hsubmits, htokens, (wakes_submitted_once hσ).1⟩

end Nosv.Task
