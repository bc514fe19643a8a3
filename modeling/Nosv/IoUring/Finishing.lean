import Nosv.IoUring.Releasing

/-!
# The driver comes to its end

When the owner thread waits for the driver, nothing new comes in and every cancellation has been
asked for. What is left is on its way: commands and records to the SQ, SQEs to the kernel, CQEs to
their dispatch. Each pass of the driver takes some of it one place further, until `decide` finds
nothing left and stops. So `shutdown_and_wait` can always be brought to its return.

* `Awaited.exists_step`: until the driver has completed, some step brings it closer;
* `shutdown_finishes`: the call returns, with the ring closed and nothing left.
-/

namespace Nosv.IoUring

variable {cfg : PreparedRing} {ok : State → Action → Prop} {σ τ : State} {a : Action}

/-! ## A driver that pauses under shutdown -/

/-- A paused driver that shows as woken has the submit it was woken by. -/
def Sent (σ : State) : Prop :=
  σ.driver = .native .pause → σ.gate.phase = .wakePending → 0 < σ.tokens

/-- Every move keeps the submit until the pause is over. -/
theorem Sent.move (h : Sent σ) (hP : Parked σ) (hm : Move cfg σ a τ) : Sent τ := by
  cases hm
  case notify y hcall hnotify =>
    intro hd hp
    rcases notify_cases hnotify with rfl | ⟨-, -, rfl⟩ | ⟨-, hphase, -⟩
    · exact Nat.lt_of_lt_of_le (h hd hp) (Nat.le_add_right _ _)
    · exact Nat.lt_of_lt_of_le Nat.one_pos (Nat.le_add_left _ _)
    · rcases hP.pausing hd with hw | hw <;> rw [hphase] at hw <;> cases hw
  case park d _ _ =>
    intro hd hp
    cases hd
    cases hp
  case dispatch y _ _ _ _ =>
    intro hd
    cases hy : y.handler <;> simp [hy] at hd
  case passBegin | failOwned | failEnd | reap | dispatchEnd | publish | cancelOverflow |
      overflowEnd | decideStop | decide | parkNotified | resume | markRunning | takeRing |
      closeGate | retire | complete | admissionsEnd => exact fun hd => by cases hd
  all_goals exact h

/-- In every reachable state a paused driver that shows as woken has its submit. -/
theorem Sent.of_reachable (h : Reachable cfg ok σ) : Sent σ :=
  h.inv_of Parked.of_reachable (fun hd => by cases hd) fun hP _ hI _ hm => hI.move hP hm

/-- A driver that is about to pause, or does, has still to hear of shutdown when that was raised. -/
def Unheard (σ : State) : Prop :=
  σ.pausing = true → σ.data.shutdown = true →
    σ.owner.raised = true ∧ (σ.owner = .waiting → σ.calls .owner = some .notify)

/-- Every move keeps the owner thread before its last `notify`, or the driver awake. -/
theorem Unheard.move (h : Unheard σ) (hm : Move cfg σ a τ) : Unheard τ := by
  intro hpausing hshutdown
  -- A driver that begins to pause has seen no shutdown.
  rcases hm.pausing hpausing with hσ | hcovered
  · rcases hm.shutdown hshutdown with hraised | ⟨⟨order, rfl⟩, -⟩
    · obtain ⟨hr, hw⟩ := h hσ hraised
      have hcall : ∀ {b : Actor} {x y : Option Call}, σ.calls b = x → x ≠ some .notify →
          σ.owner = .waiting → Function.update σ.calls b y .owner = some .notify := by
        intro b x y hb hx hwaiting
        by_cases heq : b = .owner
        · subst heq
          exact absurd (hb.symm.trans (hw hwaiting)) hx
        · rw [Function.update_of_ne (Ne.symm heq)]
          exact hw hwaiting
      cases hm
      case close hb | sweep hb _ _ _ | sweepOwned hb _ _ | sweepOwnedNone hb _ _ =>
        exact ⟨hr, hcall hb (by simp)⟩
      case notify y _ hnotify =>
        have hfalse : y.1.notified = false := (State.pausing_iff.mp hpausing).2
        rw [notify_notified hnotify] at hfalse
        cases hfalse
      case shutdownAndWait howner _ | closeAdmission howner | raiseShutdown howner _ _ _ =>
        rw [howner] at hr
        cases hr
      case cancelSubmission | submissionsEnd | cancelSnapshot => exact ⟨rfl, fun ho => by cases ho⟩
      case snapshotEnd => exact ⟨rfl, fun _ => by simp [State.setCall]⟩
      case awaitCompleted howner hnone _ =>
        rw [hnone] at hw
        cases hw howner
      all_goals exact ⟨hr, hw⟩
    · cases hm with
      | raiseShutdown => exact ⟨rfl, fun ho => by cases ho⟩
  · exact hcovered.shutdown hshutdown

/-- In every reachable state the owner thread has yet to notify a driver that pauses in spite of
shutdown. -/
theorem Unheard.of_reachable (h : Reachable cfg ok σ) : Unheard σ :=
  h.inv (fun hpausing => by cases hpausing) fun hI _ hm => hI.move hm

/-! ## The ring and the last step -/

/-- The SQ has as many slots as it was configured with, for as long as there is a ring. -/
def Sized (cfg : PreparedRing) (σ : State) : Prop :=
  ∀ r, σ.ring = some r → r.entries = cfg.config.entries

/-- A step to a ring of the same size. -/
theorem Sized.of_ring (h : Sized cfg σ) {r r' : Ring} (hring : σ.ring = some r)
    (hring' : τ.ring = some r') (heq : r'.entries = r.entries) : Sized cfg τ := by
  intro x hx
  cases hring'.symm.trans hx
  exact heq.trans (h r hring)

/-- Every move keeps the size. -/
theorem Sized.move (h : Sized cfg σ) (hm : Move cfg σ a τ) : Sized cfg τ := by
  cases hm
  case kernelPost hring _ _ | reap hring => exact h.of_ring hring rfl rfl
  case stageCancellation hring _ hy =>
    refine h.of_ring hring rfl ?_
    rcases stageCancellation_cases hy with rfl | ⟨_, _, _, _, rfl⟩ <;> rfl
  case stageOwnedCancellation hring _ hy =>
    refine h.of_ring hring rfl ?_
    rcases stageOwnedCancellation_cases hy with rfl | ⟨_, _, _, _, rfl⟩ <;> rfl
  case stageOwned hring _ hy =>
    refine h.of_ring hring rfl ?_
    rcases stageOwned_cases hy with ⟨_, rfl⟩ | ⟨op, x, hpop, hx⟩
    · rfl
    · -- Taking a record leaves the ring alone.
      rcases popOwned_cases hpop with ⟨_, _, rfl⟩ | ⟨_, _, _, rfl⟩ <;>
        rcases hx with ⟨_, rfl⟩ | rfl | ⟨_, _, rfl⟩ <;> rfl
  case originalStaged hring _ hy =>
    obtain ⟨-, rfl⟩ := stageOriginal_staged hy
    exact h.of_ring hring rfl rfl
  case accept hring hy =>
    refine h.of_ring hring rfl ?_
    rcases acceptStaged_cases hy with ⟨_, _, _, _, _, _, rfl⟩ | ⟨_, _, _, _, _, _, rfl⟩ |
      ⟨_, _, _, _, _, _, rfl⟩ <;> rfl
  case takeRing => exact fun r hr => by cases hr
  all_goals exact h

/-- The size is kept in every reachable state. -/
theorem Sized.of_reachable (h : Reachable cfg ok σ) : Sized cfg σ :=
  h.inv (fun r hr => by cases hr; rfl) fun hI _ hm => hI.move hm

/-- A driver that has taken its last step has announced it. -/
def Announcing (σ : State) : Prop := σ.driver = .completed → σ.completed = true

/-- Every move keeps the announcement. -/
theorem Announcing.move (h : Announcing σ) (hm : Move cfg σ a τ) : Announcing τ := by
  cases hm
  case complete => exact fun _ => rfl
  case dispatch y _ _ _ _ =>
    intro hd
    cases hy : y.handler <;> simp [hy] at hd
  case passBegin | failOwned | failEnd | reap | dispatchEnd | publish | cancelOverflow |
      overflowEnd | decideStop | decide | parkNotified | park | resume | markRunning | takeRing |
      closeGate | retire | admissionsEnd => exact fun hd => by cases hd
  all_goals exact h

/-- In every reachable state a driver behind its last step has announced its completion. -/
theorem Announcing.of_reachable (h : Reachable cfg ok σ) : Announcing σ :=
  h.inv (fun hd => by cases hd) fun hI _ hm => hI.move hm

/-! ## When the owner thread waits -/

/-- The owner thread has made its last call, and waits for the driver. -/
structure Awaited (cfg : PreparedRing) (σ : State) : Prop where
  reachable : Reachable cfg Lts.Always σ
  owner : σ.owner = .waiting
  call : σ.calls .owner = none

namespace Awaited

/-- Shutdown was raised. -/
theorem shutdown (h : Awaited cfg σ) : σ.data.shutdown = true :=
  (Sweeping.of_reachable h.reachable).raised (by rw [h.owner]; rfl)

/-- A pause that the driver is in has been sent its wake. -/
theorem token (h : Awaited cfg σ) (hd : σ.driver = .native .pause) : 0 < σ.tokens := by
  have hP := Parked.of_reachable h.reachable
  refine Sent.of_reachable h.reachable hd ((hP.pausing hd).resolve_left fun hpaused => ?_)
  have hpausing := State.pausing_iff.mpr ⟨.inr hd, hP.asleep (.inl hpaused)⟩
  have hcall := (Unheard.of_reachable h.reachable hpausing h.shutdown).2 h.owner
  rw [h.call] at hcall
  cases hcall

/-- Nobody holds the mutex but a driver that is staging. -/
theorem crit_none (h : Awaited cfg σ) (hd : σ.driver ≠ .staging) : σ.crit = none := by
  by_contra hne
  obtain ⟨⟨holder, stage⟩, hcrit⟩ := Option.ne_none_iff_exists'.mp hne
  cases holder with
  | admission s w n =>
    have hno := Sealed.of_reachable h.reachable h.shutdown s
    rw [State.admits_of_crit hcrit] at hno
    simp [Holder.admits] at hno
  | pass failed => exact hd ((Staging.of_reachable h.reachable).mpr ⟨failed, stage, hcrit⟩)

/-- Every original that is not over has its cancellation, so a sweep finds nothing. -/
theorem cancelTargets_eq (h : Awaited cfg σ) (s : SubId) : cancelTargets σ.data s = ∅ := by
  have hsweep := Sweeping.of_reachable h.reachable
  have hswept : σ.registry.Swept s := by
    refine (hsweep.raw h.shutdown s).resolve_right ?_
    rw [h.owner, h.call]
    simp [OwnerPc.snapshot]
  refine Finset.eq_empty_of_forall_notMem fun p hp => ?_
  obtain ⟨c, hc, hcancellable⟩ := mem_cancelTargets.mp hp
  simp only [cancellable, Bool.and_eq_true, beq_iff_eq, bne_iff_ne, Bool.not_eq_true']
    at hcancellable
  obtain ⟨⟨⟨hkind, hphase⟩, hqueued⟩, hstate⟩ := hcancellable
  rw [hswept p c hc hstate hkind hphase] at hqueued
  cases hqueued

/-- No step of the shutdown takes the owner thread out of its wait. -/
theorem step (h : Awaited cfg σ) (ha : Winding σ a) (hstep : step cfg a σ = .ok τ) :
    Awaited cfg τ := by
  have hτ : Reachable cfg Lts.Always τ := h.reachable.tail trivial hstep
  obtain ⟨-, howner, hcall⟩ := h
  have hkeep : τ.owner = .waiting ∧ τ.calls .owner = none := by
    cases move_of_step hstep
    case close b _ _ hb | sweep b _ _ _ hb _ _ _ | sweepOwned b _ _ hb _ _ |
        sweepOwnedNone b _ hb _ _ | notify b _ hb _ =>
      have hne : Actor.owner ≠ b := by
        rintro rfl
        rw [hcall] at hb
        cases hb
      exact ⟨howner, (Function.update_of_ne hne _ _).trans hcall⟩
    case closeAdmission ho | raiseShutdown ho _ _ _ | cancelSubmission ho | submissionsEnd ho |
        cancelSnapshot ho | snapshotEnd ho =>
      rw [howner] at ho
      cases ho
    all_goals first | exact ⟨howner, hcall⟩ | cases ha
  exact ⟨hτ, hkeep.1, hkeep.2⟩

end Awaited

/-! ## What is left, and how far away the driver is -/

/-- The steps that the SQEs and CQEs in the ring have still to take. -/
def Ring.left (r : Ring) : ℕ := 4 * r.sq.length + 3 * r.inflight.length + 2 * r.cq.length

/-- The steps that everything in the driver has still to take: a command becomes an SQE, an SQE goes
to the kernel, the kernel answers it, the answer is read and dispatched; a record is discarded. -/
def State.left (σ : State) : ℕ :=
  5 * (σ.data.cancelQueue.length + σ.data.ownedCancelQueue.length) + σ.ring.elim 0 Ring.left +
    σ.reaped.length + (σ.data.ownedPending.length + σ.ownedQueue.length)

/-- Where a stage is in the loop of `run`. -/
def Stage.place : Stage → ℕ
  | .cancels | .originals => 2
  | .ownedCancels => 3
  | .owned (_ + 1) => 4
  | .owned 0 => 5
  | .submit => 6
  | .accept (_ + 1) => 7
  | .accept 0 => 8
  | .admissions _ => 9

/-- Where the driver is in the loop of `run`. -/
def State.place (σ : State) : ℕ :=
  match σ.driver with
  | .pass => 1
  | .staging => σ.crit.elim 0 fun x => x.2.place
  | .fail _ => 10
  | .reap => 11
  | .dispatch _ _ | .publish _ _ _ => 12
  | .overflow _ _ => 13
  | .decide _ => 14
  | .park _ => 15
  | .native _ => 16
  | _ => 0

/-- Where the driver finds the next thing to do. -/
def State.target (σ : State) : ℕ :=
  if σ.ring.any (!·.sq.isEmpty) then 7
  else if σ.ring.any (!·.cq.isEmpty) then 11
  else if !σ.data.cancelQueue.isEmpty then 2
  else if !σ.data.ownedCancelQueue.isEmpty then 3
  else if !σ.data.ownedPending.isEmpty || !σ.ownedQueue.isEmpty then 4
  else 14

/-- How many places the driver is away from the next thing to do, or from its end when it has
decided to stop. -/
def State.distance (σ : State) : ℕ :=
  match σ.driver with
  | .takeRing => 4
  | .closeGate => 3
  | .stopped => 2
  | .retired => 1
  | .completed => 0
  | _ => 5 + (σ.target + 17 - σ.place) % 17

/-- How often the driver can step without a change of place. -/
def State.again (σ : State) : ℕ :=
  match σ.driver with
  | .staging =>
    match σ.crit with
    | some (_, .admissions rest) => rest.length
    | _ => 0
  | .fail failed => failed.length
  | .publish _ _ _ => 1
  | .overflow rest _ => 4 * rest.length + Call.left (σ.calls .driver)
  | _ => 0

/-- What the driver has before it. -/
def State.remaining (σ : State) : ℕ ×ₗ ℕ ×ₗ ℕ := toLex (σ.left, toLex (σ.distance, σ.again))

/-- The driver's next thing to do is at one of six places. -/
theorem State.target_cases (σ : State) :
    σ.target = 2 ∨ σ.target = 3 ∨ σ.target = 4 ∨ σ.target = 7 ∨ σ.target = 11 ∨
      σ.target = 14 := by
  unfold State.target
  split_ifs <;> simp

/-- Something has come further. -/
theorem State.remaining_lt_of_left (h : τ.left < σ.left) : τ.remaining < σ.remaining :=
  Prod.Lex.toLex_lt_toLex.mpr (.inl h)

/-- The driver has come closer to its next thing to do. -/
theorem State.remaining_lt_of_distance (hleft : τ.left ≤ σ.left) (h : τ.distance < σ.distance) :
    τ.remaining < σ.remaining := by
  rcases Nat.lt_or_eq_of_le hleft with hlt | heq
  · exact State.remaining_lt_of_left hlt
  · exact Prod.Lex.toLex_lt_toLex.mpr (.inr ⟨heq, Prod.Lex.toLex_lt_toLex.mpr (.inl h)⟩)

/-- The driver has done one of the things that it does at a place. -/
theorem State.remaining_lt_of_again (hleft : τ.left ≤ σ.left) (hdistance : τ.distance = σ.distance)
    (h : τ.again < σ.again) : τ.remaining < σ.remaining := by
  rcases Nat.lt_or_eq_of_le hleft with hlt | heq
  · exact State.remaining_lt_of_left hlt
  · exact Prod.Lex.toLex_lt_toLex.mpr
      (.inr ⟨heq, Prod.Lex.toLex_lt_toLex.mpr (.inr ⟨hdistance, h⟩)⟩)

/-- The distance of a driver that has not decided to stop. -/
theorem State.distance_eq (h : σ.driver.stopping = false) :
    σ.distance = 5 + (σ.target + 17 - σ.place) % 17 := by
  unfold State.distance
  cases hd : σ.driver <;> rw [hd] at h <;> first | rfl | cases h

/-- The driver goes from one place to another, on its way to the next thing to do. -/
theorem State.remaining_lt_of_place (hσ : σ.driver.stopping = false)
    (hτ : τ.driver.stopping = false)
    (hleft : τ.left ≤ σ.left) (htarget : τ.target = σ.target)
    (h : (σ.target + 17 - τ.place) % 17 < (σ.target + 17 - σ.place) % 17) :
    τ.remaining < σ.remaining := by
  refine State.remaining_lt_of_distance hleft ?_
  rw [State.distance_eq hσ, State.distance_eq hτ, htarget]
  omega

/-! ## Staging -/

/-- A validated configuration has slots, and reads CQEs. -/
theorem PreparedRing.sizes_pos (r : PreparedRing) :
    0 < r.config.entries ∧ 0 < r.config.reapSize := by
  have h := r.valid
  unfold IoUringConfig.validate at h
  split_ifs at h
  omega

/-- A full SQ is not empty. -/
theorem sq_ne_nil_of_full (h : Reachable cfg ok σ) {r : Ring} (hring : σ.ring = some r)
    (hfull : r.entries ≤ r.sq.length) : r.sq ≠ [] := by
  have hentries := Sized.of_reachable h r hring
  have hpos := cfg.sizes_pos.1
  exact List.ne_nil_of_length_pos (by omega)

/-- While there is something in the SQ, submitting it is the next thing to do. -/
theorem State.target_of_sq {r : Ring} (hring : σ.ring = some r) (hsq : r.sq ≠ []) :
    σ.target = 7 := by
  simp [State.target, hring, hsq]

/-- After shutdown was raised, each record is discarded. -/
theorem stageOwned_closed {supported : ℕ → Bool} {cancelled : ControlId → Bool} {p : Pointer}
    {x : OwnedStaging} {y : Bool × OwnedStaging} (hshutdown : x.data.shutdown = true)
    (h : stageOwned supported cancelled p x = .ok y) :
    (popOwned x = none ∧ y = (false, x)) ∨
      ∃ op x', popOwned x = some (op, x') ∧
        y = (true, { x' with failed := x'.failed ++ [(op.handler, .closed)] }) := by
  unfold stageOwned at h
  split at h
  next hpop =>
    cases h
    exact .inl ⟨hpop, rfl⟩
  next op x' hpop =>
    have hx' : x'.data.shutdown = true := by
      rcases popOwned_cases hpop with ⟨_, _, rfl⟩ | ⟨_, _, _, rfl⟩ <;> exact hshutdown
    rw [if_pos hx'] at h
    cases h
    exact .inr ⟨op, x', hpop, rfl⟩

/-- Nothing can be taken only when there is nothing. -/
theorem popOwned_eq_none {x : OwnedStaging} (h : popOwned x = none) :
    x.data.ownedPending = [] ∧ x.queue = [] := by
  unfold popOwned at h
  split at h
  next => cases h
  next => cases h
  next hpending hqueue => exact ⟨hpending, hqueue⟩

/-- A staging driver goes from one stage to another, on its way to the next thing to do. -/
theorem State.remaining_lt_of_stage {x y : Holder × Stage} (hσ : σ.driver = .staging)
    (hτ : τ.driver = .staging) (hx : σ.crit = some x) (hy : τ.crit = some y)
    (hleft : τ.left ≤ σ.left) (htarget : τ.target = σ.target)
    (h : (σ.target + 17 - y.2.place) % 17 < (σ.target + 17 - x.2.place) % 17) :
    τ.remaining < σ.remaining := by
  refine State.remaining_lt_of_place (by rw [hσ]; rfl) (by rw [hτ]; rfl) hleft htarget ?_
  simpa only [State.place, hσ, hτ, hx, hy, Option.elim_some] using h

namespace Awaited

/-- In the data-lock section of a pass, the driver goes on. -/
theorem exists_stagingStep (h : Awaited cfg σ) (hd : σ.driver = .staging) :
    ∃ a τ, Winding σ a ∧ IoUring.step cfg a σ = .ok τ ∧ τ.remaining < σ.remaining := by
  obtain ⟨failed, stage, hcrit⟩ := (Staging.of_reachable h.reachable).mp hd
  obtain ⟨r, hring⟩ := ring_of_crit h.reachable (by simp [hcrit])
  have hvisits := Visiting.of_reachable h.reachable _ _ hcrit
  have htarget := σ.target_cases
  have hfull : r.entries ≤ r.sq.length → σ.target = 7 := fun hle =>
    State.target_of_sq hring (sq_ne_nil_of_full h.reachable hring hle)
  cases stage with
  | cancels =>
    obtain ⟨p, τ, hτ⟩ := stageCancellation_goes h.reachable hcrit
    refine ⟨.stageCancellation p, τ, rfl, hτ, ?_⟩
    cases move_of_step hτ with
    | @stageCancellation _ r' _ y hcrit' hring' _ hy =>
      cases hcrit.symm.trans hcrit'
      cases hring.symm.trans hring'
      rcases stageCancellation_cases hy with rfl | ⟨command, rest, hqueue, -, rfl⟩
      · have hne : σ.target ≠ 2 := by
          rcases stageCancellation_stops hy with hempty | hle
          · simp only [State.target, hempty]
            split_ifs <;> simp_all
          · simp [hfull hle]
        refine State.remaining_lt_of_stage hd hd hcrit rfl (by simp [State.left, hring])
          (by simp [State.target, hring]) ?_
        simp only [Stage.place, State.afterCancels, Bool.false_eq_true, if_false]
        omega
      · refine State.remaining_lt_of_left ?_
        simp only [State.left, hring, hqueue, Ring.left, Option.elim_some, List.length_append,
          List.length_cons, List.length_nil]
        omega
  | ownedCancels =>
    obtain ⟨p, τ, hτ⟩ := stageOwnedCancellation_goes h.reachable hcrit
    refine ⟨.stageOwnedCancellation p, τ, rfl, hτ, ?_⟩
    cases move_of_step hτ with
    | @stageOwnedCancellation _ r' _ y hcrit' hring' _ hy =>
      cases hcrit.symm.trans hcrit'
      cases hring.symm.trans hring'
      rcases stageOwnedCancellation_cases hy with rfl | ⟨command, rest, hqueue, -, rfl⟩
      · have hne : σ.target ≠ 3 := by
          rcases stageOwnedCancellation_stops hy with hempty | hle
          · simp only [State.target, hempty]
            split_ifs <;> simp_all
          · simp [hfull hle]
        -- The budget is not used up yet.
        obtain ⟨n, hn⟩ := Nat.exists_eq_succ_of_ne_zero (Nat.ne_of_gt cfg.sizes_pos.1)
        refine State.remaining_lt_of_stage hd hd hcrit rfl (by simp [State.left, hring])
          (by simp [State.target, hring]) ?_
        simp only [hn, Stage.place, Bool.false_eq_true, if_false]
        omega
      · refine State.remaining_lt_of_left ?_
        simp only [State.left, hring, hqueue, Ring.left, Option.elim_some, List.length_append,
          List.length_cons, List.length_nil]
        omega
  | owned budget =>
    obtain ⟨p, τ, hτ⟩ := stageOwned_goes h.reachable hcrit
    refine ⟨.stageOwned p, τ, rfl, hτ, ?_⟩
    cases move_of_step hτ with
    | ownedBudget hcrit' =>
      cases hcrit.symm.trans hcrit'
      refine State.remaining_lt_of_stage hd hd hcrit rfl le_rfl rfl ?_
      simp only [Stage.place]
      omega
    | @stageOwned _ budget r' _ y hcrit' hring' _ hy =>
      cases hcrit.symm.trans hcrit'
      cases hring.symm.trans hring'
      rcases stageOwned_closed h.shutdown hy with ⟨hpop, rfl⟩ | ⟨op, x, hpop, rfl⟩
      · obtain ⟨hpending, hqueue⟩ := popOwned_eq_none hpop
        have hne : σ.target ≠ 4 := by
          simp only [State.target, show σ.data.ownedPending = [] from hpending,
            show σ.ownedQueue = [] from hqueue]
          split_ifs <;> simp_all
        refine State.remaining_lt_of_stage hd hd hcrit rfl (by simp [State.left, hring])
          (by simp [State.target, hring]) ?_
        simp only [Stage.place, Bool.false_eq_true, if_false]
        omega
      · refine State.remaining_lt_of_left ?_
        rcases popOwned_cases hpop with ⟨rest, hpending, rfl⟩ | ⟨rest, -, hqueue, rfl⟩
        · simp [State.left, hring, show σ.data.ownedPending = op :: rest from hpending]
        · simp [State.left, hring, show σ.ownedQueue = op :: rest from hqueue]
  | originals => cases hvisits
  | submit =>
    refine ⟨.submit (.ok r.sq.length), _, rfl, submit_goes h.reachable hcrit hring le_rfl, ?_⟩
    refine State.remaining_lt_of_stage hd hd hcrit rfl le_rfl rfl ?_
    cases hsq : r.sq with
    | nil =>
      have hne : σ.target ≠ 7 := by
        simp only [State.target, hring]
        split_ifs <;> simp_all
      simp only [List.length_nil, Stage.place]
      omega
    | cons e rest =>
      rw [State.target_of_sq hring (by simp [hsq])]
      simp [Stage.place]
  | accept count =>
    obtain ⟨τ, hτ⟩ := accept_goes h.reachable hcrit
    refine ⟨.accept, τ, rfl, hτ, ?_⟩
    cases move_of_step hτ with
    | admitEnd hcrit' => cases hcrit.symm.trans hcrit'
    | passEnd hcrit' =>
      cases hcrit.symm.trans hcrit'
      refine State.remaining_lt_of_stage hd hd hcrit rfl le_rfl rfl ?_
      simp only [Stage.place]
      omega
    | @accept _ count r' y hcrit' hring' hy =>
      cases hcrit.symm.trans hcrit'
      cases hring.symm.trans hring'
      have hsq : r.sq ≠ [] := by
        have hle := Accepting.of_reachable h.reachable _ _ hcrit
        have horder := (DriverData.Sound.of_reachable h.reachable).staged_order r hring
        have hlength := congrArg List.length horder
        simp only [List.length_map] at hlength
        exact List.ne_nil_of_length_pos (by omega)
      obtain ⟨e, rest, hcons⟩ := List.exists_cons_of_ne_nil hsq
      refine State.remaining_lt_of_left ?_
      rcases acceptStaged_cases hy with ⟨_, _, _, _, _, _, rfl⟩ | ⟨_, _, _, _, _, _, rfl⟩ |
        ⟨_, _, _, _, _, _, rfl⟩ <;>
      · simp only [State.left, State.wake, hring, Ring.left, Ring.consume, hcons, Option.elim_some,
          List.length_append, List.length_cons, List.tail_cons, List.head?_cons,
          Option.toList_some, List.length_nil]
        omega
  | admissions rest =>
    have hstep : ∃ τ, IoUring.step cfg .wakeAdmission σ = .ok τ := wakeAdmission_goes hcrit
    obtain ⟨τ, hτ⟩ := hstep
    refine ⟨.wakeAdmission, τ, rfl, hτ, ?_⟩
    cases move_of_step hτ with
    | admissionsEnd hcrit' =>
      cases hcrit.symm.trans hcrit'
      refine State.remaining_lt_of_place (by rw [hd]; rfl) rfl le_rfl rfl ?_
      simp only [State.place, hd, hcrit, Option.elim_some, Stage.place]
      omega
    | wakeAdmission hcrit' _ | admissionDead hcrit' _ =>
      cases hcrit.symm.trans hcrit'
      refine State.remaining_lt_of_again le_rfl ?_ ?_
      · simp [State.distance, State.place, State.wake, State.setInner, hd, hcrit, Stage.place]
        rfl
      · simp [State.again, State.wake, State.setInner, hd, hcrit]

/-! ### Completions -/

/-- The kernel finishes an SQE it has. -/
theorem exists_kernelStep {r : Ring} (hring : σ.ring = some r) (hinflight : r.inflight ≠ []) :
    ∃ a τ, Winding σ a ∧ IoUring.step cfg a σ = .ok τ ∧ τ.remaining < σ.remaining := by
  obtain ⟨e, rest, hcons⟩ := List.exists_cons_of_ne_nil hinflight
  have hstep : ∃ τ, IoUring.step cfg (.kernelPost ⟨e.userData, 0, 0⟩) σ = .ok τ := by
    simp only [IoUring.step, State.kernelPost, bind_eq_ok, need_eq_ok, require_eq_ok]
    exact ⟨_, r, hring, e, by simp [hcons], (), by simp [Cqe.more], rfl⟩
  obtain ⟨τ, hτ⟩ := hstep
  refine ⟨.kernelPost ⟨e.userData, 0, 0⟩, τ, by simp [Winding, Action.winding, Cqe.more], hτ, ?_⟩
  cases move_of_step hτ with
  | @kernelPost _ r' e' hring' hfind _ =>
    cases hring.symm.trans hring'
    obtain rfl : e = e' := by simpa [hcons] using hfind
    refine State.remaining_lt_of_left ?_
    simp only [State.left, hring, Ring.left, hcons, Option.elim_some, List.erase_cons_head,
      List.length_append, List.length_cons, List.length_nil, Cqe.more, Nat.zero_testBit,
      Bool.false_eq_true, if_false]
    omega

/-- Nothing is left on its way once there is nothing to submit, to read or to stage, and the kernel
has nothing. -/
theorem idle_of_target (h : Awaited cfg σ) {r : Ring} (hring : σ.ring = some r)
    (hinflight : r.inflight = []) (hreaped : σ.reaped = []) (htarget : σ.target = 14) :
    σ.data.Idle ∧ σ.ownedQueue = [] := by
  have hL := Registry.Linked.of_reachable h.reachable
  have hP := Registry.Paired.of_reachable h.reachable
  have hS := DriverData.Sound.of_reachable h.reachable
  obtain ⟨hsq, hcq, hcancel, howned, hpending, hqueue⟩ : r.sq = [] ∧ r.cq = [] ∧
      σ.data.cancelQueue = [] ∧ σ.data.ownedCancelQueue = [] ∧ σ.data.ownedPending = [] ∧
      σ.ownedQueue = [] := by
    simp only [State.target, hring] at htarget
    split_ifs at htarget <;> first | exact absurd htarget (by decide) | simp_all
  have hstaged : σ.data.staged = [] := by
    have horder := hS.staged_order r hring
    rw [hsq] at horder
    exact List.map_eq_nil_iff.mp horder.symm
  -- A context is staged, with the kernel, or over and waiting for its cancellation.
  have hphase : ∀ k, σ.data.phase? k ≠ some .staged ∧ σ.data.phase? k ≠ some .submitted := by
    intro k
    refine ⟨fun hk => ?_, fun hk => ?_⟩
    · have hmem := (hS.staged_iff k).mpr hk
      rw [hstaged] at hmem
      cases hmem
    · rw [State.registry_slot, Option.map_eq_some_iff] at hk
      obtain ⟨⟨phase, kind⟩, hslot, rfl⟩ := hk
      have hmem := (hL.outstanding_iff k.pointer).mpr ⟨k, rfl, kind, hslot⟩
      simp [Registry.outstanding, State.registry, hring, hinflight, hreaped, hcq] at hmem
  have hterminal : ∀ k phase, σ.data.phase? k = some phase → phase = .terminal := by
    intro k phase hk
    cases phase with
    | staged => exact absurd hk (hphase k).1
    | submitted => exact absurd hk (hphase k).2
    | terminal => rfl
  have hcancels : ∀ p c, σ.data.contexts.lookup p = some c → c.kind ≠ .cancel := by
    intro p c hc hkind
    exact (hP.cancel p c hc hkind).2 (hterminal (.raw p) _ (by simp [DriverData.phase?, hc]))
  have hownedCancels : ∀ p, σ.data.ownedCancelContexts.lookup p = none := by
    intro p
    refine Option.eq_none_iff_forall_not_mem.mpr fun c hc => ?_
    exact hP.ownedCancel p c hc
      (hterminal (.ownedCancel p) _ (by simp [DriverData.phase?, Option.mem_def.mp hc]))
  have hcontexts : ∀ p, σ.data.contexts.lookup p = none := by
    intro p
    refine Option.eq_none_iff_forall_not_mem.mpr fun c hc => ?_
    have hc : σ.data.contexts.lookup p = some c := hc
    have hkind : c.kind = .original := by
      cases hk : c.kind with
      | original => rfl
      | cancel => exact absurd hk (hcancels p c hc)
    have hover : c.phase = .terminal := hterminal (.raw p) _ (by simp [DriverData.phase?, hc])
    rcases (hS.terminal p c hc hkind hover).2 with ⟨k, hk, -⟩ | ⟨q, e, he, hk, -⟩
    · rw [hcancel] at hk
      cases hk
    · exact hcancels q e he hk
  have hownedContexts : ∀ p, σ.data.ownedContexts.lookup p = none := by
    intro p
    refine Option.eq_none_iff_forall_not_mem.mpr fun c hc => ?_
    have hc : σ.data.ownedContexts.lookup p = some c := hc
    have hover : c.phase = .terminal := hterminal (.owned p) _ (by simp [DriverData.phase?, hc])
    rcases (hS.ownedTerminal p c hc hover).2 with ⟨k, hk, -⟩ | ⟨q, e, he, -⟩
    · rw [howned] at hk
      cases hk
    · rw [hownedCancels q] at he
      cases he
  exact ⟨⟨Finmap.ext_lookup fun p => hcontexts p, hstaged, hcancel,
    Finmap.ext_lookup fun p => hownedContexts p, Finmap.ext_lookup fun p => hownedCancels p,
    hpending, howned⟩, hqueue⟩

/-! ### The rest of a pass -/

/-- A sweep for an owned operation finds nothing either. -/
theorem ownedTargets_eq (h : Awaited cfg σ) (c : ControlId) : σ.ownedTargets c = ∅ := by
  refine Finset.eq_empty_of_forall_notMem fun p hp => ?_
  simp only [State.ownedTargets, Finset.mem_filter, Option.any_eq_true, ownedCancellable,
    Bool.and_eq_true, Bool.not_eq_true', bne_iff_ne] at hp
  obtain ⟨-, k, hk, ⟨-, hphase⟩, hqueued⟩ := hp
  obtain ⟨handler, hhandler⟩ := Option.isSome_iff_exists.mp
    ((Custody.Handled.of_reachable h.reachable p k hk).mpr hphase)
  have hholds : k.holds handler.control = true := by simp [OwnedCqeContext.holds, hhandler]
  rcases (Sweeping.of_reachable h.reachable).owned h.shutdown _ p k hk hholds with
    hswept | hlist | hcall
  · rw [hqueued] at hswept
    cases hswept
  · rw [h.owner] at hlist
    cases hlist
  · rw [h.call] at hcall
    cases hcall

/-- The driver comes to the end of the call it is in. -/
theorem exists_callStep (h : Awaited cfg σ) {rest : List SubId} {backlog : Bool}
    (hd : σ.driver = .overflow rest backlog) (hcall : σ.calls .driver ≠ none) :
    ∃ a τ, Winding σ a ∧ IoUring.step cfg a σ = .ok τ ∧ τ.remaining < σ.remaining := by
  have hcrit : σ.crit = none := h.crit_none (by simp [hd])
  have hgoes : ∃ a τ, a.ofCall .driver = true ∧ IoUring.step cfg a σ = .ok τ ∧
      Call.left (τ.calls .driver) < Call.left (σ.calls .driver) :=
    call_goes h.reachable hcrit hcall
  obtain ⟨a, τ, ha, hτ, hlt⟩ := hgoes
  refine ⟨a, τ, Action.winding_of_call (.inr rfl) ha, hτ, ?_⟩
  have hm := move_of_step hτ
  obtain ⟨-, hdriver, -, -⟩ := hm.of_call ha
  -- There is nothing left to cancel, so a sweep leaves the registry as it is.
  have hsame : τ.data = σ.data ∧ τ.ring = σ.ring ∧ τ.reaped = σ.reaped ∧
      τ.ownedQueue = σ.ownedQueue := by
    cases hm
    case sweep s _ order _ _ _ horder =>
      have hempty : order = [] := by
        rw [h.cancelTargets_eq, List.toFinset_eq_empty_iff] at horder
        exact horder
      subst hempty
      refine ⟨?_, rfl, rfl, rfl⟩
      change (cancelOriginals [] s σ.data σ.subs).1 = σ.data
      simp [cancelOriginals]
    case sweepOwned htarget =>
      rw [h.ownedTargets_eq] at htarget
      exact absurd htarget (Finset.notMem_empty _)
    case close | sweepOwnedNone | notify => exact ⟨rfl, rfl, rfl, rfl⟩
    all_goals cases ha
  obtain ⟨hdata, hring, hreaped, hqueue⟩ := hsame
  refine State.remaining_lt_of_again ?_ ?_ ?_
  · simp only [State.left, hdata, hring, hreaped, hqueue]
    exact le_rfl
  · simp only [State.distance, State.target, State.place, hd, hdriver, hdata, hring, hqueue]
  · simp only [State.again, hd, hdriver]
    omega

/-- The driver fails the operations that its pass discarded. -/
theorem exists_failStep {failed : List Failed} (hd : σ.driver = .fail failed) :
    ∃ a τ, Winding σ a ∧ IoUring.step cfg a σ = .ok τ ∧ τ.remaining < σ.remaining := by
  have htarget := σ.target_cases
  have hstep : ∃ τ, IoUring.step cfg .failOwned σ = .ok τ := by
    cases failed <;> simp only [IoUring.step, State.failOwned, hd] <;> exact ⟨_, rfl⟩
  obtain ⟨τ, hτ⟩ := hstep
  refine ⟨.failOwned, τ, rfl, hτ, ?_⟩
  cases move_of_step hτ with
  | failOwned hd' =>
    cases hd.symm.trans hd'
    refine State.remaining_lt_of_again le_rfl ?_ ?_
    · simp only [State.distance, State.place, hd]
      rfl
    · simp [State.again, hd]
  | failEnd hd' =>
    refine State.remaining_lt_of_place (by rw [hd]; rfl) rfl le_rfl rfl ?_
    simp only [State.place, hd]
    omega

/-- The driver reads CQEs. -/
theorem exists_reapStep (h : Awaited cfg σ) (hd : σ.driver = .reap) :
    ∃ a τ, Winding σ a ∧ IoUring.step cfg a σ = .ok τ ∧ τ.remaining < σ.remaining := by
  have htarget := σ.target_cases
  have hstopping := Stopping.of_reachable h.reachable
  have hcrit : σ.crit = none := h.crit_none (by simp [hd])
  have hreaped := hstopping.reaped_nil (by simp [hd]) (by simp [hd])
  obtain ⟨r, hring⟩ : ∃ r, σ.ring = some r := by
    rw [← Option.ne_none_iff_exists', ne_eq, hstopping.ring, hd]
    simp [DriverPc.ringless]
  have hstep : ∃ τ, IoUring.step cfg .reap σ = .ok τ := by
    simp only [IoUring.step, State.reap, bind_eq_ok, require_eq_ok, hring]
    exact ⟨_, (), ⟨hd, hcrit⟩, rfl⟩
  obtain ⟨τ, hτ⟩ := hstep
  refine ⟨.reap, τ, rfl, hτ, ?_⟩
  cases move_of_step hτ with
  | reap _ _ hring' =>
    cases hring.symm.trans hring'
    -- With nothing to read the driver goes on to the place where there is something.
    cases hcq : r.cq with
    | nil =>
      have hne : σ.target ≠ 11 := by
        simp only [State.target, hring]
        split_ifs <;> simp_all
      refine State.remaining_lt_of_place (by rw [hd]; rfl) rfl ?_ ?_ ?_
      · simp [State.left, hring, hcq, hreaped, Ring.left]
      · simp [State.target, hring, hcq]
      · simp only [State.place, hd]
        omega
    | cons cqe rest =>
      refine State.remaining_lt_of_left ?_
      have hsize := cfg.sizes_pos.2
      simp only [State.left, hring, hcq, hreaped, Ring.left, Option.elim_some, List.length_take,
        List.length_drop, List.length_cons, List.length_nil]
      omega

/-- The driver dispatches what it has read. -/
theorem exists_dispatchStep (h : Awaited cfg σ) {backlog : Bool} {overflow : List SubId}
    (hd : σ.driver = .dispatch backlog overflow) :
    ∃ a τ, Winding σ a ∧ IoUring.step cfg a σ = .ok τ ∧ τ.remaining < σ.remaining := by
  have htarget := σ.target_cases
  cases hreaped : σ.reaped with
  | nil =>
    have hstep : ∃ τ, IoUring.step cfg .dispatch σ = .ok τ := by
      simp only [IoUring.step, State.dispatch, hd, hreaped]
      exact ⟨_, rfl⟩
    obtain ⟨τ, hτ⟩ := hstep
    refine ⟨.dispatch, τ, rfl, hτ, ?_⟩
    cases move_of_step hτ with
    | dispatchEnd hd' =>
      refine State.remaining_lt_of_place (by rw [hd]; rfl) rfl le_rfl rfl ?_
      simp only [State.place, hd]
      omega
    | dispatch _ hreaped' => cases hreaped.symm.trans hreaped'
  -- Dispatching takes a CQE off what is left, and adds nothing.
  | cons cqe rest =>
    have hcrit : σ.crit = none := h.crit_none (by simp [hd])
    obtain ⟨y, hy⟩ := dispatch_of_reachable h.reachable hreaped
    have hstep : ∃ τ, IoUring.step cfg .dispatch σ = .ok τ := by
      simp only [IoUring.step, State.dispatch, hd, hreaped, bind_eq_ok, require_eq_ok,
        checked_eq_ok]
      exact ⟨_, (), hcrit, y, hy, rfl⟩
    obtain ⟨τ, hτ⟩ := hstep
    refine ⟨.dispatch, τ, rfl, hτ, ?_⟩
    cases move_of_step hτ with
    | dispatchEnd _ hreaped' => cases hreaped.symm.trans hreaped'
    | dispatch _ hreaped' _ hy' =>
      cases hreaped.symm.trans hreaped'
      obtain ⟨-, hcancel, hpending, howned, -⟩ := dispatch_queues hy'
      refine State.remaining_lt_of_left ?_
      simp [State.left, hcancel, hpending, howned, hreaped, State.wake]

/-- The driver publishes a result. -/
theorem exists_publishStep {c : ControlId} {backlog : Bool} {overflow : List SubId}
    (hd : σ.driver = .publish c backlog overflow) :
    ∃ a τ, Winding σ a ∧ IoUring.step cfg a σ = .ok τ ∧ τ.remaining < σ.remaining := by
  refine ⟨.publish, { σ.publishControl c with driver := .dispatch backlog overflow }, rfl, ?_, ?_⟩
  · simp only [IoUring.step, State.publish, hd]
  · refine State.remaining_lt_of_again le_rfl ?_ ?_
    · simp only [State.distance, State.place, hd]
      rfl
    · simp [State.again, hd]

/-- The driver cancels the submissions that overflowed. -/
theorem exists_overflowStep (h : Awaited cfg σ) {rest : List SubId} {backlog : Bool}
    (hd : σ.driver = .overflow rest backlog) :
    ∃ a τ, Winding σ a ∧ IoUring.step cfg a σ = .ok τ ∧ τ.remaining < σ.remaining := by
  have htarget := σ.target_cases
  -- Each submission takes a whole `request_cancel`.
  by_cases hcall : σ.calls .driver = none
  · have hstep : ∃ τ, IoUring.step cfg .cancelOverflow σ = .ok τ := by
      simp only [IoUring.step, State.cancelOverflow, bind_eq_ok, require_eq_ok, hd]
      cases rest <;> exact ⟨_, (), hcall, rfl⟩
    obtain ⟨τ, hτ⟩ := hstep
    refine ⟨.cancelOverflow, τ, rfl, hτ, ?_⟩
    cases move_of_step hτ with
    | cancelOverflow _ hd' =>
      cases hd.symm.trans hd'
      refine State.remaining_lt_of_again le_rfl ?_ ?_
      · simp only [State.distance, State.place, hd]
        rfl
      · simp only [State.again, hd, hcall, State.setCall, Function.update_self, Call.left,
          List.length_cons]
        omega
    | overflowEnd _ hd' =>
      refine State.remaining_lt_of_place (by rw [hd]; rfl) rfl le_rfl rfl ?_
      simp only [State.place, hd]
      omega
  · exact h.exists_callStep hd hcall

/-! ### Parking and the end -/

/-- The driver decides to stop when nothing is left, and otherwise goes round again. -/
theorem exists_decideStep (h : Awaited cfg σ) {backlog : Bool} (hd : σ.driver = .decide backlog)
    {r : Ring} (hring : σ.ring = some r) (hinflight : r.inflight = []) :
    ∃ a τ, Winding σ a ∧ IoUring.step cfg a σ = .ok τ ∧ τ.remaining < σ.remaining := by
  have hcrit : σ.crit = none := h.crit_none (by simp [hd])
  have hstep : ∃ τ, IoUring.step cfg .decide σ = .ok τ := by
    simp only [IoUring.step, State.decide, bind_eq_ok, require_eq_ok, hd]
    cases IoUring.decide σ.data backlog σ.ownedQueue.isEmpty <;> exact ⟨_, (), hcrit, rfl⟩
  obtain ⟨τ, hτ⟩ := hstep
  refine ⟨.decide, τ, rfl, hτ, ?_⟩
  cases move_of_step hτ with
  | decideStop =>
    refine State.remaining_lt_of_distance le_rfl ?_
    simp only [State.distance, hd]
    omega
  | decide _ hd' hne hdecide =>
    have htarget := σ.target_cases
    -- With nothing left it would have decided to stop.
    have hnot : σ.target ≠ 14 := by
      intro heq
      have hreaped := (Stopping.of_reachable h.reachable).reaped_nil (by simp [hd]) (by simp [hd])
      obtain ⟨hidle, hqueue⟩ := h.idle_of_target hring hinflight hreaped heq
      cases hd.symm.trans hd'
      exact hne (hdecide.symm.trans (decide_eq_stop.mpr ⟨h.shutdown, hidle, by simp [hqueue]⟩))
    refine State.remaining_lt_of_place (by rw [hd]; rfl) rfl le_rfl rfl ?_
    simp only [State.place, hd]
    omega

/-- The driver parks, or starts another pass. -/
theorem exists_parkStep {d : RunDecision} (hd : σ.driver = .park d) :
    ∃ a τ, Winding σ a ∧ IoUring.step cfg a σ = .ok τ ∧ τ.remaining < σ.remaining := by
  have htarget := σ.target_cases
  have hstep : ∃ τ, IoUring.step cfg .park σ = .ok τ := by
    simp only [IoUring.step, State.park, hd]
    split_ifs <;> exact ⟨_, rfl⟩
  obtain ⟨τ, hτ⟩ := hstep
  refine ⟨.park, τ, rfl, hτ, ?_⟩
  cases move_of_step hτ with
  | parkNotified | park =>
    refine State.remaining_lt_of_place (by rw [hd]; rfl) rfl le_rfl rfl ?_
    simp only [State.place, hd]
    omega

/-- The driver comes back from its park. -/
theorem exists_resumeStep (h : Awaited cfg σ) {d : RunDecision} (hd : σ.driver = .native d) :
    ∃ a τ, Winding σ a ∧ IoUring.step cfg a σ = .ok τ ∧ τ.remaining < σ.remaining := by
  have htarget := σ.target_cases
  have htoken : d = .pause → 0 < σ.tokens := by
    rintro rfl
    exact h.token hd
  have hstep : ∃ τ, IoUring.step cfg .resume σ = .ok τ := by
    simp only [IoUring.step, State.resume, hd, bind_eq_ok, require_eq_ok]
    exact ⟨_, (), htoken, rfl⟩
  obtain ⟨τ, hτ⟩ := hstep
  refine ⟨.resume, τ, rfl, hτ, ?_⟩
  cases move_of_step hτ with
  | resume =>
    refine State.remaining_lt_of_place (by rw [hd]; rfl) rfl le_rfl rfl ?_
    simp only [State.place, hd]
    omega

/-- The driver starts its next pass. -/
theorem exists_beginStep (h : Awaited cfg σ) (hd : σ.driver = .resumed ∨ σ.driver = .pass) :
    ∃ a τ, Winding σ a ∧ IoUring.step cfg a σ = .ok τ ∧ τ.remaining < σ.remaining := by
  have htarget := σ.target_cases
  rcases hd with hd | hd
  · refine ⟨.markRunning, { σ with gate := { σ.gate with phase := .running }, driver := .pass },
      rfl, ?_, ?_⟩
    · simp only [IoUring.step, State.markRunning, bind_eq_ok, require_eq_ok]
      exact ⟨(), hd, rfl⟩
    · refine State.remaining_lt_of_place (by rw [hd]; rfl) rfl le_rfl rfl ?_
      simp only [State.place, hd]
      omega
  · have hcrit : σ.crit = none := h.crit_none (by simp [hd])
    obtain ⟨r, hring⟩ : ∃ r, σ.ring = some r := by
      rw [← Option.ne_none_iff_exists', ne_eq, (Stopping.of_reachable h.reachable).ring, hd]
      simp [DriverPc.ringless]
    refine ⟨.passBegin, { σ with driver := .staging, crit := some (.pass [], .cancels) }, rfl,
      ?_, ?_⟩
    · simp only [IoUring.step, State.passBegin, bind_eq_ok, require_eq_ok, hring]
      exact ⟨(), ⟨hd, hcrit⟩, rfl⟩
    · refine State.remaining_lt_of_place (by rw [hd]; rfl) rfl le_rfl rfl ?_
      simp only [State.place, hd, Option.elim_some, Stage.place]
      omega

/-- A driver that has decided to stop does so. -/
theorem exists_endStep (h : Awaited cfg σ) (hd : σ.driver.stopping = true)
    (hne : σ.driver ≠ .completed) :
    ∃ a τ, Winding σ a ∧ IoUring.step cfg a σ = .ok τ ∧ τ.remaining < σ.remaining := by
  have hcrit : σ.crit = none := h.crit_none (by intro heq; rw [heq] at hd; cases hd)
  have hgated := Gated.of_reachable h.reachable
  -- Five steps in a row, none of which waits for anybody.
  cases hdriver : σ.driver with
  | takeRing =>
    refine ⟨.takeRing, { σ with ring := none, driver := .closeGate }, rfl, ?_, ?_⟩
    · simp only [IoUring.step, State.takeRing, bind_eq_ok, require_eq_ok]
      exact ⟨(), ⟨hdriver, hcrit⟩, rfl⟩
    · refine State.remaining_lt_of_distance ?_ (by simp [State.distance, hdriver])
      simp only [State.left, Option.elim_none]
      omega
  | closeGate =>
    refine ⟨.closeGate, { σ with gate := { σ.gate with phase := .terminal }, driver := .stopped },
      rfl, ?_, State.remaining_lt_of_distance le_rfl (by simp [State.distance, hdriver])⟩
    simp only [IoUring.step, State.closeGate, bind_eq_ok, require_eq_ok]
    exact ⟨(), hdriver, rfl⟩
  | stopped =>
    have hphase := hgated.terminal.mpr hdriver
    have hraw : σ.gate.raw = true := hgated.raw.mpr (by rw [hphase]; simp)
    have hstep : ∃ τ, IoUring.step cfg .retire σ = .ok τ := by
      simp only [IoUring.step, State.retire, bind_eq_ok, require_eq_ok, hphase, hraw]
      exact ⟨_, (), hdriver, rfl⟩
    obtain ⟨τ, hτ⟩ := hstep
    refine ⟨.retire, τ, rfl, hτ, ?_⟩
    cases move_of_step hτ with
    | retire =>
      exact State.remaining_lt_of_distance le_rfl (by simp [State.distance, hdriver])
  | retired =>
    refine ⟨.complete, { σ with completed := true, driver := .completed }, rfl, ?_,
      State.remaining_lt_of_distance le_rfl (by simp [State.distance, hdriver])⟩
    simp only [IoUring.step, State.complete, bind_eq_ok, require_eq_ok]
    exact ⟨(), hdriver, rfl⟩
  | completed => exact absurd hdriver hne
  | _ =>
    rw [hdriver] at hd
    cases hd

/-- Until its last step, the driver can come closer to it. -/
theorem exists_step (h : Awaited cfg σ) (hne : σ.driver ≠ .completed) :
    ∃ a τ, Winding σ a ∧ IoUring.step cfg a σ = .ok τ ∧ τ.remaining < σ.remaining := by
  by_cases hstopping : σ.driver.stopping = true
  · exact h.exists_endStep hstopping hne
  · obtain ⟨r, hring⟩ : ∃ r, σ.ring = some r := by
      rw [← Option.ne_none_iff_exists', ne_eq, (Stopping.of_reachable h.reachable).ring]
      cases hd : σ.driver <;> rw [hd] at hstopping <;>
        first | exact absurd rfl hstopping | simp [DriverPc.ringless]
    -- While the kernel has an SQE it can answer it.
    by_cases hinflight : r.inflight = []
    · cases hd : σ.driver with
      | pass => exact h.exists_beginStep (.inr hd)
      | staging => exact h.exists_stagingStep hd
      | fail => exact exists_failStep hd
      | reap => exact h.exists_reapStep hd
      | dispatch => exact h.exists_dispatchStep hd
      | publish => exact exists_publishStep hd
      | overflow => exact h.exists_overflowStep hd
      | decide => exact h.exists_decideStep hd hring hinflight
      | park => exact exists_parkStep hd
      | native => exact h.exists_resumeStep hd
      | resumed => exact h.exists_beginStep (.inl hd)
      | takeRing | closeGate | stopped | retired | completed =>
        rw [hd] at hstopping
        exact absurd rfl hstopping
    · exact exists_kernelStep hring hinflight

/-- The driver can be brought to its last step. -/
theorem exists_completed (h : Awaited cfg σ) :
    ∃ τ, Lts.Reaches (IoUring.step cfg) Winding σ τ ∧ Awaited cfg τ ∧ τ.driver = .completed := by
  have hprogress : ∀ τ, Awaited cfg τ → ¬τ.driver = .completed → ∃ a υ, Winding τ a ∧
      IoUring.step cfg a τ = .ok υ ∧ Awaited cfg υ ∧ υ.remaining < τ.remaining := by
    intro τ hτ hne
    obtain ⟨a, υ, ha, hstep, hlt⟩ := hτ.exists_step hne
    exact ⟨a, υ, ha, hstep, hτ.step ha hstep, hlt⟩
  exact Lts.exists_of_progress h hprogress

end Awaited

/-- The owner thread in `shutdown_and_wait` can always be brought back out of it: by its own steps,
those of the driver task and of whoever holds the mutex, and by the kernel finishing what it has.
Nobody else takes a step, whatever callers and operations were in the middle of. When the call
returns, the ring is closed, and nothing is left in the registry or on a queue. -/
theorem shutdown_finishes (h : Reachable cfg Lts.Always σ) (howner : σ.owner ≠ .idle) :
    ∃ τ υ, Lts.Reaches (step cfg) Winding σ τ ∧ step cfg .awaitCompleted τ = .ok υ ∧
      υ.ring = none ∧ υ.data.Idle ∧ υ.ownedQueue = [] := by
  obtain ⟨τ, hτ, hreach, hwaiting, hcall⟩ := exists_waiting h howner
  obtain ⟨υ, hυ, hA, hdriver⟩ := Awaited.exists_completed ⟨hreach, hwaiting, hcall⟩
  have hstopping := Stopping.of_reachable hA.reachable
  obtain ⟨-, hidle, hqueue, -⟩ := hstopping.idle (by rw [hdriver]; rfl)
  refine ⟨υ, { υ with owner := .idle }, hτ.trans hυ, ?_, ?_, hidle, hqueue⟩
  · simp only [step, State.awaitCompleted, bind_eq_ok, require_eq_ok]
    exact ⟨(), ⟨hA.owner, hA.call, Announcing.of_reachable hA.reachable hdriver⟩, rfl⟩
  · exact hstopping.ring.mpr (by rw [hdriver]; rfl)

/-- The owner thread shuts a ring down while the kernel has an operation. -/
def closedOperation : List Action := stagedOperation ++ [.beginShutdown, .shutdownAndWait]

/-- The shutdown of a ring comes to its end while the kernel has an operation. -/
theorem shutdown_finishes_operation :
    ∃ σ τ υ, Reachable .tiny Lts.Always σ ∧ σ.ring.any (!·.inflight.isEmpty) = true ∧
      Lts.Reaches (step .tiny) Winding σ τ ∧ step .tiny .awaitCompleted τ = .ok υ := by
  have hrun : (Lts.exec (step .tiny) Lts.Always closedOperation (.init .tiny)).any
      (fun σ => σ.owner ≠ .idle ∧ σ.ring.any (!·.inflight.isEmpty) = true) = true := by decide
  obtain ⟨σ, hσ, howner, hring⟩ := Lts.exists_of_exec hrun
  obtain ⟨τ, υ, hτ, hυ, -⟩ := shutdown_finishes hσ howner
  exact ⟨σ, τ, υ, hσ, hring, hτ, hυ⟩

end Nosv.IoUring
