import Nosv.IoUring.Moves

/-!
# Parking and stopping

Invariants of the driver task's control flow: which park phase the gate shows at which point of
`run`, that the `data` mutex is held across steps by a pass exactly while the driver is staging,
and that once `Stop` was decided nothing can give the driver work again.

* `Staging.of_reachable`: who holds the mutex;
* `Gated.of_reachable` and `Gated.notify_ok`: the gate fits the driver, and `notify` finds the
  descriptor;
* `Stopping.of_reachable`: a driver that stops has nothing left;
* `decide_eq_stop`: when `decide` says `Stop`.
-/

namespace Nosv.IoUring

variable {cfg : PreparedRing} {ok : State → Action → Prop} {σ τ : State} {a : Action}

/-! ## The pass that holds the mutex -/

/-- A pass holds the `data` mutex across steps exactly while the driver is staging. -/
def Staging (σ : State) : Prop :=
  σ.driver = .staging ↔ ∃ failed stage, σ.crit = some (.pass failed, stage)

/-- A step that leaves the driver task and the mutex alone. -/
theorem Staging.frame (h : Staging σ) (hd : τ.driver = σ.driver) (hc : τ.crit = σ.crit) :
    Staging τ := by
  unfold Staging
  rw [hd, hc]
  exact h

/-- A step of the driver task outside the critical section. -/
theorem Staging.outside (h : Staging σ) (hσ : σ.driver ≠ .staging) (hτ : τ.driver ≠ .staging)
    (hc : τ.crit = σ.crit) : Staging τ := by
  have hnone : ¬ ∃ failed stage, σ.crit = some (.pass failed, stage) := fun hp => hσ (h.mpr hp)
  unfold Staging
  rw [hc]
  simp only [hτ, hnone]

/-- A step of the thread in the critical section, which stays in it. -/
theorem Staging.inside {holder holder' : Holder} {stage stage' : Stage} (h : Staging σ)
    (hd : τ.driver = σ.driver) (hc : σ.crit = some (holder, stage))
    (hc' : τ.crit = some (holder', stage'))
    (hh : (∃ f, holder = .pass f) ↔ ∃ f, holder' = .pass f) : Staging τ := by
  unfold Staging at h ⊢
  rw [hd, h, hc, hc']
  constructor
  · rintro ⟨f, st, hf⟩
    obtain ⟨f', hf'⟩ := hh.mp ⟨f, by cases hf; rfl⟩
    exact ⟨f', stage', by rw [hf']⟩
  · rintro ⟨f, st, hf⟩
    obtain ⟨f', hf'⟩ := hh.mpr ⟨f, by cases hf; rfl⟩
    exact ⟨f', stage, by rw [hf']⟩

/-- A submitter takes or releases the mutex. -/
theorem Staging.submitter (h : Staging σ) (hd : τ.driver = σ.driver)
    (hc : ∀ f st, σ.crit ≠ some (.pass f, st)) (hc' : ∀ f st, τ.crit ≠ some (.pass f, st)) :
    Staging τ := by
  have hne : σ.driver ≠ .staging := by
    intro hs
    obtain ⟨f, st, hf⟩ := h.mp hs
    exact hc f st hf
  unfold Staging
  rw [hd]
  constructor
  · intro hs
    exact absurd hs hne
  · rintro ⟨f, st, hf⟩
    exact absurd hf (hc' f st)

/-- Every move keeps the mutex with the staging driver. -/
theorem Staging.move (h : Staging σ) (hm : Move cfg σ a τ) : Staging τ := by
  cases hm
  case pollAdmit hcrit _ _ _ | iteratorPanic hcrit _ _ | admitEnd hcrit =>
    exact h.submitter rfl (by simp [hcrit]) (by simp)
  case stageCancellation hcrit _ _ _ | stageOwnedCancellation hcrit _ _ _ | ownedBudget hcrit
    | iteratorNone hcrit _ _ | originalFull hcrit _ _ _ _ | submitAccepted hcrit _ _ _
    | submitRetry hcrit _ | passEnd hcrit | accept hcrit _ _ | wakeAdmission hcrit _
    | admissionDead hcrit _ =>
    exact h.inside rfl hcrit rfl .rfl
  case stageOwned hcrit _ _ _ => exact h.inside rfl hcrit rfl (by simp)
  case originalStaged hcrit _ _ _ _ _ => exact h.inside rfl hcrit rfl (by simp)
  case admissionsEnd => simp [Staging]
  case passBegin => simp [Staging]
  case failOwned hd | failEnd hd | reap hd _ _ | dispatchEnd hd _ | publish hd
    | cancelOverflow hd | overflowEnd hd | decideStop hd _ | decide hd _ _ | parkNotified hd _
    | park hd _ | resume hd _ | markRunning hd | takeRing hd _ | closeGate hd | retire hd _ _
    | complete hd =>
    exact h.outside (by simp [hd]) (by simp) rfl
  case dispatch y hd _ _ _ =>
    refine h.outside (by simp [hd]) ?_ rfl
    cases hh : y.handler <;> simp
  all_goals exact h.frame rfl rfl

/-- The mutex is with the staging driver in every reachable state. -/
theorem Staging.of_reachable (h : Reachable cfg ok σ) : Staging σ :=
  h.inv (by simp [Staging, State.init]) fun hI _ hm => hI.move hm

/-! ## The gate -/

/-- The park phase seen through the gate fits the point the driver task is at. -/
structure Gated (σ : State) : Prop where
  /-- The gate gives its descriptor up when it is destroyed. -/
  raw : σ.gate.raw = true ↔ σ.gate.phase ≠ .destroyed
  /-- Only a driver inside a native park can need a wake. -/
  parked : σ.gate.phase = .paused ∨ σ.gate.phase = .deadlineWait ∨ σ.gate.phase = .wakePending →
    σ.driver = .resumed ∨ ∃ d, σ.driver = .native d
  /-- `run` returned and the completion callback has not run. -/
  terminal : σ.gate.phase = .terminal ↔ σ.driver = .stopped
  /-- The completion callback destroyed the descriptor. -/
  destroyed : σ.gate.phase = .destroyed ↔ σ.driver = .retired ∨ σ.driver = .completed

/-- What `notify` does to a gate that still has its descriptor. -/
theorem notify_cases {g : DriverGate} {y : DriverGate × List NativeCall}
    (h : IoUring.notify g = .ok y) :
    y = ({ g with notified := true }, []) ∨
      (g.raw = true ∧ g.phase = .paused ∧
        y = ({ g with notified := true, phase := .wakePending }, [.submit])) ∨
      (g.raw = true ∧ g.phase = .deadlineWait ∧
        y = ({ g with notified := true, phase := .wakePending }, [.submitDeadlineWake])) := by
  unfold IoUring.notify at h
  cases hp : g.phase <;> simp only [hp] at h
  case paused =>
    split at h
    next hraw => exact .inr (.inl ⟨hraw, rfl, (Except.ok.inj h).symm⟩)
    next => cases h
  case deadlineWait =>
    split at h
    next hraw => exact .inr (.inr ⟨hraw, rfl, (Except.ok.inj h).symm⟩)
    next => cases h
  all_goals exact .inl (Except.ok.inj h).symm

/-- A step that leaves the gate and the driver task alone. -/
theorem Gated.frame (h : Gated σ) (hg : τ.gate = σ.gate) (hd : τ.driver = σ.driver) :
    Gated τ := by
  obtain ⟨h1, h2, h3, h4⟩ := h
  constructor <;> rw [hg] <;> try rw [hd]
  exacts [h1, h2, h3, h4]

/-- A step of a driver that is not parked, to another such point. -/
theorem Gated.advance (h : Gated σ) (hg : τ.gate = σ.gate)
    (hσ : σ.driver ≠ .resumed ∧ (∀ d, σ.driver ≠ .native d) ∧ σ.driver ≠ .stopped ∧
      σ.driver ≠ .retired ∧ σ.driver ≠ .completed)
    (hτ : τ.driver ≠ .stopped ∧ τ.driver ≠ .retired ∧ τ.driver ≠ .completed) : Gated τ := by
  obtain ⟨h1, h2, h3, h4⟩ := h
  obtain ⟨k1, k2, k3, k4, k5⟩ := hσ
  obtain ⟨l1, l2, l3⟩ := hτ
  refine ⟨by rw [hg]; exact h1, ?_, ?_, ?_⟩ <;> rw [hg]
  · intro hp
    rcases h2 hp with h | ⟨d, h⟩
    · exact absurd h k1
    · exact absurd h (k2 d)
  · simp [h3, k3, l1]
  · simp [h4, k4, k5, l2, l3]

/-- Every move keeps the gate fitted to the driver. -/
theorem Gated.move (h : Gated σ) (hs : Staging σ) (hm : Move cfg σ a τ) : Gated τ := by
  cases hm
  case notify c y hcall hnotify =>
    obtain ⟨h1, h2, h3, h4⟩ := h
    rcases notify_cases hnotify with rfl | ⟨hraw, hp, rfl⟩ | ⟨hraw, hp, rfl⟩
    · exact ⟨h1, h2, h3, h4⟩
    all_goals
      have hd := h2 (by simp [hp])
      rw [hp] at h3 h4
      refine ⟨by simpa [State.setCall] using hraw, fun _ => hd, ?_, ?_⟩ <;>
        simp_all [State.setCall]
  case admissionsEnd hcrit =>
    exact h.advance rfl (by simp [hs.mpr ⟨_, _, hcrit⟩]) (by simp)
  case passBegin hd _ _ | failOwned hd | failEnd hd | reap hd _ _ | dispatchEnd hd _
    | publish hd | cancelOverflow hd | overflowEnd hd | decideStop hd _ | decide hd _ _
    | takeRing hd _ =>
    exact h.advance rfl (by simp [hd]) (by simp)
  case dispatch y hd _ _ _ =>
    refine h.advance rfl (by simp [hd]) ?_
    cases hh : y.handler <;> simp
  -- The steps of the driver that move its gate.
  case parkNotified hd _ | markRunning hd | closeGate hd =>
    obtain ⟨h1, h2, h3, h4⟩ := h
    rw [hd] at h2 h3 h4
    constructor <;> simp_all
  case park d hd _ =>
    obtain ⟨h1, h2, h3, h4⟩ := h
    rw [hd] at h2 h3 h4
    have hphase : σ.gate.phase ≠ .destroyed := by simp [h4]
    refine ⟨by cases d <;> simp [State.parkPhase, h1, hphase], fun _ => .inr ⟨d, rfl⟩, ?_, ?_⟩ <;>
      cases d <;> simp [State.parkPhase]
  case resume hd _ =>
    obtain ⟨h1, h2, h3, h4⟩ := h
    rw [hd] at h2 h3 h4
    exact ⟨h1, fun _ => .inl rfl, by simp [h3], by simp [h4]⟩
  case retire =>
    constructor <;> simp
  case complete hd =>
    obtain ⟨h1, h2, h3, h4⟩ := h
    rw [hd] at h2 h3 h4
    have hphase : σ.gate.phase = .destroyed := by simp [h4]
    constructor <;> simp_all
  all_goals exact h.frame rfl rfl

/-- The gate is fitted to the driver in every reachable state. -/
theorem Gated.of_reachable (h : Reachable cfg ok σ) : Gated σ :=
  h.inv_of Staging.of_reachable (by constructor <;> simp [State.init])
    fun hs _ hI _ hm => hI.move hs hm

/-- `notify` finds the descriptor whenever it needs it. -/
theorem Gated.notify_ok (h : Gated σ) : ∃ y, IoUring.notify σ.gate = .ok y := by
  have hraw : σ.gate.phase ≠ .destroyed → σ.gate.raw = true := h.raw.mpr
  unfold IoUring.notify
  cases hp : σ.gate.phase <;> simp_all

/-! ## Stopping -/

/-- No context, no queued command and no pending operation is left. -/
structure DriverData.Idle (d : DriverData) : Prop where
  contexts : d.contexts = ∅
  staged : d.staged = []
  cancelQueue : d.cancelQueue = []
  ownedContexts : d.ownedContexts = ∅
  ownedCancelContexts : d.ownedCancelContexts = ∅
  ownedPending : d.ownedPending = []
  ownedCancelQueue : d.ownedCancelQueue = []

/-- `decide` stops exactly a driver that was told to shut down and has nothing left. -/
theorem decide_eq_stop {d : DriverData} {backlog empty : Bool} :
    IoUring.decide d backlog empty = .stop ↔ d.shutdown = true ∧ d.Idle ∧ empty = true := by
  have hidle : d.Idle ↔ d.contexts = ∅ ∧ d.staged = [] ∧ d.cancelQueue = [] ∧
      d.ownedContexts = ∅ ∧ d.ownedCancelContexts = ∅ ∧ d.ownedPending = [] ∧
      d.ownedCancelQueue = [] :=
    ⟨fun h => ⟨h.1, h.2, h.3, h.4, h.5, h.6, h.7⟩,
      fun ⟨h1, h2, h3, h4, h5, h6, h7⟩ => ⟨h1, h2, h3, h4, h5, h6, h7⟩⟩
  rw [hidle]
  unfold IoUring.decide
  dsimp only
  constructor
  · intro h
    split_ifs at h with h1
    simp only [ne_eq, decide_not, Bool.and_eq_true, Bool.not_eq_true', Bool.or_eq_false_iff,
      Bool.not_eq_false', decide_eq_true_eq, List.isEmpty_iff] at h1
    tauto
  · rintro ⟨hs, ⟨h1, h2, h3, h4, h5, h6, h7⟩, rfl⟩
    simp [hs, h1, h2, h3, h4, h5, h6, h7]

/-- The driver decided to stop. -/
def DriverPc.stopping : DriverPc → Bool
  | .takeRing | .closeGate | .stopped | .retired | .completed => true
  | _ => false

/-- The driver dropped the ring. -/
def DriverPc.ringless : DriverPc → Bool
  | .closeGate | .stopped | .retired | .completed => true
  | _ => false

/-- How shutdown, once raised, leads to a driver that has stopped for good. -/
structure Stopping (σ : State) : Prop where
  /-- Admission of raw entries closes with the shutdown flag. -/
  accepting : σ.data.accepting = !σ.data.shutdown
  /-- Owned admission is closed before the flag is raised. -/
  raising : σ.owner = .raiseShutdown → σ.ownedAdmission = false
  /-- Owned admission stays closed. -/
  admission : σ.data.shutdown = true → σ.ownedAdmission = false
  /-- A driver that decided to stop has nothing to do, and nobody is staging. -/
  idle : σ.driver.stopping = true →
    σ.data.shutdown = true ∧ σ.data.Idle ∧ σ.ownedQueue = [] ∧ σ.crit = none
  /-- The ring is there until a stopping driver drops it. -/
  ring : σ.ring = none ↔ σ.driver.ringless = true
  /-- CQEs that were read are dispatched in the same pass. -/
  reaped : σ.reaped ≠ [] →
    (∃ b xs, σ.driver = .dispatch b xs) ∨ ∃ c b xs, σ.driver = .publish c b xs

/-- A step outside the driver task that leaves what `Stopping` speaks of alone. -/
theorem Stopping.frame (h : Stopping σ) (hd : τ.data = σ.data) (ho : τ.owner = σ.owner)
    (ha : τ.ownedAdmission = σ.ownedAdmission) (hq : τ.ownedQueue = σ.ownedQueue)
    (hc : τ.crit = σ.crit) (hr : τ.ring = σ.ring) (hx : τ.reaped = σ.reaped)
    (hp : τ.driver = σ.driver) : Stopping τ := by
  obtain ⟨h1, h2, h3, h4, h5, h6⟩ := h
  constructor
  · rw [hd]; exact h1
  · rw [ho, ha]; exact h2
  · rw [hd, ha]; exact h3
  · rw [hd, hq, hc, hp]; exact h4
  · rw [hr, hp]; exact h5
  · rw [hx, hp]; exact h6

/-- A step of the holder of the mutex, which never runs beside a stopping driver. -/
theorem Stopping.inside (h : Stopping σ) (hc : σ.crit ≠ none)
    (ha : τ.data.accepting = σ.data.accepting) (hs : τ.data.shutdown = σ.data.shutdown)
    (ho : τ.owner = σ.owner) (hadm : τ.ownedAdmission = σ.ownedAdmission)
    (hr : τ.ring = none ↔ σ.ring = none) (hx : τ.reaped = σ.reaped)
    (hp : τ.driver = σ.driver) : Stopping τ := by
  obtain ⟨h1, h2, h3, h4, h5, h6⟩ := h
  constructor
  · rw [ha, hs]; exact h1
  · rw [ho, hadm]; exact h2
  · rw [hs, hadm]; exact h3
  · intro hstop
    rw [hp] at hstop
    exact absurd (h4 hstop).2.2.2 hc
  · rw [hr, hp]; exact h5
  · rw [hx, hp]; exact h6

/-- A step of the driver task between two points before it stops. -/
theorem Stopping.advance (h : Stopping σ) (ha : τ.data.accepting = σ.data.accepting)
    (hs : τ.data.shutdown = σ.data.shutdown) (ho : τ.owner = σ.owner)
    (hadm : τ.ownedAdmission = σ.ownedAdmission) (hr : τ.ring = none ↔ σ.ring = none)
    (hσ : σ.driver.stopping = false) (hτ : τ.driver.stopping = false)
    (hx : τ.reaped ≠ [] →
      (∃ b xs, τ.driver = .dispatch b xs) ∨ ∃ c b xs, τ.driver = .publish c b xs) :
    Stopping τ := by
  have hless : ∀ d : DriverPc, d.stopping = false → d.ringless = false := by
    intro d; cases d <;> simp [DriverPc.stopping, DriverPc.ringless]
  obtain ⟨h1, h2, h3, h4, h5, h6⟩ := h
  constructor
  · rw [ha, hs]; exact h1
  · rw [ho, hadm]; exact h2
  · rw [hs, hadm]; exact h3
  · intro hstop
    rw [hτ] at hstop
    cases hstop
  · rw [hr, h5, hless _ hσ, hless _ hτ]
  · exact hx

/-- A driver that is not reading the CQ has nothing read. -/
theorem Stopping.reaped_nil (h : Stopping σ) (hd : ∀ b xs, σ.driver ≠ .dispatch b xs)
    (hp : ∀ c b xs, σ.driver ≠ .publish c b xs) : σ.reaped = [] := by
  by_contra hne
  rcases h.reaped hne with ⟨b, xs, hx⟩ | ⟨c, b, xs, hx⟩
  · exact hd b xs hx
  · exact hp c b xs hx

/-- A step of the driver task, which is not dispatching, between two points before it stops. -/
theorem Stopping.walk (h : Stopping σ) (ha : τ.data.accepting = σ.data.accepting)
    (hs : τ.data.shutdown = σ.data.shutdown) (ho : τ.owner = σ.owner)
    (hadm : τ.ownedAdmission = σ.ownedAdmission) (hr : τ.ring = none ↔ σ.ring = none)
    (hx : τ.reaped = σ.reaped)
    (hσ : σ.driver.stopping = false ∧ (∀ b xs, σ.driver ≠ .dispatch b xs) ∧
      ∀ c b xs, σ.driver ≠ .publish c b xs)
    (hτ : τ.driver.stopping = false) : Stopping τ := by
  refine h.advance ha hs ho hadm hr hσ.1 hτ ?_
  rw [hx, h.reaped_nil hσ.2.1 hσ.2.2]
  exact fun hne => absurd rfl hne

/-- A sweep of a stopping driver's registry finds nothing. -/
theorem cancelOriginals_of_idle {d : DriverData} {subs : Submissions} {order : List Pointer}
    {s : SubId} (hd : d.Idle) (ho : order.toFinset = cancelTargets d s) :
    (cancelOriginals order s d subs).1 = d := by
  have hempty : order = [] := by
    rw [List.eq_nil_iff_forall_not_mem]
    intro p hp
    rw [← List.mem_toFinset, ho, mem_cancelTargets, hd.contexts] at hp
    obtain ⟨c, hc, -⟩ := hp
    simp at hc
  subst hempty
  simp [cancelOriginals]

/-- Every move keeps the shutdown discipline. -/
theorem Stopping.move (h : Stopping σ) (hst : Staging σ) (hm : Move cfg σ a τ) : Stopping τ := by
  cases hm
  case kernelPost hring _ _ =>
    obtain ⟨h1, h2, h3, h4, h5, h6⟩ := h
    exact ⟨h1, h2, h3, h4, by simpa [hring] using h5, h6⟩
  case registerSubmission =>
    obtain ⟨h1, h2, h3, h4, h5, h6⟩ := h
    refine ⟨h1, h2, h3, fun hs => ?_, h5, h6⟩
    -- Raising the flags again leaves an idle registry idle.
    obtain ⟨k1, ⟨i1, i2, i3, i4, i5, i6, i7⟩, k3, k4⟩ := h4 hs
    exact ⟨k1, ⟨i1, i2, i3, i4, i5, i6, i7⟩, k3, k4⟩
  case pollAdmit hcrit hacc _ _ =>
    obtain ⟨h1, h2, h3, h4, h5, h6⟩ := h
    refine ⟨h1, h2, h3, fun hs => ?_, h5, h6⟩
    -- A driver that stops has seen the flag, and then nothing is admitted.
    rw [(h4 hs).1, hacc] at h1
    cases h1
  case sweep s d order hcall hcrit hnd ho =>
    obtain ⟨h1, h2, h3, h4, h5, h6⟩ := h
    refine ⟨h1, h2, h3, fun hs => ?_, h5, h6⟩
    obtain ⟨k1, k2, k3, k4⟩ := h4 hs
    refine ⟨k1, ?_, k3, k4⟩
    show DriverData.Idle (cancelOriginals order s σ.data σ.subs).1
    -- A late request finds no context and queues nothing.
    rw [cancelOriginals_of_idle k2 ho]
    exact k2
  case sweepOwned c p hcall hcrit ht =>
    obtain ⟨h1, h2, h3, h4, h5, h6⟩ := h
    refine ⟨h1, h2, h3, fun hs => ?_, h5, h6⟩
    have hempty := (h4 hs).2.1.ownedContexts
    simp [State.ownedTargets, hempty] at ht
  case stageCancellation hcrit hring _ hy =>
    rcases stageCancellation_cases hy with rfl | ⟨_, _, _, _, rfl⟩ <;>
      exact h.inside (by simp [hcrit]) rfl rfl rfl rfl (by simp [hring]) rfl rfl
  case stageOwnedCancellation hcrit hring _ hy =>
    rcases stageOwnedCancellation_cases hy with rfl | ⟨_, _, _, _, rfl⟩ <;>
      exact h.inside (by simp [hcrit]) rfl rfl rfl rfl (by simp [hring]) rfl rfl
  case ownedBudget hcrit | iteratorNone hcrit _ _ | iteratorPanic hcrit _ _
    | submitAccepted hcrit _ _ _ | submitRetry hcrit _ | admitEnd hcrit | passEnd hcrit
    | wakeAdmission hcrit _ | admissionDead hcrit _ =>
    exact h.inside (by simp [hcrit]) rfl rfl rfl rfl .rfl rfl rfl
  case stageOwned hcrit hring _ hy =>
    have hflags := stageOwned_flags hy
    exact h.inside (by simp [hcrit]) hflags.1 hflags.2 rfl rfl (by simp [hring]) rfl rfl
  case originalFull hcrit _ _ _ _ =>
    exact h.inside (by simp [hcrit]) rfl rfl rfl rfl .rfl rfl rfl
  case originalStaged hcrit _ _ hring _ hy =>
    obtain ⟨-, rfl⟩ := stageOriginal_staged hy
    exact h.inside (by simp [hcrit]) rfl rfl rfl rfl (by simp [hring]) rfl rfl
  case accept hcrit hring hy =>
    rcases acceptStaged_cases hy with ⟨_, _, _, _, _, _, rfl⟩ | ⟨_, _, _, _, _, _, rfl⟩ |
      ⟨_, _, _, _, _, _, rfl⟩ <;>
      exact h.inside (by simp [hcrit]) rfl rfl rfl rfl (by simp [hring]) rfl rfl
  case enqueue hadm =>
    obtain ⟨h1, h2, h3, h4, h5, h6⟩ := h
    refine ⟨h1, h2, h3, fun hs => ?_, h5, h6⟩
    -- Owned admission was closed before the flag was raised.
    rw [h3 (h4 hs).1] at hadm
    cases hadm
  case admissionsEnd hcrit =>
    have hd := hst.mpr ⟨_, _, hcrit⟩
    exact h.walk rfl rfl rfl rfl .rfl rfl (by simp [hd, DriverPc.stopping]) rfl
  case passBegin hd _ _ | failOwned hd | failEnd hd | cancelOverflow hd | overflowEnd hd
    | decide d _ hd _ _ | parkNotified hd _ | park hd _ | resume hd _ | markRunning hd =>
    exact h.walk rfl rfl rfl rfl .rfl rfl (by simp [hd, DriverPc.stopping]) rfl
  case reap hd _ hring =>
    exact h.advance rfl rfl rfl rfl (by simp [hring]) (by simp [hd, DriverPc.stopping]) rfl
      fun _ => .inl ⟨_, _, rfl⟩
  case dispatchEnd hd hr =>
    exact h.advance rfl rfl rfl rfl .rfl (by simp [hd, DriverPc.stopping]) rfl
      fun hne => absurd hr hne
  case dispatch y hd hr _ hy =>
    have hflags := dispatch_flags hy
    refine h.advance hflags.1 hflags.2 rfl rfl .rfl (by simp [hd, DriverPc.stopping]) ?_ fun _ => ?_
      <;> cases y.handler
    · rfl
    · rfl
    · exact .inl ⟨_, _, rfl⟩
    · exact .inr ⟨_, _, _, rfl⟩
  case publish hd =>
    exact h.advance rfl rfl rfl rfl .rfl (by simp [hd, DriverPc.stopping]) rfl
      fun _ => .inl ⟨_, _, rfl⟩
  case decideStop hcrit hd hstop =>
    -- The decision itself says that nothing is left.
    obtain ⟨k1, k2, k3⟩ := decide_eq_stop.mp hstop
    have hr := h.reaped_nil (by simp [hd]) (by simp [hd])
    obtain ⟨h1, h2, h3, h4, h5, h6⟩ := h
    rw [hd] at h5
    exact ⟨h1, h2, h3, fun _ => ⟨k1, k2, by simpa using k3, hcrit⟩, h5, fun hne => absurd hr hne⟩
  case takeRing hd _ =>
    have hr := h.reaped_nil (by simp [hd]) (by simp [hd])
    obtain ⟨h1, h2, h3, h4, h5, h6⟩ := h
    exact ⟨h1, h2, h3, fun _ => h4 (by rw [hd]; rfl), by simp [DriverPc.ringless],
      fun hne => absurd hr hne⟩
  case closeGate hd | retire hd _ _ | complete hd =>
    have hr := h.reaped_nil (by simp [hd]) (by simp [hd])
    obtain ⟨h1, h2, h3, h4, h5, h6⟩ := h
    rw [hd] at h5
    exact ⟨h1, h2, h3, fun _ => h4 (by rw [hd]; rfl), h5, fun hne => absurd hr hne⟩
  case shutdownAndWait | cancelSubmission | submissionsEnd | cancelSnapshot | snapshotEnd
    | awaitCompleted =>
    obtain ⟨h1, h2, h3, h4, h5, h6⟩ := h
    exact ⟨h1, by simp, h3, h4, h5, h6⟩
  case closeAdmission =>
    obtain ⟨h1, h2, h3, h4, h5, h6⟩ := h
    exact ⟨h1, fun _ => rfl, fun _ => rfl, h4, h5, h6⟩
  case raiseShutdown howner _ _ _ =>
    obtain ⟨h1, h2, h3, h4, h5, h6⟩ := h
    refine ⟨rfl, by simp, fun _ => h2 howner, fun hs => ?_, h5, h6⟩
    obtain ⟨k1, ⟨i1, i2, i3, i4, i5, i6, i7⟩, k3, k4⟩ := h4 hs
    exact ⟨rfl, ⟨i1, i2, i3, i4, i5, i6, i7⟩, k3, k4⟩
  all_goals exact h.frame rfl rfl rfl rfl rfl rfl rfl rfl

/-- The shutdown discipline holds in every reachable state. -/
theorem Stopping.of_reachable (h : Reachable cfg ok σ) : Stopping σ :=
  h.inv_of Staging.of_reachable
    (by constructor <;> simp [State.init, DriverData.new, DriverPc.stopping, DriverPc.ringless])
    fun hs _ hI _ hm => hI.move hs hm

end Nosv.IoUring
