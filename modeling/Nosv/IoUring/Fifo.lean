import Nosv.IoUring.Moves

/-!
# Owned operations in FIFO order

A record waits in the producer queue or, when a full SQ sent it back, in `owned_pending`; the two
together are the backlog. `enqueue` puts a record at its end and `stage_owned` takes one from its
front, whatever becomes of it then. So what was taken, followed by the backlog, is what was
enqueued.

`backlog_run` is that equation, and `owned_fifo` what it says about `stage_owned`.
-/

namespace Nosv.IoUring

/-! ## The two ends of the backlog -/

/-- A record that enters the backlog, or leaves it for good. -/
inductive Passage where
  | enqueued (op : QueuedOwnedOp)
  /-- Pushed to the SQ, or failed. -/
  | taken (op : QueuedOwnedOp)
  deriving DecidableEq, Repr

/-- The record that entered. -/
def Passage.enqueued? : Passage → Option QueuedOwnedOp
  | .enqueued op => some op
  | .taken _ => none

/-- The record that left. -/
def Passage.taken? : Passage → Option QueuedOwnedOp
  | .enqueued _ => none
  | .taken op => some op

/-- The record that an iteration of `stage_owned` takes for good: the loop goes on after it pushed
or failed a record, and stops when there was none or the SQ was full. -/
def takenOwned (supported : ℕ → Bool) (cancelled : ControlId → Bool) (p : Pointer)
    (x : OwnedStaging) : List Passage :=
  match popOwned x, stageOwned supported cancelled p x with
  | some (op, _), .ok (true, _) => [.taken op]
  | _, _ => []

namespace State

/-- The records that a step lets into the backlog or takes from it. -/
def passages (cfg : PreparedRing) : Action → State → List Passage
  | .enqueue opcode, σ =>
    if σ.ownedAdmission then [.enqueued ⟨σ.nextControl, ⟨σ.nextControl, opcode⟩⟩] else []
  | .stageOwned p, σ =>
    match σ.crit, σ.ring with
    | some (.pass failed, .owned (_ + 1)), some r =>
      takenOwned cfg.supported (fun c => (σ.controls c).cancelled) p
        ⟨σ.data, σ.ownedQueue, r, failed⟩
    | _, _ => []
  | _, _ => []

/-- The records that wait to be staged, the next one first. -/
def backlog (σ : State) : List QueuedOwnedOp := σ.data.ownedPending ++ σ.ownedQueue

end State

/-- What entered in a run. -/
def enqueuedOf (os : List Passage) : List QueuedOwnedOp := os.filterMap Passage.enqueued?

/-- What left in a run. -/
def takenOf (os : List Passage) : List QueuedOwnedOp := os.filterMap Passage.taken?

section Lists

variable (os os' : List Passage) (op : QueuedOwnedOp)

@[simp]
theorem enqueuedOf_append : enqueuedOf (os ++ os') = enqueuedOf os ++ enqueuedOf os' :=
  List.filterMap_append

@[simp]
theorem takenOf_append : takenOf (os ++ os') = takenOf os ++ takenOf os' :=
  List.filterMap_append

@[simp]
theorem enqueuedOf_taken : enqueuedOf [.taken op] = [] := rfl

@[simp]
theorem takenOf_taken : takenOf [.taken op] = [op] := rfl

@[simp]
theorem enqueuedOf_enqueued : enqueuedOf [.enqueued op] = [op] := rfl

@[simp]
theorem takenOf_enqueued : takenOf [.enqueued op] = [] := rfl

end Lists

/-! ## One iteration of `stage_owned` -/

section Staging

variable {supported : ℕ → Bool} {cancelled : ControlId → Bool} {p : Pointer}
  {x x' : OwnedStaging} {y : Bool × OwnedStaging} {op : QueuedOwnedOp}

/-- The record popped is the first of the backlog. -/
theorem popOwned_backlog (h : popOwned x = some (op, x')) :
    x.data.ownedPending ++ x.queue = op :: (x'.data.ownedPending ++ x'.queue) := by
  rcases popOwned_cases h with ⟨rest, hp, rfl⟩ | ⟨rest, hp, hq, rfl⟩
  · rw [hp]
    rfl
  · rw [hp, hq]
    rfl

/-- Popping empties `owned_pending` when it held at most one record. -/
theorem popOwned_pending (h : popOwned x = some (op, x'))
    (hpending : x.data.ownedPending.length ≤ 1) : x'.data.ownedPending = [] := by
  rcases popOwned_cases h with ⟨rest, hp, rfl⟩ | ⟨rest, hp, hq, rfl⟩
  · rw [hp] at hpending
    exact List.length_eq_zero_iff.mp (Nat.le_of_succ_le_succ hpending |> Nat.le_zero.mp)
  · exact hp

/-- An iteration leaves the backlog alone, or takes its first record. -/
theorem stageOwned_backlog (h : stageOwned supported cancelled p x = .ok y) :
    x.data.ownedPending ++ x.queue =
      takenOf (takenOwned supported cancelled p x) ++ (y.2.data.ownedPending ++ y.2.queue) ∧
    enqueuedOf (takenOwned supported cancelled p x) = [] := by
  unfold takenOwned
  rw [h]
  rcases stageOwned_cases h with ⟨hpop, rfl⟩ | ⟨op, x', hpop, ⟨reason, rfl⟩ | rfl | ⟨-, -, rfl⟩⟩
  · rw [hpop]
    exact ⟨rfl, rfl⟩
  all_goals
    have hbacklog := popOwned_backlog hpop
    rw [hpop]
    exact ⟨hbacklog, rfl⟩

/-- At most the record that the SQ sent back is in `owned_pending`. -/
theorem stageOwned_pending (h : stageOwned supported cancelled p x = .ok y)
    (hpending : x.data.ownedPending.length ≤ 1) : y.2.data.ownedPending.length ≤ 1 := by
  rcases stageOwned_cases h with ⟨hpop, rfl⟩ | ⟨op, x', hpop, ⟨reason, rfl⟩ | rfl | ⟨-, -, rfl⟩⟩
  · exact hpending
  all_goals
    have hnil := popOwned_pending hpop hpending
    simp [hnil]

end Staging

/-! ## One step -/

section Steps

variable {cfg : PreparedRing} {σ τ : State} {a : Action}

/-- No other step touches the backlog. -/
theorem Move.backlog (hm : Move cfg σ a τ) (hstage : ∀ p, a ≠ .stageOwned p)
    (henqueue : ∀ opcode, a ≠ .enqueue opcode) :
    τ.data.ownedPending = σ.data.ownedPending ∧ τ.ownedQueue = σ.ownedQueue := by
  cases hm
  case ownedBudget p _ => exact absurd rfl (hstage p)
  case stageOwned p _ _ _ _ _ => exact absurd rfl (hstage p)
  case enqueue opcode _ => exact absurd rfl (henqueue opcode)
  case stageCancellation hy =>
    rcases stageCancellation_cases hy with rfl | ⟨_, _, _, _, rfl⟩ <;> exact ⟨rfl, rfl⟩
  case stageOwnedCancellation hy =>
    rcases stageOwnedCancellation_cases hy with rfl | ⟨_, _, _, _, rfl⟩ <;> exact ⟨rfl, rfl⟩
  case originalStaged hy =>
    obtain ⟨-, rfl⟩ := stageOriginal_staged hy
    exact ⟨rfl, rfl⟩
  case accept hy =>
    rcases acceptStaged_cases hy with ⟨_, _, _, _, _, _, rfl⟩ | ⟨_, _, _, _, _, _, rfl⟩ |
      ⟨_, _, _, _, _, _, rfl⟩ <;> exact ⟨rfl, rfl⟩
  case dispatch hy => exact ⟨(dispatch_queues hy).2.2.1, rfl⟩
  all_goals exact ⟨rfl, rfl⟩

/-- A step lets records in at the end of the backlog and takes them from its front. -/
theorem backlog_step (h : step cfg a σ = .ok τ) :
    σ.backlog ++ enqueuedOf (σ.passages cfg a) = takenOf (σ.passages cfg a) ++ τ.backlog := by
  have hm := move_of_step h
  by_cases hstage : ∃ p, a = .stageOwned p
  · obtain ⟨p, rfl⟩ := hstage
    cases hm with
    | ownedBudget hcrit => simp [State.passages, hcrit, State.backlog, takenOf, enqueuedOf]
    | stageOwned hcrit hring hfresh hy =>
      obtain ⟨hbacklog, hnone⟩ := stageOwned_backlog hy
      simp only [State.passages, hcrit, hring, hnone, List.append_nil]
      exact hbacklog
  by_cases henqueue : ∃ opcode, a = .enqueue opcode
  · obtain ⟨opcode, rfl⟩ := henqueue
    cases hm with
    | enqueueRejected hadmission =>
      simp [State.passages, hadmission, State.backlog, takenOf, enqueuedOf]
    | enqueue hadmission =>
      simp [State.passages, hadmission, State.backlog, State.setCall]
  · -- every other step is silent
    have hnone : σ.passages cfg a = [] := by
      cases a with
      | stageOwned p => exact absurd ⟨p, rfl⟩ hstage
      | enqueue opcode => exact absurd ⟨opcode, rfl⟩ henqueue
      | _ => rfl
    obtain ⟨hpending, hqueue⟩ :=
      hm.backlog (fun p hp => hstage ⟨p, hp⟩) fun o ho => henqueue ⟨o, ho⟩
    rw [hnone, State.backlog, State.backlog, hpending, hqueue]
    exact List.append_nil _

/-- A step leaves at most one record in `owned_pending`. -/
theorem pending_step (h : step cfg a σ = .ok τ) (hpending : σ.data.ownedPending.length ≤ 1) :
    τ.data.ownedPending.length ≤ 1 := by
  have hm := move_of_step h
  by_cases hstage : ∃ p, a = .stageOwned p
  · obtain ⟨p, rfl⟩ := hstage
    cases hm with
    | ownedBudget => exact hpending
    | stageOwned _ _ _ hy => exact stageOwned_pending hy hpending
  by_cases henqueue : ∃ opcode, a = .enqueue opcode
  · obtain ⟨opcode, rfl⟩ := henqueue
    cases hm <;> exact hpending
  · obtain ⟨hsame, -⟩ := hm.backlog (fun p hp => hstage ⟨p, hp⟩) fun o ho => henqueue ⟨o, ho⟩
    exact hsame ▸ hpending

/-- In a run, what leaves is the old backlog and then what enters, in this order. -/
theorem backlog_run {os : List Passage} (h : Lts.Emits (step cfg) (State.passages cfg) σ os τ) :
    σ.backlog ++ enqueuedOf os = takenOf os ++ τ.backlog := by
  refine h.invariant (R := fun os τ => σ.backlog ++ enqueuedOf os = takenOf os ++ τ.backlog)
    (by simp [enqueuedOf, takenOf]) ?_
  intro os τ υ a ih hstep
  calc σ.backlog ++ enqueuedOf (os ++ τ.passages cfg a)
      = (σ.backlog ++ enqueuedOf os) ++ enqueuedOf (τ.passages cfg a) := by simp
    _ = takenOf os ++ (τ.backlog ++ enqueuedOf (τ.passages cfg a)) := by simp [ih]
    _ = takenOf os ++ (takenOf (τ.passages cfg a) ++ υ.backlog) := by rw [backlog_step hstep]
    _ = takenOf (os ++ τ.passages cfg a) ++ υ.backlog := by simp

end Steps

/-! ## Whole runs -/

section Runs

variable {cfg : PreparedRing} {σ τ : State} {a : Action} {os os' : List Passage}
  {op : QueuedOwnedOp}

/-- Operation numbers are never given out twice. -/
theorem Move.nextControl_le (hm : Move cfg σ a τ) : σ.nextControl ≤ τ.nextControl := by
  cases hm
  case enqueue | enqueueRejected => exact Nat.le_succ _
  all_goals exact le_rfl

/-- What enters is the operation with the next number. -/
theorem enqueued_step (h : step cfg a σ = .ok τ) :
    enqueuedOf (σ.passages cfg a) = [] ∨ ∃ op, enqueuedOf (σ.passages cfg a) = [op] ∧
      op.control = σ.nextControl ∧ τ.nextControl = σ.nextControl + 1 := by
  cases a with
  | enqueue opcode =>
    cases move_of_step h with
    | enqueueRejected hadmission => exact .inl (by simp [State.passages, hadmission, enqueuedOf])
    | enqueue hadmission => exact .inr ⟨_, by simp [State.passages, hadmission]; rfl, rfl, rfl⟩
  | stageOwned p =>
    cases move_of_step h with
    | ownedBudget hcrit => exact .inl (by simp [State.passages, hcrit, enqueuedOf])
    | stageOwned hcrit hring _ hy =>
      simp only [State.passages, hcrit, hring]
      exact .inl (stageOwned_backlog hy).2
  | _ => exact .inl rfl

/-- No operation enters twice. -/
theorem enqueued_nodup (h : Lts.Emits (step cfg) (State.passages cfg) σ os τ) :
    (enqueuedOf os).Nodup := by
  have hall : (enqueuedOf os).Nodup ∧ ∀ op ∈ enqueuedOf os, op.control < τ.nextControl := by
    refine h.invariant
      (R := fun os τ => (enqueuedOf os).Nodup ∧ ∀ op ∈ enqueuedOf os, op.control < τ.nextControl)
      ⟨.nil, nofun⟩ ?_
    rintro os τ υ a ⟨hnodup, hlt⟩ hstep
    have hle := (move_of_step hstep).nextControl_le
    rw [enqueuedOf_append]
    rcases enqueued_step hstep with hnone | ⟨op, hop, hcontrol, hnext⟩
    · rw [hnone, List.append_nil]
      exact ⟨hnodup, fun op hop => (hlt op hop).trans_le hle⟩
    · rw [hop]
      refine ⟨List.nodup_append.mpr ⟨hnodup, List.nodup_singleton _, ?_⟩, fun op' hop' => ?_⟩
      · rintro op' hop' _ hmem rfl
        rw [List.mem_singleton.mp hmem] at hop'
        exact absurd (hlt op hop') (by simp [hcontrol])
      · rcases List.mem_append.mp hop' with hold | hnew
        · exact (hlt op' hold).trans_le hle
        · rw [List.mem_singleton.mp hnew, hcontrol, hnext]
          exact Nat.lt_succ_self _
  exact hall.1

/-- The state at the end of a run that put out `os`, seen from its backlog. -/
structure State.Fifo (cfg : PreparedRing) (os : List Passage) (σ : State) : Prop where
  /-- What was enqueued is what was taken, in the same order, and then what still waits. -/
  order : enqueuedOf os = takenOf os ++ σ.backlog
  /-- It was enqueued once. -/
  distinct : (enqueuedOf os).Nodup
  pending : σ.data.ownedPending.length ≤ 1
  /-- An iteration of `stage_owned` takes the first record and fails it or pushes its SQE; or the
  SQ is full, and the record is put back. -/
  staged : ∀ p τ failed budget r op rest, σ.crit = some (.pass failed, .owned (budget + 1)) →
    σ.ring = some r → σ.backlog = op :: rest → step cfg (.stageOwned p) σ = .ok τ →
    (σ.passages cfg (.stageOwned p) = [.taken op] ∧ τ.backlog = rest ∧
      ((∃ reason, τ.crit = some (.pass (failed ++ [(op.handler, reason)]), .owned budget)) ∨
        (τ.ring = some { r with sq := r.sq ++ [⟨.owned op.handler.opcode, p⟩] } ∧
          τ.data.ownedContexts.lookup p = some op.boxed))) ∨
    (r.entries ≤ r.sq.length ∧ σ.passages cfg (.stageOwned p) = [] ∧
      τ.data.ownedPending = [op])
  /-- The record put back is the next one taken. -/
  back : ∀ op os' τ, σ.data.ownedPending = [op] →
    Lts.Emits (step cfg) (State.passages cfg) σ os' τ →
    takenOf os' = [] ∨ ∃ rest, takenOf os' = op :: rest

/-- A record that was popped is put back only because the SQ is full. -/
theorem stageOwned_full {supported : ℕ → Bool} {cancelled : ControlId → Bool} {p : Pointer}
    {x x' y : OwnedStaging} (hpop : popOwned x = some (op, x'))
    (h : stageOwned supported cancelled p x = .ok (false, y)) :
    x.ring.entries ≤ x.ring.sq.length := by
  have hring : x'.ring = x.ring := by
    rcases popOwned_cases hpop with ⟨_, _, rfl⟩ | ⟨_, _, _, rfl⟩ <;> rfl
  unfold stageOwned at h
  simp only [hpop] at h
  split_ifs at h
  · cases h
  · cases h
  · cases h
  · split at h
    next hfull => exact hring ▸ Ring.push_eq_none hfull
    next => cases h

/-- What `stage_owned` does with the first record of the backlog. -/
theorem stageOwned_first {supported : ℕ → Bool} {cancelled : ControlId → Bool} {p : Pointer}
    {x : OwnedStaging} {y : Bool × OwnedStaging} {rest : List QueuedOwnedOp}
    (hpending : x.data.ownedPending.length ≤ 1)
    (hfirst : x.data.ownedPending ++ x.queue = op :: rest)
    (h : stageOwned supported cancelled p x = .ok y) :
    (takenOwned supported cancelled p x = [.taken op] ∧ y.1 = true ∧
      y.2.data.ownedPending ++ y.2.queue = rest ∧
      ((∃ reason, y.2.failed = x.failed ++ [(op.handler, reason)]) ∨
        (y.2.ring = { x.ring with sq := x.ring.sq ++ [⟨.owned op.handler.opcode, p⟩] } ∧
          y.2.data.ownedContexts.lookup p = some op.boxed))) ∨
    (x.ring.entries ≤ x.ring.sq.length ∧ takenOwned supported cancelled p x = [] ∧
      y.2.data.ownedPending = [op]) := by
  -- A record that leaves the backlog is the first one.
  have htaken : ∀ {o x'} {y' : OwnedStaging}, popOwned x = some (o, x') →
      stageOwned supported cancelled p x = .ok (true, y') →
      takenOwned supported cancelled p x = [.taken o] := by
    intro o x' y' hpop hy
    simp only [takenOwned, hpop, hy]
  have hrest : ∀ {o x'}, popOwned x = some (o, x') → o = op ∧
      x'.data.ownedPending ++ x'.queue = rest ∧ x'.failed = x.failed ∧ x'.ring = x.ring := by
    intro o x' hpop
    have hbacklog := (popOwned_backlog hpop).symm.trans hfirst
    injection hbacklog with hop hrest
    refine ⟨hop, hrest, ?_⟩
    rcases popOwned_cases hpop with ⟨_, _, rfl⟩ | ⟨_, _, _, rfl⟩ <;> exact ⟨rfl, rfl⟩
  rcases stageOwned_cases h with ⟨hpop, rfl⟩ | ⟨o, x', hpop, ⟨reason, rfl⟩ | rfl | ⟨-, -, rfl⟩⟩
  · -- the backlog is not empty
    unfold popOwned at hpop
    split at hpop
    next => cases hpop
    next => cases hpop
    next hp hq => simp [hp, hq] at hfirst
  · obtain ⟨rfl, hbacklog, hfailed, -⟩ := hrest hpop
    exact .inl ⟨htaken hpop h, rfl, hbacklog, .inl ⟨reason, by rw [hfailed]⟩⟩
  · obtain ⟨rfl, -⟩ := hrest hpop
    refine .inr ⟨stageOwned_full hpop h, ?_, ?_⟩
    · simp only [takenOwned, hpop, h]
    · simp [popOwned_pending hpop hpending]
  · obtain ⟨rfl, hbacklog, -, hring⟩ := hrest hpop
    exact .inl ⟨htaken hpop h, rfl, hbacklog, .inr ⟨by rw [hring], Finmap.lookup_insert _⟩⟩

/-- Owned operations leave the backlog in the order in which they entered it, in every interleaving
of enqueues, passes and everything else. -/
theorem owned_fifo (cfg : PreparedRing) (os : List Passage) (σ : State)
    (h : Lts.Emits (step cfg) (State.passages cfg) (.init cfg) os σ) : σ.Fifo cfg os := by
  have hpending : σ.data.ownedPending.length ≤ 1 :=
    h.reaches.invariant (I := fun σ => σ.data.ownedPending.length ≤ 1) (Nat.zero_le _)
      fun _ _ _ hI _ hstep => pending_step hstep hI
  -- The backlog keeps its order, and only its first record leaves it.
  exact {
    order := backlog_run h
    distinct := enqueued_nodup h
    pending := hpending
    staged := by
      intro p τ failed budget r op rest hcrit hring hbacklog hstep
      have hm := move_of_step hstep
      cases hm with
      | ownedBudget hcrit' => simp [hcrit] at hcrit'
      | stageOwned hcrit' hring' hfresh hy =>
        simp only [hcrit, hring, Option.some.injEq, Prod.mk.injEq, Holder.pass.injEq,
          Stage.owned.injEq, Nat.add_right_cancel_iff] at hcrit' hring'
        obtain ⟨rfl, rfl⟩ := hcrit'
        subst hring'
        simp only [State.passages, hcrit, hring]
        have hfirst : σ.data.ownedPending ++ σ.ownedQueue = op :: rest := hbacklog
        rcases stageOwned_first hpending hfirst hy with ⟨htaken, hgoes, hrest, hcase⟩ | hfull
        · refine .inl ⟨htaken, hrest, hcase.imp ?_ ?_⟩
          · rintro ⟨reason, hfailed⟩
            exact ⟨reason, by rw [hfailed, hgoes]; rfl⟩
          · rintro ⟨hpushed, hcontext⟩
            exact ⟨by rw [hpushed], hcontext⟩
        · exact .inr hfull
    back := by
      intro op os' τ hback hrun
      have horder := backlog_run hrun
      rw [State.backlog, hback] at horder
      cases htaken : takenOf os' with
      | nil => exact .inl rfl
      | cons first rest =>
        rw [htaken] at horder
        injection horder with hop _
        exact .inr ⟨rest, by rw [hop]⟩ }

/-- Two operations; the kernel does not consume the SQE of the first, and the second finds the SQ of
one entry full. -/
def crowded : List Action :=
  [.enqueue 7, .notify (.op 0), .enqueue 8, .notify (.op 1), .passBegin, .stageCancellation 10,
    .stageOwnedCancellation 10, .stageOwned 10, .stageOwned 20, .submit (.ok 0), .accept,
    .wakeAdmission, .failOwned, .reap, .dispatch, .cancelOverflow, .decide, .park, .passBegin,
    .stageCancellation 20, .stageOwnedCancellation 20, .stageOwned 20]

/-- The second operation is put back and remains the first of the backlog. -/
theorem owned_fifo_crowded :
    ∃ os σ, Lts.Emits (step .tiny) (State.passages .tiny) (.init .tiny) os σ ∧
      takenOf os = [⟨0, ⟨0, 7⟩⟩] ∧ σ.data.ownedPending = [⟨1, ⟨1, 8⟩⟩] ∧ σ.Fifo .tiny os := by
  have hrun : (Lts.collect (step .tiny) (State.passages .tiny) crowded [] (.init .tiny)).any
      (fun r => takenOf r.1 = [⟨0, ⟨0, 7⟩⟩] ∧ r.2.data.ownedPending = [⟨1, ⟨1, 8⟩⟩]) = true := by
    decide
  obtain ⟨⟨os, σ⟩, hcollect, hr⟩ := (Option.any_eq_true _ _).mp hrun
  obtain ⟨htaken, hpending⟩ := of_decide_eq_true hr
  have hemits := Lts.emits_of_collect .refl hcollect
  exact ⟨os, σ, hemits, htaken, hpending, owned_fifo .tiny os σ hemits⟩

end Runs

end Nosv.IoUring
