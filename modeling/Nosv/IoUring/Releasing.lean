import Mathlib.Data.Fintype.EquivFin
import Mathlib.Data.Prod.Lex
import Nosv.IoUring.Resting

/-!
# The mutex is given back

Whoever holds the `data` mutex across several steps has a bounded way to its release, on which it
needs nothing but its own steps and, inside `admit`, an iterator that ends. So the owner thread gets
through `shutdown_and_wait` as far as the wait for the driver.

* `exists_released`: the mutex is released;
* `exists_waiting`: the owner thread comes to wait for the driver.
-/

namespace Nosv.IoUring

variable {cfg : PreparedRing} {ok : State → Action → Prop} {σ τ : State} {a : Action}

/-! ## The stages of a critical section -/

/-- Whether the holder of the mutex goes through a stage. -/
def Holder.visits : Holder → Stage → Bool
  | .admission _ _ _, .cancels | .admission _ _ _, .originals => true
  | .pass _, .cancels | .pass _, .ownedCancels | .pass _, .owned _ | .pass _, .admissions _ => true
  | _, .submit | _, .accept _ => true
  | _, _ => false

/-- The holder of the mutex is at a stage of its own. -/
def Visiting (σ : State) : Prop := ∀ h st, σ.crit = some (h, st) → h.visits st = true

/-- A step after which the holder is at the given stage. -/
theorem Visiting.of_crit {h : Holder} {st : Stage} (hcrit : τ.crit = some (h, st))
    (hst : h.visits st = true) : Visiting τ := by
  intro h' st' heq
  cases hcrit.symm.trans heq
  exact hst

/-- Every move keeps the holder at a stage of its own. -/
theorem Visiting.move (hσ : Visiting σ) (hm : Move cfg σ a τ) : Visiting τ := by
  cases hm
  case pollAdmit | ownedBudget | iteratorNone | originalFull | originalStaged | passBegin |
      passEnd | wakeAdmission | admissionDead => exact .of_crit rfl rfl
  case stageCancellation holder r p y hcrit _ _ _ =>
    have hvisits := hσ _ _ hcrit
    refine .of_crit rfl ?_
    cases holder <;> cases y.1 <;> rfl
  case stageOwnedCancellation holder r p y hcrit _ _ _ =>
    have hvisits := hσ _ _ hcrit
    refine .of_crit rfl ?_
    cases holder with
    | admission => cases hvisits
    | pass => cases y.1 <;> rfl
  case stageOwned y _ _ _ _ =>
    refine .of_crit rfl ?_
    cases y.1 <;> rfl
  case submitAccepted holder _ _ _ _ _ _ | submitRetry holder _ _ _ | accept holder _ _ _ _ _ _ =>
    refine .of_crit rfl ?_
    cases holder <;> rfl
  case iteratorPanic | admitEnd | admissionsEnd => exact fun _ _ hnone => by cases hnone
  all_goals exact hσ

/-- In every reachable state the holder of the mutex is at a stage of its own. -/
theorem Visiting.of_reachable (h : Reachable cfg ok σ) : Visiting σ :=
  h.inv (fun _ _ hcrit => by cases hcrit) fun hI _ hm => hI.move hm

/-! ## The next step -/

/-- The allocator has an address to give. -/
theorem exists_fresh (d : DriverData) : ∃ p, d.Fresh p := by
  obtain ⟨p, hp⟩ := Infinite.exists_notMem_finset
    (insert 0 (d.contexts.keys ∪ d.ownedContexts.keys ∪ d.ownedCancelContexts.keys))
  simp only [Finset.mem_insert, Finset.mem_union, Finmap.mem_keys, not_or] at hp
  obtain ⟨hzero, ⟨hraw, howned⟩, hcancel⟩ := hp
  refine ⟨p, hzero, ?_⟩
  simp [contextPointerInUse, Finmap.lookup_eq_none.mpr hraw, Finmap.lookup_eq_none.mpr howned,
    Finmap.lookup_eq_none.mpr hcancel]

/-- The ring is there while somebody holds the mutex. -/
theorem ring_of_crit (h : Reachable cfg ok σ) (hcrit : σ.crit ≠ none) : ∃ r, σ.ring = some r := by
  have hS := Stopping.of_reachable h
  refine Option.ne_none_iff_exists'.mp fun hring => ?_
  have hless := hS.ring.mp hring
  have hstop : σ.driver.stopping = true := by
    cases hd : σ.driver <;> rw [hd] at hless <;> first | rfl | cases hless
  exact hcrit (hS.idle hstop).2.2.2

/-- The loop of `stage_cancellations` ends with the commands, or when the SQ is full. -/
theorem stageCancellation_stops {p : Pointer} {d d' : DriverData} {r r' : Ring}
    (h : stageCancellation p d r = .ok (false, d', r')) :
    d.cancelQueue = [] ∨ r.entries ≤ r.sq.length := by
  unfold stageCancellation at h
  split at h
  next hqueue => exact .inl hqueue
  next =>
    dsimp only at h
    split at h
    next => cases h
    next =>
      split at h
      next hfull => exact .inr (Ring.push_eq_none hfull)
      next => cases h

/-- The loop of `stage_owned_cancellations` ends with its queue, or with a full SQ. -/
theorem stageOwnedCancellation_stops {p : Pointer} {d d' : DriverData} {r r' : Ring}
    (h : stageOwnedCancellation p d r = .ok (false, d', r')) :
    d.ownedCancelQueue = [] ∨ r.entries ≤ r.sq.length := by
  unfold stageOwnedCancellation at h
  split at h
  next hqueue => exact .inl hqueue
  next =>
    dsimp only at h
    split at h
    next => cases h
    next =>
      split at h
      next hfull => exact .inr (Ring.push_eq_none hfull)
      next => cases h

/-- An iteration of `stage_cancellations` goes through. -/
theorem stageCancellation_goes (h : Reachable cfg ok σ) {holder : Holder}
    (hcrit : σ.crit = some (holder, .cancels)) :
    ∃ p τ, step cfg (.stageCancellation p) σ = .ok τ := by
  obtain ⟨r, hring⟩ := ring_of_crit h (by simp [hcrit])
  obtain ⟨p, hp⟩ := exists_fresh σ.data
  obtain ⟨y, hy⟩ := stageCancellation_ok r hp
  refine ⟨p, ?_⟩
  simp only [step, State.stageCancellation, hcrit, bind_eq_ok, need_eq_ok, require_eq_ok,
    checked_eq_ok, pure_eq_ok]
  exact ⟨_, r, hring, (), hp, y, hy, rfl⟩

/-- An iteration of `stage_owned_cancellations` goes through. -/
theorem stageOwnedCancellation_goes (h : Reachable cfg ok σ) {holder : Holder}
    (hcrit : σ.crit = some (holder, .ownedCancels)) :
    ∃ p τ, step cfg (.stageOwnedCancellation p) σ = .ok τ := by
  obtain ⟨r, hring⟩ := ring_of_crit h (by simp [hcrit])
  obtain ⟨p, hp⟩ := exists_fresh σ.data
  obtain ⟨y, hy⟩ := stageOwnedCancellation_ok r hp
  refine ⟨p, ?_⟩
  simp only [step, State.stageOwnedCancellation, hcrit, bind_eq_ok, need_eq_ok, require_eq_ok,
    checked_eq_ok, pure_eq_ok]
  exact ⟨_, r, hring, (), hp, y, hy, rfl⟩

/-- An iteration of `stage_owned` goes through. -/
theorem stageOwned_goes (h : Reachable cfg ok σ) {failed : List Failed} {budget : ℕ}
    (hcrit : σ.crit = some (.pass failed, .owned budget)) :
    ∃ p τ, step cfg (.stageOwned p) σ = .ok τ := by
  obtain ⟨r, hring⟩ := ring_of_crit h (by simp [hcrit])
  obtain ⟨p, hp⟩ := exists_fresh σ.data
  have hy : ∀ cancelled, ∃ y, IoUring.stageOwned cfg.supported cancelled p
      ⟨σ.data, σ.ownedQueue, r, failed⟩ = .ok y := fun _ => stageOwned_ok hp
  obtain ⟨y, hy⟩ := hy fun c => (σ.controls c).cancelled
  cases budget with
  | zero =>
    refine ⟨p, ?_⟩
    simp only [step, State.stageOwned, hcrit, bind_eq_ok, need_eq_ok, require_eq_ok, pure_eq_ok]
    exact ⟨_, r, hring, (), hp, rfl⟩
  | succ budget =>
    refine ⟨p, ?_⟩
    simp only [step, State.stageOwned, hcrit, bind_eq_ok, need_eq_ok, require_eq_ok,
      checked_eq_ok, pure_eq_ok]
    exact ⟨_, r, hring, (), hp, y, hy, rfl⟩

/-- Whether an item was taken from the iterator of submission `s` and is not staged yet. -/
def State.inHand (σ : State) (s : SubId) : Bool :=
  ((σ.clients s).role.fut?.bind (·.pending)).isSome

/-- The push of an item in hand goes through, whether or not there is a slot. -/
theorem stageOriginal_goes (h : Reachable cfg ok σ) {s : SubId} {w : Waker} {n : Bool}
    (hcrit : σ.crit = some (.admission s w n, .originals)) (hin : σ.inHand s = true) :
    ∃ p τ, step cfg (.stageOriginal p) σ = .ok τ := by
  obtain ⟨item, hbind⟩ := Option.isSome_iff_exists.mp hin
  obtain ⟨fut, hfut, hpending⟩ := Option.bind_eq_some_iff.mp hbind
  obtain ⟨r, hring⟩ := ring_of_crit h (by simp [hcrit])
  obtain ⟨p, hp⟩ := exists_fresh σ.data
  obtain ⟨y, hy⟩ : ∃ y, IoUring.stageOriginal s p item.1 item.2 σ.data r σ.subs = .ok y :=
    stageOriginal_ok r σ.subs hp
  refine ⟨p, ?_⟩
  simp only [step, State.stageOriginal, hcrit, bind_eq_ok, need_eq_ok, require_eq_ok,
    checked_eq_ok]
  cases y with
  | inl item' => exact ⟨_, fut, hfut, item, hpending, r, hring, (), hp, .inl item', hy, rfl⟩
  | inr y => exact ⟨_, fut, hfut, item, hpending, r, hring, (), hp, .inr y, hy, rfl⟩

/-- The kernel may take any prefix of the SQ. -/
theorem submit_goes (h : Reachable cfg ok σ) {holder : Holder} {r : Ring} {count : ℕ}
    (hcrit : σ.crit = some (holder, .submit)) (hring : σ.ring = some r)
    (hcount : count ≤ r.sq.length) :
    step cfg (.submit (.ok count)) σ = .ok { σ with crit := some (holder, .accept count) } := by
  have hlength : r.sq.length = σ.data.staged.length := by
    simpa using congrArg List.length ((DriverData.Sound.of_reachable h).staged_order r hring)
  have hle : ¬ count > σ.data.staged.length := by omega
  simp only [step, State.submit, hcrit, bind_eq_ok, need_eq_ok, require_eq_ok]
  refine ⟨r, hring, (), hcount, ?_⟩
  rw [if_neg hle]
  rfl

/-- The accepted prefix can be gone through. -/
theorem accept_goes (h : Reachable cfg ok σ) {holder : Holder} {count : ℕ}
    (hcrit : σ.crit = some (holder, .accept count)) : ∃ τ, step cfg .accept σ = .ok τ := by
  cases count with
  | zero =>
    simp only [step, State.accept, hcrit]
    exact ⟨_, rfl⟩
  | succ count =>
    obtain ⟨r, hring⟩ := ring_of_crit h (by simp [hcrit])
    obtain ⟨y, hy⟩ := acceptStaged_of_reachable h hcrit r
    simp only [step, State.accept, hcrit, bind_eq_ok, need_eq_ok, checked_eq_ok, pure_eq_ok]
    exact ⟨_, r, hring, y, hy, rfl⟩

/-- The weak registry can be gone through. -/
theorem wakeAdmission_goes {failed : List Failed} {rest : List SubId}
    (hcrit : σ.crit = some (.pass failed, .admissions rest)) :
    ∃ τ, step cfg .wakeAdmission σ = .ok τ := by
  cases rest <;>
  · simp only [step, State.wakeAdmission, hcrit]
    exact ⟨_, rfl⟩

/-! ## Releasing the mutex -/

/-- The steps that bring `shutdown_and_wait` to its end: those of the owner thread in it, of the
driver task, of the kernel that finishes what it was given, and of the holder of the mutex, whose
iterator ends. -/
def Action.winding : Action → Bool
  | .kernelPost cqe => !cqe.more
  | .close a | .sweep a _ | .sweepOwned a _ | .notify a => a == .owner || a == .driver
  | .stageCancellation _ | .stageOwnedCancellation _ | .stageOwned _ | .iteratorNext none
  | .stageOriginal _ | .submit (.ok _) | .accept | .wakeAdmission => true
  | .passBegin | .failOwned | .reap | .dispatch | .publish | .cancelOverflow | .decide | .park
  | .resume | .markRunning | .takeRing | .closeGate | .retire | .complete => true
  | .closeAdmission | .raiseShutdown _ | .cancelSubmission | .cancelSnapshot => true
  | _ => false

/-- Nobody else takes a step. -/
def Winding (_ : State) (a : Action) : Prop := a.winding = true

/-- How far the holder of the mutex is from its release: the stages to go, and how often the
present one can be repeated. -/
def State.held (σ : State) : ℕ ×ₗ ℕ :=
  match σ.crit with
  | none => toLex (0, 0)
  | some (_, .admissions rest) => toLex (1, rest.length)
  | some (_, .accept count) => toLex (2, count)
  | some (_, .submit) => toLex (3, 0)
  | some (.admission s _ _, .originals) => toLex (4, (σ.inHand s).toNat)
  | some (.pass _, .originals) => toLex (4, 0)
  | some (_, .owned budget) => toLex (4, budget)
  | some (_, .ownedCancels) => toLex (5, σ.data.ownedCancelQueue.length)
  | some (_, .cancels) => toLex (6, σ.data.cancelQueue.length)

/-- An admission stages the item it has in hand, or hears from its iterator that there is none. -/
theorem exists_admissionStep (h : Reachable cfg ok σ) {s : SubId} {w : Waker} {n : Bool}
    (hcrit : σ.crit = some (.admission s w n, .originals)) :
    ∃ a τ, Winding σ a ∧ step cfg a σ = .ok τ ∧ τ.held < σ.held ∧ τ.owner = σ.owner ∧
      τ.calls .owner = σ.calls .owner := by
  obtain ⟨⟨fut, hrole, -⟩, -⟩ := ((Threads.of_reachable h).fits s).of_admits
    (by rw [State.admits_of_crit hcrit]; exact beq_self_eq_true s)
  have hfut : (σ.clients s).role.fut? = some fut := Role.fut?_eq_some.mpr hrole
  cases hpending : fut.pending with
  | none =>
    have hstep : ∃ τ, step cfg (.iteratorNext none) σ = .ok τ := by
      simp only [step, State.iteratorNext, hcrit, bind_eq_ok, need_eq_ok, require_eq_ok]
      exact ⟨_, fut, hfut, (), hpending, rfl⟩
    obtain ⟨τ, hτ⟩ := hstep
    refine ⟨.iteratorNext none, τ, rfl, hτ, ?_⟩
    cases move_of_step hτ with
    | iteratorNone hcrit' =>
      cases hcrit.symm.trans hcrit'
      exact ⟨by simp [State.held, hcrit, Prod.Lex.toLex_lt_toLex], rfl, rfl⟩
  | some item =>
    have hin : σ.inHand s = true := by simp [State.inHand, hfut, hpending]
    obtain ⟨p, τ, hτ⟩ := stageOriginal_goes h hcrit hin
    refine ⟨.stageOriginal p, τ, rfl, hτ, ?_⟩
    cases move_of_step hτ with
    | originalFull hcrit' =>
      cases hcrit.symm.trans hcrit'
      exact ⟨by simp [State.held, hcrit, Prod.Lex.toLex_lt_toLex], rfl, rfl⟩
    | originalStaged hcrit' =>
      cases hcrit.symm.trans hcrit'
      refine ⟨?_, rfl, rfl⟩
      -- There is nothing in hand any more.
      simp only [State.held, hcrit, hin, Prod.Lex.toLex_lt_toLex]
      simp [State.inHand, State.record, Role.fut?]

/-- The holder of the mutex can go on, and comes closer to its release. The owner thread stays where
it is. -/
theorem exists_holderStep (h : Reachable cfg ok σ) (hcrit : σ.crit ≠ none) :
    ∃ a τ, Winding σ a ∧ step cfg a σ = .ok τ ∧ τ.held < σ.held ∧ τ.owner = σ.owner ∧
      τ.calls .owner = σ.calls .owner := by
  -- At every stage the holder has a next step; the rank is the stage, then what is left of it.
  obtain ⟨⟨holder, stage⟩, hcrit⟩ := Option.ne_none_iff_exists'.mp hcrit
  have hvisits := Visiting.of_reachable h _ _ hcrit
  cases stage with
  | cancels =>
    obtain ⟨p, τ, hτ⟩ := stageCancellation_goes h hcrit
    refine ⟨.stageCancellation p, τ, rfl, hτ, ?_⟩
    cases move_of_step hτ with
    | @stageCancellation holder' r p y hcrit' hring hfresh hy =>
      cases hcrit.symm.trans hcrit'
      refine ⟨?_, rfl, rfl⟩
      rcases stageCancellation_cases hy with rfl | ⟨command, rest, hqueue, -, rfl⟩
      · cases holder <;> simp [State.held, hcrit, State.afterCancels, Prod.Lex.toLex_lt_toLex]
      · simp [State.held, hcrit, hqueue, Prod.Lex.toLex_lt_toLex]
  | ownedCancels =>
    obtain ⟨p, τ, hτ⟩ := stageOwnedCancellation_goes h hcrit
    refine ⟨.stageOwnedCancellation p, τ, rfl, hτ, ?_⟩
    cases move_of_step hτ with
    | @stageOwnedCancellation holder' r p y hcrit' hring hfresh hy =>
      cases hcrit.symm.trans hcrit'
      refine ⟨?_, rfl, rfl⟩
      rcases stageOwnedCancellation_cases hy with rfl | ⟨command, rest, hqueue, -, rfl⟩
      · simp [State.held, hcrit, Prod.Lex.toLex_lt_toLex]
      · simp [State.held, hcrit, hqueue, Prod.Lex.toLex_lt_toLex]
  | owned budget =>
    cases holder with
    | admission => cases hvisits
    | pass failed =>
      obtain ⟨p, τ, hτ⟩ := stageOwned_goes h hcrit
      refine ⟨.stageOwned p, τ, rfl, hτ, ?_⟩
      cases move_of_step hτ with
      | ownedBudget hcrit' =>
        cases hcrit.symm.trans hcrit'
        exact ⟨by simp [State.held, hcrit, Prod.Lex.toLex_lt_toLex], rfl, rfl⟩
      | @stageOwned _ _ _ _ y hcrit' hring hfresh hy =>
        cases hcrit.symm.trans hcrit'
        refine ⟨?_, rfl, rfl⟩
        cases y.1 <;> simp [State.held, hcrit, Prod.Lex.toLex_lt_toLex]
  | originals =>
    cases holder with
    | pass => cases hvisits
    | admission s w n => exact exists_admissionStep h hcrit
  -- The kernel accepts nothing: the holder goes on all the same.
  | submit =>
    obtain ⟨r, hring⟩ := ring_of_crit h (by simp [hcrit])
    refine ⟨.submit (.ok 0), _, rfl, submit_goes h hcrit hring (Nat.zero_le _), ?_, rfl, rfl⟩
    simp [State.held, hcrit, Prod.Lex.toLex_lt_toLex]
  | accept count =>
    obtain ⟨τ, hτ⟩ := accept_goes h hcrit
    refine ⟨.accept, τ, rfl, hτ, ?_⟩
    cases move_of_step hτ with
    | admitEnd hcrit' =>
      cases hcrit.symm.trans hcrit'
      refine ⟨?_, rfl, by simp [State.setCall, State.setClient]⟩
      simp [State.held, hcrit, Prod.Lex.toLex_lt_toLex]
    | passEnd hcrit' =>
      cases hcrit.symm.trans hcrit'
      exact ⟨by simp [State.held, hcrit, Prod.Lex.toLex_lt_toLex], rfl, rfl⟩
    | accept hcrit' =>
      cases hcrit.symm.trans hcrit'
      exact ⟨by simp [State.held, hcrit, Prod.Lex.toLex_lt_toLex], rfl, rfl⟩
  | admissions rest =>
    cases holder with
    | admission => cases hvisits
    | pass failed =>
      have hgoes : ∃ τ, step cfg .wakeAdmission σ = .ok τ := wakeAdmission_goes hcrit
      obtain ⟨τ, hτ⟩ := hgoes
      refine ⟨.wakeAdmission, τ, rfl, hτ, ?_⟩
      cases move_of_step hτ with
      | admissionsEnd hcrit' | wakeAdmission hcrit' _ | admissionDead hcrit' _ =>
        cases hcrit.symm.trans hcrit'
        exact ⟨by simp [State.held, hcrit, Prod.Lex.toLex_lt_toLex], rfl, rfl⟩

/-- The mutex can be released. -/
theorem exists_released (h : Reachable cfg Lts.Always σ) :
    ∃ τ, Lts.Reaches (step cfg) Winding σ τ ∧ Reachable cfg Lts.Always τ ∧ τ.crit = none ∧
      τ.owner = σ.owner ∧ τ.calls .owner = σ.calls .owner := by
  have hprogress : ∀ τ, (Reachable cfg Lts.Always τ ∧ τ.owner = σ.owner ∧
      τ.calls .owner = σ.calls .owner) → ¬τ.crit = none → ∃ a υ, Winding τ a ∧
        step cfg a τ = .ok υ ∧ (Reachable cfg Lts.Always υ ∧ υ.owner = σ.owner ∧
          υ.calls .owner = σ.calls .owner) ∧ υ.held < τ.held := by
    rintro τ ⟨hτ, howner, hcalls⟩ hcrit
    obtain ⟨a, υ, hok, hstep, hlt, howner', hcalls'⟩ := exists_holderStep hτ hcrit
    exact ⟨a, υ, hok, hstep, ⟨hτ.tail trivial hstep, howner'.trans howner, hcalls'.trans hcalls⟩,
      hlt⟩
  obtain ⟨τ, hruns, ⟨hτ, howner, hcalls⟩, hcrit⟩ := Lts.exists_of_progress ⟨h, rfl, rfl⟩ hprogress
  exact ⟨τ, hruns, hτ, hcrit, howner, hcalls⟩

/-! ## Calls in progress -/

/-- A step of the call that actor `b` is in. -/
def Action.ofCall (b : Actor) : Action → Bool
  | .close a | .sweep a _ | .sweepOwned a _ | .notify a => a == b
  | _ => false

/-- Steps of a call to its end. -/
def Call.left : Option Call → ℕ
  | none => 0
  | some .notify => 1
  | some (.requestCancel .sweep _ _) | some (.requestOwnedCancel _) => 2
  | some (.requestCancel .close _ _) => 3

/-- The calls of the owner thread and of the driver task are part of the shutdown. -/
theorem Action.winding_of_call {b : Actor} (hb : b = .owner ∨ b = .driver)
    (ha : a.ofCall b = true) : a.winding = true := by
  rcases hb with rfl | rfl <;> cases a <;> simp_all [Action.ofCall, Action.winding]

/-- A call goes on while the mutex is free, and comes closer to its end. -/
theorem call_goes (h : Reachable cfg ok σ) (hcrit : σ.crit = none) {b : Actor}
    (hcall : σ.calls b ≠ none) :
    ∃ a τ, a.ofCall b = true ∧ step cfg a σ = .ok τ ∧
      Call.left (τ.calls b) < Call.left (σ.calls b) := by
  -- Each stage of the call has its step, and one stage fewer is left.
  obtain ⟨c, hcall⟩ := Option.ne_none_iff_exists'.mp hcall
  cases c with
  | requestCancel stage s d =>
    cases stage with
    | close =>
      have hstep : ∃ τ, step cfg (.close b) σ = .ok τ := by
        simp only [step, State.close, hcall]
        exact ⟨_, rfl⟩
      obtain ⟨τ, hτ⟩ := hstep
      refine ⟨_, τ, by simp [Action.ofCall], hτ, ?_⟩
      cases move_of_step hτ with
      | close => simp [hcall, Call.left]
    | sweep =>
      have hstep : ∃ τ, step cfg (.sweep b (cancelTargets σ.data s).toList) σ = .ok τ := by
        simp only [step, State.sweep, hcall, bind_eq_ok, require_eq_ok]
        exact ⟨_, (), hcrit, (), ⟨Finset.nodup_toList _, Finset.toList_toFinset _⟩, rfl⟩
      obtain ⟨τ, hτ⟩ := hstep
      refine ⟨_, τ, by simp [Action.ofCall], hτ, ?_⟩
      cases move_of_step hτ with
      | sweep => simp [hcall, State.record, Call.left]
  | requestOwnedCancel c =>
    by_cases ht : σ.ownedTargets c = ∅
    · refine ⟨.sweepOwned b none, σ.setCall b (some .notify), by simp [Action.ofCall], ?_, ?_⟩
      · simp only [step, State.sweepOwned, hcall, bind_eq_ok, require_eq_ok]
        exact ⟨(), hcrit, (), ht, rfl⟩
      · simp [hcall, Call.left]
    · obtain ⟨p, hp⟩ := Finset.nonempty_iff_ne_empty.mpr ht
      refine ⟨.sweepOwned b (some p), ({ σ with data := cancelOwned p σ.data }).setCall b
        (some .notify), by simp [Action.ofCall], ?_, ?_⟩
      · simp only [step, State.sweepOwned, hcall, bind_eq_ok, require_eq_ok]
        exact ⟨(), hcrit, (), hp, rfl⟩
      · simp [hcall, Call.left]
  | notify =>
    obtain ⟨y, hy⟩ := (Gated.of_reachable h).notify_ok
    have hstep : ∃ τ, step cfg (.notify b) σ = .ok τ := by
      simp only [step, State.notify, hcall, bind_eq_ok, checked_eq_ok]
      exact ⟨_, y, hy, rfl⟩
    obtain ⟨τ, hτ⟩ := hstep
    refine ⟨_, τ, by simp [Action.ofCall], hτ, ?_⟩
    cases move_of_step hτ with
    | notify => simp [hcall, Call.left]

/-- A call of actor `b` leaves the two threads, the mutex and every other call where they are. -/
theorem Move.of_call {b : Actor} (hm : Move cfg σ a τ) (ha : a.ofCall b = true) :
    τ.owner = σ.owner ∧ τ.driver = σ.driver ∧ τ.crit = σ.crit ∧
      ∀ c, c ≠ b → τ.calls c = σ.calls c := by
  have hcalls : ∀ {c : Actor} {x : Option Call} {d : Actor}, (c == b) = true → d ≠ b →
      Function.update σ.calls c x d = σ.calls d := by
    intro c x d hcb hd
    exact Function.update_of_ne (by rw [beq_iff_eq.mp hcb]; exact hd) _ _
  cases hm
  case close | sweep | sweepOwned | sweepOwnedNone | notify =>
    exact ⟨rfl, rfl, rfl, fun c hc => hcalls ha hc⟩
  all_goals cases ha

/-! ## The owner thread -/

/-- How far the owner thread is from its wait: where it is, how much is on its lists, and what it is
in the middle of. -/
def State.sweepLeft (σ : State) : ℕ ×ₗ ℕ ×ₗ ℕ :=
  let call := Call.left (σ.calls .owner)
  match σ.owner with
  | .idle => toLex (0, toLex (0, call))
  | .waiting => toLex (1, toLex (0, call))
  | .owned rest => toLex (2, toLex (rest.length, call))
  | .submissions rest _ => toLex (3, toLex (rest.length, call))
  | .raiseShutdown => toLex (4, toLex (0, call))
  | .closeAdmission => toLex (5, toLex (0, call))

/-- The owner thread in `shutdown_and_wait`, when the mutex is free, can go on until it waits for
the driver. -/
theorem exists_ownerStep (h : Reachable cfg ok σ) (hcrit : σ.crit = none) (howner : σ.owner ≠ .idle)
    (hwait : ¬(σ.owner = .waiting ∧ σ.calls .owner = none)) :
    ∃ a τ, Winding σ a ∧ step cfg a σ = .ok τ ∧ τ.sweepLeft < σ.sweepLeft ∧ τ.owner ≠ .idle := by
  by_cases hcall : σ.calls .owner = none
  · cases ho : σ.owner with
    | idle => exact absurd ho howner
    | waiting => exact absurd ⟨ho, hcall⟩ hwait
    | closeAdmission =>
      have hstep : ∃ τ, step cfg .closeAdmission σ = .ok τ := by
        simp only [step, State.closeAdmission, bind_eq_ok, require_eq_ok]
        exact ⟨_, (), ho, rfl⟩
      obtain ⟨τ, hτ⟩ := hstep
      refine ⟨.closeAdmission, τ, rfl, hτ, ?_⟩
      cases move_of_step hτ with
      | closeAdmission => simp [State.sweepLeft, ho, Prod.Lex.toLex_lt_toLex]
    | raiseShutdown =>
      have hstep : ∃ τ, step cfg (.raiseShutdown σ.ownedSnapshot.toList) σ = .ok τ := by
        simp only [step, State.raiseShutdown, bind_eq_ok, require_eq_ok]
        exact ⟨_, (), ⟨ho, hcrit⟩, (), ⟨Finset.nodup_toList _, Finset.toList_toFinset _⟩, rfl⟩
      obtain ⟨τ, hτ⟩ := hstep
      refine ⟨.raiseShutdown _, τ, rfl, hτ, ?_⟩
      cases move_of_step hτ with
      | raiseShutdown => simp [State.sweepLeft, ho, Prod.Lex.toLex_lt_toLex]
    | submissions rest owned =>
      have hstep : ∃ τ, step cfg .cancelSubmission σ = .ok τ := by
        simp only [step, State.cancelSubmission, bind_eq_ok, require_eq_ok]
        cases rest <;> rw [ho] <;> exact ⟨_, (), hcall, rfl⟩
      obtain ⟨τ, hτ⟩ := hstep
      refine ⟨.cancelSubmission, τ, rfl, hτ, ?_⟩
      cases move_of_step hτ with
      | cancelSubmission _ ho' | submissionsEnd _ ho' =>
        cases ho.symm.trans ho'
        simp [State.sweepLeft, ho, Prod.Lex.toLex_lt_toLex]
    | owned rest =>
      have hstep : ∃ τ, step cfg .cancelSnapshot σ = .ok τ := by
        simp only [step, State.cancelSnapshot, bind_eq_ok, require_eq_ok]
        cases rest <;> rw [ho] <;> exact ⟨_, (), hcall, rfl⟩
      obtain ⟨τ, hτ⟩ := hstep
      refine ⟨.cancelSnapshot, τ, rfl, hτ, ?_⟩
      cases move_of_step hτ with
      | cancelSnapshot _ ho' | snapshotEnd _ ho' =>
        cases ho.symm.trans ho'
        simp [State.sweepLeft, ho, Prod.Lex.toLex_lt_toLex]
  · have hgoes : ∃ a τ, a.ofCall .owner = true ∧ step cfg a σ = .ok τ ∧
        Call.left (τ.calls .owner) < Call.left (σ.calls .owner) := call_goes h hcrit hcall
    obtain ⟨a, τ, ha, hτ, hlt⟩ := hgoes
    refine ⟨a, τ, Action.winding_of_call (.inl rfl) ha, hτ, ?_⟩
    obtain ⟨ho, -⟩ := (move_of_step hτ).of_call ha
    refine ⟨?_, by rw [ho]; exact howner⟩
    -- Its place and its lists are the same, and the call has less left.
    unfold State.sweepLeft
    rw [ho]
    cases σ.owner <;> simp [Prod.Lex.toLex_lt_toLex, hlt]

/-- The owner thread in `shutdown_and_wait` can be brought to its wait for the driver. -/
theorem exists_waiting (h : Reachable cfg Lts.Always σ) (howner : σ.owner ≠ .idle) :
    ∃ τ, Lts.Reaches (step cfg) Winding σ τ ∧ Reachable cfg Lts.Always τ ∧ τ.owner = .waiting ∧
      τ.calls .owner = none := by
  have hprogress : ∀ τ, (Reachable cfg Lts.Always τ ∧ τ.owner ≠ .idle) →
      ¬(τ.owner = .waiting ∧ τ.calls .owner = none) →
        ∃ υ, Lts.Reaches (step cfg) Winding τ υ ∧ (Reachable cfg Lts.Always υ ∧ υ.owner ≠ .idle) ∧
          υ.sweepLeft < τ.sweepLeft := by
    rintro τ ⟨hτ, ho⟩ hwait
    obtain ⟨υ, hruns, hυ, hcrit, howner, hcalls⟩ := exists_released hτ
    rw [← howner, ← hcalls] at hwait
    obtain ⟨a, φ, hok, hstep, hlt, hφ⟩ := exists_ownerStep hυ hcrit (howner ▸ ho) hwait
    refine ⟨φ, hruns.tail hok hstep, ⟨hυ.tail trivial hstep, hφ⟩, ?_⟩
    have heq : υ.sweepLeft = τ.sweepLeft := by simp only [State.sweepLeft, howner, hcalls]
    rwa [← heq]
  obtain ⟨τ, hruns, ⟨hτ, -⟩, ho, hcall⟩ := Lts.exists_of_runs ⟨h, howner⟩ hprogress
  exact ⟨τ, hruns, hτ, ho, hcall⟩

end Nosv.IoUring
