import Nosv.IoUring.Owned

/-!
# Dropped operations

Dropping the future of an owned operation sets the cancelled flag outside the `data` mutex and then
asks the driver. Staging tests the flag inside. Whichever comes first, the operation is discarded
before submission or its context gets a cancellation, and never a second one.

`dropped_is_cancelled` says so, in every later state and across shutdown.
-/

namespace Nosv.IoUring

variable {cfg : PreparedRing} {ok : State → Action → Prop} {σ τ : State} {a : Action}

namespace Custody

variable {x y : Custody} {c : ControlId}

/-- The handler of operation `c` is queued, or was discarded before submission. -/
def Unstaged (x : Custody) (c : ControlId) : Prop :=
  (∃ op ∈ x.queue ++ x.pending, op.handler.control = c) ∨ ∃ f ∈ x.failing, f.1.control = c

/-- What a dropped operation has told the driver. -/
structure Asked (x : Custody) : Prop where
  /-- An operation's future calls the driver after `enqueue`, and to cancel itself. -/
  call : ∀ c call, x.calls c = some call →
    call = .notify ∨ call = .requestOwnedCancel c ∧ x.ops c = .dropped
  flag : ∀ c, x.ops c = .dropped → x.cancelled c = true
  /-- Once the request is over, the context of the operation has its cancellation. -/
  queued : ∀ c, x.ops c = .dropped → x.calls c ≠ some (.requestOwnedCancel c) →
    ∀ p k, x.contexts.lookup p = some k → k.holds c = true → k.cancelQueued = true

/-- A context that holds the handler of `c` is one that `request_owned_cancel` may target. -/
theorem Sound.cancellable (h : x.Sound) (hH : x.Handled) {p : Pointer} {k : OwnedCqeContext}
    (hk : x.contexts.lookup p = some k) :
    ownedCancellable c k = true ↔ k.holds c = true ∧ k.cancelQueued = false := by
  simp only [ownedCancellable, OwnedCqeContext.holds, Bool.and_eq_true, beq_iff_eq, bne_iff_ne,
    Bool.not_eq_true', Option.any_eq_true]
  constructor
  · rintro ⟨⟨hc, hlive⟩, hqueued⟩
    obtain ⟨handler, hhandler⟩ := Option.isSome_iff_exists.mp ((hH p k hk).mpr hlive)
    exact ⟨⟨handler, hhandler, (h.context p k handler hk hhandler).symm.trans hc⟩, hqueued⟩
  · rintro ⟨⟨handler, hhandler, hc⟩, hqueued⟩
    refine ⟨⟨(h.context p k handler hk hhandler).trans hc, ?_⟩, hqueued⟩
    exact (hH p k hk).mp (by rw [hhandler]; rfl)

/-- At most one context holds the handler of `c`. -/
theorem Sound.holds_unique (h : x.Sound) {p q : Pointer} {k k' : OwnedCqeContext}
    (hk : x.contexts.lookup p = some k) (hc : k.holds c = true)
    (hk' : x.contexts.lookup q = some k') (hc' : k'.holds c = true) : q = p := by
  have hb := h.balance c
  have hle : x.places c ≤ 1 := by
    split_ifs at hb <;> omega
  unfold places at hle
  exact Finmap.eq_of_count_le_one (P := fun _ k => OwnedCqeContext.holds c k) (by omega) hk hc
    hk' hc'

/-- What an operation's call may become in a step, and when. -/
theorem Asked.step_call (h : x.Asked) (hS : x.Sound) (hs : x.Step y) (c : ControlId) (call : Call)
    (hcall : y.calls c = some call) :
    call = .notify ∨ call = .requestOwnedCancel c ∧ y.ops c = .dropped := by
  -- The step leaves this call and this operation alone.
  have hkeep : ∀ {ops : ControlId → OpState}, x.calls c = some call →
      (x.ops c = .dropped → ops c = .dropped) →
      call = .notify ∨ call = .requestOwnedCancel c ∧ ops c = .dropped :=
    fun hx hops => (h.call c call hx).imp id fun hd => ⟨hd.1, hops hd.2⟩
  have hupdate : ∀ d o, (x.ops d = .dropped → o = .dropped) → x.ops c = .dropped →
      Function.update x.ops d o c = .dropped := by
    intro d o ho hc
    rw [Function.update_apply]
    split_ifs with hcd
    · exact ho (hcd ▸ hc)
    · exact hc
  -- An identifier that is not in use yet was not dropped.
  have hfresh : x.ops x.next = .dropped → False := by
    intro hd
    rw [hS.fresh _ le_rfl] at hd
    cases hd
  cases hs with
  | reject => exact hkeep hcall (hupdate _ _ fun hd => (hfresh hd).elim)
  | enqueue =>
    dsimp only at hcall
    rw [Function.update_apply] at hcall
    split_ifs at hcall with hc
    · exact .inl (Option.some.inj hcall).symm
    · exact hkeep hcall (hupdate _ _ fun hd => (hfresh hd).elim)
  | @resolve d hop =>
    refine hkeep hcall (hupdate _ _ fun hd => ?_)
    rw [hop] at hd
    cases hd
  -- The drop itself begins the call.
  | @drop d hop =>
    dsimp only at hcall
    rw [Function.update_apply] at hcall
    split_ifs at hcall with hc
    · subst hc
      exact .inr ⟨(Option.some.inj hcall).symm, Function.update_self ..⟩
    · exact hkeep hcall (hupdate _ _ fun _ => rfl)
  | @notify d =>
    dsimp only at hcall
    rw [Function.update_apply] at hcall
    split_ifs at hcall with hc
    exact hkeep hcall id
  | ask _ _ hcalls | askNone _ hcalls =>
    rcases hcalls c with hsame | ⟨hnotify, -⟩
    · exact hkeep (hsame ▸ hcall) id
    · exact .inl (Option.some.inj (hnotify.symm.trans hcall)).symm
  | discard hpop | retain hpop | stage hpop =>
    obtain ⟨-, -, -, hops, -, -, hcalls, -⟩ := hpop.keeps
    simp only [hcalls] at hcall
    exact hkeep hcall fun hd => by rw [hops]; exact hd
  | _ => exact hkeep hcall id

/-- A dropped operation keeps its flag. -/
theorem Asked.step_flag (h : x.Asked) (hs : x.Step y) (c : ControlId)
    (hc : y.ops c = .dropped) : y.cancelled c = true := by
  cases hs with
  | reject | enqueue =>
    dsimp only at hc ⊢
    rw [Function.update_apply] at hc ⊢
    split_ifs at hc ⊢
    exact h.flag c hc
  | @resolve d =>
    dsimp only at hc
    rw [Function.update_apply] at hc
    split_ifs at hc
    exact h.flag c hc
  | @drop d =>
    dsimp only at hc ⊢
    rw [Function.update_apply] at hc ⊢
    split_ifs at hc ⊢
    · rfl
    · exact h.flag c hc
  | discard hpop | retain hpop | stage hpop =>
    obtain ⟨-, -, -, hops, -, hcancelled, -, -⟩ := hpop.keeps
    simp only [hops] at hc
    simp only [hcancelled]
    exact h.flag c hc
  | _ => exact h.flag c hc

/-- A step after the request is over leaves the operation's context with its cancellation. -/
theorem Asked.step_queued (h : x.Asked) (hS : x.Sound) (hH : x.Handled) (hs : x.Step y)
    (c : ControlId) (hc : y.ops c = .dropped)
    (hcall : y.calls c ≠ some (.requestOwnedCancel c)) (p : Pointer) (k : OwnedCqeContext)
    (hk : y.contexts.lookup p = some k) (hholds : k.holds c = true) : k.cancelQueued = true := by
  -- The context was there before; it had its cancellation, or this step gave it one.
  rcases hs.context_cases hk with ⟨k', hk', -, hhandler | hnone, hqueued⟩ |
    ⟨-, op, z, hpop, hflag, hops, rfl⟩
  · have hholds' : k'.holds c = true := by
      unfold OwnedCqeContext.holds at hholds ⊢
      rwa [← hhandler]
    by_cases hbusy : x.ops c = .dropped ∧ x.calls c ≠ some (.requestOwnedCancel c)
    · exact hqueued (h.queued c hbusy.1 hbusy.2 p k' hk' hholds')
    · -- Either the operation is dropped right now, or its request ends right now.
      cases hs with
      | reject | enqueue =>
        dsimp only at hc
        rw [Function.update_apply] at hc
        split_ifs at hc with hcn
        refine absurd ⟨hc, fun hx => hcall ?_⟩ hbusy
        first
          | exact hx
          | exact (Function.update_of_ne hcn _ _).trans hx
      | @resolve d =>
        dsimp only at hc
        rw [Function.update_apply] at hc
        split_ifs at hc
        exact absurd ⟨hc, hcall⟩ hbusy
      | @drop d =>
        dsimp only at hc hcall
        rw [Function.update_apply] at hc hcall
        split_ifs at hc hcall with hcd
        · subst hcd
          exact absurd rfl hcall
        · exact absurd ⟨hc, hcall⟩ hbusy
      | @notify d hnotify =>
        refine absurd ⟨hc, fun hx => hcall ?_⟩ hbusy
        have hcd : c ≠ d := by
          rintro rfl
          rw [hnotify] at hx
          cases hx
        exact (Function.update_of_ne hcd _ _).trans hx
      | @ask d q o calls ho hcancel hcalls =>
        rcases hcalls c with hsame | ⟨-, hold⟩
        · exact absurd ⟨hc, fun hx => hcall (hsame.trans hx)⟩ hbusy
        · have hcd : d = c := by
            rcases h.call c _ hold with hd | ⟨hd, -⟩
            · cases hd
            · exact Call.requestOwnedCancel.inj hd
          subst hcd
          have ho' := (hS.cancellable hH ho).mp hcancel
          obtain rfl := hS.holds_unique ho ho'.1 hk' hholds'
          rw [Finmap.lookup_modify, if_pos rfl, ho] at hk
          cases hk
          rfl
      | @askNone d calls hnone hcalls =>
        rcases hcalls c with hsame | ⟨-, hold⟩
        · exact absurd ⟨hc, fun hx => hcall (hsame.trans hx)⟩ hbusy
        · have hcd : d = c := by
            rcases h.call c _ hold with hd | ⟨hd, -⟩
            · cases hd
            · exact Call.requestOwnedCancel.inj hd
          subst hcd
          by_contra hne
          have := hnone p k' hk'
          rw [(hS.cancellable hH hk').mpr ⟨hholds', by
            by_contra hq
            exact hne (hqueued (by simpa using hq))⟩] at this
          cases this
      | discard hpop | retain hpop | stage hpop =>
        obtain ⟨-, -, -, hops, -, -, hcalls, -⟩ := hpop.keeps
        simp only [hops] at hc
        simp only [hcalls] at hcall
        exact absurd ⟨hc, hcall⟩ hbusy
      | _ => exact absurd ⟨hc, hcall⟩ hbusy
  · rw [OwnedCqeContext.holds, hnone] at hholds
    cases hholds
  · -- A record staged just now belongs to an operation that is not dropped.
    have hcontrol : op.control = c := by
      rw [hS.pop hpop]
      simpa [OwnedCqeContext.holds, QueuedOwnedOp.boxed] using hholds
    have := h.flag c (hops ▸ hc)
    rw [← hcontrol, hflag] at this
    cases this

/-- A step keeps what dropped operations have told the driver. -/
theorem Asked.step (h : x.Asked) (hS : x.Sound) (hH : x.Handled) (hs : x.Step y) : y.Asked :=
  ⟨h.step_call hS hs, h.step_flag hs, h.step_queued hS hH hs⟩

/-- Dropped operations have told the driver in every reachable state. -/
theorem Asked.of_reachable (h : Reachable cfg ok σ) : σ.custody.Asked := by
  refine h.inv_of (I := fun σ => σ.custody.Asked) (J := fun σ => Reachable cfg ok σ)
    (fun hr => hr) ?_
    fun hσ _ hI _ hm => hI.step (.of_reachable hσ) (.of_reachable hσ) (hσ.custody_step hm)
  refine ⟨fun c call hc => ?_, fun c hc => ?_, fun c hc => ?_⟩
  all_goals cases hc

/-- A dropped operation whose request is over stays so. -/
theorem Step.dropped (hs : x.Step y) (hS : x.Sound) (hc : x.ops c = .dropped)
    (hcall : x.calls c = none) : y.ops c = .dropped ∧ y.calls c = none := by
  -- The step is about another operation.
  have hne : ∀ d, x.ops d = .queued → c ≠ d := by
    rintro d hd rfl
    rw [hc] at hd
    cases hd
  have hnext : c ≠ x.next := by
    rintro rfl
    rw [hS.fresh _ le_rfl] at hc
    cases hc
  cases hs with
  | reject => exact ⟨(Function.update_of_ne hnext _ _).trans hc, hcall⟩
  | enqueue =>
    exact ⟨(Function.update_of_ne hnext _ _).trans hc,
      (Function.update_of_ne hnext _ _).trans hcall⟩
  | resolve hop => exact ⟨(Function.update_of_ne (hne _ hop) _ _).trans hc, hcall⟩
  | drop hop =>
    exact ⟨(Function.update_of_ne (hne _ hop) _ _).trans hc,
      (Function.update_of_ne (hne _ hop) _ _).trans hcall⟩
  | @notify d =>
    refine ⟨hc, ?_⟩
    dsimp only
    rw [Function.update_apply]
    split_ifs
    · rfl
    · exact hcall
  | ask _ _ hcalls | askNone _ hcalls =>
    rcases hcalls c with hsame | ⟨-, hold⟩
    · exact ⟨hc, hsame.trans hcall⟩
    · rw [hcall] at hold
      cases hold
  | discard hpop | retain hpop | stage hpop =>
    obtain ⟨-, -, -, hops, -, -, hcalls, -⟩ := hpop.keeps
    exact ⟨(congrFun hops c).trans hc, (congrFun hcalls c).trans hcall⟩
  | _ => exact ⟨hc, hcall⟩

/-! ## Never a second cancellation -/

/-- Operation `c` has its cancellation, and no record of it is left to be staged. -/
structure Settled (x : Custody) (c : ControlId) : Prop where
  old : c < x.next
  queue : ∀ op ∈ x.queue, op.handler.control ≠ c
  pending : ∀ op ∈ x.pending, op.handler.control ≠ c
  context : ∀ p k, x.contexts.lookup p = some k → k.holds c = true → k.cancelQueued = true

/-- Once an operation has its cancellation, it stays that way. -/
theorem Settled.step (h : x.Settled c) (hs : x.Step y) : y.Settled c := by
  have hnew : ∀ op : QueuedOwnedOp, op ∈ y.queue ∨ op ∈ y.pending → op.handler.control ≠ c := by
    intro op hop
    rcases hs.queued_cases hop with hop | hop | ⟨-, hnext⟩
    · exact h.queue op hop
    · exact h.pending op hop
    · rw [hnext]
      exact Nat.ne_of_gt h.old
  refine ⟨lt_of_lt_of_le h.old (hs.ops_cases c).1, fun op hop => hnew op (.inl hop),
    fun op hop => hnew op (.inr hop), fun p k hk hholds => ?_⟩
  rcases hs.context_cases hk with ⟨k', hk', -, hhandler | hnone, hqueued⟩ |
    ⟨-, op, z, hpop, -, -, rfl⟩
  · refine hqueued (h.context p k' hk' ?_)
    unfold OwnedCqeContext.holds at hholds ⊢
    rwa [← hhandler]
  · rw [OwnedCqeContext.holds, hnone] at hholds
    cases hholds
  · have hcontrol : op.handler.control = c := by
      simpa [OwnedCqeContext.holds, QueuedOwnedOp.boxed] using hholds
    rcases hpop.mem with hop | hop
    · exact absurd hcontrol (h.queue op hop)
    · exact absurd hcontrol (h.pending op hop)

/-- An operation whose context has its cancellation has no other record. -/
theorem Sound.settled (h : x.Sound) {p : Pointer} {k : OwnedCqeContext}
    (hk : x.contexts.lookup p = some k) (hholds : k.holds c = true)
    (hqueued : k.cancelQueued = true) : x.Settled c := by
  have hb := h.balance c
  have hpos := Finmap.count_pos_of_lookup (P := fun _ k => OwnedCqeContext.holds c k) hk hholds
  have hle : x.places c + x.releases c ≤ 1 := by
    split_ifs at hb <;> omega
  unfold places at hle
  have hqueue : x.queue.countP (fun op => op.handler.control == c) = 0 := by omega
  have hpending : x.pending.countP (fun op => op.handler.control == c) = 0 := by omega
  refine ⟨?_, ?_, ?_, fun q k' hk' hc' => ?_⟩
  · by_contra hold
    rw [h.fresh c (Nat.le_of_not_lt hold)] at hb
    unfold places at hb
    simp only [OpState.accepted, Bool.false_eq_true, if_false] at hb
    omega
  · intro op hop
    simpa using List.countP_eq_zero.mp hqueue op hop
  · intro op hop
    simpa using List.countP_eq_zero.mp hpending op hop
  · obtain rfl := h.holds_unique hk hholds hk' hc'
    rw [hk] at hk'
    exact Option.some.inj hk' ▸ hqueued

end Custody

/-- How many cancellations the owned context `k` at `p` has: queued, in flight or landed. -/
def State.cancellations (σ : State) (p : Pointer) (k : OwnedCqeContext) : ℕ :=
  σ.data.ownedCancelQueue.countP (fun command => command.target == p) +
    (σ.data.ownedCancelContexts.count fun _ x => x.target == p) + if k.cancelSeen then 1 else 0

/-- An owned context has one cancellation if it was asked for, and none otherwise. -/
theorem State.cancellations_eq (hP : σ.registry.Paired) {p : Pointer} {k : OwnedCqeContext}
    (hk : σ.data.ownedContexts.lookup p = some k) :
    σ.cancellations p k = if k.cancelQueued then 1 else 0 := by
  -- The account of cancellations of `Registry.Paired` has the operation as an item.
  have hitem : σ.registry.ownedPairs.items p = some k.item := Finmap.view_of_lookup hk
  have hcommands : σ.data.ownedCancelQueue.countP (fun command => command.target == p) =
      σ.registry.ownedPairs.queue.count p := by
    rw [Registry.ownedPairs, List.count, List.countP_map]
    rfl
  have hflight : ∀ {f x}, σ.data.ownedCancelContexts.lookup f = some x → (x.target == p) = true →
      σ.registry.ownedPairs.flights f = some p := fun hx ht =>
    Registry.ownedPairs_flights.mpr ⟨_, hx, beq_iff_eq.mp ht⟩
  have hnone : (∀ f, σ.registry.ownedPairs.flights f ≠ some p) →
      (σ.data.ownedCancelContexts.count fun _ x => x.target == p) = 0 := by
    intro hf
    rw [Finmap.count_eq_zero_iff]
    intro f x hx
    by_contra ht
    exact hf f (hflight hx (by simpa using ht))
  unfold State.cancellations
  rw [hcommands]
  by_cases hopen : k.item.Open
  · obtain ⟨hasked, hlanded⟩ := hopen
    rw [if_pos (show k.cancelQueued = true from hasked),
      if_neg (by rw [show k.cancelSeen = false from hlanded]; exact Bool.false_ne_true)]
    rcases hP.owned.one_target hitem ⟨hasked, hlanded⟩ with ⟨hq, hf⟩ | ⟨hq, f, hf, honly⟩
    · rw [hq, hnone hf]
    · obtain ⟨x, hx, ht⟩ := Registry.ownedPairs_flights.mp hf
      have hone : (σ.data.ownedCancelContexts.count fun _ x => x.target == p) = 1 :=
        Finmap.count_eq_one hx (beq_iff_eq.mpr ht) fun g y hy hg => honly g (hflight hy hg)
      rw [hq, hone]
  · -- A withdrawal that is not open was never asked for, or has landed.
    obtain ⟨hq, hf⟩ := hP.owned.not_targets hitem hopen
    rw [List.count_eq_zero.mpr hq, hnone hf]
    cases hseen : k.cancelSeen with
    | true =>
      have hasked : k.cancelQueued = true := hP.owned.landed p k.item hitem hseen
      rw [if_pos rfl, if_pos hasked]
    | false =>
      have hasked : ¬ k.cancelQueued = true := fun hasked => hopen ⟨hasked, hseen⟩
      rw [if_neg Bool.false_ne_true, if_neg hasked]

/-! ## The result -/

/-- `stage_owned` discards a record of a dropped operation, whatever the SQ has room for. -/
theorem Reachable.stageOwned_dropped (h : Reachable cfg ok σ) {p : Pointer} {failed : List Failed}
    {budget : ℕ} {r : Ring} {op : QueuedOwnedOp} {x : OwnedStaging}
    (hcrit : σ.crit = some (.pass failed, .owned (budget + 1))) (hring : σ.ring = some r)
    (hpop : popOwned ⟨σ.data, σ.ownedQueue, r, failed⟩ = some (op, x))
    (hop : σ.ops op.control = .dropped) (hstep : step cfg (.stageOwned p) σ = .ok τ) :
    τ.ring = σ.ring ∧ τ.data.ownedContexts = σ.data.ownedContexts ∧
      ∃ reason, τ.crit = some (.pass (failed ++ [(op.handler, reason)]), .owned budget) := by
  -- A record of a dropped operation is discarded before it gets a slot.
  have hflag : (σ.controls op.control).cancelled = true :=
    (Custody.Asked.of_reachable h).flag op.control hop
  obtain ⟨reason, hstage⟩ := @stageOwned_cancelled cfg.supported
    (fun c => (σ.controls c).cancelled) p _ _ _ hpop hflag
  have hx : x.ring = r ∧ x.data.ownedContexts = σ.data.ownedContexts ∧ x.failed = failed := by
    rcases popOwned_cases hpop with ⟨_, _, rfl⟩ | ⟨_, _, _, rfl⟩ <;> exact ⟨rfl, rfl, rfl⟩
  cases move_of_step hstep with
  | ownedBudget hcrit' =>
    rw [hcrit] at hcrit'
    cases hcrit'
  | stageOwned hcrit' hring' _ hy =>
    rw [hcrit] at hcrit'
    cases hcrit'
    rw [hring] at hring'
    cases hring'
    rw [hstage] at hy
    cases hy
    refine ⟨?_, hx.2.1, reason, ?_⟩
    · rw [hring, hx.1]
    · simp only [if_true, hx.2.2]

/-- An operation that has its cancellation is no target of `request_owned_cancel` ever again. -/
theorem Reachable.targets_of_settled (h : Reachable cfg ok σ) {c : ControlId}
    (hc : σ.custody.Settled c) (hτ : Lts.Reaches (step cfg) ok σ τ) : τ.ownedTargets c = ∅ := by
  have hall : Reachable cfg ok τ ∧ τ.custody.Settled c := by
    refine Lts.Reaches.invariant (I := fun τ => Reachable cfg ok τ ∧ τ.custody.Settled c) hτ
      ⟨h, hc⟩ ?_
    rintro τ υ a ⟨hreach, hsettled⟩ hok hstep
    exact ⟨hreach.tail hok hstep, hsettled.step (hreach.custody_step (move_of_step hstep))⟩
  obtain ⟨hreach, hsettled⟩ := hall
  refine Finset.eq_empty_of_forall_notMem fun p hp => ?_
  simp only [State.ownedTargets, Finset.mem_filter, Option.any_eq_true] at hp
  obtain ⟨-, k, hk, hcancel⟩ := hp
  have hk' := ((Custody.Sound.of_reachable hreach).cancellable (.of_reachable hreach) hk).mp hcancel
  have := hsettled.context p k hk hk'.1
  rw [hk'.2] at this
  cases this

/-- What a drop that has returned guarantees in a later state. -/
structure State.Withdraws (cfg : PreparedRing) (c : ControlId) (σ : State) : Prop where
  /-- Unless it is over, the operation waits unstaged with its flag set, or its context has one
  cancellation. -/
  cancelled : σ.custody.releases c = 0 →
    (σ.custody.Unstaged c ∧ (σ.controls c).cancelled = true) ∨
      ∃ p k, σ.data.ownedContexts.lookup p = some k ∧ k.holds c = true ∧
        k.cancelQueued = true ∧ σ.cancellations p k = 1
  /-- If it is unstaged, the step that takes it fails it and pushes nothing. -/
  discarded : ∀ p τ failed budget r op x, op.control = c →
    σ.crit = some (.pass failed, .owned (budget + 1)) → σ.ring = some r →
    popOwned ⟨σ.data, σ.ownedQueue, r, failed⟩ = some (op, x) →
    step cfg (.stageOwned p) σ = .ok τ →
    τ.ring = σ.ring ∧ τ.data.ownedContexts = σ.data.ownedContexts ∧
      ∃ reason, τ.crit = some (.pass (failed ++ [(op.handler, reason)]), .owned budget)

/-- Where the handler of an operation that is not over is. -/
theorem Custody.Sound.unstaged_or_holds {x : Custody} (h : x.Sound) {c : ControlId}
    (hc : (x.ops c).accepted = true) (hrel : x.releases c = 0) :
    x.Unstaged c ∨ ∃ p k, x.contexts.lookup p = some k ∧ k.holds c = true := by
  have hb := h.balance c
  rw [hc, hrel, if_pos rfl] at hb
  by_contra hnot
  obtain ⟨hun, hctx⟩ := not_or.mp hnot
  have hmem : ∀ op ∈ x.queue ++ x.pending, ¬ (op.handler.control == c) = true :=
    fun op hop ho => hun (.inl ⟨op, hop, beq_iff_eq.mp ho⟩)
  have hqueue : x.queue.countP (fun op => op.handler.control == c) = 0 :=
    List.countP_eq_zero.mpr fun op hop => hmem op (List.mem_append_left _ hop)
  have hpending : x.pending.countP (fun op => op.handler.control == c) = 0 :=
    List.countP_eq_zero.mpr fun op hop => hmem op (List.mem_append_right _ hop)
  have hfailing : x.failing.countP (fun f => f.1.control == c) = 0 :=
    List.countP_eq_zero.mpr fun f hf ho => hun (.inr ⟨f, hf, beq_iff_eq.mp ho⟩)
  have hcontexts : (x.contexts.count fun _ k => k.holds c) = 0 := by
    rw [Finmap.count_eq_zero_iff]
    intro p k hk
    by_contra hholds
    exact hctx ⟨p, k, hk, by simpa using hholds⟩
  unfold Custody.places at hb
  omega

/-- Once the drop of an owned operation has returned, the operation is over, or will be discarded
before submission, or has exactly one cancellation; and no operation ever gets a second one. -/
theorem dropped_is_cancelled (h : Reachable cfg ok σ) :
    (∀ c, σ.ops c = .dropped → σ.calls (.op c) = none →
      ∀ τ, Lts.Reaches (step cfg) ok σ τ → τ.Withdraws cfg c) ∧
    (∀ p k, σ.data.ownedContexts.lookup p = some k → σ.cancellations p k ≤ 1) ∧
    ∀ b p c τ, σ.calls b = some (.requestOwnedCancel c) → ok σ (.sweepOwned b (some p)) →
      step cfg (.sweepOwned b (some p)) σ = .ok τ →
      ∀ υ, Lts.Reaches (step cfg) ok τ υ → υ.ownedTargets c = ∅ := by
  refine ⟨fun c hc hcall τ hτ => ?_, fun p k hk => ?_, fun b p c τ hcall hok hstep υ hυ => ?_⟩
  · -- An operation stays dropped, and its caller's call stays over.
    have hall : Reachable cfg ok τ ∧ τ.ops c = .dropped ∧ τ.calls (.op c) = none := by
      refine Lts.Reaches.invariant
        (I := fun τ => Reachable cfg ok τ ∧ τ.ops c = .dropped ∧ τ.calls (.op c) = none) hτ
        ⟨h, hc, hcall⟩ ?_
      rintro τ υ a ⟨hreach, hops, hnone⟩ hok hstep
      exact ⟨hreach.tail hok hstep, (hreach.custody_step (move_of_step hstep)).dropped
        (.of_reachable hreach) hops hnone⟩
    obtain ⟨hreach, hops, hnone⟩ := hall
    have hS := Custody.Sound.of_reachable hreach
    have hA := Custody.Asked.of_reachable hreach
    refine ⟨fun hrel => ?_, fun p υ failed budget r op x hop hcrit hring hpop hstep =>
      hreach.stageOwned_dropped hcrit hring hpop (hop ▸ hops) hstep⟩
    have haccepted : (τ.custody.ops c).accepted = true := by
      rw [show τ.custody.ops c = _ from hops]
      rfl
    rcases hS.unstaged_or_holds haccepted hrel with hun | ⟨p, k, hk, hholds⟩
    · -- Still in a queue it has its flag; pushed, its cancellation was asked for.
      exact .inl ⟨hun, hA.flag c hops⟩
    · have hqueued := hA.queued c hops
        (by rw [show τ.custody.calls c = _ from hnone]; simp) p k hk hholds
      refine .inr ⟨p, k, hk, hholds, hqueued, ?_⟩
      rw [State.cancellations_eq (.of_reachable hreach) hk, if_pos hqueued]
  · rw [State.cancellations_eq (.of_reachable h) hk]
    split_ifs
    · exact le_rfl
    · exact Nat.zero_le 1
  · -- After one request there is nothing left to ask for, in any later state.
    have hτ := h.tail hok hstep
    refine Reachable.targets_of_settled hτ ?_ hυ
    cases move_of_step hstep with
    | sweepOwned hcall' _ ht =>
      rw [hcall] at hcall'
      cases hcall'
      simp only [State.ownedTargets, Finset.mem_filter, Option.any_eq_true] at ht
      obtain ⟨-, k, hk, hcancel⟩ := ht
      have hholds :=
        (((Custody.Sound.of_reachable h).cancellable (.of_reachable h) hk).mp hcancel).1
      refine (Custody.Sound.of_reachable hτ).settled (p := p)
        (k := { k with cancelQueued := true }) ?_ hholds rfl
      change (σ.data.ownedContexts.modify p _).lookup p = _
      rw [Finmap.lookup_modify, if_pos rfl, hk]
      rfl

/-- The future of an operation that the kernel has accepted is dropped. -/
def droppedOperation : List Action :=
  stagedOperation ++ [.dropOwned 0, .sweepOwned (.op 0) (some 10), .notify (.op 0)]

/-- The context of a dropped operation has a cancellation, and will never have another. -/
theorem dropped_is_cancelled_tiny :
    ∃ σ, Reachable .tiny Lts.Always σ ∧ σ.data.ownedCancelQueue = [⟨10⟩] ∧
      ∀ τ, Lts.Reaches (step .tiny) Lts.Always σ τ → τ.Withdraws .tiny 0 := by
  have hrun : (Lts.exec (step .tiny) Lts.Always droppedOperation (.init .tiny)).any
      (fun σ => σ.ops 0 = .dropped ∧ σ.calls (.op 0) = none ∧
        σ.data.ownedCancelQueue = [⟨10⟩]) = true := by decide
  obtain ⟨σ, hσ, hops, hcall, hqueue⟩ := Lts.exists_of_exec hrun
  exact ⟨σ, hσ, hqueue, (dropped_is_cancelled hσ).1 0 hops hcall⟩

end Nosv.IoUring
