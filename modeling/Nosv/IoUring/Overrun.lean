import Nosv.IoUring.Admission
import Nosv.IoUring.Releasing
import Nosv.IoUring.Revoked

/-!
# Admission after an overflow

Only a CQE that finds its buffer full closes the delivery of a submission whose future can still
admit, and a later poll of that future goes through `admit` as before.

* `Severed`: every other way to close delivery keeps the future away from `admit`.
* `closed_stages_nothing`: in runs whose polls bring no item to the push after an overflow, nothing
  is staged once delivery has closed; a poll that does bring one stages it.
* `closed_stages_item`: such a poll exists.
-/

namespace Nosv.IoUring

variable {cfg : PreparedRing} {ok : State → Action → Prop} {σ τ : State} {a : Action} {s : SubId}

/-! ## What closes delivery -/

/-- Whether the caller has, or is about to make, a future that goes to `admit`. -/
def Role.opens : Role → Bool
  | .unborn | .created => true
  | .submit fut => !fut.closed
  | .stream | .cancellation | .gone => false

namespace View.Step

variable {x y : View}

/-- A caller with an open future before it had one after, or was about to make one. -/
theorem opens (hs : x.Step s a y) (hy : y.client.role.opens = true) :
    x.client.role.opens = true := by
  cases hs
  case other hclient _ _ _ _ _ => rwa [← hclient]
  case register hrole | opened hrole => rw [hrole]; rfl
  case submitPending hrole _ _ hclosed _ _ => rw [hrole]; simp [Role.opens, hclosed]
  case iteratorSome hrole _ _ | staged hrole _ => rwa [hrole]
  case submitFailed | submitOk | dropSubmit | cancelStream | dropStream | dropCancellation =>
    cases hy
  all_goals exact hy

/-- A future made closed was there before, or its delivery has just been closed. -/
theorem closed_future (hs : x.Step s a y) {fut : SubmitEntries}
    (hy : y.client.role = .submit fut) (hclosed : fut.closed = true) :
    (∃ fut', x.client.role = .submit fut' ∧ fut'.closed = true) ∨
      y.inner.delivery = .cancelling := by
  cases hs
  case other hclient _ _ _ _ _ => exact .inl ⟨fut, hclient ▸ hy, hclosed⟩
  case opened =>
    cases hy
    exact .inr (by rw [if_pos hclosed])
  case iteratorSome hrole _ _ | staged hrole _ | submitPending hrole _ _ _ _ _ =>
    cases hy
    exact .inl ⟨_, hrole, hclosed⟩
  case register | submitFailed | submitOk | dropSubmit | cancelStream | dropStream |
      dropCancellation => cases hy
  all_goals exact .inl ⟨fut, hy, hclosed⟩

/-- Delivery is closed by a future made closed, by an overflow, by a `request_cancel` of the caller
or of the owner thread, and by dropping the `Cancellation`. -/
theorem delivery (hs : x.Step s a y) (hne : y.inner.delivery ≠ x.inner.delivery) :
    (y.inner.delivery = .cancelling ∧ y.client.role.opens = false) ∨
      (a = .dispatch ∧ x.inner.delivery = .opened ∧ y.inner.delivery = .overflow) ∨
      (∃ d, x.call = some (.requestCancel .close s d) ∧ y.inner.delivery = d) ∨
      (x.owner = some (.requestCancel .close s .detached) ∧ y.inner.delivery = .detached) ∨
      (x.client.role = .cancellation ∧ y.inner.delivery = .detached) := by
  -- Polls of the stream and of the cancellation leave delivery as it is.
  cases hs
  case other hinner _ _ _ _ _ _ _ => exact absurd (by rw [hinner]) hne
  case opened c _ =>
    cases c with
    | true => exact .inl ⟨rfl, rfl⟩
    | false => exact absurd rfl hne
  case nextReady w _ _ _ hnext =>
    exact absurd (by simpa only [hnext] using nextCompletion_delivery w x.inner) hne
  case nextPending w _ _ hnext =>
    exact absurd (by simpa only [hnext] using nextCompletion_delivery w x.inner) hne
  case cancellationReady w _ _ _ _ hnext =>
    exact absurd (by simpa only [hnext] using nextCancellation_delivery w x.inner) hne
  case cancellationPending w _ _ _ hnext =>
    exact absurd (by simpa only [hnext] using nextCancellation_delivery w x.inner) hne
  case close d hx =>
    dsimp only at hne ⊢
    rw [closeDelivery_delivery] at hne ⊢
    split_ifs at hne ⊢
    · exact .inr (.inr (.inl ⟨d, hx, rfl⟩))
    · exact absurd rfl hne
  case ownerClose hx =>
    exact .inr (.inr (.inr (.inl ⟨hx, by simp [closeDelivery_delivery]⟩)))
  case dropCancellation hrole _ => exact .inr (.inr (.inr (.inr ⟨hrole, rfl⟩)))
  case wakeAdmission => exact absurd (wakeUnfinished_delivery _) hne
  case original =>
    rw [dispatchOriginal_inner] at hne ⊢
    dsimp only at hne ⊢
    split_ifs at hne ⊢ with hfull
    · simp only [overflows, Bool.and_eq_true, decide_eq_true_eq] at hfull
      exact .inr (.inl ⟨rfl, hfull.1.1, rfl⟩)
    · exact absurd rfl hne
  case cancel => exact absurd (dispatchCancel_delivery _ _ _) hne
  all_goals exact absurd rfl hne

/-- A caller that still has its future begins a `request_cancel` in a poll of it. -/
theorem refused (hs : x.Step s a y) (hf : x.client.Fits s x.call x.admits) {fut : SubmitEntries}
    (hy : y.client.role = .submit fut) (hcall : Call.target? y.call ≠ none) :
    (∃ fut', x.client.role = .submit fut') ∧ Call.target? x.call ≠ none ∨
      ∃ w, a = .pollSubmit s w := by
  -- A call that is under way was so before, or begins in this poll.
  cases hs
  case other hclient hx _ _ _ _ => exact .inl ⟨⟨fut, hclient ▸ hy⟩, hx ▸ hcall⟩
  case pollCheck | pollAdmit => exact .inr ⟨_, rfl⟩
  case register | submitFailed | submitOk | dropSubmit | cancelStream | dropStream |
      dropCancellation => cases hy
  case submitPending | notify => exact absurd rfl hcall
  case close hx => exact .inl ⟨⟨fut, hy⟩, by rw [hx]; exact Option.some_ne_none _⟩
  case sweep hsweep =>
    rcases hsweep with rfl | ⟨-, rfl⟩
    · exact .inl ⟨⟨fut, hy⟩, hcall⟩
    · exact absurd rfl hcall
  case admitEnd hcall' =>
    rcases hcall' with rfl | rfl <;> exact absurd rfl hcall
  case iteratorSome hrole _ _ | staged hrole _ => exact .inl ⟨⟨_, hrole⟩, hcall⟩
  case opened hrole =>
    dsimp only at hcall
    rw [(hf.of_created hrole).2.1] at hcall
    exact absurd rfl hcall
  all_goals exact .inl ⟨⟨fut, hy⟩, hcall⟩

end View.Step

/-- Before there is a future its caller is in no call. -/
theorem Client.Fits.of_early {c : Client} {call : Option Call} {admits : Bool}
    (h : c.Fits s call admits) (hr : c.role = .unborn ∨ c.role = .created) : call = none := by
  rcases hr with hr | hr <;> cases hp : c.pc <;> simp_all [Client.Fits]

/-- A caller closes or detaches delivery. -/
theorem Client.Fits.delivery_eq {c : Client} {call : Option Call} {admits : Bool} {st : CancelStage}
    {t : SubId} {d : Delivery} (h : c.Fits s call admits)
    (hcall : call = some (.requestCancel st t d)) : d = .cancelling ∨ d = .detached := by
  subst hcall
  unfold Client.Fits Call.Cancels at h
  split at h <;> simp_all

/-- Where the delivery of submission `s` can be while its caller has, or is about to make, a
future. -/
structure Severed (σ : State) (s : SubId) : Prop where
  /-- Until shutdown is raised, only an overflow closes the delivery of a future made open. -/
  live : (σ.clients s).role.opens = true → (σ.subs s).inner.delivery = .opened ∨
    (σ.subs s).inner.delivery = .overflow ∨ σ.data.shutdown = true
  /-- A future made closed finds its delivery closed otherwise. -/
  late : ∀ fut, (σ.clients s).role = .submit fut → fut.closed = true →
    (σ.subs s).inner.delivery ≠ .opened ∧ (σ.subs s).inner.delivery ≠ .overflow
  /-- No poll of a future closes delivery before shutdown is raised. -/
  refused : ∀ fut, (σ.clients s).role = .submit fut →
    Call.target? (σ.calls (.client s)) ≠ none → σ.data.shutdown = true

namespace Severed

/-- A poll that closes delivery was refused, so shutdown has been raised. -/
theorem of_poll {w : Waker} (hS : Stopping σ) (hm : Move cfg σ (.pollSubmit s w) τ)
    (hcall : Call.target? (τ.calls (.client s)) ≠ none) : τ.data.shutdown = true := by
  cases hm with
  | pollRefused _ _ _ _ _ haccepting =>
    show σ.data.shutdown = true
    have hshutdown := hS.accepting
    rw [haccepting] at hshutdown
    simpa using hshutdown.symm
  | pollClosed _ _ hnone => exact absurd (congrArg Call.target? hnone) hcall
  | pollAdmit _ _ hnone => exact absurd (congrArg Call.target? hnone) hcall
  | pollDeferred => exact absurd (by simp [State.setCall, Call.target?]) hcall

/-- A `request_cancel` closes the delivery of an open future after the raise. -/
theorem of_call (h : Severed σ s) (hf : (σ.clients s).Fits s (σ.calls (.client s)) (σ.admits s))
    (hopens : (σ.clients s).role.opens = true) {st : CancelStage} {d : Delivery}
    (hcall : σ.calls (.client s) = some (.requestCancel st s d)) : σ.data.shutdown = true := by
  cases hrole : (σ.clients s).role with
  | submit fut => exact h.refused fut hrole (by rw [hcall]; exact Option.some_ne_none _)
  | unborn | created =>
    rw [hf.of_early (by simp [hrole])] at hcall
    cases hcall
  | stream | cancellation | gone =>
    rw [hrole] at hopens
    cases hopens

/-- The owner thread makes its calls after the raise. -/
theorem of_owner (hσ : Reachable cfg ok σ) (howner : σ.calls .owner ≠ none) :
    σ.data.shutdown = true := by
  apply (Sweeping.of_reachable hσ).raised
  by_contra hraised
  exact howner ((Revoked.of_reachable hσ).outside (by simpa using hraised))

/-- A step closes the delivery of an open future by an overflow, or after the raise. -/
theorem live_step (h : Severed σ s) (hσ : Reachable cfg ok σ) (hstep : step cfg a σ = .ok τ)
    (hopens : (τ.clients s).role.opens = true) : (τ.subs s).inner.delivery = .opened ∨
      (τ.subs s).inner.delivery = .overflow ∨ τ.data.shutdown = true := by
  have hm := move_of_step hstep
  have hs : (σ.view s).Step s a (τ.view s) := hσ.view_step hstep s
  have hx : (σ.clients s).role.opens = true := hs.opens hopens
  -- Of the five ways to close delivery the first and the last leave no open future.
  by_cases heq : (τ.view s).inner.delivery = (σ.view s).inner.delivery
  · rw [show (τ.subs s).inner.delivery = (σ.subs s).inner.delivery from heq]
    exact (h.live hx).imp_right (Or.imp_right hm.shutdown_mono)
  · rcases hs.delivery heq with ⟨-, hno⟩ | ⟨-, -, hover⟩ | ⟨d, hcall, -⟩ | ⟨howner, -⟩ | ⟨hrole, -⟩
    · rw [show (τ.clients s).role.opens = false from hno] at hopens
      cases hopens
    · exact .inr (.inl hover)
    · have hshutdown := h.of_call ((Threads.of_reachable hσ).fits s) hx hcall
      exact .inr (.inr (hm.shutdown_mono hshutdown))
    · have howner : σ.calls .owner ≠ none := by
        rw [show σ.calls .owner = _ from howner]
        exact Option.some_ne_none _
      exact .inr (.inr (hm.shutdown_mono (of_owner hσ howner)))
    · rw [show (σ.clients s).role = _ from hrole] at hx
      cases hx

/-- A delivery that is closed otherwise than by an overflow stays so. -/
theorem delivery_step (hσ : Reachable cfg ok σ) (hstep : step cfg a σ = .ok τ)
    (hopened : (σ.subs s).inner.delivery ≠ .opened)
    (hoverflow : (σ.subs s).inner.delivery ≠ .overflow) :
    (τ.subs s).inner.delivery ≠ .opened ∧ (τ.subs s).inner.delivery ≠ .overflow := by
  have hs : (σ.view s).Step s a (τ.view s) := hσ.view_step hstep s
  by_cases heq : (τ.view s).inner.delivery = (σ.view s).inner.delivery
  · rw [show (τ.subs s).inner.delivery = (σ.subs s).inner.delivery from heq]
    exact ⟨hopened, hoverflow⟩
  · have hd : (τ.subs s).inner.delivery = .cancelling ∨
        (τ.subs s).inner.delivery = .detached := by
      rcases hs.delivery heq with ⟨hd, -⟩ | ⟨-, hx, -⟩ | ⟨d, hcall, hd⟩ | ⟨-, hd⟩ | ⟨-, hd⟩
      · exact .inl hd
      · exact absurd hx hopened
      · rw [show (τ.subs s).inner.delivery = d from hd]
        exact ((Threads.of_reachable hσ).fits s).delivery_eq hcall
      · exact .inr hd
      · exact .inr hd
    rcases hd with hd | hd <;> simp [hd]

/-- Every step keeps closed what `Severed` says is. -/
theorem step (h : Severed σ s) (hσ : Reachable cfg ok σ) (hstep : step cfg a σ = .ok τ) :
    Severed τ s := by
  have hm := move_of_step hstep
  have hs : (σ.view s).Step s a (τ.view s) := hσ.view_step hstep s
  refine ⟨h.live_step hσ hstep, fun fut hrole hclosed => ?_, fun fut hrole hcall => ?_⟩
  · rcases hs.closed_future hrole hclosed with ⟨fut', hrole', hclosed'⟩ | hd
    · obtain ⟨hopened, hoverflow⟩ := h.late fut' hrole' hclosed'
      exact delivery_step hσ hstep hopened hoverflow
    · rw [show (τ.subs s).inner.delivery = _ from hd]
      decide
  · rcases hs.refused ((Threads.of_reachable hσ).fits s) hrole hcall with
      ⟨⟨fut', hrole'⟩, hcall'⟩ | ⟨w, rfl⟩
    · exact hm.shutdown_mono (h.refused fut' hrole' hcall')
    · exact of_poll (.of_reachable hσ) hm hcall

/-- What closes a delivery is as `Severed` says in every reachable state. -/
theorem of_reachable (h : Reachable cfg ok σ) (s : SubId) : Severed σ s := by
  have hboth : Reachable cfg ok σ ∧ Severed σ s := by
    refine Lts.Reaches.invariant (I := fun σ => Reachable cfg ok σ ∧ Severed σ s) h
      ⟨.refl, ?_⟩ fun σ τ a hI hok hstep => ⟨hI.1.tail hok hstep, hI.2.step hI.1 hstep⟩
    exact ⟨fun _ => .inl rfl, fun fut hrole => (by cases hrole), fun fut hrole => (by cases hrole)⟩
  exact hboth.2

end Severed

/-- A future that is in `admit` although its delivery is closed has lost it by an overflow. -/
theorem overflow_of_admits (h : Reachable cfg ok σ) (hadmits : σ.admits s = true)
    (hd : (σ.subs s).inner.delivery ≠ .opened) : (σ.subs s).inner.delivery = .overflow := by
  obtain ⟨⟨fut, hrole, hclosed⟩, -⟩ := ((Threads.of_reachable h).fits s).of_admits hadmits
  have hopens : (σ.clients s).role.opens = true := by simp [hrole, Role.opens, hclosed]
  rcases (Severed.of_reachable h s).live hopens with hopened | hoverflow | hshutdown
  · exact absurd hopened hd
  · exact hoverflow
  · rw [Sealed.of_reachable h hshutdown s] at hadmits
    cases hadmits

/-! ## Room in the SQ -/

/-- The SQ has no free slot. -/
def State.full (σ : State) : Bool := σ.ring.all fun r => r.entries ≤ r.sq.length

/-- The SQ has no slot to spare for anything but the queued cancellations. -/
def State.crowded (σ : State) : Bool :=
  σ.ring.all fun r => r.entries ≤ r.sq.length + σ.data.cancelQueue.length

/-- The `admit` that holds the mutex finds no slot for the item in hand, so far as it still has to
look for one. -/
def State.tight (σ : State) : Bool :=
  match σ.crit with
  | some (_, .cancels) => σ.crowded
  | some (_, .originals) => σ.full
  | _ => true

/-- Whoever holds the mutex makes no room for the item in hand. -/
theorem Move.tight (hm : Move cfg σ a τ) (hcrit : σ.crit ≠ none) (hσ : σ.tight = true) :
    τ.tight = true := by
  have hfree : σ.crit = none → False := hcrit
  cases hm
  case kernelPost hring _ _ =>
    simpa only [State.tight, State.crowded, State.full, hring, Option.all_some] using hσ
  case stageCancellation holder r p y hc hring hfresh hstage =>
    simp only [State.tight, hc, State.crowded, hring, Option.all_some, decide_eq_true_eq] at hσ
    rcases stageCancellation_cases hstage with rfl | ⟨command, rest, hqueue, -, rfl⟩
    · -- The loop has ended: there is no command left, or no slot.
      cases holder with
      | pass => rfl
      | admission =>
        simp only [State.tight, State.afterCancels, State.full, Option.all_some,
          Bool.false_eq_true, if_false, decide_eq_true_eq]
        rcases stageCancellation_stops hstage with hnil | hfull
        · simpa [hnil] using hσ
        · exact hfull
    · simp only [State.tight, State.crowded, if_true, Option.all_some, decide_eq_true_eq,
        List.length_append, List.length_singleton]
      rw [hqueue, List.length_cons] at hσ
      omega
  case stageOwnedCancellation y _ _ _ _ | stageOwned y _ _ _ _ =>
    cases y.1 <;> simp [State.tight]
  case originalStaged hc _ _ hring _ hstage =>
    simp only [State.tight, hc, State.full, hring, Option.all_some, decide_eq_true_eq] at hσ
    obtain ⟨hlt, rfl⟩ := stageOriginal_staged hstage
    omega
  case registerSubmission hc | pollRefused hc _ | pollDeferred hc _ _ | pollAdmit hc _ _ _ |
      sweep hc _ _ | sweepOwned hc _ | sweepOwnedNone hc _ | passBegin hc _ | reap hc _ |
      dispatch hc _ | decideStop hc _ _ | decide hc _ _ _ | takeRing hc | raiseShutdown hc _ _ =>
    exact (hfree hc).elim
  all_goals first | exact hσ | rfl

/-! ## Polls after an overflow -/

/-- The action brings an item of submission `s` to the push of `admit`: a poll of the future that is
neither refused nor deferred, with an item in hand for which there will be a slot; or the iterator
yielding one while there is a slot. -/
def Action.brings (s : SubId) (σ : State) : Action → Bool
  | .pollSubmit t _ =>
    t == s && σ.inHand s && σ.data.accepting && !σ.ownedWork && !σ.crowded
  | .iteratorNext (some _) => σ.admits s && !σ.full
  | _ => false

/-- Once the delivery of submission `s` has overflowed, no item of it is brought to the push. -/
def HoldsBack (s : SubId) (σ : State) (a : Action) : Prop :=
  (σ.subs s).inner.delivery = .overflow → a.brings s σ = false

instance (s : SubId) (σ : State) (a : Action) : Decidable (HoldsBack s σ a) :=
  inferInstanceAs (Decidable (_ → _))

/-- An item that is in hand after a step was so before, or has just been yielded. -/
theorem View.Step.hand {x y : View} (hs : x.Step s a y)
    (hy : (y.client.role.fut?.bind (·.pending)).isSome = true) :
    (x.client.role.fut?.bind (·.pending)).isSome = true ∨
      x.admits = true ∧ ∃ e, a = .iteratorNext (some e) := by
  cases hs
  case other hclient _ _ _ _ _ => exact .inl (hclient ▸ hy)
  case iteratorSome entry hadmits _ _ _ => exact .inr ⟨hadmits, entry, rfl⟩
  case submitPending hrole _ _ _ _ _ => exact .inl (by rw [hrole]; exact hy)
  case register | opened | submitFailed | submitOk | dropSubmit | cancelStream | dropStream |
      dropCancellation | staged => cases hy
  all_goals exact .inl hy

/-- Where an overflow finds an item of submission `s` in the hand of `admit`, there is no slot for
it. -/
def Crammed (s : SubId) (σ : State) : Prop :=
  σ.admits s = true → (σ.subs s).inner.delivery = .overflow → σ.inHand s = true →
    σ.tight = true

/-- The driver dispatches nothing while `admit` holds the mutex, so the overflow it finds is an old
one. -/
theorem overflow_old (hσ : Reachable cfg ok σ) (hstep : step cfg a σ = .ok τ)
    (hcrit : σ.crit ≠ none) (hoverflow : (τ.subs s).inner.delivery = .overflow) :
    (σ.subs s).inner.delivery = .overflow := by
  have hs : (σ.view s).Step s a (τ.view s) := hσ.view_step hstep s
  have hy : (τ.view s).inner.delivery = .overflow := hoverflow
  by_contra hne
  rcases hs.delivery fun heq => hne (heq.symm.trans hy) with
    ⟨hd, -⟩ | ⟨rfl, -, -⟩ | ⟨d, hcall, hd⟩ | ⟨-, hd⟩ | ⟨-, hd⟩
  · rw [hy] at hd
    cases hd
  · cases move_of_step hstep with
    | dispatchEnd => exact hne hoverflow
    | dispatch _ _ hnone => exact hcrit hnone
  · rw [hy] at hd
    rcases ((Threads.of_reachable hσ).fits s).delivery_eq hcall with rfl | rfl <;> cases hd
  all_goals
    rw [hy] at hd
    cases hd

/-- A poll that holds back goes to `admit` with nothing in hand, or there is no slot. -/
theorem Crammed.of_poll {w : Waker} (hok : HoldsBack s σ (.pollSubmit s w))
    (hm : Move cfg σ (.pollSubmit s w) τ) (hx : σ.admits s = false) : Crammed s τ := by
  intro hadmits hoverflow hhand
  cases hm with
  | pollAdmit hfut _ _ _ _ haccepting howned =>
    have hin : σ.inHand s = true := by
      simpa [State.inHand, State.setClient] using hhand
    have hcrowded : σ.crowded = true := by
      simpa [Action.brings, hin, haccepting, howned] using hok hoverflow
    exact hcrowded
  | pollClosed | pollRefused | pollDeferred => exact absurd (hx.symm.trans hadmits) (by simp)

/-- A step that holds back keeps items of an overflowed submission from finding a slot. -/
theorem Crammed.step (h : Crammed s σ) (hσ : Reachable cfg ok σ) (hok : HoldsBack s σ a)
    (hstep : step cfg a σ = .ok τ) : Crammed s τ := by
  have hm := move_of_step hstep
  have hs : (σ.view s).Step s a (τ.view s) := hσ.view_step hstep s
  by_cases hx : σ.admits s = true
  · intro hadmits hoverflow hhand
    have hcrit : σ.crit ≠ none := fun hnone => by
      rw [State.admits_of_free hnone] at hx
      cases hx
    have hold := overflow_old hσ hstep hcrit hoverflow
    rcases hs.hand hhand with hin | ⟨-, e, rfl⟩
    · exact hm.tight hcrit (h hx hold hin)
    · -- The iterator yielded, so there was no slot.
      have hfull : σ.full = true := by simpa [Action.brings, hx] using hok hold
      cases hm with
      | iteratorSome hc =>
        have htight : σ.tight = true := by simpa [State.tight, hc] using hfull
        exact htight
  · intro hadmits
    rcases hs.admits hadmits with hx' | ⟨w, rfl⟩
    · exact absurd hx' hx
    · exact Crammed.of_poll hok hm (by simpa using hx) hadmits

/-- Items of an overflowed submission find no slot in a run that holds back. -/
theorem Crammed.of_reachable (h : Reachable cfg (HoldsBack s) σ) : Crammed s σ := by
  have hboth : Reachable cfg (HoldsBack s) σ ∧ Crammed s σ := by
    refine Lts.Reaches.invariant (I := fun σ => Reachable cfg (HoldsBack s) σ ∧ Crammed s σ) h
      ⟨.refl, fun hadmits => (by cases hadmits)⟩
      fun σ τ a hI hok hstep => ⟨hI.1.tail hok hstep, hI.2.step hI.1 hok hstep⟩
  exact hboth.2

/-! ## What a poll that does not hold back stages -/

/-- The steps of `admit` that push: a queued cancellation, or the item in hand. -/
def Action.pushes : Action → Bool
  | .stageCancellation _ | .stageOriginal _ => true
  | _ => false

/-- Nobody else takes a step. -/
def Pushing (_ : State) (a : Action) : Prop := a.pushes = true

/-- An original is staged by a push that has an item in hand and finds a slot. -/
theorem staged_of_originals (h : Reachable cfg ok σ) (hstep : step cfg a σ = .ok τ)
    (hne : (τ.subs s).inner.originals ≠ (σ.subs s).inner.originals) :
    σ.admits s = true ∧ σ.inHand s = true ∧ σ.tight = false := by
  rcases (h.view_step hstep s).originals with hsame | ⟨hadmits, -, p, rfl⟩
  · exact absurd hsame hne
  · have hadmits : σ.admits s = true := hadmits
    refine ⟨hadmits, ?_⟩
    cases move_of_step hstep with
    | originalFull => exact absurd rfl hne
    | @originalStaged t w n fut item r p y hcrit hfut hpending hring _ hstage =>
      obtain rfl : t = s := by
        simpa [State.admits_of_crit hcrit, Holder.admits] using hadmits
      obtain ⟨hlt, -⟩ := stageOriginal_staged hstage
      refine ⟨by simp [State.inHand, hfut, hpending], ?_⟩
      simpa [State.tight, hcrit, State.full, hring] using hlt

/-- `admit` stages the item in hand when there is a slot. -/
theorem exists_staged (h : Reachable cfg ok σ) {w : Waker} {n : Bool}
    (hcrit : σ.crit = some (.admission s w n, .originals)) (hin : σ.inHand s = true)
    (hfull : σ.full = false) :
    ∃ p τ, step cfg (.stageOriginal p) σ = .ok τ ∧
      (τ.subs s).inner.originals = (σ.subs s).inner.originals + 1 := by
  obtain ⟨p, τ, hτ⟩ := stageOriginal_goes h hcrit hin
  refine ⟨p, τ, hτ, ?_⟩
  cases move_of_step hτ with
  | @originalFull _ _ _ _ _ _ r _ _ _ _ hring hstage =>
    have hlt : r.sq.length < r.entries := by simpa [State.full, hring] using hfull
    exact absurd hlt (Nat.not_lt.mpr (stageOriginal_full_length hstage))
  | originalStaged hcrit' _ _ _ _ hstage =>
    cases hcrit.symm.trans hcrit'
    obtain ⟨-, rfl⟩ := stageOriginal_staged hstage
    simp

/-- An `admit` that has begun with an item in hand, and will have a slot for it, comes to stage
it. -/
theorem exists_pushed (h : Reachable cfg Lts.Always σ) {w : Waker} {n : Bool}
    (hcrit : σ.crit = some (.admission s w n, .cancels)) (hin : σ.inHand s = true)
    (hcrowded : σ.crowded = false) :
    ∃ τ, Lts.Reaches (step cfg) Pushing σ τ ∧
      (τ.subs s).inner.originals = (σ.subs s).inner.originals + 1 := by
  -- The commands are staged first, one after the other.
  induction hqueue : σ.data.cancelQueue generalizing σ with
  | nil =>
    obtain ⟨p, τ, hτ⟩ := stageCancellation_goes h hcrit
    have hruns : Lts.Reaches (step cfg) Pushing σ τ :=
      .tail .refl (show Pushing σ (.stageCancellation p) from rfl) hτ
    have hreach : Reachable cfg Lts.Always τ := h.tail trivial hτ
    cases move_of_step hτ with
    | @stageCancellation holder r p y hcrit' hring hfresh hy =>
      cases hcrit.symm.trans hcrit'
      rcases stageCancellation_cases hy with rfl | ⟨command, rest, hcons, -⟩
      · have hfull : σ.full = false := by
          simpa [State.crowded, State.full, hqueue] using hcrowded
        obtain ⟨q, υ, hυ, horiginals⟩ := exists_staged (s := s) hreach rfl hin
          (by simpa [State.full, hring] using hfull)
        exact ⟨υ, hruns.tail (show Pushing _ (.stageOriginal q) from rfl) hυ, horiginals⟩
      · rw [hqueue] at hcons
        cases hcons
  | cons command rest ih =>
    obtain ⟨p, τ, hτ⟩ := stageCancellation_goes h hcrit
    have hruns : Lts.Reaches (step cfg) Pushing σ τ :=
      .tail .refl (show Pushing σ (.stageCancellation p) from rfl) hτ
    have hreach : Reachable cfg Lts.Always τ := h.tail trivial hτ
    cases move_of_step hτ with
    | @stageCancellation holder r p y hcrit' hring hfresh hy =>
      cases hcrit.symm.trans hcrit'
      simp only [State.crowded, hring, hqueue, Option.all_some, List.length_cons,
        decide_eq_false_iff_not] at hcrowded
      rcases stageCancellation_cases hy with rfl | ⟨command', rest', hcons, -, rfl⟩
      · rcases stageCancellation_stops hy with hnil | hfull
        · rw [hqueue] at hnil
          cases hnil
        · omega
      · rw [hqueue] at hcons
        cases hcons
        obtain ⟨υ, hυ, horiginals⟩ := ih hreach rfl hin (by simp [State.crowded]; omega) rfl
        exact ⟨υ, hruns.trans hυ, horiginals⟩

/-- A step that does not hold back comes to stage an original. -/
theorem exists_staged_of_brings (h : Reachable cfg Lts.Always σ) (hstep : step cfg a σ = .ok τ)
    (hoverflow : (σ.subs s).inner.delivery = .overflow) (hbrings : a.brings s σ = true) :
    ∃ υ, Lts.Reaches (step cfg) Pushing τ υ ∧
      (υ.subs s).inner.originals = (σ.subs s).inner.originals + 1 := by
  have hτ : Reachable cfg Lts.Always τ := h.tail trivial hstep
  cases a with
  | pollSubmit t w =>
    simp only [Action.brings, Bool.and_eq_true, beq_iff_eq, Bool.not_eq_true'] at hbrings
    obtain ⟨⟨⟨⟨rfl, hin⟩, haccepting⟩, howned⟩, hcrowded⟩ := hbrings
    cases move_of_step hstep with
    | @pollAdmit _ _ fut r hfut =>
      have hin' : State.inHand { σ.setClient t { σ.clients t with pc := .admitting } with
          crit := some (.admission t w false, .cancels) } t = true := by
        simpa [State.inHand, State.setClient] using hin
      exact exists_pushed hτ rfl hin' hcrowded
    | pollClosed hfut _ _ hclosed =>
      -- Such a future has not lost its delivery by an overflow.
      have hlate := (Severed.of_reachable h t).late _ (Role.fut?_eq_some.mp hfut) hclosed
      exact absurd hoverflow hlate.2
    | pollRefused _ _ _ _ _ hrefused => simp [haccepting] at hrefused
    | pollDeferred _ _ _ _ _ _ hdeferred => simp [howned] at hdeferred
  | iteratorNext next =>
    cases next with
    | none => cases hbrings
    | some e =>
      simp only [Action.brings, Bool.and_eq_true, Bool.not_eq_true'] at hbrings
      obtain ⟨hadmits, hfull⟩ := hbrings
      cases move_of_step hstep with
      | @iteratorSome t w n fut _ hcrit hfut hpending hindex =>
        obtain rfl : t = s := by
          simpa [State.admits_of_crit hcrit, Holder.admits] using hadmits
        obtain ⟨p, υ, hυ, horiginals⟩ := exists_staged (s := t) hτ hcrit
          (by simp [State.inHand, State.record, Role.fut?]) hfull
        exact ⟨υ, .tail .refl (show Pushing _ (.stageOriginal p) from rfl) hυ, horiginals⟩
  | _ => cases hbrings

/-! ## The result -/

/-- A delivery that has closed stays so. -/
theorem delivery_closed (h : Reachable cfg ok σ) (hstep : step cfg a σ = .ok τ)
    (hd : (σ.subs s).inner.delivery ≠ .opened) : (τ.subs s).inner.delivery ≠ .opened := by
  refine (move_of_step hstep).delivery_ne_opened ?_ hd
  -- The delivery of a submission that does not exist yet is open.
  by_contra hlt
  have hfresh := ((Allocated.of_reachable h).fresh s (Nat.le_of_not_lt hlt)).1
  exact hd (by rw [hfresh]; rfl)

/-- A step that stages an original of a submission with a closed delivery finds it overflowed. -/
theorem overflow_of_originals (h : Reachable cfg ok σ) (hstep : step cfg a σ = .ok τ)
    (hd : (σ.subs s).inner.delivery ≠ .opened)
    (hne : (τ.subs s).inner.originals ≠ (σ.subs s).inner.originals) :
    (σ.subs s).inner.delivery = .overflow :=
  overflow_of_admits h (staged_of_originals h hstep hne).1 hd

/-- When delivery has closed otherwise than by an overflow, nothing is staged in any run. -/
theorem originals_of_closed (h : Reachable cfg ok σ) (hd : (σ.subs s).inner.delivery ≠ .opened)
    (hother : (σ.subs s).inner.delivery ≠ .overflow)
    (hruns : Lts.Reaches (step cfg) Lts.Always σ τ) :
    (τ.subs s).inner.originals = (σ.subs s).inner.originals := by
  have hall : Reachable cfg Lts.Always τ ∧ (τ.subs s).inner.delivery ≠ .opened ∧
      (τ.subs s).inner.delivery ≠ .overflow ∧
        (τ.subs s).inner.originals = (σ.subs s).inner.originals := by
    refine hruns.invariant (I := fun τ => Reachable cfg Lts.Always τ ∧
      (τ.subs s).inner.delivery ≠ .opened ∧ (τ.subs s).inner.delivery ≠ .overflow ∧
        (τ.subs s).inner.originals = (σ.subs s).inner.originals) ⟨h.always, hd, hother, rfl⟩ ?_
    rintro τ υ a ⟨hτ, hclosed, hother, horiginals⟩ - hstep
    obtain ⟨hclosed', hother'⟩ := Severed.delivery_step hτ hstep hclosed hother
    have hsame : (υ.subs s).inner.originals = (τ.subs s).inner.originals := by
      by_contra hne
      exact hother (overflow_of_originals hτ hstep hclosed hne)
    exact ⟨hτ.tail trivial hstep, hclosed', hother', hsame.trans horiginals⟩
  exact hall.2.2.2

/-- In a run that holds back nothing is staged once delivery has closed. -/
theorem originals_of_holdsBack (h : Reachable cfg (HoldsBack s) σ)
    (hd : (σ.subs s).inner.delivery ≠ .opened)
    (hruns : Lts.Reaches (step cfg) (HoldsBack s) σ τ) :
    (τ.subs s).inner.originals = (σ.subs s).inner.originals := by
  have hall : Reachable cfg (HoldsBack s) τ ∧ (τ.subs s).inner.delivery ≠ .opened ∧
      (τ.subs s).inner.originals = (σ.subs s).inner.originals := by
    refine hruns.invariant (I := fun τ => Reachable cfg (HoldsBack s) τ ∧
      (τ.subs s).inner.delivery ≠ .opened ∧
        (τ.subs s).inner.originals = (σ.subs s).inner.originals) ⟨h, hd, rfl⟩ ?_
    rintro τ υ a ⟨hτ, hclosed, horiginals⟩ hok hstep
    have hsame : (υ.subs s).inner.originals = (τ.subs s).inner.originals := by
      by_contra hne
      obtain ⟨hadmits, hin, htight⟩ := staged_of_originals hτ hstep hne
      have hcrammed := Crammed.of_reachable hτ hadmits (overflow_of_admits hτ hadmits hclosed) hin
      rw [htight] at hcrammed
      cases hcrammed
    exact ⟨hτ.tail hok hstep, delivery_closed hτ hstep hclosed, hsame.trans horiginals⟩
  exact hall.2.2

/-- Nothing is staged for a submission whose delivery has closed, in a run whose polls of its future
bring no item to the push after an overflow. When delivery has closed otherwise, nothing is staged
in any run; and a step that does bring an item to the push comes to stage it. -/
theorem closed_stages_nothing (h : Reachable cfg ok σ)
    (hd : (σ.subs s).inner.delivery ≠ .opened) :
    (Reachable cfg (HoldsBack s) σ → ∀ τ, Lts.Reaches (step cfg) (HoldsBack s) σ τ →
      (τ.subs s).inner.originals = (σ.subs s).inner.originals) ∧
    ((σ.subs s).inner.delivery ≠ .overflow → ∀ τ, Lts.Reaches (step cfg) Lts.Always σ τ →
      (τ.subs s).inner.originals = (σ.subs s).inner.originals) ∧
    ∀ a τ, step cfg a σ = .ok τ → ¬HoldsBack s σ a → ∃ υ, Lts.Reaches (step cfg) Pushing τ υ ∧
      (υ.subs s).inner.originals = (σ.subs s).inner.originals + 1 := by
  refine ⟨fun hback τ hruns => originals_of_holdsBack hback hd hruns,
    fun hother τ hruns => originals_of_closed h hd hother hruns, fun a τ hstep hno => ?_⟩
  obtain ⟨hoverflow, hbrings⟩ := Classical.not_imp.mp hno
  exact exists_staged_of_brings h.always hstep hoverflow (by simpa using hbrings)

/-- Three CQEs of a multishot original overflow its buffer while the next item waits for a slot. -/
def overrunStream : List Action :=
  [.registerSubmission, .openSubmission 0, .pollSubmit 0 7, .stageCancellation 10,
    .iteratorNext (some ⟨.raw 0, 99⟩), .stageOriginal 10, .iteratorNext (some ⟨.raw 1, 98⟩),
    .stageOriginal 20, .submit (.ok 1), .accept, .accept, .notify (.client 0), .checkSubmit 0,
    .notify (.client 0), .passBegin, .stageCancellation 20, .stageOwnedCancellation 20,
    .stageOwned 20, .submit (.ok 0), .accept, .wakeAdmission, .wakeAdmission, .failOwned,
    .kernelPost ⟨10, 0, 2⟩, .kernelPost ⟨10, 0, 2⟩, .kernelPost ⟨10, 0, 2⟩, .reap, .dispatch,
    .dispatch, .dispatch]

/-- The future of the overflowed submission is polled while an owned operation is queued: the poll
yields to that, stages nothing and reports the overflow. -/
theorem closed_stages_nothing_tiny :
    ∃ σ τ, Reachable .tiny (HoldsBack 0) σ ∧ (σ.subs 0).inner.delivery = .overflow ∧
      Lts.Reaches (step .tiny) (HoldsBack 0) σ τ ∧
      (τ.history 0).outcome = some (.error .completionBufferOverflow) ∧
      (τ.subs 0).inner.originals = (σ.subs 0).inner.originals := by
  have hrun : (Lts.exec (step .tiny) (HoldsBack 0) overrunStream (.init .tiny)).any
      (fun σ => (σ.subs 0).inner.delivery = .overflow ∧
        (Lts.exec (step .tiny) (HoldsBack 0)
          [.enqueue 7, .notify (.op 0), .pollSubmit 0 7, .notify (.client 0), .checkSubmit 0] σ).any
          (fun τ => (τ.history 0).outcome = some (.error .completionBufferOverflow)) = true)
      = true := by decide
  obtain ⟨σ, hσ, hdelivery, hlater⟩ := Lts.exists_of_exec hrun
  obtain ⟨τ, hτ, houtcome⟩ := Lts.exists_of_exec hlater
  have hclosed : (σ.subs 0).inner.delivery ≠ .opened := by simp [hdelivery]
  exact ⟨σ, τ, hσ, hdelivery, hτ, houtcome, (closed_stages_nothing hσ hclosed).1 hσ τ hτ⟩

/-- After the overflow the next poll of the future stages the item in hand. -/
theorem closed_stages_item :
    ∃ σ τ, Reachable .tiny Lts.Always σ ∧ (σ.subs 0).inner.delivery = .overflow ∧
      Lts.Reaches (step .tiny) Lts.Always σ τ ∧
      (σ.subs 0).inner.originals = 1 ∧ (τ.subs 0).inner.originals = 2 := by
  have hrun : (Lts.exec (step .tiny) Lts.Always overrunStream (.init .tiny)).any
      (fun σ => (σ.subs 0).inner.delivery = .overflow ∧ (σ.subs 0).inner.originals = 1 ∧
        (Lts.exec (step .tiny) Lts.Always
          [.pollSubmit 0 7, .stageCancellation 20, .stageOriginal 20]
          σ).any (fun τ => (τ.subs 0).inner.originals = 2) = true) = true := by decide
  obtain ⟨σ, hσ, hdelivery, horiginals, hlater⟩ := Lts.exists_of_exec hrun
  obtain ⟨τ, hτ, hstaged⟩ := Lts.exists_of_exec hlater
  exact ⟨σ, τ, hσ, hdelivery, hτ, horiginals, hstaged⟩

end Nosv.IoUring
