import Nosv.IoUring.Delivery

/-!
# Wakes

A future that was pending is either still waiting, with its waker in the slot its poll put it in,
or its waker has been moved to a wake batch since. Three steps break this: shutdown clears the
slots of what it detaches, the driver may stop with an admission waker in its slot, and an
admission future may be left pending after that.

* `View.Attentive.step`: any other step wakes a future that it makes ready;
* `no_lost_wake`: so no wake is lost in a run whose steps find those slots empty (`WakesFirst`);
* `wake_lost`: a stream that is detached while its future waits.
-/

namespace Nosv.IoUring

variable {cfg : PreparedRing} {ok : State → Action → Prop} {σ τ : State} {s : SubId} {a : Action}

/-! ## Waiting -/

/-- The capability a future borrows. -/
def FutureKind.Borrows : FutureKind → Role → Prop
  | .submitEntries, r => ∃ fut, r = .submit fut
  | .nextCompletion, r => r = .stream
  | .nextCancellation, r | .waitDrained, r => r = .cancellation

/-- The slot in which a future leaves its waker. -/
def SubmissionInner.slot (st : SubmissionInner) : FutureKind → Option Waker
  | .submitEntries => st.admissionWaker
  | .nextCompletion => st.normalWaker
  | .nextCancellation => st.cancelWaker
  | .waitDrained => st.drainWaker

namespace View

/-- The future waits with its waker in the slot, for something that has not happened yet. -/
def Waits (x : View) (p : Pending) : Prop :=
  match p.future with
  | .submitEntries => x.inner.admissionWaker = some p.waker ∧ x.stopping = false
  | .nextCompletion =>
    x.inner.normalWaker = some p.waker ∧ x.inner.normal = [] ∧ x.inner.normalOverflow = false ∧
      x.inner.delivery = .opened ∧
      ¬ (x.inner.iteratorFinished = true ∧ x.inner.originalTerminal = x.inner.originals)
  | .nextCancellation =>
    x.inner.cancelWaker = some p.waker ∧ x.inner.cancellations = [] ∧
      x.inner.cancelOverflow = false ∧ x.inner.cancelTerminal ≠ x.inner.cancels
  | .waitDrained => x.inner.drainWaker = some p.waker ∧ drained x.inner = false

/-- The future has been woken since its last poll, or waits. -/
structure Attends (x : View) (p : Pending) : Prop where
  borrows : p.future.Borrows x.client.role
  since : p.since ≤ x.woken.length
  woken : p.waker ∈ x.woken.drop p.since ∨ x.Waits p

variable {x y : View} {p : Pending} {ws : List Waker}

/-- A step that wakes the future, or leaves it waiting. -/
theorem Attends.go (h : x.Attends p) (hborrows : p.future.Borrows y.client.role)
    (hwoken : y.woken = x.woken ++ ws) (hw : x.Waits p → p.waker ∈ ws ∨ y.Waits p) :
    y.Attends p where
  borrows := hborrows
  since := by
    rw [hwoken, List.length_append]
    exact Nat.le_add_right_of_le h.since
  woken := by
    rw [hwoken, List.drop_append_of_le_length h.since, List.mem_append]
    rcases h.woken with hmem | hwaits
    · exact .inl (.inl hmem)
    · exact (hw hwaits).imp .inr id

/-- A step that wakes nobody and leaves the future waiting. -/
theorem Attends.keep (h : x.Attends p) (hborrows : p.future.Borrows y.client.role)
    (hwoken : y.woken = x.woken) (hw : x.Waits p → y.Waits p) : y.Attends p :=
  h.go hborrows (show y.woken = x.woken ++ [] by rw [hwoken, List.append_nil])
    fun hx => .inr (hw hx)

/-- A future that waits has its waker in its slot. -/
theorem Waits.slot (h : x.Waits p) : x.inner.slot p.future = some p.waker := by
  unfold Waits at h
  cases hp : p.future <;>
  · rw [hp] at h
    exact h.1

/-- What a future waits for is about what its submission protects, and the driver. -/
theorem Waits.of_eq (h : x.Waits p) (hinner : y.inner = x.inner)
    (hstopping : y.stopping = x.stopping) : y.Waits p := by
  unfold Waits at h ⊢
  rwa [hinner, hstopping]

/-- A future that has just been polled waits. -/
theorem Attends.fresh (hborrows : p.future.Borrows x.client.role)
    (hsince : p.since = x.woken.length) (hw : x.Waits p) : x.Attends p :=
  ⟨hborrows, Nat.le_of_eq hsince, .inr hw⟩

/-- A CQE of an original wakes what it makes ready. -/
theorem Waits.original (h : x.Waits p) (hlive : x.inner.originalTerminal < x.inner.originals)
    (c : Completion) (m : Bool)
    (hinner : y.inner = (dispatchOriginal x.limit c m (x.inner, [])).1.1)
    (hstopping : y.stopping = x.stopping) :
    p.waker ∈ (dispatchOriginal x.limit c m (x.inner, [])).1.2 ∨ y.Waits p := by
  rw [dispatchOriginal_inner] at hinner
  rw [dispatchOriginal_wakes]
  unfold Waits at h ⊢
  rw [hinner, hstopping]
  -- What a future waits for decides whether this CQE is it.
  cases hp : p.future with
  | submitEntries =>
    simp only [hp] at h ⊢
    cases hfin : x.inner.iteratorFinished with
    | true => exact .inr (by simpa using h)
    | false => exact .inl (by simp [h.1])
  | nextCompletion =>
    simp only [hp] at h
    exact .inl (by simp [h.1, h.2.2.2.1])
  | nextCancellation => exact .inr (by simpa only [hp] using h)
  | waitDrained =>
    simp only [hp] at h ⊢
    by_cases hlast : m = false ∧ x.inner.originalTerminal + 1 = x.inner.originals ∧
        x.inner.cancelTerminal = x.inner.cancels
    · exact .inl (by simp [h.1, hlast])
    · refine .inr ⟨by rw [if_neg hlast]; exact h.1, ?_⟩
      rw [Bool.eq_false_iff, ne_eq, drained_iff]
      rintro ⟨ho, hc⟩
      cases m with
      | true => exact absurd ho (Nat.ne_of_lt hlive)
      | false => exact hlast ⟨rfl, ho, hc⟩

/-- The CQE of a cancellation wakes what it makes ready. -/
theorem Waits.cancel (h : x.Waits p) (c : Completion)
    (hinner : y.inner = (dispatchCancel x.limit c (x.inner, [])).1)
    (hstopping : y.stopping = x.stopping) :
    p.waker ∈ (dispatchCancel x.limit c (x.inner, [])).2 ∨ y.Waits p := by
  rw [dispatchCancel_inner] at hinner
  rw [dispatchCancel_wakes]
  unfold Waits at h ⊢
  rw [hinner, hstopping]
  -- Cancellation CQEs matter to the `Cancellation` alone.
  cases hp : p.future with
  | submitEntries => exact .inr (by simpa only [hp] using h)
  | nextCompletion => exact .inr (by simpa only [hp] using h)
  | nextCancellation =>
    simp only [hp] at h ⊢
    by_cases hwake : x.inner.delivery ≠ .detached ∨
        x.inner.cancelTerminal + 1 = x.inner.cancels
    · exact .inl (by rw [if_pos hwake]; simp [h.1])
    · obtain ⟨hd, hne⟩ := not_or.mp hwake
      rw [not_not] at hd
      exact .inr (by simpa [hd, hne] using And.intro h.1 (And.intro h.2.1 h.2.2.1))
  | waitDrained =>
    simp only [hp] at h ⊢
    by_cases hlast : x.inner.originalTerminal = x.inner.originals ∧
        x.inner.cancelTerminal + 1 = x.inner.cancels
    · exact .inl (by simp [h.1, hlast])
    · refine .inr ⟨by rw [if_neg hlast]; exact h.1, ?_⟩
      rw [Bool.eq_false_iff, ne_eq, drained_iff]
      exact hlast

/-- A pass wakes an admission future whose iterator has not ended. -/
theorem Waits.wakeAdmission (h : x.Waits p)
    (hinner : y.inner = (wakeUnfinished (x.inner, [])).1) (hstopping : y.stopping = x.stopping) :
    p.waker ∈ (wakeUnfinished (x.inner, [])).2 ∨ y.Waits p := by
  rw [wakeUnfinished_eq] at hinner ⊢
  unfold Waits at h ⊢
  rw [hinner, hstopping]
  cases hp : p.future with
  | submitEntries =>
    simp only [hp] at h ⊢
    cases hfin : x.inner.iteratorFinished with
    | true => exact .inr (by simpa using h)
    | false => exact .inl (by simp [h.1])
  | nextCompletion => exact .inr (by simpa only [hp] using h)
  | nextCancellation => exact .inr (by simpa only [hp] using h)
  | waitDrained =>
    simp only [hp] at h ⊢
    exact .inr h

/-- The kernel's acceptance of an original wakes the admission future. -/
theorem Waits.accept (h : x.Waits p) (hinner : y.inner = (acceptOriginal (x.inner, [])).1)
    (hstopping : y.stopping = x.stopping) :
    p.waker ∈ (acceptOriginal (x.inner, [])).2 ∨ y.Waits p := by
  unfold Waits at h ⊢
  rw [hinner, hstopping]
  cases hp : p.future with
  | submitEntries =>
    simp only [hp] at h
    exact .inl (by simp [acceptOriginal, IoUring.takeAdmission, h.1])
  | _ =>
    simp only [hp] at h ⊢
    exact .inr h

/-- Taking the admission waker wakes the admission future. -/
theorem Waits.takeAdmission (h : x.Waits p) (hp : p.future = .submitEntries) :
    p.waker ∈ x.inner.admissionWaker.toList := by
  unfold Waits at h
  simp only [hp] at h
  simp [h.1]

/-- More cancellations to come leave waiting what waits for the last. -/
theorem Waits.sweep (h : x.Waits p) (hc : x.Counted) {n : ℕ}
    (hinner : y.inner = { x.inner with cancels := x.inner.cancels + n })
    (hstopping : y.stopping = x.stopping) : y.Waits p := by
  have hle := hc.cancels
  unfold Waits at h ⊢
  rw [hinner, hstopping]
  cases hp : p.future with
  | submitEntries => simpa only [hp] using h
  | nextCompletion => simpa only [hp] using h
  | nextCancellation =>
    simp only [hp] at h ⊢
    exact ⟨h.1, h.2.1, h.2.2.1, by omega⟩
  | waitDrained =>
    simp only [hp, drained, Bool.and_eq_false_iff, beq_eq_false_iff_ne] at h ⊢
    exact ⟨h.1, h.2.imp id fun hne => by omega⟩

/-- The decision to stop matters to admission futures only. -/
theorem Waits.stop (h : x.Waits p) (hp : p.future ≠ .submitEntries)
    (hinner : y.inner = x.inner) : y.Waits p := by
  unfold Waits at h ⊢
  rw [hinner]
  cases hf : p.future with
  | submitEntries => exact absurd hf hp
  | _ => simpa only [hf] using h

/-- A future of a caller that has closed delivery itself waits for nothing in it. -/
theorem Waits.close (h : x.Waits p) {d : Delivery}
    (hd : d = .detached → p.future ≠ .nextCancellation)
    (hp : p.future ≠ .nextCompletion) (hinner : y.inner = closeDelivery d x.inner)
    (hstopping : y.stopping = x.stopping) : y.Waits p := by
  rw [closeDelivery_eq] at hinner
  unfold Waits at h ⊢
  rw [hinner, hstopping]
  cases hf : p.future with
  | submitEntries => simpa only [hf] using h
  | nextCompletion => exact absurd hf hp
  | nextCancellation =>
    have hne : d ≠ .detached := fun hdet => hd hdet hf
    simpa only [hf, hne, if_false] using h
  | waitDrained =>
    simp only [hf] at h ⊢
    exact h

/-- Whatever is pending attends. -/
def Attentive (x : View) : Prop := ∀ p, x.client.pend = some p → x.Attends p

/-- A caller with an admission future has no other future. -/
theorem Attends.submitEntries (h : x.Attends p) {fut : SubmitEntries}
    (hrole : x.client.role = .submit fut) : p.future = .submitEntries := by
  have hb := h.borrows
  rw [hrole] at hb
  cases hp : p.future with
  | submitEntries => rfl
  | _ =>
    rw [hp] at hb
    cases hb

/-- A caller that closes delivery has no future that it makes ready. -/
theorem Attends.closing (h : x.Attends p) (hf : x.client.Fits s x.call x.admits) {d : Delivery}
    (hx : x.call = some (.requestCancel .close s d)) :
    p.future ≠ .nextCompletion ∧ (d = .detached → p.future ≠ .nextCancellation) := by
  have hb := h.borrows
  refine ⟨fun hp => ?_, fun hd hp => ?_⟩
  · rw [hp] at hb
    have hnone := (hf.of_stream hb).2.1
    rw [hx] at hnone
    cases hnone
  · subst hd
    rw [hp] at hb
    rw [hx] at hf
    have hgone := hf.gone_of_detached
    rw [show x.client.role = .cancellation from hb] at hgone
    cases hgone

/-- A step keeps what is pending attentive, if it clears no slot with a waker in it, does not stop
the driver while an admission waker is in its slot, and leaves no admission future pending on a
driver that has stopped. -/
theorem Attentive.step (h : x.Attentive) (hf : x.client.Fits s x.call x.admits) (hc : x.Counted)
    (hclose : a = .close .owner → x.owner = some (.requestCancel .close s .detached) →
      ∀ p, x.client.pend = some p → p.future = .nextCompletion ∨ p.future = .nextCancellation →
        x.inner.slot p.future = none)
    (hstop : y.stopping = true → x.stopping = false → ∀ p, x.client.pend = some p →
      p.future = .submitEntries → x.inner.slot p.future = none)
    (hlate : a = .checkSubmit s → x.stopping = true → ∀ fut, x.client.role = .submit fut →
      fut.closed = true ∨ x.inner.delivery ≠ .opened ∨
        (x.inner.iteratorFinished = true ∧ x.inner.accepted = x.inner.originals))
    (hs : x.Step s a y) : y.Attentive := by
  intro p hp
  cases hs
  case other hinner _ hclient _ _ hwoken _ hstopping =>
    rw [hclient] at hp
    obtain ⟨ws, hwoken⟩ := hwoken
    exact (h p hp).go (by rw [hclient]; exact (h p hp).borrows) hwoken
      fun hw => .inr (hw.of_eq hinner hstopping)
  case stop =>
    refine ⟨(h p hp).borrows, (h p hp).since, ?_⟩
    rcases (h p hp).woken with hw | hw
    · exact .inl hw
    · -- Only admission futures depend on the driver going on.
      by_cases hsub : p.future = .submitEntries
      · have hrunning : x.stopping = false := by
          unfold Waits at hw
          simp only [hsub] at hw
          exact hw.2
        have hslot := hstop rfl hrunning p hp hsub
        rw [hw.slot] at hslot
        cases hslot
      · exact .inr (hw.stop hsub rfl)
  case submitPending w fut hrole hpc hx hclosed hopen hnot =>
    obtain rfl := Option.some.inj hp
    refine .fresh ⟨fut, rfl⟩ rfl ⟨rfl, ?_⟩
    -- On a driver that has stopped this poll would have resolved.
    by_contra hstopping
    rcases hlate rfl (by simpa using hstopping) fut hrole with hb | hb | hb
    · rw [hclosed] at hb
      cases hb
    · exact hb hopen
    · exact hnot hb
  case nextPending hrole hnext =>
    obtain ⟨hn, ho, hd, hend, rfl⟩ := nextCompletion_pending hnext
    obtain rfl := Option.some.inj hp
    exact .fresh hrole rfl ⟨rfl, hn, ho, hd, hend⟩
  case cancellationPending hrole _ hnext =>
    obtain ⟨hn, ho, hend, rfl⟩ := nextCancellation_pending hnext
    obtain rfl := Option.some.inj hp
    exact .fresh hrole rfl ⟨rfl, hn, ho, hend⟩
  case drainedPending hrole _ hdrained =>
    obtain rfl := Option.some.inj hp
    exact .fresh hrole rfl ⟨rfl, hdrained⟩
  case close d hx =>
    obtain ⟨h1, h2⟩ := (h p hp).closing hf hx
    exact (h p hp).keep (h p hp).borrows rfl fun hw => hw.close h2 h1 rfl rfl
  -- Detaching drops the wakers of the two consumers without waking them.
  case ownerClose howner =>
    by_cases hp' : p.future = .nextCompletion ∨ p.future = .nextCancellation
    · refine ⟨(h p hp).borrows, (h p hp).since, .inl ?_⟩
      refine (h p hp).woken.resolve_right fun hw => ?_
      have hslot := hclose rfl howner p hp hp'
      rw [hw.slot] at hslot
      cases hslot
    · obtain ⟨h1, h2⟩ := not_or.mp hp'
      exact (h p hp).keep (h p hp).borrows rfl fun hw =>
        hw.close (d := .detached) (fun _ => h2) h1 rfl rfl
  case sweep =>
    exact (h p hp).keep (h p hp).borrows rfl fun hw => hw.sweep hc rfl rfl
  case iteratorSome fut _ _ hrole _ _ =>
    have hsub := (h p hp).submitEntries hrole
    refine (h p hp).keep ?_ rfl fun hw => hw.of_eq rfl rfl
    rw [hsub]
    exact ⟨_, rfl⟩
  case iteratorNone fut _ hrole _ =>
    have hsub := (h p hp).submitEntries hrole
    exact (h p hp).go (h p hp).borrows rfl fun hw => .inl (hw.takeAdmission hsub)
  case staged fut _ _ _ hrole _ =>
    have hsub := (h p hp).submitEntries hrole
    refine (h p hp).keep ?_ rfl fun hw => ?_
    · rw [hsub]
      exact ⟨_, rfl⟩
    · unfold Waits at hw ⊢
      simpa only [hsub] using hw
  case accept => exact (h p hp).go (h p hp).borrows rfl fun hw => hw.accept rfl rfl
  case wakeAdmission =>
    exact (h p hp).go (h p hp).borrows rfl fun hw => hw.wakeAdmission rfl rfl
  case original c m hlive =>
    exact (h p hp).go (h p hp).borrows rfl fun hw => hw.original hlive c m rfl rfl
  case cancel c _ => exact (h p hp).go (h p hp).borrows rfl fun hw => hw.cancel c rfl rfl
  case pollCheck | pollAdmit | notify | admitEnd =>
    exact (h p hp).keep (h p hp).borrows rfl fun hw => hw.of_eq rfl rfl
  all_goals cases hp

end View

/-! ## Runs -/

/-- The waker of a pending future has been moved to a wake batch since its last poll. -/
def State.Woken (σ : State) (p : Pending) : Prop := p.waker ∈ σ.woken.drop p.since

instance (σ : State) (p : Pending) : Decidable (σ.Woken p) := inferInstanceAs (Decidable (_ ∈ _))

/-- The slots are empty where a step would drop or strand the wakers in them, and admission futures
resolve once the driver has stopped. -/
structure WakesFirst (σ : State) (a : Action) : Prop where
  /-- Shutdown detaches no submission while the future of its stream or of its cancellation has its
  waker in the slot that this clears. -/
  close : a = .close .owner → ∀ s d, σ.calls .owner = some (.requestCancel .close s d) →
    ∀ p, (σ.clients s).pend = some p →
      p.future = .nextCompletion ∨ p.future = .nextCancellation →
        (σ.subs s).inner.slot p.future = none
  /-- The driver does not decide to stop while an admission future has its waker in the admission
  slot. -/
  stop : a = .decide → ∀ b, σ.driver = .decide b →
    IoUring.decide σ.data b σ.ownedQueue.isEmpty = .stop →
    ∀ s p, (σ.clients s).pend = some p → p.future = .submitEntries →
      (σ.subs s).inner.slot p.future = none
  /-- Once the driver has decided to stop, no poll of an admission future finds delivery open and
  its submission not fully admitted: such a poll went through `admit` before shutdown was raised,
  and would leave its waker in the admission slot. -/
  late : ∀ s, a = .checkSubmit s → σ.driver.stopping = true → ∀ fut,
    (σ.clients s).role = .submit fut →
    fut.closed = true ∨ (σ.subs s).inner.delivery ≠ .opened ∨
      ((σ.subs s).inner.iteratorFinished = true ∧
        (σ.subs s).inner.accepted = (σ.subs s).inner.originals)

/-- Only a decision makes the driver stop. -/
theorem View.Step.deciding {x y : View} (hs : x.Step s a y) (hy : y.stopping = true)
    (hx : x.stopping = false) : a = .decide := by
  cases hs
  case stop => rfl
  case other hstopping =>
    rw [hstopping, hx] at hy
    cases hy
  all_goals
    rw [show _ = false from hx] at hy
    cases hy

/-- Only the decision to stop makes the driver stop. -/
theorem Move.stopping (hm : Move cfg σ .decide τ) (hτ : τ.driver.stopping = true) :
    ∃ b, σ.driver = .decide b ∧ IoUring.decide σ.data b σ.ownedQueue.isEmpty = .stop := by
  cases hm with
  | decideStop hcrit hdriver hdecide => exact ⟨_, hdriver, hdecide⟩
  | decide => cases hτ

/-- In a run that loses no wake, whatever is pending attends. -/
theorem View.Attentive.of_reachable (h : Reachable cfg WakesFirst σ) (s : SubId) :
    (σ.view s).Attentive := by
  refine h.inv_of (I := fun σ => ∀ s, (σ.view s).Attentive)
    (J := fun σ => Reachable cfg WakesFirst σ)
    (fun hr => hr) (fun t p hp => by cases hp) ?_ s
  intro σ τ a hσ _ hI hok hm s
  have hview :=
    view_move (.of_reachable hσ) (.of_reachable hσ) (.of_reachable hσ) (.of_reachable hσ)
    hm s
  refine (hI s).step ((Threads.of_reachable hσ).fits s) (.of_reachable hσ s)
    (fun ha howner => hok.close ha s _ howner) (fun hτ hσ' => ?_)
    (fun ha hstopping => hok.late s ha hstopping) hview
  obtain rfl := hview.deciding hτ hσ'
  obtain ⟨b, hdriver, hdecide⟩ := hm.stopping hτ
  exact hok.stop rfl b hdriver hdecide s

/-- Whether polling the future now may return `Ready`. What a poll of `SubmitEntries` returns
depends on what it can admit. -/
def State.MayResolve (σ : State) (s : SubId) : FutureKind → Prop
  | .submitEntries => True
  | .nextCompletion => ∀ w, (nextCompletion w (σ.subs s).inner).1 ≠ .pending
  | .nextCancellation => ∀ w, (nextCancellation w (σ.subs s).inner).1 ≠ .pending
  | .waitDrained => ∀ w, (waitDrained w (σ.subs s).inner).1 ≠ .pending

/-- No future loses its wake in a run that takes none of the three steps: if the last poll of a live
future was pending and polling it now may return `Ready`, its waker has been moved to a wake batch
since, or it waits in the admission slot of a driver that has not stopped. -/
theorem no_lost_wake (h : Reachable cfg WakesFirst σ) {p : Pending}
    (hp : (σ.clients s).pend = some p) (hready : σ.MayResolve s p.future) :
    σ.Woken p ∨ (p.future = .submitEntries ∧ (σ.subs s).inner.admissionWaker = some p.waker ∧
      σ.driver.stopping = false) := by
  rcases (View.Attentive.of_reachable h s p hp).woken with hw | hw
  · exact .inl hw
  · unfold View.Waits at hw
    unfold State.MayResolve at hready
    simp only [State.view] at hw
    cases hf : p.future with
    | submitEntries =>
      simp only [hf] at hw
      exact .inr ⟨rfl, hw⟩
    | nextCompletion =>
      simp only [hf] at hw hready
      obtain ⟨-, hn, ho, hd, hend⟩ := hw
      refine absurd ?_ (hready p.waker)
      unfold nextCompletion
      simp only [hn, ho, hd]
      rw [if_neg (by simp), if_neg (by simpa using hend)]
    | nextCancellation =>
      simp only [hf] at hw hready
      obtain ⟨-, hn, ho, hend⟩ := hw
      refine absurd ?_ (hready p.waker)
      unfold nextCancellation
      simp only [hn, ho]
      rw [if_neg (by simp), if_neg hend]
    | waitDrained =>
      simp only [hf] at hw hready
      refine absurd ?_ (hready p.waker)
      unfold waitDrained
      rw [if_neg (by simpa using hw.2)]

/-- A stream's future is pending when its CQE comes in, and the owner thread detaches the stream
before the future is polled again. -/
def wokenStream : List Action :=
  openedStream ++ [.pollCompletion 0 8] ++ completedStream.drop openedStream.length ++
    [.beginShutdown, .shutdownAndWait, .closeAdmission, .raiseShutdown [], .cancelSubmission,
      .close .owner]

/-- The CQE moves the waker of the stream to a wake batch, and the detach finds the slot empty. -/
theorem no_lost_wake_tiny :
    ∃ σ, Reachable .tiny WakesFirst σ ∧ (σ.subs 0).inner.delivery = .detached ∧
      (σ.clients 0).pend = some ⟨.nextCompletion, 8, 0⟩ ∧
      (σ.Woken ⟨.nextCompletion, 8, 0⟩ ∨ (FutureKind.nextCompletion = .submitEntries ∧
        (σ.subs 0).inner.admissionWaker = some 8 ∧ σ.driver.stopping = false)) := by
  have hrun : (Lts.exec (step .tiny)
      (fun σ a => (a = .close .owner → (σ.subs 0).inner.slot .nextCompletion = none ∧
        (σ.subs 0).inner.slot .nextCancellation = none ∧
          σ.calls .owner = some (.requestCancel .close 0 .detached)) ∧
        a ≠ .decide ∧ σ.driver.stopping = false) wokenStream (.init .tiny)).any
      (fun σ => (σ.subs 0).inner.delivery = .detached ∧
        (σ.clients 0).pend = some ⟨.nextCompletion, 8, 0⟩ ∧
        (nextCompletion 8 (σ.subs 0).inner).1 = .ready none) = true := by decide
  obtain ⟨σ, hσ, hdelivery, hpend, hnext⟩ := Lts.exists_of_exec hrun
  have hσ : Reachable .tiny WakesFirst σ := by
    refine hσ.mono fun σ a hok => ⟨?_, fun ha => absurd ha hok.2.1, ?_⟩
    · rintro ha s d howner p - (hp | hp)
      all_goals
        obtain ⟨hnormal, hcancel, hcall⟩ := hok.1 ha
        cases howner.symm.trans hcall
        rw [hp]
      · exact hnormal
      · exact hcancel
    · intro s _ hstopping
      rw [hok.2.2] at hstopping
      cases hstopping
  refine ⟨σ, hσ, hdelivery, hpend, no_lost_wake hσ hpend fun w => ?_⟩
  unfold nextCompletion
  split
  · simp
  · split
    · simp
    · simp [hdelivery]

/-- Shutdown detaches a stream whose future is pending. -/
def silencedStream : List Action :=
  openedStream ++
    [.pollCompletion 0 8, .beginShutdown, .shutdownAndWait, .closeAdmission, .raiseShutdown [],
      .cancelSubmission, .close .owner]

/-- The future is then ready, and its waker is gone without having been woken. -/
theorem wake_lost :
    ∃ σ, Reachable .tiny Lts.Always σ ∧ (σ.clients 0).pend = some ⟨.nextCompletion, 8, 0⟩ ∧
      (nextCompletion 8 (σ.subs 0).inner).1 = .ready none ∧
      (σ.subs 0).inner.normalWaker = none ∧ ¬ σ.Woken ⟨.nextCompletion, 8, 0⟩ := by
  have hrun : (Lts.exec (step .tiny) Lts.Always silencedStream (.init .tiny)).any
      (fun σ => (σ.clients 0).pend = some ⟨.nextCompletion, 8, 0⟩ ∧
        (nextCompletion 8 (σ.subs 0).inner).1 = .ready none ∧
        (σ.subs 0).inner.normalWaker = none ∧ ¬ σ.Woken ⟨.nextCompletion, 8, 0⟩) = true := by decide
  exact Lts.exists_of_exec hrun

end Nosv.IoUring
