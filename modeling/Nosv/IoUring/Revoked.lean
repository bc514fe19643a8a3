import Nosv.IoUring.Shutdown

/-!
# Admission futures that outlive shutdown

A `SubmitEntries` future made before the runtime closed may be polled for the first time after.
By then the owner thread has detached its submission, or the future was made closed, so that its
next poll fails. `Revoked` says how far the owner thread has come with it.

`Revoked.of_reachable` has it for every reachable state.
-/

namespace Nosv.IoUring

variable {cfg : PreparedRing} {ok : State → Action → Prop} {σ τ : State} {a : Action} {s : SubId}

/-- The owner thread has yet to close delivery of submission `s`. -/
def State.Closes (σ : State) (s : SubId) : Prop :=
  s ∈ σ.owner.snapshot ∨ ∃ d, σ.calls .owner = some (.requestCancel .close s d)

/-- What shutdown takes away from admission futures. -/
structure Revoked (σ : State) : Prop where
  /-- Shutdown comes after the lifecycle has left `Running`. -/
  declined : σ.owner ≠ .idle ∨ σ.data.shutdown = true → σ.running = false
  /-- The owner thread makes its calls between the raise and the end of its wait. -/
  outside : σ.owner.raised = false → σ.calls .owner = none
  /-- A future that was made open has lost its delivery, or is about to. -/
  futures : σ.data.shutdown = true → ∀ s fut, (σ.clients s).role = .submit fut →
    fut.closed = false → (σ.subs s).inner.delivery ≠ .opened ∨ σ.Closes s

/-- A lifecycle that has left `Running` does not return to it. -/
theorem Move.running (hm : Move cfg σ a τ) (hσ : σ.running = false) : τ.running = false := by
  cases hm
  case beginShutdown => rfl
  all_goals exact hσ

/-- Shutdown is declined to whoever asks while the runtime is running. -/
theorem Move.declined (hm : Move cfg σ a τ)
    (h : σ.owner ≠ .idle ∨ σ.data.shutdown = true → σ.running = false)
    (hτ : τ.owner ≠ .idle ∨ τ.data.shutdown = true) : τ.running = false := by
  -- Whoever raises the flag is past the first statement of `shutdown_and_wait`.
  have hback : τ.data.shutdown = true → σ.running = false := fun hshutdown => by
    rcases hm.shutdown hshutdown with hσ | ⟨⟨order, rfl⟩, -⟩
    · exact h (.inr hσ)
    · cases hm with
      | raiseShutdown howner => exact h (.inl (by simp [howner]))
  rcases hτ with howner | hshutdown
  · cases hm
    case beginShutdown => rfl
    case shutdownAndWait hrunning => exact hrunning
    case awaitCompleted => exact absurd rfl howner
    case closeAdmission hσ | raiseShutdown hσ _ _ _ | cancelSubmission _ hσ | submissionsEnd _ hσ |
        cancelSnapshot _ hσ | snapshotEnd _ hσ => exact h (.inl (by simp [hσ]))
    all_goals exact h (.inl howner)
  · exact hm.running (hback hshutdown)

/-- The owner thread makes no call before the raise. -/
theorem Move.owner_outside (hm : Move cfg σ a τ)
    (h : σ.owner.raised = false → σ.calls .owner = none) (hτ : τ.owner.raised = false) :
    τ.calls .owner = none := by
  -- A call of another actor leaves the owner's alone; the owner is in none.
  have hcall : ∀ {b : Actor} {x : Option Call}, (b = .owner → σ.calls .owner ≠ none) →
      σ.owner.raised = false → (σ.setCall b x).calls .owner = none := by
    intro b x hb hraised
    rw [State.setCall_calls]
    split_ifs with heq
    · exact absurd (h hraised) (hb heq.symm)
    · exact h hraised
  cases hm
  case close hb | sweep hb _ _ _ | sweepOwned hb _ _ | sweepOwnedNone hb _ _ | notify hb _ =>
    exact hcall (fun heq => by rw [← heq, hb]; simp) hτ
  case shutdownAndWait howner _ | closeAdmission howner => exact h (by rw [howner]; rfl)
  case awaitCompleted hnone _ => exact hnone
  case raiseShutdown | cancelSubmission | submissionsEnd | cancelSnapshot | snapshotEnd => cases hτ
  all_goals exact h hτ

/-- A future that is open was open before, or has just been made. -/
theorem View.Step.open_future {x y : View} {fut : SubmitEntries} (hs : x.Step s a y)
    (hy : y.client.role = .submit fut) (hopen : fut.closed = false) :
    (∃ fut', x.client.role = .submit fut' ∧ fut'.closed = false) ∨ a = .openSubmission s := by
  cases hs
  case other hclient _ _ _ _ _ => exact .inl ⟨fut, hclient ▸ hy, hopen⟩
  case opened => exact .inr rfl
  case iteratorSome hrole _ _ | staged hrole _ | submitPending hrole _ _ _ _ _ =>
    cases hy
    exact .inl ⟨_, hrole, hopen⟩
  case register | submitFailed | submitOk | dropSubmit | cancelStream | dropStream |
      dropCancellation => cases hy
  all_goals exact .inl ⟨fut, hy, hopen⟩

/-- What the owner thread has to close it closes, or has still to do so. -/
theorem Move.closes (hm : Move cfg σ a τ) (hT : Threads σ)
    (ha : ∀ order, a ≠ .raiseShutdown order) (hs : σ.Closes s) :
    (τ.subs s).inner.delivery ≠ .opened ∨ τ.Closes s := by
  have hother : ∀ {b x}, b ≠ .owner →
      Function.update σ.calls b x .owner = σ.calls .owner := fun hb =>
    Function.update_of_ne (Ne.symm hb) _ _
  cases hm
  -- Of the owner thread's own steps only this one takes the submission off, and closes it.
  case close b t d hcall =>
    by_cases hb : b = .owner
    · subst hb
      rcases hs with hs | ⟨e, hs⟩
      · exact .inr (.inl hs)
      · rw [hcall] at hs
        cases hs
        refine .inl ?_
        show ((σ.setInner s _).subs s).inner.delivery ≠ .opened
        obtain rfl := hT.owner _ _ _ hcall
        rw [State.setInner_inner, if_pos rfl, closeDelivery_delivery, if_pos (.inr rfl)]
        decide
    · exact .inr (hs.imp id fun ⟨e, hs⟩ => ⟨e, (hother hb).trans hs⟩)
  case sweep b t d order hcall _ _ _ | sweepOwned b c p hcall _ _
    | sweepOwnedNone b c hcall _ _ | notify b y hcall _ =>
    refine .inr (hs.imp id fun ⟨e, hs⟩ => ⟨e, (hother ?_).trans hs⟩)
    rintro rfl
    rw [hcall] at hs
    cases hs
  case raiseShutdown order _ _ _ _ => exact absurd rfl (ha order)
  case shutdownAndWait howner _ | closeAdmission howner =>
    rw [State.Closes, howner] at hs
    exact .inr (.inr (hs.resolve_left List.not_mem_nil))
  case submissionsEnd hcall howner | cancelSnapshot hcall howner | snapshotEnd hcall howner |
      awaitCompleted howner hcall _ =>
    rw [State.Closes, howner, hcall] at hs
    rcases hs with hs | ⟨_, hs⟩ <;> cases hs
  case cancelSubmission t rest owned hcall howner =>
    rcases hs with hs | ⟨e, hs⟩
    · rw [howner] at hs
      rcases List.mem_cons.mp hs with rfl | hs
      · exact .inr (.inr ⟨.detached, rfl⟩)
      · exact .inr (.inl hs)
    · rw [hcall] at hs
      cases hs
  all_goals exact .inr hs

/-- A step keeps what shutdown takes away. -/
theorem Revoked.step (h : Revoked σ) (hσ : Reachable cfg ok σ) (hstep : step cfg a σ = .ok τ) :
    Revoked τ := by
  have hm := move_of_step hstep
  refine ⟨hm.declined h.declined, hm.owner_outside h.outside, fun hτ s fut hrole hopen => ?_⟩
  rcases (hσ.view_step hstep s).open_future hrole hopen with ⟨fut', hrole', hopen'⟩ | rfl
  · by_cases ha : ∃ order, a = .raiseShutdown order
    · -- The snapshot has every submission whose caller holds it.
      obtain ⟨order, rfl⟩ := ha
      have hheld : σ.Holds s := .inl (by rw [show (σ.clients s).role = _ from hrole']; rfl)
      cases hm with
      | raiseShutdown =>
        exact .inr (.inl (List.mem_filter.mpr ⟨Enrolled.of_reachable hσ s hheld, hheld.strong⟩))
    · have ha : ∀ order, a ≠ .raiseShutdown order := fun order hr => ha ⟨order, hr⟩
      have hσs : σ.data.shutdown = true :=
        (hm.shutdown hτ).resolve_right fun ⟨⟨order, hr⟩, _⟩ => ha order hr
      rcases h.futures hσs s fut' hrole' hopen' with hdelivery | hcloses
      · have hA := Allocated.of_reachable hσ
        have hs : s < σ.nextSub := hA.of_fut (Role.fut?_eq_some.mpr hrole')
        exact .inl (hm.delivery_ne_opened hs hdelivery)
      · exact hm.closes (.of_reachable hσ) ha hcloses
  · -- Whoever makes a future now makes it closed.
    cases hm with
    | openSubmission =>
      have hrunning : σ.running = false := h.declined (.inr hτ)
      rw [State.setClient_clients, if_pos rfl] at hrole
      cases hrole
      rw [hrunning] at hopen
      cases hopen

/-- In every reachable state admission is as `Revoked` says. -/
theorem Revoked.of_reachable (h : Reachable cfg ok σ) : Revoked σ := by
  have hboth : Reachable cfg ok σ ∧ Revoked σ := by
    refine Lts.Reaches.invariant (I := fun σ => Reachable cfg ok σ ∧ Revoked σ) h
      ⟨.refl, ⟨fun h => ?_, fun _ => rfl, fun h => ?_⟩⟩
      fun σ τ a hI hok hstep => ⟨hI.1.tail hok hstep, hI.2.step hI.1 hstep⟩
    · rcases h with h | h
      · exact absurd rfl h
      · cases h
    · cases h
  exact hboth.2

end Nosv.IoUring
