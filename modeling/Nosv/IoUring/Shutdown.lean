import Nosv.IoUring.Dropped

/-!
# Draining the ring

Once `shutdown_and_wait` has left its critical section nothing new reaches the registries, and every
submission and owned operation that is still there is on its list: the weak registry loses no
submission that is alive. What is not cancelled yet is what the owner thread has still to cancel.

* `Sealed.of_reachable` and `Sweeping.of_reachable`: admission is sealed, and what is not cancelled
  is on the list;
* `State.Drained.of_stopping`: a driver that stops has drained everything;
* `shutdown_drains`: all of it, in every reachable state.
-/

namespace Nosv.IoUring

variable {cfg : PreparedRing} {ok : State → Action → Prop} {σ τ : State} {a : Action}

/-! ## Nothing new -/

/-- After shutdown was raised nobody is admitting. -/
def Sealed (σ : State) : Prop := σ.data.shutdown = true → ∀ s, σ.admits s = false

/-- Shutdown is raised by the critical section of `shutdown_and_wait` only, which nobody shares. -/
theorem Move.shutdown (hm : Move cfg σ a τ) (hτ : τ.data.shutdown = true) :
    σ.data.shutdown = true ∨ (∃ order, a = .raiseShutdown order) ∧ τ.crit = none := by
  cases hm
  case raiseShutdown order _ hcrit _ _ => exact .inr ⟨⟨order, rfl⟩, hcrit⟩
  case stageCancellation hy =>
    rcases stageCancellation_cases hy with rfl | ⟨_, _, _, _, rfl⟩ <;> exact .inl hτ
  case stageOwnedCancellation hy =>
    rcases stageOwnedCancellation_cases hy with rfl | ⟨_, _, _, _, rfl⟩ <;> exact .inl hτ
  case stageOwned hy => exact .inl ((stageOwned_flags hy).2 ▸ hτ)
  case originalStaged hy =>
    obtain ⟨-, rfl⟩ := stageOriginal_staged hy
    exact .inl hτ
  case accept hy =>
    rcases acceptStaged_cases hy with ⟨_, _, _, _, _, _, rfl⟩ | ⟨_, _, _, _, _, _, rfl⟩ |
      ⟨_, _, _, _, _, _, rfl⟩ <;> exact .inl hτ
  case dispatch hy => exact .inl ((dispatch_flags hy).2 ▸ hτ)
  all_goals exact .inl hτ

/-- Shutdown stays raised. -/
theorem Move.shutdown_mono (hm : Move cfg σ a τ) (hσ : σ.data.shutdown = true) :
    τ.data.shutdown = true := by
  cases hm
  case raiseShutdown => rfl
  case stageCancellation hy =>
    rcases stageCancellation_cases hy with rfl | ⟨_, _, _, _, rfl⟩ <;> exact hσ
  case stageOwnedCancellation hy =>
    rcases stageOwnedCancellation_cases hy with rfl | ⟨_, _, _, _, rfl⟩ <;> exact hσ
  case stageOwned hy => exact (stageOwned_flags hy).2.trans hσ
  case originalStaged hy =>
    obtain ⟨-, rfl⟩ := stageOriginal_staged hy
    exact hσ
  case accept hy =>
    rcases acceptStaged_cases hy with ⟨_, _, _, _, _, _, rfl⟩ | ⟨_, _, _, _, _, _, rfl⟩ |
      ⟨_, _, _, _, _, _, rfl⟩ <;> exact hσ
  case dispatch hy => exact (dispatch_flags hy).2.trans hσ
  all_goals exact hσ

/-- Only a poll of its future begins the admission of a submission. -/
theorem View.Step.admits {s : SubId} {x y : View} (hs : x.Step s a y) (hy : y.admits = true) :
    x.admits = true ∨ ∃ w, a = .pollSubmit s w := by
  cases hs
  case other hadmits _ => exact .inl (hadmits ▸ hy)
  case pollAdmit => exact .inr ⟨_, rfl⟩
  case iteratorPanic | admitEnd => cases hy
  all_goals exact .inl hy

/-- Every move keeps admission sealed. -/
theorem Sealed.move (h : Sealed σ) (hS : Stopping σ) (hm : Move cfg σ a τ)
    (hview : ∀ s, (σ.view s).Step s a (τ.view s)) : Sealed τ := by
  intro hshutdown s
  rw [Bool.eq_false_iff]
  intro hadmits
  rcases hm.shutdown hshutdown with hσ | ⟨-, hcrit⟩
  · rcases (hview s).admits hadmits with hx | ⟨w, rfl⟩
    · rw [show (σ.view s).admits = σ.admits s from rfl, h hσ s] at hx
      cases hx
    · have haccepting : σ.data.accepting = false := by rw [hS.accepting, hσ]; rfl
      cases hm with
      | pollAdmit _ _ _ _ _ hopen =>
        rw [haccepting] at hopen
        cases hopen
      | pollClosed | pollRefused | pollDeferred =>
        exact absurd hadmits (by rw [Bool.not_eq_true]; exact h hσ s)
  · rw [State.admits_of_free hcrit] at hadmits
    cases hadmits

/-- Admission is sealed in every reachable state. -/
theorem Sealed.of_reachable (h : Reachable cfg ok σ) : Sealed σ := by
  refine h.inv_of (J := fun σ => Reachable cfg ok σ) (fun hr => hr) (fun _ _ => rfl) ?_
  intro σ τ a hσ _ hI _ hm
  exact hI.move (.of_reachable hσ) hm fun s =>
    view_move (.of_reachable hσ) (.of_reachable hσ) (.of_reachable hσ) (.of_reachable hσ) hm s

/-- A step after shutdown was raised leaves no raw original that was not there before. -/
theorem Reachable.context_old (h : Reachable cfg ok σ) (hstep : step cfg a σ = .ok τ)
    (hshutdown : σ.data.shutdown = true) {p : Pointer} {c : CqeContext}
    (hc : τ.data.contexts.lookup p = some c) (hkind : c.kind = .original) :
    ∃ c', σ.data.contexts.lookup p = some c' ∧ c'.kind = .original ∧ c'.state = c.state := by
  have hm := move_of_step hstep
  rcases (registry_move (.of_reachable h) (.of_reachable h) hm).context_cases hc with
    ⟨x, hx, hstate, hk, -⟩ | ⟨-, -, -, hcount⟩ | ⟨-, command, -, rfl⟩
  · exact ⟨x, hx, hk.trans hkind, hstate⟩
  · rcases (h.view_step hstep c.state).originals with hsame | ⟨hadmits, -⟩
    · change (τ.subs c.state).inner.originals = (σ.subs c.state).inner.originals + 1 at hcount
      change (τ.subs c.state).inner.originals = (σ.subs c.state).inner.originals at hsame
      omega
    · rw [show (σ.view c.state).admits = σ.admits c.state from rfl,
        Sealed.of_reachable h hshutdown] at hadmits
      cases hadmits
  · cases hkind

/-- After shutdown was raised no owned context is new, and none is given a handler. -/
theorem Reachable.owned_old (h : Reachable cfg ok σ) (hstep : step cfg a σ = .ok τ)
    (hshutdown : σ.data.shutdown = true) {p : Pointer} {k : OwnedCqeContext}
    (hk : τ.data.ownedContexts.lookup p = some k) :
    ∃ k', σ.data.ownedContexts.lookup p = some k' ∧ k.control = k'.control ∧
      (k.handler = k'.handler ∨ k.handler = none) ∧
      (k'.cancelQueued = true → k.cancelQueued = true) := by
  rcases (h.custody_step (move_of_step hstep)).context_cases hk with hold | ⟨hopen, -⟩
  · exact hold
  · rw [show σ.custody.shutdown = _ from hshutdown] at hopen
    cases hopen

/-! ## The weak registry -/

/-- Somebody who may still need submission `s`: its caller, or one of its contexts. -/
def State.Holds (σ : State) (s : SubId) : Prop :=
  (σ.clients s).role.holds = true ∨ ∃ p c, σ.data.contexts.lookup p = some c ∧ c.state = s

/-- What is held is alive. -/
theorem State.Holds.strong {s : SubId} (h : σ.Holds s) : σ.strong s = true := by
  unfold State.strong
  rcases h with h | ⟨p, c, hc, hs⟩
  · simp [h]
  · have : σ.data.contexts.any (fun _ c => c.state == s) = true :=
      Finmap.any_eq_true_of_lookup hc (beq_iff_eq.mpr hs)
    simp [this]

/-- Every submission somebody holds is in the weak registry. -/
def Enrolled (σ : State) : Prop := ∀ s, σ.Holds s → s ∈ σ.data.submissions

/-- The weak registry changes when a submission is registered. -/
theorem Move.submissions (hm : Move cfg σ a τ) :
    τ.data.submissions = σ.data.submissions ∨ a = .registerSubmission := by
  cases hm
  case registerSubmission => exact .inr rfl
  case stageCancellation hy =>
    rcases stageCancellation_cases hy with rfl | ⟨_, _, _, _, rfl⟩ <;> exact .inl rfl
  case stageOwnedCancellation hy =>
    rcases stageOwnedCancellation_cases hy with rfl | ⟨_, _, _, _, rfl⟩ <;> exact .inl rfl
  case stageOwned hy =>
    rcases stageOwned_cases hy with ⟨-, rfl⟩ | ⟨op, x, hx, hy⟩
    · exact .inl rfl
    · have hx : x.data.submissions = σ.data.submissions := by
        rcases popOwned_cases hx with ⟨_, _, rfl⟩ | ⟨_, _, _, rfl⟩ <;> rfl
      rcases hy with ⟨_, rfl⟩ | rfl | ⟨-, -, rfl⟩ <;> exact .inl hx
  case originalStaged hy =>
    obtain ⟨-, rfl⟩ := stageOriginal_staged hy
    exact .inl rfl
  case accept hy =>
    rcases acceptStaged_cases hy with ⟨_, _, _, _, _, _, rfl⟩ | ⟨_, _, _, _, _, _, rfl⟩ |
      ⟨_, _, _, _, _, _, rfl⟩ <;> exact .inl rfl
  case dispatch hy => exact .inl (dispatch_queues hy).2.2.2.2
  all_goals exact .inl rfl

/-- A capability is held since its submission was registered. -/
theorem View.Step.holds {s : SubId} {x y : View} (hs : x.Step s a y)
    (hy : y.client.role.holds = true) :
    x.client.role.holds = true ∨ a = .registerSubmission := by
  have hof : ∀ {r : Role}, x.client.role = r → r.holds = true →
      x.client.role.holds = true ∨ a = .registerSubmission := fun h hr => .inl (h ▸ hr)
  cases hs
  case other hclient _ _ _ _ _ => exact .inl (hclient ▸ hy)
  case register => exact .inr rfl
  case opened hrole | submitFailed hrole _ _ _ | submitOk hrole _ _ _ _ _ _
    | submitPending hrole _ _ _ _ _ | cancelStream hrole | iteratorSome hrole _ _
    | staged hrole _ =>
    exact hof hrole rfl
  case dropSubmit | dropStream | dropCancellation => cases hy
  all_goals exact .inl hy

/-- What is held after a step was held before, unless it was registered by the step. -/
theorem Reachable.holds_of_step (h : Reachable cfg ok σ) (hstep : step cfg a σ = .ok τ) {s : SubId}
    (hs : τ.Holds s) : σ.Holds s ∨ a = .registerSubmission ∧ s = σ.nextSub := by
  have hm := move_of_step hstep
  -- A submission is held by its caller, or by a context.
  rcases hs with hrole | ⟨p, c, hc, rfl⟩
  · rcases (h.view_step hstep s).holds hrole with hx | rfl
    · exact .inl (.inl hx)
    · cases hm with
      | registerSubmission =>
        by_cases hnew : s = σ.nextSub
        · exact .inr ⟨rfl, hnew⟩
        · refine .inl (.inl ?_)
          simpa only [Function.update_of_ne hnew] using hrole
  · -- A context comes from a push, or is a cancellation of one that was there.
    refine .inl ?_
    rcases (registry_move (.of_reachable h) (.of_reachable h) hm).context_cases hc with
      ⟨x, hx, hstate, -⟩ | ⟨-, -, -, hcount⟩ | ⟨-, command, hcommand, rfl⟩
    · exact .inr ⟨p, x, hx, hstate⟩
    · rcases (h.view_step hstep c.state).originals with hsame | ⟨-, ⟨fut, hrole⟩, -⟩
      · change (τ.subs c.state).inner.originals = (σ.subs c.state).inner.originals + 1 at hcount
        change (τ.subs c.state).inner.originals = (σ.subs c.state).inner.originals at hsame
        omega
      · exact .inl (by rw [show (σ.clients c.state).role = _ from hrole]; rfl)
    · -- A command is for an original of its own submission.
      have haims : σ.registry.Aims command.state command.target :=
        .inl ⟨command, hcommand, rfl, rfl⟩
      obtain ⟨o, ho, -⟩ := (Registry.Paired.of_reachable h).of_aims haims
      exact .inr ⟨_, o, ho, Registry.Matched.of_reachable h _ _ o haims ho⟩

/-- Everybody who is held is enrolled in every reachable state. -/
theorem Enrolled.of_reachable (h : Reachable cfg ok σ) : Enrolled σ := by
  have hboth : Reachable cfg ok σ ∧ Enrolled σ := by
    refine Lts.Reaches.invariant (I := fun σ => Reachable cfg ok σ ∧ Enrolled σ) h
      ⟨.refl, ?_⟩ ?_
    · rintro s (hs | ⟨p, c, hc, -⟩)
      · cases hs
      · cases hc
    · rintro σ τ a ⟨hσ, hI⟩ hok hstep
      refine ⟨hσ.tail hok hstep, fun s hs => ?_⟩
      have hm := move_of_step hstep
      -- `retain` drops only what nobody holds.
      rcases hm.submissions with hsame | rfl
      · rw [hsame]
        rcases hσ.holds_of_step hstep hs with hheld | ⟨rfl, rfl⟩
        · exact hI s hheld
        · cases hm with
          | registerSubmission =>
            have hmem : σ.nextSub ∈ σ.data.submissions := by
              rw [← hsame]
              exact List.mem_append_right _ (List.mem_singleton.mpr rfl)
            exact hmem
      · cases hm with
        | registerSubmission =>
          rcases hσ.holds_of_step hstep hs with hheld | ⟨-, rfl⟩
          · exact List.mem_append_left _ (List.mem_filter.mpr ⟨hI s hheld, hheld.strong⟩)
          · exact List.mem_append_right _ (List.mem_singleton.mpr rfl)
  exact hboth.2

/-! ## The owner thread's lists -/

/-- The owned operations the owner thread has still to cancel. -/
def OwnerPc.controls : OwnerPc → List ControlId
  | .submissions _ controls => controls
  | .owned controls => controls
  | _ => []

/-- The owner thread has left the critical section of `shutdown_and_wait`, and not yet returned. -/
def OwnerPc.raised : OwnerPc → Bool
  | .submissions _ _ | .owned _ | .waiting => true
  | .idle | .closeAdmission | .raiseShutdown => false

/-- After shutdown was raised, what is not cancelled is on a list of the owner thread, or in the
call it is making. -/
structure Sweeping (σ : State) : Prop where
  raw : σ.data.shutdown = true → ∀ s, σ.registry.Swept s ∨ s ∈ σ.owner.snapshot ∨
    ∃ stage d, σ.calls .owner = some (.requestCancel stage s d)
  owned : σ.data.shutdown = true → ∀ c p k, σ.data.ownedContexts.lookup p = some k →
    k.holds c = true → k.cancelQueued = true ∨ c ∈ σ.owner.controls ∨
      σ.calls .owner = some (.requestOwnedCancel c)
  /-- The owner thread waits after its last `notify`. -/
  waiting : σ.owner = .waiting → σ.calls .owner = none ∨ σ.calls .owner = some .notify
  raised : σ.owner.raised = true → σ.data.shutdown = true

/-- After shutdown was raised, what is cancelled stays so. -/
theorem Reachable.swept_of_step (h : Reachable cfg ok σ) (hstep : step cfg a σ = .ok τ)
    (hshutdown : σ.data.shutdown = true) {s : SubId} (hs : σ.registry.Swept s) :
    τ.registry.Swept s := by
  refine (registry_move (.of_reachable h) (.of_reachable h) (move_of_step hstep)).swept hs ?_
  rcases (h.view_step hstep s).originals with hsame | ⟨hadmits, -⟩
  · exact hsame
  · rw [show (σ.view s).admits = σ.admits s from rfl, Sealed.of_reachable h hshutdown] at hadmits
    cases hadmits

/-- What the owner thread has still to do after a step, as long as it was not the raise. -/
theorem Move.owner_raw (hm : Move cfg σ a τ) (ha : ∀ order, a ≠ .raiseShutdown order) {s : SubId}
    (hs : s ∈ σ.owner.snapshot ∨
      ∃ stage d, σ.calls .owner = some (.requestCancel stage s d)) :
    τ.registry.Swept s ∨ s ∈ τ.owner.snapshot ∨
      ∃ stage d, τ.calls .owner = some (.requestCancel stage s d) := by
  -- Another actor's call leaves the owner's alone.
  have hother : ∀ {b x}, b ≠ .owner →
      Function.update σ.calls b x .owner = σ.calls .owner := fun hb =>
    Function.update_of_ne (Ne.symm hb) _ _
  cases hm
  case close b t d hcall =>
    refine .inr (hs.imp id fun ⟨stage, e, hs⟩ => ?_)
    by_cases hb : b = .owner
    · subst hb
      rw [hcall] at hs
      cases hs
      exact ⟨.sweep, d, rfl⟩
    · exact ⟨stage, e, (hother hb).trans hs⟩
  case sweep b t d order hcall _ hnodup horder =>
    rcases hs with hs | ⟨stage, e, hs⟩
    · exact .inr (.inl hs)
    · by_cases hb : b = .owner
      · subst hb
        rw [hcall] at hs
        cases hs
        exact .inl (.of_sweep hnodup horder rfl)
      · exact .inr (.inr ⟨stage, e, (hother hb).trans hs⟩)
  case sweepOwned b c p hcall _ _ | sweepOwnedNone b c hcall _ _ | notify b y hcall _ =>
    refine .inr (hs.imp id fun ⟨stage, e, hs⟩ => ⟨stage, e, (hother ?_).trans hs⟩)
    rintro rfl
    rw [hcall] at hs
    cases hs
  case raiseShutdown order _ _ _ _ => exact absurd rfl (ha order)
  case shutdownAndWait howner _ | closeAdmission howner =>
    rw [howner] at hs
    exact .inr (.inr (hs.resolve_left List.not_mem_nil))
  case submissionsEnd hcall howner | cancelSnapshot hcall howner | snapshotEnd hcall howner |
      awaitCompleted howner hcall _ =>
    rw [howner, hcall] at hs
    rcases hs with hs | ⟨_, _, hs⟩ <;> cases hs
  case cancelSubmission t rest owned hcall howner =>
    rcases hs with hs | ⟨stage, e, hs⟩
    · rw [howner] at hs
      rcases List.mem_cons.mp hs with rfl | hs
      · exact .inr (.inr ⟨.close, .detached, rfl⟩)
      · exact .inr (.inl hs)
    · rw [hcall] at hs
      cases hs
  all_goals exact .inr hs

/-- The owner thread goes through the owned operations it has to cancel one by one. -/
theorem Move.owner_owned (hm : Move cfg σ a τ) (hS : σ.custody.Sound) (hH : σ.custody.Handled)
    (ha : ∀ order, a ≠ .raiseShutdown order) {c : ControlId}
    (hc : c ∈ σ.owner.controls ∨ σ.calls .owner = some (.requestOwnedCancel c)) :
    (∀ p k, τ.data.ownedContexts.lookup p = some k → k.holds c = true → k.cancelQueued = true) ∨
      c ∈ τ.owner.controls ∨ τ.calls .owner = some (.requestOwnedCancel c) := by
  have hother : ∀ {b x}, b ≠ .owner →
      Function.update σ.calls b x .owner = σ.calls .owner := fun hb =>
    Function.update_of_ne (Ne.symm hb) _ _
  cases hm
  case close b t d hcall | sweep b t d order hcall _ _ _ | notify b y hcall _ =>
    refine .inr (hc.imp id fun hs => (hother ?_).trans hs)
    rintro rfl
    rw [hcall] at hs
    cases hs
  case sweepOwned b d p hcall _ ht =>
    rcases hc with hc | hc
    · exact .inr (.inl hc)
    · -- The same request by somebody else is no business of the owner.
      by_cases hb : b = .owner
      · subst hb
        rw [hcall] at hc
        cases hc
        -- The context found is the only one with the handler.
        simp only [State.ownedTargets, Finset.mem_filter, Option.any_eq_true] at ht
        obtain ⟨-, o, ho, hcancel⟩ := ht
        have hholds := ((hS.cancellable hH ho).mp hcancel).1
        refine .inl fun q k hk hk' => ?_
        have hlookup : (cancelOwned p σ.data).ownedContexts.lookup q =
            if q = p then
              (σ.data.ownedContexts.lookup p).map fun k => { k with cancelQueued := true }
            else σ.data.ownedContexts.lookup q := Finmap.lookup_modify
        change (cancelOwned p σ.data).ownedContexts.lookup q = some k at hk
        rw [hlookup] at hk
        split_ifs at hk with hqp
        · obtain ⟨x, -, rfl⟩ := Option.map_eq_some_iff.mp hk
          rfl
        · exact absurd (hS.holds_unique ho hholds hk hk') hqp
      · exact .inr (.inr ((hother hb).trans hc))
  case sweepOwnedNone b d hcall _ ht =>
    rcases hc with hc | hc
    · exact .inr (.inl hc)
    · by_cases hb : b = .owner
      · subst hb
        rw [hcall] at hc
        cases hc
        refine .inl fun q k hk hholds => ?_
        -- `find_map` found nothing, so there is no such context to cancel.
        by_contra hqueued
        have hq : q ∈ σ.ownedTargets c := by
          simp only [State.ownedTargets, Finset.mem_filter, Finmap.mem_keys, Option.any_eq_true]
          exact ⟨Finmap.mem_of_lookup_eq_some hk, k, hk,
            (hS.cancellable hH hk).mpr ⟨hholds, by simpa using hqueued⟩⟩
        rw [ht] at hq
        cases hq
      · exact .inr (.inr ((hother hb).trans hc))
  case raiseShutdown order _ _ _ _ => exact absurd rfl (ha order)
  case shutdownAndWait howner _ | closeAdmission howner =>
    rw [howner] at hc
    exact .inr (.inr (hc.resolve_left List.not_mem_nil))
  case cancelSubmission hcall howner | submissionsEnd hcall howner =>
    rw [howner, hcall] at hc
    rcases hc with hc | hc
    · exact .inr (.inl hc)
    · cases hc
  case cancelSnapshot hcall howner =>
    rw [howner, hcall] at hc
    rcases hc with hc | hc
    · rcases List.mem_cons.mp hc with rfl | hc
      · exact .inr (.inr rfl)
      · exact .inr (.inl hc)
    · cases hc
  case snapshotEnd hcall howner | awaitCompleted howner hcall _ =>
    rw [howner, hcall] at hc
    rcases hc with hc | hc <;> cases hc
  all_goals exact .inr hc

/-- The owner thread that waits is in no call but its last `notify`. -/
theorem Move.owner_waiting (hm : Move cfg σ a τ)
    (hσ : σ.owner = .waiting → σ.calls .owner = none ∨ σ.calls .owner = some .notify)
    (hτ : τ.owner = .waiting) : τ.calls .owner = none ∨ τ.calls .owner = some .notify := by
  have hupdate : ∀ {b x}, (b = .owner → x = none ∨ x = some .notify) →
      σ.calls .owner = none ∨ σ.calls .owner = some .notify →
      Function.update σ.calls b x .owner = none ∨
        Function.update σ.calls b x .owner = some .notify := by
    intro b x hx hcalls
    rw [Function.update_apply]
    split_ifs with hb
    · exact hx hb.symm
    · exact hcalls
  cases hm
  -- A call other than `notify` is not one of an owner that waits.
  case close b t d hcall =>
    refine hupdate (fun hb => ?_) (hσ hτ)
    subst hb
    rcases hσ hτ with hnone | hnone <;> rw [hcall] at hnone <;> cases hnone
  case sweep | sweepOwned | sweepOwnedNone => exact hupdate (fun _ => .inr rfl) (hσ hτ)
  case notify => exact hupdate (fun _ => .inl rfl) (hσ hτ)
  case snapshotEnd => exact .inr rfl
  case shutdownAndWait | closeAdmission | raiseShutdown | cancelSubmission | submissionsEnd |
      cancelSnapshot | awaitCompleted => cases hτ
  all_goals exact hσ hτ

/-- The owner thread goes past the critical section by raising shutdown. -/
theorem Move.owner_raised (hm : Move cfg σ a τ) (hτ : τ.owner.raised = true) :
    σ.owner.raised = true ∨ ∃ order, a = .raiseShutdown order := by
  cases hm
  case raiseShutdown order _ _ _ _ => exact .inr ⟨order, rfl⟩
  case cancelSubmission howner | submissionsEnd howner | cancelSnapshot howner |
      snapshotEnd howner => exact .inl (by rw [howner]; rfl)
  case shutdownAndWait | closeAdmission | awaitCompleted => cases hτ
  all_goals exact .inl hτ

/-- A step keeps what is not cancelled on the lists. -/
theorem Sweeping.step (h : Sweeping σ) (hσ : Reachable cfg ok σ) (hstep : step cfg a σ = .ok τ) :
    Sweeping τ := by
  have hm := move_of_step hstep
  by_cases ha : ∃ order, a = .raiseShutdown order
  · -- The snapshot has every submission and owned operation that is not finished.
    obtain ⟨order, rfl⟩ := ha
    cases hm with
    | raiseShutdown howner hcrit hnodup horder =>
      refine ⟨fun _ s => ?_, fun _ c p k hk hholds => ?_, fun hw => (by cases hw),
        fun _ => rfl⟩
      · by_cases hheld : σ.Holds s
        · exact .inr (.inl (List.mem_filter.mpr ⟨Enrolled.of_reachable hσ s hheld, hheld.strong⟩))
        · exact .inl fun p c hc hstate _ _ => absurd (.inr ⟨p, c, hc, hstate⟩) hheld
      · have hlive := (Custody.Handled.of_reachable hσ p k hk).mp
          (Option.isSome_of_any hholds)
        have hp : p ∈ order := by
          rw [← List.mem_toFinset, horder, State.ownedSnapshot, Finset.mem_filter]
          refine ⟨Finmap.mem_keys.mpr (Finmap.mem_of_lookup_eq_some hk), ?_⟩
          rw [show σ.data.ownedContexts.lookup p = some k from hk]
          simpa using hlive
        refine .inr (.inl (List.mem_filterMap.mpr ⟨p, hp, ?_⟩))
        rw [show σ.data.ownedContexts.lookup p = some k from hk]
        obtain ⟨handler, hhandler, hc⟩ := (Option.any_eq_true _ _).mp hholds
        rw [← beq_iff_eq.mp hc]
        exact congrArg some ((Custody.Sound.of_reachable hσ).context p k handler hk hhandler)
  · have ha : ∀ order, a ≠ .raiseShutdown order := fun order hr => ha ⟨order, hr⟩
    -- Any other step finds the flag raised, and keeps what was swept or is still listed.
    have hback : τ.data.shutdown = true → σ.data.shutdown = true := fun hτ =>
      (hm.shutdown hτ).resolve_right fun ⟨⟨order, hr⟩, _⟩ => ha order hr
    refine ⟨fun hτ s => ?_, fun hτ c p k hk hholds => ?_, hm.owner_waiting h.waiting,
      fun hτ => ?_⟩
    · rcases h.raw (hback hτ) s with hswept | htodo
      · exact .inl (hσ.swept_of_step hstep (hback hτ) hswept)
      · exact hm.owner_raw ha htodo
    · obtain ⟨k', hk', -, hhandler, hqueued⟩ := hσ.owned_old hstep (hback hτ) hk
      have hholds' : k'.holds c = true := by
        unfold OwnedCqeContext.holds at hholds ⊢
        rcases hhandler with hsame | hnone
        · rwa [← hsame]
        · rw [hnone] at hholds
          cases hholds
      rcases h.owned (hback hτ) c p k' hk' hholds' with hq | htodo
      · exact .inl (hqueued hq)
      · rcases hm.owner_owned (.of_reachable hσ) (.of_reachable hσ) ha htodo with hall | htodo
        · exact .inl (hall p k hk hholds)
        · exact .inr htodo
    · refine hm.shutdown_mono (h.raised ((hm.owner_raised hτ).resolve_right ?_))
      rintro ⟨order, rfl⟩
      exact ha order rfl

/-- What is not cancelled is on the owner thread's lists in every reachable state. -/
theorem Sweeping.of_reachable (h : Reachable cfg ok σ) : Sweeping σ := by
  have hboth : Reachable cfg ok σ ∧ Sweeping σ := by
    refine Lts.Reaches.invariant (I := fun σ => Reachable cfg ok σ ∧ Sweeping σ) h
      ⟨.refl, ?_⟩ fun σ τ a hI hok hstep => ⟨hI.1.tail hok hstep, hI.2.step hI.1 hstep⟩
    refine ⟨fun hs => ?_, fun hs => ?_, fun hw => ?_, fun hw => ?_⟩
    · cases hs
    · cases hs
    · cases hw
    · cases hw
  exact hboth.2

/-! ## The result -/

/-- A driver whose completion was announced has taken its last step. -/
theorem Move.completed (hm : Move cfg σ a τ) (hst : Staging σ)
    (h : σ.completed = true → σ.driver = .completed) (hτ : τ.completed = true) :
    τ.driver = .completed := by
  cases hm
  case complete => rfl
  case admissionsEnd hcrit =>
    have := hst.mpr ⟨_, _, hcrit⟩
    rw [h hτ] at this
    cases this
  case passBegin hd _ _ | failOwned hd | failEnd hd | reap hd _ _ | dispatchEnd hd _ |
      dispatch hd _ _ _ | publish hd | cancelOverflow hd | overflowEnd hd | decideStop hd _ |
      decide hd _ _ | parkNotified hd _ | park hd _ | resume hd _ | markRunning hd | takeRing hd _ |
      closeGate hd | retire hd _ _ =>
    rw [h hτ] at hd
    cases hd
  all_goals exact h hτ

/-- The completion is announced by a driver that has taken its last step. -/
theorem completed_of_reachable (h : Reachable cfg ok σ) (hc : σ.completed = true) :
    σ.driver = .completed := by
  refine h.inv_of (I := fun σ => σ.completed = true → σ.driver = .completed) Staging.of_reachable
    (fun hc => by cases hc) ?_ hc
  exact fun hst _ hI _ hm => hm.completed hst hI

/-- Nothing is left in the driver: no context, no queued command, no pending or queued operation;
every submission is drained, and every owned operation handed over is completed or failed. -/
structure State.Drained (σ : State) : Prop where
  idle : σ.data.Idle
  queue : σ.ownedQueue = []
  submissions : ∀ s, drained (σ.subs s).inner = true
  operations : ∀ c, (σ.ops c).accepted = true → σ.custody.releases c = 1

/-- A driver that has decided to stop has nothing left. -/
theorem State.Drained.of_stopping (h : Reachable cfg ok σ) (hstop : σ.driver.stopping = true) :
    σ.Drained := by
  obtain ⟨-, hidle, hqueue, -⟩ := (Stopping.of_reachable h).idle hstop
  refine ⟨hidle, hqueue, fun s => ?_, fun c hc => ?_⟩
  · rw [drained_iff_retired h]
    refine ⟨fun p c hc => ?_, fun k hk => ?_⟩
    · rw [hidle.contexts] at hc
      cases hc
    · rw [hidle.cancelQueue] at hk
      cases hk
  · have := (Custody.Sound.of_reachable h).balance c
    rw [Custody.places_of_stopping (.of_reachable h) hstop,
      show (σ.custody.ops c).accepted = true from hc, if_pos rfl] at this
    omega

/-- What `shutdown_and_wait` guarantees, in one state. -/
structure State.ShutsDown (cfg : PreparedRing) (ok : State → Action → Prop) (σ : State) : Prop where
  /-- Once shutdown was raised, no step ever inserts the context of an original. -/
  sealed : σ.data.shutdown = true → ∀ τ, Lts.Reaches (step cfg) ok σ τ →
    ∀ a υ, step cfg a τ = .ok υ →
      (∀ p c, υ.data.contexts.lookup p = some c → c.kind = .original →
        ∃ x, τ.data.contexts.lookup p = some x ∧ x.kind = .original ∧ x.state = c.state) ∧
      ∀ p k, υ.data.ownedContexts.lookup p = some k →
        ∃ x, τ.data.ownedContexts.lookup p = some x ∧ k.control = x.control
  /-- Once its sweep has returned, every original that is not terminal has its cancellation. -/
  swept : σ.owner = .waiting ∨ σ.owner = .owned [] ∧ σ.calls .owner = none →
    (∀ p c, σ.data.contexts.lookup p = some c → c.kind = .original → c.phase ≠ .terminal →
      c.cancelQueued = true) ∧
    ∀ p k, σ.data.ownedContexts.lookup p = some k → k.phase ≠ .terminal → k.cancelQueued = true
  /-- `run` reaches `Terminal` with nothing left. -/
  terminal : σ.gate.phase = .terminal → σ.Drained
  /-- Nobody finds the ring missing. -/
  ring : ∀ a, step cfg a σ ≠ .error (.abort .ringMissingDuringAdmission) ∧
    step cfg a σ ≠ .error (.abort .ringMissingDuringSubmit) ∧
    step cfg a σ ≠ .error (.abort .ringMissingDuringReap)
  /-- Completion is announced after that. -/
  completed : σ.completed = true → σ.gate.phase = .destroyed ∧ σ.Drained

/-- Ring shutdown drains everything, in every interleaving. -/
theorem shutdown_drains (h : Reachable cfg ok σ) : σ.ShutsDown cfg ok where
  sealed := by
    intro hshutdown τ hτ a υ hstep
    -- No step lowers the flag.
    have hall : Reachable cfg ok τ ∧ τ.data.shutdown = true := by
      refine Lts.Reaches.invariant
        (I := fun τ => Reachable cfg ok τ ∧ τ.data.shutdown = true) hτ ⟨h, hshutdown⟩ ?_
      intro τ υ a hI hok hstep
      exact ⟨hI.1.tail hok hstep, (move_of_step hstep).shutdown_mono hI.2⟩
    refine ⟨fun p c hc hkind => hall.1.context_old hstep hall.2 hc hkind, fun p k hk => ?_⟩
    obtain ⟨x, hx, hcontrol, -⟩ := hall.1.owned_old hstep hall.2 hk
    exact ⟨x, hx, hcontrol⟩
  swept := by
    intro howner
    have hsweep := Sweeping.of_reachable h
    have hshutdown : σ.data.shutdown = true := by
      rcases howner with howner | ⟨howner, -⟩ <;> exact hsweep.raised (by rw [howner]; rfl)
    -- The owner thread has nothing left to do but its last `notify`.
    have hcalls : σ.calls .owner = none ∨ σ.calls .owner = some .notify := by
      rcases howner with howner | ⟨-, hcall⟩
      · exact hsweep.waiting howner
      · exact .inl hcall
    have hlists : σ.owner.snapshot = [] ∧ σ.owner.controls = [] := by
      rcases howner with howner | ⟨howner, -⟩ <;> rw [howner] <;> exact ⟨rfl, rfl⟩
    refine ⟨fun p c hc hkind hphase => ?_, fun p k hk hphase => ?_⟩
    · -- What is unfinished would be on one of the lists, or in the call of the owner thread.
      rcases hsweep.raw hshutdown c.state with hswept | hlist | ⟨stage, d, hcall⟩
      · exact hswept p c hc rfl hkind hphase
      · rw [hlists.1] at hlist
        cases hlist
      · rw [hcall] at hcalls
        simp at hcalls
    · obtain ⟨handler, hhandler⟩ :=
        Option.isSome_iff_exists.mp ((Custody.Handled.of_reachable h p k hk).mpr hphase)
      have hholds : k.holds handler.control = true := by
        simp [OwnedCqeContext.holds, hhandler]
      rcases hsweep.owned hshutdown _ p k hk hholds with hqueued | hlist | hcall
      · exact hqueued
      · rw [hlists.2] at hlist
        cases hlist
      · rw [hcall] at hcalls
        simp at hcalls
  terminal := by
    intro hphase
    refine .of_stopping h ?_
    rw [(Gated.of_reachable h).terminal.mp hphase]
    rfl
  ring := by
    intro a
    refine ⟨fun he => ?_, fun he => ?_, fun he => ?_⟩ <;> cases excused_of_abort h he
  completed := by
    intro hc
    have hdriver := completed_of_reachable h hc
    refine ⟨(Gated.of_reachable h).destroyed.mpr (.inr hdriver), .of_stopping h ?_⟩
    rw [hdriver]
    rfl

/-- The owner thread shuts a ring down while an owned operation is in the kernel. -/
def sweptOperation : List Action :=
  stagedOperation ++
    [.beginShutdown, .shutdownAndWait, .closeAdmission, .raiseShutdown [10], .cancelSubmission,
      .cancelSnapshot, .sweepOwned .owner (some 10), .notify .owner, .cancelSnapshot]

/-- The operation has its cancellation by the time the owner thread waits. -/
theorem shutdown_drains_tiny :
    ∃ σ, Reachable .tiny Lts.Always σ ∧ σ.owner = .waiting ∧ σ.data.ownedCancelQueue = [⟨10⟩] ∧
      σ.ShutsDown .tiny Lts.Always := by
  have hrun : (Lts.exec (step .tiny) Lts.Always sweptOperation (.init .tiny)).any
      (fun σ => σ.owner = .waiting ∧ σ.data.ownedCancelQueue = [⟨10⟩]) = true := by decide
  obtain ⟨σ, hσ, howner, hqueue⟩ := Lts.exists_of_exec hrun
  exact ⟨σ, hσ, howner, hqueue, shutdown_drains hσ⟩

end Nosv.IoUring
