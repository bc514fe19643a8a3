import Nosv.IoUring.Contexts
import Nosv.IoUring.View

/-!
# Draining

What `WaitDrained` waits for. Once the capability for staging is given up, a submission with no
context and no queued command can never get one again; and the counters `drained` compares say
exactly that none is left.

* `drained_iff_retired`: `drained` says that no context and no command of the submission is left;
* `Retired.reaches`: it stays so;
* `drained_sound_and_stable`: both, for a submission whose `WaitDrained` exists.
-/

namespace Nosv.IoUring

variable {cfg : PreparedRing} {ok : State → Action → Prop} {σ τ : State} {s : SubId}

/-! ## Cancellations belong to the submission of their target -/

namespace Registry

variable {r r' : Registry}

/-- A cancellation of submission `s`, queued or in a context, targets `t`. -/
def Aims (r : Registry) (s : SubId) (t : Pointer) : Prop :=
  (∃ k ∈ r.cancelQueue, k.target = t ∧ k.state = s) ∨
    ∃ p c, r.contexts.lookup p = some c ∧ c.kind = .cancel ∧ c.target = some t ∧ c.state = s

/-- A cancellation is of the submission whose original it targets. -/
def Matched (r : Registry) : Prop :=
  ∀ s t o, r.Aims s t → r.contexts.lookup t = some o → o.state = s

/-- The target of a cancellation is registered. -/
theorem Paired.of_aims (h : r.Paired) {t : Pointer} (ht : r.Aims s t) :
    ∃ o, r.contexts.lookup t = some o ∧ o.kind = .original := by
  have htargets : r.rawPairs.Targets t := by
    rcases ht with ⟨k, hk, rfl, -⟩ | ⟨p, c, hc, hkind, htarget, -⟩
    · exact .inl (List.mem_map_of_mem hk)
    · exact .inr ⟨p, rawPairs_flights.mpr ⟨c, hc, hkind, htarget⟩⟩
  obtain ⟨i, hi, ho⟩ := h.raw.target t htargets
  obtain ⟨o, ho, hawaits⟩ := awaits_of_open hi ho
  exact ⟨o, ho, hawaits.1⟩

/-- After a step a cancellation targets what it did before, or what the step collected. -/
theorem Step.aims_cases (hs : r.Step r') {t : Pointer} (ht : r'.Aims s t) :
    r.Aims s t ∨ ∃ o, r.contexts.lookup t = some o ∧ o.state = s := by
  rcases ht with ⟨k, hk, rfl, rfl⟩ | ⟨p, c, hc, hkind, htarget, rfl⟩
  · rcases hs.command_cases hk with hk | ⟨c, hc, hcancel, -⟩
    · exact .inl (.inl ⟨k, hk, rfl, rfl⟩)
    · simp only [cancellable, Bool.and_eq_true, beq_iff_eq] at hcancel
      exact .inr ⟨c, hc, hcancel.2⟩
  · rcases hs.context_cases hc with ⟨x, hx, hstate, hk, ht, -⟩ | ⟨-, hk, -, -⟩ |
      ⟨-, command, hcommand, rfl⟩
    · exact .inl (.inr ⟨p, x, hx, hk.trans hkind, ht.trans htarget, hstate⟩)
    · rw [hkind] at hk
      cases hk
    · exact .inl (.inl ⟨command, hcommand, Option.some.inj htarget, rfl⟩)

/-- Every step keeps cancellations with their submissions. -/
theorem Step.matched (hs : r.Step r') (hp : r.Paired) (h : r.Matched) : r'.Matched := by
  intro s t o ht ho
  have hold : ∃ x, r.contexts.lookup t = some x ∧ x.state = s := by
    rcases hs.aims_cases ht with ht | hx
    · obtain ⟨x, hx, -⟩ := hp.of_aims ht
      exact ⟨x, hx, h s t x ht hx⟩
    · exact hx
  obtain ⟨x, hx, rfl⟩ := hold
  rcases hs.context_cases ho with ⟨y, hy, hstate, -⟩ | ⟨hfresh, -⟩ | ⟨hfresh, -⟩
  · obtain rfl := Option.some.inj (hx.symm.trans hy)
    exact hstate.symm
  · rw [hfresh.contexts] at hx
    cases hx
  · rw [hfresh.contexts] at hx
    cases hx

/-- Nothing of submission `s` is left in the registry. -/
structure Quiet (r : Registry) (s : SubId) : Prop where
  contexts : ∀ p c, r.contexts.lookup p = some c → c.state ≠ s
  commands : ∀ k ∈ r.cancelQueue, k.state ≠ s

/-- A step that stages no original of `s` brings nothing of `s` back. -/
theorem Step.quiet (hs : r.Step r') (h : r.Quiet s)
    (horiginals : (r'.counters s).originals = (r.counters s).originals) : r'.Quiet s where
  contexts := by
    rintro p c hc rfl
    rcases hs.context_cases hc with ⟨x, hx, hstate, -⟩ | ⟨-, -, -, hcount⟩ |
      ⟨-, command, hcommand, rfl⟩
    · exact h.contexts p x hx hstate
    · omega
    · exact h.commands command hcommand rfl
  commands := by
    rintro k hk rfl
    rcases hs.command_cases hk with hk | ⟨c, hc, hcancel, -⟩
    · exact h.commands k hk rfl
    · simp only [cancellable, Bool.and_eq_true, beq_iff_eq] at hcancel
      exact h.contexts _ c hc hcancel.2

/-- The counters of a submission with nothing left match. -/
theorem Quiet.drained (h : r.Quiet s) (hA : r.Accounts) :
    (r.counters s).originalTerminal = (r.counters s).originals ∧
      (r.counters s).cancelTerminal = (r.counters s).cancels := by
  have hlive : (r.contexts.count fun _ c => c.live s) = 0 := by
    rw [Finmap.count_eq_zero_iff]
    intro p c hc
    simp [CqeContext.live, h.contexts p c hc]
  have hcancels : (r.contexts.count fun _ c => c.cancels s fun _ => true) = 0 := by
    rw [Finmap.count_eq_zero_iff]
    intro p c hc
    simp [CqeContext.cancels, h.contexts p c hc]
  have hcommands : r.cancelQueue.countP (CancelCommand.cancels s fun _ => true) = 0 := by
    rw [List.countP_eq_zero]
    intro k hk
    simp [CancelCommand.cancels, h.commands k hk]
  have horiginals := hA.originals s
  have hgenerated := hA.generated s fun _ => true
  rw [hcancels, hcommands, List.countP_true, ← hA.cancels s, ← hA.cancelTerminal s] at hgenerated
  omega

/-- Matching counters leave nothing of a submission. -/
theorem Quiet.of_drained (hA : r.Accounts) (hP : r.Paired) (hM : r.Matched)
    (ho : (r.counters s).originalTerminal = (r.counters s).originals)
    (hc : (r.counters s).cancelTerminal = (r.counters s).cancels) : r.Quiet s := by
  have horiginals := hA.originals s
  have hgenerated := hA.generated s fun _ => true
  rw [List.countP_true, ← hA.cancels s, ← hA.cancelTerminal s] at hgenerated
  have hlive : ∀ p c, r.contexts.lookup p = some c → c.live s = false :=
    Finmap.count_eq_zero_iff.mp (by omega : (r.contexts.count fun _ c => c.live s) = 0)
  have hcancels : ∀ p c, r.contexts.lookup p = some c → c.cancels s (fun _ => true) = false :=
    Finmap.count_eq_zero_iff.mp
      (by omega : (r.contexts.count fun _ c => c.cancels s fun _ => true) = 0)
  have hcommands : ∀ k ∈ r.cancelQueue, k.state ≠ s := by
    have hzero : r.cancelQueue.countP (CancelCommand.cancels s fun _ => true) = 0 := by omega
    intro k hk hks
    simpa [CancelCommand.cancels, hks] using List.countP_eq_zero.mp hzero k hk
  refine ⟨fun p c hpc hcs => ?_, hcommands⟩
  cases hk : c.kind with
  | cancel =>
    have := hcancels p c hpc
    rw [CqeContext.cancels_cancel hk, hcs] at this
    simp at this
  | original =>
    -- A terminal original waits for a cancellation of its own submission.
    have hterminal : c.phase = .terminal := by
      by_contra hne
      have := hlive p c hpc
      rw [CqeContext.live_original hk hne, hcs] at this
      simp at this
    have hitem : r.rawPairs.items p =
        some ⟨c.phase == .terminal, c.cancelQueued, c.cancelSeen⟩ :=
      (Finmap.view_of_lookup hpc).trans (CqeContext.item?_original hk)
    have hopen := hP.raw.finished p _ hitem (by simp [hterminal])
    rcases hP.raw.targeted p _ hitem hopen with hq | ⟨f, hf⟩
    · obtain ⟨k, hk, rfl⟩ := List.mem_map.mp hq
      have := hM k.state k.target c (.inl ⟨k, hk, rfl, rfl⟩) hpc
      exact hcommands k hk (this ▸ hcs)
    · obtain ⟨x, hx, hxk, hxt⟩ := rawPairs_flights.mp hf
      have := hM x.state p c (.inr ⟨f, x, hx, hxk, hxt, rfl⟩) hpc
      have hcancel := hcancels f x hx
      rw [CqeContext.cancels_cancel hxk, ← this, hcs] at hcancel
      simp at hcancel

/-! ## Cancellations asked for -/

/-- Every unfinished original of submission `s` has its cancellation. -/
def Swept (r : Registry) (s : SubId) : Prop :=
  ∀ p c, r.contexts.lookup p = some c → c.state = s → c.kind = .original → c.phase ≠ .terminal →
    c.cancelQueued = true

/-- A step that stages no original of `s` leaves every original of `s` with its cancellation. -/
theorem Step.swept (hs : r.Step r') (h : r.Swept s)
    (horiginals : (r'.counters s).originals = (r.counters s).originals) : r'.Swept s := by
  rintro p c hc rfl hkind hphase
  rcases hs.context_cases hc with ⟨x, hx, hstate, hk, -, -, hqueued, hterminal⟩ |
    ⟨-, -, -, hcount⟩ | ⟨-, command, -, rfl⟩
  · exact hqueued (h p x hx hstate (hk.trans hkind) (hterminal hphase))
  · omega
  · cases hkind

/-- A submission whose originals all have their cancellations is given no further one. -/
theorem Step.generated_of_swept (hs : r.Step r') (h : r.Swept s) :
    (r'.keys s).generated = (r.keys s).generated := by
  cases hs with
  | @sweep t order commands hnodup horder htargets hcommands =>
    simp only [log_keys, count_keys]
    by_cases hst : s = t
    · subst hst
      have hnil : commands = [] := by
        refine List.eq_nil_iff_forall_not_mem.mpr fun k hk => ?_
        obtain ⟨c, hc, hcancel, -⟩ := hcommands k hk
        simp only [cancellable, Bool.and_eq_true, beq_iff_eq, bne_iff_ne,
          Bool.not_eq_true'] at hcancel
        have := h _ c hc hcancel.2 hcancel.1.1.1 hcancel.1.1.2
        rw [hcancel.1.2] at this
        cases this
      simp [hnil]
    · rw [if_neg hst]
  | original | acceptOriginal | more | retire | retireCancel =>
    simp only [log_keys, count_keys]
    split_ifs <;> rfl
  | _ => rfl

/-- Cancellations are with their submissions in every reachable state. -/
theorem Matched.of_reachable (h : Reachable cfg ok σ) : σ.registry.Matched := by
  have hboth : σ.registry.Paired ∧ σ.registry.Matched := by
    refine h.registry_inv (I := fun r => r.Paired ∧ r.Matched)
      ⟨.of_reachable (Lts.Reaches.refl : Reachable cfg ok _), ?_⟩
      fun hI hs => ⟨hs.paired hI.1, hs.matched hI.1 hI.2⟩
    intro s t o _ ho
    cases ho
  exact hboth.2

end Registry

/-! ## Capabilities given up -/

/-- The caller cannot stage originals any more, and has no stream. -/
def Role.closed : Role → Bool
  | .cancellation | .gone => true
  | _ => false

/-- A step stages no original of a submission, unless `admit` for it holds the mutex and pushes. -/
theorem View.Step.originals {x y : View} {a : Action} (hs : x.Step s a y) :
    y.inner.originals = x.inner.originals ∨
      x.admits = true ∧ (∃ fut, x.client.role = .submit fut) ∧ ∃ p, a = .stageOriginal p := by
  have hcounters : ∀ {st : SubmissionInner}, st.toCounters = x.inner.toCounters →
      st.originals = x.inner.originals := fun h => congrArg Counters.originals h
  cases hs
  case other hinner _ _ _ _ _ _ _ => exact .inl (by rw [hinner])
  case opened => exact .inl (by split_ifs <;> rfl)
  case nextReady w _ _ _ hnext =>
    exact .inl (hcounters (by simpa only [hnext] using nextCompletion_counters w x.inner))
  case nextPending w _ _ hnext =>
    exact .inl (hcounters (by simpa only [hnext] using nextCompletion_counters w x.inner))
  case cancellationReady w _ _ _ _ hnext =>
    exact .inl (hcounters (by simpa only [hnext] using nextCancellation_counters w x.inner))
  case cancellationPending w _ _ _ hnext =>
    exact .inl (hcounters (by simpa only [hnext] using nextCancellation_counters w x.inner))
  case close d _ => exact .inl (hcounters (closeDelivery_counters d x.inner))
  case ownerClose => exact .inl (hcounters (closeDelivery_counters _ x.inner))
  case wakeAdmission => exact .inl (hcounters (wakeUnfinished_counters (x.inner, [])))
  case original c m _ =>
    have hc := congrArg Counters.originals (dispatchOriginal_counters x.limit c m (x.inner, []))
    refine .inl (hc.trans ?_)
    cases m <;> rfl
  case cancel c _ =>
    have hc := congrArg Counters.originals (dispatchCancel_counters x.limit c (x.inner, []))
    exact .inl hc
  case staged fut _ p hadmits hrole _ => exact .inr ⟨hadmits, ⟨fut, hrole⟩, p, rfl⟩
  all_goals exact .inl rfl

/-- Closing is final: a closed caller stays closed, and stages nothing. -/
theorem View.Step.closed {x y : View} {a : Action} (hs : x.Step s a y)
    (hr : x.client.role.closed = true) :
    y.client.role.closed = true ∧ y.inner.originals = x.inner.originals := by
  refine ⟨?_, hs.originals.resolve_right ?_⟩
  · cases hs
    case other hclient _ _ _ _ _ => exact hclient ▸ hr
    case register hrole | opened hrole | pollCheck hrole _ _ _ | pollAdmit hrole _ _ _
      | submitFailed hrole _ _ _ | submitOk hrole _ _ _ _ _ _ | submitPending hrole _ _ _ _ _
      | dropSubmit hrole _ _ | nextReady hrole _ | nextPending hrole _ | cancelStream hrole
      | dropStream hrole | iteratorSome hrole _ _ | iteratorNone hrole _
      | iteratorPanic hrole _ | staged hrole _ =>
      rw [hrole] at hr
      cases hr
    case dropCancellation => rfl
    all_goals exact hr
  · rintro ⟨-, ⟨fut, hrole⟩, -⟩
    rw [hrole] at hr
    cases hr

/-- A caller becomes closed by a `request_cancel` that it has yet to make. -/
theorem View.Step.closing {x y : View} {a : Action} (hs : x.Step s a y)
    (hr : y.client.role.closed = true) :
    x.client.role.closed = true ∨ ∃ d, y.call = some (.requestCancel .close s d) := by
  cases hs
  case other hclient _ _ _ _ _ => exact .inl (hclient ▸ hr)
  case submitFailed | dropSubmit | cancelStream | dropStream => exact .inr ⟨_, rfl⟩
  case dropCancellation hrole _ => exact .inl (by simp [hrole, Role.closed])
  case register | opened | submitOk | submitPending | iteratorSome | staged => cases hr
  all_goals exact .inl hr

/-- A caller's `request_cancel` goes on until it has queued the cancellations. -/
theorem View.Step.calling {x y : View} {a : Action} {st : CancelStage} {d : Delivery}
    (hs : x.Step s a y) (hf : x.client.Fits s x.call x.admits)
    (hx : x.call = some (.requestCancel st s d)) :
    (∃ st d, y.call = some (.requestCancel st s d)) ∨ ∃ b order, a = .sweep b order := by
  have hbusy : x.call ≠ none := by simp [hx]
  cases hs
  case other hcall _ _ _ _ => exact .inl ⟨st, d, hcall.trans hx⟩
  case sweep => exact .inr ⟨_, _, rfl⟩
  case pollCheck hcall _ | submitPending hcall _ _ _ | dropSubmit hcall => exact absurd hcall hbusy
  case submitFailed | cancelStream | dropStream | close => exact .inl ⟨_, _, rfl⟩
  case notify hcall =>
    rw [hx] at hcall
    cases hcall
  case admitEnd hadmits _ => exact absurd (hf.of_admits hadmits).2.2 hbusy
  all_goals exact .inl ⟨st, d, hx⟩

/-- `request_cancel` of submission `t` asks for the cancellation of all its originals. -/
theorem Registry.Swept.of_sweep {t : SubId} {order : List Pointer} (hnodup : order.Nodup)
    (horder : order.toFinset = cancelTargets σ.data t)
    (hcontexts : τ.data.contexts = (cancelOriginals order t σ.data σ.subs).1.contexts) :
    τ.registry.Swept t := by
  intro p c hc hstate hkind hphase
  change τ.data.contexts.lookup p = some c at hc
  rw [hcontexts, cancelOriginals_lookup hnodup horder] at hc
  obtain ⟨x, -, rfl⟩ := Option.map_eq_some_iff.mp hc
  by_cases hx : cancellable t x = true
  · rw [if_pos hx]
  · rw [if_neg hx] at hstate hkind hphase ⊢
    simpa [cancellable, hstate, hkind, hphase] using hx

/-- A closed caller whose `request_cancel` is over has asked for the cancellation of all its
originals. -/
def State.Closed (σ : State) : Prop :=
  ∀ s, (σ.clients s).role.closed = true →
    (∀ st d, σ.calls (.client s) ≠ some (.requestCancel st s d)) → σ.registry.Swept s

/-- Every closed caller has asked for what it should have, in every reachable state. -/
theorem State.Closed.of_reachable (h : Reachable cfg ok σ) : σ.Closed := by
  refine h.inv_of (J := fun σ => Reachable cfg ok σ) (fun hr => hr) (fun s hr => by cases hr) ?_
  intro σ τ a hσ _ hI _ hm s hr hcall
  have hA := Allocated.of_reachable hσ
  have hT := Threads.of_reachable hσ
  have hview := view_move hA hT (.of_reachable hσ) (.of_reachable hσ) hm s
  have hregistry := registry_move hA (.of_reachable hσ) hm
  rcases hview.closing hr with hclosed | ⟨d, hd⟩
  · by_cases hbusy : ∃ st d, σ.calls (.client s) = some (.requestCancel st s d)
    · obtain ⟨st, d, hbusy⟩ := hbusy
      rcases hview.calling (hT.fits s) hbusy with ⟨st', d', hd⟩ | ⟨b, order, rfl⟩
      · exact absurd hd (hcall st' d')
      · cases hm with
        | @sweep _ t d' _ hb hcrit hnodup horder =>
          -- Only the caller's own sweep ends its call.
          by_cases hbs : b = .client s
          · subst hbs
            obtain rfl : t = s := (hb ▸ hT.fits s).target_eq
            exact .of_sweep hnodup horder rfl
          · refine absurd ?_ (hcall st d)
            rw [← hbusy]
            exact Function.update_of_ne (Ne.symm hbs) _ _
    · exact hregistry.swept (hI s hclosed fun st d hd => hbusy ⟨st, d, hd⟩)
        (hview.closed hclosed).2
  · exact absurd hd (hcall _ d)

/-! ## The result -/

/-- No context and no queued command of submission `s` is left in the driver. -/
def State.Retired (σ : State) (s : SubId) : Prop :=
  (∀ p c, σ.data.contexts.lookup p = some c → c.state ≠ s) ∧
    ∀ k ∈ σ.data.cancelQueue, k.state ≠ s

/-- In a reachable state the counters match exactly when nothing is left. -/
theorem drained_iff_retired (h : Reachable cfg ok σ) :
    drained (σ.subs s).inner = true ↔ σ.Retired s := by
  have hA := Registry.Accounts.of_reachable h
  rw [drained_iff]
  constructor
  · rintro ⟨ho, hc⟩
    have hquiet := Registry.Quiet.of_drained hA (.of_reachable h) (.of_reachable h) ho hc
    exact ⟨hquiet.contexts, hquiet.commands⟩
  · rintro ⟨hcontexts, hcommands⟩
    exact Registry.Quiet.drained (r := σ.registry) ⟨hcontexts, hcommands⟩ hA

/-- A closed caller with nothing left never gets anything again. -/
theorem Retired.reaches (h : Reachable cfg ok σ) (hr : (σ.clients s).role.closed = true)
    (hq : σ.Retired s) (hτ : Lts.Reaches (step cfg) ok σ τ) : τ.Retired s := by
  have hall : Reachable cfg ok τ ∧ (τ.clients s).role.closed = true ∧ τ.registry.Quiet s := by
    refine Lts.Reaches.invariant
      (I := fun τ => Reachable cfg ok τ ∧ (τ.clients s).role.closed = true ∧ τ.registry.Quiet s)
      hτ ⟨h, hr, hq.1, hq.2⟩ ?_
    rintro τ υ a ⟨hreach, hclosed, hquiet⟩ hok hstep
    have hA := Allocated.of_reachable hreach
    obtain ⟨hclosed', horiginals⟩ := (hreach.view_step hstep s).closed hclosed
    refine ⟨hreach.tail hok hstep, hclosed', ?_⟩
    exact (registry_move hA (.of_reachable hreach) (move_of_step hstep)).quiet hquiet horiginals
  exact ⟨hall.2.2.contexts, hall.2.2.commands⟩

/-- If a `Cancellation` exists and the counters match, nothing of its submission is left in the
driver, and that stays so: in every later state the counters match and nothing is there. -/
theorem drained_sound_and_stable (h : Reachable cfg ok σ)
    (hrole : (σ.clients s).role = .cancellation) (hd : drained (σ.subs s).inner = true) :
    σ.Retired s ∧ ∀ τ, Lts.Reaches (step cfg) ok σ τ →
      drained (τ.subs s).inner = true ∧ τ.Retired s := by
  have hretired := (drained_iff_retired h).mp hd
  refine ⟨hretired, fun τ hτ => ?_⟩
  have hlater := Retired.reaches h (by rw [hrole]; rfl) hretired hτ
  exact ⟨(drained_iff_retired (h.trans hτ)).mpr hlater, hlater⟩

/-- The one SQE of a submission is accepted, its stream is cancelled, and both CQEs come in, that
of the cancellation first. -/
def drainedStream : List Action :=
  cancelledStream ++
    [.notify (.client 0), .passBegin, .stageCancellation 20, .stageCancellation 30,
      .stageOwnedCancellation 30, .stageOwned 30, .submit (.ok 1), .accept, .accept,
      .wakeAdmission, .wakeAdmission, .failOwned, .kernelPost ⟨20, 0, 0⟩,
      .kernelPost ⟨10, -125, 0⟩, .reap, .dispatch, .dispatch]

/-- The submission is then drained for good. -/
theorem drained_sound_and_stable_tiny :
    ∃ σ, Reachable .tiny Lts.Always σ ∧ (σ.subs 0).inner.originals = 1 ∧
      (σ.subs 0).inner.cancels = 1 ∧ σ.Retired 0 ∧
        ∀ τ, Lts.Reaches (step .tiny) Lts.Always σ τ →
          drained (τ.subs 0).inner = true ∧ τ.Retired 0 := by
  have hrun : (Lts.exec (step .tiny) Lts.Always drainedStream (.init .tiny)).any
      (fun σ => (σ.clients 0).role = .cancellation ∧ drained (σ.subs 0).inner = true ∧
        (σ.subs 0).inner.originals = 1 ∧ (σ.subs 0).inner.cancels = 1) = true := by decide
  obtain ⟨σ, hσ, hrole, hdrained, horiginals, hcancels⟩ := Lts.exists_of_exec hrun
  exact ⟨σ, hσ, horiginals, hcancels, drained_sound_and_stable hσ hrole hdrained⟩

end Nosv.IoUring
