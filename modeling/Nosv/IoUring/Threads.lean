import Nosv.IoUring.Parking

/-!
# Who is doing what

Every reference to a submission is to an allocated one, and each thread's calls fit the capability
it holds: a caller cancels only its own submission, the owner thread only detaches, and the driver
only cancels submissions whose delivery has closed already.

`Allocated.of_reachable` and `Threads.of_reachable` are the two invariants.
-/

namespace Nosv.IoUring

variable {cfg : PreparedRing} {ok : State → Action → Prop} {σ τ : State} {a : Action}

/-! ## Allocation -/

/-- The submission a call works on. -/
def Call.target? : Option Call → Option SubId
  | some (.requestCancel _ s _) => some s
  | _ => none

/-- The submissions the holder of the mutex works on. -/
def critSubs : Option (Holder × Stage) → List SubId
  | some (.admission s _ _, _) => [s]
  | some (.pass _, .admissions rest) => rest
  | _ => []

/-- Going on with another stage, the holder works on no further submission. -/
theorem critSubs_subset {h : Holder} {st st' : Stage} (hst : ∀ l, st' ≠ .admissions l) :
    ∀ s ∈ critSubs (some (h, st')), s ∈ critSubs (some (h, st)) := by
  cases h with
  | admission => exact fun s hs => hs
  | pass =>
    intro s hs
    cases st' with
    | admissions l => exact absurd rfl (hst l)
    | _ => cases hs

/-- Every reference is to an allocated submission, and the others are untouched. -/
structure Allocated (cfg : PreparedRing) (σ : State) : Prop where
  client : ∀ s, (σ.clients s).role ≠ .unborn → s < σ.nextSub
  caller : ∀ s, σ.calls (.client s) ≠ none → s < σ.nextSub
  call : ∀ a, ∀ s ∈ Call.target? (σ.calls a), s < σ.nextSub
  context : ∀ p, ∀ c ∈ σ.data.contexts.lookup p, c.state < σ.nextSub
  command : ∀ c ∈ σ.data.cancelQueue, c.state < σ.nextSub
  weak : ∀ s ∈ σ.data.submissions, s < σ.nextSub
  overflow : ∀ s ∈ σ.driver.overflowed, s < σ.nextSub
  snapshot : ∀ s ∈ σ.owner.snapshot, s < σ.nextSub
  crit : ∀ s ∈ critSubs σ.crit, s < σ.nextSub
  fresh : ∀ s, σ.nextSub ≤ s →
    σ.subs s = .new cfg.config.maxBufferedCompletions ∧ σ.history s = .new

namespace Allocated

variable {s : SubId} {c : Client}

/-- A submission with an admission future is allocated. -/
theorem of_fut {fut : SubmitEntries} (h : Allocated cfg σ)
    (hfut : (σ.clients s).role.fut? = some fut) : s < σ.nextSub := by
  refine h.client s fun hr => ?_
  rw [hr] at hfut
  cases hfut

/-- Updating the caller side of an allocated submission. -/
theorem setClient (h : Allocated cfg σ) (hs : s < σ.nextSub) (c : Client) :
    Allocated cfg (σ.setClient s c) :=
  { h with
    client := (Function.forall_update_iff σ.clients
      fun t c => c.role ≠ .unborn → t < σ.nextSub).mpr ⟨fun _ => hs, fun t _ => h.client t⟩ }

/-- Starting or ending a call that names only allocated submissions. -/
theorem setCall (h : Allocated cfg σ) (b : Actor) (x : Option Call)
    (hb : ∀ s, b = .client s → s < σ.nextSub) (hx : ∀ s ∈ Call.target? x, s < σ.nextSub) :
    Allocated cfg (σ.setCall b x) :=
  { h with
    caller := by
      intro t ht
      by_cases hbt : b = .client t
      · exact hb t hbt
      · refine h.caller t ?_
        rwa [State.setCall_calls, if_neg fun h => hbt h.symm] at ht
    call := (Function.forall_update_iff σ.calls
      fun _ x => ∀ s ∈ Call.target? x, s < σ.nextSub).mpr ⟨hx, fun b _ => h.call b⟩ }

/-- Ending a call that the actor is in, or going on with it. -/
theorem goCall (h : Allocated cfg σ) {b : Actor} (hb : σ.calls b ≠ none) (x : Option Call)
    (hx : ∀ s ∈ Call.target? x, s < σ.nextSub) : Allocated cfg (σ.setCall b x) :=
  h.setCall b x (fun t ht => h.caller t (ht ▸ hb)) hx

/-- Updating what an allocated submission's mutex protects. -/
theorem setInner (h : Allocated cfg σ) (hs : s < σ.nextSub) (st : SubmissionInner) :
    Allocated cfg (σ.setInner s st) :=
  { h with
    fresh := by
      intro t ht
      refine ⟨?_, (h.fresh t ht).2⟩
      show σ.subs.set s st t = _
      rw [Submissions.set_of_ne _ _ (Nat.ne_of_gt (Nat.lt_of_lt_of_le hs ht))]
      exact (h.fresh t ht).1 }

/-- Extending the history of an allocated submission. -/
theorem record (h : Allocated cfg σ) (hs : s < σ.nextSub) (f : History → History) :
    Allocated cfg (σ.record s f) :=
  { h with
    fresh := by
      intro t ht
      refine ⟨(h.fresh t ht).1, ?_⟩
      rw [State.record_history, if_neg (Nat.ne_of_gt (Nat.lt_of_lt_of_le hs ht))]
      exact (h.fresh t ht).2 }

/-- Every move keeps references to allocated submissions. -/
theorem move (h : Allocated cfg σ) (hm : Move cfg σ a τ) : Allocated cfg τ := by
  cases hm
  -- The only step that takes a new identifier.
  case registerSubmission hcrit =>
    have hlt : ∀ {t}, t < σ.nextSub → t < σ.nextSub + 1 := fun ht => Nat.lt_succ_of_lt ht
    exact {
      client := (Function.forall_update_iff σ.clients
        fun t c => c.role ≠ .unborn → t < σ.nextSub + 1).mpr
          ⟨fun _ => Nat.lt_succ_self _, fun t _ ht => hlt (h.client t ht)⟩
      caller := fun t ht => hlt (h.caller t ht)
      call := fun b t ht => hlt (h.call b t ht)
      context := fun p c hc => hlt (h.context p c hc)
      command := fun c hc => hlt (h.command c hc)
      weak := by
        intro t ht
        rcases List.mem_append.mp ht with ht | ht
        · exact hlt (h.weak t (List.mem_filter.mp ht).1)
        · rw [List.mem_singleton.mp ht]
          exact Nat.lt_succ_self _
      overflow := fun t ht => hlt (h.overflow t ht)
      snapshot := fun t ht => hlt (h.snapshot t ht)
      crit := fun t ht => hlt (h.crit t ht)
      fresh := by
        intro t ht
        have hne : t ≠ σ.nextSub := Nat.ne_of_gt ht
        refine ⟨?_, (h.fresh t (Nat.le_of_succ_le ht)).2⟩
        show Function.update σ.subs _ _ t = _
        rw [Function.update_of_ne hne]
        exact (h.fresh t (Nat.le_of_succ_le ht)).1 }
  -- A caller's steps are about its own submission.
  case openSubmission s hrole | nextPending s _ _ hrole _ | cancellationPending s _ _ hrole _ _
    | drainedReady s _ hrole _ _ | drainedPending s _ hrole _ _ | dropCancellation s hrole _ =>
    have hs := h.client s (by simp [hrole])
    exact (h.setInner hs _).setClient hs _
  case pollClosed hfut _ _ _ => exact h.setClient (h.of_fut hfut) _
  case pollRefused hfut _ _ _ _ _ | dropSubmit hfut _ _ =>
    have hs := h.of_fut hfut
    exact (h.setClient hs _).setCall _ _ (by rintro _ ⟨⟩; exact hs) (by rintro _ ⟨⟩; exact hs)
  case pollDeferred hfut _ _ _ _ _ _ =>
    have hs := h.of_fut hfut
    exact (h.setClient hs _).setCall _ _ (by rintro _ ⟨⟩; exact hs) (by rintro _ ⟨⟩)
  case pollAdmit hfut _ _ _ _ _ _ _ =>
    have hs := h.of_fut hfut
    exact { h.setClient hs _ with
      crit := by
        intro t ht
        rw [List.mem_singleton.mp ht]
        exact hs }
  case submitFailed hfut _ _ _ =>
    have hs := h.of_fut hfut
    exact ((h.setClient hs _).setCall _ _ (by rintro _ ⟨⟩; exact hs)
      (by rintro _ ⟨⟩; exact hs)).record hs _
  case submitOk hfut _ _ _ _ _ _ | iteratorSome s _ _ _ _ hcrit hfut _ _ =>
    have hs := h.of_fut hfut
    exact (h.setClient hs _).record hs _
  case submitPending hfut _ _ _ _ _ =>
    have hs := h.of_fut hfut
    exact ((h.setInner hs _).setClient hs _).setCall _ _ (by rintro _ ⟨⟩; exact hs)
      (by rintro _ ⟨⟩)
  case nextReady s _ _ _ hrole _ | cancellationReady s _ _ _ hrole _ _ =>
    have hs := h.client s (by simp [hrole])
    exact ((h.setInner hs _).setClient hs _).record hs _
  case dropFuture s hrole =>
    exact h.setClient (h.client s (by rcases hrole with h | h <;> simp [h])) _
  case cancelStream s hrole | dropStream s hrole =>
    have hs := h.client s (by simp [hrole])
    exact (h.setClient hs _).setCall _ _ (by rintro _ ⟨⟩; exact hs) (by rintro _ ⟨⟩; exact hs)
  case close b s d hcall =>
    have hs := h.call b s (by simp [hcall, Call.target?])
    exact (h.setInner hs _).goCall (by simp [State.setInner, hcall]) _ (by rintro _ ⟨⟩; exact hs)
  -- The commands of a sweep are for its own submission.
  case sweep b s d order hcall hcrit hnd ho =>
    have hs := h.call b s (by simp [hcall, Call.target?])
    have hinner := ((h.setInner hs
      { (σ.subs s).inner with
        cancels := (σ.subs s).inner.cancels +
          (order.filterMap (cancelCommand σ.data)).length }).goCall
        (b := b) (by simp [State.setInner, hcall]) (some .notify)
        (by rintro _ ⟨⟩)).record hs fun h =>
          { h with
            generated := h.generated ++
              (order.filterMap (cancelCommand σ.data)).map CancelCommand.key }
    exact { hinner with
      context := by
        intro p c hc
        change c ∈ (cancelOriginals order s σ.data σ.subs).1.contexts.lookup p at hc
        rw [cancelOriginals_lookup hnd ho] at hc
        obtain ⟨c', hc', rfl⟩ := Option.mem_map.mp hc
        split_ifs
        · exact h.context p c' hc'
        · exact h.context p c' hc'
      command := by
        intro c hc
        rcases List.mem_append.mp hc with hc | hc
        · exact h.command c hc
        · obtain ⟨c', -, -, hcmd⟩ := mem_cancelCommands ho hc
          rw [hcmd]
          exact hs
      fresh := by
        intro t ht
        refine ⟨?_, (hinner.fresh t ht).2⟩
        show (cancelOriginals order s σ.data σ.subs).2 t = _
        rw [cancelOriginals_subs]
        exact (hinner.fresh t ht).1 }
  case sweepOwned b c p hcall _ _ =>
    have := h.goCall (b := b) (by simp [hcall]) (some .notify) (by rintro _ ⟨⟩)
    exact { this with }
  case sweepOwnedNone hcall _ _ => exact h.goCall (by simp [hcall]) _ (by rintro _ ⟨⟩)
  case notify b y hcall _ =>
    have := h.goCall (b := b) (by simp [hcall]) none (by rintro _ ⟨⟩)
    exact { this with }
  -- A cancellation gets the submission of its command, an original that of the `admit`.
  case stageCancellation holder r p y hcrit _ _ hy =>
    have hcrit' : ∀ b : Bool, ∀ s ∈ critSubs
        (some (holder, if b then .cancels else State.afterCancels holder)), s < σ.nextSub := by
      intro b t ht
      refine h.crit t (hcrit ▸ critSubs_subset ?_ t ht)
      cases b <;> cases holder <;> simp [State.afterCancels]
    rcases stageCancellation_cases hy with rfl | ⟨command, rest, hq, -, rfl⟩
    · exact { h with crit := hcrit' false }
    · exact { h with
        crit := hcrit' true
        context := by
          intro q c hc
          rw [Finmap.lookup_insert_eq_ite] at hc
          split_ifs at hc with hqp
          · obtain rfl := Option.some.inj hc
            exact h.command command (by simp [hq])
          · exact h.context q c hc
        command := fun c hc => h.command c (by rw [hq]; exact List.mem_cons_of_mem _ hc) }
  case stageOwnedCancellation holder r p y hcrit _ _ hy =>
    have hcrit' : ∀ b : Bool, ∀ s ∈ critSubs
        (some (holder, if b then .ownedCancels else .owned cfg.config.entries)),
        s < σ.nextSub := by
      intro b t ht
      refine h.crit t (hcrit ▸ critSubs_subset ?_ t ht)
      cases b <;> simp
    rcases stageOwnedCancellation_cases hy with rfl | ⟨command, rest, hq, -, rfl⟩
    · exact { h with crit := hcrit' false }
    · exact { h with crit := hcrit' true }
  case ownedBudget => exact { h with crit := by rintro s ⟨⟩ }
  case stageOwned failed budget r p y hcrit _ _ hy =>
    have hcrit' : ∀ (b : Bool) (f : List Failed),
        ∀ s ∈ critSubs (some (.pass f, if b then .owned budget else .submit)),
          s < σ.nextSub := by
      rintro (_ | _) f s ⟨⟩
    have hpop : ∀ op x', popOwned ⟨σ.data, σ.ownedQueue, r, failed⟩ = some (op, x') →
        x'.data.contexts = σ.data.contexts ∧ x'.data.cancelQueue = σ.data.cancelQueue ∧
          x'.data.submissions = σ.data.submissions := by
      intro op x' hx
      rcases popOwned_cases hx with ⟨_, _, rfl⟩ | ⟨_, _, _, rfl⟩ <;> exact ⟨rfl, rfl, rfl⟩
    have hdata : y.2.data.contexts = σ.data.contexts ∧
        y.2.data.cancelQueue = σ.data.cancelQueue ∧
          y.2.data.submissions = σ.data.submissions := by
      rcases stageOwned_cases hy with ⟨_, rfl⟩ | ⟨op, x', hx, ⟨_, rfl⟩ | rfl | ⟨_, _, rfl⟩⟩
      · exact ⟨rfl, rfl, rfl⟩
      all_goals exact hpop op x' hx
    obtain ⟨k1, k2, k3⟩ := hdata
    exact { h with
      crit := hcrit' _ _
      context := k1 ▸ h.context
      command := k2 ▸ h.command
      weak := k3 ▸ h.weak }
  case iteratorNone s _ _ _ hcrit hfut _ =>
    have hs := h.of_fut hfut
    exact { h.setInner hs _ with crit := fun t ht => h.crit t (hcrit ▸ ht) }
  case iteratorPanic hfut _ =>
    exact { h.setClient (h.of_fut hfut) _ with crit := by rintro _ ⟨⟩ }
  case originalFull s _ _ _ _ _ _ _ hcrit hfut _ _ _ =>
    exact { h.setClient (h.of_fut hfut) _ with crit := fun t ht => h.crit t (hcrit ▸ ht) }
  case originalStaged s w n fut item r p y hcrit hfut hpending _ _ hy =>
    have hs := h.of_fut hfut
    obtain ⟨-, rfl⟩ := stageOriginal_staged hy
    exact { ((h.setInner hs _).setClient hs
        { σ.clients s with role := .submit { fut with pending := none } }).record hs
          (fun h => { h with staged := h.staged ++ [item] }) with
      crit := fun t ht => h.crit t (hcrit ▸ ht)
      context := by
        intro q c hc
        rw [Finmap.lookup_insert_eq_ite] at hc
        split_ifs at hc with hqp
        · obtain rfl := Option.some.inj hc
          exact hs
        · exact h.context q c hc }
  case submitAccepted hcrit _ _ _ =>
    exact { h with crit := fun t ht => h.crit t (hcrit ▸ critSubs_subset (by simp) t ht) }
  case submitRetry hcrit _ =>
    exact { h with crit := fun t ht => h.crit t (hcrit ▸ critSubs_subset (by simp) t ht) }
  case admitEnd s w n hcrit =>
    have hs := h.crit s (by simp [hcrit, critSubs])
    have := (h.setClient hs { σ.clients s with pc := .check w }).setCall (.client s)
      (if n || ((σ.clients s).role.fut?.bind (·.pending)).isSome then some .notify else none)
      (by rintro _ ⟨⟩; exact hs) (by split <;> rintro _ ⟨⟩)
    exact { this with crit := by rintro _ ⟨⟩ }
  -- A pass wakes the submissions that the registry refers to.
  case passEnd hcrit =>
    exact { h with
      crit := by
        intro t ht
        change t ∈ (if σ.ownedWork then [] else σ.data.submissions) at ht
        split at ht
        · cases ht
        · exact h.weak t ht }
  -- A context changes its phase and keeps its submission.
  case accept holder count r y hcrit hring hy =>
    have hcrit' : ∀ s ∈ critSubs (some (holder, .accept count)), s < σ.nextSub :=
      fun t ht => h.crit t (hcrit ▸ critSubs_subset (by simp) t ht)
    rcases acceptStaged_cases hy with ⟨p, rest, c, hs, hc, hp, rfl⟩ |
      ⟨p, rest, c, hs, hc, hp, rfl⟩ | ⟨p, rest, c, hs, hc, hp, rfl⟩
    · have hsub := h.context p c hc
      exact { h with
        crit := hcrit'
        context := by
          intro q c' hc'
          rw [Finmap.lookup_insert_eq_ite] at hc'
          split_ifs at hc' with hqp
          · obtain rfl := Option.some.inj hc'
            exact hsub
          · exact h.context q c' hc'
        fresh := by
          intro t ht
          have hne : t ≠ c.state := Nat.ne_of_gt (Nat.lt_of_lt_of_le hsub ht)
          refine ⟨?_, ?_⟩
          · show (if c.kind = .original then
              σ.subs.set c.state (acceptOriginal ((σ.subs c.state).inner, [])).1
                else σ.subs) t = _
            split_ifs
            · rw [Submissions.set_of_ne _ _ hne]
              exact (h.fresh t ht).1
            · exact (h.fresh t ht).1
          · show σ.acceptHistory t = _
            rw [σ.acceptHistory_raw hs hc, if_neg fun hx => hne hx.2]
            exact (h.fresh t ht).2 }
    all_goals
      exact { h with
        crit := hcrit'
        fresh := by
          show ∀ s, σ.nextSub ≤ s → _ ∧ σ.acceptHistory s = _
          rw [σ.acceptHistory_owned (by simp [hs])]
          exact h.fresh }
  case admissionsEnd => exact { h with crit := by rintro _ ⟨⟩, overflow := by rintro _ ⟨⟩ }
  case wakeAdmission failed s rest hcrit _ | admissionDead failed s rest hcrit _ =>
    have hs := h.crit s (by simp [hcrit, critSubs])
    exact { h.setInner hs _ with
      crit := fun t ht => h.crit t (by rw [hcrit]; exact List.mem_cons_of_mem _ ht) }
  case enqueueRejected => exact { h with }
  case enqueue =>
    have := h.setCall (.op σ.nextControl) (some .notify) (by rintro _ ⟨⟩) (by rintro _ ⟨⟩)
    exact { this with }
  case dropOwned c _ _ =>
    have := h.setCall (.op c) (some (.requestOwnedCancel c)) (by rintro _ ⟨⟩) (by rintro _ ⟨⟩)
    exact { this with }
  case passBegin => exact { h with crit := by rintro _ ⟨⟩, overflow := by rintro _ ⟨⟩ }
  case failOwned | failEnd | reap | overflowEnd | decideStop | decide | parkNotified | park
    | resume | markRunning | takeRing | closeGate | retire | complete =>
    exact { h with overflow := by rintro _ ⟨⟩ }
  case dispatchEnd hd _ =>
    exact { h with overflow := fun t ht => h.overflow t (by rw [hd]; exact ht) }
  -- What a CQE flags is the submission of its context.
  case dispatch b xs cqe rest y hd hr hcrit hy =>
    have hxs : ∀ t ∈ xs, t < σ.nextSub := fun t ht => h.overflow t (by rw [hd]; exact ht)
    have hflag : ∀ t ∈ y.overflow.toList, t < σ.nextSub := by
      intro t ht
      obtain ⟨c, hc, hct⟩ := dispatch_overflow hy (Option.mem_toList.mp ht)
      exact hct ▸ h.context _ c hc
    obtain ⟨-, hq, -, -, hw⟩ := dispatch_queues hy
    exact { h with
      context := by
        intro p c hc
        obtain ⟨c', hc', hst, -⟩ := dispatch_context hy hc
        exact hst ▸ h.context p c' hc'
      command := hq ▸ h.command
      weak := hw ▸ h.weak
      overflow := by
        have hmem : ∀ t ∈ xs ++ y.overflow.toList, t < σ.nextSub := by
          intro t ht
          rcases List.mem_append.mp ht with ht | ht
          · exact hxs t ht
          · exact hflag t ht
        intro t ht
        refine hmem t ?_
        cases hh : y.handler <;> simpa [hh, DriverPc.overflowed] using ht
      fresh := by
        intro t ht
        have hne : ∀ p c, σ.data.contexts.lookup p = some c → t ≠ c.state := fun p c hc =>
          Nat.ne_of_gt (Nat.lt_of_lt_of_le (h.context p c hc) ht)
        exact ⟨(dispatch_subs hy fun c hc => hne _ c hc).trans (h.fresh t ht).1,
          (σ.dispatchHistory_of_ne cqe fun c hc => hne _ c hc).trans (h.fresh t ht).2⟩ }
  case publish hd => exact { h with overflow := fun t ht => h.overflow t (by rw [hd]; exact ht) }
  -- The driver and the owner thread cancel what they have collected.
  case cancelOverflow s rest b hcall hd =>
    have hmem : ∀ t ∈ s :: rest, t < σ.nextSub := fun t ht => h.overflow t (by rw [hd]; exact ht)
    have := h.setCall .driver (some (.requestCancel .close s .overflow)) (by rintro _ ⟨⟩)
      (by rintro _ ⟨⟩; exact hmem s List.mem_cons_self)
    exact { this with overflow := fun t ht => hmem t (List.mem_cons_of_mem _ ht) }
  case shutdownAndWait | closeAdmission | submissionsEnd | awaitCompleted =>
    exact { h with snapshot := by rintro _ ⟨⟩ }
  case raiseShutdown => exact { h with snapshot := fun t ht => h.weak t (List.mem_filter.mp ht).1 }
  case cancelSubmission s rest owned hcall ho =>
    have hmem : ∀ t ∈ s :: rest, t < σ.nextSub := fun t ht => h.snapshot t (by rw [ho]; exact ht)
    have := h.setCall .owner (some (.requestCancel .close s .detached)) (by rintro _ ⟨⟩)
      (by rintro _ ⟨⟩; exact hmem s List.mem_cons_self)
    exact { this with snapshot := fun t ht => hmem t (List.mem_cons_of_mem _ ht) }
  case cancelSnapshot c rest _ _ =>
    have := h.setCall .owner (some (.requestOwnedCancel c)) (by rintro _ ⟨⟩) (by rintro _ ⟨⟩)
    exact { this with snapshot := by rintro _ ⟨⟩ }
  case snapshotEnd =>
    have := h.setCall .owner (some .notify) (by rintro _ ⟨⟩) (by rintro _ ⟨⟩)
    exact { this with snapshot := by rintro _ ⟨⟩ }
  all_goals exact { h with }

/-- References are to allocated submissions in every reachable state. -/
theorem of_reachable (h : Reachable cfg ok σ) : Allocated cfg σ := by
  refine h.inv ?_ fun hI _ hm => hI.move hm
  constructor <;> simp [State.init, DriverData.new, Call.target?, critSubs, DriverPc.overflowed,
    OwnerPc.snapshot]

end Allocated

/-! ## Calls -/

/-- Delivery of an allocated submission never reopens. -/
theorem Move.delivery_ne_opened (hm : Move cfg σ a τ) {s : SubId} (hs : s < σ.nextSub)
    (hd : (σ.subs s).inner.delivery ≠ .opened) : (τ.subs s).inner.delivery ≠ .opened := by
  have hset : ∀ t st, ((σ.subs t).inner.delivery ≠ .opened → st.delivery ≠ .opened) →
      ((σ.subs.set t st) s).inner.delivery ≠ .opened := by
    intro t st hst
    rw [Submissions.set_inner]
    split_ifs with hst'
    · exact hst (hst' ▸ hd)
    · exact hd
  cases hm
  case registerSubmission hcrit =>
    show ((Function.update σ.subs _ _) s).inner.delivery ≠ _
    rw [Function.update_of_ne (Nat.ne_of_lt hs)]
    exact hd
  case openSubmission => exact hset _ _ fun ht => by split_ifs <;> simp [ht]
  case submitPending | drainedReady | drainedPending | iteratorNone | admissionDead =>
    exact hset _ _ id
  case nextReady w x st hrole hnext | nextPending w st hrole hnext =>
    refine hset _ _ fun ht => ?_
    rw [← nextCompletion_delivery w, hnext] at ht
    exact ht
  case cancellationReady w x st hrole hcall hnext | cancellationPending w st hrole hcall hnext =>
    refine hset _ _ fun ht => ?_
    rw [← nextCancellation_delivery w, hnext] at ht
    exact ht
  case dropCancellation => exact hset _ _ fun _ => by simp [detach]
  case close =>
    refine hset _ _ fun ht => ?_
    rw [closeDelivery_delivery]
    split_ifs with h
    · rw [h.resolve_left ht]
      simp
    · exact ht
  case sweep t _ order _ _ _ _ =>
    show ((cancelOriginals order t σ.data σ.subs).2 s).inner.delivery ≠ _
    rw [cancelOriginals_subs]
    exact hset _ _ id
  case originalStaged hy =>
    obtain ⟨-, rfl⟩ := stageOriginal_staged hy
    exact hset _ _ id
  case accept hy =>
    rcases acceptStaged_cases hy with ⟨_, _, c, _, _, _, rfl⟩ | ⟨_, _, _, _, _, _, rfl⟩ |
      ⟨_, _, _, _, _, _, rfl⟩
    · show ((if c.kind = .original then
        σ.subs.set c.state (acceptOriginal ((σ.subs c.state).inner, [])).1
          else σ.subs) s).inner.delivery ≠ _
      split_ifs
      · exact hset _ _ id
      · exact hd
    all_goals exact hd
  case wakeAdmission => exact hset _ _ fun ht => by rwa [wakeUnfinished_delivery]
  case dispatch cqe _ _ _ _ _ hy =>
    rcases dispatch_cases hy with ⟨c, _, _, _, rfl⟩ | ⟨c, _, _, _, _, _, _, _, _, rfl⟩ |
      ⟨_, _, _, _, _, _, _, rfl⟩ | ⟨_, _, _, _, _, _, _, _, rfl⟩
    · refine hset _ _ fun ht => ?_
      rw [dispatchOriginal_delivery]
      split_ifs
      · simp
      · exact ht
    · exact hset _ _ fun ht => by rwa [dispatchCancel_delivery]
    all_goals exact hd
  all_goals exact hd

/-- Whether the holder of the mutex admits submission `s`. -/
def Holder.admits (s : SubId) : Holder → Bool
  | .admission t _ _ => t == s
  | .pass _ => false

/-- Whether `admit` for submission `s` holds the mutex. -/
def State.admits (σ : State) (s : SubId) : Bool := σ.crit.any fun x => x.1.admits s

/-- No call, or a `request_cancel` of `s` with the given delivery, or what is left of one. -/
def Call.Cancels (s : SubId) (d : Delivery) (call : Option Call) : Prop :=
  call = none ∨ call = some .notify ∨ ∃ stage, call = some (.requestCancel stage s d)

/-- What a caller may be in the middle of, by the capability it holds or is about to hold. -/
def Client.Fits (s : SubId) (c : Client) (call : Option Call) (admits : Bool) : Prop :=
  match c.role, c.pc with
  | .unborn, .idle | .created, .idle | .stream, .idle => call = none ∧ admits = false
  | .submit _, .idle => (call = none ∨ call = some .notify) ∧ admits = false
  | .submit fut, .admitting => call = none ∧ admits = true ∧ fut.closed = false
  | .submit _, .check _ | .cancellation, .idle => Call.Cancels s .cancelling call ∧ admits = false
  | .gone, .idle => Call.Cancels s .detached call ∧ admits = false
  | _, _ => False

/-- Each thread's calls fit what it is doing. -/
structure Threads (σ : State) : Prop where
  fits : ∀ s, (σ.clients s).Fits s (σ.calls (.client s)) (σ.admits s)
  /-- Owned operations cancel no submission. -/
  op : ∀ c, Call.target? (σ.calls (.op c)) = none
  /-- The owner thread only detaches. -/
  owner : ∀ st s d, σ.calls .owner = some (.requestCancel st s d) → d = .detached
  /-- The driver only cancels submissions whose delivery has closed. -/
  driver : ∀ st s d, σ.calls .driver = some (.requestCancel st s d) →
    d = .overflow ∧ (σ.subs s).inner.delivery ≠ .opened
  /-- A submission that overflowed has its delivery closed. -/
  flagged : ∀ s ∈ σ.driver.overflowed, (σ.subs s).inner.delivery ≠ .opened

namespace Client.Fits

variable {s : SubId} {c : Client} {call : Option Call} {admits : Bool} {fut : SubmitEntries}

theorem of_created (h : c.Fits s call admits) (hr : c.role = .created) :
    c.pc = .idle ∧ call = none ∧ admits = false := by
  cases hp : c.pc <;> simp_all [Client.Fits]

theorem of_stream (h : c.Fits s call admits) (hr : c.role = .stream) :
    c.pc = .idle ∧ call = none ∧ admits = false := by
  cases hp : c.pc <;> simp_all [Client.Fits]

theorem of_cancellation (h : c.Fits s call admits) (hr : c.role = .cancellation) :
    c.pc = .idle ∧ Call.Cancels s .cancelling call ∧ admits = false := by
  cases hp : c.pc <;> simp_all [Client.Fits]

theorem of_idle (h : c.Fits s call admits) (hr : c.role = .submit fut) (hp : c.pc = .idle) :
    (call = none ∨ call = some .notify) ∧ admits = false := by
  simpa [Client.Fits, hr, hp] using h

theorem of_check {w : Waker} (h : c.Fits s call admits) (hp : c.pc = .check w) :
    (∃ fut, c.role = .submit fut) ∧ Call.Cancels s .cancelling call ∧ admits = false := by
  cases hr : c.role <;> simp_all [Client.Fits]

/-- A caller only ever cancels its own submission. -/
theorem target_eq {st : CancelStage} {t : SubId} {d : Delivery}
    (h : c.Fits s (some (.requestCancel st t d)) admits) : t = s := by
  unfold Client.Fits Call.Cancels at h
  split at h <;> simp_all

/-- A caller closes delivery, or detaches. -/
theorem delivery_ne {st : CancelStage} {t : SubId} {d : Delivery}
    (h : c.Fits s (some (.requestCancel st t d)) admits) : d ≠ .opened := by
  unfold Client.Fits Call.Cancels at h
  split at h <;> simp_all

/-- A caller detaches only what it has dropped. -/
theorem gone_of_detached {st : CancelStage} {t : SubId}
    (h : c.Fits s (some (.requestCancel st t .detached)) admits) : c.role = .gone := by
  unfold Client.Fits Call.Cancels at h
  split at h <;> simp_all

/-- A caller's `request_cancel` goes on from closing to sweeping. -/
theorem sweeping {st st' : CancelStage} {t : SubId} {d : Delivery}
    (h : c.Fits s (some (.requestCancel st t d)) admits) :
    c.Fits s (some (.requestCancel st' t d)) admits := by
  unfold Client.Fits Call.Cancels at h ⊢
  split at h <;> simp_all

/-- A caller's `request_cancel` ends in `notify`. -/
theorem notifying {st : CancelStage} {t : SubId} {d : Delivery}
    (h : c.Fits s (some (.requestCancel st t d)) admits) : c.Fits s (some .notify) admits := by
  unfold Client.Fits Call.Cancels at h ⊢
  split at h <;> simp_all

/-- A caller's `notify` is the end of its call. -/
theorem ending (h : c.Fits s (some .notify) admits) : c.Fits s none admits := by
  unfold Client.Fits Call.Cancels at h ⊢
  split at h <;> simp_all

/-- A caller of a submission cancels no owned operation. -/
theorem not_owned {k : ControlId} (h : c.Fits s (some (.requestOwnedCancel k)) admits) :
    False := by
  unfold Client.Fits Call.Cancels at h
  split at h <;> simp_all

/-- While `admit` runs, its caller is inside the poll and in no other call. -/
theorem of_admits (h : c.Fits s call admits) (ha : admits = true) :
    (∃ fut, c.role = .submit fut ∧ fut.closed = false) ∧ c.pc = .admitting ∧ call = none := by
  cases hr : c.role <;> cases hp : c.pc <;> simp_all [Client.Fits]

end Client.Fits

/-- The holder of the mutex decides what is being admitted. -/
theorem State.admits_of_crit {h : Holder} {st : Stage} (hc : σ.crit = some (h, st)) (t : SubId) :
    σ.admits t = h.admits t := by
  simp [State.admits, hc]

/-- No submission is being admitted while the mutex is free. -/
theorem State.admits_of_free (hc : σ.crit = none) (t : SubId) : σ.admits t = false := by
  simp [State.admits, hc]

namespace Threads

variable {s : SubId}

/-- A step of one caller that starts and ends no call. -/
theorem fits_client (h : Threads σ) {c : Client} (hc : τ.clients = Function.update σ.clients s c)
    (hx : τ.calls = σ.calls) (ha : ∀ t, t ≠ s → τ.admits t = σ.admits t)
    (hs : c.Fits s (σ.calls (.client s)) (τ.admits s)) :
    ∀ t, (τ.clients t).Fits t (τ.calls (.client t)) (τ.admits t) := by
  intro t
  rw [hc, hx, Function.update_apply]
  split_ifs with ht
  · rw [ht]
    exact hs
  · rw [ha t ht]
    exact h.fits t

/-- A step of one caller that starts or ends a call. -/
theorem fits_caller (h : Threads σ) {c : Client} {x : Option Call}
    (hc : τ.clients = Function.update σ.clients s c)
    (hx : τ.calls = Function.update σ.calls (.client s) x)
    (ha : ∀ t, t ≠ s → τ.admits t = σ.admits t) (hs : c.Fits s x (τ.admits s)) :
    ∀ t, (τ.clients t).Fits t (τ.calls (.client t)) (τ.admits t) := by
  intro t
  rw [hc, hx]
  by_cases ht : t = s
  · rw [ht, Function.update_self, Function.update_self]
    exact hs
  · rw [Function.update_of_ne ht, Function.update_of_ne (by simpa using ht), ha t ht]
    exact h.fits t

/-- A caller of `b` or another actor goes on with a call. -/
theorem fits_call (h : Threads σ) {b : Actor} {x : Option Call}
    (hc : τ.clients = σ.clients) (hx : τ.calls = Function.update σ.calls b x)
    (ha : ∀ t, τ.admits t = σ.admits t)
    (hb : ∀ s, b = .client s → (σ.clients s).Fits s x (σ.admits s)) :
    ∀ t, (τ.clients t).Fits t (τ.calls (.client t)) (τ.admits t) := by
  intro t
  rw [hc, hx, ha, Function.update_apply]
  split_ifs with ht
  · exact hb t ht.symm
  · exact h.fits t

/-- A step of the holder of the mutex. -/
theorem fits_stage (h : Threads σ) {x y : Holder} {st st' : Stage} (hc : τ.clients = σ.clients)
    (hx : τ.calls = σ.calls) (hσ : σ.crit = some (x, st)) (hτ : τ.crit = some (y, st'))
    (hxy : ∀ s, y.admits s = x.admits s) :
    ∀ t, (τ.clients t).Fits t (τ.calls (.client t)) (τ.admits t) := by
  intro t
  rw [hc, hx, State.admits_of_crit hτ, hxy, ← State.admits_of_crit hσ]
  exact h.fits t

/-- An actor that is in a call goes on with a call that cancels no submission, or ends it. -/
theorem calls_of (h : Threads σ) {b : Actor} {x : Option Call}
    (hx : τ.calls = Function.update σ.calls b x) (hnone : Call.target? x = none) :
    (∀ c, Call.target? (τ.calls (.op c)) = none) ∧
    (∀ st s d, τ.calls .owner = some (.requestCancel st s d) →
      σ.calls .owner = some (.requestCancel st s d)) ∧
    (∀ st s d, τ.calls .driver = some (.requestCancel st s d) →
      σ.calls .driver = some (.requestCancel st s d)) := by
  refine ⟨fun c => ?_, fun st s d hc => ?_, fun st s d hc => ?_⟩
  · rw [hx, Function.update_apply]
    split_ifs
    · exact hnone
    · exact h.op c
  all_goals
    rw [hx, Function.update_apply] at hc
    split_ifs at hc
    · rw [hc] at hnone
      cases hnone
    · exact hc

/-- Every move keeps calls fitted. -/
theorem move (h : Threads σ) (hA : Allocated cfg σ) (hm : Move cfg σ a τ) : Threads τ := by
  -- A closed delivery stays closed, which keeps the clauses about the driver.
  have hclosed := fun s hs => hm.delivery_ne_opened (s := s) hs
  have hdrv : ∀ st s d, σ.calls .driver = some (.requestCancel st s d) →
      d = .overflow ∧ (τ.subs s).inner.delivery ≠ .opened := by
    intro st s d hc
    obtain ⟨h1, h2⟩ := h.driver st s d hc
    exact ⟨h1, hclosed s (hA.call .driver s (by simp [hc, Call.target?])) h2⟩
  have hdriver : τ.calls = σ.calls ∨ (∃ s x, τ.calls = Function.update σ.calls (.client s) x) ∨
      (∃ c x, τ.calls = Function.update σ.calls (.op c) x) →
        ∀ st s d, τ.calls .driver = some (.requestCancel st s d) →
          d = .overflow ∧ (τ.subs s).inner.delivery ≠ .opened := by
    rintro (heq | ⟨s, x, heq⟩ | ⟨c, x, heq⟩) <;> rw [heq] <;> exact hdrv
  have hflag : (∀ s ∈ τ.driver.overflowed, s ∈ σ.driver.overflowed) →
      ∀ s ∈ τ.driver.overflowed, (τ.subs s).inner.delivery ≠ .opened :=
    fun hsub s hs => hclosed s (hA.overflow s (hsub s hs)) (h.flagged s (hsub s hs))
  cases hm
  case registerSubmission hcrit =>
    have hcall : σ.calls (.client σ.nextSub) = none := by
      by_contra hne
      exact absurd (hA.caller _ hne) (Nat.lt_irrefl _)
    exact ⟨h.fits_client rfl rfl (fun _ _ => rfl) ⟨hcall, State.admits_of_free hcrit _⟩,
      h.op, h.owner, hdriver (.inl rfl), hflag fun _ hs => hs⟩
  case openSubmission s hrole =>
    obtain ⟨-, hcall, hadm⟩ := (h.fits s).of_created hrole
    exact ⟨h.fits_client rfl rfl (fun _ _ => rfl) ⟨.inl hcall, hadm⟩,
      h.op, h.owner, hdriver (.inl rfl), hflag fun _ hs => hs⟩
  -- The three ends of the first half of a poll, and its `admit`.
  case pollClosed s w fut hfut hpc hcall hcl =>
    have hrole := Role.fut?_eq_some.mp hfut
    obtain ⟨-, hadm⟩ := (h.fits s).of_idle hrole hpc
    refine ⟨h.fits_client rfl rfl (fun _ _ => rfl) ?_,
      h.op, h.owner, hdriver (.inl rfl), hflag fun _ hs => hs⟩
    simp only [Client.Fits, hrole]
    exact ⟨.inl hcall, hadm⟩
  case pollRefused s w fut hfut hpc hcall hcl hcrit hacc =>
    have hrole := Role.fut?_eq_some.mp hfut
    obtain ⟨-, hadm⟩ := (h.fits s).of_idle hrole hpc
    refine ⟨h.fits_caller rfl rfl (fun _ _ => rfl) ?_,
      h.op, h.owner, hdriver (.inr (.inl ⟨_, _, rfl⟩)), hflag fun _ hs => hs⟩
    simp only [Client.Fits, hrole]
    exact ⟨.inr (.inr ⟨_, rfl⟩), hadm⟩
  case pollDeferred s w fut hfut hpc hcall hcl hcrit hacc _ =>
    have hrole := Role.fut?_eq_some.mp hfut
    obtain ⟨-, hadm⟩ := (h.fits s).of_idle hrole hpc
    refine ⟨h.fits_caller rfl rfl (fun _ _ => rfl) ?_,
      h.op, h.owner, hdriver (.inr (.inl ⟨_, _, rfl⟩)), hflag fun _ hs => hs⟩
    simp only [Client.Fits, hrole]
    exact ⟨.inr (.inl rfl), hadm⟩
  case pollAdmit s w fut r hfut hpc hcall hcl hcrit hacc _ _ =>
    have hrole := Role.fut?_eq_some.mp hfut
    refine ⟨h.fits_client rfl rfl (fun t ht => ?_) ?_,
      h.op, h.owner, hdriver (.inl rfl), hflag fun _ hs => hs⟩
    · rw [State.admits_of_free hcrit, State.admits_of_crit rfl]
      exact beq_eq_false_iff_ne.mpr fun hst => ht hst.symm
    · simp only [Client.Fits, hrole]
      exact ⟨hcall, by rw [State.admits_of_crit rfl]; exact beq_self_eq_true s, hcl⟩
  -- The second half of a poll.
  case submitFailed s w fut kind hfut hpc hcall hwhy =>
    obtain ⟨-, -, hadm⟩ := (h.fits s).of_check hpc
    exact ⟨h.fits_caller rfl rfl (fun _ _ => rfl) ⟨.inr (.inr ⟨_, rfl⟩), hadm⟩,
      h.op, h.owner, hdriver (.inr (.inl ⟨_, _, rfl⟩)), hflag fun _ hs => hs⟩
  case submitOk s w fut hfut hpc hcall _ _ _ _ =>
    obtain ⟨-, -, hadm⟩ := (h.fits s).of_check hpc
    exact ⟨h.fits_client rfl rfl (fun _ _ => rfl) ⟨hcall, hadm⟩,
      h.op, h.owner, hdriver (.inl rfl), hflag fun _ hs => hs⟩
  case submitPending s w fut hfut hpc hcall _ _ _ =>
    have hrole := Role.fut?_eq_some.mp hfut
    obtain ⟨-, -, hadm⟩ := (h.fits s).of_check hpc
    refine ⟨h.fits_caller rfl rfl (fun _ _ => rfl) ?_,
      h.op, h.owner, hdriver (.inr (.inl ⟨_, _, rfl⟩)), hflag fun _ hs => hs⟩
    simp only [Client.Fits, hrole]
    exact ⟨.inr trivial, hadm⟩
  case dropSubmit s fut hfut hpc hcall =>
    obtain ⟨-, hadm⟩ := (h.fits s).of_idle (Role.fut?_eq_some.mp hfut) hpc
    exact ⟨h.fits_caller rfl rfl (fun _ _ => rfl) ⟨.inr (.inr ⟨_, rfl⟩), hadm⟩,
      h.op, h.owner, hdriver (.inr (.inl ⟨_, _, rfl⟩)), hflag fun _ hs => hs⟩
  case nextReady s _ _ _ _ _ | nextPending s _ _ _ _ | dropFuture s _
    | cancellationReady s _ _ _ _ _ _ | cancellationPending s _ _ _ _ _
    | drainedReady s _ _ _ _ | drainedPending s _ _ _ _ =>
    exact ⟨h.fits_client rfl rfl (fun _ _ => rfl) (h.fits s),
      h.op, h.owner, hdriver (.inl rfl), hflag fun _ hs => hs⟩
  case cancelStream s hrole | dropStream s hrole =>
    obtain ⟨-, -, hadm⟩ := (h.fits s).of_stream hrole
    exact ⟨h.fits_caller rfl rfl (fun _ _ => rfl) ⟨.inr (.inr ⟨_, rfl⟩), hadm⟩,
      h.op, h.owner, hdriver (.inr (.inl ⟨_, _, rfl⟩)), hflag fun _ hs => hs⟩
  case dropCancellation s hrole hcall =>
    obtain ⟨-, -, hadm⟩ := (h.fits s).of_cancellation hrole
    exact ⟨h.fits_client rfl rfl (fun _ _ => rfl) ⟨.inl hcall, hadm⟩,
      h.op, h.owner, hdriver (.inl rfl), hflag fun _ hs => hs⟩
  -- Whoever makes the call goes on with it.
  case close b s d hcall =>
    refine ⟨h.fits_call rfl rfl (fun _ => rfl) (fun t ht => ?_), fun c => ?_, fun st t d' hc => ?_,
      fun st t d' hc => ?_, hflag fun _ hs => hs⟩
    · subst ht
      have hf := h.fits t
      rw [hcall] at hf
      exact hf.sweeping
    · show Call.target? (Function.update σ.calls b _ (.op c)) = none
      rw [Function.update_apply]
      split_ifs with hb
      · have := h.op c
        rw [hb, hcall] at this
        cases this
      · exact h.op c
    · change Function.update σ.calls b _ .owner = _ at hc
      rw [Function.update_apply] at hc
      split_ifs at hc with hb
      · cases hc
        exact h.owner _ _ _ (hb ▸ hcall)
      · exact h.owner _ _ _ hc
    · change Function.update σ.calls b _ .driver = _ at hc
      rw [Function.update_apply] at hc
      split_ifs at hc with hb
      · cases hc
        exact hdrv _ _ _ (hb ▸ hcall)
      · exact hdrv _ _ _ hc
  case sweep b s d order hcall _ _ _ =>
    obtain ⟨h1, h2, h3⟩ := h.calls_of (τ := State.setCall σ b (some .notify)) rfl rfl
    refine ⟨h.fits_call rfl rfl (fun _ => rfl) (fun t ht => ?_), h1,
      fun _ _ _ hc => h.owner _ _ _ (h2 _ _ _ hc), fun _ _ _ hc => hdrv _ _ _ (h3 _ _ _ hc),
      hflag fun _ hs => hs⟩
    subst ht
    have hf := h.fits t
    rw [hcall] at hf
    exact hf.notifying
  case sweepOwned b c p hcall _ _ | sweepOwnedNone b c hcall _ _ =>
    obtain ⟨h1, h2, h3⟩ := h.calls_of (τ := State.setCall σ b (some .notify)) rfl rfl
    refine ⟨h.fits_call rfl rfl (fun _ => rfl) (fun t ht => ?_), h1,
      fun _ _ _ hc => h.owner _ _ _ (h2 _ _ _ hc), fun _ _ _ hc => hdrv _ _ _ (h3 _ _ _ hc),
      hflag fun _ hs => hs⟩
    subst ht
    have hf := h.fits t
    rw [hcall] at hf
    exact hf.not_owned.elim
  case notify b y hcall _ =>
    obtain ⟨h1, h2, h3⟩ := h.calls_of (τ := State.setCall σ b none) rfl rfl
    refine ⟨h.fits_call rfl rfl (fun _ => rfl) (fun t ht => ?_), h1,
      fun _ _ _ hc => h.owner _ _ _ (h2 _ _ _ hc), fun _ _ _ hc => hdrv _ _ _ (h3 _ _ _ hc),
      hflag fun _ hs => hs⟩
    subst ht
    have hf := h.fits t
    rw [hcall] at hf
    exact hf.ending
  -- The holder of the mutex stays the same.
  case stageCancellation hcrit _ _ _ | stageOwnedCancellation hcrit _ _ _ | ownedBudget hcrit
    | stageOwned hcrit _ _ _ | iteratorNone hcrit _ _ | submitAccepted hcrit _ _ _
    | submitRetry hcrit _ | passEnd hcrit | accept hcrit _ _ | wakeAdmission hcrit _
    | admissionDead hcrit _ =>
    exact ⟨h.fits_stage rfl rfl hcrit rfl fun _ => rfl, h.op, h.owner, hdriver (.inl rfl),
      hflag fun _ hs => hs⟩
  -- The caller is in its `admit` and in no other call.
  case iteratorSome s w n fut entry hcrit hfut hpending hindex =>
    obtain ⟨⟨fut', hrole, hcl⟩, hpc, hcall⟩ := (h.fits s).of_admits
      (by rw [State.admits_of_crit hcrit]; exact beq_self_eq_true s)
    obtain rfl : fut' = fut := by simpa [hrole] using hfut
    refine ⟨h.fits_client rfl rfl (fun _ _ => rfl) ?_,
      h.op, h.owner, hdriver (.inl rfl), hflag fun _ hs => hs⟩
    simp only [Client.Fits, hpc]
    exact ⟨hcall, (State.admits_of_crit hcrit s).trans (beq_self_eq_true s), hcl⟩
  case iteratorPanic s w n fut hcrit hfut hpending =>
    obtain ⟨⟨fut', hrole, hcl⟩, hpc, hcall⟩ := (h.fits s).of_admits
      (by rw [State.admits_of_crit hcrit]; exact beq_self_eq_true s)
    refine ⟨h.fits_client rfl rfl (fun t ht => ?_) ?_,
      h.op, h.owner, hdriver (.inl rfl), hflag fun _ hs => hs⟩
    · rw [State.admits_of_free rfl, State.admits_of_crit hcrit]
      exact (beq_eq_false_iff_ne.mpr fun hst => ht hst.symm).symm
    · simp only [Client.Fits, hrole]
      exact ⟨.inl hcall, State.admits_of_free rfl _⟩
  case originalFull s w n fut item item' r p hcrit hfut hpending _ hy =>
    obtain ⟨⟨fut', hrole, hcl⟩, hpc, hcall⟩ := (h.fits s).of_admits
      (by rw [State.admits_of_crit hcrit]; exact beq_self_eq_true s)
    obtain rfl : fut' = fut := by simpa [hrole] using hfut
    refine ⟨h.fits_client rfl rfl (fun t _ => ?_) ?_,
      h.op, h.owner, hdriver (.inl rfl), hflag fun _ hs => hs⟩
    · rw [State.admits_of_crit rfl, State.admits_of_crit hcrit]
    · simp only [Client.Fits, hpc]
      exact ⟨hcall, by rw [State.admits_of_crit rfl]; exact beq_self_eq_true s, hcl⟩
  case originalStaged s w n fut item r p y hcrit hfut hpending _ _ hy =>
    obtain ⟨⟨fut', hrole, hcl⟩, hpc, hcall⟩ := (h.fits s).of_admits
      (by rw [State.admits_of_crit hcrit]; exact beq_self_eq_true s)
    obtain rfl : fut' = fut := by simpa [hrole] using hfut
    refine ⟨h.fits_client rfl rfl (fun t _ => ?_) ?_,
      h.op, h.owner, hdriver (.inl rfl), hflag fun _ hs => hs⟩
    · rw [State.admits_of_crit rfl, State.admits_of_crit hcrit]
      rfl
    · simp only [Client.Fits, hpc]
      exact ⟨hcall, by rw [State.admits_of_crit rfl]; exact beq_self_eq_true s, hcl⟩
  case admitEnd s w n hcrit =>
    obtain ⟨⟨fut, hrole, hcl⟩, hpc, hcall⟩ := (h.fits s).of_admits
      (by rw [State.admits_of_crit hcrit]; exact beq_self_eq_true s)
    refine ⟨h.fits_caller rfl rfl (fun t ht => ?_) ?_,
      h.op, h.owner, hdriver (.inr (.inl ⟨_, _, rfl⟩)), hflag fun _ hs => hs⟩
    · rw [State.admits_of_free rfl, State.admits_of_crit hcrit]
      exact (beq_eq_false_iff_ne.mpr fun hst => ht hst.symm).symm
    · simp only [Client.Fits, hrole]
      refine ⟨?_, State.admits_of_free rfl _⟩
      split_ifs
      · exact .inr (.inl rfl)
      · exact .inl rfl
  case admissionsEnd hcrit =>
    refine ⟨fun t => ?_, h.op, h.owner, hdriver (.inl rfl), by rintro _ ⟨⟩⟩
    have hf := h.fits t
    rw [State.admits_of_crit hcrit] at hf
    exact hf
  case enqueue =>
    obtain ⟨h1, -, -⟩ := h.calls_of (b := .op σ.nextControl)
      (τ := State.setCall σ (.op σ.nextControl) (some .notify)) rfl rfl
    exact ⟨h.fits_call rfl rfl (fun _ => rfl) (by rintro _ ⟨⟩), h1, h.owner,
      hdriver (.inr (.inr ⟨_, _, rfl⟩)), hflag fun _ hs => hs⟩
  case dropOwned c _ _ =>
    obtain ⟨h1, -, -⟩ := h.calls_of (b := .op c)
      (τ := State.setCall σ (.op c) (some (.requestOwnedCancel c))) rfl rfl
    exact ⟨h.fits_call rfl rfl (fun _ => rfl) (by rintro _ ⟨⟩), h1, h.owner,
      hdriver (.inr (.inr ⟨_, _, rfl⟩)), hflag fun _ hs => hs⟩
  case passBegin hd hcrit _ =>
    refine ⟨fun t => ?_, h.op, h.owner, hdriver (.inl rfl), by rintro _ ⟨⟩⟩
    have hf := h.fits t
    rw [State.admits_of_free hcrit] at hf
    exact hf
  case dispatchEnd hd _ =>
    exact ⟨h.fits, h.op, h.owner, hdriver (.inl rfl), hflag fun s hs => by rw [hd]; exact hs⟩
  -- A CQE flags a submission only when it closes its delivery.
  case dispatch b xs cqe rest y hd hr hcrit hy =>
    refine ⟨h.fits, h.op, h.owner, hdriver (.inl rfl), fun t ht => ?_⟩
    have ht : t ∈ xs ∨ y.overflow = some t := by
      cases hh : y.handler <;> simpa [hh, DriverPc.overflowed] using ht
    rcases ht with ht | ht
    · have hx : t ∈ σ.driver.overflowed := by rw [hd]; exact ht
      exact hclosed t (hA.overflow t hx) (h.flagged t hx)
    · show (y.subs t).inner.delivery ≠ .opened
      rw [dispatch_overflow_delivery hy ht]
      simp
  case publish hd =>
    exact ⟨h.fits, h.op, h.owner, hdriver (.inl rfl), hflag fun s hs => by rw [hd]; exact hs⟩
  case cancelOverflow s rest b hcall hd =>
    have hmem : ∀ t ∈ s :: rest, (σ.subs t).inner.delivery ≠ .opened :=
      fun t ht => h.flagged t (by rw [hd]; exact ht)
    refine ⟨h.fits_call rfl rfl (fun _ => rfl) (by rintro _ ⟨⟩), h.op, h.owner, ?_,
      fun t ht => hmem t (List.mem_cons_of_mem _ ht)⟩
    rintro st t d ⟨⟩
    exact ⟨rfl, hmem s List.mem_cons_self⟩
  case cancelSubmission s rest owned hcall ho =>
    refine ⟨h.fits_call rfl rfl (fun _ => rfl) (by rintro _ ⟨⟩), h.op, ?_, hdrv,
      hflag fun _ hs => hs⟩
    rintro st t d ⟨⟩
    rfl
  case cancelSnapshot c rest _ _ | snapshotEnd =>
    refine ⟨h.fits_call rfl rfl (fun _ => rfl) (by rintro _ ⟨⟩), h.op, ?_, hdrv,
      hflag fun _ hs => hs⟩
    rintro st t d ⟨⟩
  case failOwned | failEnd | reap | overflowEnd | decideStop | decide | parkNotified | park
    | resume | markRunning | takeRing | closeGate | retire | complete =>
    exact ⟨h.fits, h.op, h.owner, hdriver (.inl rfl), by rintro _ ⟨⟩⟩
  all_goals exact ⟨h.fits, h.op, h.owner, hdriver (.inl rfl), hflag fun _ hs => hs⟩

/-- Calls are fitted in every reachable state. -/
theorem of_reachable (h : Reachable cfg ok σ) : Threads σ := by
  refine h.inv_of Allocated.of_reachable ?_ fun hA _ hI _ hm => hI.move hA hm
  constructor <;> simp [State.init, Call.target?, State.admits, Client.Fits, DriverPc.overflowed]

end Threads
end Nosv.IoUring
