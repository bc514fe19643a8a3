import Nosv.IoUring.Accounts

/-!
# The context registry

What holds of the registry of live contexts in every reachable state, read off the invariants of
the modules before, and what follows for the assertions of the driver: none of those that guard
the registry, the ring or the gate can fail.

* `contexts_sound`: the registry is sound, and only a failed `submit` or the end of the indices
  aborts;
* `excused_of_abort`: the second half, for any step;
* `acceptStaged_of_reachable` and `dispatch_of_reachable`: the accepted prefix and every CQE find
  their contexts.
-/

namespace Nosv.IoUring

variable {cfg : PreparedRing} {ok : State → Action → Prop} {σ τ : State} {a : Action}

/-! ## The accepted prefix -/

/-- The kernel accepted no more than what is staged. -/
def Accepting (σ : State) : Prop :=
  ∀ h n, σ.crit = some (h, .accept n) → n ≤ σ.data.staged.length

/-- A step that leaves the critical section and the staged queue alone. -/
theorem Accepting.frame (h : Accepting σ) (hc : τ.crit = σ.crit)
    (hs : τ.data.staged = σ.data.staged) : Accepting τ := by
  unfold Accepting
  rw [hc, hs]
  exact h

/-- A step that ends up at another stage, or outside the critical section. -/
theorem Accepting.of_ne (hc : ∀ h n, τ.crit ≠ some (h, .accept n)) : Accepting τ :=
  fun h n hn => absurd hn (hc h n)

/-- Every move keeps the accepted prefix inside the staged queue. -/
theorem Accepting.move (h : Accepting σ) (hm : Move cfg σ a τ) : Accepting τ := by
  cases hm
  case pollAdmit | ownedBudget | iteratorNone | iteratorPanic | originalFull | originalStaged
    | admitEnd | passEnd | admissionsEnd | wakeAdmission | admissionDead | passBegin =>
    exact .of_ne (by simp)
  case sweep => exact h.frame rfl rfl
  case stageCancellation holder r p y hcrit hring hfresh hstage =>
    refine .of_ne fun x n hn => ?_
    cases holder <;> cases hy : y.1 <;> simp [hy, State.afterCancels] at hn
  case stageOwnedCancellation y hcrit hring hfresh hstage
    | stageOwned y hcrit hring hfresh hstage =>
    refine .of_ne fun x n hn => ?_
    cases hy : y.1 <;> simp [hy] at hn
  -- The kernel accepts no more than were staged.
  case submitAccepted hcrit hring hcount hstaged =>
    intro x n hn
    cases hn
    exact hstaged
  case submitRetry =>
    intro x n hn
    cases hn
    exact Nat.zero_le _
  case accept holder count r y hcrit hring haccept =>
    have hle := h holder (count + 1) hcrit
    intro x n hn
    cases hn
    rcases acceptStaged_cases haccept with ⟨p, rest, c, hs, -, -, rfl⟩ |
      ⟨p, rest, c, hs, -, -, rfl⟩ | ⟨p, rest, c, hs, -, -, rfl⟩ <;>
    · rw [hs] at hle
      exact Nat.le_of_succ_le_succ hle
  case dispatch hd hr hcrit hdispatch => exact .of_ne (by simp [State.wake, hcrit])
  all_goals exact h.frame rfl rfl

/-- The accepted prefix is inside the staged queue in every reachable state. -/
theorem Accepting.of_reachable (h : Reachable cfg ok σ) : Accepting σ :=
  h.inv (.of_ne (by simp [State.init])) fun hI _ hm => hI.move hm

/-! ## The registry -/

/-- Phase of the context a staged entry stands for. -/
def DriverData.phase? (d : DriverData) : StagedContext → Option ContextPhase
  | .raw p => (d.contexts.lookup p).map (·.phase)
  | .owned p => (d.ownedContexts.lookup p).map (·.phase)
  | .ownedCancel p => (d.ownedCancelContexts.lookup p).map (·.phase)

/-- A registered original whose one cancellation is not over. -/
def CqeContext.Awaits (c : CqeContext) : Prop :=
  c.kind = .original ∧ c.cancelQueued = true ∧ c.cancelSeen = false

/-- A registered owned original whose one cancellation is not over. -/
def OwnedCqeContext.Awaits (c : OwnedCqeContext) : Prop :=
  c.cancelQueued = true ∧ c.cancelSeen = false

/-- What the driver data looks like whenever the `data` mutex is free, and also while it is held:
the staged queue, the targets of cancellations, the contexts kept after their terminal CQE, and
the counters of every submission. -/
structure DriverData.Sound (d : DriverData) (ring : Option Ring) (subs : Submissions) : Prop where
  /-- No two live contexts share an address, and none lives at the null address. -/
  apart : ∀ k l, d.phase? k ≠ none → d.phase? l ≠ none → k.pointer = l.pointer → k = l
  ne_zero : ∀ k, d.phase? k ≠ none → k.pointer ≠ 0
  staged_nodup : d.staged.Nodup
  /-- The staged queue lists the contexts that are staged. -/
  staged_iff : ∀ k, k ∈ d.staged ↔ d.phase? k = some .staged
  /-- It lists them in the order their SQEs were pushed. -/
  staged_order : ∀ r, ring = some r → r.sq.map (·.userData) = d.staged.map (·.pointer)
  /-- The target of a raw cancellation is registered and waits for it. -/
  cancel : ∀ p c, d.contexts.lookup p = some c → c.kind = .cancel →
    ∃ t o, c.target = some t ∧ d.contexts.lookup t = some o ∧ o.Awaits
  /-- So is that of a queued command. -/
  command : ∀ k ∈ d.cancelQueue, ∃ o, d.contexts.lookup k.target = some o ∧ o.Awaits
  /-- No two raw cancellations have one target. -/
  cancel_inj : ∀ p q c e, d.contexts.lookup p = some c → d.contexts.lookup q = some e →
    c.kind = .cancel → e.kind = .cancel → c.target = e.target → p = q
  /-- No two queued commands do. -/
  command_inj : (d.cancelQueue.map (·.target)).Nodup
  /-- Nor a raw cancellation and a queued command. -/
  cancel_command : ∀ p c, d.contexts.lookup p = some c → c.kind = .cancel →
    ∀ k ∈ d.cancelQueue, c.target ≠ some k.target
  /-- The target of an owned cancellation is registered and waits for it. -/
  ownedCancel : ∀ p c, d.ownedCancelContexts.lookup p = some c →
    ∃ o, d.ownedContexts.lookup c.target = some o ∧ o.Awaits
  ownedCommand : ∀ k ∈ d.ownedCancelQueue, ∃ o, d.ownedContexts.lookup k.target = some o ∧ o.Awaits
  ownedCancel_inj : ∀ p q c e, d.ownedCancelContexts.lookup p = some c →
    d.ownedCancelContexts.lookup q = some e → c.target = e.target → p = q
  ownedCommand_inj : (d.ownedCancelQueue.map (·.target)).Nodup
  ownedCancel_ownedCommand : ∀ p c, d.ownedCancelContexts.lookup p = some c →
    ∀ k ∈ d.ownedCancelQueue, c.target ≠ k.target
  /-- The SQE of a cancellation names the target its context records, on its way to the kernel and
  inside it. -/
  cancel_sqe : ∀ r, ring = some r → ∀ e ∈ r.sq ++ r.inflight, ∀ c t,
    d.contexts.lookup e.userData = some c → c.kind = .cancel → c.target = some t →
      e.body = .asyncCancel t
  ownedCancel_sqe : ∀ r, ring = some r → ∀ e ∈ r.sq ++ r.inflight, ∀ c,
    d.ownedCancelContexts.lookup e.userData = some c → e.body = .asyncCancel c.target
  /-- An original that is over stays registered for a cancellation that is queued or has a
  context. -/
  terminal : ∀ t o, d.contexts.lookup t = some o → o.kind = .original → o.phase = .terminal →
    o.Awaits ∧ ((∃ k ∈ d.cancelQueue, k.target = t) ∨
      ∃ p c, d.contexts.lookup p = some c ∧ c.kind = .cancel ∧ c.target = some t)
  ownedTerminal : ∀ t o, d.ownedContexts.lookup t = some o → o.phase = .terminal →
    o.Awaits ∧ ((∃ k ∈ d.ownedCancelQueue, k.target = t) ∨
      ∃ p c, d.ownedCancelContexts.lookup p = some c ∧ c.target = t)
  /-- The originals that are not over are those the counters say. -/
  originals : ∀ s, (subs s).inner.originals =
    (subs s).inner.originalTerminal + d.contexts.count fun _ c => c.live s
  /-- The originals not accepted are those the counters say. -/
  accepted : ∀ s, (subs s).inner.originals =
    (subs s).inner.accepted + d.contexts.count fun _ c => c.unaccepted s
  /-- The cancellations that are not over are those the counters say. -/
  cancels : ∀ s, (subs s).inner.cancels =
    (subs s).inner.cancelTerminal +
      (d.contexts.count fun _ c => c.kind == .cancel && c.state == s) +
        d.cancelQueue.countP (·.state == s)

section Sound

variable {r : Registry}

/-- Slots and phases. -/
theorem State.registry_slot (k : StagedContext) :
    σ.data.phase? k = (σ.registry.slot k).map Prod.fst := by
  cases k <;> simp only [DriverData.phase?, Registry.slot, Option.map_map] <;> rfl

/-- A raw item whose withdrawal is open is an original that awaits its cancellation. -/
theorem Registry.awaits_of_open {t : Pointer} {i : Pairing.Item}
    (hi : r.rawPairs.items t = some i) (ho : i.Open) :
    ∃ o, r.contexts.lookup t = some o ∧ o.Awaits := by
  obtain ⟨o, hlookup, hitem⟩ := Finmap.view_eq_some.mp hi
  obtain ⟨hkind, rfl⟩ := CqeContext.item?_eq_some.mp hitem
  exact ⟨o, hlookup, hkind, ho⟩

/-- An owned item whose withdrawal is open awaits its cancellation. -/
theorem Registry.owned_awaits_of_open {t : Pointer} {i : Pairing.Item}
    (hi : r.ownedPairs.items t = some i) (ho : i.Open) :
    ∃ o, r.ownedContexts.lookup t = some o ∧ o.Awaits := by
  obtain ⟨o, hlookup, hitem⟩ := Finmap.view_eq_some.mp hi
  obtain rfl := Option.some.inj hitem
  exact ⟨o, hlookup, ho⟩

/-- A raw flight is a cancellation context. -/
theorem Registry.rawPairs_flights {p t : Pointer} :
    r.rawPairs.flights p = some t ↔
      ∃ c, r.contexts.lookup p = some c ∧ c.kind = .cancel ∧ c.target = some t := by
  refine Finmap.view_eq_some.trans (exists_congr fun c => and_congr_right fun _ => ?_)
  cases hk : c.kind with
  | original => simp [CqeContext.flight?, hk]
  | cancel => simp [CqeContext.flight?, hk]

/-- An owned flight is an owned cancellation context. -/
theorem Registry.ownedPairs_flights {p t : Pointer} :
    r.ownedPairs.flights p = some t ↔
      ∃ c, r.ownedCancelContexts.lookup p = some c ∧ c.target = t := by
  refine Finmap.view_eq_some.trans (exists_congr fun c => and_congr_right fun _ => ?_)
  exact Option.some_inj

end Sound

/-- The registry is sound in every reachable state. -/
theorem DriverData.Sound.of_reachable (h : Reachable cfg ok σ) :
    σ.data.Sound σ.ring σ.subs := by
  have hL := Registry.Linked.of_reachable h
  have hP := Registry.Paired.of_reachable h
  have hA := Registry.Accounts.of_reachable h
  have hring : ∀ r, σ.ring = some r → σ.registry.sq = r.sq ∧ σ.registry.inflight = r.inflight := by
    intro r hr
    simp [State.registry, hr]
  constructor
  case staged_nodup => exact hL.staged_nodup
  case staged_iff =>
    intro k
    rw [State.registry_slot]
    refine (hL.staged_iff k).trans ?_
    cases σ.registry.slot k with
    | none => simp
    | some x => simp [Prod.ext_iff]
  case staged_order =>
    intro r hr
    rw [← (hring r hr).1]
    exact hL.sq
  case apart =>
    intro k l hk hl
    rw [State.registry_slot] at hk hl
    exact hL.apart k l (by simpa using hk) (by simpa using hl)
  case ne_zero =>
    intro k hk
    rw [State.registry_slot] at hk
    exact hL.ne_zero k (by simpa using hk)
  case cancel =>
    intro p c hc hk
    -- A cancellation in flight is paired with its target, and pairs are closed from the other
    -- side.
    obtain ⟨t, ht⟩ := Option.isSome_iff_exists.mp (hP.cancel p c hc hk).1
    have hflight := Registry.rawPairs_flights (r := σ.registry).mpr ⟨c, hc, hk, ht⟩
    obtain ⟨i, hi, ho⟩ := hP.raw.target t (.inr ⟨p, hflight⟩)
    obtain ⟨o, ho⟩ := Registry.awaits_of_open hi ho
    exact ⟨t, o, ht, ho⟩
  case command =>
    intro k hk
    obtain ⟨i, hi, ho⟩ := hP.raw.target k.target (.inl (List.mem_map_of_mem hk))
    exact Registry.awaits_of_open hi ho
  case cancel_inj =>
    intro p q c e hc he hck hek hce
    obtain ⟨t, ht⟩ := Option.isSome_iff_exists.mp (hP.cancel p c hc hck).1
    exact hP.raw.flights_inj p q t (Registry.rawPairs_flights.mpr ⟨c, hc, hck, ht⟩)
      (Registry.rawPairs_flights.mpr ⟨e, he, hek, hce ▸ ht⟩)
  case command_inj => exact hP.raw.queue_nodup
  case cancel_command =>
    intro p c hc hk k hq ht
    exact hP.raw.apart p k.target (Registry.rawPairs_flights.mpr ⟨c, hc, hk, ht⟩)
      (List.mem_map_of_mem hq)
  case ownedCancel =>
    intro p c hc
    have hflight := Registry.ownedPairs_flights (r := σ.registry).mpr ⟨c, hc, rfl⟩
    obtain ⟨i, hi, ho⟩ := hP.owned.target c.target (.inr ⟨p, hflight⟩)
    exact Registry.owned_awaits_of_open hi ho
  case ownedCommand =>
    intro k hk
    obtain ⟨i, hi, ho⟩ := hP.owned.target k.target (.inl (List.mem_map_of_mem hk))
    exact Registry.owned_awaits_of_open hi ho
  case ownedCancel_inj =>
    intro p q c e hc he hce
    exact hP.owned.flights_inj p q c.target (Registry.ownedPairs_flights.mpr ⟨c, hc, rfl⟩)
      (Registry.ownedPairs_flights.mpr ⟨e, he, hce.symm⟩)
  case ownedCommand_inj => exact hP.owned.queue_nodup
  case ownedCancel_ownedCommand =>
    intro p c hc k hq ht
    exact hP.owned.apart p k.target (Registry.ownedPairs_flights.mpr ⟨c, hc, ht⟩)
      (List.mem_map_of_mem hq)
  case cancel_sqe =>
    intro r hr e he c t hc hk ht
    -- The entry is in the queue or with the kernel, and its body was fixed when it was staged.
    rw [← (hring r hr).1, ← (hring r hr).2] at he
    have hslot : σ.registry.slot (.raw e.userData) = some (c.phase, .cancel c.target) := by
      rw [Registry.slot_of_lookup hc rfl, CqeContext.slotKind, hk]
    obtain ⟨t', ht', hbody⟩ := hL.body e he (.raw e.userData) _ _ rfl hslot
    rw [hbody, Option.some.inj (ht.symm.trans ht')]
  case ownedCancel_sqe =>
    intro r hr e he c hc
    rw [← (hring r hr).1, ← (hring r hr).2] at he
    obtain ⟨t', ht', hbody⟩ := hL.body e he (.ownedCancel e.userData) _ _ rfl
      (Registry.slot_of_ownedCancel hc rfl)
    rw [hbody, Option.some.inj ht']
  case terminal =>
    intro t o ho hk hphase
    -- A terminal original is kept only for its cancellation, which is pending or in flight.
    have hitem : σ.registry.rawPairs.items t =
        some ⟨o.phase == .terminal, o.cancelQueued, o.cancelSeen⟩ :=
      (Finmap.view_of_lookup ho).trans (CqeContext.item?_original hk)
    have hopen := hP.raw.finished t _ hitem (by simp [hphase])
    refine ⟨⟨hk, hopen⟩, (hP.raw.targeted t _ hitem hopen).imp List.mem_map.mp ?_⟩
    rintro ⟨p, hp⟩
    exact ⟨p, Registry.rawPairs_flights.mp hp⟩
  case ownedTerminal =>
    intro t o ho hphase
    have hitem : σ.registry.ownedPairs.items t = some o.item := Finmap.view_of_lookup ho
    have hopen := hP.owned.finished t _ hitem (by simp [OwnedCqeContext.item, hphase])
    refine ⟨hopen, (hP.owned.targeted t _ hitem hopen).imp List.mem_map.mp ?_⟩
    rintro ⟨p, hp⟩
    exact ⟨p, Registry.ownedPairs_flights.mp hp⟩
  case originals => exact hA.originals
  case accepted => exact hA.accepted
  case cancels =>
    intro s
    -- The balance for every key at once: generated are those that ended, wait or are in flight.
    have hall := hA.generated s fun _ => true
    have hcommand : CancelCommand.cancels s (fun _ => true) = fun k => k.state == s := by
      funext k
      exact Bool.and_true _
    have hcancel : CqeContext.cancels s (fun _ => true) =
        fun c => c.kind == .cancel && c.state == s := by
      funext c
      exact Bool.and_true _
    rw [hcommand, hcancel, List.countP_true, ← hA.cancels s, ← hA.cancelTerminal s] at hall
    exact hall

/-! ## The assertions -/

/-- The head of the staged queue can be accepted. -/
theorem acceptStaged_of_reachable (h : Reachable cfg ok σ) {holder : Holder} {n : ℕ}
    (hcrit : σ.crit = some (holder, .accept (n + 1))) (r : Ring) :
    ∃ y, acceptStaged σ.data r σ.subs = .ok y := by
  have hle := Accepting.of_reachable h holder (n + 1) hcrit
  have hS := DriverData.Sound.of_reachable h
  unfold acceptStaged
  -- The kernel has accepted at most what is staged, so the queue is not empty.
  cases hs : σ.data.staged with
  | nil =>
    rw [hs] at hle
    exact absurd hle (Nat.not_succ_le_zero n)
  | cons k rest =>
    have hphase := (hS.staged_iff k).mp (by rw [hs]; exact List.mem_cons_self)
    cases k with
    | raw p =>
      obtain ⟨c, hc, hp⟩ := Option.map_eq_some_iff.mp hphase
      simp only [hc, hp, ne_eq, not_true_eq_false, if_false]
      split <;> exact ⟨_, rfl⟩
    | owned p =>
      obtain ⟨c, hc, hp⟩ := Option.map_eq_some_iff.mp hphase
      simp only [hc, hp, ne_eq, not_true_eq_false, if_false]
      exact ⟨_, rfl⟩
    | ownedCancel p =>
      obtain ⟨c, hc, hp⟩ := Option.map_eq_some_iff.mp hphase
      simp only [hc, hp, ne_eq, not_true_eq_false, if_false]
      exact ⟨_, rfl⟩

/-- The next CQE that was read can be dispatched. -/
theorem dispatch_of_reachable (h : Reachable cfg ok σ) {cqe : Cqe} {rest : List Cqe}
    -- Every path of `dispatch` that aborts is one that the invariants exclude: no context at the
    -- address, a second one, a wrong phase, or a cancellation that says more will follow.
    (hreaped : σ.reaped = cqe :: rest) : ∃ y, IoUring.dispatch cqe σ.data σ.subs = .ok y := by
  have hL := Registry.Linked.of_reachable h
  have hP := Registry.Paired.of_reachable h
  have hS := DriverData.Sound.of_reachable h
  have hmem : cqe ∈ σ.registry.posted := by
    simp only [State.registry, hreaped]
    exact List.mem_append_left _ List.mem_cons_self
  obtain ⟨k, hk, kind, hslot⟩ := hL.mem_posted hmem
  have hlive : σ.data.phase? k ≠ none := by simp [State.registry_slot, hslot]
  have hphase : σ.data.phase? k = some .submitted := by simp [State.registry_slot, hslot]
  have hzero : cqe.userData ≠ 0 := hk ▸ hS.ne_zero k hlive
  -- No other context lives at that address.
  have hnone : ∀ l : StagedContext, l ≠ k → l.pointer = cqe.userData → σ.data.phase? l = none := by
    intro l hl hp
    by_contra hne
    exact hl (hS.apart l k hne hlive (hp.trans hk.symm))
  -- Only an original may be followed by more.
  have hmore : cqe.more = true → kind = .original ∧ k = .raw cqe.userData := by
    intro hm
    have horig := hL.more cqe hmem hm
    obtain rfl : k = .raw cqe.userData :=
      hL.apart k _ (by simp [hslot]) (by simp [horig]) hk
    rw [hslot] at horig
    exact ⟨by cases horig; rfl, rfl⟩
  cases k with
  | raw p =>
    obtain rfl : p = cqe.userData := hk
    obtain ⟨c, hc, hp⟩ := Option.map_eq_some_iff.mp hphase
    have hkind : kind = c.slotKind := by
      have := hslot.symm.trans (Registry.slot_of_lookup hc hp)
      cases this
      rfl
    unfold IoUring.dispatch dispatchRaw
    simp only [hc, hp, hzero, Option.isSome_some, if_true, ne_eq, not_true_eq_false, if_false]
    split
    next => exact ⟨_, rfl⟩
    -- The cancellation finds the original it was for.
    next hcancel =>
      have hm : cqe.more = false := by
        by_contra hne
        have := (hmore (by simpa using hne)).1
        rw [hkind, CqeContext.slotKind, hcancel] at this
        cases this
      obtain ⟨t, o, ht, ho, hok, -⟩ := hS.cancel _ c hc hcancel
      have htp : t ≠ cqe.userData := by
        rintro rfl
        rw [hc] at ho
        cases ho
        rw [hcancel] at hok
        cases hok
      simp only [hm, ht, Finmap.lookup_erase_ne htp, ho, Bool.false_eq_true, if_false]
      exact ⟨_, rfl⟩
  | owned p =>
    obtain rfl : p = cqe.userData := hk
    obtain ⟨c, hc, hp⟩ := Option.map_eq_some_iff.mp hphase
    have hraw : σ.data.contexts.lookup cqe.userData = none :=
      Option.map_eq_none_iff.mp (hnone (.raw cqe.userData) (by simp) rfl)
    have hm : cqe.more = false := by
      by_contra hne
      cases (hmore (by simpa using hne)).2
    -- A submitted operation still has its handler.
    obtain ⟨handler, hh⟩ :=
      Option.isSome_iff_exists.mp ((hP.handler _ c hc).mpr (by simp [hp]))
    unfold IoUring.dispatch dispatchOwned
    simp only [hraw, hc, hp, hh, hm, hzero, Option.isSome_none, Bool.false_eq_true, if_false, ne_eq,
      not_true_eq_false]
    exact ⟨_, rfl⟩
  | ownedCancel p =>
    obtain rfl : p = cqe.userData := hk
    obtain ⟨c, hc, hp⟩ := Option.map_eq_some_iff.mp hphase
    have hraw : σ.data.contexts.lookup cqe.userData = none :=
      Option.map_eq_none_iff.mp (hnone (.raw cqe.userData) (by simp) rfl)
    have howned : σ.data.ownedContexts.lookup cqe.userData = none :=
      Option.map_eq_none_iff.mp (hnone (.owned cqe.userData) (by simp) rfl)
    have hm : cqe.more = false := by
      by_contra hne
      cases (hmore (by simpa using hne)).2
    -- The cancellation finds the operation it was for.
    obtain ⟨o, ho, -⟩ := hS.ownedCancel _ c hc
    unfold IoUring.dispatch dispatchOwned
    simp only [hraw, howned, hc, hp, ho, hm, hzero, Option.isSome_none, Bool.false_eq_true,
      if_false, ne_eq, not_true_eq_false]
    exact ⟨_, rfl⟩

/-- The ring is there for whoever the driver lets near it. -/
theorem ring_of_reachable (h : Reachable cfg ok σ)
    (hd : σ.data.accepting = true ∨ σ.driver = .pass ∨ σ.driver = .reap) : σ.ring ≠ none := by
  have hS := Stopping.of_reachable h
  intro hring
  have hless := hS.ring.mp hring
  rcases hd with hacc | hd | hd
  · have hstop : σ.driver.stopping = true := by
      cases hdr : σ.driver <;> rw [hdr] at hless <;> first | rfl | cases hless
    rw [hS.accepting, (hS.idle hstop).1] at hacc
    cases hacc
  · rw [hd] at hless
    cases hless
  · rw [hd] at hless
    cases hless

/-- An abort that says nothing about the registry: `submit` failed for good, or an iterator yielded
more items than a `u64` counts. -/
inductive Excused (σ : State) : Action → Abort → Prop
  | submit {errno : ℕ} (hretry : isRetryable errno = false) :
      Excused σ (.submit (.error errno)) .unrecoverableSubmit
  | index {entry : Sqe} {s : SubId} {w : Waker} {n : Bool} {fut : SubmitEntries}
      (hcrit : σ.crit = some (.admission s w n, .originals))
      (hfut : (σ.clients s).role = .submit fut)
      (hindex : 2 ^ 64 ≤ fut.nextIndex + 1) :
      Excused σ (.iteratorNext (some entry)) .sqeIndexExhausted

namespace Excused

variable {e : Abort}

/-- The ring is there while submitters are admitted. -/
theorem of_pollSubmit (h : Reachable cfg ok σ) {s : SubId} {w : Waker}
    (ha : σ.pollSubmit s w = .error (.abort e)) : Excused σ (.pollSubmit s w) e := by
  exfalso
  simp only [State.pollSubmit, bind_eq_abort, need_eq_abort, require_eq_abort, false_or] at ha
  obtain ⟨fut, -, -, -, ha⟩ := ha
  split at ha
  next => cases ha
  next =>
    simp only [bind_eq_abort, require_eq_abort, false_or] at ha
    obtain ⟨-, -, ha⟩ := ha
    split_ifs at ha with hacc howned
    · cases ha
    · cases ha
    · split at ha
      next hring => exact ring_of_reachable h (.inl (by simpa using hacc)) hring
      next => cases ha

/-- The gate has its descriptor as long as it can need a wake. -/
theorem of_notify (h : Reachable cfg ok σ) {b : Actor}
    (ha : σ.notify b = .error (.abort e)) : Excused σ (.notify b) e := by
  exfalso
  simp only [State.notify] at ha
  split at ha
  · obtain ⟨y, hy⟩ := (Gated.of_reachable h).notify_ok
    simp only [bind_eq_abort, checked_eq_abort, pure_eq_abort, and_false, exists_false, or_false,
      hy] at ha
    cases ha
  · cases ha

/-- A fresh address is not that of a live context. -/
theorem of_stageCancellation {p : Pointer}
    (ha : σ.stageCancellation p = .error (.abort e)) : Excused σ (.stageCancellation p) e := by
  exfalso
  simp only [State.stageCancellation] at ha
  split at ha
  · simp only [bind_eq_abort, need_eq_abort, require_eq_abort, require_eq_ok, checked_eq_abort,
      pure_eq_abort, and_false, exists_false, or_false, false_or] at ha
    obtain ⟨r, -, -, hfresh, ha⟩ := ha
    obtain ⟨y, hy⟩ := stageCancellation_ok r hfresh
    rw [hy] at ha
    cases ha
  · cases ha

/-- A fresh address is not that of a live context. -/
theorem of_stageOwnedCancellation {p : Pointer}
    (ha : σ.stageOwnedCancellation cfg p = .error (.abort e)) :
    Excused σ (.stageOwnedCancellation p) e := by
  exfalso
  simp only [State.stageOwnedCancellation] at ha
  split at ha
  · simp only [bind_eq_abort, need_eq_abort, require_eq_abort, require_eq_ok, checked_eq_abort,
      pure_eq_abort, and_false, exists_false, or_false, false_or] at ha
    obtain ⟨r, -, -, hfresh, ha⟩ := ha
    obtain ⟨y, hy⟩ := stageOwnedCancellation_ok r hfresh
    rw [hy] at ha
    cases ha
  · cases ha

/-- A fresh address is not that of a live context. -/
theorem of_stageOwned {p : Pointer}
    (ha : σ.stageOwned cfg p = .error (.abort e)) : Excused σ (.stageOwned p) e := by
  exfalso
  simp only [State.stageOwned] at ha
  split at ha
  next failed budget hcrit =>
    simp only [bind_eq_abort, need_eq_abort, require_eq_abort, require_eq_ok, false_or] at ha
    obtain ⟨r, -, -, hfresh, ha⟩ := ha
    split at ha
    · cases ha
    · simp only [bind_eq_abort, checked_eq_abort, pure_eq_abort, and_false, exists_false,
        or_false] at ha
      obtain ⟨y, hy⟩ := @stageOwned_ok cfg.supported
        (fun c => (σ.controls c).cancelled) p ⟨σ.data, σ.ownedQueue, r, failed⟩ hfresh
      rw [hy] at ha
      cases ha
  next => cases ha

/-- Indices run out after `2 ^ 64 - 1` items. -/
theorem of_iteratorNext {next : Option Sqe}
    (ha : σ.iteratorNext next = .error (.abort e)) : Excused σ (.iteratorNext next) e := by
  simp only [State.iteratorNext] at ha
  split at ha
  next s w n hcrit =>
    simp only [bind_eq_abort, need_eq_abort, require_eq_abort, need_eq_ok, false_or] at ha
    obtain ⟨fut, hfut, -, -, ha⟩ := ha
    split at ha
    next entry =>
      split at ha
      next => cases ha
      next hindex =>
        cases ha
        exact .index hcrit (Role.fut?_eq_some.mp hfut) (Nat.le_of_not_lt hindex)
    next => cases ha
  next => cases ha

/-- A fresh address is not that of a live context. -/
theorem of_stageOriginal {p : Pointer}
    (ha : σ.stageOriginal p = .error (.abort e)) : Excused σ (.stageOriginal p) e := by
  exfalso
  simp only [State.stageOriginal] at ha
  split at ha
  next s w n hcrit =>
    simp only [bind_eq_abort, need_eq_abort, require_eq_abort, require_eq_ok, checked_eq_abort,
      false_or] at ha
    obtain ⟨fut, -, item, -, r, -, -, hfresh, ha⟩ := ha
    obtain ⟨y, hy⟩ := @stageOriginal_ok s p item.1 item.2 σ.data r σ.subs hfresh
    rcases ha with ha | ⟨z, -, ha⟩
    · rw [hy] at ha
      cases ha
    · split at ha <;> cases ha
  next => cases ha

/-- The kernel accepts no more than is in the SQ, which mirrors the staged queue. -/
theorem of_submit (h : Reachable cfg ok σ) {result : SubmitResult}
    (ha : σ.submit result = .error (.abort e)) : Excused σ (.submit result) e := by
  simp only [State.submit] at ha
  split at ha
  next holder hcrit =>
    simp only [bind_eq_abort, need_eq_abort, need_eq_ok, false_or] at ha
    obtain ⟨r, hring, ha⟩ := ha
    split at ha
    next count =>
      exfalso
      simp only [bind_eq_abort, require_eq_abort, require_eq_ok, false_or] at ha
      obtain ⟨-, hcount, ha⟩ := ha
      have horder := congrArg List.length ((DriverData.Sound.of_reachable h).staged_order r hring)
      simp only [List.length_map] at horder
      rw [horder] at hcount
      rw [if_neg (Nat.not_lt.mpr hcount)] at ha
      cases ha
    next errno =>
      split at ha
      next => cases ha
      next hretry =>
        cases ha
        exact .submit (by simpa using hretry)
  next => cases ha

/-- What the kernel accepted is staged. -/
theorem of_accept (h : Reachable cfg ok σ)
    (ha : σ.accept = .error (.abort e)) : Excused σ .accept e := by
  exfalso
  simp only [State.accept] at ha
  split at ha
  next => cases ha
  next holder count hcrit =>
    simp only [bind_eq_abort, need_eq_abort, checked_eq_abort, pure_eq_abort, and_false,
      exists_false, or_false, false_or] at ha
    obtain ⟨r, -, ha⟩ := ha
    obtain ⟨y, hy⟩ := acceptStaged_of_reachable h hcrit r
    rw [hy] at ha
    cases ha
  next => cases ha

/-- The ring is there until the driver stops. -/
theorem of_passBegin (h : Reachable cfg ok σ)
    (ha : σ.passBegin = .error (.abort e)) : Excused σ .passBegin e := by
  exfalso
  simp only [State.passBegin, bind_eq_abort, require_eq_abort, require_eq_ok, false_or] at ha
  obtain ⟨-, ⟨hd, -⟩, ha⟩ := ha
  split at ha
  next hring => exact ring_of_reachable h (.inr (.inl hd)) hring
  next => cases ha

/-- The ring is there until the driver stops. -/
theorem of_reap (h : Reachable cfg ok σ)
    (ha : σ.reap cfg = .error (.abort e)) : Excused σ .reap e := by
  exfalso
  simp only [State.reap, bind_eq_abort, require_eq_abort, require_eq_ok, false_or] at ha
  obtain ⟨-, ⟨hd, -⟩, ha⟩ := ha
  split at ha
  next hring => exact ring_of_reachable h (.inr (.inr hd)) hring
  next => cases ha

/-- Every CQE that was read has a submitted context. -/
theorem of_dispatch (h : Reachable cfg ok σ)
    (ha : σ.dispatch = .error (.abort e)) : Excused σ .dispatch e := by
  exfalso
  simp only [State.dispatch] at ha
  split at ha
  next => cases ha
  next backlog overflow cqe rest hd hreaped =>
    simp only [bind_eq_abort, require_eq_abort, checked_eq_abort, pure_eq_abort, and_false,
      exists_false, or_false, false_or] at ha
    obtain ⟨-, -, ha⟩ := ha
    obtain ⟨y, hy⟩ := dispatch_of_reachable h hreaped
    rw [hy] at ha
    cases ha
  next => cases ha

/-- The completion callback runs once, after `run` returned. -/
theorem of_retire (h : Reachable cfg ok σ)
    (ha : σ.retire = .error (.abort e)) : Excused σ .retire e := by
  exfalso
  have hG := Gated.of_reachable h
  simp only [State.retire, bind_eq_abort, require_eq_abort, require_eq_ok, false_or] at ha
  obtain ⟨-, hd, ha⟩ := ha
  have hphase := hG.terminal.mpr hd
  have hraw := hG.raw.mpr (by rw [hphase]; simp)
  simp only [hphase, hraw, ne_eq, not_true_eq_false, Bool.not_true, Bool.false_eq_true,
    if_false] at ha
  cases ha

end Excused

/-- No other assertion fails. -/
theorem excused_of_abort (h : Reachable cfg ok σ) {e : Abort}
    (ha : step cfg a σ = .error (.abort e)) : Excused σ a e := by
  cases a with
  -- Each assertion of the source has its lemma.
  | pollSubmit => exact .of_pollSubmit h ha
  | notify => exact .of_notify h ha
  | stageCancellation => exact .of_stageCancellation ha
  | stageOwnedCancellation => exact .of_stageOwnedCancellation ha
  | stageOwned => exact .of_stageOwned ha
  | iteratorNext => exact .of_iteratorNext ha
  | stageOriginal => exact .of_stageOriginal ha
  | submit => exact .of_submit h ha
  | accept => exact .of_accept h ha
  | passBegin => exact .of_passBegin h ha
  | reap => exact .of_reap h ha
  | dispatch => exact .of_dispatch h ha
  | retire => exact .of_retire h ha
  | checkSubmit s =>
    exfalso
    simp only [step, State.checkSubmit, bind_eq_abort, need_eq_abort, false_or] at ha
    obtain ⟨fut, -, ha⟩ := ha
    split at ha
    next =>
      simp only [bind_eq_abort, require_eq_abort, false_or] at ha
      obtain ⟨-, -, ha⟩ := ha
      split at ha
      · cases ha
      · split at ha <;> cases ha
    next => cases ha
  -- The other steps contain no assertion, the ways in which they can fail disable them.
  | close | wakeAdmission | enqueue | failOwned | publish =>
    exfalso
    simp only [step, State.close, State.wakeAdmission, State.enqueue, State.failOwned,
      State.publish] at ha
    split at ha <;> cases ha
  | pollOwned | cancelOverflow | cancelSubmission | cancelSnapshot | pollCompletion
  | pollCancellation =>
    exfalso
    simp only [step, State.pollOwned, State.cancelOverflow, State.cancelSubmission,
      State.cancelSnapshot, State.pollCompletion, State.pollCancellation, bind_eq_abort,
      require_eq_abort, false_or] at ha
    obtain ⟨-, -, ha⟩ := ha
    split at ha <;> cases ha
  | sweep b order =>
    exfalso
    simp only [step, State.sweep] at ha
    split at ha
    · simp only [bind_eq_abort, require_eq_abort, pure_eq_abort, false_or, and_false,
        exists_false] at ha
    · cases ha
  | sweepOwned b target =>
    exfalso
    simp only [step, State.sweepOwned] at ha
    split at ha
    · simp only [bind_eq_abort, require_eq_abort, false_or] at ha
      obtain ⟨-, -, ha⟩ := ha
      split at ha <;>
        simp only [bind_eq_abort, require_eq_abort, pure_eq_abort, false_or, and_false,
          exists_false] at ha
    · cases ha
  | iteratorPanic =>
    exfalso
    simp only [step, State.iteratorPanic] at ha
    split at ha
    · simp only [bind_eq_abort, need_eq_abort, require_eq_abort, pure_eq_abort, and_false,
        exists_false, false_or] at ha
    · cases ha
  | decide =>
    exfalso
    simp only [step, State.decide, bind_eq_abort, require_eq_abort, false_or] at ha
    obtain ⟨-, -, ha⟩ := ha
    split at ha
    · split at ha <;> cases ha
    · cases ha
  | park =>
    exfalso
    simp only [step, State.park] at ha
    split at ha
    · split at ha <;> cases ha
    · cases ha
  | resume =>
    exfalso
    simp only [step, State.resume] at ha
    split at ha
    · simp only [bind_eq_abort, require_eq_abort, pure_eq_abort, and_false, exists_false,
        false_or] at ha
    · cases ha
  | pollDrained s w =>
    exfalso
    simp only [step, State.pollDrained, bind_eq_abort, require_eq_abort, pure_eq_abort, and_false,
      exists_false, false_or] at ha
  | _ =>
    exfalso
    simp only [step, State.kernelPost, State.registerSubmission, State.openSubmission,
      State.dropSubmit, State.dropFuture, State.cancelStream, State.dropStream,
      State.dropCancellation, State.dropOwned, State.markRunning, State.takeRing,
      State.closeGate, State.complete, State.beginShutdown, State.shutdownAndWait,
      State.closeAdmission, State.raiseShutdown, State.awaitCompleted, bind_eq_abort,
      need_eq_abort, require_eq_abort, pure_eq_abort, and_false, exists_false, false_or] at ha

/-- In every reachable state the registry is sound, and the only aborts a step can run into are a
`submit` that failed for good and the end of the indices. -/
theorem contexts_sound (h : Reachable cfg ok σ) :
    σ.data.Sound σ.ring σ.subs ∧
      ∀ a e, step cfg a σ = .error (.abort e) → Excused σ a e :=
  ⟨.of_reachable h, fun _ _ ha => excused_of_abort h ha⟩

/-- A stream is cancelled after its SQE was accepted. -/
def cancelledStream : List Action :=
  [.registerSubmission, .openSubmission 0, .pollSubmit 0 7, .stageCancellation 10,
    .iteratorNext (some ⟨.raw 0, 99⟩), .stageOriginal 10, .iteratorNext none, .submit (.ok 1),
    .accept, .accept, .notify (.client 0), .checkSubmit 0, .cancelStream 0, .close (.client 0),
    .sweep (.client 0) [10]]

/-- The original at `10` then awaits a cancellation, and the registry is sound. -/
theorem contexts_sound_tiny :
    ∃ σ, Reachable .tiny Lts.Always σ ∧
      σ.data.cancelQueue = [⟨10, 0, 99, 0⟩] ∧ σ.data.Sound σ.ring σ.subs ∧
        ∀ a e, step .tiny a σ = .error (.abort e) → Excused σ a e := by
  have hrun : (Lts.exec (step .tiny) Lts.Always cancelledStream (.init .tiny)).any
      (fun σ => σ.data.cancelQueue = [⟨10, 0, 99, 0⟩]) = true := by decide
  obtain ⟨σ, hσ, hqueue⟩ := Lts.exists_of_exec hrun
  exact ⟨σ, hσ, hqueue, contexts_sound hσ⟩

end Nosv.IoUring
