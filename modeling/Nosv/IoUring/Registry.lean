import Nosv.IoUring.Threads

/-!
# The context registry and the kernel

What the driver and the kernel share about SQEs, cut out of the whole state: the three families of
contexts, the queues of commands, the entries on their way to the kernel and back, and per
submission the counters and the keys of what happened. `Registry.Step` says in thirteen cases what
any step of the system can do to it.

`registry_move` takes every step of the system to one of these cases.
-/

namespace Nosv.IoUring

/-- The keys of what happened to one submission. -/
structure Keys where
  /-- Originals staged. -/
  staged : List (ℕ × ℕ)
  /-- Indices of the originals accepted. -/
  accepted : List ℕ
  /-- Originals whose CQE was dispatched, once for each CQE. -/
  dispatched : List (ℕ × ℕ)
  /-- Originals a cancellation was generated for. -/
  generated : List (ℕ × ℕ)
  /-- Originals the CQE of whose cancellation was dispatched. -/
  cancelled : List (ℕ × ℕ)
  deriving DecidableEq, Repr

/-- The keys in a history. -/
def History.keys (h : History) : Keys where
  staged := h.staged.map fun x => (x.1, x.2.userData)
  accepted := h.accepted
  dispatched := h.dispatched.map Completion.key
  generated := h.generated
  cancelled := h.cancelled.map Completion.key

/-- The part of the state that accounts for SQEs and CQEs. -/
@[ext]
structure Registry where
  contexts : Finmap fun _ : Pointer => CqeContext
  ownedContexts : Finmap fun _ : Pointer => OwnedCqeContext
  ownedCancelContexts : Finmap fun _ : Pointer => OwnedCancelContext
  staged : List StagedContext
  cancelQueue : List CancelCommand
  ownedCancelQueue : List OwnedCancelCommand
  /-- SQEs not consumed by the kernel. -/
  sq : List Sqe
  /-- SQEs the kernel consumed and has not finished. -/
  inflight : List Sqe
  /-- CQEs posted and not dispatched. -/
  posted : List Cqe
  counters : SubId → Counters
  keys : SubId → Keys

/-- The registry of a state. -/
def State.registry (σ : State) : Registry where
  contexts := σ.data.contexts
  ownedContexts := σ.data.ownedContexts
  ownedCancelContexts := σ.data.ownedCancelContexts
  staged := σ.data.staged
  cancelQueue := σ.data.cancelQueue
  ownedCancelQueue := σ.data.ownedCancelQueue
  sq := σ.ring.elim [] (·.sq)
  inflight := σ.ring.elim [] (·.inflight)
  posted := σ.reaped ++ σ.ring.elim [] (·.cq)
  counters := fun s => (σ.subs s).inner.toCounters
  keys := fun s => (σ.history s).keys

namespace Registry

/-- A non-null address no context lives at. -/
structure Fresh (r : Registry) (p : Pointer) : Prop where
  ne_zero : p ≠ 0
  contexts : r.contexts.lookup p = none
  ownedContexts : r.ownedContexts.lookup p = none
  ownedCancelContexts : r.ownedCancelContexts.lookup p = none

/-- Change the counters of one submission. -/
def count (r : Registry) (s : SubId) (f : Counters → Counters) : Registry :=
  { r with counters := Function.update r.counters s (f (r.counters s)) }

/-- Extend the keys of one submission. -/
def log (r : Registry) (s : SubId) (f : Keys → Keys) : Registry :=
  { r with keys := Function.update r.keys s (f (r.keys s)) }

/-- The head of the SQ goes to the kernel. -/
def consume (r : Registry) : Registry :=
  { r with sq := r.sq.tail, inflight := r.inflight ++ r.sq.head?.toList }

/-- What a step of the system can do to the registry. -/
inductive Step (r : Registry) : Registry → Prop
  | stutter : Step r r
  /-- The kernel posts a CQE, and is done with the SQE unless there is more to come. -/
  | post {cqe : Cqe} {e : Sqe}
      (hfind : r.inflight.find? (fun e => e.userData == cqe.userData) = some e)
      (hmore : cqe.more = true → e.body.isRaw = true) :
      Step r { r with
        posted := r.posted ++ [cqe]
        inflight := if cqe.more then r.inflight else r.inflight.erase e }
  /-- `admit` stages an original. -/
  | original {s : SubId} {i : ℕ} {e : Sqe} {p : Pointer} (hp : r.Fresh p) :
      Step r (log (count
        { r with
          contexts := r.contexts.insert p (e.boxed s i)
          staged := r.staged ++ [.raw p]
          sq := r.sq ++ [⟨e.body, p⟩] }
        s fun c => { c with originals := c.originals + 1 })
        s fun k => { k with staged := k.staged ++ [(i, e.userData)] })
  /-- A cancellation of an original is staged. -/
  | cancel {p : Pointer} {command : CancelCommand} {rest : List CancelCommand} (hp : r.Fresh p)
      (hqueue : r.cancelQueue = command :: rest) :
      Step r { r with
        cancelQueue := rest
        contexts := r.contexts.insert p command.boxed
        staged := r.staged ++ [.raw p]
        sq := r.sq ++ [⟨.asyncCancel command.target, p⟩] }
  /-- A cancellation of an owned operation is staged. -/
  | ownedCancel {p : Pointer} {command : OwnedCancelCommand} {rest : List OwnedCancelCommand}
      (hp : r.Fresh p) (hqueue : r.ownedCancelQueue = command :: rest) :
      Step r { r with
        ownedCancelQueue := rest
        ownedCancelContexts := r.ownedCancelContexts.insert p ⟨.staged, command.target⟩
        staged := r.staged ++ [.ownedCancel p]
        sq := r.sq ++ [⟨.asyncCancel command.target, p⟩] }
  /-- An owned operation is staged. -/
  | owned {p : Pointer} {op : QueuedOwnedOp} (hp : r.Fresh p) :
      Step r { r with
        ownedContexts := r.ownedContexts.insert p op.boxed
        staged := r.staged ++ [.owned p]
        sq := r.sq ++ [⟨.owned op.handler.opcode, p⟩] }
  /-- The kernel accepted an original. -/
  | acceptOriginal {p : Pointer} {rest : List StagedContext} {c : CqeContext}
      (hstaged : r.staged = .raw p :: rest) (hc : r.contexts.lookup p = some c)
      (hphase : c.phase = .staged) (hkind : c.kind = .original) :
      Step r (log (count (consume
        { r with
          staged := rest
          contexts := r.contexts.insert p { c with phase := .submitted } })
        c.state fun k => { k with accepted := k.accepted + 1 })
        c.state fun k => { k with accepted := k.accepted ++ [c.index] })
  /-- The kernel accepted a cancellation of an original. -/
  | acceptCancel {p : Pointer} {rest : List StagedContext} {c : CqeContext}
      (hstaged : r.staged = .raw p :: rest) (hc : r.contexts.lookup p = some c)
      (hphase : c.phase = .staged) (hkind : c.kind = .cancel) :
      Step r (consume
        { r with
          staged := rest
          contexts := r.contexts.insert p { c with phase := .submitted } })
  /-- The kernel accepted an owned operation. -/
  | acceptOwned {p : Pointer} {rest : List StagedContext} {c : OwnedCqeContext}
      (hstaged : r.staged = .owned p :: rest) (hc : r.ownedContexts.lookup p = some c)
      (hphase : c.phase = .staged) :
      Step r (consume
        { r with
          staged := rest
          ownedContexts := r.ownedContexts.insert p { c with phase := .submitted } })
  /-- The kernel accepted a cancellation of an owned operation. -/
  | acceptOwnedCancel {p : Pointer} {rest : List StagedContext} {c : OwnedCancelContext}
      (hstaged : r.staged = .ownedCancel p :: rest) (hc : r.ownedCancelContexts.lookup p = some c)
      (hphase : c.phase = .staged) :
      Step r (consume
        { r with
          staged := rest
          ownedCancelContexts :=
            r.ownedCancelContexts.insert p { c with phase := .submitted } })
  /-- Cancellation of every live original of `s` not asked for before is queued. -/
  | sweep {s : SubId} {order : List Pointer} {commands : List CancelCommand} (hnodup : order.Nodup)
      (horder : ∀ p, p ∈ order ↔ ∃ c, r.contexts.lookup p = some c ∧ cancellable s c = true)
      (htargets : commands.map (·.target) = order)
      (hcommands : ∀ k ∈ commands, ∃ c, r.contexts.lookup k.target = some c ∧
        cancellable s c = true ∧ k = ⟨k.target, c.index, c.originalUserData, s⟩) :
      Step r (log (count
        { r with
          contexts :=
            order.foldl (fun m p => m.modify p fun c => { c with cancelQueued := true }) r.contexts
          cancelQueue := r.cancelQueue ++ commands }
        s fun c => { c with cancels := c.cancels + commands.length })
        s fun k => { k with generated := k.generated ++ commands.map CancelCommand.key })
  /-- Cancellation of an owned operation is queued. -/
  | sweepOwned {p : Pointer} {c : OwnedCqeContext} (hc : r.ownedContexts.lookup p = some c)
      (hphase : c.phase ≠ .terminal) (hqueued : c.cancelQueued = false) :
      Step r { r with
        ownedContexts := r.ownedContexts.modify p fun c => { c with cancelQueued := true }
        ownedCancelQueue := r.ownedCancelQueue ++ [⟨p⟩] }
  /-- A CQE of an original with more to come is dispatched. -/
  | more {cqe : Cqe} {rest : List Cqe} {c : CqeContext} (hposted : r.posted = cqe :: rest)
      (hc : r.contexts.lookup cqe.userData = some c) (hkind : c.kind = .original)
      (hphase : c.phase = .submitted) (hmore : cqe.more = true) :
      Step r (log { r with posted := rest }
        c.state fun k => { k with dispatched := k.dispatched ++ [c.key] })
  /-- The terminal CQE of an original is dispatched. -/
  | retire {cqe : Cqe} {rest : List Cqe} {c : CqeContext} (hposted : r.posted = cqe :: rest)
      (hc : r.contexts.lookup cqe.userData = some c) (hkind : c.kind = .original)
      (hphase : c.phase = .submitted) (hmore : cqe.more = false) :
      Step r (log (count
        { r with
          posted := rest
          contexts :=
            if c.cancelQueued && !c.cancelSeen then
              r.contexts.insert cqe.userData { c with phase := .terminal }
            else r.contexts.erase cqe.userData }
        c.state fun k => { k with originalTerminal := k.originalTerminal + 1 })
        c.state fun k => { k with dispatched := k.dispatched ++ [c.key] })
  /-- The CQE of a cancellation is dispatched. -/
  | retireCancel {cqe : Cqe} {rest : List Cqe} {c o : CqeContext} {t : Pointer}
      (hposted : r.posted = cqe :: rest) (hc : r.contexts.lookup cqe.userData = some c)
      (hkind : c.kind = .cancel) (hphase : c.phase = .submitted) (htarget : c.target = some t)
      (ho : (r.contexts.erase cqe.userData).lookup t = some o) (hmore : cqe.more = false) :
      Step r (log (count
        { r with
          posted := rest
          contexts :=
            if o.phase = .terminal then (r.contexts.erase cqe.userData).erase t
            else (r.contexts.erase cqe.userData).insert t { o with cancelSeen := true } }
        c.state fun k => { k with cancelTerminal := k.cancelTerminal + 1 })
        c.state fun k => { k with cancelled := k.cancelled ++ [c.key] })
  /-- The CQE of an owned operation is dispatched. -/
  | retireOwned {cqe : Cqe} {rest : List Cqe} {c : OwnedCqeContext}
      (hposted : r.posted = cqe :: rest) (hraw : r.contexts.lookup cqe.userData = none)
      (hc : r.ownedContexts.lookup cqe.userData = some c) (hphase : c.phase = .submitted)
      (hmore : cqe.more = false) :
      Step r { r with
        posted := rest
        ownedContexts :=
          if c.cancelQueued && !c.cancelSeen then
            r.ownedContexts.insert cqe.userData { c with phase := .terminal, handler := none }
          else r.ownedContexts.erase cqe.userData }
  /-- The CQE of a cancellation of an owned operation is dispatched. -/
  | retireOwnedCancel {cqe : Cqe} {rest : List Cqe} {c : OwnedCancelContext} {o : OwnedCqeContext}
      (hposted : r.posted = cqe :: rest) (hraw : r.contexts.lookup cqe.userData = none)
      (howned : r.ownedContexts.lookup cqe.userData = none)
      (hc : r.ownedCancelContexts.lookup cqe.userData = some c) (hphase : c.phase = .submitted)
      (ho : r.ownedContexts.lookup c.target = some o) (hmore : cqe.more = false) :
      Step r { r with
        posted := rest
        ownedContexts :=
          if o.phase = .terminal then r.ownedContexts.erase c.target
          else r.ownedContexts.insert c.target { o with cancelSeen := true }
        ownedCancelContexts := r.ownedCancelContexts.erase cqe.userData }
  /-- The ring is dropped when nothing is registered any more. -/
  | dropRing (hcontexts : r.contexts = ∅) (howned : r.ownedContexts = ∅)
      (hcancel : r.ownedCancelContexts = ∅) (hstaged : r.staged = []) :
      Step r { r with sq := [], inflight := [], posted := [] }

end Registry

variable {cfg : PreparedRing} {ok : State → Action → Prop} {σ τ : State} {a : Action}

/-- An address the allocator may return is fresh in the registry. -/
theorem DriverData.Fresh.registry {p : Pointer} (h : σ.data.Fresh p) : σ.registry.Fresh p :=
  ⟨h.1, h.lookup.1, h.lookup.2.1, h.lookup.2.2⟩

/-- A step that changes only what the registry does not record. -/
theorem Registry.Step.frame (hdata : τ.data = σ.data) (hring : τ.ring = σ.ring)
    (hreaped : τ.reaped = σ.reaped)
    (hcounters : ∀ s, (τ.subs s).inner.toCounters = (σ.subs s).inner.toCounters)
    (hkeys : ∀ s, (τ.history s).keys = (σ.history s).keys) : σ.registry.Step τ.registry := by
  have h : τ.registry = σ.registry := by
    unfold State.registry
    rw [hdata, hring, hreaped, funext hcounters, funext hkeys]
  rw [h]
  exact .stutter

/-- A step that reaches the state it should. -/
theorem Registry.Step.cast {r r' r'' : Registry} (h : r.Step r') (he : r'' = r') : r.Step r'' :=
  he ▸ h

/-- Counters after replacing what one submission's mutex protects. -/
theorem counters_set (subs : Submissions) (s : SubId) (st : SubmissionInner) :
    (fun t => (subs.set s st t).inner.toCounters) =
      Function.update (fun t => (subs t).inner.toCounters) s st.toCounters := by
  funext t
  rw [Submissions.set_inner, Function.update_apply]
  split_ifs <;> rfl

/-- Counters when the replacement moves none. -/
theorem counters_set_of_eq {subs : Submissions} {s : SubId} {st : SubmissionInner}
    (h : st.toCounters = (subs s).inner.toCounters) (t : SubId) :
    (subs.set s st t).inner.toCounters = (subs t).inner.toCounters := by
  rw [Submissions.set_inner]
  split_ifs with ht
  · rw [h, ht]
  · rfl

/-- Keys after replacing the history of one submission. -/
theorem keys_update (history : SubId → History) (s : SubId) (x : History) :
    (fun t => (Function.update history s x t).keys) =
      Function.update (fun t => (history t).keys) s x.keys := by
  funext t
  rw [Function.update_apply, Function.update_apply]
  split_ifs <;> rfl

/-- Keys when the replacement logs none. -/
theorem keys_update_of_eq {history : SubId → History} {s : SubId} {x : History}
    (h : x.keys = (history s).keys) (t : SubId) :
    (Function.update history s x t).keys = (history t).keys := by
  rw [Function.update_apply]
  split_ifs with ht
  · rw [h, ht]
  · rfl

/-- Acceptance of an original logs its index. -/
theorem acceptHistory_keys {p : Pointer} {rest : List StagedContext} {c : CqeContext}
    (hs : σ.data.staged = .raw p :: rest) (hc : σ.data.contexts.lookup p = some c)
    (hk : c.kind = .original) :
    (fun s => (σ.acceptHistory s).keys) =
      Function.update (fun s => (σ.history s).keys) c.state
        { (σ.history c.state).keys with
          accepted := (σ.history c.state).keys.accepted ++ [c.index] } := by
  funext s
  rw [σ.acceptHistory_raw hs hc, Function.update_apply]
  by_cases h : s = c.state
  · subst h
    simp only [hk, and_self, if_true]
    rfl
  · simp only [h, and_false, if_false]

/-- Dispatch of an original logs its key. -/
theorem dispatchHistory_original_keys {cqe : Cqe} {c : CqeContext}
    (hc : σ.data.contexts.lookup cqe.userData = some c) (hk : c.kind = .original) :
    (fun s => (σ.dispatchHistory cqe s).keys) =
      Function.update (fun s => (σ.history s).keys) c.state
        { (σ.history c.state).keys with
          dispatched := (σ.history c.state).keys.dispatched ++ [c.key] } := by
  funext s
  rw [σ.dispatchHistory_original hc hk, Function.update_apply]
  by_cases h : s = c.state
  · subst h
    simp only [if_true, History.keys, History.dispatch, List.map_append]
    rfl
  · simp only [h, if_false]

/-- Dispatch of a cancellation logs its key. -/
theorem dispatchHistory_cancel_keys {cqe : Cqe} {c : CqeContext}
    (hc : σ.data.contexts.lookup cqe.userData = some c) (hk : c.kind = .cancel) :
    (fun s => (σ.dispatchHistory cqe s).keys) =
      Function.update (fun s => (σ.history s).keys) c.state
        { (σ.history c.state).keys with
          cancelled := (σ.history c.state).keys.cancelled ++ [c.key] } := by
  funext s
  rw [σ.dispatchHistory_cancel hc hk, Function.update_apply]
  by_cases h : s = c.state
  · subst h
    simp only [if_true, History.keys, List.map_append]
    rfl
  · simp only [h, if_false]

/-- Every move is a step of the registry. -/
theorem registry_move (hA : Allocated cfg σ) (hS : Stopping σ) (hm : Move cfg σ a τ) :
    σ.registry.Step τ.registry := by
  have hring : ∀ r, σ.ring = some r →
      σ.registry =
        { σ.registry with sq := r.sq, inflight := r.inflight, posted := σ.reaped ++ r.cq }
      := by
    intro r hr
    simp [State.registry, hr]
  cases hm
  case kernelPost cqe r e hr hfind hmore =>
    have hinflight : σ.registry.inflight = r.inflight := by rw [hring r hr]
    refine (Registry.Step.post (hinflight ▸ hfind) hmore).cast ?_
    simp [State.registry, hr]
  case registerSubmission hcrit =>
    obtain ⟨hsub, hhist⟩ := hA.fresh σ.nextSub le_rfl
    refine .cast .stutter ?_
    -- The new submission is what its number stood for already, so the registry does not see it.
    have hsubs : Function.update σ.subs σ.nextSub
        (.new cfg.config.maxBufferedCompletions) = σ.subs := by
      rw [← hsub]
      exact Function.update_eq_self _ _
    simp only [State.registry, hsubs]
  case openSubmission s hrole =>
    refine .frame rfl rfl rfl (counters_set_of_eq ?_) fun _ => rfl
    split_ifs <;> rfl
  case submitFailed s _ _ _ _ _ _ _ | submitOk | iteratorSome =>
    exact .frame rfl rfl rfl (fun _ => rfl) (keys_update_of_eq rfl)
  case submitPending =>
    exact .frame rfl rfl rfl (counters_set_of_eq rfl) fun _ => rfl
  case nextReady s w x st hrole hnext =>
    refine .frame rfl rfl rfl (counters_set_of_eq ?_) (keys_update_of_eq rfl)
    -- Receiving changes queues and wakers, and no counter.
    rw [← nextCompletion_counters w (σ.subs s).inner, hnext]
  case nextPending s w st hrole hnext =>
    refine .frame rfl rfl rfl (counters_set_of_eq ?_) fun _ => rfl
    rw [← nextCompletion_counters w (σ.subs s).inner, hnext]
  case cancellationReady s w x st hrole hcall hnext =>
    refine .frame rfl rfl rfl (counters_set_of_eq ?_) (keys_update_of_eq rfl)
    rw [← nextCancellation_counters w (σ.subs s).inner, hnext]
  case cancellationPending s w st hrole hcall hnext =>
    refine .frame rfl rfl rfl (counters_set_of_eq ?_) fun _ => rfl
    rw [← nextCancellation_counters w (σ.subs s).inner, hnext]
  case drainedReady | drainedPending | dropCancellation | iteratorNone | admissionDead =>
    exact .frame rfl rfl rfl (counters_set_of_eq rfl) fun _ => rfl
  case close =>
    exact .frame rfl rfl rfl (counters_set_of_eq (closeDelivery_counters _ _)) fun _ => rfl
  case sweep b s d order hcall hcrit hnd ho =>
    refine (Registry.Step.sweep (s := s) hnd (fun p => ?_) (cancelCommands_targets ho)
      fun k hk => mem_cancelCommands ho hk).cast ?_
    · -- The order is that of the hash map, the set of targets is not.
      rw [← List.mem_toFinset, ho]
      exact mem_cancelTargets
    · simp only [State.registry, State.record, State.setCall, Registry.log, Registry.count,
        cancelOriginals_subs, counters_set, keys_update]
      rfl
  case sweepOwned b c p hcall hcrit ht =>
    simp only [State.ownedTargets, Finset.mem_filter, Option.any_eq_true, ownedCancellable,
      Bool.and_eq_true, bne_iff_ne, Bool.not_eq_true'] at ht
    obtain ⟨-, x, hx, ⟨-, hphase⟩, hqueued⟩ := ht
    exact Registry.Step.sweepOwned hx hphase hqueued
  case stageCancellation holder r p y hcrit hr hp hy =>
    rcases stageCancellation_cases hy with rfl | ⟨command, rest, hq, -, rfl⟩
    · exact .frame rfl hr.symm rfl (fun _ => rfl) fun _ => rfl
    · refine (Registry.Step.cancel hp.registry hq).cast ?_
      rw [hring r hr]
      rfl
  case stageOwnedCancellation holder r p y hcrit hr hp hy =>
    rcases stageOwnedCancellation_cases hy with rfl | ⟨command, rest, hq, -, rfl⟩
    · exact .frame rfl hr.symm rfl (fun _ => rfl) fun _ => rfl
    · refine (Registry.Step.ownedCancel hp.registry hq).cast ?_
      rw [hring r hr]
      rfl
  case stageOwned failed budget r p y hcrit hr hp hy =>
    rcases stageOwned_cases hy with ⟨-, rfl⟩ | ⟨op, x, hx, hy⟩
    · exact .frame rfl hr.symm rfl (fun _ => rfl) fun _ => rfl
    · have hx : x.data.contexts = σ.data.contexts ∧ x.data.ownedContexts = σ.data.ownedContexts ∧
          x.data.ownedCancelContexts = σ.data.ownedCancelContexts ∧
          x.data.staged = σ.data.staged ∧ x.data.cancelQueue = σ.data.cancelQueue ∧
          x.data.ownedCancelQueue = σ.data.ownedCancelQueue ∧ x.ring = r := by
        rcases popOwned_cases hx with ⟨_, _, rfl⟩ | ⟨_, _, _, rfl⟩ <;>
          exact ⟨rfl, rfl, rfl, rfl, rfl, rfl, rfl⟩
      obtain ⟨h1, h2, h3, h4, h5, h6, h7⟩ := hx
      rcases hy with ⟨reason, rfl⟩ | rfl | ⟨-, -, rfl⟩
      · refine .cast .stutter ?_
        simp only [State.registry, h1, h2, h3, h4, h5, h6, h7, hr]
      · refine .cast .stutter ?_
        simp only [State.registry, h1, h2, h3, h4, h5, h6, h7, hr]
      · refine (@Registry.Step.owned _ p op hp.registry).cast ?_
        simp only [State.registry, h1, h2, h3, h4, h5, h6, h7, hr]
        rfl
  case originalStaged s w n fut item r p y hcrit hfut hpending hr hp hy =>
    obtain ⟨-, rfl⟩ := stageOriginal_staged hy
    refine (Registry.Step.original (s := s) (i := item.1) (e := item.2) hp.registry).cast ?_
    simp only [State.registry, State.record, State.setClient, Registry.log, Registry.count,
      counters_set, keys_update, hr]
    simp only [History.keys, List.map_append]
    rfl
  case accept holder count r y hcrit hr hy =>
    rcases acceptStaged_cases hy with ⟨p, rest, c, hs, hc, hp, rfl⟩ |
      ⟨p, rest, c, hs, hc, hp, rfl⟩ | ⟨p, rest, c, hs, hc, hp, rfl⟩
    · -- Cancellations are accepted like originals, and counted elsewhere.
      by_cases hkind : c.kind = .original
      · refine (Registry.Step.acceptOriginal hs hc hp hkind).cast ?_
        simp only [State.registry, Registry.log, Registry.count, Registry.consume, hr,
          if_pos hkind, counters_set, acceptHistory_keys hs hc hkind]
        rfl
      · have hcancel : c.kind = .cancel := by cases h : c.kind <;> simp_all
        refine (Registry.Step.acceptCancel hs hc hp hcancel).cast ?_
        have hhist : σ.acceptHistory = σ.history := by
          funext t
          rw [σ.acceptHistory_raw hs hc, if_neg fun h => hkind h.1]
        simp only [State.registry, Registry.consume, hr, hhist, if_neg hkind]
        rfl
    · refine (Registry.Step.acceptOwned hs hc hp).cast ?_
      simp only [State.registry, Registry.consume, hr, σ.acceptHistory_owned (by simp [hs])]
      rfl
    · refine (Registry.Step.acceptOwnedCancel hs hc hp).cast ?_
      simp only [State.registry, Registry.consume, hr, σ.acceptHistory_owned (by simp [hs])]
      rfl
  case wakeAdmission =>
    exact .frame rfl rfl rfl (counters_set_of_eq (wakeUnfinished_counters _)) fun _ => rfl
  case reap r hd hcrit hr =>
    refine .cast .stutter ?_
    -- A pass reads only when everything it has read before is dispatched.
    have hnil := hS.reaped_nil (by simp [hd]) (by simp [hd])
    simp only [State.registry, hr, hnil, Option.elim_some, List.take_append_drop, List.nil_append]
  case dispatch b xs cqe rest y hd hreaped hcrit hy =>
    have hposted : σ.registry.posted = cqe :: (rest ++ σ.ring.elim [] (·.cq)) := by
      simp [State.registry, hreaped]
    rcases dispatch_cases hy with ⟨c, hc, hkind, hp, rfl⟩ |
      ⟨c, t, o, hc, hkind, hp, ht, ho, hm, rfl⟩ | ⟨c, handler, hraw, hc, hp, hh, hm, rfl⟩ |
      ⟨c, o, hraw, howned, hc, hp, ho, hm, rfl⟩
    · -- A multishot operation keeps its context until the last CQE.
      cases hm : cqe.more with
      | true =>
        refine (Registry.Step.more hposted hc hkind hp hm).cast ?_
        have hcounters := @counters_set_of_eq σ.subs c.state
          (dispatchOriginal (σ.subs c.state).limit
            ⟨c.index, cqe.setUserData c.originalUserData⟩ true ((σ.subs c.state).inner, [])).1.1
          (by rw [dispatchOriginal_counters, if_pos rfl])
        simp only [State.registry, Registry.log, dispatchHistory_original_keys hc hkind, if_true,
          funext hcounters]
        rfl
      | false =>
        refine (Registry.Step.retire hposted hc hkind hp hm).cast ?_
        simp only [State.registry, Registry.log, Registry.count,
          dispatchHistory_original_keys hc hkind, Bool.false_eq_true, if_false, counters_set,
          dispatchOriginal_counters]
        rfl
    · refine (Registry.Step.retireCancel hposted hc hkind hp ht ho hm).cast ?_
      simp only [State.registry, Registry.log, Registry.count,
        dispatchHistory_cancel_keys hc hkind, counters_set, dispatchCancel_counters]
      rfl
    · refine (Registry.Step.retireOwned hposted hraw hc hp hm).cast ?_
      simp only [State.registry, σ.dispatchHistory_owned hraw]
      rfl
    · refine (Registry.Step.retireOwnedCancel hposted hraw howned hc hp ho hm).cast ?_
      simp only [State.registry, σ.dispatchHistory_owned hraw]
      rfl
  case takeRing hd hcrit =>
    -- The ring is dropped with nothing in flight.
    obtain ⟨-, hidle, -, -⟩ := hS.idle (by rw [hd]; rfl)
    have hnil := hS.reaped_nil (by simp [hd]) (by simp [hd])
    refine (Registry.Step.dropRing hidle.contexts hidle.ownedContexts hidle.ownedCancelContexts
      hidle.staged).cast ?_
    simp only [State.registry, hnil, Option.elim_none, List.nil_append]
  case raiseShutdown => exact .cast .stutter rfl
  all_goals exact .frame rfl rfl rfl (fun _ => rfl) fun _ => rfl

end Nosv.IoUring
