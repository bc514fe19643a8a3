import Nosv.IoUring.Withdrawals

/-!
# What the counters of a submission count

The counters move in the same steps as the contexts they count: unfinished originals, originals
not accepted, and cancellations that are queued, staged or submitted. `Accounts` is the balance of
the five counters; `Labels` says that whatever names an SQE of a submission names one it staged.

* `Registry.Accounts.of_reachable` and `Registry.Labels.of_reachable`: both hold in every reachable
  state;
* `Step.context_cases` and `Step.command_cases`: where a context or a command of a next state is
  from.
-/

namespace Nosv.IoUring

/-- An original of `s` without its terminal CQE. -/
def CqeContext.live (s : SubId) (c : CqeContext) : Bool :=
  c.kind == .original && c.phase != .terminal && c.state == s

/-- An original of `s` the kernel has not accepted. -/
def CqeContext.unaccepted (s : SubId) (c : CqeContext) : Bool :=
  c.kind == .original && c.phase == .staged && c.state == s

/-- A cancellation of `s` whose key satisfies `P`. -/
def CqeContext.cancels (s : SubId) (P : ℕ × ℕ → Bool) (c : CqeContext) : Bool :=
  c.kind == .cancel && c.state == s && P c.key

/-- A command of `s` whose key satisfies `P`. -/
def CancelCommand.cancels (s : SubId) (P : ℕ × ℕ → Bool) (k : CancelCommand) : Bool :=
  k.state == s && P k.key

section Predicates

variable {s t : SubId} {P : ℕ × ℕ → Bool} {c : CqeContext}

/-- A staged item counts for its submission. -/
theorem Sqe.boxed_live (e : Sqe) (i : ℕ) : (e.boxed t i).live s = (t == s) := by
  simp [CqeContext.live, boxed]

/-- A staged item is not accepted yet. -/
theorem Sqe.boxed_unaccepted (e : Sqe) (i : ℕ) : (e.boxed t i).unaccepted s = (t == s) := by
  simp [CqeContext.unaccepted, boxed]

/-- A staged command counts as the cancellation it was queued as. -/
theorem CancelCommand.boxed_cancels (k : CancelCommand) : k.boxed.cancels s P = k.cancels s P := by
  simp [CqeContext.cancels, cancels, boxed, CqeContext.key, key]

/-- No cancellation is an original. -/
theorem CqeContext.live_cancel (h : c.kind = .cancel) : c.live s = false := by
  simp [live, h]

/-- No cancellation is an original. -/
theorem CqeContext.unaccepted_cancel (h : c.kind = .cancel) : c.unaccepted s = false := by
  simp [unaccepted, h]

/-- No original is a cancellation. -/
theorem CqeContext.cancels_original (h : c.kind = .original) : c.cancels s P = false := by
  simp [cancels, h]

/-- An unfinished original counts for its submission. -/
theorem CqeContext.live_original (h : c.kind = .original) (hp : c.phase ≠ .terminal) :
    c.live s = (c.state == s) := by
  simp [live, h, hp]

/-- A staged original counts for its submission. -/
theorem CqeContext.unaccepted_original (h : c.kind = .original) (hp : c.phase = .staged) :
    c.unaccepted s = (c.state == s) := by
  simp [unaccepted, h, hp]

/-- A cancellation counts for its submission. -/
theorem CqeContext.cancels_cancel (h : c.kind = .cancel) :
    c.cancels s P = (c.state == s && P c.key) := by
  simp [cancels, h]

/-- Acceptance finishes nothing. -/
theorem CqeContext.live_submitted (hp : c.phase = .staged) :
    CqeContext.live s { c with phase := .submitted } = c.live s := by
  simp only [live, hp]
  rfl

/-- What the kernel has is not waiting for it. -/
theorem CqeContext.unaccepted_submitted (hp : c.phase = .submitted) : c.unaccepted s = false := by
  simp [unaccepted, hp]

/-- What is finished does not count any more. -/
theorem CqeContext.live_terminal (hp : c.phase = .terminal) : c.live s = false := by
  simp [live, hp]

/-- What is finished is not waiting for the kernel. -/
theorem CqeContext.unaccepted_terminal (hp : c.phase = .terminal) : c.unaccepted s = false := by
  simp [unaccepted, hp]

end Predicates

namespace Registry

/-- The counters balance against the contexts and commands they count. -/
structure Accounts (r : Registry) : Prop where
  originals : ∀ s, (r.counters s).originals =
    (r.counters s).originalTerminal + r.contexts.count fun _ c => c.live s
  accepted : ∀ s, (r.counters s).originals =
    (r.counters s).accepted + r.contexts.count fun _ c => c.unaccepted s
  /-- Every cancellation generated is queued, has a context, or is over, whatever its key. -/
  generated : ∀ s P, (r.keys s).generated.countP P =
    (r.keys s).cancelled.countP P + (r.contexts.count fun _ c => c.cancels s P) +
      r.cancelQueue.countP (CancelCommand.cancels s P)
  cancels : ∀ s, (r.counters s).cancels = (r.keys s).generated.length
  cancelTerminal : ∀ s, (r.counters s).cancelTerminal = (r.keys s).cancelled.length
  staged : ∀ s, (r.counters s).originals = (r.keys s).staged.length
  acceptedKeys : ∀ s, (r.counters s).accepted = (r.keys s).accepted.length

/-- Everything that names an SQE of a submission names one it staged. -/
structure Labels (r : Registry) : Prop where
  contexts : ∀ p c, r.contexts.lookup p = some c → c.key ∈ (r.keys c.state).staged
  commands : ∀ k ∈ r.cancelQueue, k.key ∈ (r.keys k.state).staged
  dispatched : ∀ s, ∀ k ∈ (r.keys s).dispatched, k ∈ (r.keys s).staged
  cancelled : ∀ s, ∀ k ∈ (r.keys s).cancelled, k ∈ (r.keys s).staged
  accepted : ∀ s, ∀ i ∈ (r.keys s).accepted, i ∈ (r.keys s).staged.map Prod.fst

variable {r r' : Registry}

@[simp]
theorem count_counters (r : Registry) (s t : SubId) (f : Counters → Counters) :
    (r.count s f).counters t = if t = s then f (r.counters t) else r.counters t := by
  simp only [count, Function.update_apply]
  split_ifs with h
  · rw [h]
  · rfl

@[simp]
theorem count_keys (r : Registry) (s t : SubId) (f : Counters → Counters) :
    (r.count s f).keys t = r.keys t := rfl

@[simp]
theorem log_counters (r : Registry) (s t : SubId) (f : Keys → Keys) :
    (r.log s f).counters t = r.counters t := rfl

@[simp]
theorem log_keys (r : Registry) (s t : SubId) (f : Keys → Keys) :
    (r.log s f).keys t = if t = s then f (r.keys t) else r.keys t := by
  simp only [log, Function.update_apply]
  split_ifs with h
  · rw [h]
  · rfl

@[simp]
theorem count_contexts (r : Registry) (s : SubId) (f : Counters → Counters) :
    (r.count s f).contexts = r.contexts := rfl

@[simp]
theorem count_cancelQueue (r : Registry) (s : SubId) (f : Counters → Counters) :
    (r.count s f).cancelQueue = r.cancelQueue := rfl

@[simp]
theorem log_contexts (r : Registry) (s : SubId) (f : Keys → Keys) :
    (r.log s f).contexts = r.contexts := rfl

@[simp]
theorem log_cancelQueue (r : Registry) (s : SubId) (f : Keys → Keys) :
    (r.log s f).cancelQueue = r.cancelQueue := rfl

@[simp]
theorem consume_contexts (r : Registry) : r.consume.contexts = r.contexts := rfl

@[simp]
theorem consume_cancelQueue (r : Registry) : r.consume.cancelQueue = r.cancelQueue := rfl

@[simp]
theorem consume_counters (r : Registry) : r.consume.counters = r.counters := rfl

@[simp]
theorem consume_keys (r : Registry) : r.consume.keys = r.keys := rfl

section Counting

variable {P : CqeContext → Bool} {p t : Pointer} {c o : CqeContext}

/-- A terminal original no longer counts where only unfinished ones do. -/
theorem count_retire (hc : r.contexts.lookup p = some c)
    (hP : P { c with phase := .terminal } = false) :
    (Finmap.count (fun _ c => P c)
        (if c.cancelQueued && !c.cancelSeen then r.contexts.insert p { c with phase := .terminal }
        else r.contexts.erase p)) + (if P c then 1 else 0) =
      r.contexts.count fun _ c => P c := by
  by_cases h : (c.cancelQueued && !c.cancelSeen) = true
  · rw [if_pos h]
    have hcount := Finmap.count_insert_of_lookup (P := fun _ c => P c)
      (w := { c with phase := .terminal }) hc
    simpa only [hP, Bool.false_eq_true, if_false, Nat.add_zero] using hcount
  · rw [if_neg h]
    exact Finmap.count_erase_of_lookup (P := fun _ c => P c) hc

/-- A cancellation that retires takes itself off the count. -/
theorem count_retireCancel (hc : r.contexts.lookup p = some c)
    (ho : (r.contexts.erase p).lookup t = some o)
    (hterminal : o.phase = .terminal → P o = false)
    (hseen : P { o with cancelSeen := true } = P o) :
    (Finmap.count (fun _ c => P c)
        (if o.phase = .terminal then (r.contexts.erase p).erase t
        else (r.contexts.erase p).insert t { o with cancelSeen := true })) +
        (if P c then 1 else 0) =
      r.contexts.count fun _ c => P c := by
  have herase := Finmap.count_erase_of_lookup (P := fun _ c => P c) hc
  by_cases h : o.phase = .terminal
  · rw [if_pos h, ← herase, ← Finmap.count_erase_of_lookup (P := fun _ c => P c) ho,
      hterminal h]
    rfl
  · rw [if_neg h, ← herase]
    have hcount := Finmap.count_insert_of_lookup (P := fun _ c => P c)
      (w := { o with cancelSeen := true }) ho
    rw [hseen] at hcount
    omega

end Counting

section Balance

variable {p : Pointer} {c : CqeContext}

/-- While an original is in the hands of the kernel, not all originals are terminal. -/
theorem Accounts.original_lt (h : r.Accounts) (hc : r.contexts.lookup p = some c)
    (hkind : c.kind = .original) (hphase : c.phase = .submitted) :
    (r.counters c.state).originalTerminal < (r.counters c.state).originals := by
  have hpos := Finmap.count_pos_of_lookup (P := fun _ x => CqeContext.live c.state x) hc
    (by simp [CqeContext.live, hkind, hphase])
  have := h.originals c.state
  omega

/-- While a cancellation is in the hands of the kernel, not all cancellations are terminal. -/
theorem Accounts.cancel_lt (h : r.Accounts) (hc : r.contexts.lookup p = some c)
    (hkind : c.kind = .cancel) :
    (r.counters c.state).cancelTerminal < (r.counters c.state).cancels := by
  have hpos := Finmap.count_pos_of_lookup
    (P := fun _ x => CqeContext.cancels c.state (fun _ => true) x) hc
    (by simp [CqeContext.cancels, hkind])
  have := h.generated c.state fun _ => true
  rw [List.countP_true, ← h.cancels, ← h.cancelTerminal] at this
  omega

/-- No counter of what is over exceeds the counter of what there was. -/
theorem Accounts.le (h : r.Accounts) (s : SubId) :
    (r.counters s).accepted ≤ (r.counters s).originals ∧
      (r.counters s).originalTerminal ≤ (r.counters s).originals ∧
      (r.counters s).cancelTerminal ≤ (r.counters s).cancels := by
  have hgenerated := h.generated s fun _ => true
  rw [List.countP_true, ← h.cancels, ← h.cancelTerminal] at hgenerated
  have horiginals := h.originals s
  have haccepted := h.accepted s
  omega

end Balance

/-! ## Steps keep the accounts -/

namespace Accounts

/-- Unfinished originals stay accounted for. -/
theorem step_originals (h : r.Accounts) (hs : r.Step r') (s : SubId) :
    (r'.counters s).originals =
      (r'.counters s).originalTerminal + r'.contexts.count fun _ c => c.live s := by
  have hr := h.originals s
  cases hs with
  | stutter => exact hr
  | post => exact hr
  | ownedCancel => exact hr
  | owned => exact hr
  | acceptOwned => exact hr
  | acceptOwnedCancel => exact hr
  | sweepOwned => exact hr
  | retireOwned => exact hr
  | retireOwnedCancel => exact hr
  | dropRing => exact hr
  -- One more original, and one more live context.
  | @original t i e p hp =>
    have hcount := Finmap.count_insert_of_lookup_none (P := fun _ c => CqeContext.live s c)
      (v := e.boxed t i) hp.contexts
    rw [e.boxed_live] at hcount
    simp only [log_counters, count_counters, log_contexts, count_contexts, hcount]
    by_cases hst : s = t
    · subst hst
      simp only [beq_self_eq_true, if_true]
      omega
    · simpa only [hst, beq_eq_false_iff_ne.mpr (Ne.symm hst), Bool.false_eq_true, if_false,
        Nat.add_zero] using hr
  | @cancel p command rest hp hq =>
    have hcount := Finmap.count_insert_of_lookup_none (P := fun _ c => CqeContext.live s c)
      (v := command.boxed) hp.contexts
    rw [CqeContext.live_cancel rfl] at hcount
    exact hr.trans (congrArg _ hcount.symm)
  -- Acceptance changes the phase only.
  | @acceptOriginal p rest c hstaged hc hphase hkind =>
    have hcount := Finmap.count_insert_of_lookup (P := fun _ c => CqeContext.live s c)
      (w := { c with phase := .submitted }) hc
    rw [CqeContext.live_submitted hphase] at hcount
    simp only [log_counters, count_counters, log_contexts, count_contexts, consume]
    grind
  | @acceptCancel p rest c hstaged hc hphase hkind =>
    have hcount := Finmap.count_insert_of_lookup (P := fun _ c => CqeContext.live s c)
      (w := { c with phase := .submitted }) hc
    rw [CqeContext.live_submitted hphase] at hcount
    simp only [consume]
    omega
  | @sweep t order commands hnodup horder htargets hcommands =>
    have hcount := Finmap.count_foldl_modify_of_forall_eq (s := r.contexts)
      (P := fun _ c => CqeContext.live s c) (f := fun c => { c with cancelQueued := true })
      (fun _ _ => rfl) order
    simp only [log_counters, count_counters, log_contexts, count_contexts, hcount]
    split_ifs <;> exact hr
  | @more cqe rest c => exact hr
  -- The context may stay for its cancellation, but it is not live any more.
  | @retire cqe rest c hposted hc hkind hphase hmore =>
    have hcount := count_retire (P := CqeContext.live s) hc (CqeContext.live_terminal rfl)
    rw [CqeContext.live_original hkind (by simp [hphase])] at hcount
    simp only [log_counters, count_counters, log_contexts, count_contexts]
    by_cases hst : s = c.state
    · subst hst
      simp only [beq_self_eq_true, if_true] at hcount ⊢
      omega
    · simp only [hst, beq_eq_false_iff_ne.mpr (Ne.symm hst), Bool.false_eq_true,
        if_false] at hcount ⊢
      omega
  | @retireCancel cqe rest c o t hposted hc hkind hphase htarget ho hmore =>
    have hcount := count_retireCancel (P := CqeContext.live s) hc ho CqeContext.live_terminal rfl
    rw [CqeContext.live_cancel hkind] at hcount
    simp only [log_counters, count_counters, log_contexts, count_contexts]
    grind

/-- Originals the kernel has not accepted stay accounted for. -/
theorem step_accepted (h : r.Accounts) (hs : r.Step r') (s : SubId) :
    (r'.counters s).originals =
      (r'.counters s).accepted + r'.contexts.count fun _ c => c.unaccepted s := by
  have hr := h.accepted s
  cases hs with
  | stutter => exact hr
  | post => exact hr
  | ownedCancel => exact hr
  | owned => exact hr
  | acceptOwned => exact hr
  | acceptOwnedCancel => exact hr
  | sweepOwned => exact hr
  | retireOwned => exact hr
  | retireOwnedCancel => exact hr
  | dropRing => exact hr
  | more => exact hr
  | @original t i e p hp =>
    have hcount := Finmap.count_insert_of_lookup_none
      (P := fun _ c => CqeContext.unaccepted s c) (v := e.boxed t i) hp.contexts
    rw [e.boxed_unaccepted] at hcount
    simp only [log_counters, count_counters, log_contexts, count_contexts, hcount]
    by_cases hst : s = t
    · subst hst
      simp only [beq_self_eq_true, if_true]
      omega
    · simpa only [hst, beq_eq_false_iff_ne.mpr (Ne.symm hst), Bool.false_eq_true, if_false,
        Nat.add_zero] using hr
  | @cancel p command rest hp hq =>
    have hcount := Finmap.count_insert_of_lookup_none
      (P := fun _ c => CqeContext.unaccepted s c) (v := command.boxed) hp.contexts
    rw [CqeContext.unaccepted_cancel rfl] at hcount
    exact hr.trans (congrArg _ hcount.symm)
  | @acceptOriginal p rest c hstaged hc hphase hkind =>
    have hcount := Finmap.count_insert_of_lookup (P := fun _ c => CqeContext.unaccepted s c)
      (w := { c with phase := .submitted }) hc
    rw [CqeContext.unaccepted_submitted (c := { c with phase := .submitted }) rfl,
      CqeContext.unaccepted_original hkind hphase] at hcount
    simp only [log_counters, count_counters, log_contexts, count_contexts, consume]
    by_cases hst : s = c.state
    · subst hst
      simp only [beq_self_eq_true, Bool.false_eq_true, if_true, if_false] at hcount ⊢
      omega
    · simp only [hst, beq_eq_false_iff_ne.mpr (Ne.symm hst), Bool.false_eq_true,
        if_false] at hcount ⊢
      omega
  | @acceptCancel p rest c hstaged hc hphase hkind =>
    have hcount := Finmap.count_insert_of_lookup (P := fun _ c => CqeContext.unaccepted s c)
      (w := { c with phase := .submitted }) hc
    rw [CqeContext.unaccepted_submitted (c := { c with phase := .submitted }) rfl,
      CqeContext.unaccepted_cancel hkind] at hcount
    simp only [consume]
    omega
  | @sweep t order commands hnodup horder htargets hcommands =>
    have hcount := Finmap.count_foldl_modify_of_forall_eq (s := r.contexts)
      (P := fun _ c => CqeContext.unaccepted s c) (f := fun c => { c with cancelQueued := true })
      (fun _ _ => rfl) order
    simp only [log_counters, count_counters, log_contexts, count_contexts, hcount]
    split_ifs <;> exact hr
  -- What is terminal was accepted before.
  | @retire cqe rest c hposted hc hkind hphase hmore =>
    have hcount := count_retire (P := CqeContext.unaccepted s) hc
      (CqeContext.unaccepted_terminal rfl)
    rw [CqeContext.unaccepted_submitted hphase] at hcount
    simp only [log_counters, count_counters, log_contexts, count_contexts]
    grind
  | @retireCancel cqe rest c o t hposted hc hkind hphase htarget ho hmore =>
    have hcount := count_retireCancel (P := CqeContext.unaccepted s) hc ho
      CqeContext.unaccepted_terminal rfl
    rw [CqeContext.unaccepted_cancel hkind] at hcount
    simp only [log_counters, count_counters, log_contexts, count_contexts]
    grind

/-- Cancellations stay accounted for. -/
theorem step_generated (h : r.Accounts) (hp : r.Paired) (hs : r.Step r') (s : SubId)
    (P : ℕ × ℕ → Bool) :
    (r'.keys s).generated.countP P =
      (r'.keys s).cancelled.countP P + (r'.contexts.count fun _ c => c.cancels s P) +
        r'.cancelQueue.countP (CancelCommand.cancels s P) := by
  have hr := h.generated s P
  cases hs with
  | stutter => exact hr
  | post => exact hr
  | ownedCancel => exact hr
  | owned => exact hr
  | acceptOwned => exact hr
  | acceptOwnedCancel => exact hr
  | sweepOwned => exact hr
  | retireOwned => exact hr
  | retireOwnedCancel => exact hr
  | dropRing => exact hr
  | more =>
    simp only [log_keys, log_contexts, log_cancelQueue]
    split_ifs <;> exact hr
  | @original t i e p hp =>
    have hcount := Finmap.count_insert_of_lookup_none
      (P := fun _ c => CqeContext.cancels s P c) (v := e.boxed t i) hp.contexts
    simp only [CqeContext.cancels_original (c := e.boxed t i) rfl, Bool.false_eq_true, if_false,
      Nat.add_zero] at hcount
    simp only [log_keys, count_keys, log_contexts, count_contexts, log_cancelQueue,
      count_cancelQueue, hcount]
    split_ifs <;> exact hr
  -- A command leaves the queue for a context.
  | @cancel p command rest hp hq =>
    have hcount := Finmap.count_insert_of_lookup_none
      (P := fun _ c => CqeContext.cancels s P c) (v := command.boxed) hp.contexts
    rw [CancelCommand.boxed_cancels] at hcount
    simp only [hq, List.countP_cons] at hr
    simp only [hcount]
    omega
  | @acceptOriginal p rest c hstaged hc hphase hkind =>
    have hcount := Finmap.count_insert_of_lookup (P := fun _ c => CqeContext.cancels s P c)
      (w := { c with phase := .submitted }) hc
    simp only [CqeContext.cancels_original (c := { c with phase := .submitted }) hkind,
      CqeContext.cancels_original hkind, Bool.false_eq_true, if_false, Nat.add_zero] at hcount
    simp only [log_keys, count_keys, log_contexts, count_contexts, log_cancelQueue,
      count_cancelQueue, consume, hcount]
    split_ifs <;> exact hr
  | @acceptCancel p rest c hstaged hc hphase hkind =>
    have hcount := Finmap.count_insert_of_lookup (P := fun _ c => CqeContext.cancels s P c)
      (w := { c with phase := .submitted }) hc
    have hsame : CqeContext.cancels s P { c with phase := .submitted } = c.cancels s P := rfl
    rw [hsame] at hcount
    simp only [consume]
    omega
  -- Every new command counts once as generated and once in the queue.
  | @sweep t order commands hnodup horder htargets hcommands =>
    have hcount := Finmap.count_foldl_modify_of_forall_eq (s := r.contexts)
      (P := fun _ c => CqeContext.cancels s P c) (f := fun c => { c with cancelQueued := true })
      (fun _ _ => rfl) order
    simp only [log_keys, count_keys, log_contexts, count_contexts, log_cancelQueue,
      count_cancelQueue, hcount, List.countP_append]
    have hstate : ∀ k ∈ commands, k.state = t := by
      intro k hk
      obtain ⟨c, -, -, hk⟩ := hcommands k hk
      rw [hk]
    by_cases hst : s = t
    · subst hst
      have hcommand : commands.countP (CancelCommand.cancels s P) =
          (commands.map CancelCommand.key).countP P := by
        rw [List.countP_map]
        refine List.countP_congr fun k hk => ?_
        simp [CancelCommand.cancels, hstate k hk]
      simp only [if_true, List.countP_append, hcommand]
      omega
    · have hcommand : commands.countP (CancelCommand.cancels s P) = 0 := by
        rw [List.countP_eq_zero]
        intro k hk
        simp [CancelCommand.cancels, hstate k hk, Ne.symm hst]
      simp only [hst, if_false, hcommand]
      exact hr
  | @retire cqe rest c hposted hc hkind hphase hmore =>
    have hcount := count_retire (P := CqeContext.cancels s P) hc
      (CqeContext.cancels_original (c := { c with phase := .terminal }) hkind)
    simp only [CqeContext.cancels_original hkind, Bool.false_eq_true, if_false,
      Nat.add_zero] at hcount
    simp only [log_keys, count_keys, log_contexts, count_contexts, log_cancelQueue,
      count_cancelQueue, hcount]
    split_ifs <;> exact hr
  -- The context goes and its key is recorded, its target is an original and not counted.
  | @retireCancel cqe rest c o t hposted hc hkind hphase htarget ho hmore =>
    have hokind := hp.target_original hc hkind htarget (Paired.lookup_of_erase ho)
    have hcount := count_retireCancel (P := CqeContext.cancels s P) hc ho
      (fun _ => CqeContext.cancels_original hokind) rfl
    rw [CqeContext.cancels_cancel hkind] at hcount
    simp only [log_keys, count_keys, log_contexts, count_contexts, log_cancelQueue,
      count_cancelQueue]
    by_cases hst : s = c.state
    · subst hst
      simp only [beq_self_eq_true, Bool.true_and] at hcount
      simp only [if_true, List.countP_append, List.countP_singleton]
      omega
    · simp only [hst, beq_eq_false_iff_ne.mpr (Ne.symm hst), Bool.false_and, Bool.false_eq_true,
        if_false] at hcount ⊢
      omega

/-- The keys are as many as the counters say. -/
theorem step_lengths (h : r.Accounts) (hs : r.Step r') (s : SubId) :
    (r'.counters s).cancels = (r'.keys s).generated.length ∧
      (r'.counters s).cancelTerminal = (r'.keys s).cancelled.length ∧
      (r'.counters s).originals = (r'.keys s).staged.length ∧
      (r'.counters s).accepted = (r'.keys s).accepted.length := by
  have hr := And.intro (h.cancels s)
    (And.intro (h.cancelTerminal s) (And.intro (h.staged s) (h.acceptedKeys s)))
  cases hs
  case original | acceptOriginal | sweep | more | retire | retireCancel =>
    simp only [log_counters, log_keys, count_counters, count_keys]
    split_ifs
    · simpa using hr
    · exact hr
  all_goals exact hr

/-- Every step keeps the accounts. -/
theorem step (h : r.Accounts) (hp : r.Paired) (hs : r.Step r') : r'.Accounts where
  originals := h.step_originals hs
  accepted := h.step_accepted hs
  generated := h.step_generated hp hs
  cancels := fun s => (h.step_lengths hs s).1
  cancelTerminal := fun s => (h.step_lengths hs s).2.1
  staged := fun s => (h.step_lengths hs s).2.2.1
  acceptedKeys := fun s => (h.step_lengths hs s).2.2.2

end Accounts

/-! ## Steps keep the labels -/

/-- A step forgets no key that was staged. -/
theorem Step.staged_mono (hs : r.Step r') {s : SubId} {k : ℕ × ℕ} (hk : k ∈ (r.keys s).staged) :
    k ∈ (r'.keys s).staged := by
  cases hs
  case original =>
    simp only [log_keys, count_keys]
    split_ifs
    · exact List.mem_append_left _ hk
    · exact hk
  case acceptOriginal | sweep | more | retire | retireCancel =>
    simp only [log_keys, count_keys]
    split_ifs <;> exact hk
  all_goals exact hk

/-- A context found after a step was there before, as that of the same SQE; or is that of an
original staged by the step; or is that of a cancellation staged by the step. -/
theorem Step.context_cases (hs : r.Step r') {p : Pointer} {c : CqeContext}
    (hc : r'.contexts.lookup p = some c) :
    (∃ x, r.contexts.lookup p = some x ∧ x.state = c.state ∧ x.kind = c.kind ∧
      x.target = c.target ∧ x.key = c.key ∧ (x.cancelQueued = true → c.cancelQueued = true) ∧
      (c.phase ≠ .terminal → x.phase ≠ .terminal)) ∨
    (r.Fresh p ∧ c.kind = .original ∧ c.key ∈ (r'.keys c.state).staged ∧
      (r'.counters c.state).originals = (r.counters c.state).originals + 1) ∨
    (r.Fresh p ∧ ∃ command ∈ r.cancelQueue, c = command.boxed) := by
  -- The context was there before, under the same labels.
  have hold : ∀ {x : CqeContext} {R : Prop}, r.contexts.lookup p = some x → x.state = c.state →
      x.kind = c.kind → x.target = c.target → x.key = c.key →
      (x.cancelQueued = true → c.cancelQueued = true) →
      (c.phase ≠ .terminal → x.phase ≠ .terminal) →
      (∃ x, r.contexts.lookup p = some x ∧ x.state = c.state ∧ x.kind = c.kind ∧
        x.target = c.target ∧ x.key = c.key ∧ (x.cancelQueued = true → c.cancelQueued = true) ∧
        (c.phase ≠ .terminal → x.phase ≠ .terminal)) ∨ R :=
    fun hx h1 h2 h3 h4 h5 h6 => .inl ⟨_, hx, h1, h2, h3, h4, h5, h6⟩
  cases hs with
  | @original s i e q hq =>
    simp only [log_contexts, count_contexts, Finmap.lookup_insert_eq_ite] at hc
    split_ifs at hc with hpq
    · obtain rfl := Option.some.inj hc
      subst hpq
      exact .inr (.inl ⟨hq, rfl, by simp [Sqe.boxed, CqeContext.key], by simp [Sqe.boxed]⟩)
    · exact hold hc rfl rfl rfl rfl id id
  | @cancel q command rest hq hqueue =>
    rw [Finmap.lookup_insert_eq_ite] at hc
    split_ifs at hc with hpq
    · obtain rfl := Option.some.inj hc
      subst hpq
      exact .inr (.inr ⟨hq, command, by rw [hqueue]; exact List.mem_cons_self, rfl⟩)
    · exact hold hc rfl rfl rfl rfl id id
  | @acceptOriginal q rest x hstaged hx hphase hkind =>
    simp only [log_contexts, count_contexts, consume_contexts, Finmap.lookup_insert_eq_ite] at hc
    split_ifs at hc with hpq
    · obtain rfl := Option.some.inj hc
      exact hold (x := x) (hpq ▸ hx) rfl rfl rfl rfl id fun _ => by simp [hphase]
    · exact hold hc rfl rfl rfl rfl id id
  | @acceptCancel q rest x hstaged hx hphase hkind =>
    simp only [consume_contexts, Finmap.lookup_insert_eq_ite] at hc
    split_ifs at hc with hpq
    · obtain rfl := Option.some.inj hc
      exact hold (x := x) (hpq ▸ hx) rfl rfl rfl rfl id fun _ => by simp [hphase]
    · exact hold hc rfl rfl rfl rfl id id
  | @sweep s order commands hnodup horder htargets hcommands =>
    simp only [log_contexts, count_contexts, Finmap.lookup_foldl_modify hnodup] at hc
    split_ifs at hc
    · obtain ⟨x, hx, rfl⟩ := Option.map_eq_some_iff.mp hc
      exact hold hx rfl rfl rfl rfl (fun _ => rfl) id
    · exact hold hc rfl rfl rfl rfl id id
  -- The last CQE of an original, which stays for its cancellation when there is one.
  | @retire cqe rest x hposted hx hkind hphase hmore =>
    simp only [log_contexts, count_contexts] at hc
    split_ifs at hc
    · rw [Finmap.lookup_insert_eq_ite] at hc
      split_ifs at hc with hpq
      · obtain rfl := Option.some.inj hc
        exact hold (x := x) (hpq ▸ hx) rfl rfl rfl rfl id fun h => absurd rfl h
      · exact hold hc rfl rfl rfl rfl id id
    · exact hold (Paired.lookup_of_erase hc) rfl rfl rfl rfl id id
  -- The CQE of a cancellation takes its own context, and the target's when that was over.
  | @retireCancel cqe rest x o t hposted hx hkind hphase htarget ho hmore =>
    simp only [log_contexts, count_contexts] at hc
    split_ifs at hc
    · exact hold (Paired.lookup_of_erase (Paired.lookup_of_erase hc)) rfl rfl rfl rfl id id
    · rw [Finmap.lookup_insert_eq_ite] at hc
      split_ifs at hc with hpt
      · obtain rfl := Option.some.inj hc
        exact hold (x := o) (hpt ▸ Paired.lookup_of_erase ho) rfl rfl rfl rfl id id
      · exact hold (Paired.lookup_of_erase hc) rfl rfl rfl rfl id id
  | _ => exact hold hc rfl rfl rfl rfl id id

/-- A command queued after a step was queued before, or is for an original the step collected. -/
theorem Step.command_cases (hs : r.Step r') {k : CancelCommand} (hk : k ∈ r'.cancelQueue) :
    k ∈ r.cancelQueue ∨
      ∃ c, r.contexts.lookup k.target = some c ∧ cancellable k.state c = true ∧ k.key = c.key := by
  cases hs with
  | cancel _ hq => exact .inl (by rw [hq]; exact List.mem_cons_of_mem _ hk)
  | @sweep s order commands hnodup horder htargets hcommands =>
    rcases List.mem_append.mp hk with hk | hk
    · exact .inl hk
    · obtain ⟨c, hc, hs, heq⟩ := hcommands k hk
      have hstate : k.state = s := congrArg CancelCommand.state heq
      exact .inr ⟨c, hc, hstate ▸ hs, congrArg CancelCommand.key heq⟩
  | _ => exact .inl hk

namespace Labels

/-- A context found after a step is new or was there before, under the same label. -/
theorem step_contexts (h : r.Labels) (hs : r.Step r') (p : Pointer) (c : CqeContext)
    (hc : r'.contexts.lookup p = some c) : c.key ∈ (r'.keys c.state).staged := by
  rcases hs.context_cases hc with ⟨x, hx, hstate, -, -, hkey, -⟩ | ⟨-, -, hkey, -⟩ |
    ⟨-, command, hcommand, rfl⟩
  · rw [← hstate, ← hkey]
    exact hs.staged_mono (h.contexts p x hx)
  · exact hkey
  · exact hs.staged_mono (h.commands command hcommand)

/-- Every step keeps the labels. -/
theorem step (h : r.Labels) (hs : r.Step r') : r'.Labels where
  contexts := h.step_contexts hs
  commands := by
    intro k hk
    rcases hs.command_cases hk with hk | ⟨c, hc, hcancel, hkey⟩
    · exact hs.staged_mono (h.commands k hk)
    · simp only [cancellable, Bool.and_eq_true, beq_iff_eq] at hcancel
      rw [hkey, ← hcancel.2]
      exact hs.staged_mono (h.contexts _ c hc)
  -- A key enters a list from the context it labels, and that label was staged.
  dispatched := by
    intro s k hk
    have hold : k ∈ (r.keys s).dispatched → k ∈ (r'.keys s).staged := fun hk =>
      hs.staged_mono (h.dispatched s k hk)
    cases hs
    case more c hposted hc hkind hphase hmore | retire c hposted hc hkind hphase hmore =>
      simp only [log_keys, count_keys] at hk hold ⊢
      split_ifs at hk hold ⊢ with hsc
      · rcases List.mem_append.mp hk with hk | hk
        · exact hold hk
        · rw [List.mem_singleton.mp hk, hsc]
          exact h.contexts _ c hc
      · exact hold hk
    case original | acceptOriginal | sweep | retireCancel =>
      refine hold ?_
      simp only [log_keys, count_keys] at hk
      split_ifs at hk <;> exact hk
    all_goals exact hold hk
  cancelled := by
    intro s k hk
    have hold : k ∈ (r.keys s).cancelled → k ∈ (r'.keys s).staged := fun hk =>
      hs.staged_mono (h.cancelled s k hk)
    cases hs
    case retireCancel c o t hposted hc hkind hphase htarget ho hmore =>
      simp only [log_keys, count_keys] at hk hold ⊢
      split_ifs at hk hold ⊢ with hsc
      · rcases List.mem_append.mp hk with hk | hk
        · exact hold hk
        · rw [List.mem_singleton.mp hk, hsc]
          exact h.contexts _ c hc
      · exact hold hk
    case original | acceptOriginal | sweep | more | retire =>
      refine hold ?_
      simp only [log_keys, count_keys] at hk
      split_ifs at hk <;> exact hk
    all_goals exact hold hk
  accepted := by
    intro s i hi
    have hold : i ∈ (r.keys s).accepted → i ∈ (r'.keys s).staged.map Prod.fst := by
      intro hi
      obtain ⟨k, hk, rfl⟩ := List.mem_map.mp (h.accepted s i hi)
      exact List.mem_map_of_mem (hs.staged_mono hk)
    cases hs
    case acceptOriginal c hstaged hc hphase hkind =>
      simp only [log_keys, count_keys] at hi hold ⊢
      split_ifs at hi hold ⊢ with hsc
      · rcases List.mem_append.mp hi with hi | hi
        · exact hold hi
        · rw [List.mem_singleton.mp hi, hsc]
          exact List.mem_map_of_mem (h.contexts _ c hc)
      · exact hold hi
    case original | sweep | more | retire | retireCancel =>
      refine hold ?_
      simp only [log_keys, count_keys] at hi
      split_ifs at hi <;> exact hi
    all_goals exact hold hi

end Labels

end Registry

variable {cfg : PreparedRing} {ok : State → Action → Prop} {σ : State}

/-- The accounts balance in every reachable state. -/
theorem Registry.Accounts.of_reachable (h : Reachable cfg ok σ) : σ.registry.Accounts := by
  have hboth : σ.registry.Paired ∧ σ.registry.Accounts := by
    refine h.registry_inv (I := fun r => r.Paired ∧ r.Accounts)
      ⟨.of_reachable (Lts.Reaches.refl : Reachable cfg ok _), ?_⟩
      fun hI hs => ⟨hs.paired hI.1, hI.2.step hI.1 hs⟩
    constructor <;> intros <;> rfl
  exact hboth.2

/-- Every label names a staged original in every reachable state. -/
theorem Registry.Labels.of_reachable (h : Reachable cfg ok σ) : σ.registry.Labels := by
  refine h.registry_inv ?_ fun hI hs => hI.step hs
  constructor
  · intro p c hc
    cases hc
  all_goals simp [State.init_registry]

end Nosv.IoUring
