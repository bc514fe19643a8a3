import Nosv.Ext.Pairing
import Nosv.IoUring.Traffic

/-!
# Contexts and the cancellations that target them

Both families of contexts are a `Pairing`: an original is an item, a staged or submitted
cancellation a flight, a queued command a queued withdrawal. Every step of the registry is one
operation of the pairing, so the discipline of the pairing holds of both families in every
reachable state.

`Registry.Paired.of_reachable` is the result.
-/

namespace Nosv.IoUring

/-- The item a raw context is, when it is an original's. -/
def CqeContext.item? (c : CqeContext) : Option Pairing.Item :=
  match c.kind with
  | .original => some ⟨c.phase == .terminal, c.cancelQueued, c.cancelSeen⟩
  | .cancel => none

/-- The target of a raw context, when it is a cancellation's. -/
def CqeContext.flight? (c : CqeContext) : Option Pointer :=
  match c.kind with
  | .original => none
  | .cancel => c.target

/-- The item an owned context is. -/
def OwnedCqeContext.item (c : OwnedCqeContext) : Pairing.Item :=
  ⟨c.phase == .terminal, c.cancelQueued, c.cancelSeen⟩

section Kinds

variable {c : CqeContext}

/-- The item of an original. -/
theorem CqeContext.item?_original (h : c.kind = .original) :
    c.item? = some ⟨c.phase == .terminal, c.cancelQueued, c.cancelSeen⟩ := by
  rw [item?, h]

/-- Only an original is an item. -/
theorem CqeContext.item?_eq_some {i : Pairing.Item} :
    c.item? = some i ↔
      c.kind = .original ∧ i = ⟨c.phase == .terminal, c.cancelQueued, c.cancelSeen⟩ := by
  cases hk : c.kind with
  | original => simp [item?, hk, eq_comm]
  | cancel => simp [item?, hk]

/-- A cancellation is no item. -/
theorem CqeContext.item?_cancel (h : c.kind = .cancel) : c.item? = none := by
  rw [item?, h]

/-- An original is no flight. -/
theorem CqeContext.flight?_original (h : c.kind = .original) : c.flight? = none := by
  rw [flight?, h]

/-- The flight of a cancellation. -/
theorem CqeContext.flight?_cancel (h : c.kind = .cancel) : c.flight? = c.target := by
  rw [flight?, h]

end Kinds

namespace Registry

/-- The raw contexts and commands as a pairing. -/
def rawPairs (r : Registry) : Pairing Pointer where
  items := r.contexts.view CqeContext.item?
  flights := r.contexts.view CqeContext.flight?
  queue := r.cancelQueue.map (·.target)

/-- The owned contexts and commands as a pairing. -/
def ownedPairs (r : Registry) : Pairing Pointer where
  items := r.ownedContexts.view fun c => some c.item
  flights := r.ownedCancelContexts.view fun c => some c.target
  queue := r.ownedCancelQueue.map (·.target)

/-- Both families obey the discipline of items and withdrawals, and their records agree with it. -/
structure Paired (r : Registry) : Prop where
  raw : r.rawPairs.Wf
  owned : r.ownedPairs.Wf
  /-- A raw cancellation has a target and leaves the registry with its CQE. -/
  cancel : ∀ p c, r.contexts.lookup p = some c → c.kind = .cancel →
    c.target.isSome = true ∧ c.phase ≠ .terminal
  /-- An owned cancellation leaves the registry with its CQE. -/
  ownedCancel : ∀ p c, r.ownedCancelContexts.lookup p = some c → c.phase ≠ .terminal
  /-- An owned context holds the resources until its CQE. -/
  handler : ∀ p c, r.ownedContexts.lookup p = some c →
    (c.handler.isSome = true ↔ c.phase ≠ .terminal)

variable {r r' : Registry}

/-- The raw pairing depends on the raw contexts and commands alone. -/
theorem rawPairs_congr (hc : r'.contexts = r.contexts) (hq : r'.cancelQueue = r.cancelQueue) :
    r'.rawPairs = r.rawPairs := by
  rw [rawPairs, hc, hq]
  rfl

/-- The owned pairing depends on the owned contexts and commands alone. -/
theorem ownedPairs_congr (hc : r'.ownedContexts = r.ownedContexts)
    (hx : r'.ownedCancelContexts = r.ownedCancelContexts)
    (hq : r'.ownedCancelQueue = r.ownedCancelQueue) : r'.ownedPairs = r.ownedPairs := by
  rw [ownedPairs, hc, hx, hq]
  rfl

/-- A raw step keeps the pairing of the owned family. -/
theorem Paired.of_raw (h : r.Paired) (hc : r'.ownedContexts = r.ownedContexts)
    (hx : r'.ownedCancelContexts = r.ownedCancelContexts)
    (hq : r'.ownedCancelQueue = r.ownedCancelQueue) (hraw : r'.rawPairs.Wf)
    (hcancel : ∀ p c, r'.contexts.lookup p = some c → c.kind = .cancel →
      c.target.isSome = true ∧ c.phase ≠ .terminal) : r'.Paired where
  raw := hraw
  owned := ownedPairs_congr hc hx hq ▸ h.owned
  cancel := hcancel
  ownedCancel := hx ▸ h.ownedCancel
  handler := hc ▸ h.handler

/-- An owned step keeps the pairing of the raw family. -/
theorem Paired.of_owned (h : r.Paired) (hc : r'.contexts = r.contexts)
    (hq : r'.cancelQueue = r.cancelQueue) (howned : r'.ownedPairs.Wf)
    (hcancel : ∀ p c, r'.ownedCancelContexts.lookup p = some c → c.phase ≠ .terminal)
    (hhandler : ∀ p c, r'.ownedContexts.lookup p = some c →
      (c.handler.isSome = true ↔ c.phase ≠ .terminal)) : r'.Paired where
  raw := rawPairs_congr hc hq ▸ h.raw
  owned := howned
  cancel := hc ▸ h.cancel
  ownedCancel := hcancel
  handler := hhandler

/-- A step that touches neither family. -/
theorem Paired.same (h : r.Paired) (hc : r'.contexts = r.contexts)
    (hq : r'.cancelQueue = r.cancelQueue) (ho : r'.ownedContexts = r.ownedContexts)
    (hx : r'.ownedCancelContexts = r.ownedCancelContexts)
    (hoq : r'.ownedCancelQueue = r.ownedCancelQueue) : r'.Paired :=
  h.of_raw ho hx hoq (rawPairs_congr hc hq ▸ h.raw) (hc ▸ h.cancel)

/-! ## The raw family -/

/-- The target of a raw cancellation is an original. -/
theorem Paired.target_original (h : r.Paired) {p t : Pointer} {c o : CqeContext}
    (hc : r.contexts.lookup p = some c) (hkind : c.kind = .cancel) (htarget : c.target = some t)
    (ho : r.contexts.lookup t = some o) : o.kind = .original := by
  have hflight : r.rawPairs.flights p = some t := by
    simp only [rawPairs]
    rw [Finmap.view_of_lookup hc, CqeContext.flight?_cancel hkind, htarget]
  obtain ⟨i, hi, -⟩ := h.raw.target t (.inr ⟨p, hflight⟩)
  simp only [rawPairs] at hi
  rw [Finmap.view_of_lookup ho] at hi
  exact (CqeContext.item?_eq_some.mp hi).1

/-- Staging an original registers an item. -/
theorem rawPairs_original {p : Pointer} {c : CqeContext}
    (hc : r'.contexts = r.contexts.insert p c) (hq : r'.cancelQueue = r.cancelQueue)
    (hfresh : r.contexts.lookup p = none) (hitem : c.item? = some .fresh)
    (hkind : c.kind = .original) : r'.rawPairs = r.rawPairs.register p := by
  have hflight : r.contexts.view CqeContext.flight? p = c.flight? := by
    rw [Finmap.view_of_lookup_none hfresh, CqeContext.flight?_original hkind]
  ext1
  · simp only [rawPairs, Pairing.register, hc, Finmap.view_insert, hitem]
  · simp only [rawPairs, Pairing.register, hc]
    rw [Finmap.view_insert_of_eq hflight]
  · simp only [rawPairs, Pairing.register, hq]

/-- Staging a cancellation launches the withdrawal at the front of the queue. -/
theorem rawPairs_cancel {p : Pointer} {command : CancelCommand} {rest : List CancelCommand}
    (hc : r'.contexts = r.contexts.insert p command.boxed) (hq : r'.cancelQueue = rest)
    (hfresh : r.contexts.lookup p = none) :
    r'.rawPairs = r.rawPairs.launch p command.target (rest.map (·.target)) := by
  have hitem : r.contexts.view CqeContext.item? p = command.boxed.item? := by
    rw [Finmap.view_of_lookup_none hfresh]
    rfl
  ext1
  · simp only [rawPairs, Pairing.launch, hc]
    rw [Finmap.view_insert_of_eq hitem]
  · simp only [rawPairs, Pairing.launch, hc, Finmap.view_insert]
    rfl
  · simp only [rawPairs, Pairing.launch, hq]

/-- Acceptance of a raw SQE is not seen by the pairing. -/
theorem rawPairs_accept {p : Pointer} {c : CqeContext}
    (hc : r'.contexts = r.contexts.insert p { c with phase := .submitted })
    (hq : r'.cancelQueue = r.cancelQueue) (hp : r.contexts.lookup p = some c)
    (hphase : c.phase = .staged) : r'.rawPairs = r.rawPairs := by
  have hitem : r.contexts.view CqeContext.item? p =
      CqeContext.item? { c with phase := .submitted } := by
    rw [Finmap.view_of_lookup hp]
    unfold CqeContext.item?
    rw [hphase]
    rfl
  have hflight : r.contexts.view CqeContext.flight? p =
      CqeContext.flight? { c with phase := .submitted } := by
    rw [Finmap.view_of_lookup hp]
    rfl
  ext1
  · simp only [rawPairs, hc]
    rw [Finmap.view_insert_of_eq hitem]
  · simp only [rawPairs, hc]
    rw [Finmap.view_insert_of_eq hflight]
  · simp only [rawPairs, hq]

/-- `request_cancel` asks for the withdrawal of everything it collects. -/
theorem rawPairs_sweep {s : SubId} {order : List Pointer} {commands : List CancelCommand}
    (hnodup : order.Nodup)
    (horder : ∀ p ∈ order, ∃ c, r.contexts.lookup p = some c ∧ cancellable s c = true)
    (hc : r'.contexts =
      order.foldl (fun m p => m.modify p fun c => { c with cancelQueued := true }) r.contexts)
    (hq : r'.cancelQueue = r.cancelQueue ++ commands)
    (htargets : commands.map (·.target) = order) : r'.rawPairs = r.rawPairs.ask order := by
  -- A sweep marks originals only, which are the items of the pairing.
  have hkind : ∀ p ∈ order, ∀ c, r.contexts.lookup p = some c → c.kind = .original := by
    intro p hp c hpc
    obtain ⟨c', hc', hs⟩ := horder p hp
    obtain rfl : c = c' := Option.some.inj (hpc ▸ hc')
    simp only [cancellable, Bool.and_eq_true, beq_iff_eq] at hs
    exact hs.1.1.1
  ext1
  · funext p
    simp only [rawPairs, Pairing.ask, Finmap.view, hc, Finmap.lookup_foldl_modify hnodup]
    split_ifs with hp
    · cases hpc : r.contexts.lookup p with
      | none => rfl
      | some c =>
        have := hkind p hp c hpc
        simp only [Option.map_some, Option.bind_some, CqeContext.item?, this]
    · rfl
  · funext p
    simp only [rawPairs, Pairing.ask, Finmap.view, hc, Finmap.lookup_foldl_modify hnodup]
    split_ifs with hp
    · cases r.contexts.lookup p <;> rfl
    · rfl
  · simp only [rawPairs, Pairing.ask, hq, List.map_append, htargets]

/-- The terminal CQE of an original finishes its item. -/
theorem rawPairs_retire {p : Pointer} {c : CqeContext}
    (hc : r'.contexts =
      if c.cancelQueued && !c.cancelSeen then r.contexts.insert p { c with phase := .terminal }
      else r.contexts.erase p)
    (hq : r'.cancelQueue = r.cancelQueue) (hp : r.contexts.lookup p = some c)
    (hkind : c.kind = .original) :
    r'.rawPairs = r.rawPairs.finish p ⟨c.phase == .terminal, c.cancelQueued, c.cancelSeen⟩ := by
  have hflight : r.contexts.view CqeContext.flight? p = none := by
    rw [Finmap.view_of_lookup hp, CqeContext.flight?_original hkind]
  ext1
  · simp only [rawPairs, Pairing.finish, hc]
    split_ifs with ho
    · simp only [Finmap.view_insert, CqeContext.item?, hkind]
      rfl
    · rw [Finmap.view_erase]
  · simp only [rawPairs, Pairing.finish, hc]
    split_ifs with ho
    · rw [Finmap.view_insert_of_eq]
      simp only [hflight, CqeContext.flight?, hkind]
    · rw [Finmap.view_erase_of_none hflight]
  · simp only [rawPairs, Pairing.finish, hq]

/-- The CQE of a cancellation lands its withdrawal. -/
theorem rawPairs_retireCancel {p t : Pointer} {c o : CqeContext}
    (hc : r'.contexts =
      if o.phase = .terminal then (r.contexts.erase p).erase t
      else (r.contexts.erase p).insert t { o with cancelSeen := true })
    (hq : r'.cancelQueue = r.cancelQueue) (hp : r.contexts.lookup p = some c)
    (hkind : c.kind = .cancel) (ho : (r.contexts.erase p).lookup t = some o)
    (hokind : o.kind = .original) :
    r'.rawPairs = r.rawPairs.land p t ⟨o.phase == .terminal, o.cancelQueued, o.cancelSeen⟩ := by
  -- A cancellation is a flight and no item, its target an item and no flight.
  have hitem : r.contexts.view CqeContext.item? p = none := by
    rw [Finmap.view_of_lookup hp, CqeContext.item?_cancel hkind]
  have hflight : (r.contexts.erase p).view CqeContext.flight? t = none := by
    rw [Finmap.view_of_lookup ho, CqeContext.flight?_original hokind]
  ext1
  · simp only [rawPairs, Pairing.land, hc]
    split_ifs with h1 h2 h2
    · rw [Finmap.view_erase, Finmap.view_erase_of_none hitem]
    · exact absurd (by simpa using h1) h2
    · exact absurd (by simpa using h2) h1
    · simp only [Finmap.view_insert, Finmap.view_erase_of_none hitem, CqeContext.item?, hokind]
  · simp only [rawPairs, Pairing.land, hc]
    split_ifs with h1
    · rw [Finmap.view_erase_of_none hflight, Finmap.view_erase]
    · rw [Finmap.view_insert_of_eq, Finmap.view_erase]
      simp only [hflight, CqeContext.flight?, hokind]
  · simp only [rawPairs, Pairing.land, hq]

/-! ## The owned family -/

/-- Staging an owned operation registers an item. -/
theorem ownedPairs_owned {p : Pointer} {op : QueuedOwnedOp}
    (hc : r'.ownedContexts = r.ownedContexts.insert p op.boxed)
    (hx : r'.ownedCancelContexts = r.ownedCancelContexts)
    (hq : r'.ownedCancelQueue = r.ownedCancelQueue) :
    r'.ownedPairs = r.ownedPairs.register p := by
  ext1
  · simp only [ownedPairs, Pairing.register, hc, Finmap.view_insert]
    rfl
  · simp only [ownedPairs, Pairing.register, hx]
  · simp only [ownedPairs, Pairing.register, hq]

/-- Staging a cancellation launches the withdrawal at the front of the queue. -/
theorem ownedPairs_cancel {p : Pointer} {c : OwnedCancelContext} {rest : List OwnedCancelCommand}
    (hc : r'.ownedContexts = r.ownedContexts)
    (hx : r'.ownedCancelContexts = r.ownedCancelContexts.insert p c)
    (hq : r'.ownedCancelQueue = rest) :
    r'.ownedPairs = r.ownedPairs.launch p c.target (rest.map (·.target)) := by
  ext1
  · simp only [ownedPairs, Pairing.launch, hc]
  · simp only [ownedPairs, Pairing.launch, hx, Finmap.view_insert]
  · simp only [ownedPairs, Pairing.launch, hq]

/-- Acceptance of an owned SQE is not seen by the pairing. -/
theorem ownedPairs_accept {p : Pointer} {c : OwnedCqeContext}
    (hc : r'.ownedContexts = r.ownedContexts.insert p { c with phase := .submitted })
    (hx : r'.ownedCancelContexts = r.ownedCancelContexts)
    (hq : r'.ownedCancelQueue = r.ownedCancelQueue) (hp : r.ownedContexts.lookup p = some c)
    (hphase : c.phase = .staged) : r'.ownedPairs = r.ownedPairs := by
  ext1
  · simp only [ownedPairs, hc]
    rw [Finmap.view_insert_of_eq]
    rw [Finmap.view_of_lookup hp, OwnedCqeContext.item, OwnedCqeContext.item, hphase]
    rfl
  · simp only [ownedPairs, hx]
  · simp only [ownedPairs, hq]

/-- Acceptance of an owned cancellation is not seen by the pairing. -/
theorem ownedPairs_acceptCancel {p : Pointer} {c : OwnedCancelContext}
    (hc : r'.ownedContexts = r.ownedContexts)
    (hx : r'.ownedCancelContexts = r.ownedCancelContexts.insert p { c with phase := .submitted })
    (hq : r'.ownedCancelQueue = r.ownedCancelQueue)
    (hp : r.ownedCancelContexts.lookup p = some c) : r'.ownedPairs = r.ownedPairs := by
  ext1
  · simp only [ownedPairs, hc]
  · simp only [ownedPairs, hx]
    rw [Finmap.view_insert_of_eq]
    rw [Finmap.view_of_lookup hp]
  · simp only [ownedPairs, hq]

/-- `request_owned_cancel` asks for the withdrawal of what it found. -/
theorem ownedPairs_sweep {p : Pointer}
    (hc : r'.ownedContexts = r.ownedContexts.modify p fun c => { c with cancelQueued := true })
    (hx : r'.ownedCancelContexts = r.ownedCancelContexts)
    (hq : r'.ownedCancelQueue = r.ownedCancelQueue ++ [⟨p⟩]) :
    r'.ownedPairs = r.ownedPairs.ask [p] := by
  ext1
  · funext q
    simp only [ownedPairs, Pairing.ask, Finmap.view, hc, Finmap.lookup_modify,
      List.mem_singleton]
    split_ifs with h
    · subst h
      cases r.ownedContexts.lookup q <;> rfl
    · rfl
  · simp only [ownedPairs, Pairing.ask, hx]
  · simp only [ownedPairs, Pairing.ask, hq, List.map_append, List.map_cons, List.map_nil]

/-- The CQE of an owned operation finishes its item. -/
theorem ownedPairs_retire {p : Pointer} {c : OwnedCqeContext}
    (hc : r'.ownedContexts =
      if c.cancelQueued && !c.cancelSeen then
        r.ownedContexts.insert p { c with phase := .terminal, handler := none }
      else r.ownedContexts.erase p)
    (hx : r'.ownedCancelContexts = r.ownedCancelContexts)
    (hq : r'.ownedCancelQueue = r.ownedCancelQueue) :
    r'.ownedPairs = r.ownedPairs.finish p c.item := by
  have hopen : (c.item.asked && !c.item.landed) = (c.cancelQueued && !c.cancelSeen) := rfl
  ext1
  · simp only [ownedPairs, Pairing.finish, hc, hopen]
    split_ifs with ho
    · rw [Finmap.view_insert]
      rfl
    · rw [Finmap.view_erase]
  · simp only [ownedPairs, Pairing.finish, hx]
  · simp only [ownedPairs, Pairing.finish, hq]

/-- The CQE of an owned cancellation lands its withdrawal. -/
theorem ownedPairs_retireCancel {p t : Pointer} {o : OwnedCqeContext}
    (hc : r'.ownedContexts =
      if o.phase = .terminal then r.ownedContexts.erase t
      else r.ownedContexts.insert t { o with cancelSeen := true })
    (hx : r'.ownedCancelContexts = r.ownedCancelContexts.erase p)
    (hq : r'.ownedCancelQueue = r.ownedCancelQueue) :
    r'.ownedPairs = r.ownedPairs.land p t o.item := by
  ext1
  · simp only [ownedPairs, Pairing.land, hc, OwnedCqeContext.item, beq_iff_eq]
    split_ifs with h
    · rw [Finmap.view_erase]
    · rw [Finmap.view_insert]
  · simp only [ownedPairs, Pairing.land, hx, Finmap.view_erase]
  · simp only [ownedPairs, Pairing.land, hq]

/-! ## Every step keeps the pairing -/

namespace Paired

/-- Entries after an insertion: the new one, or an old one. -/
theorem lookup_insert_cases {κ α : Type} [DecidableEq κ] {m : Finmap fun _ : κ => α} {k q : κ}
    {v w : α} (h : (m.insert k v).lookup q = some w) : w = v ∨ m.lookup q = some w := by
  rw [Finmap.lookup_insert_eq_ite] at h
  split_ifs at h
  · exact .inl (Option.some.inj h).symm
  · exact .inr h

/-- Entries after an erasure were there before. -/
theorem lookup_of_erase {κ α : Type} [DecidableEq κ] {m : Finmap fun _ : κ => α} {k q : κ}
    {w : α} (h : (m.erase k).lookup q = some w) : m.lookup q = some w := by
  rw [Finmap.lookup_erase_eq_ite] at h
  split_ifs at h
  exact h

/-- A step that writes one raw context, which is no finished cancellation. -/
theorem cancel_insert (h : r.Paired) {p : Pointer} {c : CqeContext}
    (hc : c.kind = .cancel → c.target.isSome = true ∧ c.phase ≠ .terminal) (q : Pointer)
    (x : CqeContext) (hx : (r.contexts.insert p c).lookup q = some x) (hk : x.kind = .cancel) :
    x.target.isSome = true ∧ x.phase ≠ .terminal := by
  rcases lookup_insert_cases hx with rfl | hx
  · exact hc hk
  · exact h.cancel q x hx hk

/-- A step that writes one owned context, which holds the resources it should. -/
theorem handler_insert (h : r.Paired) {p : Pointer} {c : OwnedCqeContext}
    (hc : c.handler.isSome = true ↔ c.phase ≠ .terminal) (q : Pointer) (x : OwnedCqeContext)
    (hx : (r.ownedContexts.insert p c).lookup q = some x) :
    x.handler.isSome = true ↔ x.phase ≠ .terminal := by
  rcases lookup_insert_cases hx with rfl | hx
  · exact hc
  · exact h.handler q x hx

/-- `admit` stages an original. -/
theorem original (h : r.Paired) {s : SubId} {i : ℕ} {e : Sqe} {p : Pointer} (hp : r.Fresh p)
    (hc : r'.contexts = r.contexts.insert p (e.boxed s i)) (hq : r'.cancelQueue = r.cancelQueue)
    (ho : r'.ownedContexts = r.ownedContexts)
    (hx : r'.ownedCancelContexts = r.ownedCancelContexts)
    (hoq : r'.ownedCancelQueue = r.ownedCancelQueue) : r'.Paired := by
  refine h.of_raw ho hx hoq ?_ ?_
  · rw [rawPairs_original hc hq hp.contexts rfl rfl]
    exact h.raw.register (Finmap.view_of_lookup_none hp.contexts)
  · rw [hc]
    exact h.cancel_insert fun hk => by cases hk

/-- A cancellation of an original is staged. -/
theorem launch (h : r.Paired) {p : Pointer} {command : CancelCommand} {rest : List CancelCommand}
    (hp : r.Fresh p) (hqueue : r.cancelQueue = command :: rest)
    (hc : r'.contexts = r.contexts.insert p command.boxed) (hq : r'.cancelQueue = rest)
    (ho : r'.ownedContexts = r.ownedContexts)
    (hx : r'.ownedCancelContexts = r.ownedCancelContexts)
    (hoq : r'.ownedCancelQueue = r.ownedCancelQueue) : r'.Paired := by
  refine h.of_raw ho hx hoq ?_ ?_
  · rw [rawPairs_cancel hc hq hp.contexts]
    refine h.raw.launch ?_ (Finmap.view_of_lookup_none hp.contexts)
    simp only [rawPairs, hqueue, List.map_cons]
  · rw [hc]
    exact h.cancel_insert fun _ => ⟨rfl, by simp [CancelCommand.boxed]⟩

/-- The kernel accepted a raw SQE. -/
theorem accept (h : r.Paired) {p : Pointer} {c : CqeContext}
    (hp : r.contexts.lookup p = some c) (hphase : c.phase = .staged)
    (hc : r'.contexts = r.contexts.insert p { c with phase := .submitted })
    (hq : r'.cancelQueue = r.cancelQueue) (ho : r'.ownedContexts = r.ownedContexts)
    (hx : r'.ownedCancelContexts = r.ownedCancelContexts)
    (hoq : r'.ownedCancelQueue = r.ownedCancelQueue) : r'.Paired := by
  refine h.of_raw ho hx hoq ?_ ?_
  · rw [rawPairs_accept hc hq hp hphase]
    exact h.raw
  · rw [hc]
    exact h.cancel_insert fun hk => ⟨(h.cancel p c hp hk).1, by simp⟩

/-- Cancellation of originals is queued. -/
theorem sweep (h : r.Paired) {s : SubId} {order : List Pointer} {commands : List CancelCommand}
    (hnodup : order.Nodup)
    (horder : ∀ p, p ∈ order ↔ ∃ c, r.contexts.lookup p = some c ∧ cancellable s c = true)
    (htargets : commands.map (·.target) = order)
    (hc : r'.contexts =
      order.foldl (fun m p => m.modify p fun c => { c with cancelQueued := true }) r.contexts)
    (hq : r'.cancelQueue = r.cancelQueue ++ commands) (ho : r'.ownedContexts = r.ownedContexts)
    (hx : r'.ownedCancelContexts = r.ownedCancelContexts)
    (hoq : r'.ownedCancelQueue = r.ownedCancelQueue) : r'.Paired := by
  refine h.of_raw ho hx hoq ?_ ?_
  · rw [rawPairs_sweep hnodup (fun p hp => (horder p).mp hp) hc hq htargets]
    refine h.raw.ask hnodup fun t ht => ?_
    obtain ⟨c, hpc, hs⟩ := (horder t).mp ht
    simp only [cancellable, Bool.and_eq_true, beq_iff_eq, Bool.not_eq_true'] at hs
    refine ⟨⟨c.phase == .terminal, c.cancelQueued, c.cancelSeen⟩, ?_, hs.1.2⟩
    simp only [rawPairs]
    rw [Finmap.view_of_lookup hpc, CqeContext.item?_original hs.1.1.1]
  · intro q x hx hk
    rw [hc, Finmap.lookup_foldl_modify hnodup] at hx
    split_ifs at hx
    · obtain ⟨y, hy, rfl⟩ := Option.map_eq_some_iff.mp hx
      exact h.cancel q y hy hk
    · exact h.cancel q x hx hk

/-- The terminal CQE of an original is dispatched. -/
theorem retire (h : r.Paired) {p : Pointer} {c : CqeContext}
    (hp : r.contexts.lookup p = some c) (hkind : c.kind = .original)
    (hc : r'.contexts =
      if c.cancelQueued && !c.cancelSeen then r.contexts.insert p { c with phase := .terminal }
      else r.contexts.erase p)
    (hq : r'.cancelQueue = r.cancelQueue) (ho : r'.ownedContexts = r.ownedContexts)
    (hx : r'.ownedCancelContexts = r.ownedCancelContexts)
    (hoq : r'.ownedCancelQueue = r.ownedCancelQueue) : r'.Paired := by
  refine h.of_raw ho hx hoq ?_ ?_
  · rw [rawPairs_retire hc hq hp hkind]
    refine h.raw.finish ?_
    simp only [rawPairs]
    rw [Finmap.view_of_lookup hp, CqeContext.item?_original hkind]
  · rw [hc]
    split_ifs
    · exact h.cancel_insert fun hk => by cases hkind.symm.trans hk
    · exact fun q x hq => h.cancel q x (lookup_of_erase hq)

/-- The CQE of a cancellation of an original is dispatched. -/
theorem retireCancel (h : r.Paired) {p t : Pointer} {c o : CqeContext}
    (hp : r.contexts.lookup p = some c) (hkind : c.kind = .cancel) (htarget : c.target = some t)
    (hto : (r.contexts.erase p).lookup t = some o)
    (hc : r'.contexts =
      if o.phase = .terminal then (r.contexts.erase p).erase t
      else (r.contexts.erase p).insert t { o with cancelSeen := true })
    (hq : r'.cancelQueue = r.cancelQueue) (ho : r'.ownedContexts = r.ownedContexts)
    (hx : r'.ownedCancelContexts = r.ownedCancelContexts)
    (hoq : r'.ownedCancelQueue = r.ownedCancelQueue) : r'.Paired := by
  have hokind := h.target_original hp hkind htarget (lookup_of_erase hto)
  refine h.of_raw ho hx hoq ?_ ?_
  · rw [rawPairs_retireCancel hc hq hp hkind hto hokind]
    refine h.raw.land ?_ ?_ <;> simp only [rawPairs]
    · rw [Finmap.view_of_lookup hp, CqeContext.flight?_cancel hkind, htarget]
    · rw [Finmap.view_of_lookup (lookup_of_erase hto), CqeContext.item?_original hokind]
  · rw [hc]
    intro q x hx hk
    split_ifs at hx
    · exact h.cancel q x (lookup_of_erase (lookup_of_erase hx)) hk
    · rcases lookup_insert_cases hx with rfl | hx
      · cases hokind.symm.trans hk
      · exact h.cancel q x (lookup_of_erase hx) hk

/-- An owned operation is staged. -/
theorem owned_original (h : r.Paired) {p : Pointer} {op : QueuedOwnedOp} (hp : r.Fresh p)
    (hc : r'.contexts = r.contexts) (hq : r'.cancelQueue = r.cancelQueue)
    (ho : r'.ownedContexts = r.ownedContexts.insert p op.boxed)
    (hx : r'.ownedCancelContexts = r.ownedCancelContexts)
    (hoq : r'.ownedCancelQueue = r.ownedCancelQueue) : r'.Paired := by
  refine h.of_owned hc hq ?_ (hx ▸ h.ownedCancel) ?_
  · rw [ownedPairs_owned ho hx hoq]
    exact h.owned.register (Finmap.view_of_lookup_none hp.ownedContexts)
  · rw [ho]
    exact h.handler_insert (by simp [QueuedOwnedOp.boxed])

/-- A cancellation of an owned operation is staged. -/
theorem owned_launch (h : r.Paired) {p : Pointer} {command : OwnedCancelCommand}
    {rest : List OwnedCancelCommand} (hp : r.Fresh p)
    (hqueue : r.ownedCancelQueue = command :: rest) (hc : r'.contexts = r.contexts)
    (hq : r'.cancelQueue = r.cancelQueue) (ho : r'.ownedContexts = r.ownedContexts)
    (hx : r'.ownedCancelContexts = r.ownedCancelContexts.insert p ⟨.staged, command.target⟩)
    (hoq : r'.ownedCancelQueue = rest) : r'.Paired := by
  refine h.of_owned hc hq ?_ ?_ (ho ▸ h.handler)
  · rw [ownedPairs_cancel ho hx hoq]
    refine h.owned.launch ?_ (Finmap.view_of_lookup_none hp.ownedCancelContexts)
    simp only [ownedPairs, hqueue, List.map_cons]
  · rw [hx]
    intro q x hx
    rcases lookup_insert_cases hx with rfl | hx
    · simp
    · exact h.ownedCancel q x hx

/-- The kernel accepted an owned operation. -/
theorem owned_accept (h : r.Paired) {p : Pointer} {c : OwnedCqeContext}
    (hp : r.ownedContexts.lookup p = some c) (hphase : c.phase = .staged)
    (hc : r'.contexts = r.contexts) (hq : r'.cancelQueue = r.cancelQueue)
    (ho : r'.ownedContexts = r.ownedContexts.insert p { c with phase := .submitted })
    (hx : r'.ownedCancelContexts = r.ownedCancelContexts)
    (hoq : r'.ownedCancelQueue = r.ownedCancelQueue) : r'.Paired := by
  refine h.of_owned hc hq ?_ (hx ▸ h.ownedCancel) ?_
  · rw [ownedPairs_accept ho hx hoq hp hphase]
    exact h.owned
  · rw [ho]
    exact h.handler_insert (by simp [(h.handler p c hp).mpr (by simp [hphase])])

/-- The kernel accepted a cancellation of an owned operation. -/
theorem owned_acceptCancel (h : r.Paired) {p : Pointer} {c : OwnedCancelContext}
    (hp : r.ownedCancelContexts.lookup p = some c) (hc : r'.contexts = r.contexts)
    (hq : r'.cancelQueue = r.cancelQueue) (ho : r'.ownedContexts = r.ownedContexts)
    (hx : r'.ownedCancelContexts = r.ownedCancelContexts.insert p { c with phase := .submitted })
    (hoq : r'.ownedCancelQueue = r.ownedCancelQueue) : r'.Paired := by
  refine h.of_owned hc hq ?_ ?_ (ho ▸ h.handler)
  · rw [ownedPairs_acceptCancel ho hx hoq hp]
    exact h.owned
  · rw [hx]
    intro q x hx
    rcases lookup_insert_cases hx with rfl | hx
    · simp
    · exact h.ownedCancel q x hx

/-- Cancellation of an owned operation is queued. -/
theorem owned_sweep (h : r.Paired) {p : Pointer} {c : OwnedCqeContext}
    (hp : r.ownedContexts.lookup p = some c) (hqueued : c.cancelQueued = false)
    (hc : r'.contexts = r.contexts) (hq : r'.cancelQueue = r.cancelQueue)
    (ho : r'.ownedContexts = r.ownedContexts.modify p fun c => { c with cancelQueued := true })
    (hx : r'.ownedCancelContexts = r.ownedCancelContexts)
    (hoq : r'.ownedCancelQueue = r.ownedCancelQueue ++ [⟨p⟩]) : r'.Paired := by
  refine h.of_owned hc hq ?_ (hx ▸ h.ownedCancel) ?_
  · rw [ownedPairs_sweep ho hx hoq]
    refine h.owned.ask (List.nodup_singleton p) fun t ht => ?_
    obtain rfl := List.mem_singleton.mp ht
    exact ⟨c.item, Finmap.view_of_lookup hp, hqueued⟩
  · intro q x hx
    rw [ho, Finmap.lookup_modify] at hx
    split_ifs at hx
    · obtain ⟨y, hy, rfl⟩ := Option.map_eq_some_iff.mp hx
      exact h.handler p y hy
    · exact h.handler q x hx

/-- The CQE of an owned operation is dispatched. -/
theorem owned_retire (h : r.Paired) {p : Pointer} {c : OwnedCqeContext}
    (hp : r.ownedContexts.lookup p = some c) (hc : r'.contexts = r.contexts)
    (hq : r'.cancelQueue = r.cancelQueue)
    (ho : r'.ownedContexts =
      if c.cancelQueued && !c.cancelSeen then
        r.ownedContexts.insert p { c with phase := .terminal, handler := none }
      else r.ownedContexts.erase p)
    (hx : r'.ownedCancelContexts = r.ownedCancelContexts)
    (hoq : r'.ownedCancelQueue = r.ownedCancelQueue) : r'.Paired := by
  refine h.of_owned hc hq ?_ (hx ▸ h.ownedCancel) ?_
  · rw [ownedPairs_retire ho hx hoq]
    exact h.owned.finish (Finmap.view_of_lookup hp)
  · rw [ho]
    split_ifs
    · exact h.handler_insert (by simp)
    · exact fun q x hx => h.handler q x (lookup_of_erase hx)

/-- The CQE of a cancellation of an owned operation is dispatched. -/
theorem owned_retireCancel (h : r.Paired) {p t : Pointer} {c : OwnedCancelContext}
    {o : OwnedCqeContext} (hp : r.ownedCancelContexts.lookup p = some c) (htarget : c.target = t)
    (hto : r.ownedContexts.lookup t = some o) (hc : r'.contexts = r.contexts)
    (hq : r'.cancelQueue = r.cancelQueue)
    (ho : r'.ownedContexts =
      if o.phase = .terminal then r.ownedContexts.erase t
      else r.ownedContexts.insert t { o with cancelSeen := true })
    (hx : r'.ownedCancelContexts = r.ownedCancelContexts.erase p)
    (hoq : r'.ownedCancelQueue = r.ownedCancelQueue) : r'.Paired := by
  refine h.of_owned hc hq ?_ (fun q x hq => h.ownedCancel q x (lookup_of_erase (hx ▸ hq))) ?_
  · rw [ownedPairs_retireCancel ho hx hoq]
    refine h.owned.land ?_ (Finmap.view_of_lookup hto)
    simp only [ownedPairs]
    rw [Finmap.view_of_lookup hp, htarget]
  · rw [ho]
    split_ifs
    · exact fun q x hx => h.handler q x (lookup_of_erase hx)
    · exact h.handler_insert (h.handler t o hto)

end Paired

/-- Every step keeps both pairings. -/
theorem Step.paired (hs : r.Step r') (h : r.Paired) : r'.Paired := by
  cases hs with
  | stutter => exact h
  | post => exact h.same rfl rfl rfl rfl rfl
  | original hp => exact h.original hp rfl rfl rfl rfl rfl
  | cancel hp hq => exact h.launch hp hq rfl rfl rfl rfl rfl
  | ownedCancel hp hq => exact h.owned_launch hp hq rfl rfl rfl rfl rfl
  | owned hp => exact h.owned_original hp rfl rfl rfl rfl rfl
  | acceptOriginal _ hc hp => exact h.accept hc hp rfl rfl rfl rfl rfl
  | acceptCancel _ hc hp => exact h.accept hc hp rfl rfl rfl rfl rfl
  | acceptOwned _ hc hp => exact h.owned_accept hc hp rfl rfl rfl rfl rfl
  | acceptOwnedCancel _ hc _ => exact h.owned_acceptCancel hc rfl rfl rfl rfl rfl
  | sweep hnodup horder htargets => exact h.sweep hnodup horder htargets rfl rfl rfl rfl rfl
  | sweepOwned hc _ hqueued => exact h.owned_sweep hc hqueued rfl rfl rfl rfl rfl
  | more => exact h.same rfl rfl rfl rfl rfl
  | retire _ hc hkind => exact h.retire hc hkind rfl rfl rfl rfl rfl
  | retireCancel _ hc hkind _ htarget ho =>
    exact h.retireCancel hc hkind htarget ho rfl rfl rfl rfl rfl
  | retireOwned _ _ hc => exact h.owned_retire hc rfl rfl rfl rfl rfl
  | retireOwnedCancel _ _ _ hc _ ho => exact h.owned_retireCancel hc rfl ho rfl rfl rfl rfl rfl
  | dropRing => exact h.same rfl rfl rfl rfl rfl

end Registry

variable {cfg : PreparedRing} {ok : State → Action → Prop} {σ : State}

/-- Both families are paired in every reachable state. -/
theorem Registry.Paired.of_reachable (h : Reachable cfg ok σ) : σ.registry.Paired := by
  refine h.registry_inv ?_ fun hI hs => hs.paired hI
  refine ⟨.empty, .empty, ?_, ?_, ?_⟩ <;> intro p c hp <;> cases hp

end Nosv.IoUring
