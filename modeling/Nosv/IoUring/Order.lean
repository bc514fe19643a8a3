import Nosv.Ext.Trace
import Nosv.IoUring.Drain

/-!
# The order of CQEs

Dispatching a batch of CQEs in another order makes no difference, as long as the original CQEs of
each submission stay in order, and so do its cancellation CQEs. Two CQEs that may change places
touch different contexts and submissions, or are an original and a cancellation of one submission:
then whichever comes second finds the counters matching and wakes the drain waiter, and whichever
comes second takes the context of the original out of the registry.

* `Batch.exchange`: neighbours of different families commute;
* `State.batch_run`: the driver does what the batch does;
* `dispatch_order_independent`: the end of every legal batch is the same in every order.
-/

namespace Nosv.IoUring

variable {cfg : PreparedRing} {ok : State → Action → Prop} {σ τ : State}

/-! ## A batch -/

/-- What dispatching a batch changes and collects. -/
@[ext]
structure Batch where
  data : DriverData
  subs : Submissions
  controls : ControlId → OwnedControl
  /-- Wakers moved to a wake batch. -/
  wakes : Multiset Waker
  /-- Submissions reported as overflowed. -/
  overflow : Multiset SubId
  /-- Results handed to owned operations. -/
  results : Multiset (ControlId × ℤ)

/-- `dispatch` of one CQE, with the completion of the owned handler it consumes. -/
def Batch.dispatch (cqe : Cqe) (x : Batch) : Checked Batch := do
  let y ← IoUring.dispatch cqe x.data x.subs
  let x := { x with
    data := y.data
    subs := y.subs
    wakes := x.wakes + y.wakes
    overflow := x.overflow + y.overflow.toList }
  match y.handler with
  | none => return x
  | some handler =>
    let control := x.controls handler.control
    return { x with
      controls :=
        Function.update x.controls handler.control { control with completed := true, waker := none }
      wakes := x.wakes + control.waker.toList
      results := x.results + {(handler.control, cqe.result)} }

/-- The result a release hands to its owned operation. -/
def Release.result? : ControlId × Release → Option (ControlId × ℤ)
  | (c, .complete result) => some (c, result)
  | (_, .fail _) => none

/-- What dispatch sees of the whole state. -/
def State.batch (σ : State) : Batch where
  data := σ.data
  subs := σ.subs
  controls := σ.controls
  wakes := σ.woken
  overflow := σ.driver.overflowed
  results := σ.released.filterMap Release.result?

/-- The step of the driver task that dispatches the next CQE. -/
theorem State.dispatch_ok {cqe : Cqe} {rest : List Cqe} {backlog : Bool} {xs : List SubId}
    {y : Dispatched} (hdriver : σ.driver = .dispatch backlog xs) (hcrit : σ.crit = none)
    (hreaped : σ.reaped = cqe :: rest) (hy : IoUring.dispatch cqe σ.data σ.subs = .ok y) :
    step cfg .dispatch σ = .ok { σ.wake y.wakes with
      data := y.data
      subs := y.subs
      history := σ.dispatchHistory cqe
      reaped := rest
      released := σ.released ++ y.handler.toList.map fun h => (h.control, .complete cqe.result)
      driver :=
        match y.handler with
        | some h => .publish h.control backlog (xs ++ y.overflow.toList)
        | none => .dispatch backlog (xs ++ y.overflow.toList) } := by
  simp only [step, State.dispatch, hdriver, hreaped, hcrit, hy, require, checked, if_true]
  rfl

/-- The driver task dispatches the next CQE as a batch does, with the publication that follows the
completion of an owned handler. -/
theorem State.batch_dispatch {cqe : Cqe} {rest : List Cqe} {backlog : Bool} {xs : List SubId}
    {x : Batch} (hdriver : σ.driver = .dispatch backlog xs) (hcrit : σ.crit = none)
    (hreaped : σ.reaped = cqe :: rest) (hx : σ.batch.dispatch cqe = .ok x) :
    ∃ τ, Lts.Reaches (step cfg) Lts.Always σ τ ∧ (∃ ys, τ.driver = .dispatch backlog ys) ∧
      τ.crit = none ∧ τ.reaped = rest ∧ τ.batch = x := by
  rw [Batch.dispatch, show σ.batch.data = σ.data from rfl,
    show σ.batch.subs = σ.subs from rfl] at hx
  -- A CQE of an owned operation publishes its result in a second step.
  cases hy : IoUring.dispatch cqe σ.data σ.subs with
  | error e =>
    rw [hy] at hx
    cases hx
  | ok y =>
    obtain ⟨d, subs, ws, overflow, handler⟩ := y
    rw [hy] at hx
    have hstep := @State.dispatch_ok cfg _ _ _ _ _ _ hdriver hcrit hreaped hy
    cases handler with
    | none =>
      cases hx
      refine ⟨_, .tail .refl trivial hstep, ⟨_, rfl⟩, hcrit, rfl, ?_⟩
      simp [State.batch, State.wake, hdriver, DriverPc.overflowed]
    | some handler =>
      cases hx
      refine ⟨_, .tail (.tail .refl trivial hstep) (a := .publish) trivial rfl, ⟨_, rfl⟩, hcrit,
        rfl,
        ?_⟩
      simp [State.batch, State.wake, State.publishControl, hdriver, DriverPc.overflowed]
      rfl

/-- The loop of the driver over the CQEs it has read does what the batch of them does. -/
theorem State.batch_run {backlog : Bool} {xs : List SubId} {x : Batch} {l : List Cqe}
    (hdriver : σ.driver = .dispatch backlog xs) (hcrit : σ.crit = none) (hreaped : σ.reaped = l)
    (hx : Trace.run Batch.dispatch l σ.batch = .ok x) :
    ∃ τ, Lts.Reaches (step cfg) Lts.Always σ τ ∧ τ.reaped = [] ∧ τ.batch = x := by
  induction l generalizing σ xs with
  | nil =>
    cases hx
    exact ⟨σ, .refl, hreaped, rfl⟩
  | cons cqe l ih =>
    rw [Trace.run] at hx
    cases hy : σ.batch.dispatch cqe with
    | error e =>
      rw [hy] at hx
      cases hx
    | ok y =>
      rw [hy] at hx
      obtain ⟨τ, hτ, ⟨ys, hdriver'⟩, hcrit', hreaped', rfl⟩ :=
        State.batch_dispatch hdriver hcrit hreaped hy
      obtain ⟨υ, hυ, hrest⟩ := ih hdriver' hcrit' hreaped' hx
      exact ⟨υ, hτ.trans hυ, hrest⟩

/-- The kernel may post the CQE: it is for an SQE that was accepted, and has `IORING_CQE_F_MORE`
set for a raw original only. -/
def DriverData.Answers (d : DriverData) (cqe : Cqe) : Prop :=
  (∃ c, d.contexts.lookup cqe.userData = some c ∧ c.phase = .submitted ∧
    (cqe.more = true → c.kind = .original)) ∨
  (cqe.more = false ∧ ∃ k, d.ownedContexts.lookup cqe.userData = some k ∧ k.phase = .submitted) ∨
  cqe.more = false ∧
    ∃ k, d.ownedCancelContexts.lookup cqe.userData = some k ∧ k.phase = .submitted

/-- A batch the kernel may post: nothing comes after the terminal CQE of an SQE. -/
structure DriverData.Legal (d : DriverData) (cqes : List Cqe) : Prop where
  answers : ∀ cqe ∈ cqes, d.Answers cqe
  terminal : cqes.Pairwise fun a b => a.userData = b.userData → a.more = true

/-- The submission of a raw CQE, and whether it is for an original or a cancellation. -/
def DriverData.family (d : DriverData) (cqe : Cqe) : Option (SubId × ContextKind) :=
  (d.contexts.lookup cqe.userData).map fun c => (c.state, c.kind)

/-! ## What a CQE is for -/

/-- What the context of a CQE says of it. -/
inductive Route where
  | original (s : SubId) (key : ℕ × ℕ)
  | cancel (s : SubId) (key : ℕ × ℕ) (target : Pointer)
  | owned (control : ControlId)
  | ownedCancel (target : Pointer)

/-- The family of a route. -/
def Route.family : Route → Option (SubId × ContextKind)
  | .original s _ => some (s, .original)
  | .cancel s _ _ => some (s, .cancel)
  | .owned _ | .ownedCancel _ => none

/-- The CQE has the given route. -/
def DriverData.Routes (d : DriverData) (cqe : Cqe) : Route → Prop
  | .original s key => ∃ c, d.contexts.lookup cqe.userData = some c ∧ c.kind = .original ∧
      c.phase = .submitted ∧ c.state = s ∧ c.key = key
  | .cancel s key t => cqe.more = false ∧ ∃ c, d.contexts.lookup cqe.userData = some c ∧
      c.kind = .cancel ∧ c.phase = .submitted ∧ c.state = s ∧ c.key = key ∧ c.target = some t
  | .owned control => cqe.more = false ∧ d.contexts.lookup cqe.userData = none ∧
      ∃ k handler, d.ownedContexts.lookup cqe.userData = some k ∧ k.phase = .submitted ∧
        k.handler = some handler ∧ handler.control = control
  | .ownedCancel t => cqe.more = false ∧ d.contexts.lookup cqe.userData = none ∧
      d.ownedContexts.lookup cqe.userData = none ∧
      ∃ k, d.ownedCancelContexts.lookup cqe.userData = some k ∧ k.phase = .submitted ∧ k.target = t

/-- The context of an original after its terminal CQE. -/
def CqeContext.finish : Option CqeContext → Option CqeContext
  | some c => if c.cancelQueued && !c.cancelSeen then some { c with phase := .terminal } else none
  | none => none

/-- The context of an original after the CQE of its cancellation. -/
def CqeContext.see : Option CqeContext → Option CqeContext
  | some c => if c.phase = .terminal then none else some { c with cancelSeen := true }
  | none => none

/-- The context of an owned original after its CQE. -/
def OwnedCqeContext.finish : Option OwnedCqeContext → Option OwnedCqeContext
  | some c =>
    if c.cancelQueued && !c.cancelSeen then some { c with phase := .terminal, handler := none }
    else none
  | none => none

/-- The context of an owned original after the CQE of its cancellation. -/
def OwnedCqeContext.see : Option OwnedCqeContext → Option OwnedCqeContext
  | some c => if c.phase = .terminal then none else some { c with cancelSeen := true }
  | none => none

section Alter

variable {p : Pointer}

/-- The terminal CQE keeps the context only for a cancellation still to come. -/
theorem CqeContext.alter_finish {m : Finmap fun _ : Pointer => CqeContext} {c : CqeContext}
    (hc : m.lookup p = some c) :
    m.alter p CqeContext.finish =
      if c.cancelQueued && !c.cancelSeen then m.insert p { c with phase := .terminal }
      else m.erase p := by
  rw [Finmap.alter, hc, CqeContext.finish]
  split_ifs <;> rfl

/-- The CQE of the cancellation keeps the context only for a terminal CQE still to come. -/
theorem CqeContext.alter_see {m : Finmap fun _ : Pointer => CqeContext} {c : CqeContext}
    (hc : m.lookup p = some c) :
    m.alter p CqeContext.see =
      if c.phase = .terminal then m.erase p else m.insert p { c with cancelSeen := true } := by
  rw [Finmap.alter, hc, CqeContext.see]
  split_ifs <;> rfl

variable {m : Finmap fun _ : Pointer => OwnedCqeContext} {c : OwnedCqeContext}

/-- The terminal CQE of an owned operation takes its handler, and keeps the context only for a
cancellation still to come. -/
theorem OwnedCqeContext.alter_finish (hc : m.lookup p = some c) :
    m.alter p OwnedCqeContext.finish =
      if c.cancelQueued && !c.cancelSeen then
        m.insert p { c with phase := .terminal, handler := none }
      else m.erase p := by
  rw [Finmap.alter, hc, OwnedCqeContext.finish]
  split_ifs <;> rfl

/-- The CQE of an owned cancellation keeps the context only for a terminal CQE still to come. -/
theorem OwnedCqeContext.alter_see (hc : m.lookup p = some c) :
    m.alter p OwnedCqeContext.see =
      if c.phase = .terminal then m.erase p else m.insert p { c with cancelSeen := true } := by
  rw [Finmap.alter, hc, OwnedCqeContext.see]
  split_ifs <;> rfl

end Alter

namespace Route

variable (cqe : Cqe)

/-- What the CQE does to the raw contexts. -/
def contexts : Route → (Finmap fun _ : Pointer => CqeContext) → Finmap fun _ : Pointer => CqeContext
  | .original _ _, m => if cqe.more then m else m.alter cqe.userData CqeContext.finish
  | .cancel _ _ t, m => (m.alter cqe.userData fun _ => none).alter t CqeContext.see
  | .owned _, m | .ownedCancel _, m => m

/-- What the CQE does to the owned contexts. -/
def ownedContexts :
    Route → (Finmap fun _ : Pointer => OwnedCqeContext) → Finmap fun _ : Pointer => OwnedCqeContext
  | .owned _, m => m.alter cqe.userData OwnedCqeContext.finish
  | .ownedCancel t, m => m.alter t OwnedCqeContext.see
  | .original _ _, m | .cancel _ _ _, m => m

/-- What the CQE does to the owned cancellations. -/
def ownedCancelContexts : Route → (Finmap fun _ : Pointer => OwnedCancelContext) →
    Finmap fun _ : Pointer => OwnedCancelContext
  | .ownedCancel _, m => m.alter cqe.userData fun _ => none
  | .owned _, m | .original _ _, m | .cancel _ _ _, m => m

/-- What a raw CQE does under the lock of its submission: the new state, whom it wakes, and whether
delivery overflowed. -/
def locked (limit : ℕ) (st : SubmissionInner) : Route → SubmissionInner × Multiset Waker × Bool
  | .original _ key =>
    let z := dispatchOriginal limit ⟨key.1, cqe.setUserData key.2⟩ cqe.more (st, [])
    (z.1.1, z.1.2, z.2)
  | .cancel _ key _ =>
    let z := dispatchCancel limit ⟨key.1, cqe.setUserData key.2⟩ (st, [])
    (z.1, z.2, false)
  | .owned _ | .ownedCancel _ => (st, 0, false)

/-- What the CQE does to the data of the driver. -/
def data (ρ : Route) (d : DriverData) : DriverData :=
  { d with
    contexts := ρ.contexts cqe d.contexts
    ownedContexts := ρ.ownedContexts cqe d.ownedContexts
    ownedCancelContexts := ρ.ownedCancelContexts cqe d.ownedCancelContexts }

/-- Everything the CQE does. -/
def apply (x : Batch) (ρ : Route) : Batch :=
  match ρ with
  | .original s _ | .cancel s _ _ =>
    let y := ρ.locked cqe (x.subs s).limit (x.subs s).inner
    { x with
      data := ρ.data cqe x.data
      subs := x.subs.set s y.1
      wakes := x.wakes + y.2.1
      overflow := x.overflow + if y.2.2 then {s} else 0 }
  | .owned c =>
    { x with
      data := ρ.data cqe x.data
      controls :=
        Function.update x.controls c { x.controls c with completed := true, waker := none }
      wakes := x.wakes + (x.controls c).waker.toList
      results := x.results + {(c, cqe.result)} }
  | .ownedCancel _ => { x with data := ρ.data cqe x.data }

end Route

section Dispatch

variable {d : DriverData} {subs : Submissions} {cqe : Cqe}

/-- `dispatch` of an original CQE does what its route says. -/
theorem dispatch_original {s : SubId} {key : ℕ × ℕ} (hρ : d.Routes cqe (.original s key))
    (hne : cqe.userData ≠ 0) :
    let y := Route.locked cqe (subs s).limit (subs s).inner (.original s key)
    ∃ ws, IoUring.dispatch cqe d subs =
      .ok ⟨Route.data cqe (.original s key) d, subs.set s y.1, ws, if y.2.2 then some s else none,
        none⟩ ∧ (ws : Multiset Waker) = y.2.1 := by
  obtain ⟨c, hc, hkind, hphase, rfl, rfl⟩ := hρ
  refine ⟨_, ?_, rfl⟩
  -- The context goes with the last CQE, unless its cancellation is still to come.
  have hdata : Route.data cqe (.original c.state c.key) d =
      if cqe.more then d else retireContext cqe.userData c d := by
    cases hm : cqe.more with
    | true => simp [Route.data, Route.contexts, Route.ownedContexts, Route.ownedCancelContexts, hm]
    | false =>
      simp only [Route.data, Route.contexts, Route.ownedContexts, Route.ownedCancelContexts, hm,
        retireContext, Finmap.alter, hc, CqeContext.finish, Bool.false_eq_true, if_false]
      split_ifs <;> rfl
  rw [hdata]
  cases hm : cqe.more with
  | true =>
    simp only [IoUring.dispatch, hc, Option.isSome_some, if_true, dispatchRaw, hne, if_false,
      hphase, hkind, ne_eq, not_true_eq_false, Route.locked, hm, Bool.true_or,
      Finmap.insert_erase, Finmap.insert_of_lookup hc, CqeContext.key]
  | false =>
    simp only [IoUring.dispatch, hc, Option.isSome_some, if_true, dispatchRaw, hne, if_false,
      hphase, hkind, ne_eq, not_true_eq_false, Route.locked, hm, Bool.false_or, retireContext,
      Finmap.insert_erase, CqeContext.key, Bool.false_eq_true]

/-- `dispatch` of a cancellation CQE does what its route says. -/
theorem dispatch_cancel {s : SubId} {key : ℕ × ℕ} {t : Pointer} {o : CqeContext}
    (hρ : d.Routes cqe (.cancel s key t)) (hne : cqe.userData ≠ 0)
    (ho : d.contexts.lookup t = some o) (ht : t ≠ cqe.userData) :
    let y := Route.locked cqe (subs s).limit (subs s).inner (.cancel s key t)
    ∃ ws, IoUring.dispatch cqe d subs =
      .ok ⟨Route.data cqe (.cancel s key t) d, subs.set s y.1, ws, none, none⟩ ∧
        (ws : Multiset Waker) = y.2.1 := by
  obtain ⟨hm, c, hc, hkind, hphase, rfl, rfl, htarget⟩ := hρ
  refine ⟨_, ?_, rfl⟩
  have ho' : (d.contexts.erase cqe.userData).lookup t = some o := by
    rw [Finmap.lookup_erase_eq_ite, if_neg ht, ho]
  have halter : (d.contexts.alter cqe.userData fun _ => none) = d.contexts.erase cqe.userData := rfl
  simp only [IoUring.dispatch, hc, Option.isSome_some, if_true, dispatchRaw, hne, if_false, hphase,
    hkind, ne_eq, not_true_eq_false, Route.locked, hm, htarget, ho', Route.data, Route.contexts,
    Route.ownedContexts, Route.ownedCancelContexts, CqeContext.key, Bool.false_eq_true, halter]
  rw [Finmap.alter, ho', CqeContext.see]
  split_ifs <;> rfl

/-- `dispatch` of an owned CQE does what its route says. -/
theorem dispatch_owned {c : ControlId} (hρ : d.Routes cqe (.owned c)) (hne : cqe.userData ≠ 0) :
    ∃ handler, handler.control = c ∧ IoUring.dispatch cqe d subs =
      .ok ⟨Route.data cqe (.owned c) d, subs, [], none, some handler⟩ := by
  obtain ⟨hm, hraw, k, handler, hk, hphase, hhandler, rfl⟩ := hρ
  refine ⟨handler, rfl, ?_⟩
  simp only [IoUring.dispatch, hraw, Option.isSome_none, Bool.false_eq_true, if_false,
    dispatchOwned, hne, hk, hphase, hm, hhandler, ne_eq, not_true_eq_false, Finmap.insert_erase,
    Route.data, Route.contexts, Route.ownedContexts, Route.ownedCancelContexts, Finmap.alter,
    OwnedCqeContext.finish]
  split_ifs <;> rfl

/-- `dispatch` of the CQE of an owned cancellation does what its route says. -/
theorem dispatch_ownedCancel {t : Pointer} {o : OwnedCqeContext}
    (hρ : d.Routes cqe (.ownedCancel t)) (hne : cqe.userData ≠ 0)
    (ho : d.ownedContexts.lookup t = some o) :
    IoUring.dispatch cqe d subs =
      .ok ⟨Route.data cqe (.ownedCancel t) d, subs, [], none, none⟩ := by
  obtain ⟨hm, hraw, howned, k, hk, hphase, rfl⟩ := hρ
  simp only [IoUring.dispatch, hraw, Option.isSome_none, Bool.false_eq_true, if_false,
    dispatchOwned, hne, howned, hk, hphase, hm, ne_eq, not_true_eq_false, ho, Route.data,
    Route.contexts, Route.ownedContexts, Route.ownedCancelContexts, Finmap.alter,
    OwnedCqeContext.see]
  split_ifs <;> rfl

end Dispatch

/-- `dispatch` does everything the route of the CQE says, if the targets are there. -/
theorem Batch.dispatch_eq {x : Batch} {cqe : Cqe} {ρ : Route} (hρ : x.data.Routes cqe ρ)
    (hne : cqe.userData ≠ 0)
    (hraw : ∀ s key t, ρ = .cancel s key t →
      t ≠ cqe.userData ∧ ∃ o, x.data.contexts.lookup t = some o)
    (howned : ∀ t, ρ = .ownedCancel t → ∃ o, x.data.ownedContexts.lookup t = some o) :
    x.dispatch cqe = .ok (ρ.apply cqe x) := by
  unfold Batch.dispatch
  cases ρ with
  | original s key =>
    obtain ⟨ws, hdispatch, hws⟩ := @dispatch_original _ x.subs _ _ _ hρ hne
    rw [hdispatch]
    simp only [bind, Except.bind, pure, Except.pure, Route.apply, hws]
    split_ifs <;> rfl
  | cancel s key t =>
    obtain ⟨ht, o, ho⟩ := hraw s key t rfl
    obtain ⟨ws, hdispatch, hws⟩ := @dispatch_cancel _ x.subs _ _ _ _ _ hρ hne ho ht
    rw [hdispatch]
    simp only [bind, Except.bind, pure, Except.pure, Route.apply, hws]
    rfl
  | owned control =>
    obtain ⟨handler, rfl, hdispatch⟩ := @dispatch_owned _ x.subs _ _ hρ hne
    rw [hdispatch]
    simp [bind, Except.bind, pure, Except.pure, Route.apply]
  | ownedCancel t =>
    obtain ⟨o, ho⟩ := howned t rfl
    rw [@dispatch_ownedCancel _ x.subs _ _ _ hρ hne ho]
    simp [bind, Except.bind, pure, Except.pure, Route.apply]

/-! ## CQEs that may change places -/

/-- Each cancellation has a target of its own, which waits for it. -/
structure DriverData.Targeted (d : DriverData) : Prop where
  cancel : ∀ p c t, d.contexts.lookup p = some c → c.kind = .cancel → c.target = some t →
    ∃ o, d.contexts.lookup t = some o ∧ o.Awaits
  cancel_inj : ∀ p q c e, d.contexts.lookup p = some c → d.contexts.lookup q = some e →
    c.kind = .cancel → e.kind = .cancel → c.target = e.target → p = q
  ownedCancel : ∀ p c, d.ownedCancelContexts.lookup p = some c →
    ∃ o, d.ownedContexts.lookup c.target = some o ∧ o.Awaits
  ownedCancel_inj : ∀ p q c e, d.ownedCancelContexts.lookup p = some c →
    d.ownedCancelContexts.lookup q = some e → c.target = e.target → p = q

section Comm

variable {d : DriverData} {a b : Cqe} {ρ ρ' : Route} {s s' : SubId} {key key' : ℕ × ℕ}
  {t t' : Pointer}

/-- The target of a cancellation is no cancellation. -/
theorem DriverData.Routes.target_ne (hd : d.Targeted) (ha : d.Routes a (.cancel s key t))
    (hb : d.Routes b (.cancel s' key' t')) : t ≠ b.userData := by
  obtain ⟨-, c, hc, hkind, -, -, -, htarget⟩ := ha
  obtain ⟨-, e, he, hkind', -⟩ := hb
  obtain ⟨o, ho, hawaits⟩ := hd.cancel _ c t hc hkind htarget
  rintro rfl
  rw [he] at ho
  cases ho
  rw [hawaits.1] at hkind'
  cases hkind'

/-- An original finishes and sees its cancellation in either order: then it is gone. -/
theorem CqeContext.see_finish {c : CqeContext} (hc : c.cancelQueued = true ∧ c.cancelSeen = false)
    (hphase : c.phase ≠ .terminal) :
    CqeContext.see (CqeContext.finish (some c)) = CqeContext.finish (CqeContext.see (some c)) := by
  simp [CqeContext.see, CqeContext.finish, hc.1, hc.2, hphase]

/-- An owned operation finishes and sees its cancellation in either order: then it is gone. -/
theorem OwnedCqeContext.see_finish {c : OwnedCqeContext} (hc : c.Awaits)
    (hphase : c.phase ≠ .terminal) :
    OwnedCqeContext.see (OwnedCqeContext.finish (some c)) =
      OwnedCqeContext.finish (OwnedCqeContext.see (some c)) := by
  simp [OwnedCqeContext.see, OwnedCqeContext.finish, hc.1, hc.2, hphase]

/-- An original and a cancellation may change places in the raw registry. -/
theorem Route.contexts_original_cancel (hd : d.Targeted) (ha : d.Routes a (.original s key))
    (hb : d.Routes b (.cancel s' key' t)) (hab : a.userData ≠ b.userData) :
    Route.contexts b (.cancel s' key' t) (Route.contexts a (.original s key) d.contexts) =
      Route.contexts a (.original s key) (Route.contexts b (.cancel s' key' t) d.contexts) := by
  simp only [Route.contexts]
  cases a.more with
  | true => rfl
  | false =>
    simp only [Bool.false_eq_true, if_false]
    rw [Finmap.alter_comm hab]
    by_cases hat : a.userData = t
    · -- The cancellation is that of this original.
      obtain ⟨c, hc, -, hphase, -⟩ := ha
      obtain ⟨-, e, he, hkind, -, -, -, htarget⟩ := hb
      obtain ⟨o, ho, hawaits⟩ := hd.cancel _ e t he hkind htarget
      subst hat
      rw [hc] at ho
      cases ho
      rw [Finmap.alter_alter, Finmap.alter_alter]
      refine Finmap.alter_congr ?_
      rw [Finmap.lookup_alter, if_neg hab, hc]
      exact CqeContext.see_finish hawaits.2 (by rw [hphase]; simp)
    · rw [Finmap.alter_comm hat]

/-- Two CQEs of different families may change places in the raw registry. -/
theorem Route.contexts_comm (hd : d.Targeted) (ha : d.Routes a ρ) (hb : d.Routes b ρ')
    (hab : a.userData ≠ b.userData) :
    ρ'.contexts b (ρ.contexts a d.contexts) = ρ.contexts a (ρ'.contexts b d.contexts) := by
  cases ρ with
  | owned | ownedCancel => rfl
  | original s key =>
    cases ρ' with
    | owned | ownedCancel => rfl
    | original s' key' =>
      simp only [Route.contexts]
      cases a.more <;> cases b.more <;> simp [Finmap.alter_comm hab]
    | cancel s' key' t' => exact contexts_original_cancel hd ha hb hab
  | cancel s key t =>
    -- Two cancellations have different targets, as one original is cancelled once.
    cases ρ' with
    | owned | ownedCancel => rfl
    | original s' key' => exact (contexts_original_cancel hd hb ha hab.symm).symm
    | cancel s' key' t' =>
      have htt : t ≠ t' := by
        obtain ⟨-, c, hc, hkind, -, -, -, htarget⟩ := ha
        obtain ⟨-, e, he, hkind', -, -, -, htarget'⟩ := hb
        rintro rfl
        exact hab (hd.cancel_inj _ _ c e hc he hkind hkind' (htarget.trans htarget'.symm))
      have hta := DriverData.Routes.target_ne hd ha hb
      have htb := DriverData.Routes.target_ne hd hb ha
      simp only [Route.contexts]
      rw [Finmap.alter_comm hta, Finmap.alter_comm hab, Finmap.alter_comm htt,
        Finmap.alter_comm htb.symm]

/-- The CQEs of an operation and of a cancellation may change places in the owned registry. -/
theorem Route.ownedContexts_owned_cancel (hd : d.Targeted) {c : ControlId}
    (ha : d.Routes a (.owned c)) (hb : d.Routes b (.ownedCancel t)) :
    Route.ownedContexts b (.ownedCancel t) (Route.ownedContexts a (.owned c) d.ownedContexts) =
      Route.ownedContexts a (.owned c)
        (Route.ownedContexts b (.ownedCancel t) d.ownedContexts) := by
  simp only [Route.ownedContexts]
  by_cases hat : a.userData = t
  · obtain ⟨-, -, k, handler, hk, hphase, -⟩ := ha
    obtain ⟨-, -, -, e, he, -, rfl⟩ := hb
    obtain ⟨o, ho, hawaits⟩ := hd.ownedCancel _ e he
    rw [← hat] at ho ⊢
    rw [hk] at ho
    cases ho
    rw [Finmap.alter_alter, Finmap.alter_alter]
    refine Finmap.alter_congr ?_
    rw [hk]
    exact OwnedCqeContext.see_finish hawaits (by rw [hphase]; simp)
  · rw [Finmap.alter_comm hat]

/-- Two CQEs may change places in the owned registry. -/
theorem Route.ownedContexts_comm (hd : d.Targeted) (ha : d.Routes a ρ) (hb : d.Routes b ρ')
    (hab : a.userData ≠ b.userData) :
    ρ'.ownedContexts b (ρ.ownedContexts a d.ownedContexts) =
      ρ.ownedContexts a (ρ'.ownedContexts b d.ownedContexts) := by
  cases ρ with
  | original | cancel => rfl
  | owned c =>
    cases ρ' with
    | original | cancel => rfl
    | owned c' => exact Finmap.alter_comm hab
    | ownedCancel t' => exact ownedContexts_owned_cancel hd ha hb
  | ownedCancel t =>
    cases ρ' with
    | original | cancel => rfl
    | owned c' => exact (ownedContexts_owned_cancel hd hb ha).symm
    | ownedCancel t' =>
      refine Finmap.alter_comm ?_
      obtain ⟨-, -, -, k, hk, -, rfl⟩ := ha
      obtain ⟨-, -, -, e, he, -, rfl⟩ := hb
      exact fun ht => hab (hd.ownedCancel_inj _ _ k e hk he ht)

/-- Two CQEs may change places among the owned cancellations. -/
theorem Route.ownedCancelContexts_comm (hab : a.userData ≠ b.userData)
    (m : Finmap fun _ : Pointer => OwnedCancelContext) :
    ρ'.ownedCancelContexts b (ρ.ownedCancelContexts a m) =
      ρ.ownedCancelContexts a (ρ'.ownedCancelContexts b m) := by
  cases ρ with
  | original | cancel | owned => rfl
  | ownedCancel t =>
    cases ρ' with
    | original | cancel | owned => rfl
    | ownedCancel t' =>
      simp only [Route.ownedCancelContexts]
      rw [Finmap.alter_comm hab]

/-- Two CQEs may change places in the data of the driver. -/
theorem Route.data_comm (hd : d.Targeted) (ha : d.Routes a ρ) (hb : d.Routes b ρ')
    (hab : a.userData ≠ b.userData) : ρ'.data b (ρ.data a d) = ρ.data a (ρ'.data b d) := by
  simp only [Route.data, contexts_comm hd ha hb hab, ownedContexts_comm hd ha hb hab,
    ownedCancelContexts_comm hab]

/-- When an original CQE reports an overflow. -/
theorem dispatchOriginal_overflow (limit : ℕ) (c : Completion) (more : Bool)
    (st : SubmissionInner) (ws : List Waker) :
    (dispatchOriginal limit c more (st, ws)).2 = (overflows limit st && !st.normalOverflow) := by
  unfold dispatchOriginal
  rw [wakeUnfinished_eq, bufferOriginal_eq]
  rfl

/-- An original and a cancellation may change places under the lock of their submission, while
neither counter has reached its end: the one that comes second wakes the drain waiter. -/
theorem Route.locked_comm {limit : ℕ} {st : SubmissionInner}
    (ho : st.originalTerminal < st.originals) (hc : st.cancelTerminal < st.cancels) :
    let y := Route.locked a limit st (.original s key)
    let z := Route.locked b limit st (.cancel s key' t)
    let y' := Route.locked b limit y.1 (.cancel s key' t)
    let z' := Route.locked a limit z.1 (.original s key)
    y'.1 = z'.1 ∧ y.2.1 + y'.2.1 = z.2.1 + z'.2.1 ∧ z'.2.2 = y.2.2 := by
  have hne : st.cancelTerminal ≠ st.cancels := Nat.ne_of_lt hc
  have hne' : st.originalTerminal ≠ st.originals := Nat.ne_of_lt ho
  -- Overflowing does not detach, and a CQE with more to come counts nothing.
  have hdetached : (if (overflows limit st && !st.normalOverflow) = true then .overflow
      else st.delivery) = .detached ↔ st.delivery = .detached := by
    split_ifs with hover
    · have hopened : st.delivery = .opened := by
        simp only [overflows, Bool.and_eq_true, decide_eq_true_eq] at hover
        exact hover.1.1
      simp [hopened]
    · rfl
  have hcount : ((if a.more = true then st.originalTerminal else st.originalTerminal + 1) =
      st.originals ↔ a.more = false ∧ st.originalTerminal + 1 = st.originals) := by
    cases a.more <;> simp [hne']
  dsimp only [Route.locked]
  refine ⟨?_, ?_, ?_⟩
  · simp only [dispatchOriginal_inner, dispatchCancel_inner, buffers, hne, hne', and_false,
      false_and, if_false, ne_eq, hdetached, hcount, and_assoc]
    rfl
  · simp only [dispatchOriginal_inner, dispatchCancel_inner, dispatchOriginal_wakes,
      dispatchCancel_wakes, hne, hne', and_false, false_and, if_false, ne_eq, hdetached, hcount,
      and_assoc, List.nil_append, List.append_nil, ← Multiset.coe_add]
    rw [add_left_comm, add_assoc]
  · simp only [dispatchOriginal_overflow, dispatchCancel_inner, overflows]

/-- A counter of terminal CQEs is short of its total while a context waits for one. -/
structure Batch.Counted (x : Batch) : Prop where
  original : ∀ p c, x.data.contexts.lookup p = some c → c.kind = .original →
    c.phase = .submitted →
      (x.subs c.state).inner.originalTerminal < (x.subs c.state).inner.originals
  cancel : ∀ p c, x.data.contexts.lookup p = some c → c.kind = .cancel →
    (x.subs c.state).inner.cancelTerminal < (x.subs c.state).inner.cancels

variable {x : Batch}

/-- What the two submissions of raw CQEs are left with, when they are different ones. -/
theorem Submissions.set_comm (subs : Submissions) (hs : s ≠ s') (st st' : SubmissionInner) :
    (subs.set s st).set s' st' = (subs.set s' st').set s st := by
  unfold Submissions.set
  rw [Function.update_of_ne hs, Function.update_of_ne hs.symm, Function.update_comm hs]

/-- What one submission is left with, when it is replaced twice. -/
theorem Submissions.set_set (subs : Submissions) (s : SubId) (st st' : SubmissionInner) :
    (subs.set s st).set s st' = subs.set s st' := by
  unfold Submissions.set
  rw [Function.update_self, Function.update_idem]

/-- An original and a cancellation of one submission may change places. -/
theorem Route.apply_original_cancel (hd : x.data.Targeted) (hx : x.Counted)
    (ha : x.data.Routes a (.original s key)) (hb : x.data.Routes b (.cancel s key' t))
    (hab : a.userData ≠ b.userData) :
    Route.apply b (Route.apply a x (.original s key)) (.cancel s key' t) =
      Route.apply a (Route.apply b x (.cancel s key' t)) (.original s key) := by
  have hdata := data_comm hd ha hb hab
  obtain ⟨c, hc, hkind, hphase, rfl, -⟩ := ha
  obtain ⟨-, e, he, hkind', -, hstate, -⟩ := hb
  have ho := hx.original _ c hc hkind hphase
  have hcancel := hx.cancel _ e he hkind'
  rw [hstate] at hcancel
  obtain ⟨hinner, hwakes, hover⟩ :=
    @locked_comm a b c.state key key' t (x.subs c.state).limit (x.subs c.state).inner ho hcancel
  refine Batch.ext hdata ?_ rfl ?_ ?_ rfl
  · simp only [Route.apply, Submissions.set_limit, Submissions.set_inner, if_true,
      Submissions.set_set, hinner]
  · simp only [Route.apply, Submissions.set_limit, Submissions.set_inner, if_true, add_assoc,
      hwakes]
  · simp only [Route.apply, Submissions.set_limit, Submissions.set_inner, if_true, hover]
    simp only [locked, Bool.false_eq_true, if_false, add_zero]

/-- Completing two owned operations leaves the same controls in either order. -/
theorem controls_comm (controls : ControlId → OwnedControl) (c c' : ControlId) :
    let done (f : ControlId → OwnedControl) (c : ControlId) :=
      Function.update f c { f c with completed := true, waker := none }
    done (done controls c) c' = done (done controls c') c ∧
      ((controls c).waker.toList : Multiset Waker) + ((done controls c) c').waker.toList =
        ((controls c').waker.toList : Multiset Waker) + ((done controls c') c).waker.toList := by
  by_cases hc : c = c'
  · subst hc
    exact ⟨rfl, rfl⟩
  · dsimp only
    rw [Function.update_of_ne (Ne.symm hc), Function.update_of_ne hc]
    exact ⟨Function.update_comm hc _ _ _, add_comm _ _⟩

/-- Two CQEs that do not belong to one submission may change places. -/
theorem Route.apply_comm_of_ne (hd : x.data.Targeted) (ha : x.data.Routes a ρ)
    (hb : x.data.Routes b ρ') (hab : a.userData ≠ b.userData)
    (hs : ∀ s k k', ρ.family = some (s, k) → ρ'.family ≠ some (s, k')) :
    ρ'.apply b (ρ.apply a x) = ρ.apply a (ρ'.apply b x) := by
  -- Their registries do not meet, so what is left to compare is what they wake and publish.
  have hdata := data_comm hd ha hb hab
  have hne : ∀ {s s' k k'}, ρ.family = some (s, k) → ρ'.family = some (s', k') → s ≠ s' := by
    rintro s s' k k' h h' rfl
    exact hs s k k' h h'
  cases ρ <;> cases ρ'
  case original.original | original.cancel | cancel.original | cancel.cancel =>
    have hss := hne rfl rfl
    refine Batch.ext hdata ?_ rfl ?_ ?_ rfl
    · simp only [Route.apply, Submissions.set_limit, Submissions.set_inner, if_neg hss,
        if_neg hss.symm, Submissions.set_comm _ hss]
    · simp only [Route.apply, Submissions.set_limit, Submissions.set_inner, if_neg hss,
        if_neg hss.symm]
      exact add_right_comm _ _ _
    · simp only [Route.apply, Submissions.set_limit, Submissions.set_inner, if_neg hss,
        if_neg hss.symm]
      exact add_right_comm _ _ _
  case owned.owned c c' =>
    obtain ⟨hcontrols, hwakes⟩ := controls_comm x.controls c c'
    refine Batch.ext hdata rfl hcontrols ?_ rfl (add_right_comm _ _ _)
    simp only [Route.apply, add_assoc]
    rw [hwakes]
  case ownedCancel.ownedCancel => exact Batch.ext hdata rfl rfl rfl rfl rfl
  case original.ownedCancel | cancel.ownedCancel | owned.ownedCancel | ownedCancel.original |
      ownedCancel.cancel | ownedCancel.owned =>
    exact Batch.ext hdata rfl rfl rfl rfl rfl
  case original.owned | cancel.owned | owned.original | owned.cancel =>
    exact Batch.ext hdata rfl rfl (add_right_comm _ _ _) rfl rfl

/-- Two CQEs of different families may change places. -/
theorem Route.apply_comm (hd : x.data.Targeted) (hx : x.Counted) (ha : x.data.Routes a ρ)
    (hb : x.data.Routes b ρ') (hab : a.userData ≠ b.userData)
    (hfree : ∀ k, ρ.family = some k → ρ'.family ≠ some k) :
    ρ'.apply b (ρ.apply a x) = ρ.apply a (ρ'.apply b x) := by
  by_cases hs : ∀ s k k', ρ.family = some (s, k) → ρ'.family ≠ some (s, k')
  · exact apply_comm_of_ne hd ha hb hab hs
  · -- They are an original and a cancellation of one submission.
    push Not at hs
    obtain ⟨s, k, k', hρ, hρ'⟩ := hs
    cases ρ with
    | owned | ownedCancel => cases hρ
    | original =>
      cases ρ' with
      | owned | ownedCancel => cases hρ'
      | original =>
        cases hρ
        cases hρ'
        exact absurd rfl (hfree _ rfl)
      | cancel =>
        cases hρ
        cases hρ'
        exact apply_original_cancel hd hx ha hb hab
    | cancel =>
      cases ρ' with
      | owned | ownedCancel => cases hρ'
      | cancel =>
        cases hρ
        cases hρ'
        exact absurd rfl (hfree _ rfl)
      | original =>
        cases hρ
        cases hρ'
        exact (apply_original_cancel hd hx hb ha hab.symm).symm

end Comm

/-! ## Legal batches -/

section Legal

variable {d : DriverData} {a b : Cqe} {ρ ρ' : Route}

/-- Nothing appears in the raw registry where there was nothing. -/
theorem Route.contexts_none {p : Pointer} {m : Finmap fun _ : Pointer => CqeContext}
    (hp : m.lookup p = none) : (ρ.contexts a m).lookup p = none := by
  cases ρ with
  | original s key =>
    simp only [Route.contexts]
    split_ifs
    · exact hp
    · rw [Finmap.lookup_alter]
      split_ifs with h
      · rw [← h, hp]
        rfl
      · exact hp
  | cancel s key t =>
    simp only [Route.contexts, Finmap.lookup_alter]
    split_ifs with h1 h2 h2
    · rfl
    · rw [← h1, hp]
      rfl
    · rfl
    · exact hp
  | owned | ownedCancel => exact hp

/-- Nothing appears in the owned registry where there was nothing. -/
theorem Route.ownedContexts_none {p : Pointer} {m : Finmap fun _ : Pointer => OwnedCqeContext}
    (hp : m.lookup p = none) : (ρ.ownedContexts a m).lookup p = none := by
  cases ρ with
  | original | cancel => exact hp
  | owned c =>
    simp only [Route.ownedContexts, Finmap.lookup_alter]
    split_ifs with h
    · rw [← h, hp]
      rfl
    · exact hp
  | ownedCancel t =>
    simp only [Route.ownedContexts, Finmap.lookup_alter]
    split_ifs with h
    · rw [← h, hp]
      rfl
    · exact hp

/-- A CQE keeps its route while others are dispatched. -/
theorem DriverData.Routes.data (hd : d.Targeted) (ha : d.Routes a ρ) (hb : d.Routes b ρ')
    (hab : a.userData ≠ b.userData) : (ρ.data a d).Routes b ρ' := by
  cases ρ' with
  -- `a` leaves the context of `b` alone, or marks it as cancelled.
  | original s' key' =>
    obtain ⟨c, hc, hkind, hphase, hstate, hkey⟩ := hb
    cases ρ with
    | owned | ownedCancel => exact ⟨c, hc, hkind, hphase, hstate, hkey⟩
    | original s key =>
      refine ⟨c, ?_, hkind, hphase, hstate, hkey⟩
      simp only [Route.data, Route.contexts]
      split_ifs
      · exact hc
      · rw [Finmap.lookup_alter, if_neg hab.symm, hc]
    | cancel s key t =>
      simp only [DriverData.Routes, Route.data, Route.contexts, Finmap.lookup_alter,
        if_neg hab.symm]
      by_cases ht : b.userData = t
      · -- Its cancellation was dispatched.
        subst ht
        rw [if_pos rfl, if_neg hab.symm, hc]
        refine ⟨{ c with cancelSeen := true }, ?_, hkind, hphase, hstate, hkey⟩
        simp [CqeContext.see, hphase]
      · rw [if_neg ht]
        exact ⟨c, hc, hkind, hphase, hstate, hkey⟩
  | cancel s' key' t' =>
    have hlookup : (ρ.contexts a d.contexts).lookup b.userData = d.contexts.lookup b.userData := by
      cases ρ with
      | owned | ownedCancel => rfl
      | original s key =>
        simp only [Route.contexts]
        split_ifs
        · rfl
        · rw [Finmap.lookup_alter, if_neg hab.symm]
      | cancel s key t =>
        have ht := target_ne hd ha hb
        simp only [Route.contexts, Finmap.lookup_alter, if_neg hab.symm, if_neg ht.symm]
    obtain ⟨hm, c, hc, hrest⟩ := hb
    exact ⟨hm, c, hlookup.trans hc, hrest⟩
  | owned c =>
    obtain ⟨hm, hraw, k, handler, hk, hphase, hhandler, hcontrol⟩ := hb
    refine ⟨hm, Route.contexts_none hraw, ?_⟩
    cases ρ with
    | original | cancel => exact ⟨k, handler, hk, hphase, hhandler, hcontrol⟩
    | owned c' =>
      refine ⟨k, handler, ?_, hphase, hhandler, hcontrol⟩
      simp only [Route.data, Route.ownedContexts, Finmap.lookup_alter, if_neg hab.symm, hk]
    | ownedCancel t =>
      simp only [Route.data, Route.ownedContexts, Finmap.lookup_alter]
      by_cases ht : b.userData = t
      · subst ht
        refine ⟨{ k with cancelSeen := true }, handler, ?_, hphase, hhandler, hcontrol⟩
        simp [OwnedCqeContext.see, hk, hphase]
      · rw [if_neg ht]
        exact ⟨k, handler, hk, hphase, hhandler, hcontrol⟩
  | ownedCancel t' =>
    obtain ⟨hm, hraw, howned, k, hk, hrest⟩ := hb
    refine ⟨hm, Route.contexts_none hraw, Route.ownedContexts_none howned, k, ?_, hrest⟩
    cases ρ with
    | original | cancel | owned => exact hk
    | ownedCancel t =>
      simp only [Route.data, Route.ownedCancelContexts, Finmap.lookup_alter, if_neg hab.symm, hk]

/-- The registries of a batch are those of a registry whose accounts balance. -/
structure Batch.Balanced (x : Batch) (r : Registry) : Prop where
  contexts : r.contexts = x.data.contexts
  ownedContexts : r.ownedContexts = x.data.ownedContexts
  ownedCancelContexts : r.ownedCancelContexts = x.data.ownedCancelContexts
  counters : r.counters = fun s => (x.subs s).inner.toCounters
  paired : r.Paired
  accounts : r.Accounts

variable {x : Batch} {r : Registry}

/-- In balanced registries every cancellation has its target. -/
theorem Batch.Balanced.targeted (h : x.Balanced r) : x.data.Targeted := by
  have hP := h.paired
  constructor
  · intro p c t hc hkind htarget
    have hflight := Registry.rawPairs_flights.mpr ⟨c, h.contexts ▸ hc, hkind, htarget⟩
    obtain ⟨i, hi, ho⟩ := hP.raw.target t (.inr ⟨p, hflight⟩)
    rw [← h.contexts]
    exact Registry.awaits_of_open hi ho
  · intro p q c e hc he hkind hkind' htarget
    rw [← h.contexts] at hc he
    obtain ⟨t, ht⟩ := Option.isSome_iff_exists.mp (hP.cancel p c hc hkind).1
    exact hP.raw.flights_inj p q t (Registry.rawPairs_flights.mpr ⟨c, hc, hkind, ht⟩)
      (Registry.rawPairs_flights.mpr ⟨e, he, hkind', htarget ▸ ht⟩)
  · intro p c hc
    have hflight := Registry.ownedPairs_flights.mpr ⟨c, h.ownedCancelContexts ▸ hc, rfl⟩
    obtain ⟨i, hi, ho⟩ := hP.owned.target c.target (.inr ⟨p, hflight⟩)
    rw [← h.ownedContexts]
    exact Registry.owned_awaits_of_open hi ho
  · intro p q c e hc he htarget
    rw [← h.ownedCancelContexts] at hc he
    exact hP.owned.flights_inj p q c.target (Registry.ownedPairs_flights.mpr ⟨c, hc, rfl⟩)
      (Registry.ownedPairs_flights.mpr ⟨e, he, htarget.symm⟩)

/-- In balanced registries the counters leave room for the CQEs to come. -/
theorem Batch.Balanced.counted (h : x.Balanced r) : x.Counted := by
  constructor
  · intro p c hc hkind hphase
    have := h.accounts.original_lt (h.contexts ▸ hc) hkind hphase
    rwa [h.counters] at this
  · intro p c hc hkind
    have := h.accounts.cancel_lt (h.contexts ▸ hc) hkind
    rwa [h.counters] at this

/-- What the kernel has posted is not part of the accounts. -/
theorem Batch.Balanced.post (h : x.Balanced r) (cqes : List Cqe) :
    x.Balanced { r with posted := cqes } where
  contexts := h.contexts
  ownedContexts := h.ownedContexts
  ownedCancelContexts := h.ownedCancelContexts
  counters := h.counters
  paired := ⟨h.paired.raw, h.paired.owned, h.paired.cancel, h.paired.ownedCancel, h.paired.handler⟩
  accounts := ⟨h.accounts.originals, h.accounts.accepted, h.accounts.generated,
    h.accounts.cancels, h.accounts.cancelTerminal, h.accounts.staged, h.accounts.acceptedKeys⟩

/-- Counters after the state of one submission is replaced. -/
theorem Batch.Balanced.counters_set {s : SubId} {st : SubmissionInner} {f : Counters → Counters}
    (h : x.Balanced r) (hst : st.toCounters = f (x.subs s).inner.toCounters) :
    Function.update r.counters s (f (r.counters s)) =
      fun t => (x.subs.set s st t).inner.toCounters := by
  rw [IoUring.counters_set, hst, h.counters]

/-- Dispatch of a CQE keeps the registries balanced. -/
theorem Batch.Balanced.apply (h : x.Balanced r) (ha : x.data.Routes a ρ) :
    ∃ r', (ρ.apply a x).Balanced r' := by
  have hd := h.targeted
  replace h := h.post [a]
  have hstep : ∀ {r'}, Registry.Step { r with posted := [a] } r' →
      r'.contexts = (ρ.apply a x).data.contexts →
      r'.ownedContexts = (ρ.apply a x).data.ownedContexts →
      r'.ownedCancelContexts = (ρ.apply a x).data.ownedCancelContexts →
      (r'.counters = fun s => ((ρ.apply a x).subs s).inner.toCounters) →
      ∃ r', (ρ.apply a x).Balanced r' := fun hs h1 h2 h3 h4 =>
    ⟨_, h1, h2, h3, h4, hs.paired h.paired, h.accounts.step h.paired hs⟩
  -- One step of the registry for each route a CQE can take.
  cases ρ with
  | original s key =>
    obtain ⟨c, hc, hkind, hphase, rfl, rfl⟩ := ha
    have hc' : ({ r with posted := [a] } : Registry).contexts.lookup a.userData = some c :=
      h.contexts ▸ hc
    cases hm : a.more with
    | true =>
      refine hstep (.more rfl hc' hkind hphase hm) ?_ h.ownedContexts h.ownedCancelContexts ?_
      · simpa [Route.apply, Route.data, Route.contexts, hm] using h.contexts
      · refine h.counters.trans (funext fun s => ?_)
        refine (counters_set_of_eq ?_ s).symm
        simp only [Route.locked, hm]
        rw [dispatchOriginal_counters, if_pos rfl]
    | false =>
      refine hstep (.retire rfl hc' hkind hphase hm) ?_ h.ownedContexts h.ownedCancelContexts ?_
      · have halter := CqeContext.alter_finish hc'
        rw [h.contexts] at halter
        change (if _ then _ else _) = _
        rw [h.contexts]
        simpa [Route.apply, Route.data, Route.contexts, hm] using halter.symm
      · refine
          h.counters_set (f := fun k => { k with originalTerminal := k.originalTerminal + 1 }) ?_
        simp only [Route.locked, hm]
        exact dispatchOriginal_counters ..
  | cancel s key t =>
    obtain ⟨hm, c, hc, hkind, hphase, rfl, rfl, htarget⟩ := ha
    obtain ⟨o, ho, hawaits⟩ := hd.cancel _ c t hc hkind htarget
    have hc' : ({ r with posted := [a] } : Registry).contexts.lookup a.userData = some c :=
      h.contexts ▸ hc
    -- The target is an original, the CQE is that of a cancellation.
    have hne : t ≠ a.userData := by
      rintro rfl
      rw [hc] at ho
      cases ho
      rw [hawaits.1] at hkind
      cases hkind
    have ho' : (x.data.contexts.erase a.userData).lookup t = some o := by
      rw [Finmap.lookup_erase_eq_ite, if_neg hne, ho]
    refine hstep (.retireCancel (o := o) (t := t) rfl hc' hkind hphase htarget ?_ hm) ?_
      h.ownedContexts h.ownedCancelContexts ?_
    · rw [h.contexts]
      exact ho'
    · change (if o.phase = .terminal then _ else _) = _
      rw [h.contexts]
      exact (CqeContext.alter_see ho').symm
    · refine h.counters_set (f := fun k => { k with cancelTerminal := k.cancelTerminal + 1 }) ?_
      simp only [Route.locked]
      exact dispatchCancel_counters ..
  | owned control =>
    obtain ⟨hm, hraw, k, handler, hk, hphase, -, rfl⟩ := ha
    refine hstep (.retireOwned (c := k) rfl (h.contexts ▸ hraw) (h.ownedContexts ▸ hk) hphase hm)
      h.contexts ?_ h.ownedCancelContexts h.counters
    change (if _ then _ else _) = _
    rw [h.ownedContexts]
    exact (OwnedCqeContext.alter_finish hk).symm
  | ownedCancel t =>
    obtain ⟨hm, hraw, howned, k, hk, hphase, rfl⟩ := ha
    obtain ⟨o, ho, -⟩ := hd.ownedCancel _ k hk
    refine hstep (.retireOwnedCancel (c := k) (o := o) rfl (h.contexts ▸ hraw)
      (h.ownedContexts ▸ howned) (h.ownedCancelContexts ▸ hk) hphase (h.ownedContexts ▸ ho) hm)
      h.contexts ?_ ?_ h.counters
    · change (if _ then _ else _) = _
      rw [h.ownedContexts]
      exact (OwnedCqeContext.alter_see ho).symm
    · change r.ownedCancelContexts.erase a.userData = _
      rw [h.ownedCancelContexts]
      rfl

/-- What is known of a batch with the CQEs `l` still to dispatch. -/
structure Batch.Ready (family : Cqe → Option (SubId × ContextKind)) (x : Batch) (l : List Cqe) :
    Prop where
  balanced : ∃ r, x.Balanced r
  ne_zero : ∀ cqe ∈ l, cqe.userData ≠ 0
  routes : ∀ cqe ∈ l, ∃ ρ, x.data.Routes cqe ρ ∧ family cqe = ρ.family
  terminal : l.Pairwise fun a b => a.userData = b.userData → a.more = true

variable {family : Cqe → Option (SubId × ContextKind)} {l u v : List Cqe}

/-- Only an original has more CQEs to come. -/
theorem DriverData.Routes.original_of_more (ha : d.Routes a ρ) (hm : a.more = true) :
    ∃ s key, ρ = .original s key := by
  cases ρ with
  | original s key => exact ⟨s, key, rfl⟩
  | cancel | owned | ownedCancel => exact absurd (hm.symm.trans ha.1) (by decide)

/-- A CQE with more to come leaves the registries as they are. -/
theorem Route.data_of_more (ha : d.Routes a ρ) (hm : a.more = true) : ρ.data a d = d := by
  obtain ⟨s, key, rfl⟩ := ha.original_of_more hm
  simp only [Route.data, Route.contexts, hm, if_true, Route.ownedContexts,
    Route.ownedCancelContexts]

/-- What a route changes in the data. -/
@[simp]
theorem Route.apply_data : (ρ.apply a x).data = ρ.data a x.data := by
  cases ρ <;> rfl

namespace Batch.Ready

/-- The first CQE is dispatched, and the rest of the batch stays legal. -/
theorem dispatch (h : x.Ready family (a :: l)) (ha : x.data.Routes a ρ) :
    x.dispatch a = .ok (ρ.apply a x) ∧ (ρ.apply a x).Ready family l := by
  obtain ⟨r, hr⟩ := h.balanced
  have hd := hr.targeted
  obtain ⟨hfirst, hterminal⟩ := List.pairwise_cons.mp h.terminal
  refine ⟨?_, hr.apply ha, fun b hb => h.ne_zero b (List.mem_cons_of_mem a hb), ?_, hterminal⟩
  · refine Batch.dispatch_eq ha (h.ne_zero a List.mem_cons_self) ?_ ?_
    · rintro s key t rfl
      obtain ⟨hm, c, hc, hkind, -, -, -, htarget⟩ := ha
      obtain ⟨o, ho, hawaits⟩ := hd.cancel _ c t hc hkind htarget
      refine ⟨?_, o, ho⟩
      rintro rfl
      rw [hc] at ho
      cases ho
      rw [hawaits.1] at hkind
      cases hkind
    · rintro t rfl
      obtain ⟨-, -, -, k, hk, -, rfl⟩ := ha
      obtain ⟨o, ho, -⟩ := hd.ownedCancel _ k hk
      exact ⟨o, ho⟩
  · intro b hb
    obtain ⟨ρ', hρ', hfamily⟩ := h.routes b (List.mem_cons_of_mem a hb)
    refine ⟨ρ', ?_, hfamily⟩
    rw [Route.apply_data]
    by_cases hab : a.userData = b.userData
    · rw [Route.data_of_more ha (hfirst b hb hab)]
      exact hρ'
    · exact ha.data hd hρ' hab

/-- Two neighbours that may change places are for different SQEs. -/
theorem ne_of_free (h : x.Ready family (u ++ a :: b :: v)) (hfree : Trace.Free family a b) :
    a.userData ≠ b.userData := by
  intro hab
  have hpair := (List.pairwise_append.mp h.terminal).2.1
  have hm : a.more = true := (List.pairwise_cons.mp hpair).1 b List.mem_cons_self hab
  obtain ⟨ρ, ha, hfamily⟩ := h.routes a (by simp)
  obtain ⟨ρ', hb, hfamily'⟩ := h.routes b (by simp)
  obtain ⟨s, key, rfl⟩ := ha.original_of_more hm
  obtain ⟨c, hc, hkind, -, rfl, -⟩ := ha
  rw [hab] at hc
  -- Both are for the one context, so the second is an original of the same submission.
  cases ρ' with
  | original s' key' =>
    obtain ⟨e, he, -, -, rfl, -⟩ := hb
    rw [hc] at he
    cases he
    exact hfree _ hfamily hfamily'
  | cancel s' key' t =>
    obtain ⟨-, e, he, hkind', -⟩ := hb
    rw [hc] at he
    cases he
    rw [hkind] at hkind'
    cases hkind'
  | owned | ownedCancel => exact absurd (hc.symm.trans hb.2.1) (by simp)

/-- In a legal batch neighbours of different families may change places. -/
theorem swap (h : x.Ready family (u ++ a :: b :: v)) (hfree : Trace.Free family a b) :
    x.Ready family (u ++ b :: a :: v) := by
  have hne := h.ne_of_free hfree
  have hperm : (u ++ b :: a :: v).Perm (u ++ a :: b :: v) := (List.Perm.swap a b v).append_left u
  refine ⟨h.balanced, fun c hc => h.ne_zero c (hperm.mem_iff.mp hc),
    fun c hc => h.routes c (hperm.mem_iff.mp hc), ?_⟩
  have hterminal := h.terminal
  simp only [List.pairwise_append, List.pairwise_cons, List.mem_cons] at hterminal ⊢
  obtain ⟨hu, ⟨ha, hb, hv⟩, hcross⟩ := hterminal
  refine ⟨hu, ⟨?_, fun c hc => ha c (.inr hc), hv⟩, ?_⟩
  · rintro c (rfl | hc)
    · exact fun hba => absurd hba.symm hne
    · exact hb c hc
  · rintro c hc e (rfl | rfl | he)
    · exact hcross c hc e (.inr (.inl rfl))
    · exact hcross c hc e (.inl rfl)
    · exact hcross c hc e (.inr (.inr he))

/-- The first two CQEs of a legal batch have the same effect in both orders, if their families
differ. -/
theorem comm (h : x.Ready family (a :: b :: l)) (hfree : Trace.Free family a b) :
    x.dispatch a >>= Batch.dispatch b = x.dispatch b >>= Batch.dispatch a := by
  have hswap : x.Ready family (b :: a :: l) := swap (u := []) h hfree
  have hne := ne_of_free (u := []) h hfree
  obtain ⟨r, hr⟩ := h.balanced
  obtain ⟨ρ, ha, hfamily⟩ := h.routes a List.mem_cons_self
  obtain ⟨ρ', hb, hfamily'⟩ := h.routes b (List.mem_cons_of_mem a List.mem_cons_self)
  obtain ⟨hda, hya⟩ := h.dispatch ha
  obtain ⟨hdb, hyb⟩ := hswap.dispatch hb
  have hab : (ρ.apply a x).dispatch b = .ok (ρ'.apply b (ρ.apply a x)) :=
    (hya.dispatch (by rw [Route.apply_data]; exact ha.data hr.targeted hb hne)).1
  have hba : (ρ'.apply b x).dispatch a = .ok (ρ.apply a (ρ'.apply b x)) :=
    (hyb.dispatch (by rw [Route.apply_data]; exact hb.data hr.targeted ha hne.symm)).1
  rw [hda, hdb]
  show (ρ.apply a x).dispatch b = (ρ'.apply b x).dispatch a
  rw [hab, hba, Route.apply_comm hr.targeted hr.counted ha hb hne]
  intro k hk hk'
  exact hfree k (hfamily.trans hk) (hfamily'.trans hk')

end Batch.Ready

/-- CQEs of a legal batch are exchangeable across families. -/
theorem Batch.exchange (family : Cqe → Option (SubId × ContextKind)) :
    Trace.Exchange Batch.dispatch family (Batch.Ready family) where
  step h := by
    obtain ⟨ρ, ha, -⟩ := h.routes _ List.mem_cons_self
    exact ⟨_, h.dispatch ha⟩
  legal h hfree := h.swap hfree
  comm h hfree := h.comm hfree

end Legal

/-! ## The result -/

/-- Whatever the kernel may post has a route. -/
theorem DriverData.Answers.routes (h : Reachable cfg ok σ) {cqe : Cqe} (ha : σ.data.Answers cqe) :
    cqe.userData ≠ 0 ∧ ∃ ρ, σ.data.Routes cqe ρ ∧ σ.data.family cqe = ρ.family := by
  have hS := DriverData.Sound.of_reachable h
  have hP := Registry.Paired.of_reachable h
  -- Contexts of different kinds are at different addresses.
  have hapart : ∀ k l : StagedContext, σ.data.phase? k ≠ none → k.pointer = l.pointer → l ≠ k →
      σ.data.phase? l = none := fun k l hk hp hne => by
    by_contra hl
    exact hne (hS.apart l k hl hk hp.symm)
  rcases ha with ⟨c, hc, hphase, hmore⟩ | ⟨hm, k, hk, hphase⟩ | ⟨hm, k, hk, hphase⟩
  · have hlive : σ.data.phase? (.raw cqe.userData) ≠ none := by simp [DriverData.phase?, hc]
    refine ⟨hS.ne_zero _ hlive, ?_⟩
    have hfamily : σ.data.family cqe = some (c.state, c.kind) := by simp [DriverData.family, hc]
    cases hkind : c.kind with
    | original =>
      exact ⟨.original c.state c.key, ⟨c, hc, hkind, hphase, rfl, rfl⟩, by rw [hfamily, hkind]; rfl⟩
    | cancel =>
      obtain ⟨t, ht⟩ := Option.isSome_iff_exists.mp (hP.cancel _ c hc hkind).1
      have hm : cqe.more = false := by
        rw [← Bool.not_eq_true]
        intro hm
        rw [hmore hm] at hkind
        cases hkind
      exact ⟨.cancel c.state c.key t, ⟨hm, c, hc, hkind, hphase, rfl, rfl, ht⟩,
        by rw [hfamily, hkind]; rfl⟩
  · have hlive : σ.data.phase? (.owned cqe.userData) ≠ none := by simp [DriverData.phase?, hk]
    have hraw : σ.data.contexts.lookup cqe.userData = none := by
      simpa [DriverData.phase?] using hapart _ (.raw cqe.userData) hlive rfl (by simp)
    have hsome : k.handler.isSome = true :=
      (hP.handler _ k hk).mpr (by rw [hphase]; decide)
    obtain ⟨handler, hhandler⟩ := Option.isSome_iff_exists.mp hsome
    exact ⟨hS.ne_zero _ hlive, .owned handler.control, ⟨hm, hraw, k, handler, hk, hphase, hhandler,
      rfl⟩, by simp [DriverData.family, hraw, Route.family]⟩
  · have hlive : σ.data.phase? (.ownedCancel cqe.userData) ≠ none := by
      simp [DriverData.phase?, hk]
    have hraw : σ.data.contexts.lookup cqe.userData = none := by
      simpa [DriverData.phase?] using hapart _ (.raw cqe.userData) hlive rfl (by simp)
    have howned : σ.data.ownedContexts.lookup cqe.userData = none := by
      simpa [DriverData.phase?] using hapart _ (.owned cqe.userData) hlive rfl (by simp)
    exact ⟨hS.ne_zero _ hlive, .ownedCancel k.target, ⟨hm, hraw, howned, k, hk, hphase, rfl⟩,
      by simp [DriverData.family, hraw, Route.family]⟩

/-- From every reachable state, dispatching a legal batch of CQEs ends, and ends in the same
registries, submissions, owned results, overflow reports and wakers as dispatching any
rearrangement of it that keeps the originals of each submission and the cancellations of each
submission in order. -/
theorem dispatch_order_independent (h : Reachable cfg ok σ) {l l' : List Cqe}
    (hl : σ.data.Legal l) (hs : Trace.SameOrder σ.data.family l l') :
    ∃ x, Trace.run Batch.dispatch l σ.batch = .ok x ∧
      Trace.run Batch.dispatch l' σ.batch = .ok x := by
  have hready : σ.batch.Ready σ.data.family l :=
    { balanced := ⟨σ.registry, rfl, rfl, rfl, rfl, .of_reachable h, .of_reachable h⟩
      ne_zero := fun cqe hc => ((hl.answers cqe hc).routes h).1
      routes := fun cqe hc => ((hl.answers cqe hc).routes h).2
      terminal := hl.terminal }
  obtain ⟨x, hx⟩ := (Batch.exchange σ.data.family).run_ok hready
  exact ⟨x, hx, ((Batch.exchange σ.data.family).run_eq hready hs).symm.trans hx⟩

/-- The kernel has accepted the one SQE of a submission and its cancellation. -/
def acceptedCancellation : List Action :=
  cancelledStream ++
    [.notify (.client 0), .passBegin, .stageCancellation 20, .stageCancellation 30,
      .stageOwnedCancellation 30, .stageOwned 30, .submit (.ok 1), .accept, .accept]

/-- The terminal CQEs of an original and of its cancellation may come in either order. -/
theorem dispatch_order_independent_tiny :
    ∃ σ x, Reachable .tiny Lts.Always σ ∧
      Trace.run Batch.dispatch [⟨20, 0, 0⟩, ⟨10, -125, 0⟩] σ.batch = .ok x ∧
        Trace.run Batch.dispatch [⟨10, -125, 0⟩, ⟨20, 0, 0⟩] σ.batch = .ok x := by
  have hrun : (Lts.exec (step .tiny) Lts.Always acceptedCancellation (.init .tiny)).any
      (fun σ =>
        σ.data.contexts.lookup 10 = some ⟨.original, .submitted, 0, 99, 0, none, true, false⟩ ∧
        σ.data.contexts.lookup 20 = some ⟨.cancel, .submitted, 0, 99, 0, some 10, false, false⟩) =
      true := by decide
  obtain ⟨σ, hσ, horiginal, hcancel⟩ := Lts.exists_of_exec hrun
  have hl : σ.data.Legal [⟨20, 0, 0⟩, ⟨10, -125, 0⟩] := by
    refine ⟨?_, by simp⟩
    simp only [List.forall_mem_cons]
    exact ⟨.inl ⟨_, hcancel, rfl, by decide⟩, .inl ⟨_, horiginal, rfl, by decide⟩, nofun⟩
  have hfree : Trace.Free σ.data.family ⟨20, 0, 0⟩ ⟨10, -125, 0⟩ := by
    simp [Trace.Free, DriverData.family, horiginal, hcancel]
  obtain ⟨x, hx⟩ := dispatch_order_independent hσ hl (.pair hfree)
  exact ⟨σ, x, hσ, hx⟩

end Nosv.IoUring
