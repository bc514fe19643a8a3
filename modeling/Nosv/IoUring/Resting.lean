import Nosv.IoUring.Shutdown

/-!
# Sleeping

The driver pauses only without work. Whatever is there while it is paused, or is about to be and has
not been told otherwise, was left by a producer that has still to call `notify`; and a producer that
calls it wakes the driver exactly once. An admission future whose iterator panicked has its `notify`
still to make, by being dropped; the same future polled once more may resolve without one.

* `never_sleeps_on_work`: in a run where no such poll resolves so (`Announced`), a driver sleeps on
  no work, and is woken once;
* `sleeps_on_work`: the poll that resolves without a `notify`.
-/

namespace Nosv.IoUring

variable {cfg : PreparedRing} {ok : State → Action → Prop} {σ τ : State} {a : Action}

/-! ## Parks and wakes -/

/-- What the gate says while the driver is parked. -/
structure Parked (σ : State) : Prop where
  /-- A driver that shows as asleep has not been notified. -/
  asleep : σ.gate.phase = .paused ∨ σ.gate.phase = .deadlineWait → σ.gate.notified = false
  woken : σ.gate.phase = .wakePending → σ.gate.notified = true
  paused : σ.gate.phase = .paused → σ.driver = .native .pause
  deadline : σ.gate.phase = .deadlineWait → σ.driver = .native .wait ∨ σ.driver = .resumed
  pausing : σ.driver = .native .pause → σ.gate.phase = .paused ∨ σ.gate.phase = .wakePending
  /-- A submit is consumed by the pause it was made for. -/
  token : σ.tokens = 0 ∨
    σ.tokens = 1 ∧ σ.gate.phase = .wakePending ∧ σ.driver = .native .pause

/-- A step that leaves the gate and the driver task alone. -/
theorem Parked.frame (h : Parked σ) (hg : τ.gate = σ.gate) (ht : τ.tokens = σ.tokens)
    (hd : τ.driver = σ.driver) : Parked τ := by
  obtain ⟨h1, h2, h3, h4, h5, h6⟩ := h
  constructor
  · rwa [hg]
  · rwa [hg]
  · rwa [hg, hd]
  · rwa [hg, hd]
  · rwa [hg, hd]
  · rwa [hg, hd, ht]

/-- A step of a driver that is not parked, to another such point. -/
theorem Parked.advance (h : Parked σ) (hG : Gated σ) (hg : τ.gate = σ.gate)
    (ht : τ.tokens = σ.tokens) (hσ : σ.driver ≠ .resumed ∧ ∀ d, σ.driver ≠ .native d)
    (hτ : ∀ d, τ.driver ≠ .native d) : Parked τ := by
  have hup : ¬ (σ.gate.phase = .paused ∨ σ.gate.phase = .deadlineWait ∨
      σ.gate.phase = .wakePending) := by
    intro hp
    rcases hG.parked hp with hr | ⟨d, hd⟩
    · exact hσ.1 hr
    · exact hσ.2 d hd
  push Not at hup
  obtain ⟨hpaused, hdeadline, hpending⟩ := hup
  constructor <;> rw [hg]
  · rintro (hp | hp)
    · exact absurd hp hpaused
    · exact absurd hp hdeadline
  · exact fun hp => absurd hp hpending
  · exact fun hp => absurd hp hpaused
  · exact fun hp => absurd hp hdeadline
  · exact fun hp => absurd hp (hτ _)
  · rw [ht]
    exact h.token.imp id fun hw => absurd hw.2.1 hpending

/-- A driver that does not show as parked, and is not. -/
theorem Parked.awake (hp : τ.gate.phase ≠ .paused ∧ τ.gate.phase ≠ .deadlineWait ∧
    τ.gate.phase ≠ .wakePending) (hd : τ.driver ≠ .native .pause) (ht : τ.tokens = 0) :
    Parked τ := by
  obtain ⟨hpaused, hdeadline, hpending⟩ := hp
  constructor
  · rintro (hw | hw)
    · exact absurd hw hpaused
    · exact absurd hw hdeadline
  · exact fun hw => absurd hw hpending
  · exact fun hw => absurd hw hpaused
  · exact fun hw => absurd hw hdeadline
  · exact fun hw => absurd hw hd
  · exact .inl ht

/-- No submit is left over outside a pause. -/
theorem Parked.no_token (h : Parked σ) (hd : σ.driver ≠ .native .pause) : σ.tokens = 0 := by
  rcases h.token with ht | ⟨-, -, hw⟩
  · exact ht
  · exact absurd hw hd

/-- Every move keeps the gate true to the park. -/
theorem Parked.move (h : Parked σ) (hS : Staging σ) (hG : Gated σ) (hm : Move cfg σ a τ) :
    Parked τ := by
  cases hm
  case notify b y hcall hnotify =>
    obtain ⟨h1, h2, h3, h4, h5, h6⟩ := h
    rcases notify_cases hnotify with rfl | ⟨-, hp, rfl⟩ | ⟨-, hp, rfl⟩
    · -- The driver is awake, or was woken already.
      have hnot : ¬ (σ.gate.phase = .paused ∨ σ.gate.phase = .deadlineWait) := by
        rintro (hp | hp) <;> simp only [IoUring.notify, hp] at hnotify <;>
          split at hnotify <;> cases hnotify
      exact ⟨fun hp => absurd hp hnot, fun _ => rfl, h3, h4, h5, h6⟩
    · have ht : σ.tokens = 0 := by
        refine h6.resolve_right fun hw => ?_
        rw [hp] at hw
        cases hw.2.1
      constructor <;> simp [State.setCall, h3 hp, ht]
    · have hd : σ.driver ≠ .native .pause := by
        intro hd
        rcases h5 hd with hw | hw <;> rw [hp] at hw <;> cases hw
      have ht : σ.tokens = 0 := Parked.no_token ⟨h1, h2, h3, h4, h5, h6⟩ hd
      constructor <;> simp [State.setCall, ht]
  case admissionsEnd hcrit =>
    exact h.advance hG rfl rfl (by simp [hS.mpr ⟨_, _, hcrit⟩]) (by simp)
  case passBegin hd _ _ | failOwned hd | failEnd hd | reap hd _ _ | dispatchEnd hd _
    | publish hd | cancelOverflow hd | overflowEnd hd | decideStop hd _ | decide hd _ _
    | takeRing hd _ | complete hd =>
    exact h.advance hG rfl rfl (by simp [hd]) (by simp)
  case dispatch y hd _ _ _ =>
    refine h.advance hG rfl rfl (by simp [hd]) ?_
    cases y.handler <;> simp
  case parkNotified hd _ | markRunning hd | closeGate hd | retire hd _ _ =>
    exact .awake (by simp) (by simp) (h.no_token (by simp [hd]))
  case park d hd hnotified =>
    have ht := h.no_token (by simp [hd])
    constructor <;> cases d <;> simp [State.parkPhase, hnotified, ht]
  case resume d hd htoken =>
    obtain ⟨h1, h2, h3, h4, h5, h6⟩ := h
    refine ⟨h1, h2, fun hp => ?_, fun _ => .inr rfl, (by rintro ⟨⟩), .inl ?_⟩
    · -- A paused driver returns only after the wake was submitted.
      obtain rfl : d = .pause := by simpa using hd.symm.trans (h3 hp)
      rcases h6 with ht | ⟨-, hpending, -⟩
      · exact absurd (htoken rfl) (by omega)
      · rw [hp] at hpending
        cases hpending
    · show (if d = .pause then σ.tokens - 1 else σ.tokens) = 0
      rcases h6 with ht | ⟨ht, -, hd'⟩
      · simp [ht]
      · obtain rfl : d = .pause := by simpa using hd.symm.trans hd'
        simp [ht]
  all_goals exact h.frame rfl rfl rfl

/-- The gate is true to the park in every reachable state. -/
theorem Parked.of_reachable (h : Reachable cfg ok σ) : Parked σ :=
  h.inv_of (J := fun σ => Staging σ ∧ Gated σ) (fun hr => ⟨.of_reachable hr, .of_reachable hr⟩)
    (by constructor <;> simp [State.init]) fun hJ _ hI _ hm => hI.move hJ.1 hJ.2 hm

/-- Whether a native call wakes the driver. -/
def NativeCall.wakes : NativeCall → Bool
  | .submit | .submitDeadlineWake => true
  | .destroy => false

/-- The native call that wakes a driver parked in the given phase. -/
def DriverPark.wake? : DriverPark → Option NativeCall
  | .paused => some .submit
  | .deadlineWait => some .submitDeadlineWake
  | _ => none

/-- Between two states the driver was issued no wake, or the one its phase in the first asks for;
then it asks for no other in the second. -/
def State.WakesTo (σ τ : State) : Prop :=
  ∃ calls, τ.native = σ.native ++ calls ∧
    (calls.filter NativeCall.wakes = [] ∧ τ.gate.phase.wake? = σ.gate.phase.wake? ∨
      calls.filter NativeCall.wakes <+: σ.gate.phase.wake?.toList ∧ τ.gate.phase.wake? = none)

/-- A step that does not park the driver issues no wake but the one asked for. -/
theorem Move.wakesTo (hm : Move cfg σ a τ) (hp : a ≠ .park) : σ.WakesTo τ := by
  cases hm
  case notify b y hcall hnotify =>
    refine ⟨y.2, rfl, ?_⟩
    rcases notify_cases hnotify with rfl | ⟨-, hphase, rfl⟩ | ⟨-, hphase, rfl⟩
    · exact .inl ⟨rfl, rfl⟩
    · exact .inr ⟨by rw [hphase]; exact List.prefix_rfl, rfl⟩
    · exact .inr ⟨by rw [hphase]; exact List.prefix_rfl, rfl⟩
  case retire => exact ⟨[.destroy], rfl, .inr ⟨List.nil_prefix, rfl⟩⟩
  case markRunning | closeGate =>
    exact ⟨[], (List.append_nil _).symm, .inr ⟨List.nil_prefix, rfl⟩⟩
  case parkNotified | park => exact absurd rfl hp
  all_goals exact ⟨[], (List.append_nil _).symm, .inl ⟨rfl, rfl⟩⟩

/-- Until it parks again, a driver is woken at most once, in the way its park asks for. -/
theorem State.WakesTo.of_run
    (hτ : Lts.Reaches (step cfg) (fun σ a => ok σ a ∧ a ≠ .park) σ τ) : σ.WakesTo τ := by
  refine hτ.invariant ⟨[], (List.append_nil _).symm, .inl ⟨rfl, rfl⟩⟩ ?_
  rintro τ υ a ⟨calls, hcalls, hτ⟩ ⟨-, hp⟩ hstep
  obtain ⟨more, hmore, hυ⟩ := (move_of_step hstep).wakesTo hp
  refine ⟨calls ++ more, by rw [hmore, hcalls, List.append_assoc], ?_⟩
  rw [List.filter_append]
  rcases hτ with ⟨hnone, hsame⟩ | ⟨hleft, hgone⟩
  · rwa [hnone, List.nil_append, ← hsame]
  · -- The one wake asked for was issued, or is no longer asked for.
    rw [hgone] at hυ
    have hnone : more.filter NativeCall.wakes = [] ∧ υ.gate.phase.wake? = none := by
      rcases hυ with hυ | ⟨hmore, hυ⟩
      · exact hυ
      · exact ⟨List.prefix_nil.mp hmore, hυ⟩
    exact .inr ⟨by rwa [hnone.1, List.append_nil], hnone.2⟩

/-- `notify` leaves word at the gate. -/
theorem notify_notified {g : DriverGate} {y : DriverGate × List NativeCall}
    (h : IoUring.notify g = .ok y) : y.1.notified = true := by
  rcases notify_cases h with rfl | ⟨-, -, rfl⟩ | ⟨-, -, rfl⟩ <;> rfl

/-! ## Work that is still to be announced -/

/-- The driver has decided to pause, and was not notified since. -/
def State.pausing (σ : State) : Bool :=
  (σ.driver == .park .pause || σ.driver == .native .pause) && !σ.gate.notified

theorem State.pausing_iff :
    σ.pausing = true ↔
      (σ.driver = .park .pause ∨ σ.driver = .native .pause) ∧ σ.gate.notified = false := by
  simp [State.pausing]

/-- A future that was not polled yet, or whose last poll unwound. -/
def Client.Unwound (c : Client) : Prop :=
  ∃ fut, c.role = .submit fut ∧ c.pc = .idle ∧ c.pend = none

/-- `admit` for submission `s` goes on, and has not got to its end without anything to announce. -/
def State.AdmitsOn (σ : State) (s : SubId) : Prop :=
  ∃ w n stage, σ.crit = some (.admission s w n, stage) ∧
    (stage = .cancels ∨ stage = .originals ∨ n = true ∨
      ((σ.clients s).role.fut?.bind (·.pending)).isSome = true)

/-- The caller of submission `s` has still to call `notify` after staging its originals: it is in
`admit` or in a call that ends in `notify`, or it holds a future whose poll unwound. -/
def State.Owes (σ : State) (s : SubId) : Prop :=
  (σ.calls (.client s)).isSome = true ∨ (σ.clients s).Unwound ∨ σ.AdmitsOn s

/-- Whoever queued cancellations for submission `s` has still to call `notify`. -/
def State.Asks (σ : State) (s : SubId) : Prop :=
  σ.calls (.client s) = some .notify ∨ σ.calls .owner = some .notify

/-- Whether the action is an iterator that ends. -/
def Action.ends : Action → Bool
  | .iteratorNext none => true
  | _ => false

/-- While the driver is pausing there is an original of the submission whose `admit` has staged
nothing yet: it is left over from a poll that unwound. -/
def State.leftover (σ : State) : Bool :=
  match σ.crit with
  | some (.admission s _ false, .originals) =>
    σ.pausing && σ.data.contexts.any fun _ c => c.kind == .original && c.state == s
  | _ => false

/-- The iterator of a future polled again after a panic does not end without yielding an entry,
when the first poll left originals the driver was not told of. -/
def Announced (σ : State) (a : Action) : Prop := (σ.leftover && a.ends) = false

instance (σ : State) (a : Action) : Decidable (Announced σ a) := inferInstanceAs (Decidable (_ = _))

/-- Whether the caller may have staged originals. -/
def Role.started : Role → Bool
  | .unborn | .created => false
  | .submit fut => !fut.closed
  | .stream | .cancellation | .gone => true

/-- A caller that cannot have staged anything has not. -/
def Unstarted (σ : State) : Prop :=
  ∀ s, (σ.clients s).role.started = false → (σ.subs s).inner.originals = 0

/-- A caller that has not started before a step had not, or had no originals. -/
theorem View.Step.started {s : SubId} {x y : View} (hs : x.Step s a y)
    (hf : x.client.Fits s x.call x.admits) (hy : y.client.role.started = false) :
    x.client.role.started = false ∧ y.inner.originals = x.inner.originals := by
  have hx : x.client.role.started = false := by
    have hof : ∀ {r : Role}, x.client.role = r → r.started = false →
        x.client.role.started = false := fun h hr => h ▸ hr
    cases hs
    case other hclient _ _ _ _ _ => exact hclient ▸ hy
    case register hrole => exact hof hrole rfl
    case opened hrole => exact hof hrole rfl
    case submitPending hrole _ _ _ _ _ | iteratorSome hrole _ _ | staged hrole _ =>
      exact hof hrole hy
    case submitFailed | submitOk | dropSubmit | cancelStream | dropStream | dropCancellation =>
      cases hy
    all_goals exact hy
  refine ⟨hx, hs.originals.resolve_right ?_⟩
  rintro ⟨hadmits, -⟩
  obtain ⟨⟨fut, hrole, hclosed⟩, -⟩ := hf.of_admits hadmits
  rw [hrole] at hx
  simp [Role.started, hclosed] at hx

/-- Only callers that have started have originals, in every reachable state. -/
theorem Unstarted.of_reachable (h : Reachable cfg ok σ) : Unstarted σ := by
  refine h.inv_of (J := fun σ => Reachable cfg ok σ) (fun hr => hr) (fun _ _ => rfl) ?_
  intro σ τ a hσ _ hI _ hm s hs
  have hT := Threads.of_reachable hσ
  have hview := view_move (.of_reachable hσ) hT (.of_reachable hσ) (.of_reachable hσ) hm s
  obtain ⟨hstarted, hsame⟩ := hview.started (hT.fits s) hs
  exact hsame.trans (hI s hstarted)

/-- The caller of a registered original has started. -/
theorem Reachable.started (h : Reachable cfg ok σ) {p : Pointer} {c : CqeContext}
    (hc : σ.data.contexts.lookup p = some c) : (σ.clients c.state).role.started = true := by
  rw [← Bool.not_eq_false]
  intro hs
  have hzero := Unstarted.of_reachable h _ hs
  have hkey := (Registry.Labels.of_reachable h).contexts p c hc
  have hstaged := (Registry.Accounts.of_reachable h).staged c.state
  have hpos := List.length_pos_of_mem hkey
  change (σ.subs c.state).inner.originals = _ at hstaged
  omega

namespace State.Owes

variable {s t : SubId}

/-- A step that leaves the caller and the critical section alone. -/
theorem frame (h : σ.Owes s) (hcall : τ.calls (.client s) = σ.calls (.client s))
    (hclient : τ.clients s = σ.clients s) (hcrit : τ.crit = σ.crit) : τ.Owes s := by
  unfold State.Owes State.AdmitsOn
  rw [hcall, hclient, hcrit]
  exact h

/-- A step that replaces the caller of another submission, and perhaps its call. -/
theorem other (h : σ.Owes s) (hne : t ≠ s) {c : Client} {x : Option Call}
    (hcalls : τ.calls = σ.calls ∨ τ.calls = Function.update σ.calls (.client t) x)
    (hclients : τ.clients = Function.update σ.clients t c) (hcrit : τ.crit = σ.crit) :
    τ.Owes s := by
  refine h.frame ?_ (by rw [hclients, Function.update_of_ne (Ne.symm hne)]) hcrit
  rcases hcalls with hcalls | hcalls
  · rw [hcalls]
  · rw [hcalls, Function.update_of_ne (by simpa using Ne.symm hne)]

/-- A step of `admit` for another submission, as long as it leaves the mutex with it or free. -/
theorem outside (h : σ.Owes s) {w : Waker} {n : Bool} {stage : Stage}
    (hcrit : σ.crit = some (.admission t w n, stage)) (hne : t ≠ s)
    (hcall : τ.calls (.client s) = σ.calls (.client s)) (hclient : τ.clients s = σ.clients s) :
    τ.Owes s := by
  rcases h with h | h | ⟨w', n', st', h, -⟩
  · exact .inl (hcall ▸ h)
  · exact .inr (.inl (hclient ▸ h))
  · rw [hcrit] at h
    cases h
    exact absurd rfl hne

/-- A step of the holder of the mutex to another stage, unless `admit` ends the staging by it. -/
theorem stage (h : σ.Owes s) {holder : Holder} {stage stage' : Stage}
    (hcrit : σ.crit = some (holder, stage)) (hτ : τ.crit = some (holder, stage'))
    (hstage : stage = .cancels ∨ stage = .originals → stage' = .cancels ∨ stage' = .originals)
    (hcall : τ.calls (.client s) = σ.calls (.client s)) (hclient : τ.clients s = σ.clients s) :
    τ.Owes s := by
  rcases h with h | h | ⟨w, n, st, h, hgoes⟩
  · exact .inl (hcall ▸ h)
  · exact .inr (.inl (hclient ▸ h))
  · rw [hcrit] at h
    cases h
    refine .inr (.inr ⟨w, n, stage', hτ, ?_⟩)
    rw [hclient]
    rcases hgoes with hgoes | hgoes | hgoes
    · exact (hstage (.inl hgoes)).imp id .inl
    · exact (hstage (.inr hgoes)).imp id .inl
    · exact .inr (.inr hgoes)

/-- A caller without a future owes a call it is in. -/
theorem of_role (h : σ.Owes s) (hT : Threads σ) (hr : ∀ fut, (σ.clients s).role ≠ .submit fut) :
    (σ.calls (.client s)).isSome = true := by
  rcases h with h | ⟨fut, h, -⟩ | ⟨w, n, st, h, -⟩
  · exact h
  · exact absurd h (hr fut)
  · obtain ⟨⟨fut, h, -⟩, -⟩ := (hT.fits s).of_admits (by simp [admits_of_crit h, Holder.admits])
    exact absurd h (hr fut)

/-- In the critical section a caller is in no call, and its future has not unwound. -/
theorem of_crit (h : σ.Owes s) (hT : Threads σ) {w : Waker} {n : Bool} {stage : Stage}
    (hcrit : σ.crit = some (.admission s w n, stage)) :
    stage = .cancels ∨ stage = .originals ∨ n = true ∨
      ((σ.clients s).role.fut?.bind (·.pending)).isSome = true := by
  obtain ⟨-, hpc, hcall⟩ := (hT.fits s).of_admits (by simp [admits_of_crit hcrit, Holder.admits])
  rcases h with h | ⟨fut, -, h, -⟩ | ⟨w', n', st', h, hgoes⟩
  · rw [hcall] at h
    cases h
  · rw [hpc] at h
    cases h
  · rw [hcrit] at h
    cases h
    exact hgoes

end State.Owes

/-- Only the driver that dispatches makes calls of its own. -/
def Overflowing (σ : State) : Prop :=
  σ.calls .driver ≠ none → ∃ rest backlog, σ.driver = .overflow rest backlog

/-- Every move keeps the driver's calls where they are made. -/
theorem Overflowing.move (h : Overflowing σ) (hS : Staging σ) (hm : Move cfg σ a τ) :
    Overflowing τ := by
  -- Another actor's call leaves the driver's alone, and the driver's own goes on.
  have hcalls : ∀ {b : Actor} {x : Option Call}, (b = .driver → σ.calls .driver ≠ none) →
      (σ.setCall b x).calls .driver ≠ none → ∃ rest backlog, σ.driver = .overflow rest backlog := by
    intro b x hb hne
    rw [State.setCall_calls] at hne
    split_ifs at hne with heq
    · exact h (hb heq.symm)
    · exact h hne
  have hfree : ∀ {b}, (∀ rest backlog, σ.driver ≠ .overflow rest backlog) →
      σ.calls .driver = b → b = none := by
    intro b hd hb
    by_contra hne
    obtain ⟨rest, backlog, hover⟩ := h (hb ▸ hne)
    exact hd rest backlog hover
  intro hne
  cases hm
  case close hcall | sweep hcall _ _ _ | sweepOwned hcall _ _ | sweepOwnedNone hcall _ _ |
      notify hcall _ =>
    exact hcalls (fun hb => by rw [← hb, hcall]; simp) hne
  case cancelOverflow rest backlog _ _ => exact ⟨rest, backlog, rfl⟩
  case overflowEnd hcall _ => exact absurd hcall hne
  case admissionsEnd hcrit =>
    exact absurd (hfree (by simp [hS.mpr ⟨_, _, hcrit⟩]) rfl) hne
  case passBegin hd _ _ | failOwned hd | failEnd hd | reap hd _ _ | dispatchEnd hd _ |
      dispatch hd _ _ _ | publish hd | decideStop hd _ | decide hd _ _ | parkNotified hd _ |
      park hd _ | resume hd _ | markRunning hd | takeRing hd _ | closeGate hd | retire hd _ _ |
      complete hd =>
    exact absurd (hfree (by simp [hd]) rfl) hne
  all_goals exact h hne

/-- The driver makes no calls outside that loop, in every reachable state. -/
theorem Overflowing.of_reachable (h : Reachable cfg ok σ) : Overflowing σ :=
  h.inv_of Staging.of_reachable (fun hne => absurd rfl hne) fun hS _ hI _ hm => hI.move hS hm

/-- Under a pausing driver, what the caller of an original owes it goes on owing, but for the end
of an iterator that forgets a panic. -/
theorem Reachable.owes_of_move (hσ : Reachable cfg ok σ) (hm : Move cfg σ a τ)
    (hann : Announced σ a) (hpausing : σ.pausing = true) (hτ : τ.pausing = true) {p : Pointer}
    {c : CqeContext} (hc : σ.data.contexts.lookup p = some c) (hkind : c.kind = .original)
    (h : σ.Owes c.state) : τ.Owes c.state := by
  have hT := Threads.of_reachable hσ
  have hstarted := hσ.started hc
  have hpass : ∀ {f st}, σ.crit ≠ some (.pass f, st) := by
    intro f st hcrit
    have hd := (Staging.of_reachable hσ).mpr ⟨f, st, hcrit⟩
    rcases (State.pausing_iff.mp hpausing).1 with hp | hp <;> rw [hp] at hd <;> cases hd
  have hdriver : σ.driver = .park .pause ∨ σ.driver = .native .pause :=
    (State.pausing_iff.mp hpausing).1
  -- A call that goes on is still a call.
  have hgo : ∀ {b : Actor} {call call' : Call}, σ.calls b = some call →
      τ.calls = Function.update σ.calls b (some call') → τ.clients = σ.clients →
      τ.crit = σ.crit → τ.Owes c.state := by
    intro b call call' hb hcalls hclients hcrit
    by_cases hbs : b = .client c.state
    · refine .inl ?_
      rw [hcalls, hbs, Function.update_self]
      rfl
    · exact h.frame (by rw [hcalls, Function.update_of_ne (Ne.symm hbs)]) (by rw [hclients]) hcrit
  cases hm
  case registerSubmission =>
    have hlt := (Allocated.of_reachable hσ).context p c hc
    exact h.frame rfl (Function.update_of_ne (Nat.ne_of_lt hlt) _ _) rfl
  case openSubmission t hrole =>
    rcases eq_or_ne t c.state with rfl | hne
    · rw [hrole] at hstarted
      cases hstarted
    · exact h.other (x := none) hne (.inl rfl) rfl rfl
  case pollClosed t w fut hfut _ _ hclosed =>
    rcases eq_or_ne t c.state with rfl | hne
    · rw [Role.fut?_eq_some.mp hfut] at hstarted
      simp [Role.started, hclosed] at hstarted
    · exact h.other (x := none) hne (.inl rfl) rfl rfl
  -- Whoever starts a call owes its `notify`, and the others go on as before.
  case pollRefused t _ _ _ _ _ _ _ _ | pollDeferred t _ _ _ _ _ _ _ _ _ |
      submitFailed t _ _ _ _ _ _ _ | submitPending t _ _ _ _ _ _ _ _ | dropSubmit t _ _ _ _ |
      cancelStream t _ | dropStream t _ =>
    rcases eq_or_ne t c.state with rfl | hne
    · exact .inl (by exact congrArg Option.isSome (Function.update_self _ _ σ.calls))
    · exact h.other hne (.inr rfl) rfl rfl
  -- An admission that begins owes the `notify` at its end.
  case pollAdmit t w fut r _ _ _ _ hcrit _ _ _ =>
    rcases eq_or_ne t c.state with rfl | hne
    · exact .inr (.inr ⟨w, false, .cancels, rfl, .inl rfl⟩)
    · rcases h with h | h | ⟨w', n, st, h, -⟩
      · exact .inl h
      · exact .inr (.inl (by simpa [State.setClient, Function.update_of_ne (Ne.symm hne)] using h))
      · rw [hcrit] at h
        cases h
  case submitOk t _ _ _ hpc hcall _ _ _ _ =>
    rcases eq_or_ne t c.state with rfl | hne
    · -- The future resolves outside of `admit` and of any call.
      rcases h with h | ⟨fut, -, h, -⟩ | ⟨w, n, st, h, -⟩
      · rw [hcall] at h
        cases h
      · rw [hpc] at h
        cases h
      · -- The client is at its check, and so the mutex is not its own.
        have hadmits : σ.admits c.state = true := by
          simp [State.admits_of_crit h, Holder.admits]
        rw [((hT.fits c.state).of_admits hadmits).2.1] at hpc
        cases hpc
    · exact h.other (x := none) hne (.inl rfl) rfl rfl
  case nextReady t _ _ _ hrole _ | nextPending t _ _ hrole _ | dropFuture t hrole |
      cancellationReady t _ _ _ hrole _ _ | cancellationPending t _ _ hrole _ _ |
      drainedReady t _ hrole _ _ | drainedPending t _ hrole _ _ | dropCancellation t hrole _ =>
    rcases eq_or_ne t c.state with rfl | hne
    · exact .inl (h.of_role hT fun fut hf => by rw [hf] at hrole; simp at hrole)
    · exact h.other (x := none) hne (.inl rfl) rfl rfl
  case close hcall | sweep hcall _ _ _ | sweepOwned hcall _ _ | sweepOwnedNone hcall _ _ =>
    exact hgo hcall rfl rfl rfl
  case notify y _ hnotify =>
    -- Whoever notifies ends the pause.
    have hfalse : y.1.notified = false := (State.pausing_iff.mp hτ).2
    rw [notify_notified hnotify] at hfalse
    cases hfalse
  -- With the driver pausing the mutex is held by an admission, never by a pass.
  case stageCancellation holder _ _ y hcrit _ _ _ =>
    refine h.stage hcrit rfl (fun _ => ?_) rfl rfl
    cases holder with
    | admission => cases y.1 <;> simp [State.afterCancels]
    | pass => exact absurd hcrit hpass
  case stageOwnedCancellation hcrit _ _ _ | submitAccepted hcrit _ _ _ | submitRetry hcrit _
    | accept hcrit _ _ =>
    exact h.stage hcrit rfl (by simp) rfl rfl
  case ownedBudget hcrit | stageOwned hcrit _ _ _ | passEnd hcrit | admissionsEnd hcrit |
      wakeAdmission hcrit _ | admissionDead hcrit _ =>
    exact absurd hcrit hpass
  case iteratorSome t w n fut entry hcrit _ _ _ =>
    rcases eq_or_ne t c.state with rfl | hne
    · exact .inr (.inr ⟨w, n, .originals, hcrit, .inr (.inl rfl)⟩)
    · exact h.other (x := none) hne (.inl rfl) rfl rfl
  case iteratorNone t w n fut hcrit hfut hpending =>
    rcases eq_or_ne t c.state with rfl | hne
    · refine .inr (.inr ⟨w, n, .submit, rfl, .inr (.inr (.inl ?_))⟩)
      cases n with
      | true => rfl
      | false =>
        have hleft : σ.leftover = true := by
          -- The iterator ends with nothing new although something is left: that is not announced.
          have hany : σ.data.contexts.any
              (fun _ x => x.kind == .original && x.state == c.state) = true :=
            Finmap.any_eq_true_of_lookup hc (by simp [hkind])
          simp only [State.leftover, hcrit, hpausing, hany, Bool.and_self]
        simp [Announced, hleft, Action.ends] at hann
    · exact h.outside hcrit hne rfl rfl
  case iteratorPanic t w n fut hcrit hfut _ =>
    rcases eq_or_ne t c.state with rfl | hne
    · refine .inr (.inl ⟨fut, ?_, ?_, ?_⟩)
      · simpa using hfut
      · simp
      · simp
    · exact h.outside hcrit hne rfl (Function.update_of_ne (Ne.symm hne) _ _)
  case originalFull t w n fut item item' _ _ hcrit _ _ _ _ =>
    rcases eq_or_ne t c.state with rfl | hne
    · exact .inr (.inr ⟨w, n, .submit, rfl, .inr (.inr (.inr (by simp [Role.fut?])))⟩)
    · exact h.outside hcrit hne rfl (Function.update_of_ne (Ne.symm hne) _ _)
  case originalStaged t w n fut item _ _ _ hcrit _ _ _ _ _ =>
    rcases eq_or_ne t c.state with rfl | hne
    · exact .inr (.inr ⟨w, true, .originals, rfl, .inr (.inl rfl)⟩)
    · exact h.outside hcrit hne rfl (Function.update_of_ne (Ne.symm hne) _ _)
  case admitEnd t w n hcrit =>
    rcases eq_or_ne t c.state with rfl | hne
    · -- The admission ends with the `notify` it owes.
      have hgoes : (n || ((σ.clients c.state).role.fut?.bind (·.pending)).isSome) = true := by
        simpa using h.of_crit hT hcrit
      refine .inl ?_
      show (Function.update σ.calls (.client c.state) _ (.client c.state)).isSome = true
      rw [Function.update_self, if_pos hgoes]
      rfl
    · exact h.outside hcrit hne (Function.update_of_ne (by simpa using Ne.symm hne) _ _)
        (Function.update_of_ne (Ne.symm hne) _ _)
  case resume | parkNotified =>
    have := State.pausing_iff.mp hτ
    simp at this
  case passBegin hd _ _ | failOwned hd | failEnd hd | reap hd _ _ | dispatchEnd hd _ |
      dispatch hd _ _ _ | publish hd | cancelOverflow _ hd | overflowEnd _ hd |
      decideStop _ hd _ | decide _ hd _ _ | markRunning hd | takeRing hd _ | closeGate hd |
      retire hd _ _ | complete hd =>
    rcases hdriver with hp | hp <;> rw [hp] at hd <;> cases hd
  all_goals exact h.frame rfl rfl rfl

/-- Under a pausing driver, whoever queued cancellations goes on owing its `notify`. -/
theorem State.Asks.move {s : SubId} (h : σ.Asks s) (hT : Threads σ) (hm : Move cfg σ a τ)
    (hτ : τ.pausing = true) : τ.Asks s := by
  -- Only `notify` ends such a call.
  have hkeep : ∀ {b : Actor} {x : Option Call}, σ.calls b ≠ some .notify →
      τ.calls = Function.update σ.calls b x → τ.Asks s := by
    intro b x hb hcalls
    have hne : ∀ {d}, σ.calls d = some .notify → τ.calls d = some .notify := by
      intro d hd
      rw [hcalls, Function.update_of_ne ?_, hd]
      rintro rfl
      exact hb hd
    exact h.imp hne hne
  have hfree : ∀ {b : Actor} {x : Option Call}, σ.calls b = none →
      τ.calls = Function.update σ.calls b x → τ.Asks s :=
    fun hb => hkeep (by rw [hb]; simp)
  cases hm
  -- A call that begins ends no other.
  case pollRefused hcall _ _ _ | pollDeferred hcall _ _ _ _ | submitFailed hcall _
    | submitPending hcall _ _ _ | dropSubmit hcall | cancelSubmission hcall _
    | cancelSnapshot hcall _ | snapshotEnd hcall _ =>
    exact hfree hcall rfl
  case cancelStream t hrole => exact hfree ((hT.fits t).of_stream hrole).2.1 rfl
  case dropStream t hrole => exact hfree ((hT.fits t).of_stream hrole).2.1 rfl
  case close hcall | sweep hcall _ _ _ | sweepOwned hcall _ _ | sweepOwnedNone hcall _ _ =>
    exact hkeep (by rw [hcall]; simp) rfl
  case notify y _ hnotify =>
    have hfalse : y.1.notified = false := (State.pausing_iff.mp hτ).2
    rw [notify_notified hnotify] at hfalse
    cases hfalse
  case admitEnd t w n hcrit =>
    exact hfree ((hT.fits t).of_admits (by simp [State.admits_of_crit hcrit, Holder.admits])).2.2
      rfl
  all_goals exact h

/-- The work a pausing driver does not know of: somebody has still to call `notify` for it. -/
structure State.Covered (σ : State) : Prop where
  originals : ∀ p c, σ.data.contexts.lookup p = some c → c.kind = .original → σ.Owes c.state
  cancels : ∀ p c, σ.data.contexts.lookup p = some c → c.kind = .cancel → σ.Asks c.state
  commands : ∀ k ∈ σ.data.cancelQueue, σ.Asks k.state
  /-- There is no owned operation beyond the producer queue. -/
  owned : σ.data.ownedContexts = ∅ ∧ σ.data.ownedCancelContexts = ∅ ∧
    σ.data.ownedPending = [] ∧ σ.data.ownedCancelQueue = []
  queue : ∀ op ∈ σ.ownedQueue, σ.calls (.op op.control) = some .notify
  /-- The owner thread notifies after it has raised shutdown. -/
  shutdown : σ.data.shutdown = true →
    σ.owner.raised = true ∧ (σ.owner = .waiting → σ.calls .owner = some .notify)

/-- A driver chooses to pause when it finds nothing to do. -/
theorem decide_eq_pause {d : DriverData} {backlog empty : Bool}
    (h : IoUring.decide d backlog empty = .pause) :
    d.Idle ∧ empty = true ∧ d.shutdown = false := by
  unfold IoUring.decide at h
  dsimp only at h
  split_ifs at h with hstop hqueued hactive
  simp only [Bool.or_eq_true, not_or, Bool.not_eq_true, Bool.not_eq_false', List.isEmpty_iff,
    ne_eq, decide_not, decide_eq_true_eq] at hactive
  obtain ⟨⟨⟨hcontexts, howned⟩, hcancels⟩, ⟨⟨⟨hstaged, hqueue⟩, hpending⟩, hcommands⟩, hempty⟩ :=
    hactive
  refine ⟨⟨hcontexts, hstaged, hqueue, howned, hcancels, hpending, hcommands⟩, hempty, ?_⟩
  simpa [hcontexts, hstaged, hqueue, howned, hcancels, hpending, hcommands, hempty] using hstop

/-- A driver starts pausing when it finds nothing to do. -/
theorem Move.pausing (hm : Move cfg σ a τ) (hτ : τ.pausing = true) :
    σ.pausing = true ∨ τ.Covered := by
  cases hm
  -- The decision to pause was made on an idle driver data and an empty queue.
  case decide backlog d hcrit hd hne hdecide =>
    right
    obtain ⟨hpause, -⟩ := State.pausing_iff.mp hτ
    obtain rfl : d = .pause := by simpa using hpause
    obtain ⟨hidle, hqueue, hshutdown⟩ := decide_eq_pause hdecide
    exact
      { originals := fun p c hc => by simp [hidle.contexts] at hc
        cancels := fun p c hc => by simp [hidle.contexts] at hc
        commands := fun k hk => by simp [hidle.cancelQueue] at hk
        owned := ⟨hidle.ownedContexts, hidle.ownedCancelContexts, hidle.ownedPending,
          hidle.ownedCancelQueue⟩
        queue := fun op hop => by simp [List.isEmpty_iff.mp hqueue] at hop
        shutdown := fun hs => by simp [hshutdown] at hs }
  case notify y _ hnotify =>
    have hfalse : y.1.notified = false := (State.pausing_iff.mp hτ).2
    rw [notify_notified hnotify] at hfalse
    cases hfalse
  -- The gate parks only a driver that was not notified.
  case park d hd hnotified =>
    obtain ⟨hpause, -⟩ := State.pausing_iff.mp hτ
    obtain rfl : d = .pause := by simpa using hpause
    exact .inl (State.pausing_iff.mpr ⟨.inl hd, hnotified⟩)
  case dispatch y hd _ _ _ =>
    obtain ⟨hpause, -⟩ := State.pausing_iff.mp hτ
    cases hh : y.handler <;> simp [hh] at hpause
  case passBegin | failOwned | failEnd | reap | dispatchEnd | publish | cancelOverflow |
      overflowEnd | decideStop | parkNotified | resume | markRunning | takeRing | closeGate |
      retire | complete | admissionsEnd =>
    simp [State.pausing] at hτ
  all_goals exact .inl hτ

/-- Under a pausing driver nothing owned gets past the producer queue. -/
theorem Move.unowned (hm : Move cfg σ a τ) (hS : Staging σ) (hpausing : σ.pausing = true)
    (h : σ.data.ownedContexts = ∅ ∧ σ.data.ownedCancelContexts = ∅ ∧ σ.data.ownedPending = [] ∧
      σ.data.ownedCancelQueue = []) :
    τ.data.ownedContexts = ∅ ∧ τ.data.ownedCancelContexts = ∅ ∧ τ.data.ownedPending = [] ∧
      τ.data.ownedCancelQueue = [] := by
  -- The driver is not in a pass, so nothing is staged but by `admit`.
  have hdriver := (State.pausing_iff.mp hpausing).1
  have hpass : ∀ {f st}, σ.crit ≠ some (.pass f, st) := by
    intro f st hcrit
    have hd := hS.mpr ⟨f, st, hcrit⟩
    rcases hdriver with hp | hp <;> rw [hp] at hd <;> cases hd
  cases hm
  case sweepOwned c p _ _ htarget => simp [State.ownedTargets, h.1] at htarget
  case stageCancellation hy =>
    rcases stageCancellation_cases hy with rfl | ⟨_, _, _, _, rfl⟩ <;> exact h
  case stageOwnedCancellation hy =>
    rcases stageOwnedCancellation_cases hy with rfl | ⟨command, rest, hqueue, _, rfl⟩
    · exact h
    · rw [h.2.2.2] at hqueue
      cases hqueue
  case stageOwned hcrit _ _ _ => exact absurd hcrit hpass
  case originalStaged hy =>
    obtain ⟨-, rfl⟩ := stageOriginal_staged hy
    exact h
  case accept hy =>
    rcases acceptStaged_cases hy with ⟨_, _, _, _, _, _, rfl⟩ | ⟨p, _, k, _, hk, _, rfl⟩ |
      ⟨p, _, k, _, hk, _, rfl⟩
    · exact h
    · rw [h.1] at hk
      cases hk
    · rw [h.2.1] at hk
      cases hk
  case dispatch hd _ _ _ => rcases hdriver with hp | hp <;> rw [hp] at hd <;> cases hd
  all_goals exact h

/-- Under a pausing driver, whoever queued an owned operation has still to notify. -/
theorem Move.queueing (hm : Move cfg σ a τ) (hS : Staging σ) (hpausing : σ.pausing = true)
    (hτ : τ.pausing = true)
    (h : ∀ op ∈ σ.ownedQueue, σ.calls (.op op.control) = some .notify) :
    ∀ op ∈ τ.ownedQueue, τ.calls (.op op.control) = some .notify := by
  have hdriver := (State.pausing_iff.mp hpausing).1
  have hpass : ∀ {f st}, σ.crit ≠ some (.pass f, st) := by
    intro f st hcrit
    have hd := hS.mpr ⟨f, st, hcrit⟩
    rcases hdriver with hp | hp <;> rw [hp] at hd <;> cases hd
  -- The `notify` of an enqueued operation is still to come.
  have hkeep : ∀ {b : Actor} {x : Option Call}, σ.calls b ≠ some .notify →
      ∀ op ∈ σ.ownedQueue, Function.update σ.calls b x (.op op.control) = some .notify := by
    intro b x hb op hop
    rw [Function.update_of_ne ?_, h op hop]
    rintro rfl
    exact hb (h op hop)
  cases hm
  case close hcall | sweep hcall _ _ _ | sweepOwned hcall _ _ | sweepOwnedNone hcall _ _
    | dropOwned hcall =>
    exact hkeep (by rw [hcall]; simp)
  case notify y _ hnotify =>
    have hfalse : y.1.notified = false := (State.pausing_iff.mp hτ).2
    rw [notify_notified hnotify] at hfalse
    cases hfalse
  case stageOwned hcrit _ _ _ => exact absurd hcrit hpass
  case enqueue opcode _ =>
    intro op hop
    rcases List.mem_append.mp hop with hop | hop
    · show Function.update σ.calls _ _ (.op op.control) = some .notify
      rw [Function.update_apply]
      split_ifs
      · rfl
      · exact h op hop
    · rw [List.mem_singleton.mp hop]
      exact Function.update_self _ _ _
  all_goals exact h

/-- Under a pausing driver, an owner thread that raised shutdown has still to notify. -/
theorem Move.announcing (hm : Move cfg σ a τ) (hτ : τ.pausing = true)
    (h : σ.data.shutdown = true →
      σ.owner.raised = true ∧ (σ.owner = .waiting → σ.calls .owner = some .notify)) :
    τ.data.shutdown = true →
      τ.owner.raised = true ∧ (τ.owner = .waiting → τ.calls .owner = some .notify) := by
  intro hshutdown
  rcases hm.shutdown hshutdown with hσ | ⟨⟨order, rfl⟩, -⟩
  · obtain ⟨hraised, hwaiting⟩ := h hσ
    -- A step of another call leaves that of the owner thread alone.
    have hother : ∀ {b : Actor} {call : Call} {x}, σ.calls b = some call → call ≠ .notify →
        σ.owner = .waiting → Function.update σ.calls b x .owner = some .notify := by
      intro b call x hb hne howner
      rw [Function.update_of_ne ?_, hwaiting howner]
      rintro rfl
      rw [hwaiting howner] at hb
      exact hne (Option.some.inj hb).symm
    cases hm
    case close hcall | sweep hcall _ _ _ | sweepOwned hcall _ _ | sweepOwnedNone hcall _ _ =>
      exact ⟨hraised, hother hcall (by simp)⟩
    case notify y _ hnotify =>
      have hfalse : y.1.notified = false := (State.pausing_iff.mp hτ).2
      rw [notify_notified hnotify] at hfalse
      cases hfalse
    case shutdownAndWait howner _ | closeAdmission howner | raiseShutdown howner _ _ _ =>
      rw [howner] at hraised
      cases hraised
    case cancelSubmission | submissionsEnd | cancelSnapshot => exact ⟨rfl, nofun⟩
    case snapshotEnd => exact ⟨rfl, fun _ => rfl⟩
    case awaitCompleted howner hcall _ =>
      rw [hwaiting howner] at hcall
      cases hcall
    all_goals exact ⟨hraised, hwaiting⟩
  · cases hm
    exact ⟨rfl, nofun⟩

/-- Under a pausing driver, an original that was not there before is one its `admit` staged. -/
theorem Move.staged (hm : Move cfg σ a τ) (hpausing : σ.pausing = true) {p : Pointer}
    {c : CqeContext} (hp : σ.data.contexts.lookup p = none)
    (hc : τ.data.contexts.lookup p = some c) (hkind : c.kind = .original) : τ.Owes c.state := by
  -- The context was there before, which `hp` excludes.
  have hnone : σ.data.contexts.lookup p = some c → τ.Owes c.state := by
    intro h
    rw [hp] at h
    cases h
  cases hm
  case sweep hnodup horder =>
    have hlookup := @cancelOriginals_lookup _ _ _ σ.subs p hnodup horder
    rw [hp] at hlookup
    exact absurd (hlookup.symm.trans hc) (by simp)
  case stageCancellation hy =>
    rcases stageCancellation_cases hy with rfl | ⟨command, _, _, _, rfl⟩
    · exact hnone hc
    · rw [Finmap.lookup_insert_eq_ite] at hc
      split_ifs at hc
      · rw [← Option.some.inj hc] at hkind
        cases hkind
      · exact hnone hc
  case stageOwnedCancellation hy =>
    rcases stageOwnedCancellation_cases hy with rfl | ⟨_, _, _, _, rfl⟩ <;> exact hnone hc
  case stageOwned hy =>
    rcases stageOwned_cases hy with ⟨-, rfl⟩ | ⟨op, x, hx, hy⟩
    · exact hnone hc
    · have hx : x.data.contexts = σ.data.contexts := by
        rcases popOwned_cases hx with ⟨_, _, rfl⟩ | ⟨_, _, _, rfl⟩ <;> rfl
      rcases hy with ⟨_, rfl⟩ | rfl | ⟨-, -, rfl⟩ <;> exact hnone (hx ▸ hc)
  -- The `admit` that pushes it still holds the mutex, and owes the notification.
  case originalStaged s w n fut item _ q y hcrit _ _ _ _ hy =>
    obtain ⟨-, rfl⟩ := stageOriginal_staged hy
    rw [Finmap.lookup_insert_eq_ite] at hc
    split_ifs at hc
    · rw [← Option.some.inj hc]
      exact .inr (.inr ⟨w, true, .originals, rfl, .inr (.inl rfl)⟩)
    · exact hnone hc
  case accept hy =>
    rcases acceptStaged_cases hy with ⟨q, _, x, _, hx, _, rfl⟩ | ⟨_, _, _, _, _, _, rfl⟩ |
      ⟨_, _, _, _, _, _, rfl⟩
    · rw [Finmap.lookup_insert_eq_ite] at hc
      split_ifs at hc with hpq
      · rw [hpq, hx] at hp
        cases hp
      · exact hnone hc
    · exact hnone hc
    · exact hnone hc
  case dispatch hd _ _ _ =>
    rcases (State.pausing_iff.mp hpausing).1 with hp | hp <;> rw [hp] at hd <;> cases hd
  all_goals exact hnone hc

/-- Commands are queued by a `request_cancel`, which goes on to notify. -/
theorem Move.commands (hm : Move cfg σ a τ) {k : CancelCommand} (hk : k ∈ τ.data.cancelQueue) :
    k ∈ σ.data.cancelQueue ∨
      ∃ b d, σ.calls b = some (.requestCancel .sweep k.state d) ∧ τ.calls b = some .notify := by
  cases hm
  case sweep b s d order hcall _ _ horder =>
    rcases List.mem_append.mp hk with hk | hk
    · exact .inl hk
    · obtain ⟨c, -, -, heq⟩ := mem_cancelCommands horder hk
      obtain rfl : k.state = s := congrArg CancelCommand.state heq
      exact .inr ⟨b, d, hcall, Function.update_self _ _ _⟩
  case stageCancellation hy =>
    rcases stageCancellation_cases hy with rfl | ⟨_, _, hqueue, _, rfl⟩
    · exact .inl hk
    · exact .inl (by rw [hqueue]; exact List.mem_cons_of_mem _ hk)
  case stageOwnedCancellation hy =>
    rcases stageOwnedCancellation_cases hy with rfl | ⟨_, _, _, _, rfl⟩ <;> exact .inl hk
  case stageOwned hy =>
    rcases stageOwned_cases hy with ⟨-, rfl⟩ | ⟨op, x, hx, hy⟩
    · exact .inl hk
    · have hx : x.data.cancelQueue = σ.data.cancelQueue := by
        rcases popOwned_cases hx with ⟨_, _, rfl⟩ | ⟨_, _, _, rfl⟩ <;> rfl
      rcases hy with ⟨_, rfl⟩ | rfl | ⟨-, -, rfl⟩ <;> exact .inl (hx ▸ hk)
  case originalStaged hy =>
    obtain ⟨-, rfl⟩ := stageOriginal_staged hy
    exact .inl hk
  case accept hy =>
    rcases acceptStaged_cases hy with ⟨_, _, _, _, _, _, rfl⟩ | ⟨_, _, _, _, _, _, rfl⟩ |
      ⟨_, _, _, _, _, _, rfl⟩ <;> exact .inl hk
  case dispatch hy => exact .inl ((dispatch_queues hy).2.1 ▸ hk)
  all_goals exact .inl hk

/-- Whatever is there under a pausing driver stays covered. -/
theorem Reachable.covered_of_move (hσ : Reachable cfg ok σ) (hm : Move cfg σ a τ)
    (hann : Announced σ a) (hpausing : σ.pausing = true) (hτ : τ.pausing = true)
    (h : σ.Covered) : τ.Covered := by
  have hA := Allocated.of_reachable hσ
  have hT := Threads.of_reachable hσ
  have hS := Staging.of_reachable hσ
  have hregistry := registry_move hA (.of_reachable hσ) hm
  exact
    -- Whatever there is to do was so before, or the step that brings it owes a notification.
    { originals := by
        intro p c hc hkind
        rcases hregistry.context_cases hc with ⟨x, hx, hstate, hk, -⟩ | ⟨hfresh, -⟩ |
          ⟨-, command, -, rfl⟩
        · rw [← hstate]
          rw [← hk] at hkind
          exact hσ.owes_of_move hm hann hpausing hτ hx hkind (h.originals p x hx hkind)
        · exact hm.staged hpausing hfresh.contexts hc hkind
        · cases hkind
      cancels := by
        intro p c hc hkind
        rcases hregistry.context_cases hc with ⟨x, hx, hstate, hk, -⟩ | ⟨-, hk, -⟩ |
          ⟨-, command, hcommand, rfl⟩
        · rw [← hstate]
          exact (h.cancels p x hx (hk.trans hkind)).move hT hm hτ
        · rw [hk] at hkind
          cases hkind
        · exact (h.commands command hcommand).move hT hm hτ
      commands := by
        intro k hk
        rcases hm.commands hk with hk | ⟨b, d, hb, hb'⟩
        · exact (h.commands k hk).move hT hm hτ
        · cases b with
          | client s =>
            obtain rfl : k.state = s := (hb ▸ hT.fits s).target_eq
            exact .inl hb'
          | owner => exact .inr hb'
          | op c =>
            have := hT.op c
            rw [hb] at this
            cases this
          | driver =>
            obtain ⟨rest, backlog, hd⟩ := Overflowing.of_reachable hσ (by rw [hb]; simp)
            rcases (State.pausing_iff.mp hpausing).1 with hp | hp <;> rw [hp] at hd <;> cases hd
      owned := hm.unowned hS hpausing h.owned
      queue := hm.queueing hS hpausing hτ h.queue
      shutdown := hm.announcing hτ h.shutdown }

/-- In a run without forgotten panics, a pausing driver has nothing to do that it will not be told
of. -/
theorem State.Covered.of_reachable (h : Reachable cfg Announced σ) (hpausing : σ.pausing = true) :
    σ.Covered := by
  have hboth : Reachable cfg Announced σ ∧ (σ.pausing = true → σ.Covered) := by
    refine Lts.Reaches.invariant
      (I := fun σ => Reachable cfg Announced σ ∧ (σ.pausing = true → σ.Covered)) h
      ⟨.refl, fun hp => by cases hp⟩ ?_
    rintro σ τ a ⟨hσ, hI⟩ hok hstep
    refine ⟨hσ.tail hok hstep, fun hτ => ?_⟩
    have hm := move_of_step hstep
    rcases hm.pausing hτ with hp | hcovered
    · exact hσ.covered_of_move hm hok hp hτ (hI hp)
    · exact hcovered
  exact hboth.2 hpausing

/-! ## The result -/

/-- The driver never sleeps on work. -/
structure State.SleepsIdle (cfg : PreparedRing) (σ : State) : Prop where
  /-- A driver that shows as asleep was not notified. -/
  notified : σ.gate.phase = .paused ∨ σ.gate.phase = .deadlineWait → σ.gate.notified = false
  /-- Whatever there is to do while it is paused, a producer has still to notify it of. -/
  idle : σ.gate.phase = .paused → σ.Covered
  /-- What is staged then belongs to the registered contexts. -/
  staged : σ.gate.phase = .paused → ∀ k ∈ σ.data.staged,
    ∃ p c, k = .raw p ∧ σ.data.contexts.lookup p = some c
  /-- It shows as paused in a pause, and as waiting for a deadline in a wait. -/
  committed : (σ.gate.phase = .paused → σ.driver = .native .pause) ∧
    (σ.gate.phase = .deadlineWait → σ.driver = .native .wait ∨ σ.driver = .resumed)
  /-- Until it parks again it is woken at most once, and in the way it parked. -/
  once : ∀ τ, Lts.Reaches (step cfg) (fun _ a => a ≠ .park) σ τ → σ.WakesTo τ

/-- Unless an iterator that panicked is asked once more and ends, the driver never sleeps on work:
while it is paused, everything there is to do is what some producer has still to call `notify` for,
and that call wakes it, once. -/
theorem never_sleeps_on_work (h : Reachable cfg Announced σ) : σ.SleepsIdle cfg := by
  have hparked := Parked.of_reachable h
  have hcovered : σ.gate.phase = .paused → σ.Covered := fun hp =>
    .of_reachable h (State.pausing_iff.mpr ⟨.inr (hparked.paused hp), hparked.asleep (.inl hp)⟩)
  refine ⟨hparked.asleep, hcovered, fun hp k hk => ?_, ⟨hparked.paused, hparked.deadline⟩,
    fun τ hτ => ?_⟩
  · have hphase := ((DriverData.Sound.of_reachable h).staged_iff k).mp hk
    obtain ⟨howned, hcancels, -⟩ := (hcovered hp).owned
    cases k with
    | raw p =>
      obtain ⟨c, hc, -⟩ := Option.map_eq_some_iff.mp hphase
      exact ⟨p, c, rfl, hc⟩
    | owned p =>
      rw [DriverData.phase?, howned] at hphase
      cases hphase
    | ownedCancel p =>
      rw [DriverData.phase?, hcancels] at hphase
      cases hphase
  · exact .of_run (hτ.mono fun _ _ hne => ⟨trivial, hne⟩)

/-- The driver finds nothing to do and pauses. -/
def idlePass : List Action :=
  [.passBegin, .stageCancellation 10, .stageOwnedCancellation 10, .stageOwned 10, .submit (.ok 0),
    .accept, .wakeAdmission, .wakeAdmission, .failOwned, .reap, .dispatch, .cancelOverflow,
    .decide, .park]

/-- A future stages the only entry of its iterator, which then panics. -/
def panickedStream : List Action :=
  [.registerSubmission, .openSubmission 0] ++ idlePass ++
    [.pollSubmit 0 7, .stageCancellation 10, .iteratorNext (some ⟨.raw 0, 99⟩), .stageOriginal 10,
      .iteratorPanic]

/-- The driver sleeps on, and the future has still to announce the entry. -/
theorem never_sleeps_on_work_tiny :
    ∃ σ, Reachable .tiny Announced σ ∧ σ.gate.phase = .paused ∧
      σ.data.staged = [.raw 10] ∧ σ.SleepsIdle .tiny := by
  have hrun : (Lts.exec (step .tiny) Announced panickedStream (.init .tiny)).any
      (fun σ => σ.gate.phase = .paused ∧ σ.data.staged = [.raw 10]) = true := by decide
  obtain ⟨σ, hσ, hphase, hstaged⟩ := Lts.exists_of_exec hrun
  exact ⟨σ, hσ, hphase, hstaged, never_sleeps_on_work hσ⟩

/-- Polled once more, the future resolves to its stream without a `notify`: the driver sleeps on
an entry the kernel has, and nobody is about to tell it. -/
theorem sleeps_on_work :
    ∃ σ, Reachable .tiny Lts.Always σ ∧ σ.gate.phase = .paused ∧
      (σ.clients 0).role = .stream ∧ σ.calls (.client 0) = none ∧ σ.crit = none ∧
      σ.data.contexts.any (fun _ c => c.kind == .original && c.phase == .submitted) = true ∧
      ¬ σ.SleepsIdle .tiny := by
  have hrun : (Lts.exec (step .tiny) Lts.Always (panickedStream ++
      [.pollSubmit 0 7, .stageCancellation 20, .iteratorNext none, .submit (.ok 1), .accept,
        .accept, .checkSubmit 0]) (.init .tiny)).any
      (fun σ => σ.gate.phase = .paused ∧ (σ.clients 0).role = .stream ∧
        σ.calls (.client 0) = none ∧ σ.crit = none ∧
        σ.data.contexts.any (fun _ c => c.kind == .original && c.phase == .submitted) = true ∧
        (σ.data.contexts.lookup 10).any (fun c => c.kind == .original && c.state == 0) = true) =
      true := by decide
  -- Nobody owes a notification: not the caller, which has its stream, and nobody is in `admit`.
  obtain ⟨σ, hσ, hphase, hrole, hcall, hcrit, hany, hlookup⟩ := Lts.exists_of_exec hrun
  refine ⟨σ, hσ, hphase, hrole, hcall, hcrit, hany, fun hsleeps => ?_⟩
  obtain ⟨c, hc, hkey⟩ := (Option.any_eq_true _ _).mp hlookup
  simp only [Bool.and_eq_true, beq_iff_eq] at hkey
  have howes := (hsleeps.idle hphase).originals 10 c hc hkey.1
  rw [hkey.2] at howes
  rcases howes with howes | ⟨fut, howes, -⟩ | ⟨w, n, stage, howes, -⟩
  · rw [hcall] at howes
    cases howes
  · rw [hrole] at howes
    cases howes
  · rw [hcrit] at howes
    cases howes

end Nosv.IoUring
