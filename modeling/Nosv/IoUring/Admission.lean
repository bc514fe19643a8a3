import Nosv.IoUring.Delivery

/-!
# Admission

What `SubmitEntries` does with the iterator: items are staged in order, each under the index it was
yielded with and its own `user_data`, whatever becomes of the pushes. `Ok` means that everything was
staged and accepted, provided the iterator yields nothing once it has returned `None`: the future
polls it again, and an item that comes then may be dropped unseen.

* `admission_conserves`: with such an iterator nothing is lost or reordered;
* `admission_drops_item`: without the condition an item is.
-/

namespace Nosv.IoUring

variable {cfg : PreparedRing} {ok : State → Action → Prop} {σ τ : State} {s : SubId}

/-! ## Items and indices -/

/-- The items with their indices. -/
def indexed (items : List Sqe) : List (ℕ × Sqe) := items.mapIdx Prod.mk

@[simp]
theorem indexed_nil : indexed [] = [] := rfl

@[simp]
theorem indexed_append (items : List Sqe) (e : Sqe) :
    indexed (items ++ [e]) = indexed items ++ [(items.length, e)] :=
  List.mapIdx_concat

@[simp]
theorem indexed_length (items : List Sqe) : (indexed items).length = items.length :=
  List.length_mapIdx

/-- An indexed item is the item at that index. -/
theorem mem_indexed {items : List Sqe} {x : ℕ × Sqe} (h : x ∈ indexed items) :
    items[x.1]? = some x.2 := by
  obtain ⟨i, hi, rfl⟩ := List.mem_mapIdx.mp h
  simp [hi]

/-! ## The iterator -/

/-- Whether the iterator about to be asked for an item has already returned `None`. -/
def State.ended (σ : State) : Bool :=
  match σ.crit with
  | some (.admission s _ _, _) => (σ.subs s).inner.iteratorFinished
  | _ => false

/-- Whether the action is an iterator yielding an item. -/
def Action.yields : Action → Bool
  | .iteratorNext next => next.isSome
  | _ => false

/-- No iterator yields an item after it has returned `None`. -/
def Fused (σ : State) (a : Action) : Prop := (σ.ended && a.yields) = false

instance (σ : State) (a : Action) : Decidable (Fused σ a) := inferInstanceAs (Decidable (_ = _))

/-- The iterator being asked is that of the submission being admitted. -/
theorem State.ended_of_admits (h : σ.admits s = true) :
    σ.ended = (σ.subs s).inner.iteratorFinished := by
  unfold State.admits at h
  obtain ⟨⟨holder, stage⟩, hc, hs⟩ := (Option.any_eq_true _ _).mp h
  cases holder with
  | admission t w n =>
    obtain rfl : t = s := by simpa [Holder.admits] using hs
    simp [State.ended, hc]
  | pass => cases hs

/-- A fused iterator that yields has not ended. -/
theorem Fused.not_finished {e : Sqe} (h : Fused σ (.iteratorNext (some e)))
    (ha : σ.admits s = true) : (σ.subs s).inner.iteratorFinished = false := by
  rw [← State.ended_of_admits ha]
  simpa [Fused, Action.yields] using h

/-! ## The invariant -/

namespace View

/-- How far admission of the submission has come. -/
structure Admission (x : View) : Prop where
  /-- Nothing is yielded before there is a future. -/
  early : x.client.role = .unborn ∨ x.client.role = .created →
    x.history.yielded = [] ∧ x.history.staged = []
  /-- What was yielded is staged, but for the item in hand. -/
  live : ∀ fut, x.client.role = .submit fut →
    x.history.staged ++ fut.pending.toList = indexed x.history.yielded ∧
      fut.nextIndex = x.history.yielded.length
  staged : x.history.staged <+: indexed x.history.yielded
  /-- The future resolves once. -/
  resolved : x.history.outcome ≠ none → x.client.role = .stream ∨ x.client.role.closed = true

/-- The future of a fused iterator has everything it was asked to admit admitted. -/
structure Admitted (x : View) : Prop where
  /-- No item is in hand once the iterator has ended. -/
  pending : ∀ fut, x.client.role = .submit fut → x.inner.iteratorFinished = true →
    fut.pending = none
  ok : x.history.outcome = some (.ok ()) →
    x.inner.iteratorFinished = true ∧ x.history.staged = indexed x.history.yielded ∧
      x.inner.originals ≤ x.inner.accepted

variable {x y : View} {a : Action}

/-- A step that does not move the caller on keeps admission where it is. -/
theorem Admission.frame (h : x.Admission) (hrole : y.client.role = x.client.role)
    (hyielded : y.history.yielded = x.history.yielded)
    (hstaged : y.history.staged = x.history.staged)
    (houtcome : y.history.outcome = x.history.outcome) : y.Admission := by
  obtain ⟨hearly, hlive, hprefix, hresolved⟩ := h
  refine ⟨?_, ?_, ?_, ?_⟩
  · rwa [hrole, hyielded, hstaged]
  · rwa [hrole, hyielded, hstaged]
  · rwa [hyielded, hstaged]
  · rwa [hrole, houtcome]

/-- Once the future is gone, admission is over. -/
theorem Admission.over (h : x.Admission)
    (hrole : y.client.role = .stream ∨ y.client.role.closed = true)
    (hyielded : y.history.yielded = x.history.yielded)
    (hstaged : y.history.staged = x.history.staged) : y.Admission where
  early := by
    rintro (hr | hr) <;> rw [hr] at hrole <;> simp [Role.closed] at hrole
  live := by
    intro fut hr
    rw [hr] at hrole
    simp [Role.closed] at hrole
  staged := by
    rw [hyielded, hstaged]
    exact h.staged
  resolved := fun _ => hrole

/-- Every step keeps the staged originals a prefix of the items. -/
theorem Admission.step (h : x.Admission) (hs : x.Step s a y) : y.Admission := by
  cases hs
  case other hclient _ hhistory _ _ _ =>
    exact h.frame (by rw [hclient]) (by rw [hhistory]) (by rw [hhistory]) (by rw [hhistory])
  case register hrole =>
    exact {
      early := fun _ => h.early (.inl hrole)
      live := fun fut hr => by cases hr
      staged := h.staged
      resolved := fun hr => by simpa [hrole, Role.closed] using h.resolved hr }
  case opened hrole =>
    obtain ⟨hyielded, hstaged⟩ := h.early (.inr hrole)
    exact {
      early := fun hr => by simp at hr
      live := fun fut hr => by
        cases hr
        simp [hyielded, hstaged]
      staged := h.staged
      resolved := fun hr => by simpa [hrole, Role.closed] using h.resolved hr }
  case submitFailed | dropSubmit | cancelStream | dropStream | dropCancellation =>
    exact h.over (.inr rfl) rfl rfl
  case submitOk => exact h.over (.inl rfl) rfl rfl
  case submitPending hrole _ _ _ _ _ => exact h.frame hrole.symm rfl rfl rfl
  -- The item in hand comes after everything staged.
  case iteratorSome fut entry hadmits hrole hpending hindex =>
    obtain ⟨hstaged, hnext⟩ := h.live fut hrole
    rw [hpending, Option.toList_none, List.append_nil] at hstaged
    exact {
      early := fun hr => by simp at hr
      live := fun fut' hr => by
        cases hr
        simp [hstaged, hnext]
      staged := by
        rw [indexed_append]
        exact h.staged.trans (List.prefix_append ..)
      resolved := fun hr => by simpa [hrole, Role.closed] using h.resolved hr }
  -- The item in hand is staged under its own index.
  case staged fut item p hadmits hrole hpending =>
    obtain ⟨hstaged, hnext⟩ := h.live fut hrole
    rw [hpending, Option.toList_some] at hstaged
    exact {
      early := fun hr => by simp at hr
      live := fun fut' hr => by
        cases hr
        simpa using ⟨hstaged, hnext⟩
      staged := by rw [hstaged]
      resolved := fun hr => by simpa [hrole, Role.closed] using h.resolved hr }
  all_goals exact h.frame rfl rfl rfl rfl

/-- A step that does not move the caller on, nor its counters back, leaves what was admitted. -/
theorem Admitted.frame (h : x.Admitted) (hrole : y.client.role = x.client.role)
    (hhistory : y.history.yielded = x.history.yielded ∧ y.history.staged = x.history.staged ∧
      y.history.outcome = x.history.outcome)
    (hfinished : y.inner.iteratorFinished = x.inner.iteratorFinished)
    (horiginals : y.inner.originals = x.inner.originals)
    (haccepted : x.inner.accepted ≤ y.inner.accepted) : y.Admitted := by
  obtain ⟨hpending, hok⟩ := h
  obtain ⟨hyielded, hstaged, houtcome⟩ := hhistory
  constructor
  · rwa [hrole, hfinished]
  · rw [houtcome, hfinished, hyielded, hstaged, horiginals]
    intro ho
    obtain ⟨h1, h2, h3⟩ := hok ho
    exact ⟨h1, h2, h3.trans haccepted⟩

/-- A step that leaves the counters alone, as most do. -/
theorem Admitted.same (h : x.Admitted) (hrole : y.client.role = x.client.role)
    (hhistory : y.history.yielded = x.history.yielded ∧ y.history.staged = x.history.staged ∧
      y.history.outcome = x.history.outcome)
    (hfinished : y.inner.iteratorFinished = x.inner.iteratorFinished)
    (hcounters : y.inner.toCounters = x.inner.toCounters) : y.Admitted :=
  h.frame hrole hhistory hfinished (congrArg Counters.originals hcounters)
    (congrArg Counters.accepted hcounters).ge

/-- Once the future is gone, only how it resolved matters. -/
theorem Admitted.over (hrole : ∀ fut, y.client.role ≠ .submit fut)
    (hok : y.history.outcome = some (.ok ()) →
      y.inner.iteratorFinished = true ∧ y.history.staged = indexed y.history.yielded ∧
        y.inner.originals ≤ y.inner.accepted) : y.Admitted :=
  ⟨fun fut hr => absurd hr (hrole fut), hok⟩

/-- A step in which no ended iterator yields keeps `Ok` meaning that everything was admitted. -/
theorem Admitted.step (h : x.Admitted) (hA : x.Admission)
    (hf : ∀ e, a = .iteratorNext (some e) → x.admits = true → x.inner.iteratorFinished = false)
    (hs : x.Step s a y) : y.Admitted := by
  -- While there is a future it has not resolved.
  have hunresolved : x.client.role ≠ .stream → x.client.role.closed = false →
      x.history.outcome = none := by
    intro hstream hclosed
    by_contra hne
    rcases hA.resolved hne with hr | hr
    · exact hstream hr
    · rw [hr] at hclosed
      cases hclosed
  cases hs
  case other hinner _ hclient _ hhistory _ _ _ =>
    exact h.same (by rw [hclient]) (by simp [hhistory]) (by rw [hinner]) (by rw [hinner])
  case register hrole | dropSubmit | cancelStream | dropStream | dropCancellation =>
    exact .over (fun _ hr => by cases hr) h.ok
  case opened hrole =>
    refine ⟨fun fut hr _ => by cases hr; rfl, fun ho => ?_⟩
    rw [show x.history.outcome = none from
      hunresolved (by simp [hrole]) (by simp [hrole, Role.closed])] at ho
    cases ho
  case submitFailed => exact .over (fun _ hr => by cases hr) fun ho => by cases ho
  case submitOk fut hrole hpc hx hclosed hopen hfin hacc =>
    refine .over (fun _ hr => by cases hr) fun _ => ⟨hfin, ?_, hacc.ge⟩
    -- No item is left behind when the iterator has ended.
    have hstaged := (hA.live fut hrole).1
    rwa [h.pending fut hrole hfin, Option.toList_none, List.append_nil] at hstaged
  case submitPending hrole _ _ _ _ _ => exact h.same hrole.symm ⟨rfl, rfl, rfl⟩ rfl rfl
  case nextReady w r st hrole hnext =>
    rcases nextCompletion_ready hnext with ⟨c, rest, -, -, rfl⟩ | ⟨-, -, -, rfl⟩ | ⟨-, -, -, rfl, -⟩
    all_goals exact h.same rfl ⟨rfl, rfl, rfl⟩ rfl rfl
  case nextPending w st hrole hnext =>
    obtain ⟨-, -, -, -, rfl⟩ := nextCompletion_pending hnext
    exact h.same rfl ⟨rfl, rfl, rfl⟩ rfl rfl
  case cancellationReady w r st hrole hx hnext =>
    rcases nextCancellation_ready hnext with ⟨c, rest, -, -, rfl⟩ | ⟨-, -, -, rfl⟩ |
      ⟨-, -, -, rfl, -⟩
    all_goals exact h.same rfl ⟨rfl, rfl, rfl⟩ rfl rfl
  case cancellationPending w st hrole hx hnext =>
    obtain ⟨-, -, -, rfl⟩ := nextCancellation_pending hnext
    exact h.same rfl ⟨rfl, rfl, rfl⟩ rfl rfl
  case close d hx =>
    exact h.same rfl ⟨rfl, rfl, rfl⟩ (by rw [closeDelivery_eq]) (closeDelivery_counters ..)
  case ownerClose =>
    exact h.same rfl ⟨rfl, rfl, rfl⟩ (by rw [closeDelivery_eq]) (closeDelivery_counters ..)
  case sweep => exact h.frame rfl ⟨rfl, rfl, rfl⟩ rfl rfl (Nat.le_refl _)
  -- The iterator yields, so it had not ended before.
  case iteratorSome fut entry hadmits hrole hpending hindex =>
    have hnot := hf entry rfl hadmits
    refine ⟨fun _ _ hfin => ?_, fun ho => ?_⟩
    · rw [hnot] at hfin
      cases hfin
    · rw [show x.history.outcome = none from
        hunresolved (by simp [hrole]) (by simp [hrole, Role.closed])] at ho
      cases ho
  case iteratorNone fut hadmits hrole hpending =>
    refine ⟨fun fut' hr _ => ?_, fun ho => ?_⟩
    · obtain rfl : fut' = fut := by
        rw [hrole] at hr
        cases hr
        rfl
      exact hpending
    · rw [show x.history.outcome = none from
        hunresolved (by simp [hrole]) (by simp [hrole, Role.closed])] at ho
      cases ho
  case staged fut item p hadmits hrole hpending =>
    refine ⟨fun fut' hr _ => by cases hr; rfl, fun ho => ?_⟩
    rw [show x.history.outcome = none from
      hunresolved (by simp [hrole]) (by simp [hrole, Role.closed])] at ho
    cases ho
  case accept => exact h.frame rfl ⟨rfl, rfl, rfl⟩ rfl rfl (Nat.le_succ _)
  case wakeAdmission => exact h.same rfl ⟨rfl, rfl, rfl⟩ (by rw [wakeUnfinished_eq]) (by simp)
  case original c m _ =>
    refine h.frame rfl ⟨rfl, rfl, rfl⟩ (by rw [dispatchOriginal_inner]) ?_ ?_
    all_goals rw [dispatchOriginal_inner]
  case cancel c _ =>
    refine h.frame rfl ⟨rfl, rfl, rfl⟩ (by rw [dispatchCancel_inner]) ?_ ?_
    all_goals rw [dispatchCancel_inner]
  all_goals exact h.same rfl ⟨rfl, rfl, rfl⟩ rfl rfl

end View

/-- Admission is where it should be in every reachable state. -/
theorem View.Admission.of_reachable (h : Reachable cfg ok σ) (s : SubId) :
    (σ.view s).Admission := by
  refine h.view_inv (I := fun _ x => x.Admission) (fun t => ?_) (fun _ _ hI _ hs => hI.step hs) s
  exact ⟨fun _ => ⟨rfl, rfl⟩, fun fut hr => (by cases hr), List.nil_prefix, fun h => absurd rfl h⟩

/-- With fused iterators, `Ok` means that everything was admitted, in every reachable state. -/
theorem View.Admitted.of_reachable (h : Reachable cfg Fused σ) (s : SubId) :
    (σ.view s).Admitted := by
  have hboth : (σ.view s).Admission ∧ (σ.view s).Admitted := by
    refine h.view_inv (I := fun _ x => x.Admission ∧ x.Admitted) (fun t => ?_) ?_ s
    · exact ⟨.of_reachable (Lts.Reaches.refl : Reachable cfg Fused _) t,
        fun fut hr => (by cases hr), fun ho => (by cases ho)⟩
    · intro σ a s y _ _ hI hok hs
      refine ⟨hI.1.step hs, hI.2.step hI.1 (fun e he hadmits => ?_) hs⟩
      subst he
      exact hok.not_finished hadmits
  exact hboth.2

/-! ## The result -/

/-- Submission `s` has staged and accepted what its iterator yielded, in order. -/
structure State.Conserves (σ : State) (s : SubId) : Prop where
  /-- The originals staged are the first items, item `i` under index `i`. -/
  staged : (σ.history s).staged <+: indexed (σ.history s).yielded
  originals : (σ.subs s).inner.originals = (σ.history s).staged.length
  /-- `Ok` means that all items were staged and accepted, and that the iterator had ended. -/
  ok : (σ.history s).outcome = some (.ok ()) →
    (σ.subs s).inner.iteratorFinished = true ∧
      (σ.history s).staged = indexed (σ.history s).yielded ∧
      (σ.subs s).inner.originals = (σ.history s).yielded.length ∧
      (σ.subs s).inner.accepted = (σ.history s).yielded.length
  /-- What was accepted had been staged. -/
  accepted : (σ.subs s).inner.accepted = (σ.history s).accepted.length ∧
    (σ.subs s).inner.accepted ≤ (σ.subs s).inner.originals ∧
      ∀ i ∈ (σ.history s).accepted, i < (σ.history s).staged.length
  /-- A completion carries the `user_data` of the item at its index. -/
  completions : ∀ c, some (.ok c) ∈ (σ.history s).received ∨
      some (.ok c) ∈ (σ.history s).cancelReceived →
    ∃ e, (σ.history s).yielded[c.index]? = some e ∧ c.cqe.userData = e.userData

/-- A key that was staged is the index and the `user_data` of an item. -/
theorem View.Admission.item_of_key (h : (σ.view s).Admission) {k : ℕ × ℕ}
    (hk : k ∈ (σ.registry.keys s).staged) :
    ∃ e, (σ.history s).yielded[k.1]? = some e ∧ k.2 = e.userData := by
  obtain ⟨x, hx, rfl⟩ := List.mem_map.mp hk
  exact ⟨x.2, mem_indexed (h.staged.subset hx), rfl⟩

/-- The indices staged are those of a prefix. -/
theorem View.Admission.index_lt (h : (σ.view s).Admission) {i : ℕ}
    (hi : i ∈ (σ.registry.keys s).staged.map Prod.fst) : i < (σ.history s).staged.length := by
  obtain ⟨k, hk, rfl⟩ := List.mem_map.mp hi
  obtain ⟨x, hx, rfl⟩ := List.mem_map.mp hk
  obtain ⟨j, hj, rfl⟩ := List.mem_iff_getElem.mp hx
  -- The item staged at position `j` is the one indexed `j`.
  have hget := h.staged.getElem hj
  have : ((σ.history s).staged[j]).1 = j := by
    rw [show (σ.history s).staged[j] = _ from hget]
    simp [indexed]
  simpa [this] using hj

/-- Admission conserves an iterator that is fused. The originals staged are a prefix of its items;
`Ok` means that all of them were staged and accepted; what was accepted had been staged; and every
completion delivered carries the `user_data` of the item at its index. -/
theorem admission_conserves (h : Reachable cfg Fused σ) : σ.Conserves s := by
  have hadmission := View.Admission.of_reachable h s
  have hadmitted := View.Admitted.of_reachable h s
  have hbuffered := View.Buffered.of_reachable h s
  have hA := Registry.Accounts.of_reachable h
  have hL := Registry.Labels.of_reachable h
  have horiginals : (σ.subs s).inner.originals = (σ.history s).staged.length :=
    (hA.staged s).trans (List.length_map ..)
  have hle : (σ.subs s).inner.accepted ≤ (σ.subs s).inner.originals := (hA.le s).1
  refine ⟨hadmission.staged, horiginals, fun hok => ?_, ⟨hA.acceptedKeys s, hle, ?_⟩, ?_⟩
  · obtain ⟨hfinished, hstaged, hall⟩ := hadmitted.ok hok
    have hstaged : (σ.history s).staged = indexed (σ.history s).yielded := hstaged
    have hall : (σ.subs s).inner.originals ≤ (σ.subs s).inner.accepted := hall
    have hlength := congrArg List.length hstaged
    rw [indexed_length] at hlength
    exact ⟨hfinished, hstaged, by omega, by omega⟩
  · exact fun i hi => hadmission.index_lt (hL.accepted s i hi)
  · rintro c (hc | hc)
    · have hdispatched : c ∈ (σ.history s).dispatched :=
        hbuffered.normal.subset (List.mem_append_left _ (mem_oks.mpr hc))
      exact hadmission.item_of_key (hL.dispatched s _ (List.mem_map_of_mem hdispatched))
    · have hcancelled : c ∈ (σ.history s).cancelled :=
        hbuffered.cancellations.subset (List.mem_append_left _ (mem_oks.mpr hc))
      exact hadmission.item_of_key (hL.cancelled s _ (List.mem_map_of_mem hcancelled))

/-- The second item of a fused iterator finds the SQ full, and is staged by the next poll. The
kernel completes it before the first. -/
def refilledStream : List Action :=
  [.registerSubmission, .openSubmission 0, .pollSubmit 0 7, .stageCancellation 10,
    .iteratorNext (some ⟨.raw 0, 99⟩), .stageOriginal 10, .iteratorNext (some ⟨.raw 1, 98⟩),
    .stageOriginal 20, .submit (.ok 1), .accept, .accept, .notify (.client 0), .checkSubmit 0,
    .notify (.client 0), .pollSubmit 0 7, .stageCancellation 20, .stageOriginal 20,
    .iteratorNext none, .submit (.ok 1), .accept, .accept, .notify (.client 0), .checkSubmit 0,
    .passBegin, .stageCancellation 30, .stageOwnedCancellation 30, .stageOwned 30, .submit (.ok 0),
    .accept, .wakeAdmission, .wakeAdmission, .failOwned, .kernelPost ⟨20, 6, 0⟩,
    .kernelPost ⟨10, 5, 0⟩, .reap, .dispatch, .dispatch, .pollCompletion 0 8, .pollCompletion 0 8]

/-- Both items are staged in their order, and each completion has the index of its own. -/
theorem admission_conserves_tiny :
    ∃ σ, Reachable .tiny Fused σ ∧ (σ.history 0).outcome = some (.ok ()) ∧
      (σ.history 0).staged = [(0, ⟨.raw 0, 99⟩), (1, ⟨.raw 1, 98⟩)] ∧
      (σ.history 0).received = [some (.ok ⟨1, ⟨98, 6, 0⟩⟩), some (.ok ⟨0, ⟨99, 5, 0⟩⟩)] ∧
      σ.Conserves 0 := by
  have hrun : (Lts.exec (step .tiny) Fused refilledStream (.init .tiny)).any
      (fun σ => (σ.history 0).outcome = some (.ok ()) ∧
        (σ.history 0).staged = [(0, ⟨.raw 0, 99⟩), (1, ⟨.raw 1, 98⟩)] ∧
        (σ.history 0).received = [some (.ok ⟨1, ⟨98, 6, 0⟩⟩), some (.ok ⟨0, ⟨99, 5, 0⟩⟩)]) =
      true := by decide
  obtain ⟨σ, hσ, houtcome, hstaged, hreceived⟩ := Lts.exists_of_exec hrun
  exact ⟨σ, hσ, houtcome, hstaged, hreceived, admission_conserves hσ⟩

/-- An iterator that returned `None` yields again while the SQ is full. -/
def resumedStream : List Action :=
  [.registerSubmission, .openSubmission 0, .pollSubmit 0 7, .stageCancellation 10,
    .iteratorNext (some ⟨.raw 0, 99⟩), .stageOriginal 10, .iteratorNext none, .submit (.error 11),
    .accept, .notify (.client 0), .checkSubmit 0, .notify (.client 0), .pollSubmit 0 7,
    .stageCancellation 20, .iteratorNext (some ⟨.raw 1, 98⟩), .stageOriginal 20, .submit (.ok 1),
    .accept, .accept, .notify (.client 0), .checkSubmit 0]

/-- The second item of such an iterator is neither staged nor handed back, and the future resolves
`Ok`. -/
theorem admission_drops_item :
    ∃ σ, Reachable .tiny Lts.Always σ ∧ (σ.history 0).outcome = some (.ok ()) ∧
      (σ.history 0).yielded = [⟨.raw 0, 99⟩, ⟨.raw 1, 98⟩] ∧
      (σ.history 0).staged = [(0, ⟨.raw 0, 99⟩)] ∧ ¬ σ.Conserves 0 := by
  have hrun : (Lts.exec (step .tiny) Lts.Always resumedStream (.init .tiny)).any
      (fun σ => (σ.history 0).outcome = some (.ok ()) ∧
        (σ.history 0).yielded = [⟨.raw 0, 99⟩, ⟨.raw 1, 98⟩] ∧
        (σ.history 0).staged = [(0, ⟨.raw 0, 99⟩)]) = true := by decide
  obtain ⟨σ, hσ, houtcome, hyielded, hstaged⟩ := Lts.exists_of_exec hrun
  refine ⟨σ, hσ, houtcome, hyielded, hstaged, fun hconserves => ?_⟩
  have hall := (hconserves.ok houtcome).2.1
  rw [hyielded, hstaged] at hall
  simp [indexed] at hall

end Nosv.IoUring
