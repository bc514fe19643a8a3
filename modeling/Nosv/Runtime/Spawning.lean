import Nosv.Runtime.Machine

/-!
# Spawning against shutdown

The registry is the set of submitted tasks whose completed callback has not finished. Once the
lifecycle has left `Running` it only shrinks, so the snapshot of shutdown covers it for good, and
when it is empty every descriptor there ever was is destroyed.

* `Wf.of_reachable`: the registry, the snapshot and the tasks agree;
* `Wf.closing`: the registry only shrinks;
* `spawn_linearizes`: a spawn takes effect at one point, before or after shutdown has begun.
-/

namespace Nosv

variable {T P W : Type} [DecidableEq W] {pid : Pid}

/-! ## One task -/

namespace Task

variable {σ τ : State T P W} {a : Action T P W}

/-- The task has an abort request or is past `Live`. -/
def State.Aborted (σ : State T P W) : Prop :=
  σ.gate.cancelRequested = true ∨ σ.gate.phase ≠ .live

/-- Once published, the result stays so. -/
def State.Completed (σ : State T P W) : Prop :=
  σ.pc = .unregistering ∨ σ.pc = .done → σ.join.nativeCompleted = true

/-- Dropping the future does not finish the completed callback. -/
@[simp]
theorem Cleanup.next_ne_done (why : Cleanup T P) (panic : Option P) : why.next panic ≠ .done := by
  intro h
  have hstage := why.next_stage panic
  rw [h] at hstage
  cases hstage

/-- No cleanup leads to the publication of a result. -/
@[simp]
theorem Cleanup.next_ne_unregistering (why : Cleanup T P) (panic : Option P) :
    why.next panic ≠ .unregistering := by
  intro h
  have hstage := why.next_stage panic
  rw [h] at hstage
  cases hstage

/-- Only `task_completed` finishes the completed callback. -/
theorem Move.done_iff (hm : Move pid σ a τ) (hne : a ≠ .unregister) :
    τ.pc = .done ↔ σ.pc = .done := by
  cases hm with
  | unregister => exact absurd rfl hne
  | wakeNone | wake | abortNone | abortQuiet | abort | joinPoll | dropRuntime => exact Iff.rfl
  | upgrade hpc | store hpc | leave hpc =>
    rw [hpc]
    split <;> simp
  | finishReady hpc =>
    rw [hpc]
    simp
  | dropFuture hpc =>
    rw [hpc]
    simp
  | unwind hpc => obtain ⟨result, hpc⟩ | hpc := hpc <;> simp [hpc]
  | enter hpc | startPoll hpc | startCancelled hpc | unavailable hpc | poll hpc | finishPending hpc
  | finishCancelled hpc | finishPanicked hpc | suspend hpc | suspendError hpc | suspendFailed hpc
  | replaceTerminal hpc | discard hpc | discardLate hpc | forcePanic hpc | overwrite hpc
  | retire hpc | publish hpc => simp [hpc]

/-- The result is published before the completed callback finishes. -/
theorem State.Completed.move (h : σ.Completed) (hm : Move pid σ a τ) : τ.Completed := by
  unfold State.Completed at h ⊢
  cases hm with
  | wakeNone | wake | abortNone | abortQuiet | abort | dropRuntime => exact h
  | joinPoll =>
    -- a poll of the handle takes the result and leaves the flag
    intro hpc
    have hc := h hpc
    show (JoinInner.poll _ _).1.nativeCompleted = true
    unfold JoinInner.poll
    split_ifs <;> exact hc
  | publish => exact fun _ => rfl
  | unregister hpc => exact fun _ => h (.inl hpc)
  | upgrade hpc | store hpc | leave hpc =>
    intro h'
    split at h' <;> simp at h'
  | _ => simp

/-- An abort request is never taken back. -/
theorem State.Aborted.move (h : σ.Aborted) (hm : Move pid σ a τ) : τ.Aborted := by
  rcases h with hcancel | hlive
  · refine .inl ?_
    cases hm with
    | abortQuiet | abort => rfl
    | suspendFailed =>
      show σ.gate.suspendFailed.cancelRequested = true
      unfold NativeGate.suspendFailed
      split_ifs <;> exact hcancel
    | replaceTerminal | forcePanic =>
      show (σ.gate.replaceTerminal .panicked).cancelRequested = true
      unfold NativeGate.replaceTerminal
      split <;> exact hcancel
    | _ => exact hcancel
  · exact .inr (hm.submits hlive).1

/-- After `request_abort` has returned the task has a request or is past `Live`. -/
theorem Move.aborted {submit : Status} (hG : Gated pid σ)
    (hm : Move pid σ (.requestAbort submit) τ) : τ.Aborted := by
  cases hm with
  | abortQuiet | abort => exact .inl rfl
  | abortNone hlost =>
    by_cases hlive : σ.gate.phase = .live
    · -- a live task still has its runtime, so only an earlier request can have turned this one away
      have hruntime := hG.runtime (hG.fits.ne_gone hlive)
      exact .inl (hlost (by simp [processMatches, hruntime]) hlive)
    · exact .inr hlive

end Task

namespace Runtime

variable {σ τ : System T P W} {a : Action T P W}

/-! ## The invariant -/

/-- What a call of `spawn_on` has left, at any time after. -/
def Spawn.Sound (σ : System T P W) (spawn : Spawn) : Prop :=
  (∃ id raw, spawn.result = .ok id ∧ spawn.created = some raw ∧ σ.tasks id ≠ none) ∨
    (∃ e, spawn.result = .error e) ∧ spawn.future = false ∧
      (spawn.created.isSome = true → spawn.destroyed = true) ∧
      ∀ id, spawn.id = some id → id < σ.state.nextTaskId ∧ σ.tasks id = none

/-- A task of the snapshot was aborted, or shutdown will do so. -/
def System.Covered (σ : System T P W) (id : TaskId) : Prop :=
  ∃ t, σ.tasks id = some t ∧
    (t.Aborted ∨ ∃ rest, σ.shutdown = .aborting rest ∧ id ∈ rest)

/-- What holds between the steps of a runtime. -/
structure Wf (pid : Pid) (σ : System T P W) : Prop where
  gated : ∀ id t, σ.tasks id = some t → Task.Gated pid t ∧ t.Completed
  fresh : ∀ id t, σ.tasks id = some t → id < σ.state.nextTaskId
  /-- The registry is the set of tasks whose completed callback has not finished. -/
  registry : ∀ id, id ∈ σ.state.tasks ↔ ∃ t, σ.tasks id = some t ∧ t.pc ≠ .done
  locked : σ.locked = true → σ.state.lifecycle = .running
  spawns : ∀ spawn ∈ σ.spawns, spawn.Sound σ
  running : σ.state.lifecycle = .running → σ.shutdown = .idle ∧ σ.snapshot = ∅
  snapshot : σ.state.lifecycle ≠ .running → σ.state.tasks ⊆ σ.snapshot
  covered : ∀ id ∈ σ.snapshot, σ.Covered id
  /-- Whoever sleeps on the condition variable has something to wait for. -/
  asleep : σ.shutdown = .draining true → σ.state.tasks ≠ ∅
  drained : σ.shutdown = .drained → σ.state.tasks = ∅

namespace Wf

omit [DecidableEq W]

/-- A runtime just built. -/
theorem init : Wf pid (System.init : System T P W) where
  gated _ _ h := by cases h
  fresh _ _ h := by cases h
  registry id := by simp [System.init, RuntimeState.new]
  locked h := by cases h
  spawns := by simp [System.init]
  running _ := ⟨rfl, rfl⟩
  snapshot h := absurd rfl h
  covered := by simp [System.init]
  asleep h := by cases h
  drained h := by cases h

/-- The next identifier is not registered. -/
theorem next_not_mem (h : Wf pid σ) : σ.state.nextTaskId ∉ σ.state.tasks := by
  intro hmem
  obtain ⟨t, ht, -⟩ := (h.registry _).mp hmem
  exact absurd (h.fresh _ t ht) (lt_irrefl _)

/-- A step that leaves registry and tasks alone. -/
theorem frame (h : Wf pid σ) (htasks : τ.tasks = σ.tasks)
    (hregistry : τ.state.tasks = σ.state.tasks)
    (hnext : σ.state.nextTaskId ≤ τ.state.nextTaskId)
    (hlocked : τ.locked = true → τ.state.lifecycle = .running)
    (hspawns : ∀ spawn ∈ τ.spawns, spawn ∈ σ.spawns ∨ spawn.Sound τ)
    (hrunning : τ.state.lifecycle = .running → τ.shutdown = .idle ∧ τ.snapshot = ∅)
    (hsnapshot : τ.state.lifecycle ≠ .running → τ.state.tasks ⊆ τ.snapshot)
    (hcovered : ∀ id ∈ τ.snapshot, τ.Covered id)
    (hasleep : τ.shutdown = .draining true → τ.state.tasks ≠ ∅)
    (hdrained : τ.shutdown = .drained → τ.state.tasks = ∅) : Wf pid τ where
  gated := by rw [htasks]; exact h.gated
  fresh id t ht := lt_of_lt_of_le (h.fresh id t (htasks ▸ ht)) hnext
  registry := by rw [htasks, hregistry]; exact h.registry
  locked := hlocked
  spawns spawn hmem := by
    rcases hspawns spawn hmem with hmem | hsound
    · rcases h.spawns spawn hmem with ⟨id, raw, hid, hraw, hne⟩ | ⟨he, hf, hd, hids⟩
      · exact .inl ⟨id, raw, hid, hraw, htasks ▸ hne⟩
      · exact .inr ⟨he, hf, hd, fun id hid =>
          ⟨lt_of_lt_of_le (hids id hid).1 hnext, htasks ▸ (hids id hid).2⟩⟩
    · exact hsound
  running := hrunning
  snapshot := hsnapshot
  covered := hcovered
  asleep := hasleep
  drained := hdrained

/-- A step that puts a task in its next state. -/
theorem update (h : Wf pid σ) {id : TaskId} {t u : Task.State T P W} (ht : σ.tasks id = some t)
    (hu : Task.Gated pid u ∧ u.Completed) (htasks : τ.tasks = Function.update σ.tasks id (some u))
    (hstate : τ.state.lifecycle = σ.state.lifecycle ∧ τ.state.nextTaskId = σ.state.nextTaskId)
    (hregistry : ∀ k, k ∈ τ.state.tasks ↔
      k ∈ σ.state.tasks ∧ (k = id → u.pc ≠ .done))
    (hdone : t.pc = .done → u.pc = .done) (hlocked : τ.locked = σ.locked)
    (hspawns : τ.spawns = σ.spawns) (hsnapshot : τ.snapshot = σ.snapshot)
    (hidle : σ.shutdown = .idle → τ.shutdown = .idle)
    (hcovered : ∀ k, σ.Covered k → τ.Covered k)
    (hasleep : τ.shutdown = .draining true → τ.state.tasks ≠ ∅)
    (hdrained : τ.shutdown = .drained → σ.shutdown = .drained) : Wf pid τ where
  gated k v hv := by
    rw [htasks, Function.update_apply] at hv
    split_ifs at hv with hk
    · cases hv
      exact hu
    · exact h.gated k v hv
  fresh k v hv := by
    rw [hstate.2]
    rw [htasks, Function.update_apply] at hv
    split_ifs at hv with hk
    · exact hk ▸ h.fresh id t ht
    · exact h.fresh k v hv
  registry k := by
    -- a task leaves the registry in the step that makes it done
    rw [hregistry, h.registry, htasks, Function.update_apply]
    split_ifs with hk
    · subst hk
      constructor
      · rintro ⟨-, hne⟩
        exact ⟨u, rfl, hne rfl⟩
      · rintro ⟨v, hv, hne⟩
        cases hv
        exact ⟨⟨t, ht, fun hd => hne (hdone hd)⟩, fun _ => hne⟩
    · exact and_iff_left fun hk' => absurd hk' hk
  locked := by rw [hlocked, hstate.1]; exact h.locked
  spawns spawn hmem := by
    rw [hspawns] at hmem
    -- no task comes into being or disappears
    have hnone : ∀ k, σ.tasks k = none → τ.tasks k = none := by
      intro k hk
      rw [htasks, Function.update_apply]
      split_ifs with hk'
      · rw [hk', ht] at hk
        cases hk
      · exact hk
    rcases h.spawns spawn hmem with ⟨k, raw, hk, hraw, hne⟩ | ⟨he, hf, hd, hids⟩
    · refine .inl ⟨k, raw, hk, hraw, ?_⟩
      rw [htasks, Function.update_apply]
      split_ifs
      · exact Option.some_ne_none _
      · exact hne
    · exact .inr ⟨he, hf, hd, fun k hk =>
        ⟨by rw [hstate.2]; exact (hids k hk).1, hnone k (hids k hk).2⟩⟩
  running hrunning := by
    rw [hstate.1] at hrunning
    exact ⟨hidle (h.running hrunning).1, hsnapshot.trans (h.running hrunning).2⟩
  snapshot hne k hk := by
    rw [hstate.1] at hne
    rw [hsnapshot]
    exact h.snapshot hne ((hregistry k).mp hk).1
  covered k hk := hcovered k (h.covered k (hsnapshot ▸ hk))
  asleep := hasleep
  drained hd := by
    have hempty := h.drained (hdrained hd)
    apply Finset.eq_empty_of_forall_notMem
    intro k hk
    have hk := ((hregistry k).mp hk).1
    rw [hempty] at hk
    simp at hk

/-- A task that moves and is not done afterwards was registered and is. -/
theorem registry_moved (h : Wf pid σ) {id k : TaskId} {t u : Task.State T P W}
    (ht : σ.tasks id = some t) (hdone : u.pc = .done → t.pc = .done) :
    k ∈ σ.state.tasks ↔ k ∈ σ.state.tasks ∧ (k = id → u.pc ≠ .done) := by
  refine (and_iff_left_of_imp fun hmem hk hu => ?_).symm
  obtain ⟨v, hv, hne⟩ := (h.registry id).mp (hk ▸ hmem)
  obtain rfl : t = v := Option.some.inj (ht.symm.trans hv)
  exact hne (hdone hu)

/-- A task stays covered while shutdown goes on with its snapshot. -/
theorem covered_of_update {id k : TaskId} {t u : Task.State T P W} (ht : σ.tasks id = some t)
    (htasks : τ.tasks = Function.update σ.tasks id (some u)) (habort : t.Aborted → u.Aborted)
    (hshutdown : ∀ rest, σ.shutdown = .aborting rest → k ∈ rest →
      (k = id ∧ u.Aborted) ∨ ∃ rest', τ.shutdown = .aborting rest' ∧ k ∈ rest')
    (h : σ.Covered k) : τ.Covered k := by
  obtain ⟨v, hv, hcov⟩ := h
  unfold System.Covered
  rw [htasks, Function.update_apply]
  split_ifs with hk
  · subst hk
    rw [ht] at hv
    cases hv
    refine ⟨u, rfl, ?_⟩
    rcases hcov with hab | ⟨rest, hrest, hmem⟩
    · exact .inl (habort hab)
    · rcases hshutdown rest hrest hmem with ⟨-, hab⟩ | hlater
      · exact .inl hab
      · exact .inr hlater
  · refine ⟨v, hv, ?_⟩
    rcases hcov with hab | ⟨rest, hrest, hmem⟩
    · exact .inl hab
    · rcases hshutdown rest hrest hmem with ⟨hk', -⟩ | hlater
      · exact absurd hk' hk
      · exact .inr hlater

/-- A task stays covered while no task moves and the aborts that are due stay due. -/
theorem covered_frame {k : TaskId} (h : σ.Covered k) (htasks : τ.tasks = σ.tasks)
    (hshutdown : ∀ rest, σ.shutdown = .aborting rest → k ∈ rest →
      ∃ rest', τ.shutdown = .aborting rest' ∧ k ∈ rest') : τ.Covered k := by
  obtain ⟨t, ht, hcov⟩ := h
  refine ⟨t, htasks ▸ ht, ?_⟩
  -- a request is there to stay, an abort that is due stays due
  rcases hcov with hab | ⟨rest, hrest, hmem⟩
  · exact .inl hab
  · exact .inr (hshutdown rest hrest hmem)

/-- A step of shutdown that moves no task and has no abort left to request. -/
theorem shutdown (h : Wf pid σ) {pc : ShutdownPc} (hbusy : σ.shutdown ≠ .idle)
    (hcovered : ∀ id rest, σ.shutdown = .aborting rest → id ∉ rest)
    (hasleep : pc = .draining true → σ.state.tasks ≠ ∅)
    (hdrained : pc = .drained → σ.state.tasks = ∅) : Wf pid { σ with shutdown := pc } := by
  have hclosing : σ.state.lifecycle ≠ .running := fun hr => hbusy (h.running hr).1
  exact h.frame rfl rfl le_rfl h.locked (fun _ => .inl) (fun hr => absurd hr hclosing) h.snapshot
    (fun id hid => covered_frame (h.covered id hid) rfl fun rest hrest hmem =>
      absurd hmem (hcovered id rest hrest)) hasleep hdrained

end Wf

/-- On the paths of `spawn_on` that give up a descriptor, destroying it succeeds. -/
def Sound : System T P W → Action T P W → Prop
  | _, .spawn _ native => native.destroy.isOk = true
  | _, _ => True

instance : ∀ (σ : System T P W) (a : Action T P W), Decidable (Sound σ a)
  | _, .spawn _ native => inferInstanceAs (Decidable (native.destroy.isOk = true))
  | _, .spawnReturn | _, .task _ _ | _, .taskCompleted _ | _, .shutdownBegin _
  | _, .shutdownAbort _ | _, .drainCheck | _, .drainWake | _, .teardown _ =>
    inferInstanceAs (Decidable True)

/-- The invariant is kept by every step. -/
theorem Wf.move (h : Wf pid σ) (hm : Move pid σ a τ) (hok : Sound σ a) : Wf pid τ := by
  cases hm with
  | @spawnFailed affinity native state spawn hlock hfailed =>
    refine h.frame rfl hfailed.tasks hfailed.next ?_ ?_ ?_ ?_ ?_ ?_ ?_
    · intro hl
      rw [hlock] at hl
      cases hl
    · intro s hs
      rcases List.mem_append.mp hs with hs | hs
      · exact .inl hs
      · -- the identifier it used up is one that no task has
        obtain rfl := List.mem_singleton.mp hs
        refine .inr (.inr ⟨hfailed.error, hfailed.future, fun hc => ?_, fun id hid => ?_⟩)
        · exact (hfailed.created hc).2.trans hok
        · obtain ⟨hle, hlt⟩ := hfailed.id id hid
          refine ⟨hlt, ?_⟩
          cases ht : σ.tasks id with
          | none => rfl
          | some t => exact absurd (h.fresh id t ht) (not_lt.mpr hle)
    · rw [hfailed.lifecycle]
      exact h.running
    · rw [hfailed.lifecycle, hfailed.tasks]
      exact h.snapshot
    · exact fun id hid => Wf.covered_frame (h.covered id hid) rfl fun rest hr hm => ⟨rest, hr, hm⟩
    · rw [hfailed.tasks]
      exact h.asleep
    · rw [hfailed.tasks]
      exact h.drained
  | @spawned affinity native raw gate hlock hrunning =>
    -- shutdown is idle and its snapshot empty, so nothing is promised of the new task
    have hnone : σ.tasks σ.state.nextTaskId = none := by
      cases ht : σ.tasks σ.state.nextTaskId with
      | none => rfl
      | some t => exact absurd (h.fresh _ t ht) (lt_irrefl _)
    obtain ⟨hidle, hempty⟩ := h.running hrunning
    refine
      { gated := fun id t ht => ?_
        fresh := fun id t ht => ?_
        registry := fun id => ?_
        locked := fun _ => hrunning
        spawns := fun spawn hmem => ?_
        running := fun _ => ⟨hidle, hempty⟩
        snapshot := fun hne => absurd hrunning hne
        covered := fun id hid => by simp [hempty] at hid
        asleep := fun hs => by simp [hidle] at hs
        drained := fun hs => by simp [hidle] at hs }
    · simp only [Function.update_apply] at ht
      split_ifs at ht
      · cases ht
        exact ⟨.init raw, by simp [Task.State.Completed, Task.State.init]⟩
      · exact h.gated id t ht
    · simp only [Function.update_apply] at ht
      split_ifs at ht with hid
      · exact hid ▸ Nat.lt_succ_self _
      · exact Nat.lt_succ_of_lt (h.fresh id t ht)
    · simp only [Finset.mem_insert, Function.update_apply, h.registry id]
      split_ifs with hid
      · simp [hid, Task.State.init]
      · simp [hid]
    · have hsome : ∀ k, σ.tasks k ≠ none → Function.update σ.tasks σ.state.nextTaskId
          (some (.init pid raw)) k ≠ none := by
        intro k hk
        rw [Function.update_apply]
        split_ifs
        · exact Option.some_ne_none _
        · exact hk
      rcases List.mem_append.mp hmem with hmem | hmem
      · rcases h.spawns spawn hmem with ⟨id, raw', hid, hraw, hne⟩ | ⟨he, hf, hd, hids⟩
        · exact .inl ⟨id, raw', hid, hraw, hsome id hne⟩
        · refine .inr ⟨he, hf, hd, fun id hid => ⟨Nat.lt_succ_of_lt (hids id hid).1, ?_⟩⟩
          have hne : id ≠ σ.state.nextTaskId := (hids id hid).1.ne
          simp only [Function.update_apply, if_neg hne]
          exact (hids id hid).2
      · obtain rfl := List.mem_singleton.mp hmem
        exact .inl ⟨_, raw, rfl, rfl, by simp⟩
  | spawnReturn hlock =>
    exact h.frame rfl rfl le_rfl (by simp) (fun _ => .inl) h.running h.snapshot
      (fun id hid => Wf.covered_frame (h.covered id hid) rfl fun rest hr hm => ⟨rest, hr, hm⟩)
      h.asleep h.drained
  | @task id a t u ht henabled hm =>
    obtain ⟨hgated, hcompleted⟩ := h.gated id t ht
    have hdone := hm.done_iff henabled
    refine h.update ht ⟨hgated.move hm, hcompleted.move hm⟩ rfl ⟨rfl, rfl⟩ (fun k => ?_) hdone.mpr
      rfl rfl rfl (fun hi => hi) (fun k => ?_) h.asleep fun hd => hd
    · exact h.registry_moved ht hdone.mp
    · exact Wf.covered_of_update ht rfl (fun hab => hab.move hm) fun rest hr hmem =>
        .inr ⟨rest, hr, hmem⟩
  | @taskCompleted id t hlock ht hpc =>
    obtain ⟨hgated, hcompleted⟩ := h.gated id t ht
    have hm : Task.Move pid t .unregister { t with pc := .done } := .unregister hpc
    refine h.update ht ⟨hgated.move hm, hcompleted.move hm⟩ rfl ⟨rfl, rfl⟩ (fun k => ?_)
      (fun _ => rfl) rfl rfl rfl (fun hi => ?_) (fun k => ?_) (fun hs => ?_) fun hd => ?_
    · rw [Finset.mem_erase, and_comm]
      simp
    · simp [hi, ShutdownPc.notified]
    · refine Wf.covered_of_update ht rfl (fun hab => hab.move hm) fun rest hr hmem =>
        .inr ⟨rest, ?_, hmem⟩
      simp [hr, ShutdownPc.notified]
    · -- The notification wakes shutdown when the registry has become empty.
      show σ.state.tasks.erase id ≠ ∅
      change (if _ then _ else _) = _ at hs
      split_ifs at hs with hempty
      · exact absurd hs σ.shutdown.notified_ne
      · exact hempty
    · change (if _ then _ else _) = _ at hd
      split_ifs at hd
      · rwa [ShutdownPc.notified_eq (by simp)] at hd
      · exact hd
  | beginClosed => exact h
  | @beginRunning order hshutdown hlock horder hrunning =>
    refine h.frame rfl rfl le_rfl ?_ (fun _ => .inl) (by simp) (fun _ => subset_rfl) ?_ (by simp)
      (by simp)
    · intro hl
      rw [hlock] at hl
      cases hl
    · -- the snapshot is the list of aborts to come
      intro id hid
      obtain ⟨t, ht, -⟩ := (h.registry id).mp hid
      exact ⟨t, ht, .inr ⟨order, rfl, List.mem_toFinset.mp (horder ▸ hid)⟩⟩
  | beginClosing hshutdown hlock horder hclosing =>
    refine h.frame rfl rfl le_rfl h.locked (fun _ => .inl) ?_ h.snapshot ?_ (by simp) (by simp)
    · intro hr
      rw [hclosing] at hr
      cases hr
    · exact fun id hid => Wf.covered_frame (h.covered id hid) rfl fun rest hr _ => by
        rw [hshutdown] at hr
        cases hr
  | @abort submit id rest t u hshutdown ht hm =>
    obtain ⟨hgated, hcompleted⟩ := h.gated id t ht
    have hdone := hm.done_iff (by simp)
    refine h.update ht ⟨hgated.move hm, hcompleted.move hm⟩ rfl ⟨rfl, rfl⟩ (fun k => ?_) hdone.mpr
      rfl rfl rfl (fun hi => ?_) (fun k => ?_) (by simp) (by simp)
    · exact h.registry_moved ht hdone.mp
    · rw [hshutdown] at hi
      cases hi
    · refine Wf.covered_of_update ht rfl (fun hab => hab.move hm) fun rest' hr hmem => ?_
      rw [hshutdown] at hr
      cases hr
      rcases List.mem_cons.mp hmem with hk | hmem
      · -- this is the task whose abort the step requests
        exact .inl ⟨hk, hm.aborted hgated⟩
      · exact .inr ⟨rest, rfl, hmem⟩
  | abortEnd hshutdown =>
    refine h.shutdown (by simp [hshutdown]) ?_ (by simp) (by simp)
    intro id rest hr
    rw [hshutdown] at hr
    cases hr
    exact List.not_mem_nil
  | drainEnd hshutdown hlock hempty =>
    exact h.shutdown (by simp [hshutdown]) (by simp [hshutdown]) (by simp) fun _ => hempty
  | drainSleep hshutdown hlock hempty =>
    exact h.shutdown (by simp [hshutdown]) (by simp [hshutdown]) (fun _ => hempty) (by simp)
  | drainWake hshutdown =>
    exact h.shutdown (by simp [hshutdown]) (by simp [hshutdown]) (by simp) (by simp)
  | @teardown succeeds hshutdown hlock =>
    have hclosing : σ.state.lifecycle ≠ .running := fun hr => by
      have := (h.running hr).1
      rw [hshutdown] at this
      cases this
    refine h.frame rfl rfl le_rfl ?_ (fun _ => .inl) ?_ (fun _ => h.snapshot hclosing) ?_ (by simp)
      (by simp)
    · intro hl
      rw [hlock] at hl
      cases hl
    · intro hr
      cases succeeds
      · exact absurd hr hclosing
      · cases hr
    · exact fun id hid => Wf.covered_frame (h.covered id hid) rfl fun rest hr _ => by
        rw [hshutdown] at hr
        cases hr

/-! ## Runs -/

variable {ok : System T P W → Action T P W → Prop}

/-- The states a runtime can come to. -/
def Reachable (pid : Pid) (σ : System T P W) : Prop :=
  Lts.Reaches (step pid) Sound .init σ

/-- The invariant holds in every reachable state. -/
theorem Wf.of_reachable (h : Reachable pid σ) : Wf pid σ :=
  Lts.Reaches.invariant h Wf.init fun _ _ _ hI hok hs =>
    hI.move (move_of_step hI.next_not_mem hs) hok

/-- The descriptors created by any call of `spawn_on`. -/
def System.created (σ : System T P W) : List RawTask := σ.spawns.filterMap (·.created)

/-- A call of `spawn_on` has no live descriptor left. -/
def Spawn.Destroyed (σ : System T P W) (spawn : Spawn) : Prop :=
  spawn.created = none ∨ spawn.destroyed = true ∨
    ∃ id t, spawn.result = .ok id ∧ σ.tasks id = some t ∧ t.gate.phase = .destroyed

/-- Once the lifecycle has left `Running`, the registry gains nothing and nothing is created. -/
theorem Move.closing (hm : Move pid σ a τ) (hclosing : σ.state.lifecycle ≠ .running) :
    τ.state.lifecycle ≠ .running ∧ τ.state.tasks ⊆ σ.state.tasks ∧ τ.snapshot = σ.snapshot ∧
      τ.created = σ.created := by
  cases hm with
  | @spawnFailed affinity native state spawn hlock hfailed =>
    refine ⟨by rw [hfailed.lifecycle]; exact hclosing, hfailed.tasks.subset, rfl, ?_⟩
    -- the call found a closed runtime before it created anything
    have hnone : spawn.created = none := by
      rw [← Option.not_isSome_iff_eq_none]
      exact fun hsome => hclosing (hfailed.created hsome).1
    simp [System.created, hnone]
  | spawned _ hrunning | beginRunning _ _ _ hrunning => exact absurd hrunning hclosing
  | taskCompleted => exact ⟨hclosing, Finset.erase_subset _ _, rfl, rfl⟩
  | @teardown succeeds =>
    refine ⟨?_, subset_rfl, rfl, rfl⟩
    cases succeeds
    · exact hclosing
    · nofun
  | _ => exact ⟨hclosing, subset_rfl, rfl, rfl⟩

/-- In every run from a runtime that is not running, the registry gains nothing and nothing is
created. -/
theorem Wf.closing (h : Wf pid σ) (hclosing : σ.state.lifecycle ≠ .running)
    (hτ : Lts.Reaches (step pid) Sound σ τ) :
    τ.state.lifecycle ≠ .running ∧ τ.state.tasks ⊆ σ.state.tasks ∧ τ.snapshot = σ.snapshot ∧
      τ.created = σ.created := by
  have hall : Wf pid τ ∧ τ.state.lifecycle ≠ .running ∧ τ.state.tasks ⊆ σ.state.tasks ∧
      τ.snapshot = σ.snapshot ∧ τ.created = σ.created := by
    refine Lts.Reaches.invariant (I := fun τ => Wf pid τ ∧ τ.state.lifecycle ≠ .running ∧
      τ.state.tasks ⊆ σ.state.tasks ∧ τ.snapshot = σ.snapshot ∧ τ.created = σ.created) hτ
      ⟨h, hclosing, subset_rfl, rfl, rfl⟩ ?_
    rintro τ υ a ⟨hwf, hne, hsub, hsnap, hcreated⟩ hok hs
    have hm := move_of_step hwf.next_not_mem hs
    obtain ⟨hne', hsub', hsnap', hcreated'⟩ := hm.closing hne
    exact ⟨hwf.move hm hok, hne', hsub'.trans hsub, hsnap'.trans hsnap, hcreated'.trans hcreated⟩
  exact hall.2

omit [DecidableEq W] in
/-- With an empty registry every task has finished its completed callback. -/
theorem Wf.finished (h : Wf pid σ) (hempty : σ.state.tasks = ∅) {id : TaskId}
    {t : Task.State T P W} (ht : σ.tasks id = some t) :
    t.gate.phase = .destroyed ∧ t.join.nativeCompleted = true := by
  obtain ⟨hgated, hcompleted⟩ := h.gated id t ht
  have hdone : t.pc = .done := by
    -- otherwise it would be registered
    by_contra hne
    have hmem := (h.registry id).mpr ⟨t, ht, hne⟩
    simp [hempty] at hmem
  have hfits := hgated.fits
  rw [hdone] at hfits
  exact ⟨hfits, hcompleted (.inr hdone)⟩

/-- Of a runtime with any number of spawning threads, in every run: the registry is the set of
submitted tasks whose completed callback has not finished. A failed spawn leaves no registry entry,
no live descriptor and no future. After the lifecycle has left `Running` the registry gains no
entry, and when shutdown has requested its aborts every task then registered has an abort request or
is past `Live`. When its drain loop exits, every descriptor ever created is destroyed and none is
created afterwards, and every successful spawn has its result published. -/
theorem spawn_linearizes (h : Reachable pid σ) :
    (∀ id, id ∈ σ.state.tasks ↔ ∃ t, σ.tasks id = some t ∧ t.pc ≠ .done) ∧
    (∀ spawn ∈ σ.spawns, ∀ e, spawn.result = .error e →
      spawn.Destroyed σ ∧ spawn.future = false ∧ ∀ id, spawn.id = some id → id ∉ σ.state.tasks) ∧
    (∀ order τ, σ.state.lifecycle = .running → step pid (.shutdownBegin order) σ = .ok τ →
      τ.snapshot = σ.state.tasks) ∧
    (σ.state.lifecycle ≠ .running →
      (∀ τ, Lts.Reaches (step pid) Sound σ τ →
        τ.state.lifecycle ≠ .running ∧ τ.state.tasks ⊆ σ.state.tasks ∧ τ.snapshot = σ.snapshot) ∧
      ((∀ rest, σ.shutdown ≠ .aborting rest) →
        ∀ id ∈ σ.snapshot, ∃ t, σ.tasks id = some t ∧ t.Aborted)) ∧
    (σ.shutdown = .drained →
      (∀ spawn ∈ σ.spawns, spawn.Destroyed σ) ∧
      (∀ spawn ∈ σ.spawns, ∀ id, spawn.result = .ok id →
        ∃ t, σ.tasks id = some t ∧ t.join.nativeCompleted = true) ∧
      ∀ τ, Lts.Reaches (step pid) Sound σ τ → τ.created = σ.created) := by
  have hwf := Wf.of_reachable h
  -- Behind the drain loop the lifecycle has left `Running`.
  have hbusy : σ.shutdown = .drained → σ.state.lifecycle ≠ .running := fun hd hr => by
    have := (hwf.running hr).1
    rw [hd] at this
    cases this
  refine ⟨hwf.registry, fun spawn hmem e he => ?_, fun order τ hrunning hs => ?_, fun hclosing =>
    ⟨fun τ hτ => ?_, fun hnot id hid => ?_⟩, fun hdrained =>
    ⟨fun spawn hmem => ?_, fun spawn hmem id hid => ?_, fun τ hτ => ?_⟩⟩
  · rcases hwf.spawns spawn hmem with ⟨id, raw, hok, -⟩ | ⟨-, hfuture, hdestroyed, hids⟩
    · rw [he] at hok
      cases hok
    · refine ⟨?_, hfuture, fun id hid hreg => ?_⟩
      · cases hc : spawn.created with
        | none => exact .inl hc
        | some raw => exact .inr (.inl (hdestroyed (by rw [hc]; rfl)))
      · obtain ⟨t, ht, -⟩ := (hwf.registry id).mp hreg
        exact absurd (ht.symm.trans (hids id hid).2) (by simp)
  · -- Only the call that finds the runtime running takes a snapshot.
    cases move_of_step hwf.next_not_mem hs with
    | beginRunning => rfl
    | beginClosed _ hclosed =>
      rw [hrunning] at hclosed
      cases hclosed
    | beginClosing _ _ _ hc =>
      rw [hrunning] at hc
      cases hc
  · obtain ⟨hne, hsub, hsnap, -⟩ := hwf.closing hclosing hτ
    exact ⟨hne, hsub, hsnap⟩
  · obtain ⟨t, ht, hab | ⟨rest, hrest, -⟩⟩ := hwf.covered id hid
    · exact ⟨t, ht, hab⟩
    · -- no abort is due any more
      exact absurd hrest (hnot rest)
  · rcases hwf.spawns spawn hmem with ⟨id, raw, hok, hraw, hne⟩ | ⟨-, -, hdestroyed, -⟩
    · -- a descriptor handed to a task is destroyed by its completed callback
      obtain ⟨t, ht⟩ := Option.ne_none_iff_exists'.mp hne
      exact .inr (.inr ⟨id, t, hok, ht, (hwf.finished (hwf.drained hdrained) ht).1⟩)
    · cases hc : spawn.created with
      | none => exact .inl hc
      | some raw => exact .inr (.inl (hdestroyed (by rw [hc]; rfl)))
  · rcases hwf.spawns spawn hmem with ⟨id', raw, hok, hraw, hne⟩ | ⟨⟨e, he⟩, -⟩
    · rw [hid] at hok
      cases hok
      obtain ⟨t, ht⟩ := Option.ne_none_iff_exists'.mp hne
      exact ⟨t, ht, (hwf.finished (hwf.drained hdrained) ht).2⟩
    · rw [hid] at he
      cases he
  · exact (hwf.closing (hbusy hdrained) hτ).2.2.2

/-- One task is spawned, and a second one whose submission fails; shutdown aborts the first before
its first poll and waits for it. -/
def drainedOnce : List (Action ℕ ℕ ℕ) :=
  [.spawn (.ok ()) ⟨.ok 1, .ok (), .ok (), .ok ()⟩, .spawnReturn,
    .spawn (.ok ()) ⟨.ok 2, .ok (), .error .busy, .ok ()⟩, .shutdownBegin [1],
    .shutdownAbort (.ok ()), .shutdownAbort (.ok ()), .drainCheck, .task 1 .enter,
    .task 1 .startPoll,
    .task 1 (.dropFuture none), .task 1 .store, .task 1 .leave, .task 1 (.retire (.ok ())),
    .task 1 .publish, .taskCompleted 1, .drainCheck]

/-- The descriptors of both spawns are destroyed when the drain loop exits. -/
theorem spawn_linearizes_tiny :
    ∃ σ : System ℕ ℕ ℕ, Reachable 7 σ ∧ σ.created = [1, 2] ∧
      ∀ spawn ∈ σ.spawns, spawn.Destroyed σ := by
  have hrun : (Lts.exec (step 7) Sound drainedOnce .init).any
      (fun σ : System ℕ ℕ ℕ => σ.created = [1, 2] ∧ σ.shutdown = .drained) = true := by decide
  obtain ⟨σ, hσ, hcreated, hdrained⟩ := Lts.exists_of_exec hrun
  exact ⟨σ, hσ, hcreated, ((spawn_linearizes hσ).2.2.2.2 hdrained).1⟩

end Runtime

end Nosv
