import Nosv.Process.Linked

/-!
# The process keeps the rules of nOS-V

Every run of a process, from the return of `build` on, is accepted by `Native`: no descriptor is
used before its creation or after it was given up, no type is given up while a descriptor of it is
live, nOS-V is finalized with nothing live and never called again, and nobody uses a ring that was
dropped. This is so for any number of tasks, callers and sleeps, in any order of their steps,
whatever the native calls return, and across failed attempts of shutdown.

The invariant `Tracks` says what the process believes nOS-V to hold, and `native_contract` is the
result. The belief is right but for the descriptors that nOS-V has refused to give up.
-/

namespace Nosv.Runtime

variable {T P W : Type} {pid : Pid} {σ τ : System T P W} {a : Action T P W}

/-- Identifiers are not given back. -/
theorem Move.nextTaskId_le [DecidableEq W] (hm : Move pid σ a τ) :
    σ.state.nextTaskId ≤ τ.state.nextTaskId := by
  cases hm with
  | spawnFailed _ hfailed => exact hfailed.next
  | spawned => exact Nat.le_succ _
  | _ => exact le_rfl

/-- The descriptor of a task was not given up. -/
def System.Live (σ : System T P W) (id : TaskId) : Prop :=
  ∃ t, σ.tasks id = some t ∧ t.pc.stage ≠ .gone

/-- Whether a task that is there has its descriptor. -/
theorem System.live_iff {id : TaskId} {t : Task.State T P W} (ht : σ.tasks id = some t) :
    σ.Live id ↔ t.pc.stage ≠ .gone := by
  simp [Live, ht]

/-- A step that puts one task in its next state moves the descriptor of no other. -/
theorem System.live_update {id k : TaskId} {u : Task.State T P W}
    (htasks : τ.tasks = Function.update σ.tasks id (some u)) :
    τ.Live k ↔ if k = id then u.pc.stage ≠ .gone else σ.Live k := by
  unfold Live
  rw [htasks, Function.update_apply]
  split_ifs with hk
  · simp
  · rfl

/-- A call of `spawn_on` that returns, or is about to. -/
theorem step_spawn [DecidableEq W] {affinity : Status} {native : SpawnNative}
    (h : step pid (.spawn affinity native) σ = .ok τ) :
    ∃ state spawn, spawnOn pid pid affinity native σ.state = some (state, spawn) ∧
      τ.state = state ∧ τ.shutdown = σ.shutdown ∧
      ((∀ id raw, ¬(spawn.result = .ok id ∧ spawn.created = some raw)) ∧ τ.tasks = σ.tasks ∨
        ∃ id raw, spawn.result = .ok id ∧ spawn.created = some raw ∧
          τ.tasks = Function.update σ.tasks id (some (.init pid raw))) := by
  simp only [step] at h
  split at h
  next => cases h
  next =>
    split at h
    next => cases h
    next state spawn hspawn =>
      refine ⟨state, spawn, hspawn, ?_⟩
      split at h
      next id raw hid hraw =>
        cases h
        exact ⟨rfl, rfl, .inr ⟨id, raw, hid, hraw, rfl⟩⟩
      next hnot =>
        cases h
        exact ⟨rfl, rfl, .inl ⟨fun id raw hr => hnot id raw hr.1 hr.2, rfl⟩⟩

end Nosv.Runtime

namespace Nosv.Process

open Nosv.BlockOn (HandleId)
open Nosv.IoUring (PreparedRing)
open Nosv.Runtime (TaskType)

variable {T P W : Type}

/-! ## What the process believes -/

/-- nOS-V was not finalized. -/
def State.up (σ : State T P W) : Bool :=
  σ.runtime.state.lifecycle ≠ .closed ∧ σ.teardown ≠ .close

/-- The process has the descriptor. -/
def State.Live (σ : State T P W) : Descriptor → Prop
  | .task id => σ.runtime.Live id
  | .ring => σ.ring.gate.raw = true
  | .timer => σ.timer.gate.raw.isSome = true
  | .root k => RootLive σ.root k

/-- The process has had the descriptor. -/
def State.Made (σ : State T P W) : Descriptor → Prop
  | .task id => id < σ.runtime.state.nextTaskId
  | .root k => k < σ.root.made
  | .ring | .timer => True

/-- The types that this attempt of shutdown has given up. -/
def TeardownPc.released : TeardownPc → List TaskType
  | .outside | .ringWait => []
  | .timer | .timerWait => [.ioUring]
  | .asyncType => [.ioUring, .timer]
  | .finalize | .close => [.ioUring, .timer, .async]

/-- The process is right about nOS-V. -/
structure Tracks (σ : State T P W) (n : Native) : Prop where
  up : n.up = σ.up
  live : ∀ d, d ∈ n.live ↔ σ.Live d
  created : ∀ d ∈ n.created, σ.Made d
  types : σ.running = true → ∀ t, t ∈ n.types
  released : ∀ t ∈ σ.teardown.released, t ∉ n.types ∧ t ∉ n.keptTypes
  down : n.up = false → n.types = ∅ ∧ n.keptTypes = ∅
  ring : n.ring = σ.ring.ring.isSome

/-- Nothing but descriptors comes or goes. -/
structure Frame (σ τ : State T P W) : Prop where
  up : τ.up = σ.up
  made : ∀ d, σ.Made d → τ.Made d
  running : τ.running = true → σ.running = true
  released : τ.teardown.released = σ.teardown.released
  ring : τ.ring.ring.isSome = σ.ring.ring.isSome

/-- A process just built has what `build` has made. -/
theorem Tracks.init {cfg : PreparedRing} {raw : RawTask} {current : Option HandleId} :
    Tracks (State.init cfg raw current : State T P W) .built where
  up := rfl
  live d := by
    cases d with
    | task id => simp [Native.built, State.Live, State.init, Runtime.System.Live,
        Runtime.System.init]
    | root k => simp [Native.built, State.Live, State.init, RootLive, BlockOn.State.init]
    | ring => simp [Native.built, State.Live, State.init, IoUring.State.init]
    | timer => simp [Native.built, State.Live, State.init, Timer.State.init,
        Timer.DriverGate.started]
  created d hd := by
    simp only [Native.built, Finset.mem_insert, Finset.mem_singleton] at hd
    rcases hd with rfl | rfl <;> exact trivial
  types _ t := by cases t <;> decide
  released t ht := by simp [State.init, TeardownPc.released] at ht
  down := nofun
  ring := rfl

namespace Tracks

variable {σ τ : State T P W} {n : Native} {os : List Event} {d : Descriptor}

/-- An event that the process may cause at any time. -/
def Permits (σ : State T P W) (o : Event) : Prop :=
  o.isAnswer = true ∨ (∃ d call, o = .use d call ∧ σ.Live d) ∨ (o = .query ∧ σ.up = true) ∨
    (∃ k, o = .attach k false ∧ σ.up = true ∧ ¬σ.Made (.root k)) ∨
    (∃ d, o = .create d false ∧ σ.running = true ∧ ¬σ.Made d) ∨
    (o = .ring ∧ σ.ring.ring.isSome = true)

/-- nOS-V takes a permitted event, and stays as it is. -/
theorem read_self (h : Tracks σ n) (hup : ∀ d, σ.Live d → σ.up = true)
    (hrun : σ.running = true → σ.up = true) {o : Event} (ho : Permits σ o) :
    n.read o = some n := by
  rcases ho with hanswer | ⟨d, call, rfl, hlive⟩ | ⟨rfl, hσ⟩ | ⟨k, rfl, hσ, hmade⟩ |
    ⟨d, rfl, hr, hmade⟩ | ⟨rfl, hring⟩
  · cases o with
    | answer => rfl
    | _ => cases hanswer
  · exact if_pos ⟨h.up.trans (hup d hlive), (h.live d).mpr hlive⟩
  · exact if_pos (h.up.trans hσ)
  · exact if_pos ⟨h.up.trans hσ, fun hk => hmade (h.created _ hk)⟩
  · exact if_pos ⟨h.up.trans (hrun hr), fun hd => hmade (h.created _ hd), fun t _ => h.types hr t⟩
  · exact if_pos (h.ring.trans hring)

/-- A step that changes nothing but which descriptors there are. -/
theorem descriptors (h : Tracks σ n) (hf : Frame σ τ) {n' : Native} (hup : n'.up = n.up)
    (htypes : n'.types = n.types) (hkept : n'.keptTypes = n.keptTypes) (hring : n'.ring = n.ring)
    (hlive : ∀ d, d ∈ n'.live ↔ τ.Live d) (hcreated : ∀ d ∈ n'.created, τ.Made d) :
    Tracks τ n' where
  up := hup.trans (h.up.trans hf.up.symm)
  live := hlive
  created := hcreated
  types hr := htypes ▸ h.types (hf.running hr)
  released t ht := by
    rw [htypes, hkept]
    exact h.released t (hf.released ▸ ht)
  down hdown := by
    rw [htypes, hkept]
    exact h.down (hup.symm.trans hdown)
  ring := hring.trans (h.ring.trans hf.ring.symm)

/-- A step that keeps every descriptor. -/
theorem keep (h : Tracks σ n) (hup : ∀ d, σ.Live d → σ.up = true)
    (hrun : σ.running = true → σ.up = true) (hf : Frame σ τ)
    (hlive : ∀ d, τ.Live d ↔ σ.Live d) (hos : ∀ o ∈ os, Permits σ o) :
    ∃ n', os.foldlM Native.read n = some n' ∧ Tracks τ n' := by
  refine ⟨n, Native.reads_self fun o ho => h.read_self hup hrun (hos o ho), ?_⟩
  exact h.descriptors hf rfl rfl rfl rfl (fun d => (h.live d).trans (hlive d).symm)
    fun d hd => hf.made d (h.created d hd)

/-- A step that gives one descriptor up. -/
theorem lose (h : Tracks σ n) (hf : Frame σ τ) (hlive : ∀ d', τ.Live d' ↔ σ.Live d' ∧ d' ≠ d)
    (ok : Bool) (hos : os.foldlM Native.read n = some (n.remove d ok)) :
    ∃ n', os.foldlM Native.read n = some n' ∧ Tracks τ n' := by
  refine ⟨n.remove d ok, hos, h.descriptors hf rfl rfl rfl rfl (fun d' => ?_)
    fun d' hd => hf.made d' (h.created d' hd)⟩
  rw [hlive, ← h.live, Native.remove, Finset.mem_erase, and_comm]

/-- What was made before is made after, and so is the new descriptor. -/
theorem made_add (h : Tracks σ n) (hf : Frame σ τ) (hmade : τ.Made d) :
    ∀ d' ∈ (n.add d).created, τ.Made d' := by
  intro d' hd
  rcases Finset.mem_insert.mp hd with rfl | hd
  · exact hmade
  · exact hf.made d' (h.created d' hd)

/-- A step that creates one descriptor. -/
theorem gain (h : Tracks σ n) (hf : Frame σ τ) (hmade : τ.Made d)
    (hlive : ∀ d', τ.Live d' ↔ σ.Live d' ∨ d' = d)
    (hos : os.foldlM Native.read n = some (n.add d)) :
    ∃ n', os.foldlM Native.read n = some n' ∧ Tracks τ n' := by
  refine ⟨n.add d, hos,
    h.descriptors hf rfl rfl rfl rfl (fun d' => ?_) (h.made_add hf hmade)⟩
  rw [hlive, ← h.live, Native.add, Finset.mem_insert, or_comm]

/-- A step that creates one descriptor and gives it up. -/
theorem transient (h : Tracks σ n) (hf : Frame σ τ) (hmade : τ.Made d) (hnot : ¬σ.Live d)
    (hlive : ∀ d', τ.Live d' ↔ σ.Live d') (ok : Bool)
    (hos : os.foldlM Native.read n = some ((n.add d).remove d ok)) :
    ∃ n', os.foldlM Native.read n = some n' ∧ Tracks τ n' := by
  refine ⟨(n.add d).remove d ok, hos,
    h.descriptors hf rfl rfl rfl rfl (fun d' => ?_) (h.made_add hf hmade)⟩
  have hd : d ∉ n.live := fun hd => hnot ((h.live d).mp hd)
  rw [hlive, ← h.live, Native.remove, Native.add, Finset.erase_insert hd]

end Tracks

/-! ## Steps -/

variable [DecidableEq W] {pid : Pid} {handle : HandleId} {cfg : PreparedRing} {raw : RawTask}
  {current : Option HandleId} {σ τ : State T P W} {a : Action T P W} {n : Native}

namespace Linked

/-- Once nOS-V is finalized, everything is done. -/
theorem down (h : Linked pid handle cfg raw current σ) (hup : σ.up = false) :
    σ.runtime.state.tasks = ∅ ∧ σ.ring.completed = true ∧ σ.timer.completed = true ∧
      σ.root.pc = .outside ∧ σ.runtime.state.lifecycle ≠ .running := by
  by_cases hclosed : σ.runtime.state.lifecycle = .closed
  · obtain ⟨-, hempty, hrest⟩ := h.closed hclosed
    exact ⟨hempty, hrest.1, hrest.2.1, hrest.2.2, by simp [hclosed]⟩
  · have hpc : σ.teardown = .close := by
      by_contra hpc
      simp [State.up, hclosed, hpc] at hup
    have hdrained := h.drained (by simp [hpc])
    refine ⟨h.runtime.drained hdrained, h.ringDone (.inr (by rw [hpc]; rfl)),
      h.timerDone (.inr (by rw [hpc]; rfl)), h.outside (by simp [hdrained]), fun hr => ?_⟩
    have := (h.runtime.running hr).1
    rw [show σ.runtime.unlogged.shutdown = .drained from hdrained] at this
    cases this

/-- A task that is not in the registry has no descriptor. -/
theorem task_gone (h : Linked pid handle cfg raw current σ) (hempty : σ.runtime.state.tasks = ∅)
    (id : Runtime.TaskId) : ¬σ.Live (.task id) := by
  rintro ⟨t, ht, hstage⟩
  -- Its completed callback has finished.
  have hdone : t.pc = .done := by
    by_contra hne
    have hmem := (h.runtime.registry id).mpr ⟨t, ht, hne⟩
    rw [show σ.runtime.unlogged.state.tasks = ∅ from hempty] at hmem
    simp at hmem
  exact hstage (by rw [hdone]; rfl)

/-- A ring driver that has completed has no descriptor. -/
theorem ring_gone (h : Linked pid handle cfg raw current σ) (hring : σ.ring.completed = true) :
    ¬σ.Live .ring := by
  have hG := IoUring.Gated.of_reachable h.ring
  exact fun hd => hG.raw.mp hd
    (hG.destroyed.mpr (.inr (IoUring.completed_of_reachable h.ring hring)))

/-- A timer driver that has completed has no descriptor. -/
theorem timer_gone (h : Linked pid handle cfg raw current σ) (htimer : σ.timer.completed = true) :
    ¬σ.Live .timer := by
  have hO := TimerOwned.of_reaches h.timer
  have hnone := hO.raw.mpr (.inr (hO.completed.mp htimer))
  simp [State.Live, hnone]

/-- Whoever has a descriptor has nOS-V. -/
theorem up_of_live (h : Linked pid handle cfg raw current σ) :
    ∀ d, σ.Live d → σ.up = true := by
  intro d hd
  by_contra hup
  obtain ⟨hempty, hring, htimer, hroot, -⟩ := h.down (Bool.eq_false_iff.mpr hup)
  cases d with
  | task id => exact h.task_gone hempty id hd
  | ring => exact h.ring_gone hring hd
  | timer => exact h.timer_gone htimer hd
  | root k => exact hd.2 hroot

/-- Whoever finds the runtime running has nOS-V. -/
theorem up_of_running (h : Linked pid handle cfg raw current σ) (hr : σ.running = true) :
    σ.up = true := by
  by_contra hup
  exact (h.down (Bool.eq_false_iff.mpr hup)).2.2.2.2 (of_decide_eq_true hr)

/-- Behind the drain loop nOS-V is there until it is finalized. -/
theorem up_of_next (h : Linked pid handle cfg raw current σ) {call : Runtime.NativeCall}
    {next : TeardownPc} (hnext : σ.teardown.next = some (call, next)) :
    σ.up = true ∧ σ.runtime.state.tasks = ∅ ∧ σ.running = false := by
  have hdrained := h.drained fun hpc => by simp [hpc, TeardownPc.next] at hnext
  have hclosed : σ.runtime.state.lifecycle ≠ .closed := fun hclosed => by
    have := (h.closed hclosed).1
    rw [hdrained] at this
    cases this
  refine ⟨?_, h.runtime.drained hdrained, Bool.eq_false_iff.mpr fun hr => ?_⟩
  · refine decide_eq_true ⟨hclosed, fun hpc => ?_⟩
    simp [hpc, TeardownPc.next] at hnext
  · have := idle h.runtime hr
    rw [hdrained] at this
    cases this

/-- When a type is given up, nothing of the type is left. -/
theorem type_gone (h : Linked pid handle cfg raw current σ) {t : TaskType} {next : TeardownPc}
    (hnext : σ.teardown.next = some (.typeDestroy t, next)) (hreturned : σ.returned = true)
    {d : Descriptor} (hd : σ.Live d) : d.type ≠ some t := by
  have hcall := h.moveCall hnext hreturned
  have hempty := (h.up_of_next hnext).2.1
  cases d with
  | task id => exact absurd hd (h.task_gone hempty id)
  | root k => exact nofun
  | ring =>
    rintro ⟨⟩
    have hpast : next.pastRing = true := by
      revert hnext
      cases σ.teardown <;> rintro ⟨⟩
      rfl
    exact h.ring_gone (hcall.ringDone (.inr hpast)) hd
  | timer =>
    rintro ⟨⟩
    have hpast : next.pastTimer = true := by
      revert hnext
      cases σ.teardown <;> rintro ⟨⟩
      rfl
    exact h.timer_gone (hcall.timerDone (.inr hpast)) hd

/-- When nOS-V is finalized, nothing is left. -/
theorem all_gone (h : Linked pid handle cfg raw current σ) (hpc : σ.teardown = .finalize)
    (d : Descriptor) : ¬σ.Live d := by
  have hdrained := h.drained (by simp [hpc])
  cases d with
  | task id => exact h.task_gone (h.runtime.drained hdrained) id
  | ring => exact h.ring_gone (h.ringDone (.inr (by rw [hpc]; rfl)))
  | timer => exact h.timer_gone (h.timerDone (.inr (by rw [hpc]; rfl)))
  | root k => exact fun hd => hd.2 (h.outside (by simp [hdrained]))

end Linked

namespace Tracks

/-- A step of the registry alone. -/
theorem frame_runtime (h : Linked pid handle cfg raw current σ) {a : Runtime.Action T P W}
    {runtime : Runtime.System T P W} (ha : runtimeWhole a = false)
    (hstep : Runtime.step pid a σ.runtime = .ok runtime) :
    Frame σ { σ with runtime := runtime } := by
  have hm := h.runtime.unlogged_step hstep
  obtain ⟨hlifecycle, -, -⟩ := hm.within ha
  refine ⟨?_, fun d hd => ?_, fun hr => ?_, rfl, rfl⟩
  · simp only [State.up, hlifecycle]
  · cases d with
    | task id => exact lt_of_lt_of_le hd hm.nextTaskId_le
    | _ => exact hd
  · simpa only [State.running, hlifecycle] using hr

/-- A step of one task. -/
theorem moveTask (h : Tracks σ n) (hL : Linked pid handle cfg raw current σ)
    {a : Task.Action T P W} {id : Runtime.TaskId} {t u : Task.State T P W}
    {runtime : Runtime.System T P W} (ht : σ.runtime.tasks id = some t)
    (hm : Task.Move pid t a u) (hf : Frame σ { σ with runtime := runtime })
    (htasks : runtime.tasks = Function.update σ.runtime.tasks id (some u)) :
    ∃ n', (taskEvents pid id a t).foldlM Native.read n = some n' ∧
      Tracks { σ with runtime := runtime } n' := by
  have hlive := fun k => Runtime.System.live_update (σ := σ.runtime) (k := k) htasks
  have hσ : σ.Live (.task id) ↔ t.pc.stage ≠ .gone := Runtime.System.live_iff ht
  rcases taskEvents_cases id (hL.runtime.gated id t ht).1 hm with
    ⟨calls, hos, hcalls, hstage⟩ | ⟨⟨ok, hos⟩, hstage, hgone⟩
  · refine h.keep hL.up_of_live hL.up_of_running hf (fun d => ?_) fun o ho => ?_
    · cases d with
      | task k =>
        refine (hlive k).trans ?_
        split_ifs with hk
        · rw [hk, hσ]
          exact hstage.not
        · rfl
      | _ => rfl
    · rw [hos] at ho
      obtain ⟨call, hcall, rfl⟩ := List.mem_map.mp ho
      exact .inr (.inl ⟨_, call, rfl, hσ.mpr (hcalls (List.ne_nil_of_mem hcall))⟩)
  · -- The completed callback gives the descriptor up.
    refine h.lose hf (d := .task id) (fun d => ?_) ok ?_
    · cases d with
      | task k =>
        refine (hlive k).trans ?_
        split_ifs with hk
        · simp [hk, hgone]
        · simp [State.Live, hk]
      | _ => simp [State.Live]
    · have hmem := (h.live _).mpr (hσ.mpr hstage)
      have hup := h.up.trans (hL.up_of_live _ (hσ.mpr hstage))
      rw [hos]
      simp [Native.read, hup, hmem]

/-- A call of `spawn_on`. -/
theorem moveSpawn (h : Tracks σ n) (hL : Linked pid handle cfg raw current σ) {affinity : Status}
    {native : Runtime.SpawnNative} {runtime : Runtime.System T P W}
    (hstep : Runtime.step pid (.spawn affinity native) σ.runtime = .ok runtime) :
    ∃ n', (spawnEvents pid pid affinity native σ.runtime.state).foldlM Native.read n = some n' ∧
      Tracks { σ with runtime := runtime } n' := by
  have hf := frame_runtime hL rfl hstep
  obtain ⟨state, spawn, hspawn, hstate, -, htasks⟩ := Runtime.step_spawn hstep
  -- The identifier is one that no descriptor has.
  have hnot : ¬σ.Live (.task σ.runtime.state.nextTaskId) := by
    rintro ⟨t, ht, -⟩
    exact absurd (hL.runtime.fresh _ t ht) (lt_irrefl _)
  have hkept : runtime.tasks = σ.runtime.tasks →
      ∀ d, ({ σ with runtime := runtime } : State T P W).Live d ↔ σ.Live d := by
    intro hsame d
    cases d with
    | task id => simp [State.Live, Runtime.System.Live, hsame]
    | _ => rfl
  have hcreated : .task σ.runtime.state.nextTaskId ∉ n.created := fun hd =>
    absurd (h.created _ hd) (lt_irrefl _)
  rcases spawnEvents_cases hspawn with ⟨hos, -, ⟨e, he⟩⟩ | ⟨hrunning, -, hnext, hcase⟩
  · -- Refused.
    refine h.keep hL.up_of_live hL.up_of_running hf (hkept ?_) fun o ho => ?_
    · rcases htasks with ⟨-, hsame⟩ | ⟨id, _, hid, -⟩
      · exact hsame
      · rw [he] at hid
        cases hid
    · rw [hos, List.mem_singleton] at ho
      exact .inl (ho ▸ rfl)
  · have hr : σ.running = true := decide_eq_true hrunning
    have hup := h.up.trans (hL.up_of_running hr)
    have htypes := h.types hr
    have hmade : ({ σ with runtime := runtime } : State T P W).Made
        (.task σ.runtime.state.nextTaskId) := by
      show _ < runtime.state.nextTaskId
      rw [hstate, hnext]
      exact Nat.lt_succ_self _
    have hfailed : (∃ e, spawn.result = .error e) → runtime.tasks = σ.runtime.tasks := by
      rintro ⟨e, he⟩
      rcases htasks with ⟨-, hsame⟩ | ⟨id, _, hid, -⟩
      · exact hsame
      · rw [he] at hid
        cases hid
    have hcreate : n.read (.create (.task σ.runtime.state.nextTaskId) true) =
        some (n.add (.task σ.runtime.state.nextTaskId)) :=
      if_pos ⟨hup, hcreated, fun t _ => htypes t⟩
    have hadd : (n.add (.task σ.runtime.state.nextTaskId)).up = true ∧
        .task σ.runtime.state.nextTaskId ∈ (n.add (.task σ.runtime.state.nextTaskId)).live :=
      ⟨hup, Finset.mem_insert_self _ _⟩
    rcases hcase with ⟨he, calls, hos⟩ | ⟨he, hos⟩ | ⟨⟨raw', hid, hraw⟩, calls, hos⟩
    · -- Created, and given up.
      refine h.transient hf hmade hnot (hkept (hfailed he)) native.destroy.isOk ?_
      rw [hos, List.foldlM_cons, hcreate]
      show List.foldlM _ _ _ = _
      rw [List.foldlM_append, Native.reads_uses calls hadd.1 hadd.2]
      simp [Native.read, hadd.1, hadd.2]
    · -- Not created.
      refine h.keep hL.up_of_live hL.up_of_running hf (hkept (hfailed he)) fun o ho => ?_
      rw [hos] at ho
      rcases List.mem_cons.mp ho with rfl | ho
      · exact .inr (.inr (.inr (.inr (.inl ⟨_, rfl, hr, lt_irrefl _⟩))))
      · exact .inl (List.mem_singleton.mp ho ▸ rfl)
    · refine h.gain hf hmade (fun d => ?_) ?_
      · rcases htasks with ⟨hnone, -⟩ | ⟨id, raw'', hid', hraw', hupdate⟩
        · exact absurd ⟨hid, hraw⟩ (hnone _ _)
        · obtain rfl : σ.runtime.state.nextTaskId = id := Except.ok.inj (hid.symm.trans hid')
          cases d with
          | task k =>
            refine (Runtime.System.live_update (σ := σ.runtime) (k := k) hupdate).trans ?_
            split_ifs with hk
            · simp [hk, Task.State.init, Task.Pc.stage]
            · simp [State.Live, hk]
          | _ => simp [State.Live]
      · rw [hos, List.foldlM_cons, hcreate]
        show List.foldlM _ _ _ = _
        rw [List.foldlM_append, Native.reads_uses calls hadd.1 hadd.2]
        rfl

/-- A step of the registry that moves no descriptor and calls nothing. -/
theorem moveQuiet (h : Tracks σ n) (hL : Linked pid handle cfg raw current σ)
    {runtime : Runtime.System T P W} (hf : Frame σ { σ with runtime := runtime })
    (hlive : ∀ id, runtime.Live id ↔ σ.runtime.Live id) :
    ∃ n', ([] : List Event).foldlM Native.read n = some n' ∧
      Tracks { σ with runtime := runtime } n' := by
  refine h.keep hL.up_of_live hL.up_of_running hf (fun d => ?_) (by simp)
  cases d with
  | task id => exact hlive id
  | _ => rfl

/-- A step of the registry. -/
theorem moveRuntime (h : Tracks σ n) (hL : Linked pid handle cfg raw current σ)
    {a : Runtime.Action T P W} {runtime : Runtime.System T P W} (ha : runtimeWhole a = false)
    (hstep : Runtime.step pid a σ.runtime = .ok runtime) :
    ∃ n', (runtimeEvents pid a σ.runtime).foldlM Native.read n = some n' ∧
      Tracks { σ with runtime := runtime } n' := by
  have hf := frame_runtime hL ha hstep
  cases hL.runtime.unlogged_step hstep with
  | spawnFailed | spawned => exact h.moveSpawn hL hstep
  | task ht _ hm =>
    simp only [runtimeEvents, ht, Option.elim_some]
    exact h.moveTask hL ht hm hf rfl
  | abort hshutdown ht hm =>
    simp only [runtimeEvents, hshutdown, ht, Option.elim_some]
    exact h.moveTask hL ht hm hf rfl
  | taskCompleted _ ht hpc =>
    refine h.moveQuiet hL hf fun k => (Runtime.System.live_update rfl).trans ?_
    split_ifs with hk
    · rw [hk, Runtime.System.live_iff ht, hpc]
      rfl
    · rfl
  | abortEnd hshutdown =>
    simp only [runtimeEvents, hshutdown]
    exact h.moveQuiet hL hf fun _ => Iff.rfl
  | spawnReturn | drainEnd | drainSleep | drainWake => exact h.moveQuiet hL hf fun _ => Iff.rfl
  | beginClosed | beginRunning | beginClosing | teardown => cases ha

/-- A step of the ring. -/
theorem moveRing (h : Tracks σ n) (hL : Linked pid handle cfg raw current σ)
    {a : IoUring.Action} {ring : IoUring.State} (hstep : IoUring.step cfg a σ.ring = .ok ring) :
    ∃ n', (ringEvents a σ.ring).foldlM Native.read n = some n' ∧
      Tracks { σ with ring := ring } n' := by
  have hframe : ring.ring.isSome = σ.ring.ring.isSome → Frame σ { σ with ring := ring } :=
    fun hring => ⟨rfl, fun d => by cases d <;> exact id, id, rfl, hring⟩
  rcases ringEvents_cases hL.ring (IoUring.move_of_step hstep) with
    ⟨hos, hraw, hring⟩ | ⟨hos, hsome, hraw, hring⟩ | ⟨hos, hlive, hraw, hring⟩
  · refine h.keep hL.up_of_live hL.up_of_running (hframe hring) (fun d => ?_) fun o ho => ?_
    · cases d with
      | ring => simp [State.Live, hraw]
      | _ => rfl
    · rcases hos o ho with hanswer | ⟨rfl, hsome⟩ | ⟨call, rfl, hlive⟩
      · exact .inl hanswer
      · exact .inr (.inr (.inr (.inr (.inr ⟨rfl, hsome⟩))))
      · exact .inr (.inl ⟨_, call, rfl, hlive⟩)
  · -- The ring is dropped, and the descriptor stays.
    refine ⟨{ n with ring := false }, by simp [hos, Native.read, h.ring, hsome], ?_⟩
    exact
      { h with
        live := fun d => (h.live d).trans (by cases d <;> simp [State.Live, hraw])
        created := fun d hd => by
          have := h.created d hd
          cases d <;> exact this
        ring := hring.symm }
  · refine h.lose (hframe hring) (d := .ring) (fun d => ?_) true ?_
    · cases d with
      | ring => simp [State.Live, hraw]
      | _ => simp [State.Live]
    · have hmem := (h.live .ring).mpr hlive
      have hup := h.up.trans (hL.up_of_live .ring hlive)
      simp [hos, Native.read, hup, hmem]

/-- A step of the timer. -/
theorem moveTimer (h : Tracks σ n) (hL : Linked pid handle cfg raw current σ)
    {a : Timer.Action W} {timer : Timer.State W} (hstep : Timer.step a σ.timer = .ok timer) :
    ∃ n', (timerEvents a σ.timer).foldlM Native.read n = some n' ∧
      Tracks { σ with timer := timer } n' := by
  have hframe : Frame σ { σ with timer := timer } :=
    ⟨rfl, fun d => by cases d <;> exact id, id, rfl, rfl⟩
  rcases timerEvents_cases (.of_reaches hL.timer) (Timer.move_of_step hstep) with
    ⟨hos, hraw⟩ | ⟨⟨ok, hos⟩, hlive, hraw⟩
  · refine h.keep hL.up_of_live hL.up_of_running hframe (fun d => ?_) fun o ho => ?_
    · cases d with
      | timer => simp [State.Live, hraw]
      | _ => rfl
    · rcases hos o ho with hanswer | ⟨call, rfl, hlive⟩
      · exact .inl hanswer
      · exact .inr (.inl ⟨_, call, rfl, hlive⟩)
  · refine h.lose hframe (d := .timer) (fun d => ?_) ok ?_
    · cases d with
      | timer => simp [State.Live, hraw]
      | _ => simp [State.Live]
    · have hmem := (h.live .timer).mpr hlive
      have hup := h.up.trans (hL.up_of_live .timer hlive)
      simp [hos, Native.read, hup, hmem]

/-- A step of the owner thread in `try_block_on`, or a wake. -/
theorem moveRoot (h : Tracks σ n) (hL : Linked pid handle cfg raw current σ)
    {a : BlockOn.Action} {root : BlockOn.State} (ha : σ.allows (.root a) = true)
    (hstep : BlockOn.step pid pid handle a σ.root = .ok root) :
    ∃ n', (rootEvents pid pid a σ.root).foldlM Native.read n = some n' ∧
      Tracks { σ with root := root } n' := by
  have hasks : Asks a → σ.up = true := by
    rintro ⟨inTask, attach, rfl⟩
    exact hL.up_of_running (of_decide_eq_true ha).1.symm
  have hframe : σ.root.made ≤ root.made → Frame σ { σ with root := root } := by
    refine fun hle => ⟨rfl, fun d hd => ?_, id, rfl, rfl⟩
    cases d with
    | root k => exact lt_of_lt_of_le hd hle
    | _ => exact hd
  obtain ⟨hP, hO⟩ := BlockOn.invariant_of_reachable hL.root
  rcases rootEvents_cases hP hO hstep with
    ⟨hos, hmade, hpc⟩ | ⟨hos, hask, hpc, hmade, hpc'⟩ | ⟨⟨ok, hos⟩, hlive, hmade, hpc⟩
  · refine h.keep hL.up_of_live hL.up_of_running (hframe hmade.ge) (fun d => ?_) fun o ho => ?_
    · cases d with
      | root k => simp [State.Live, RootLive, hmade, hpc]
      | _ => rfl
    · rcases hos o ho with hanswer | ⟨hask, rfl | rfl⟩ | ⟨k, call, rfl, hlive⟩
      · exact .inl hanswer
      · exact .inr (.inr (.inl ⟨rfl, hasks hask⟩))
      · exact .inr (.inr (.inr (.inl ⟨_, rfl, hasks hask, lt_irrefl _⟩)))
      · exact .inr (.inl ⟨_, call, rfl, hlive⟩)
  · refine h.gain (hframe (by rw [hmade]; exact Nat.le_succ _)) (d := .root σ.root.made) ?_
      (fun d => ?_) ?_
    · show _ < root.made
      rw [hmade]
      exact Nat.lt_succ_self _
    · cases d with
      | root k => simp [State.Live, RootLive, hmade, hpc, hpc']
      | _ => simp [State.Live]
    · have hup := h.up.trans (hasks hask)
      have hnot : .root σ.root.made ∉ n.created := fun hd => absurd (h.created _ hd) (lt_irrefl _)
      simp [hos, Native.read, hup, hnot]
  · refine h.lose (hframe hmade.ge) (d := .root σ.root.parker) (fun d => ?_) ok ?_
    · cases d with
      | root k =>
        -- The thread was attached to this parker only.
        simp only [State.Live, RootLive, hpc, ne_eq, not_true_eq_false, and_false, false_iff,
          not_and, Descriptor.root.injEq, Decidable.not_not]
        rintro ⟨hk, -⟩
        exact Nat.succ_injective (hk.trans hlive.1.symm)
      | _ => simp [State.Live]
    · have hmem := (h.live (.root _)).mpr hlive
      have hup := h.up.trans (hL.up_of_live (.root _) hlive)
      simp [hos, Native.read, hup, hmem]

/-- `shutdown_inner` closes the lifecycle. -/
theorem moveShutdown (h : Tracks σ n) (hL : Linked pid handle cfg raw current σ)
    {order : List Runtime.TaskId} {runtime : Runtime.System T P W}
    (hstep : Runtime.step pid (.shutdownBegin order) σ.runtime = .ok runtime) :
    Tracks { σ with runtime := runtime, ring := { σ.ring with running := false } } n := by
  have hsame : runtime.tasks = σ.runtime.tasks ∧
      runtime.state.nextTaskId = σ.runtime.state.nextTaskId ∧
      (runtime.state.lifecycle = .closed ↔ σ.runtime.state.lifecycle = .closed) ∧
      (runtime.state.lifecycle = .running → σ.runtime.state.lifecycle = .running) := by
    cases hL.runtime.unlogged_step hstep with
    | beginClosed => exact ⟨rfl, rfl, Iff.rfl, id⟩
    | beginRunning _ _ _ hrunning => exact ⟨rfl, rfl, by simp [hrunning], nofun⟩
    | beginClosing => exact ⟨rfl, rfl, Iff.rfl, id⟩
  obtain ⟨htasks, hnext, hclosed, hrunning⟩ := hsame
  -- The lifecycle leaves `Running`, and nothing is given up yet.
  refine
    { h with
      up := h.up.trans (by simp only [State.up, ne_eq, hclosed])
      live := fun d => (h.live d).trans ?_
      created := fun d hd => ?_
      types := fun hr => h.types (decide_eq_true (hrunning (of_decide_eq_true hr))) }
  · cases d <;> simp [State.Live, Runtime.System.Live, htasks]
  · have := h.created d hd
    cases d with
    | task id =>
      show id < runtime.state.nextTaskId
      rwa [hnext]
    | _ => exact this

omit [DecidableEq W] in
/-- `shutdown_inner` enters a driver. -/
theorem enter (h : Tracks σ n) (hlive : ∀ d, τ.Live d ↔ σ.Live d) (hruntime : τ.runtime = σ.runtime)
    (hroot : τ.root = σ.root) (hring : τ.ring.ring = σ.ring.ring)
    (hreleased : τ.teardown.released = σ.teardown.released)
    (hpc : σ.teardown ≠ .close ∧ τ.teardown ≠ .close) : Tracks τ n where
  up := h.up.trans (by simp [State.up, hruntime, hpc.1, hpc.2])
  live d := (h.live d).trans (hlive d).symm
  created d hd := by
    have := h.created d hd
    cases d with
    | task id => simpa [State.Made, hruntime] using this
    | root k => simpa [State.Made, hroot] using this
    | ring | timer => exact trivial
  types hr := h.types (by simpa [State.running, hruntime] using hr)
  released t ht := h.released t (hreleased ▸ ht)
  down := h.down
  ring := h.ring.trans (by rw [hring])

/-- The next native call of `shutdown_inner` keeps the rules. -/
theorem moveCall (h : Tracks σ n) (hL : Linked pid handle cfg raw current σ) (native : Status)
    {call : Runtime.NativeCall} {next : TeardownPc} (hnext : σ.teardown.next = some (call, next))
    (hreturned : σ.returned = true) :
    ∃ n', (events pid (.teardown native) σ).foldlM Native.read n = some n' ∧
      n'.live = n.live ∧ n'.created = n.created ∧ n'.ring = n.ring ∧
      n'.up = !(call = .shutdown ∧ native.isOk = true : Bool) ∧
      (n'.up = false → n'.types = ∅ ∧ n'.keptTypes = ∅) ∧
      (native.isOk = true → ∀ t ∈ next.released, t ∉ n'.types ∧ t ∉ n'.keptTypes) := by
  have hup : n.up = true := h.up.trans (hL.up_of_next hnext).1
  have hreleased := h.released
  simp only [events, hnext]
  cases call with
  | typeDestroy t =>
    have hgone : ∀ d ∈ n.live, d.type ≠ some t := fun d hd =>
      hL.type_gone hnext hreturned ((h.live d).mp hd)
    refine ⟨n.removeType t native.isOk, ?_, rfl, rfl, rfl, by simp [Native.removeType, hup],
      fun hdown => ?_, fun hok => ?_⟩
    · simp only [List.foldlM_cons, List.foldlM_nil]
      rw [Native.read, if_pos ⟨hup, hgone⟩]
      rfl
    · exact absurd (hup.symm.trans hdown) (by simp)
    · -- The type comes on top of those already given up.
      have hadded : ∀ t' ∈ next.released, t' = t ∨ t' ∈ σ.teardown.released := by
        revert hnext
        cases σ.teardown <;> rintro ⟨⟩ <;> simp [TeardownPc.released]
      intro t' ht'
      simp only [Native.removeType, hok, if_true, Finset.mem_erase, not_and]
      rcases hadded t' ht' with rfl | ht
      · exact ⟨fun hne => absurd rfl hne, fun hne => absurd rfl hne⟩
      · exact ⟨fun _ => (hreleased t' ht).1, fun _ => (hreleased t' ht).2⟩
  | shutdown =>
    have hpc : σ.teardown = .finalize ∧ next = .close := by
      revert hnext
      cases σ.teardown <;> rintro ⟨⟩
      exact ⟨rfl, rfl⟩
    rw [hpc.1] at hreleased
    have hlive : n.live = ∅ :=
      Finset.eq_empty_of_forall_notMem fun d hd => hL.all_gone hpc.1 d ((h.live d).mp hd)
    have hmem : ∀ t, t ∉ n.types ∧ t ∉ n.keptTypes := fun t => hreleased t (by cases t <;> decide)
    have htypes : n.types = ∅ := Finset.eq_empty_of_forall_notMem fun t => (hmem t).1
    have hkept : n.keptTypes = ∅ := Finset.eq_empty_of_forall_notMem fun t => (hmem t).2
    refine ⟨{ n with up := !native.isOk }, ?_, rfl, rfl, rfl, by simp, fun _ => ⟨htypes, hkept⟩,
      fun _ t _ => hmem t⟩
    simp [Native.read, hup, hlive, htypes]

/-- The last step of an attempt of shutdown. -/
theorem moveEnd (h : Tracks σ n) {succeeds : Bool} {runtime : Runtime.System T P W} {n' : Native}
    (hstep : Runtime.step pid (.teardown succeeds) σ.runtime = .ok runtime)
    (hlive : n'.live = n.live) (hcreated : n'.created = n.created) (hring : n'.ring = n.ring)
    (hup : n'.up = !succeeds) (hdown : n'.up = false → n'.types = ∅ ∧ n'.keptTypes = ∅)
    (hσ : σ.running = false)
    (hclosed : σ.runtime.state.lifecycle ≠ .closed) :
    Tracks { σ with runtime := runtime, teardown := .outside } n' := by
  simp only [Runtime.step] at hstep
  split at hstep
  next =>
    cases hstep
    refine
      { up := hup.trans ?_
        live := fun d => ?_
        created := fun d hd => ?_
        types := fun hr => ?_
        released := fun t ht => by simp [TeardownPc.released] at ht
        down := hdown
        ring := hring.trans h.ring }
    · cases succeeds <;> simp [State.up, hclosed]
    · rw [hlive, h.live]
      cases d <;> rfl
    · have := h.created d (hcreated ▸ hd)
      cases d <;> exact this
    · -- Neither end of an attempt makes the runtime run again.
      have hnot : σ.runtime.state.lifecycle ≠ .running := of_decide_eq_false hσ
      cases succeeds <;> simp [State.running, hnot] at hr
  next => cases hstep

/-- nOS-V takes every step of the process. -/
theorem move (h : Tracks σ n) (hL : Linked pid handle cfg raw current σ)
    (hm : Move pid handle cfg σ a τ) :
    ∃ n', (events pid a σ).foldlM Native.read n = some n' ∧ Tracks τ n' := by
  cases hm with
  | runtime ha hstep => exact h.moveRuntime hL ha hstep
  | shutdown _ _ hstep => exact ⟨n, rfl, h.moveShutdown hL hstep⟩
  -- Entering a driver makes no call; the driver's own steps do.
  | enterRing hteardown hdrained hstep =>
    refine ⟨n, by simp [events, hteardown, TeardownPc.next], ?_⟩
    cases IoUring.move_of_step hstep with
    | shutdownAndWait =>
      exact h.enter (fun d => by cases d <;> rfl) rfl rfl rfl (by rw [hteardown]; rfl)
        ⟨by simp [hteardown], by simp⟩
  | enterTimer hteardown hstep =>
    refine ⟨n, by simp [events, hteardown, TeardownPc.next], ?_⟩
    cases Timer.move_of_step hstep with
    | shutdown =>
      exact h.enter (fun d => by cases d <;> rfl) rfl rfl rfl (by rw [hteardown]; rfl)
        ⟨by simp [hteardown], by simp⟩
  -- The calls of `shutdown_inner`, and what becomes of an attempt when one fails.
  | @call call next hnext hreturned =>
    obtain ⟨n', hos, hlive, hcreated, hring, hup, hdown, hreleased⟩ :=
      h.moveCall hL (.ok ()) hnext hreturned
    obtain ⟨hσ, -, hrunning⟩ := hL.up_of_next hnext
    refine ⟨n', hos, ?_⟩
    have hclose : next = .close ↔ call = .shutdown := by
      revert hnext
      cases σ.teardown <;> rintro ⟨⟩ <;> simp
    have hlifecycle : σ.runtime.state.lifecycle ≠ .closed := (of_decide_eq_true hσ).1
    refine
      { up := hup.trans ?_
        live := fun d => by
          rw [hlive, h.live]
          cases d <;> rfl
        created := fun d hd => by
          have := h.created d (hcreated ▸ hd)
          cases d <;> exact this
        types := fun hr => absurd hr (by simpa [State.running] using hrunning)
        released := hreleased rfl
        down := hdown
        ring := hring.trans h.ring }
    simp [State.up, hlifecycle, hclose, Except.isOk, Except.toBool]
  | @failed call next e runtime hnext hreturned hstep =>
    obtain ⟨n', hos, hlive, hcreated, hring, hup, hdown, -⟩ :=
      h.moveCall hL (.error e) hnext hreturned
    obtain ⟨hσ, -, hrunning⟩ := hL.up_of_next hnext
    exact ⟨n', hos, h.moveEnd hstep hlive hcreated hring
      (by simpa [Except.isOk, Except.toBool] using hup) hdown hrunning (of_decide_eq_true hσ).1⟩
  | close hteardown hstep =>
    refine ⟨n, by simp [events, hteardown, TeardownPc.next], ?_⟩
    have hdrained := hL.drained (by simp [hteardown])
    have hup : n.up = false := h.up.trans (by simp [State.up, hteardown])
    refine h.moveEnd hstep rfl rfl rfl hup h.down (Bool.eq_false_iff.mpr fun hr => ?_)
      fun hclosed => ?_
    · have := Linked.idle hL.runtime hr
      rw [hdrained] at this
      cases this
    · have := (hL.closed hclosed).1
      rw [hdrained] at this
      cases this
  | ring _ hstep => exact h.moveRing hL hstep
  | timer _ hstep => exact h.moveTimer hL hstep
  | root ha hstep => exact h.moveRoot hL ha hstep
  -- A query is refused without a call unless the runtime is running.
  | @query native hlock =>
    refine h.keep hL.up_of_live hL.up_of_running ⟨rfl, fun _ => id, id, rfl, rfl⟩
      (fun _ => Iff.rfl) fun o ho => ?_
    simp only [events] at ho
    split_ifs at ho with hr
    · rcases List.mem_cons.mp ho with rfl | ho
      · exact .inr (.inr (.inl ⟨rfl, hL.up_of_running hr⟩))
      · exact .inl (List.mem_singleton.mp ho ▸ rfl)
    · exact .inl (List.mem_singleton.mp ho ▸ rfl)
  | capability | operation => exact ⟨n, rfl, h⟩

end Tracks

/-! ## Runs -/

/-- When a runtime is closed, nOS-V and the kernel hold nothing for it but the descriptors that
nOS-V has refused to give up. -/
theorem Tracks.empty (h : Tracks σ n) (hL : Linked pid handle cfg raw current σ)
    (hclosed : σ.runtime.state.lifecycle = .closed) :
    n.up = false ∧ n.live = ∅ ∧ n.types = ∅ ∧ n.keptTypes = ∅ ∧ n.ring = false := by
  have hup : σ.up = false := by simp [State.up, hclosed]
  have hdown : n.up = false := h.up.trans hup
  obtain ⟨htypes, hkept⟩ := h.down hdown
  refine ⟨hdown, Finset.eq_empty_of_forall_notMem fun d hd => ?_, htypes, hkept, h.ring.trans ?_⟩
  · have := hL.up_of_live d ((h.live d).mp hd)
    rw [hup] at this
    cases this
  · -- A driver that has completed has dropped its ring.
    have hdriver := IoUring.completed_of_reachable hL.ring (hL.down hup).2.1
    rw [Option.isSome_eq_false_iff, Option.isNone_iff_eq_none,
      (IoUring.Stopping.of_reachable hL.ring).ring, hdriver]
    rfl

/-- Every run is taken that starts where the components agree and the process is right about
nOS-V. -/
theorem Tracks.accepted {σ₀ : State T P W} {n₀ : Native} {os : List Event}
    (hT : Tracks σ₀ n₀) (hL : Linked pid handle cfg raw current σ₀)
    (h : Lts.Emits (step pid handle cfg) (events pid) σ₀ os σ) :
    ∃ n, os.foldlM Native.read n₀ = some n ∧ Tracks σ n ∧
      (σ.runtime.state.lifecycle = .closed →
        n.up = false ∧ n.live = ∅ ∧ n.types = ∅ ∧ n.keptTypes = ∅ ∧ n.ring = false) := by
  have hlinked : ∀ τ, Lts.Reaches (step pid handle cfg) Lts.Always σ₀ τ →
      Linked pid handle cfg raw current τ :=
    fun _ hr => hr.invariant hL fun _ _ _ hI _ hst => hI.move (move_of_step hst)
  obtain ⟨n, hos, hT'⟩ := h.accepted (R := fun n σ => Tracks σ n) hlinked hT
    fun _ _ _ _ hJ hR hst => hR.move hJ (move_of_step hst)
  exact ⟨n, hos, hT', hT'.empty (hlinked _ h.reaches)⟩

/-- The ring driver stops after its first pass, which finds nothing to do. -/
def ringTeardown : List IoUring.Action :=
  [.closeAdmission, .raiseShutdown [], .cancelSubmission, .cancelSnapshot, .notify .owner,
    .passBegin, .stageCancellation 10, .stageOwnedCancellation 10, .stageOwned 10, .submit (.ok 0),
    .accept, .wakeAdmission, .failOwned, .reap, .dispatch, .cancelOverflow, .decide, .takeRing,
    .closeGate, .retire, .complete, .awaitCompleted]

/-- The task is aborted before its first poll. -/
def taskAborted : List (Task.Action ℕ ℕ ℕ) :=
  [.enter, .startPoll, .dropFuture none, .store, .leave, .retire (.ok ()), .publish]

/-- The timer driver stops after a pass over an empty heap. -/
def timerTeardown : List (Timer.Action ℕ) :=
  .shutdownNotify (.ok ()) :: (List.replicate 7 (.driver (.ok ()) 0)).concat .shutdownReturn

/-- A process that blocks on a future which spawns a task, and shuts down before the task runs. A
second spawn has no metadata, and its descriptor cannot be destroyed; nor can the thread be
detached. -/
def lifetime : List (Action ℕ ℕ ℕ) :=
  List.flatten [
    [.root (.blockOn true true false (.ok 40)), .root .beginPoll,
      .runtime (.spawn (.ok ()) ⟨.ok 1, .ok (), .ok (), .ok ()⟩), .runtime .spawnReturn,
      .runtime (.spawn (.ok ()) ⟨.ok 2, .error .outOfMemory, .ok (), .error .busy⟩),
      .root (.poll .ready), .root .close, .root .leave, .root (.detach (.error .busy)),
      .shutdown [1],
      .runtime (.shutdownAbort (.ok ())), .runtime (.shutdownAbort (.ok ())),
      .runtime .drainCheck],
    taskAborted.map fun a => .runtime (.task 1 a),
    [.runtime (.taskCompleted 1), .runtime .drainCheck, .teardown (.ok ())],
    ringTeardown.map .ring,
    [.teardown (.ok ()), .teardown (.ok ())],
    timerTeardown.map .timer,
    List.replicate 4 (.teardown (.ok ()))]

end Nosv.Process
