import Mathlib.Tactic.SplitIfs
import Nosv.Runtime.Machine

/-!
# Teardown and its retries

`shutdown_inner` behind its drain loop destroys the task types and finalizes nOS-V, with an early
return after each call that fails. The only record of how far it came is the lifecycle, which
stays `Closing`, so the next attempt starts from the first call again. `Runtime::shutdown` makes
one attempt, and the drop of the runtime another one as long as none has succeeded.

A retry is harmless when the attempt before it failed at its very first call, and otherwise destroys
a type again that is gone already.

* `Owner.Sound.run`: the log of any attempts fits the lifecycle;
* `Owner.once_iff` and `releases_once_iff`: when everything is released once;
* `drop_destroys_again`: the drop that destroys a type again.
-/

namespace Nosv.Runtime

/-! ## One attempt -/

/-- The features that decide which drivers a runtime has. -/
structure Features where
  ioUring : Bool
  time : Bool
  deriving DecidableEq, Repr

/-- The task types of a runtime. -/
inductive TaskType where
  | ioUring
  | timer
  | async
  deriving DecidableEq, Repr

/-- The native calls of teardown. -/
inductive NativeCall where
  | typeDestroy (type : TaskType)
  | shutdown
  deriving DecidableEq, Repr

/-- Why shutdown could not complete. -/
inductive ShutdownError where
  | wrongThread
  | forkedProcess
  | native (error : NativeError)
  deriving DecidableEq, Repr

/-- The calls of a complete teardown, in their order. -/
def Features.teardown (features : Features) : List NativeCall :=
  -- The driver types go in the reverse order of their creation, the async type after them.
  (if features.ioUring then [.typeDestroy .ioUring] else []) ++
    (if features.time then [.typeDestroy .timer] else []) ++ [.typeDestroy .async, .shutdown]

/-- Make native calls up to the first that fails. -/
def issue (native : NativeCall → Status) :
    List NativeCall → List (NativeCall × Status) × Except ShutdownError Unit
  | [] => ([], .ok ())
  | call :: rest =>
    match native call with
    -- The first failure returns, what was released before it stays released.
    | .error e => ([(call, .error e)], .error (.native e))
    | .ok () =>
      let (log, result) := issue native rest
      ((call, .ok ()) :: log, result)

/-- A thread identifier. -/
abbrev ThreadId := ℕ

/-- What makes an attempt. -/
inductive Caller where
  | shutdown
  | drop
  deriving DecidableEq, Repr

/-- An attempt, with where it is made and what its native calls return. -/
structure Attempt where
  caller : Caller
  thread : ThreadId
  pid : Pid
  native : NativeCall → Status

/-- The thread and the process that built the runtime, and its features. -/
structure Origin where
  features : Features
  ownerThread : ThreadId
  pid : Pid

/-- `shutdown_inner`: the lifecycle it leaves, its native calls and its result. -/
def shutdownInner (origin : Origin) (attempt : Attempt) (lifecycle : Lifecycle) :
    Lifecycle × List (NativeCall × Status) × Except ShutdownError Unit :=
  -- The owner thread is checked before the process.
  if attempt.thread ≠ origin.ownerThread then (lifecycle, [], .error .wrongThread)
  else if attempt.pid ≠ origin.pid then (lifecycle, [], .error .forkedProcess)
  else
    match lifecycle with
    | .closed => (.closed, [], .ok ())
    | .running | .closing =>
      -- Behind the abort requests and the drain loop, which `step` models.
      let (log, result) := issue attempt.native origin.features.teardown
      (if result.isOk then .closed else .closing, log, result)

/-- A `Runtime`, with every native call that its attempts have made. -/
structure Owner where
  lifecycle : Lifecycle
  /-- Whether drop still has to attempt shutdown. -/
  active : Bool
  log : List (NativeCall × Status)

/-- A runtime just built. -/
def Owner.init : Owner := ⟨.running, true, []⟩

/-- One more attempt. Drop makes none once shutdown has succeeded. -/
def Owner.attempt (origin : Origin) (owner : Owner) (attempt : Attempt) : Owner :=
  if attempt.caller = .drop ∧ owner.active = false then owner
  else
    let (lifecycle, log, result) := shutdownInner origin attempt owner.lifecycle
    ⟨lifecycle, owner.active && !result.isOk, owner.log ++ log⟩

/-- Any number of attempts. -/
def Owner.run (origin : Origin) (owner : Owner) (attempts : List Attempt) : Owner :=
  attempts.foldl (Owner.attempt origin) owner

/-- The teardown step of the machine takes the lifecycle where `shutdown_inner` takes it. -/
theorem step_teardown {T P W : Type} [DecidableEq W] {σ : System T P W} {origin : Origin}
    {attempt : Attempt} (hthread : attempt.thread = origin.ownerThread)
    (hpid : attempt.pid = origin.pid) (hshutdown : σ.shutdown = .drained)
    (hlock : σ.locked = false) (hclosing : σ.state.lifecycle = .closing) :
    step origin.pid (.teardown (shutdownInner origin attempt .closing).2.2.isOk) σ =
      .ok { σ with
        state := { σ.state with lifecycle := (shutdownInner origin attempt .closing).1 }
        shutdown := .idle } := by
  simp [step, shutdownInner, hthread, hpid, hshutdown, hlock, hclosing]

/-! ## What an attempt does -/

/-- The attempt is made where the runtime may be shut down. -/
def Attempt.Effective (origin : Origin) (attempt : Attempt) : Prop :=
  attempt.thread = origin.ownerThread ∧ attempt.pid = origin.pid

/-- Every native call of a teardown would succeed in it. -/
def Attempt.Complete (origin : Origin) (attempt : Attempt) : Prop :=
  ∀ call ∈ origin.features.teardown, attempt.native call = .ok ()

/-- The first native call of a teardown. -/
def Features.first (features : Features) : TaskType :=
  if features.ioUring then .ioUring else if features.time then .timer else .async

instance (origin : Origin) (attempt : Attempt) : Decidable (attempt.Effective origin) :=
  inferInstanceAs (Decidable (_ ∧ _))

instance (x : Status) : Decidable (x = .ok ()) :=
  match x with
  | .ok () => .isTrue rfl
  | .error _ => .isFalse nofun

instance (origin : Origin) (attempt : Attempt) : Decidable (attempt.Complete origin) :=
  inferInstanceAs (Decidable (∀ call ∈ origin.features.teardown, _))

section Issue

variable {native : NativeCall → Status} {calls : List NativeCall}

/-- A call that fails is the last. -/
theorem issue_error {call : NativeCall} {rest : List NativeCall} {e : NativeError}
    (h : native call = .error e) :
    issue native (call :: rest) = ([(call, .error e)], .error (.native e)) := by
  unfold issue
  rw [h]

/-- A call that succeeds is followed by the others. -/
theorem issue_ok {call : NativeCall} {rest : List NativeCall} (h : native call = .ok ()) :
    issue native (call :: rest) =
      ((call, .ok ()) :: (issue native rest).1, (issue native rest).2) := by
  show (match native call with | .error e => _ | .ok () => _) = _
  rw [h]

/-- Every call made is in the log first. -/
theorem issue_head (call : NativeCall) (rest : List NativeCall) :
    (call, native call) ∈ (issue native (call :: rest)).1 := by
  cases h : native call with
  | error e => simp [issue_error h]
  | ok => simp [issue_ok h]

/-- The calls made are the first ones, with the results they have. -/
theorem issue_initial (native : NativeCall → Status) (calls : List NativeCall) :
    (issue native calls).1.map Prod.fst <+: calls ∧
      ∀ entry ∈ (issue native calls).1, entry.2 = native entry.1 := by
  induction calls with
  | nil => exact ⟨List.prefix_rfl, by simp [issue]⟩
  | cons call rest ih =>
    unfold issue
    split
    next e he => exact ⟨by simp, by simp [he]⟩
    next he =>
      refine ⟨by simpa using ih.1, ?_⟩
      rintro entry (_ | ⟨_, hentry⟩)
      · exact he.symm
      · exact ih.2 entry hentry

/-- The calls of a sequence all succeed exactly when its result is a success. -/
theorem issue_isOk_iff (native : NativeCall → Status) (calls : List NativeCall) :
    (issue native calls).2.isOk = true ↔ ∀ call ∈ calls, native call = .ok () := by
  induction calls with
  | nil => simp [issue, Except.isOk, Except.toBool]
  | cons call rest ih =>
    unfold issue
    split
    next e he => simp [he, Except.isOk, Except.toBool]
    next he => simpa [he] using ih

/-- If they all succeed they are all made. -/
theorem issue_complete (h : ∀ call ∈ calls, native call = .ok ()) :
    (issue native calls).1 = calls.map (·, .ok ()) := by
  induction calls with
  | nil => rfl
  | cons call rest ih =>
    unfold issue
    rw [h call List.mem_cons_self]
    simpa using ih fun c hc => h c (List.mem_cons_of_mem _ hc)

/-- If the last one has succeeded then so have they all. -/
theorem issue_last {last : NativeCall} (hlast : last ∉ calls)
    (h : (last, .ok ()) ∈ (issue native (calls ++ [last])).1) :
    (issue native (calls ++ [last])).2.isOk = true := by
  -- The calls are issued in order, up to the first that fails.
  induction calls with
  | nil =>
    rw [List.nil_append] at h ⊢
    unfold issue at h ⊢
    split
    next e he =>
      rw [he] at h
      simp at h
    next => rfl
  | cons call rest ih =>
    rw [List.mem_cons, not_or] at hlast
    rw [List.cons_append] at h ⊢
    unfold issue at h ⊢
    split
    next e he =>
      rw [he] at h
      simp at h
    next he =>
      rw [he] at h
      simp only [List.mem_cons, Prod.mk.injEq] at h
      rcases h with ⟨rfl, -⟩ | h
      · exact absurd rfl hlast.1
      · exact ih hlast.2 h

/-- A last call that succeeds ends the log. -/
theorem issue_final {last : NativeCall} (hlast : last ∉ calls) :
    (issue native (calls ++ [last])).1.Pairwise fun earlier _ => earlier ≠ (last, .ok ()) := by
  induction calls with
  | nil =>
    rw [List.nil_append]
    unfold issue
    split
    · exact List.pairwise_singleton ..
    · exact List.pairwise_singleton ..
  | cons call rest ih =>
    rw [List.mem_cons, not_or] at hlast
    rw [List.cons_append]
    unfold issue
    split
    · exact List.pairwise_singleton ..
    · refine List.Pairwise.cons (fun _ _ he => ?_) (ih hlast.2)
      exact hlast.1 (congrArg Prod.fst he).symm

end Issue

section Teardown

variable (features : Features)

/-- Nothing is released twice in one teardown. -/
theorem Features.teardown_nodup : features.teardown.Nodup := by
  rcases features with ⟨_ | _, _ | _⟩ <;> decide

/-- A teardown begins with a type. -/
theorem Features.teardown_first :
    ∃ rest, features.teardown = .typeDestroy features.first :: rest := by
  rcases features with ⟨_ | _, _ | _⟩ <;> exact ⟨_, rfl⟩

/-- A teardown ends with `nosv_shutdown`, and calls it nowhere else. -/
theorem Features.teardown_last :
    ∃ types, features.teardown = types ++ [.shutdown] ∧ NativeCall.shutdown ∉ types := by
  refine ⟨features.teardown.dropLast, ?_⟩
  rcases features with ⟨_ | _, _ | _⟩ <;> decide

end Teardown

section Attempt

variable {origin : Origin} {owner : Owner} {attempt : Attempt}

/-- Shutdown has not succeeded yet. -/
def Owner.Open (owner : Owner) : Prop := owner.active = true ∧ owner.lifecycle ≠ .closed

/-- An attempt in another thread or process does nothing. -/
theorem Owner.attempt_ineffective (h : ¬attempt.Effective origin) :
    owner.attempt origin attempt = owner := by
  -- Either check fails before the lifecycle is looked at.
  have hinner : (shutdownInner origin attempt owner.lifecycle).1 = owner.lifecycle ∧
      (shutdownInner origin attempt owner.lifecycle).2.1 = [] ∧
      (shutdownInner origin attempt owner.lifecycle).2.2.isOk = false := by
    unfold shutdownInner
    split
    next => exact ⟨rfl, rfl, rfl⟩
    next hthread =>
      split
      next => exact ⟨rfl, rfl, rfl⟩
      next hpid => exact absurd ⟨not_not.mp hthread, not_not.mp hpid⟩ h
  obtain ⟨hlifecycle, hlog, hresult⟩ := hinner
  unfold Owner.attempt
  split
  next => rfl
  next => simp [hlifecycle, hlog, hresult]

/-- An attempt on a closed runtime makes no native call. -/
theorem Owner.attempt_closed (h : owner.lifecycle = .closed) :
    (owner.attempt origin attempt).lifecycle = .closed ∧
      (owner.attempt origin attempt).log = owner.log := by
  unfold Owner.attempt
  split
  next => exact ⟨h, rfl⟩
  next =>
    rw [h]
    unfold shutdownInner
    split_ifs <;> simp

/-- Any other attempt issues the whole teardown. -/
theorem Owner.attempt_open (hopen : owner.Open) (heffective : attempt.Effective origin) :
    owner.attempt origin attempt =
      ⟨if attempt.Complete origin then .closed else .closing, !decide (attempt.Complete origin),
        owner.log ++ (issue attempt.native origin.features.teardown).1⟩ := by
  obtain ⟨hactive, hclosed⟩ := hopen
  have hinner : shutdownInner origin attempt owner.lifecycle =
      (if (issue attempt.native origin.features.teardown).2.isOk then .closed else .closing,
        issue attempt.native origin.features.teardown) := by
    unfold shutdownInner
    rw [if_neg (not_not.mpr heffective.1), if_neg (not_not.mpr heffective.2)]
    cases hlifecycle : owner.lifecycle with
    | closed => exact absurd hlifecycle hclosed
    | running | closing => rfl
  have hcomplete := issue_isOk_iff attempt.native origin.features.teardown
  unfold Owner.attempt
  rw [if_neg (by simp [hactive]), hinner]
  by_cases hc : attempt.Complete origin
  · simp [hc, hactive, hcomplete.mpr hc]
  · have hfailed := Bool.not_eq_true _ ▸ mt hcomplete.mp hc
    simp [hc, hactive, hfailed]

/-- Whatever its attempts have done stays in the log. -/
theorem Owner.log_initial (origin : Origin) (owner : Owner) (attempts : List Attempt) :
    owner.log <+: (owner.run origin attempts).log := by
  induction attempts generalizing owner with
  | nil => exact List.prefix_rfl
  | cons attempt rest ih =>
    refine List.IsPrefix.trans ?_ (ih (owner.attempt origin attempt))
    unfold Owner.attempt
    split
    · exact List.prefix_rfl
    · exact List.prefix_append _ _

/-- Attempts leave a closed runtime closed, and its log as it was. -/
theorem Owner.run_closed (h : owner.lifecycle = .closed) (attempts : List Attempt) :
    (owner.run origin attempts).lifecycle = .closed ∧
      (owner.run origin attempts).log = owner.log := by
  induction attempts generalizing owner with
  | nil => exact ⟨h, rfl⟩
  | cons attempt rest ih =>
    have hattempt := @Owner.attempt_closed origin owner attempt h
    have hrest := ih hattempt.1
    exact ⟨hrest.1, hrest.2.trans hattempt.2⟩

/-- Attempts in other threads or processes change nothing. -/
theorem Owner.run_ineffective {attempts : List Attempt}
    (h : ∀ attempt ∈ attempts, ¬attempt.Effective origin) : owner.run origin attempts = owner := by
  induction attempts generalizing owner with
  | nil => rfl
  | cons attempt rest ih =>
    have hattempt : owner.attempt origin attempt = owner :=
      Owner.attempt_ineffective (h attempt List.mem_cons_self)
    show (owner.attempt origin attempt).run origin rest = owner
    rw [hattempt]
    exact ih fun a ha => h a (List.mem_cons_of_mem _ ha)

end Attempt

/-! ## What always holds -/

/-- What holds between attempts, whatever the native calls return. -/
structure Owner.Sound (origin : Origin) (owner : Owner) : Prop where
  active : owner.active = false ↔ owner.lifecycle = .closed
  closed : owner.lifecycle = .closed ↔
    ∀ call ∈ origin.features.teardown, (call, .ok ()) ∈ owner.log
  shutdown : owner.lifecycle ≠ .closed → (.shutdown, .ok ()) ∉ owner.log
  final : owner.log.Pairwise fun earlier _ => earlier ≠ (.shutdown, .ok ())

section Sound

variable {origin : Origin} {owner : Owner}

/-- A runtime just built has everything yet to be released. -/
theorem Owner.Sound.init : Owner.init.Sound origin := by
  refine ⟨⟨nofun, nofun⟩, ⟨nofun, fun h => ?_⟩, fun _ h => (by cases h), List.Pairwise.nil⟩
  obtain ⟨rest, hfirst⟩ := origin.features.teardown_first
  rw [hfirst] at h
  exact absurd (h _ List.mem_cons_self) List.not_mem_nil

/-- Once more attempt keeps it so. -/
theorem Owner.Sound.attempt (h : owner.Sound origin) (attempt : Attempt) :
    (owner.attempt origin attempt).Sound origin := by
  obtain ⟨types, hlast, hshutdown⟩ := origin.features.teardown_last
  by_cases heffective : attempt.Effective origin
  swap
  · rw [Owner.attempt_ineffective heffective]
    exact h
  by_cases hclosed : owner.lifecycle = .closed
  · obtain ⟨hlifecycle, hlog⟩ := @Owner.attempt_closed origin owner attempt hclosed
    refine ⟨⟨fun _ => hlifecycle, fun _ => ?_⟩, ?_, fun hne => absurd hlifecycle hne,
      hlog ▸ h.final⟩
    · unfold Owner.attempt
      split
      · exact h.active.mpr hclosed
      · simp [h.active.mpr hclosed]
    · rw [hlog, ← h.closed]
      exact ⟨fun _ => hclosed, fun _ => hlifecycle⟩
  have hopen : owner.Open := ⟨by simpa using mt h.active.mp hclosed, hclosed⟩
  rw [Owner.attempt_open hopen heffective]
  -- The only attempts that do anything: effective ones on an open runtime.
  have hold := h.shutdown hclosed
  have hdone := issue_isOk_iff attempt.native origin.features.teardown
  have hfinal : (owner.log ++ (issue attempt.native origin.features.teardown).1).Pairwise
      fun earlier _ => earlier ≠ (.shutdown, .ok ()) := by
    refine List.pairwise_append.mpr ⟨h.final, ?_, fun entry hentry _ _ he => ?_⟩
    · rw [hlast]
      exact issue_final hshutdown
    · exact hold (he ▸ hentry)
  by_cases hc : attempt.Complete origin
  · have hlog := issue_complete hc
    refine ⟨by simp [hc], ?_, by simp [hc], hfinal⟩
    rw [hlog]
    simp +contextual [hc]
  · -- An attempt that fails has not come to the last call.
    have hnew : (.shutdown, .ok ()) ∉ (issue attempt.native origin.features.teardown).1 := by
      intro hmem
      rw [hlast] at hmem
      exact hc (hdone.mp (hlast ▸ issue_last hshutdown hmem))
    have hnot : (.shutdown, .ok ()) ∉
        owner.log ++ (issue attempt.native origin.features.teardown).1 := by
      rw [List.mem_append, not_or]
      exact ⟨hold, hnew⟩
    refine ⟨by simp [hc], ?_, fun _ => hnot, hfinal⟩
    simp only [hc, if_false, reduceCtorEq, false_iff]
    intro hall
    exact hnot (hall _ (by rw [hlast]; exact List.mem_append_right _ List.mem_cons_self))

/-- The log and the lifecycle agree after any number of attempts. -/
theorem Owner.Sound.run (h : owner.Sound origin) (attempts : List Attempt) :
    (owner.run origin attempts).Sound origin := by
  induction attempts generalizing owner with
  | nil => exact h
  | cons attempt rest ih => exact ih (h.attempt attempt)

end Sound

/-! ## What a retry does -/

/-- No type is destroyed again once it has been destroyed. -/
def Once (log : List (NativeCall × Status)) : Prop :=
  log.Pairwise fun earlier later =>
    ∀ type, earlier = (.typeDestroy type, .ok ()) → later.1 ≠ .typeDestroy type

/-- No attempt follows one that released something and failed. An attempt that fails at its very
first call has released nothing, and behind one that succeeds there is nothing left to do. -/
def Clean (origin : Origin) : List Attempt → Prop
  | [] => True
  | attempt :: rest =>
    if ¬attempt.Effective origin then Clean origin rest
    else if attempt.Complete origin then True
    else if attempt.native (.typeDestroy origin.features.first) = .ok () then
      ∀ later ∈ rest, ¬later.Effective origin
    else Clean origin rest

section Retry

variable {origin : Origin} {owner : Owner}

/-- A log without successes has destroyed nothing. -/
theorem Once.of_barren {log : List (NativeCall × Status)} (h : ∀ entry ∈ log, entry.2 ≠ .ok ()) :
    Once log := by
  refine List.pairwise_of_forall_mem_list fun earlier hearlier _ _ type he => ?_
  subst he
  exact absurd rfl (h _ hearlier)

/-- One teardown behind such a log destroys nothing twice. -/
theorem Once.append_issue {log : List (NativeCall × Status)} (native : NativeCall → Status)
    (h : ∀ entry ∈ log, entry.2 ≠ .ok ()) :
    Once (log ++ (issue native origin.features.teardown).1) := by
  refine List.pairwise_append.mpr ⟨Once.of_barren h, ?_, fun earlier hearlier _ _ type he => ?_⟩
  · have hnodup : ((issue native origin.features.teardown).1.map Prod.fst).Nodup :=
      origin.features.teardown_nodup.sublist (issue_initial native _).1.sublist
    -- The log of one teardown follows a list without repetitions.
    refine (List.pairwise_map.mp hnodup).imp fun hne type he hlater => ?_
    rw [he, hlater] at hne
    exact hne rfl
  · subst he
    exact absurd rfl (h _ hearlier)

/-- A retry issues the first call again. -/
theorem Owner.run_again (hopen : owner.Open)
    (hfirst : (.typeDestroy origin.features.first, .ok ()) ∈ owner.log) {attempts : List Attempt}
    (hagain : ∃ attempt ∈ attempts, attempt.Effective origin) :
    ¬Once (owner.run origin attempts).log := by
  induction attempts with
  | nil => simp at hagain
  | cons attempt rest ih =>
    by_cases heffective : attempt.Effective origin
    · -- The attempt issues its first call again, whatever comes of it.
      intro (honce : List.Pairwise _ ((owner.attempt origin attempt).run origin rest).log)
      have hlog := (owner.attempt origin attempt).log_initial origin rest
      rw [Owner.attempt_open hopen heffective] at hlog honce
      have hpair := List.pairwise_append.mp (honce.sublist hlog.sublist)
      obtain ⟨others, hteardown⟩ := origin.features.teardown_first
      refine hpair.2.2 _ hfirst (.typeDestroy origin.features.first,
        attempt.native (.typeDestroy origin.features.first)) ?_ _ rfl rfl
      rw [hteardown]
      exact issue_head _ _
    · show ¬Once ((owner.attempt origin attempt).run origin rest).log
      rw [Owner.attempt_ineffective heffective]
      refine ih ?_
      obtain ⟨later, hlater, hl⟩ := hagain
      rcases List.mem_cons.mp hlater with rfl | hlater
      · exact absurd hl heffective
      · exact ⟨later, hlater, hl⟩

/-- From a runtime that has released nothing, nothing is released twice exactly if no attempt
follows one that released something and failed. -/
theorem Owner.once_iff (hopen : owner.Open) (hbarren : ∀ entry ∈ owner.log, entry.2 ≠ .ok ())
    (attempts : List Attempt) : Once (owner.run origin attempts).log ↔ Clean origin attempts := by
  induction attempts generalizing owner with
  | nil => exact iff_of_true (.of_barren hbarren) trivial
  | cons attempt rest ih =>
    unfold Clean
    show Once ((owner.attempt origin attempt).run origin rest).log ↔ _
    by_cases heffective : attempt.Effective origin
    swap
    · rw [if_pos heffective, Owner.attempt_ineffective heffective]
      exact ih hopen hbarren
    rw [if_neg (not_not.mpr heffective)]
    have hattempt := Owner.attempt_open hopen heffective
    by_cases hc : attempt.Complete origin
    · -- A complete attempt closes the runtime, and nothing follows it in the log.
      have hclosed : (owner.attempt origin attempt).lifecycle = .closed := by
        rw [hattempt]
        exact if_pos hc
      rw [if_pos hc, (Owner.run_closed hclosed rest).2, hattempt]
      exact iff_of_true (.append_issue _ hbarren) trivial
    have hopen' : (owner.attempt origin attempt).Open := by
      rw [hattempt]
      simp [Owner.Open, hc]
    obtain ⟨others, hteardown⟩ := origin.features.teardown_first
    rw [if_neg hc]
    by_cases hfirst : attempt.native (.typeDestroy origin.features.first) = .ok ()
    · rw [if_pos hfirst]
      constructor
      · -- The first call was successful and the attempt was not, so any effective retry repeats
        -- it.
        intro honce later hlater hl
        refine Owner.run_again hopen' ?_ ⟨later, hlater, hl⟩ honce
        rw [hattempt, hteardown, issue_ok hfirst]
        simp
      · intro hrest
        rw [Owner.run_ineffective hrest, hattempt]
        exact .append_issue _ hbarren
    · rw [if_neg hfirst]
      refine ih hopen' ?_
      cases he : attempt.native (.typeDestroy origin.features.first) with
      | ok => exact absurd he hfirst
      | error e =>
        rw [hattempt, hteardown, issue_error he]
        simpa [or_imp, forall_and] using hbarren

end Retry

/-! ## Releasing at most once -/

/-- Shutdown releases each native resource at most once, in every prefix of the attempts. -/
structure ReleasesOnce (origin : Origin) (attempts : List Attempt) : Prop where
  /-- A type is not destroyed again. -/
  once : Once (Owner.init.run origin attempts).log
  /-- Nothing follows a successful finalization of nOS-V. -/
  final : (Owner.init.run origin attempts).log.Pairwise fun earlier _ =>
    earlier ≠ (.shutdown, .ok ())
  /-- The runtime is closed when everything has been released, and not before. -/
  closed : ∀ n, (Owner.init.run origin (attempts.take n)).lifecycle = .closed ↔
    ∀ call ∈ origin.features.teardown,
      (call, .ok ()) ∈ (Owner.init.run origin (attempts.take n)).log
  /-- On a closed runtime no native call is made. -/
  inert : ∀ n, (Owner.init.run origin (attempts.take n)).lifecycle = .closed →
    (Owner.init.run origin attempts).log = (Owner.init.run origin (attempts.take n)).log

/-- Any number of attempts, in any thread and process and with any results of their native calls,
releases each native resource at most once exactly if none follows one that released its first
resource and failed later. -/
theorem releases_once_iff (origin : Origin) (attempts : List Attempt) :
    ReleasesOnce origin attempts ↔ Clean origin attempts := by
  have honce : Once (Owner.init.run origin attempts).log ↔ Clean origin attempts :=
    Owner.once_iff ⟨rfl, by decide⟩ (by simp [Owner.init]) attempts
  refine ⟨fun h => honce.mp h.once, fun h => ⟨honce.mpr h, ?_, fun n => ?_, fun n hclosed => ?_⟩⟩
  · exact (Owner.Sound.init.run attempts).final
  · exact (Owner.Sound.init.run (attempts.take n)).closed
  · have hrun := (@Owner.run_closed origin _ hclosed (attempts.drop n)).2
    unfold Owner.run at hrun ⊢
    rwa [← List.foldl_append, List.take_append_drop] at hrun

/-- A runtime with both drivers, built by the main thread. -/
def Origin.full : Origin := ⟨⟨true, true⟩, 0, 0⟩

/-- An attempt whose timer type is busy. -/
def Attempt.timerBusy : Attempt :=
  ⟨.shutdown, 0, 0, fun call =>
    if call = .typeDestroy .timer then .error .busy else .ok ()⟩

/-- An attempt by drop that could do everything. -/
def Attempt.byDrop : Attempt := ⟨.drop, 0, 0, fun _ => .ok ()⟩

/-- When the timer type cannot be destroyed, the drop of the runtime destroys the `io_uring` type a
second time. -/
theorem drop_destroys_again : ¬ReleasesOnce .full [.timerBusy, .byDrop] := by
  intro h
  have hlog : (Owner.init.run .full [.timerBusy, .byDrop]).log =
      [(.typeDestroy .ioUring, .ok ()), (.typeDestroy .timer, .error .busy),
        (.typeDestroy .ioUring, .ok ()), (.typeDestroy .timer, .ok ()),
        (.typeDestroy .async, .ok ()), (.shutdown, .ok ())] := rfl
  have honce := h.once
  rw [hlog] at honce
  have hpair := List.rel_of_pairwise_cons honce (List.mem_cons_of_mem _ List.mem_cons_self)
  exact hpair .ioUring rfl rfl

end Nosv.Runtime
