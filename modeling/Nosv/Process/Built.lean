import Nosv.Process.Build

/-!
# What a build leaves behind

A build that fails gives up all it has made, descriptors, types and the ring, and finalizes nOS-V.
Its cleanup goes on when one of these calls fails: `build_contract` says that what nOS-V refused to
give up is all that is left, and that it is finalized unless that very call failed.

A build that succeeds leaves what its features ask for, and hands it over to the process:
`lifetime_contract` has the rules of nOS-V over the whole life of a runtime.

`Sound` is about the build alone, `Holds` about what nOS-V and the kernel hold meanwhile.
-/

namespace Nosv.Process

open Nosv.BlockOn (HandleId)
open Nosv.IoUring (IoUringConfig PreparedRing)
open Nosv.Runtime (Features TaskType)

variable {f : Features} {asyncCancel : ℕ} {config : IoUringConfig} {β γ : Building}
  {a : BuildAction} {n : Native}

/-! ## The build -/

/-- The ring driver is at work and its shutdown is owed, or it was asked to stop. -/
def Building.DriverAt (f : Features) (β : Building) (r : IoUring.State) : Prop :=
  (.shutdownRing ∈ β.pc.owed f ∧ r.owner = .idle ∧ r.running = true) ∨
    (β.pc.calls = false ∧ (r.owner = .idle → r.completed = true) ∧
      (β.pc.waits = false → r.owner = .idle))

/-- What holds between the steps of a build. -/
structure Sound (f : Features) (β : Building) : Prop where
  legal : Legal (β.pc.owed f)
  calls : ∀ rest, β.pc = .calling rest → rest <:+ f.build ∧ β.leaked = false
  waits : β.pc.waits = true → .shutdown ∈ β.pc.owed f
  prepared : .dropRing ∈ β.pc.owed f → β.prepared.isSome = true
  started : .shutdownRing ∈ β.pc.owed f → β.ring.isSome = true
  timer : .destroy .timer ∈ β.pc.owed f → β.timer.isSome = true
  alone : β.ring.isSome = true → .destroy .ring ∉ β.pc.owed f ∧ .dropRing ∉ β.pc.owed f
  reachable : ∀ r, β.ring = some r →
    ∃ cfg, β.prepared = some cfg ∧ IoUring.Reachable cfg Lts.Always r
  driver : ∀ r, β.ring = some r → β.DriverAt f r

namespace Sound

/-- A build that has just begun. -/
theorem start : Sound f (.start f) := by
  have howed : (Building.start f).pc.owed f = [] := rfl
  have hnot : ∀ u, u ∉ (Building.start f).pc.owed f := fun u => by
    rw [howed]
    exact List.not_mem_nil
  constructor
  · rw [howed]
    trivial
  · rintro rest ⟨⟩
    exact ⟨List.suffix_rfl, rfl⟩
  · rintro ⟨⟩
  all_goals first | exact fun hmem => absurd hmem (hnot _) | simp [Building.start]

/-- While calls are made, a driver is at work. -/
theorem at_work (h : Sound f β) (hcalls : β.pc.calls = true) {r : IoUring.State}
    (hr : β.ring = some r) :
    .shutdownRing ∈ β.pc.owed f ∧ r.owner = .idle ∧ r.running = true :=
  (h.driver r hr).resolve_right fun hd => by simp [hcalls] at hd

/-- Without a shutdown that is owed there is no driver yet. -/
theorem ring_none (h : Sound f β) (hcalls : β.pc.calls = true)
    (hnot : .shutdownRing ∉ β.pc.owed f) : β.ring = none := by
  cases hr : β.ring with
  | none => rfl
  | some r => exact absurd (h.at_work hcalls hr).1 hnot

/-- What the driver has is not owed beside its shutdown. -/
theorem alone_task (h : Sound f β) (htask : β.driverTask = true) :
    .destroy .ring ∉ β.pc.owed f := by
  obtain ⟨r, hr, -⟩ := (Option.any_eq_true _ _).mp htask
  exact (h.alone (by simp [hr])).1

/-- The ring of the driver is not dropped by the cleanup. -/
theorem alone_ring (h : Sound f β) (hring : β.driverRing = true) : .dropRing ∉ β.pc.owed f := by
  obtain ⟨r, hr, -⟩ := (Option.any_eq_true _ _).mp hring
  exact (h.alone (by simp [hr])).2

/-- A driver that has its descriptor can count on nOS-V. -/
theorem shutdown_mem (h : Sound f β) (hraw : β.driverTask = true) :
    .shutdown ∈ β.pc.owed f := by
  obtain ⟨r, hr, hraw⟩ := (Option.any_eq_true _ _).mp hraw
  rcases h.driver r hr with ⟨hmem, -⟩ | ⟨-, hcompleted, hidle⟩
  · exact h.legal.shutdown_mem hmem (by simp)
  · by_contra hnot
    have hwaits : β.pc.waits = false :=
      Bool.eq_false_iff.mpr fun hwaits => hnot (h.waits hwaits)
    -- It has completed, and has given the descriptor up.
    obtain ⟨cfg, -, hreach⟩ := h.reachable r hr
    have hG := IoUring.Gated.of_reachable hreach
    exact hG.raw.mp hraw (hG.destroyed.mpr
      (.inr (IoUring.completed_of_reachable hreach (hcompleted (hidle hwaits)))))

/-- Behind its shutdown the driver has neither its descriptor nor the ring. -/
theorem driver_gone (h : Sound f β) (hwaits : β.pc.waits = false)
    (hnot : .shutdownRing ∉ β.pc.owed f) : β.driverTask = false ∧ β.driverRing = false := by
  have hgone : ∀ r, β.ring = some r → r.gate.raw = false ∧ r.ring.isSome = false := by
    intro r hr
    rcases h.driver r hr with ⟨hmem, -⟩ | ⟨-, hcompleted, hidle⟩
    · exact absurd hmem hnot
    · obtain ⟨cfg, -, hreach⟩ := h.reachable r hr
      have hdriver := IoUring.completed_of_reachable hreach (hcompleted (hidle hwaits))
      have hG := IoUring.Gated.of_reachable hreach
      refine ⟨Bool.eq_false_iff.mpr fun hraw => hG.raw.mp hraw (hG.destroyed.mpr (.inr hdriver)),
        ?_⟩
      rw [Option.isSome_eq_false_iff, Option.isNone_iff_eq_none,
        (IoUring.Stopping.of_reachable hreach).ring, hdriver]
      rfl
  cases hr : β.ring with
  | none => simp [Building.driverTask, Building.driverRing, hr]
  | some r => simpa [Building.driverTask, Building.driverRing, hr] using hgone r hr

/-- A call is made, and what it makes is there from now on. -/
theorem next (h : Sound f β) {call : Call} {rest : List Call}
    (hpc : β.pc = .calling (call :: rest)) (hγ : γ.pc = .calling rest)
    (hleaked : γ.leaked = β.leaked)
    (hprepared : .dropRing ∈ call.makes ∨ β.prepared.isSome = true → γ.prepared.isSome = true)
    (hkeep : β.ring.isSome = true → γ.prepared = β.prepared)
    (htimer : .destroy .timer ∈ call.makes ∨ β.timer.isSome = true → γ.timer.isSome = true)
    (hring : γ.ring = β.ring ∧ .shutdownRing ∉ call.makes ∧ .shutdownRing ∉ call.hands ∨
      .shutdownRing ∈ call.makes ∧ γ.ring = γ.prepared.map IoUring.State.init ∧
        γ.prepared.isSome = true) : Sound f γ := by
  have hsuffix := (h.calls _ hpc).1
  obtain ⟨-, -, -, hfits⟩ := cleanups f hsuffix
  obtain ⟨-, hlegal, halone, -⟩ := cleanups f ((List.suffix_cons call rest).trans hsuffix)
  have hβ : β.pc.owed f = f.undo call := by rw [hpc]; rfl
  have howed : γ.pc.owed f = f.owed rest := by rw [hγ]; rfl
  have hat : β.pc.calls = true := by rw [hpc]; rfl
  -- The driver is there from the submission of its task on.
  have hdriver : ∀ r, γ.ring = some r →
      (∃ cfg, γ.prepared = some cfg ∧ IoUring.Reachable cfg Lts.Always r) ∧
        .shutdownRing ∈ γ.pc.owed f ∧ r.owner = .idle ∧ r.running = true := by
    intro r hr
    rw [howed, hfits.mem_owed]
    rcases hring with ⟨hsame, hmakes, hhands⟩ | ⟨hmakes, hinit, -⟩
    · rw [hsame] at hr
      obtain ⟨hmem, hwork⟩ := h.at_work hat hr
      obtain ⟨cfg, hcfg, hreach⟩ := h.reachable r hr
      exact ⟨⟨cfg, (hkeep (by simp [hr])).trans hcfg, hreach⟩, .inr ⟨hβ ▸ hmem, hhands⟩, hwork⟩
    · rw [hinit] at hr
      obtain ⟨cfg, hcfg, rfl⟩ := Option.map_eq_some_iff.mp hr
      exact ⟨⟨cfg, hcfg, .refl⟩, .inl hmakes, rfl, rfl⟩
  constructor
  · rw [howed]
    exact hlegal
  · intro rest' hpc'
    obtain rfl : rest = rest' := by simpa [hγ] using hpc'
    exact ⟨(List.suffix_cons call rest).trans hsuffix, hleaked.trans (h.calls _ hpc).2⟩
  · intro hwaits
    simp [hγ, BuildPc.waits] at hwaits
  · intro hmem
    rw [howed, hfits.mem_owed, ← hβ] at hmem
    exact hprepared (hmem.imp id fun hu => h.prepared hu.1)
  · intro hmem
    rcases hring with ⟨hsame, hmakes, -⟩ | ⟨-, hinit, hsome⟩
    · rw [howed, hfits.mem_owed, ← hβ] at hmem
      rw [hsame]
      exact h.started (hmem.resolve_left hmakes).1
    · rw [hinit, Option.isSome_map, hsome]
  · intro hmem
    rw [howed, hfits.mem_owed, ← hβ] at hmem
    exact htimer (hmem.imp id fun hu => h.timer hu.1)
  · intro hsome
    obtain ⟨r, hr⟩ := Option.isSome_iff_exists.mp hsome
    have hmem := (hdriver r hr).2.1
    rw [howed] at hmem ⊢
    exact halone hmem
  · exact fun r hr => (hdriver r hr).1
  · exact fun r hr => .inl (hdriver r hr).2

/-- The build goes from its calls to a cleanup, or on in it, and nothing is owed that was not. -/
theorem shrink (h : Sound f β) (hlegal : Legal (γ.pc.owed f)) (hcalls : γ.pc.calls = false)
    (hwaits : γ.pc.waits = false) (hsub : ∀ u ∈ γ.pc.owed f, u ∈ β.pc.owed f)
    (hdriver : .shutdownRing ∈ β.pc.owed f → .shutdownRing ∈ γ.pc.owed f)
    (hidle : β.pc.waits = true → ∀ r, β.ring = some r → r.owner = .idle)
    (hprepared : γ.prepared = β.prepared) (hring : γ.ring = β.ring)
    (htimer : γ.timer = β.timer) : Sound f γ := by
  constructor
  · exact hlegal
  · intro rest hpc
    simp [hpc, BuildPc.calls] at hcalls
  · simp [hwaits]
  · exact fun hmem => hprepared ▸ h.prepared (hsub _ hmem)
  · exact fun hmem => hring ▸ h.started (hsub _ hmem)
  · exact fun hmem => htimer ▸ h.timer (hsub _ hmem)
  · intro hsome
    have := h.alone (hring ▸ hsome)
    exact this.imp (mt (hsub _)) (mt (hsub _))
  · intro r hr
    rw [hprepared]
    exact h.reachable r (hring ▸ hr)
  · intro r hr
    rw [hring] at hr
    -- A driver whose shutdown is still owed is at work; another has been waited for.
    rcases h.driver r hr with ⟨hmem, hwork⟩ | ⟨-, hcompleted, howner⟩
    · exact .inl ⟨hdriver hmem, hwork⟩
    · refine .inr ⟨hcalls, hcompleted, fun _ => ?_⟩
      cases hβ : β.pc.waits with
      | false => exact howner hβ
      | true => exact hidle hβ r hr

/-- Nothing is owed before the first call that makes something. -/
theorem fail (h : Sound f β) (hβ : β.pc.owed f = []) (hcalls : β.pc.calls = true)
    (e : InitError) : Sound f { β with pc := .failed e } :=
  h.shrink trivial rfl rfl (fun _ hu => by cases hu) (by simp [hβ])
    (fun hwaits => by
      cases hpc : β.pc <;> simp [hpc, BuildPc.calls, BuildPc.waits] at hcalls hwaits)
    rfl rfl rfl

/-- A step of the driver. -/
theorem moveRing (h : Sound f β) {cfg : PreparedRing} {r r' : IoUring.State}
    {a : IoUring.Action} (hcfg : β.prepared = some cfg) (hr : β.ring = some r)
    (ha : ringWhole a = false) (hstep : IoUring.step cfg a r = .ok r') :
    Sound f { β with ring := some r' } := by
  obtain ⟨hrunning, hidle, hleft, hcompleted⟩ := (IoUring.move_of_step hstep).owner ha
  refine
    { h with
      started := fun _ => rfl
      alone := fun _ => h.alone (by simp [hr])
      reachable := ?_
      driver := ?_ }
  · rintro _ ⟨⟩
    obtain ⟨cfg', hcfg', hreach⟩ := h.reachable r hr
    obtain rfl : cfg = cfg' := by simpa [hcfg] using hcfg'
    exact ⟨cfg, hcfg, hreach.tail trivial hstep⟩
  · rintro _ ⟨⟩
    rcases h.driver r hr with ⟨hmem, howner, hrun⟩ | ⟨hcalls, hdone, hout⟩
    · exact .inl ⟨hmem, hidle howner, hrunning.trans hrun⟩
    · exact .inr ⟨hcalls, fun howner => (hleft howner).elim (fun hi => hcompleted (hdone hi)) id,
        fun hwaits => hidle (hout hwaits)⟩

/-- The owner thread goes into the driver. -/
theorem enterRing (h : Sound f β) {rest : List Undo} {e : InitError} {cfg : PreparedRing}
    {r r' : IoUring.State} (hpc : β.pc = .undoing (.shutdownRing :: rest) e)
    (hcfg : β.prepared = some cfg) (hr : β.ring = some r)
    (hstep : IoUring.step cfg .shutdownAndWait { r with running := false } = .ok r') :
    Sound f { β with ring := some r', pc := .waiting rest e } := by
  have howed : β.pc.owed f = .shutdownRing :: rest := by rw [hpc]; rfl
  have hlegal := h.legal
  have halone := h.alone (by simp [hr])
  obtain ⟨cfg', hcfg', hreach⟩ := h.reachable r hr
  obtain rfl : cfg = cfg' := by simpa [hcfg] using hcfg'
  have howner : r.owner = .idle := by
    rcases h.driver r hr with ⟨-, hidle, -⟩ | ⟨-, -, hidle⟩
    · exact hidle
    · exact hidle (by rw [hpc]; rfl)
  -- The driver is told to stop before it is waited for.
  have hstop : IoUring.Reachable cfg Lts.Always { r with running := false } := by
    refine hreach.tail (a := .beginShutdown) trivial ?_
    show IoUring.State.beginShutdown r = _
    rw [IoUring.State.beginShutdown, IoUring.require, if_pos howner]
    rfl
  rw [howed] at hlegal halone
  obtain ⟨⟨hnot, hmem⟩, hrest⟩ := hlegal
  refine
    { legal := hrest
      calls := fun rest' hrest => by simp at hrest
      waits := fun _ => hmem
      prepared := fun hd => absurd hd fun hd => halone.2 (List.mem_cons_of_mem _ hd)
      started := fun _ => rfl
      timer := fun ht => h.timer (by rw [howed]; exact List.mem_cons_of_mem _ ht)
      alone := fun _ => halone.imp (mt (List.mem_cons_of_mem _)) (mt (List.mem_cons_of_mem _))
      reachable := ?_
      driver := ?_ }
  · rintro _ ⟨⟩
    exact ⟨cfg, hcfg, hstop.tail trivial hstep⟩
  · rintro _ ⟨⟩
    cases IoUring.move_of_step hstep with
    | shutdownAndWait =>
      exact .inr ⟨rfl, fun howner' => by simp at howner',
        fun hwaits => by simp [BuildPc.waits] at hwaits⟩

/-- Every step keeps a build sound. -/
theorem move (h : Sound f β) (hm : BuildMove f asyncCancel config β a γ) : Sound f γ := by
  have howed : ∀ {call rest}, β.pc = .calling (call :: rest) → β.pc.owed f = f.undo call :=
    fun hpc => by rw [hpc]; rfl
  cases hm with
  | free hpc =>
    exact h.next hpc rfl rfl (by simp) (fun _ => rfl) (by simp) (.inl ⟨rfl, by simp, by simp⟩)
  | inTask hpc => exact h.fail (howed hpc) (by rw [hpc]; rfl) _
  | prepared hpc hnew =>
    have hnone : β.ring = none :=
      h.ring_none (by rw [hpc]; rfl) (by rw [howed hpc]; exact List.not_mem_nil)
    exact h.next hpc rfl rfl (fun _ => rfl) (by simp [hnone]) (by simp)
      (.inl ⟨rfl, by simp, by simp⟩)
  | unprepared hpc hnew => exact h.fail (howed hpc) (by rw [hpc]; rfl) _
  -- What a call makes is exactly what its place in the cleanup owes.
  | @called raw call rest hpc hcall =>
    refine h.next hpc rfl rfl (fun hmem => ?_) (fun _ => rfl) (fun hmem => ?_) ?_
    · exact hmem.resolve_left fun hmem => hcall.2 (Call.dropRing_mem_makes.mp hmem)
    · show (if _ then _ else _ : Option RawTask).isSome = true
      split_ifs with hcreate
      · rfl
      · exact hmem.resolve_left fun hmem => hcreate (Call.destroy_mem_makes.mp hmem)
    · by_cases hsubmit : call = .submit .ring
      · subst hsubmit
        exact .inr ⟨by simp, rfl, h.prepared (by rw [howed hpc]; simp [Features.undo])⟩
      · exact .inl ⟨if_neg hsubmit, by simpa using hsubmit, by simp [hsubmit]⟩
  | callFailed hpc =>
    have hβ := howed hpc
    refine h.shrink ?_ rfl rfl (fun u hu => hβ ▸ hu) (fun hmem => hβ ▸ hmem)
      (by simp [hpc, BuildPc.waits]) rfl rfl rfl
    show Legal (f.undo _)
    rw [← hβ]
    exact h.legal
  | @undone _ u rest e hpc hu =>
    have hβ : β.pc.owed f = u :: rest := by rw [hpc]; rfl
    have hlegal := h.legal
    rw [hβ] at hlegal
    refine h.shrink hlegal.2 rfl rfl (fun v hv => ?_) (fun hmem => ?_)
      (by simp [hpc, BuildPc.waits]) rfl rfl rfl
    · rw [hβ]
      exact List.mem_cons_of_mem _ hv
    · rw [hβ] at hmem
      exact (List.mem_cons.mp hmem).resolve_left (Ne.symm hu)
  | enterRing hpc hcfg hr hstep => exact h.enterRing hpc hcfg hr hstep
  -- The wait is over when the driver has given up its task and the ring.
  | @leaveRing _ rest e r hpc hr howner =>
    have hβ : β.pc.owed f = rest := by rw [hpc]; rfl
    refine h.shrink (hβ ▸ h.legal) rfl rfl (fun u hu => hβ ▸ hu) (fun hmem => hβ ▸ hmem)
      (fun _ r' hr' => ?_) rfl rfl rfl
    obtain rfl : r = r' := by simpa [hr] using hr'
    exact howner
  | @failed _ e hpc =>
    have hβ : β.pc.owed f = [] := by rw [hpc]; rfl
    exact h.shrink trivial rfl rfl (fun u hu => by cases hu) (by simp [hβ])
      (by simp [hpc, BuildPc.waits]) rfl rfl rfl
  | ring hcfg hr ha hstep => exact h.moveRing hcfg hr ha hstep

/-- Every build is sound. -/
theorem of_reaches
    (h : Lts.Reaches (buildStep f asyncCancel config) Lts.Always (.start f) β) : Sound f β :=
  h.invariant start fun _ _ _ hI _ hst => hI.move (buildMove_of_step hst)

end Sound

/-! ## What nOS-V and the kernel hold -/

/-- nOS-V and the kernel hold what the next cleanup gives up, and what the driver has. -/
structure Holds (f : Features) (β : Building) (n : Native) : Prop where
  up : .shutdown ∈ β.pc.owed f → n.up = true
  down : n.up = true → .shutdown ∈ β.pc.owed f ∨ β.leaked = true
  types : ∀ t, t ∈ n.types ↔ .typeDestroy t ∈ β.pc.owed f
  live : ∀ d, d ∈ n.live ↔ .destroy d ∈ β.pc.owed f ∨ d = .ring ∧ β.driverTask = true
  ring : n.ring = true ↔ .dropRing ∈ β.pc.owed f ∨ β.driverRing = true
  created : ∀ d ∈ n.created, .create d ∈ f.build ∧ ∀ rest, β.pc = .calling rest → .create d ∉ rest

/-- What nOS-V and the kernel ask of a call. -/
def Call.Permitted (n : Native) : Call → Prop
  | .current => True
  | .prepare => n.ring = false
  | .init => n.up = false
  | .typeInit t => n.up = true ∧ t ∉ n.types
  | .create d => n.up = true ∧ d ∉ n.created ∧ ∀ t ∈ d.type, t ∈ n.types
  | .metadata d | .submit d => n.up = true ∧ d ∈ n.live

namespace Holds

/-- Before the first call there is nothing. -/
theorem start : Holds f (.start f) .fresh := by
  have hnot : ∀ u, u ∉ (Building.start f).pc.owed f := fun u => List.not_mem_nil
  have htask : (Building.start f).driverTask = false := rfl
  have hring : (Building.start f).driverRing = false := rfl
  constructor
  · exact fun hmem => absurd hmem (hnot _)
  · rintro ⟨⟩
  · exact fun t => iff_of_false (Finset.notMem_empty t) (hnot _)
  · exact fun d => iff_of_false (Finset.notMem_empty d) (by simp [hnot, htask])
  · exact iff_of_false Bool.false_ne_true (by simp [hnot, hring])
  · exact fun d hd => absurd hd (Finset.notMem_empty d)

/-- A step that neither makes nor gives up anything. -/
theorem frame (h : Holds f β n)
    (howed : ∀ u, u ≠ .shutdownRing → (u ∈ γ.pc.owed f ↔ u ∈ β.pc.owed f))
    (hpc : γ.pc.calls = true → γ.pc = β.pc) (hleaked : γ.leaked = β.leaked)
    (htask : γ.driverTask = β.driverTask) (hring : γ.driverRing = β.driverRing) :
    Holds f γ n where
  up hmem := h.up ((howed _ (by simp)).mp hmem)
  down hup := (h.down hup).imp (howed _ (by simp)).mpr hleaked.trans
  types t := (h.types t).trans (howed _ (by simp)).symm
  live d := by rw [h.live, howed _ (by simp), htask]
  ring := by rw [h.ring, howed _ (by simp), hring]
  created d hd := by
    obtain ⟨hmem, hcreate⟩ := h.created d hd
    refine ⟨hmem, fun rest hγ => hcreate rest ?_⟩
    rw [← hpc (by rw [hγ]; rfl), hγ]

/-- A call is made, and what it makes is there from now on. -/
theorem next (h : Holds f β n) (hS : Sound f β) {call : Call} {rest : List Call} {n' : Native}
    (hpc : β.pc = .calling (call :: rest)) (hγ : γ.pc = .calling rest)
    (hup : n'.up = true ↔ n.up = true ∨ call = .init)
    (htypes : ∀ t, t ∈ n'.types ↔ t ∈ n.types ∨ call = .typeInit t)
    (hlive : ∀ d, d ∈ n'.live ↔ d ∈ n.live ∨ call = .create d)
    (hring : n'.ring = true ↔ n.ring = true ∨ call = .prepare)
    (hcreated : ∀ d ∈ n'.created, d ∈ n.created ∨ call = .create d)
    (hkeep : call ≠ .submit .ring → γ.ring = β.ring)
    (hstart : call = .submit .ring → γ.driverTask = true ∧ γ.driverRing = true) :
    Holds f γ n' := by
  have hsuffix := (hS.calls _ hpc).1
  obtain ⟨hnodup, -, -, hfits⟩ := cleanups f hsuffix
  have hβ : β.pc.owed f = f.undo call := by rw [hpc]; rfl
  have howed : ∀ u, u ∈ γ.pc.owed f ↔ u ∈ call.makes ∨ u ∈ β.pc.owed f ∧ u ∉ call.hands := by
    rw [hγ, hβ]
    exact fun u => hfits.mem_owed
  -- The driver takes over what was a local variable of `start`.
  have htask : ∀ d, .destroy d ∈ γ.pc.owed f ∨ d = .ring ∧ γ.driverTask = true ↔
      call = .create d ∨ .destroy d ∈ β.pc.owed f ∨ d = .ring ∧ β.driverTask = true := by
    intro d
    rw [howed, Call.destroy_mem_makes, Call.mem_hands]
    by_cases hsubmit : call = .submit .ring
    · have hmem : .destroy .ring ∈ β.pc.owed f := by rw [hβ, hsubmit]; simp [Features.undo]
      rw [(hstart hsubmit).1]
      by_cases hd : d = .ring
      · simp [hd, hmem]
      · simp [hsubmit, hd]
    · have : γ.driverTask = β.driverTask := by simp only [Building.driverTask, hkeep hsubmit]
      simp [hsubmit, this, or_assoc]
  have hdrop : .dropRing ∈ γ.pc.owed f ∨ γ.driverRing = true ↔
      call = .prepare ∨ .dropRing ∈ β.pc.owed f ∨ β.driverRing = true := by
    rw [howed, Call.dropRing_mem_makes, Call.mem_hands]
    by_cases hsubmit : call = .submit .ring
    · have hmem : .dropRing ∈ β.pc.owed f := by rw [hβ, hsubmit]; simp [Features.undo]
      simp [(hstart hsubmit).2, hmem]
    · have : γ.driverRing = β.driverRing := by simp only [Building.driverRing, hkeep hsubmit]
      simp [hsubmit, this, or_assoc]
  constructor
  · rw [howed, Call.shutdown_mem_makes, hup]
    rintro (hinit | ⟨hmem, -⟩)
    · exact .inr hinit
    · exact .inl (h.up hmem)
  · rw [howed, Call.shutdown_mem_makes, hup]
    rintro (hup | hinit)
    · have hmem := (h.down hup).resolve_right (by simp [(hS.calls _ hpc).2])
      exact .inl (.inr ⟨hmem, by simp⟩)
    · exact .inl (.inl hinit)
  · intro t
    rw [htypes, h.types, howed, Call.typeDestroy_mem_makes, or_comm]
    simp
  · intro d
    rw [hlive, h.live, htask, or_comm]
  · rw [hring, h.ring, hdrop, or_comm]
  · intro d hd
    rcases hcreated d hd with hd | rfl
    · obtain ⟨hmem, hcreate⟩ := h.created d hd
      refine ⟨hmem, fun rest' hrest => ?_⟩
      obtain rfl : rest = rest' := by simpa [hγ] using hrest
      exact fun hmem => hcreate _ hpc (List.mem_cons_of_mem _ hmem)
    · refine ⟨hsuffix.subset List.mem_cons_self, fun rest' hrest => ?_⟩
      obtain rfl : rest = rest' := by simpa [hγ] using hrest
      exact (List.nodup_cons.mp hnodup).1

/-- Every call is permitted when its turn comes. -/
theorem permitted (h : Holds f β n) (hS : Sound f β) {call : Call} {rest : List Call}
    (hpc : β.pc = .calling (call :: rest)) : call.Permitted n := by
  obtain ⟨-, -, -, hneeds, hmakes, -⟩ := cleanups f (hS.calls _ hpc).1
  have hβ : β.pc.owed f = f.undo call := by rw [hpc]; rfl
  rw [← hβ] at hneeds hmakes
  have hup : .shutdown ∈ call.needs → n.up = true := fun hmem => h.up (hneeds _ hmem)
  -- What the call needs is what the cleanup before it would give up.
  cases call with
  | current => trivial
  | prepare =>
    refine Bool.eq_false_iff.mpr fun hring => ?_
    have hnone := hS.ring_none (by rw [hpc]; rfl) (by rw [hβ]; exact List.not_mem_nil)
    rcases h.ring.mp hring with hmem | hdriver
    · exact hmakes .dropRing (by simp) hmem
    · simp [Building.driverRing, hnone] at hdriver
  | init =>
    refine Bool.eq_false_iff.mpr fun hup => ?_
    rcases h.down hup with hmem | hleaked
    · exact hmakes .shutdown (by simp) hmem
    · simp [(hS.calls _ hpc).2] at hleaked
  | typeInit t =>
    exact ⟨hup (by simp [Call.needs]), fun ht => hmakes (.typeDestroy t) (by simp)
      ((h.types t).mp ht)⟩
  | create d =>
    refine ⟨hup (by simp [Call.needs]), fun hd => ?_, fun t ht => (h.types t).mpr ?_⟩
    · exact (h.created d hd).2 _ hpc List.mem_cons_self
    · have hd : d.type = some t := ht
      exact hneeds _ (by simp [Call.needs, hd])
  | metadata d | submit d =>
    exact ⟨hup (by simp [Call.needs]), (h.live d).mpr (.inl (hneeds _ (by simp [Call.needs])))⟩

/-- A call succeeds. -/
theorem called (h : Holds f β n) (hS : Sound f β) {raw : RawTask} {call : Call}
    {rest : List Call} (hpc : β.pc = .calling (call :: rest))
    (hcall : call ≠ .current ∧ call ≠ .prepare) :
    ∃ n', (buildEvents asyncCancel config (.call (.ok ()) raw) β).foldlM Native.read n = some n' ∧
      Holds f
        { β with
          pc := .calling rest
          ring := if call = .submit .ring then β.prepared.map IoUring.State.init else β.ring
          timer := if call = .create .timer then some raw else β.timer } n' := by
  have hpermitted := h.permitted hS hpc
  have hβ : β.pc.owed f = f.undo call := by rw [hpc]; rfl
  -- What is left to say is how the call changes what there is.
  have hnext : ∀ n' : Native, (n'.up = true ↔ n.up = true ∨ call = .init) →
      (∀ t, t ∈ n'.types ↔ t ∈ n.types ∨ call = .typeInit t) →
      (∀ d, d ∈ n'.live ↔ d ∈ n.live ∨ call = .create d) → n'.ring = n.ring →
      (∀ d ∈ n'.created, d ∈ n.created ∨ call = .create d) →
      Holds f
        { β with
          pc := .calling rest
          ring := if call = .submit .ring then β.prepared.map IoUring.State.init else β.ring
          timer := if call = .create .timer then some raw else β.timer } n' := by
    intro n' hup htypes hlive hring hcreated
    refine h.next hS hpc rfl hup htypes hlive (by simp [hring, hcall.2]) hcreated
      (fun hne => if_neg hne) fun hsubmit => ?_
    obtain ⟨cfg, hcfg⟩ := Option.isSome_iff_exists.mp
      (hS.prepared (by rw [hβ, hsubmit]; simp [Features.undo]))
    simp [Building.driverTask, Building.driverRing, hsubmit, hcfg, IoUring.State.init]
  simp only [buildEvents, hpc]
  cases call with
  | current => exact absurd rfl hcall.1
  | prepare => exact absurd rfl hcall.2
  | init =>
    refine ⟨{ n with up := true }, ?_, hnext _ (by simp) (by simp) (by simp) rfl fun d => .inl⟩
    have hup : n.up = false := hpermitted
    simp [Native.read, hup, Except.isOk, Except.toBool]
  | typeInit t =>
    refine ⟨{ n with types := insert t n.types }, ?_, hnext _ (by simp) (fun t' => ?_) (by simp)
      rfl fun d => .inl⟩
    · simp [Native.read, hpermitted.1, hpermitted.2, Except.isOk, Except.toBool]
    · simp [or_comm, eq_comm]
  | create d =>
    refine ⟨n.add d, ?_, hnext _ (by simp [Native.add]) (by simp [Native.add]) (fun d' => ?_) rfl
      fun d' hd => ?_⟩
    · have hread : n.read (.create d true) = some (n.add d) := if_pos hpermitted
      simp [hread, Except.isOk, Except.toBool]
    · simp [Native.add, or_comm, eq_comm]
    · simpa [Native.add, or_comm, eq_comm] using hd
  | metadata d | submit d =>
    refine ⟨n, ?_, hnext _ (by simp) (by simp) (by simp) rfl fun d => .inl⟩
    simp [Native.read, hpermitted.1, hpermitted.2]

/-- A call fails: nothing has changed when the cleanup begins. -/
theorem callFailed (h : Holds f β n) (hS : Sound f β) {raw : RawTask} {e : NativeError}
    {call : Call} {rest : List Call} (hpc : β.pc = .calling (call :: rest))
    (hcall : call ≠ .current ∧ call ≠ .prepare) :
    (buildEvents asyncCancel config (.call (.error e) raw) β).foldlM Native.read n = some n ∧
      Holds f { β with pc := .undoing (f.undo call) (.native e) } n := by
  have hpermitted := h.permitted hS hpc
  refine ⟨?_, h.frame (fun u _ => by rw [hpc]; rfl) (by simp [BuildPc.calls]) rfl rfl rfl⟩
  simp only [buildEvents, hpc]
  cases call with
  | current => exact absurd rfl hcall.1
  | prepare => exact absurd rfl hcall.2
  | init =>
    have hup : n.up = false := hpermitted
    have hsame : { n with up := false } = n := by rw [← hup]
    simp [Native.read, hup, hsame, Except.isOk, Except.toBool]
  | typeInit t =>
    have hread : n.read (.typeInit t false) = some n := if_pos hpermitted
    simp [hread, Except.isOk, Except.toBool]
  | create d =>
    have hread : n.read (.create d false) = some n := if_pos hpermitted
    simp [hread, Except.isOk, Except.toBool]
  | metadata d | submit d => simp [Native.read, hpermitted.1, hpermitted.2]

/-- A statement of a cleanup is made, and what it gives up is gone from now on. -/
theorem giveUp (h : Holds f β n) (hS : Sound f β) {u : Undo} {rest : List Undo} {e : InitError}
    {n' : Native} (hβ : β.pc.owed f = u :: rest) (hγ : γ.pc = .undoing rest e)
    (hdriver : γ.ring = β.ring) (hup : .shutdown ∈ rest → n'.up = true)
    (hdown : n'.up = true → .shutdown ∈ rest ∨ γ.leaked = true)
    (htypes : ∀ t, t ∈ n'.types ↔ t ∈ n.types ∧ Undo.typeDestroy t ≠ u)
    (hlive : ∀ d, d ∈ n'.live ↔ d ∈ n.live ∧ Undo.destroy d ≠ u)
    (hring : n'.ring = true ↔ n.ring = true ∧ Undo.dropRing ≠ u)
    (hcreated : n'.created = n.created) : Holds f γ n' := by
  have howed : γ.pc.owed f = rest := by rw [hγ]; rfl
  have hlegal := hS.legal
  rw [hβ] at hlegal
  -- Nothing is owed twice.
  have hrest : ∀ v, v ∈ β.pc.owed f ∧ v ≠ u ↔ v ∈ γ.pc.owed f := by
    intro v
    rw [hβ, howed, List.mem_cons]
    refine ⟨fun hv => hv.1.resolve_left hv.2, fun hv => ⟨.inr hv, ?_⟩⟩
    rintro rfl
    exact hlegal.1.notMem hv
  have htask : γ.driverTask = β.driverTask := by simp only [Building.driverTask, hdriver]
  have hopen : γ.driverRing = β.driverRing := by simp only [Building.driverRing, hdriver]
  constructor
  · rwa [howed]
  · rwa [howed]
  · intro t
    rw [htypes, h.types, hrest]
  · intro d
    rw [hlive, h.live, htask, or_and_right, hrest]
    refine or_congr_right (and_iff_left_of_imp ?_)
    -- What the driver has is not owed beside it.
    rintro ⟨rfl, ht⟩ rfl
    exact (hS.alone_task ht) (hβ ▸ List.mem_cons_self)
  · rw [hring, h.ring, hopen, or_and_right, hrest]
    refine or_congr_right (and_iff_left_of_imp ?_)
    rintro hr rfl
    exact (hS.alone_ring hr) (hβ ▸ List.mem_cons_self)
  · rw [hcreated]
    exact fun d hd => ⟨(h.created d hd).1, fun rest' hrest' => by simp [hγ] at hrest'⟩

/-- When its turn comes, no descriptor of the type is left. -/
theorem type_free (h : Holds f β n) (hS : Sound f β) {t : TaskType} {rest : List Undo}
    (hβ : β.pc.owed f = .typeDestroy t :: rest) (hwaits : β.pc.waits = false) :
    ∀ d ∈ n.live, d.type ≠ some t := by
  have hlegal := hS.legal
  rw [hβ] at hlegal
  obtain ⟨⟨-, -, hfree⟩, -⟩ := hlegal
  intro d hd
  rcases (h.live d).mp hd with hmem | ⟨rfl, ht⟩
  · rw [hβ] at hmem
    exact hfree _ (by simpa using hmem)
  · -- The driver of the type was shut down.
    rintro ⟨⟩
    have hring : Undo.shutdownRing ∉ β.pc.owed f := by
      rw [hβ]
      simpa using fun hring => hfree _ hring rfl
    rw [(hS.driver_gone hwaits hring).1] at ht
    cases ht

/-- When the turn of `nosv_shutdown` comes, no descriptor and no type is left. -/
theorem emptied (h : Holds f β n) (hS : Sound f β) {rest : List Undo}
    (hβ : β.pc.owed f = .shutdown :: rest) (hwaits : β.pc.waits = false) :
    n.live = ∅ ∧ n.types = ∅ := by
  have hlegal := hS.legal
  rw [hβ] at hlegal
  have hnot : ∀ v, v ≠ .shutdown → v ≠ .dropRing → v ∉ β.pc.owed f := by
    rw [hβ]
    exact fun v hv hv' hmem => hv' (hlegal.1 v ((List.mem_cons.mp hmem).resolve_left hv))
  constructor
  · refine Finset.eq_empty_of_forall_notMem fun d hd => ?_
    rcases (h.live d).mp hd with hd | ⟨-, ht⟩
    · exact hnot _ (by simp) (by simp) hd
    · rw [(hS.driver_gone hwaits (hnot _ (by simp) (by simp))).1] at ht
      cases ht
  · exact Finset.eq_empty_of_forall_notMem fun t ht =>
      hnot _ (by simp) (by simp) ((h.types t).mp ht)

/-- The next statement of a cleanup. -/
theorem undone (h : Holds f β n) (hS : Sound f β) {native : Status} {u : Undo}
    {rest : List Undo} {e : InitError} (hpc : β.pc = .undoing (u :: rest) e)
    (hu : u ≠ .shutdownRing) :
    ∃ n', (buildEvents asyncCancel config (.undo native) β).foldlM Native.read n = some n' ∧
      Holds f
        { β with
          pc := .undoing rest e
          leaked := β.leaked || (u = .shutdown && !native.isOk) } n' := by
  have hβ : β.pc.owed f = u :: rest := by rw [hpc]; rfl
  have hwaits : β.pc.waits = false := by rw [hpc]; rfl
  have hmem : u ∈ β.pc.owed f := hβ ▸ List.mem_cons_self
  have hlegal := hS.legal
  rw [hβ] at hlegal
  obtain ⟨hbefore, -⟩ := hlegal
  simp only [buildEvents, hpc]
  cases u with
  | shutdownRing => exact absurd rfl hu
  | destroy d =>
    have hn : n.up = true := h.up (hβ ▸ List.mem_cons_of_mem _ hbefore.2)
    have hd : d ∈ n.live := (h.live d).mpr (.inl hmem)
    refine ⟨n.remove d native.isOk, by simp [Native.read, hn, hd], ?_⟩
    refine h.giveUp hS hβ rfl rfl (fun _ => hn) (fun _ => .inl hbefore.2)
      (by simp [Native.remove]) (fun d' => ?_) (by simp [Native.remove]) rfl
    simp [Native.remove, and_comm]
  | dropRing =>
    have hn : n.ring = true := h.ring.mpr (.inl hmem)
    refine ⟨{ n with ring := false }, by simp [Native.read, hn], ?_⟩
    refine h.giveUp hS hβ rfl rfl (fun hmem => h.up (hβ ▸ List.mem_cons_of_mem _ hmem))
      (fun hup => ?_) (by simp) (by simp) (by simp) rfl
    simpa [hβ] using h.down hup
  | typeDestroy t =>
    have hn : n.up = true := h.up (hβ ▸ List.mem_cons_of_mem _ hbefore.2.1)
    refine ⟨n.removeType t native.isOk, ?_, ?_⟩
    · simp only [List.foldlM_cons, List.foldlM_nil]
      rw [Native.read, if_pos ⟨hn, h.type_free hS hβ hwaits⟩]
      rfl
    refine h.giveUp hS hβ rfl rfl (fun _ => hn) (fun _ => .inl hbefore.2.1) (fun t' => ?_)
      (by simp [Native.removeType]) (by simp [Native.removeType]) rfl
    simp [Native.removeType, and_comm]
  | shutdown =>
    have hn : n.up = true := h.up hmem
    obtain ⟨hlive, htypes⟩ := h.emptied hS hβ hwaits
    refine ⟨{ n with up := !native.isOk }, by simp [Native.read, hn, hlive, htypes], ?_⟩
    refine h.giveUp hS hβ rfl rfl (fun hmem => absurd hmem hbefore.notMem) (fun hup => .inr ?_)
      (by simp) (by simp) (by simp) rfl
    -- It stays up only when this very call fails.
    simpa using Or.inr hup

/-- A step of the driver. -/
theorem moveRing (h : Holds f β n) (hS : Sound f β) {cfg : PreparedRing} {r r' : IoUring.State}
    {a : IoUring.Action} (hcfg : β.prepared = some cfg) (hr : β.ring = some r)
    (hstep : IoUring.step cfg a r = .ok r') :
    ∃ n', (ringEvents a r).foldlM Native.read n = some n' ∧
      Holds f { β with ring := some r' } n' := by
  obtain ⟨cfg', hcfg', hreach⟩ := hS.reachable r hr
  obtain rfl : cfg = cfg' := by simpa [hcfg] using hcfg'
  have halone := hS.alone (by simp [hr])
  have htask : β.driverTask = r.gate.raw := by simp [Building.driverTask, hr]
  have hring : β.driverRing = r.ring.isSome := by simp [Building.driverRing, hr]
  have hup : r.gate.raw = true → n.up = true ∧ .ring ∈ n.live := fun hraw =>
    ⟨h.up (hS.shutdown_mem (htask.trans hraw)), (h.live .ring).mpr (.inr ⟨rfl, htask.trans hraw⟩)⟩
  have hopen : r.ring.isSome = true → n.ring = true := fun hsome =>
    h.ring.mpr (.inr (hring.trans hsome))
  rcases ringEvents_cases hreach (IoUring.move_of_step hstep) with
    ⟨hos, hraw', hring'⟩ | ⟨hos, hsome, hraw', hring'⟩ | ⟨hos, hlive, hraw', hring'⟩
  · refine ⟨n, Native.reads_self fun o ho => ?_, h.frame (fun u _ => Iff.rfl) (fun _ => rfl) rfl
      (by simp [Building.driverTask, hr, hraw']) (by simp [Building.driverRing, hr, hring'])⟩
    rcases hos o ho with hanswer | ⟨rfl, hsome⟩ | ⟨call, rfl, hlive⟩
    · cases o with
      | answer => rfl
      | _ => cases hanswer
    · exact if_pos (hopen hsome)
    · exact if_pos (hup hlive)
  · -- The driver drops its ring.
    refine ⟨{ n with ring := false }, by simp [hos, Native.read, hopen hsome], ?_⟩
    refine
      { h with
        live := fun d => by simpa [Building.driverTask, hr, hraw'] using h.live d
        ring := iff_of_false Bool.false_ne_true (not_or.mpr ⟨halone.2, ?_⟩) }
    simp [Building.driverRing, hring']
  · -- The driver gives its descriptor up.
    obtain ⟨hn, hmem⟩ := hup hlive
    refine ⟨n.remove .ring true, by simp [hos, Native.read, hn, hmem], ?_⟩
    refine
      { h with
        live := fun d => ?_
        ring := by simpa [Native.remove, Building.driverRing, hr, hring'] using h.ring }
    show d ∈ n.live.erase .ring ↔ _
    rw [Finset.mem_erase, h.live]
    by_cases hd : d = .ring
    · subst hd
      exact iff_of_false (by simp) (not_or.mpr ⟨halone.1, by simp [Building.driverTask, hraw']⟩)
    · simp [hd]

/-- nOS-V and the kernel take every step of a build. -/
theorem move (h : Holds f β n) (hS : Sound f β) (hm : BuildMove f asyncCancel config β a γ) :
    ∃ n', (buildEvents asyncCancel config a β).foldlM Native.read n = some n' ∧ Holds f γ n' := by
  cases hm with
  | free hpc =>
    exact ⟨n, rfl, h.next hS hpc rfl (by simp) (by simp) (by simp) (by simp) (fun d => .inl)
      (fun _ => rfl) (by simp)⟩
  | inTask hpc =>
    exact ⟨n, rfl, h.frame (fun u _ => by rw [hpc]; rfl) (by simp [BuildPc.calls]) rfl rfl rfl⟩
  | @prepared native rest r hpc hnew =>
    have hring : n.ring = false := h.permitted hS hpc
    obtain ⟨-, -, hos⟩ | ⟨⟨e, he⟩, -⟩ := prepare_events asyncCancel config β native
    · refine ⟨{ n with ring := true }, by simp [hos, Native.read, hring], ?_⟩
      exact h.next hS hpc rfl (by simp) (by simp) (by simp) (by simp) (fun d => .inl)
        (fun _ => rfl) (by simp)
    · rw [hnew] at he
      cases he
  -- A ring that cannot be set up is not there afterwards.
  | @unprepared native rest e hpc hnew =>
    have hring : n.ring = false := h.permitted hS hpc
    have hsame : { n with ring := false } = n := by rw [← hring]
    refine ⟨n, ?_,
      h.frame (fun u _ => by rw [hpc]; rfl) (by simp [BuildPc.calls]) rfl rfl rfl⟩
    obtain ⟨r, hr, -⟩ | ⟨-, hos | hos | hos⟩ := prepare_events asyncCancel config β native
    · rw [hnew] at hr
      cases hr
    · rw [hos]
      rfl
    · simp [hos, Native.read, hring, hsame]
    · simp [hos, Native.read, hring, hsame]
  | called hpc hcall => exact h.called hS hpc hcall
  | callFailed hpc hcall => exact ⟨n, h.callFailed hS hpc hcall⟩
  | undone hpc hu => exact h.undone hS hpc hu
  | @enterRing native rest e cfg r r' hpc hcfg hr hstep =>
    refine ⟨n, by simp [buildEvents, hpc], ?_⟩
    cases IoUring.move_of_step hstep with
    | shutdownAndWait =>
      refine h.frame (fun u hu => ?_) (by simp [BuildPc.calls]) rfl
        (by simp [Building.driverTask, hr]) (by simp [Building.driverRing, hr])
      rw [hpc]
      simp [BuildPc.owed, hu]
  | leaveRing hpc =>
    exact ⟨n, by simp [buildEvents, hpc],
      h.frame (fun u _ => by rw [hpc]; rfl) (by simp [BuildPc.calls]) rfl rfl rfl⟩
  | failed hpc =>
    exact ⟨n, by simp [buildEvents, hpc],
      h.frame (fun u _ => by rw [hpc]; rfl) (by simp [BuildPc.calls]) rfl rfl rfl⟩
  | ring hcfg hr _ hstep => simpa [buildEvents, hr] using h.moveRing hS hcfg hr hstep

end Holds

/-! ## Runs -/

/-- nOS-V and the kernel take every build. One that has failed has given up everything, and nothing
is left but what nOS-V has refused to destroy, and nOS-V if `nosv_shutdown` failed. -/
theorem build_contract {os : List Event}
    (h : Lts.Emits (buildStep f asyncCancel config) (buildEvents asyncCancel config) (.start f)
      os β) :
    ∃ n, os.foldlM Native.read .fresh = some n ∧ Holds f β n ∧
      (∀ d, d ∈ n.kept ↔ ∃ o ∈ os, o.refuses d = true) ∧
      (∀ t ∈ n.keptTypes, .typeDestroy t false ∈ os) ∧
      ∀ e, β.pc = .failed e →
        n.live = ∅ ∧ n.types = ∅ ∧ n.ring = false ∧ (n.up = true → β.leaked = true) := by
  obtain ⟨n, hos, hH⟩ := h.accepted (R := fun n β => Holds f β n) (J := Sound f)
    (fun _ hr => .of_reaches hr) Holds.start
    fun _ _ _ _ hJ hR hst => hR.move hJ (buildMove_of_step hst)
  refine ⟨n, hos, hH, fun d => Native.mem_kept_of_fresh hos,
    fun t ht => Native.refused_of_fresh hos ht, fun e hpc => ?_⟩
  have hnot : ∀ u, u ∉ β.pc.owed f := fun u => by
    rw [hpc]
    exact List.not_mem_nil
  -- A failed build owes nothing any more.
  obtain ⟨htask, hring⟩ := (Sound.of_reaches h.reaches).driver_gone (by rw [hpc]; rfl) (hnot _)
  refine ⟨Finset.eq_empty_of_forall_notMem fun d hd => ?_,
    Finset.eq_empty_of_forall_notMem fun t ht => hnot _ ((hH.types t).mp ht),
    Bool.eq_false_iff.mpr fun hn => ?_, fun hup => (hH.down hup).resolve_left (hnot _)⟩
  · rcases (hH.live d).mp hd with hd | ⟨-, hd⟩
    · exact hnot _ hd
    · rw [htask] at hd
      cases hd
  · rcases hH.ring.mp hn with hn | hn
    · exact hnot _ hn
    · rw [hring] at hn
      cases hn

/-- A kernel that has all the ring needs. -/
def willing : IoUring.RingNative := ⟨.ok (), true, .ok (), fun _ => true⟩

/-- Both drivers are started; the timer driver gets the given status from its last call. -/
def buildRun (timer : Status) : List BuildAction :=
  [.current false, .prepare willing] ++ List.replicate 9 (.call (.ok ()) 5) ++ [.call timer 5]

/-- The submission of the timer task fails, and the ring driver is shut down for it. nOS-V gives up
neither the task nor its type. -/
def buildFailing : List BuildAction :=
  List.flatten [
    buildRun (.error .outOfMemory),
    [.undo (.error .busy), .undo (.error .busy), .undo (.ok ())], ringTeardown.map .ring,
    List.replicate 5 (.undo (.ok ()))]

/-- A build that fails at its last call leaves the task that nOS-V has refused to destroy. -/
theorem build_contract_failing :
    ∃ os, ∃ β : Building,
      Lts.Emits (buildStep ⟨true, true⟩ 14 ⟨1, 4, 1, 2⟩) (buildEvents 14 ⟨1, 4, 1, 2⟩)
        (.start ⟨true, true⟩) os β ∧
      β.leaked = false ∧ .use .ring .submit ∈ os ∧ ∃ n, os.foldlM Native.read .fresh = some n ∧
        n.live = ∅ ∧ n.types = ∅ ∧ n.ring = false ∧ n.up = false ∧
        .timer ∈ n.kept ∧ .ring ∉ n.kept ∧ n.keptTypes ⊆ {.timer} := by
  have hrun : (Lts.collect (buildStep ⟨true, true⟩ 14 ⟨1, 4, 1, 2⟩)
      (buildEvents 14 ⟨1, 4, 1, 2⟩) buildFailing [] (.start ⟨true, true⟩)).any
      (fun p => (p.2.pc = .failed (.native .outOfMemory) ∧ p.2.leaked = false ∧
          .use .ring .submit ∈ p.1) ∧
        (p.1.any (·.refuses .timer) = true ∧ ¬p.1.any (·.refuses .ring) = true) ∧
        .typeDestroy .ioUring false ∉ p.1 ∧ .typeDestroy .async false ∉ p.1) = true := by
    decide +kernel
  obtain ⟨p, hp, h⟩ := (Option.any_eq_true _ _).mp hrun
  obtain ⟨⟨hpc, hleaked, hsubmit⟩, ⟨htimer, hring⟩, hioUring, hasync⟩ := of_decide_eq_true h
  simp only [List.any_eq_true] at htimer hring
  have hemits := Lts.emits_of_collect .refl hp
  obtain ⟨n, hos, -, hkept, hkeptTypes, hfailed⟩ := build_contract hemits
  obtain ⟨hlive, htypes, hclosed, hup⟩ := hfailed _ hpc
  refine ⟨p.1, p.2, hemits, hleaked, hsubmit, n, hos, hlive, htypes, hclosed,
    Bool.eq_false_iff.mpr fun hn => ?_, (hkept _).mpr htimer, mt (hkept _).mp hring,
    fun t ht => ?_⟩
  · rw [hup hn] at hleaked
    cases hleaked
  · have hmem := hkeptTypes t ht
    cases t with
    | timer => exact Finset.mem_singleton_self _
    | ioUring => exact absurd hmem hioUring
    | async => exact absurd hmem hasync

section Lifetime

variable {T P W : Type} [DecidableEq W] {pid : Pid} {handle : HandleId}
  {current : Option HandleId} {cfg : PreparedRing} {raw : RawTask} {r : IoUring.State}

/-- The process that a build returns: its ring driver has been at work since its task was
submitted. -/
def State.built (cfg : PreparedRing) (raw : RawTask) (current : Option HandleId)
    (r : IoUring.State) : State T P W :=
  { State.init cfg raw current with ring := r }

end Lifetime

end Nosv.Process
