import Nosv.Io.Core
import Nosv.Process.Contract

/-!
# Building a runtime

`RuntimeBuilder::build` prepares the ring, initializes nOS-V, and makes task types and drivers one
after the other. A call that fails is followed by the cleanup written out at its place in the
source; the ring driver is at work already when the timer driver fails to start, and has to be shut
down first.

`Features.undo` transcribes the cleanups. What a cleanup gives up is what the calls before it have
made, and this is the invariant: `Holds` reads what nOS-V holds off the cleanup that comes next.
-/

/-! ## Preparing the ring -/

namespace Nosv

/-- Why a runtime could not be built. -/
inductive InitError where
  | alreadyInTask
  | invalidIoUringConfig (error : IoUring.InvalidIoUringConfig)
  | ioUring (error : Io.Error)
  | native (error : NativeError)
  deriving DecidableEq, Repr

namespace IoUring

/-- What the kernel answers while a ring is prepared. -/
structure RingNative where
  build : Except Io.Error Unit
  /-- `IORING_FEAT_NODROP` -/
  nodrop : Bool
  registerProbe : Except Io.Error Unit
  isSupported : ℕ → Bool

/-- An `io::Error` for a capability that the kernel lacks. -/
def unsupported (message : String) : Io.Error := .new .unsupported message

/-- A valid configuration is returned as it is. -/
theorem IoUringConfig.validate_ok {config c : IoUringConfig} (h : config.validate = .ok c) :
    c = config ∧ c.validate = .ok c := by
  have hc : c = config := by
    unfold validate at h
    split_ifs at h
    exact (Except.ok.inj h).symm
  exact ⟨hc, hc ▸ h⟩

/-- `PreparedRing::new`, with the opcode of `IORING_OP_ASYNC_CANCEL`. -/
def PreparedRing.new (asyncCancel : ℕ) (config : IoUringConfig) (native : RingNative) :
    Except InitError PreparedRing :=
  match hvalid : config.validate with
  | .error e => .error (.invalidIoUringConfig e)
  | .ok config =>
    match native.build with
    | .error e => .error (.ioUring e)
    | .ok () =>
      if native.nodrop = false then
        .error (.ioUring (unsupported "kernel io_uring does not provide IORING_FEAT_NODROP"))
      else
        match native.registerProbe with
        | .error e => .error (.ioUring e)
        | .ok () =>
          if native.isSupported asyncCancel = false then
            .error (.ioUring
              (unsupported "kernel io_uring does not support IORING_OP_ASYNC_CANCEL"))
          else .ok ⟨config, (IoUringConfig.validate_ok hvalid).2, native.isSupported⟩

variable {asyncCancel : ℕ} {config : IoUringConfig} {native : RingNative} {r : PreparedRing}

/-- A ring that was prepared has the configuration asked for, and can cancel. -/
theorem PreparedRing.new_eq_ok (h : PreparedRing.new asyncCancel config native = .ok r) :
    r.config = config ∧ native.build = .ok () ∧ native.nodrop = true ∧
      r.supported asyncCancel = true := by
  unfold new at h
  split at h
  next => cases h
  next c hvalid =>
    split at h
    next => cases h
    next hbuild =>
      split at h
      next => cases h
      next hnodrop =>
        split at h
        next => cases h
        next =>
          split at h
          next => cases h
          next hsupported =>
            cases h
            exact ⟨(IoUringConfig.validate_ok hvalid).1, hbuild, by simpa using hnodrop,
              by simpa using hsupported⟩

end IoUring

end Nosv

namespace Nosv.Process

open Nosv.Runtime (TaskType)

/-! ## Calls and cleanups -/

/-- A statement of `build`, or of the `start` of a driver, that can fail. -/
inductive Call where
  /-- `ffi::current` -/
  | current
  /-- `PreparedRing::new` -/
  | prepare
  | init
  | typeInit (type : TaskType)
  | create (d : Descriptor)
  | metadata (d : Descriptor)
  | submit (d : Descriptor)
  deriving DecidableEq, Repr

/-- A statement of a cleanup. -/
inductive Undo where
  | destroy (d : Descriptor)
  /-- The ring goes with its owner. -/
  | dropRing
  /-- `shutdown_and_wait` of the ring driver. -/
  | shutdownRing
  | typeDestroy (type : TaskType)
  | shutdown
  deriving DecidableEq, Repr

end Nosv.Process

namespace Nosv.Runtime.Features

open Nosv.Process (Call Undo)

variable (f : Features)

/-- The calls of a build, in their order. -/
def build : List Call :=
  [.current] ++ (if f.ioUring then [.prepare] else []) ++ [.init, .typeInit .async] ++
    (if f.ioUring then [.typeInit .ioUring, .create .ring, .metadata .ring, .submit .ring]
      else []) ++
    if f.time then [.typeInit .timer, .create .timer, .metadata .timer, .submit .timer] else []

/-- The prepared ring is a local variable until the driver is started with it. -/
def undoPrepared : List Undo := if f.ioUring then [.dropRing] else []

/-- The cleanup behind a failed start of the ring driver. -/
def undoStart : List Undo := [.typeDestroy .ioUring, .typeDestroy .async, .shutdown]

/-- The cleanup of a runtime with a ring driver. -/
def undoDriver : List Undo :=
  (if f.ioUring then [.shutdownRing, .typeDestroy .ioUring] else []) ++
    [.typeDestroy .async, .shutdown]

/-- The cleanup behind a call that fails. -/
def undo : Call → List Undo
  | .current | .prepare => []
  | .init => f.undoPrepared
  | .typeInit .async => .shutdown :: f.undoPrepared
  | .typeInit .ioUring => [.typeDestroy .async, .shutdown] ++ f.undoPrepared
  -- The driver is dropped when `start` returns, and the ring with it.
  | .create .ring => .dropRing :: undoStart
  | .metadata .ring | .submit .ring => .destroy .ring :: .dropRing :: undoStart
  | .typeInit .timer => f.undoDriver
  | .create .timer => .typeDestroy .timer :: f.undoDriver
  | .metadata .timer | .submit .timer => .destroy .timer :: .typeDestroy .timer :: f.undoDriver
  | .create _ | .metadata _ | .submit _ => []

/-- What there is to give up before the listed calls are made. -/
def owed : List Call → List Undo
  | call :: _ => f.undo call
  -- A runtime that was built.
  | [] => (if f.time then [.destroy .timer, .typeDestroy .timer] else []) ++ f.undoDriver

end Nosv.Runtime.Features

namespace Nosv.Process

open Nosv.BlockOn (HandleId)
open Nosv.IoUring (IoUringConfig PreparedRing RingNative)
open Nosv.Runtime (Features TaskType)

/-- What a call adds to the cleanup. -/
def Call.makes : Call → List Undo
  | .prepare => [.dropRing]
  | .init => [.shutdown]
  | .typeInit t => [.typeDestroy t]
  | .create d => [.destroy d]
  -- A driver that is submitted gives its descriptor and its ring up by itself.
  | .submit .ring => [.shutdownRing]
  | .current | .metadata _ | .submit _ => []

/-- What a call leaves to the driver that it starts. -/
def Call.hands : Call → List Undo
  | .submit .ring => [.destroy .ring, .dropRing]
  | _ => []

namespace Call

variable {call : Call} {d : Descriptor} {t : TaskType} {u : Undo}

/-- Every kind of thing is made by one kind of call. -/
theorem mem_makes : u ∈ call.makes ↔
    match u with
    | .dropRing => call = .prepare
    | .shutdown => call = .init
    | .typeDestroy t => call = .typeInit t
    | .destroy d => call = .create d
    | .shutdownRing => call = .submit .ring := by
  cases call with
  | submit d => cases d <;> cases u <;> simp [makes]
  | _ => cases u <;> simp [makes, eq_comm]

@[simp]
theorem dropRing_mem_makes : .dropRing ∈ call.makes ↔ call = .prepare := mem_makes

@[simp]
theorem shutdown_mem_makes : .shutdown ∈ call.makes ↔ call = .init := mem_makes

@[simp]
theorem typeDestroy_mem_makes : .typeDestroy t ∈ call.makes ↔ call = .typeInit t :=
  mem_makes

@[simp]
theorem destroy_mem_makes : .destroy d ∈ call.makes ↔ call = .create d := mem_makes

@[simp]
theorem shutdownRing_mem_makes : .shutdownRing ∈ call.makes ↔ call = .submit .ring :=
  mem_makes

/-- Only the start of the driver leaves anything to it. -/
@[simp]
theorem mem_hands :
    u ∈ call.hands ↔ call = .submit .ring ∧ (u = .destroy .ring ∨ u = .dropRing) := by
  cases call with
  | submit d => cases d <;> simp [hands]
  | _ => simp [hands]

end Call

/-- What has to be there for a call. -/
def Call.needs : Call → List Undo
  | .current | .prepare | .init => []
  | .typeInit _ => [.shutdown]
  | .create d => .shutdown :: (d.type.map Undo.typeDestroy).toList
  | .metadata d | .submit d => [.shutdown, .destroy d]

/-- The type that has to be there until the statement. -/
def Undo.type : Undo → Option TaskType
  | .destroy d => d.type
  | .shutdownRing => some .ioUring
  | .dropRing | .typeDestroy _ | .shutdown => none

/-- A statement of a cleanup comes before everything that has to outlive what it gives up. -/
def Undo.before (rest : List Undo) : Undo → Prop
  | .destroy d => .destroy d ∉ rest ∧ .shutdown ∈ rest
  | .dropRing => .dropRing ∉ rest
  | .shutdownRing => .shutdownRing ∉ rest ∧ .shutdown ∈ rest
  | .typeDestroy t => .typeDestroy t ∉ rest ∧ .shutdown ∈ rest ∧ ∀ u ∈ rest, u.type ≠ some t
  | .shutdown => ∀ u ∈ rest, u = .dropRing

/-- No statement of a cleanup comes twice. -/
theorem Undo.before.notMem {u : Undo} {rest : List Undo} (h : u.before rest) : u ∉ rest := by
  cases u with
  | destroy | shutdownRing | typeDestroy => exact h.1
  | dropRing => exact h
  | shutdown => exact fun hmem => by cases h _ hmem

/-- Every statement of the cleanup comes at its time. -/
def Legal : List Undo → Prop
  | [] => True
  | u :: rest => u.before rest ∧ Legal rest

instance (rest : List Undo) : (u : Undo) → Decidable (u.before rest)
  | .destroy _ | .shutdownRing | .typeDestroy _ => inferInstanceAs (Decidable (_ ∧ _))
  | .dropRing => inferInstanceAs (Decidable (_ ∉ _))
  | .shutdown => inferInstanceAs (Decidable (∀ u ∈ rest, u = .dropRing))

instance : (us : List Undo) → Decidable (Legal us)
  | [] => .isTrue trivial
  | u :: rest =>
    have := instDecidableLegal rest
    inferInstanceAs (Decidable (u.before rest ∧ Legal rest))

/-- The cleanup before a call is there for it, and the next one is the same with what the call has
made. -/
def Fits (f : Features) : List Call → Prop
  | [] => True
  | call :: rest =>
    (∀ u ∈ call.needs, u ∈ f.undo call) ∧ (∀ u ∈ call.makes, u ∉ f.undo call) ∧
      (f.owed rest).toFinset =
        call.makes.toFinset ∪ ((f.undo call).toFinset \ call.hands.toFinset)

instance (f : Features) : (calls : List Call) → Decidable (Fits f calls)
  | [] => .isTrue trivial
  | _ :: _ => inferInstanceAs (Decidable (_ ∧ _))

/-- A driver at work has its descriptor and its ring for itself. -/
def Alone (us : List Undo) : Prop :=
  .shutdownRing ∈ us → .destroy .ring ∉ us ∧ .dropRing ∉ us

instance (us : List Undo) : Decidable (Alone us) := inferInstanceAs (Decidable (_ → _))

/-- The cleanups of the source are in order. -/
theorem cleanups (f : Features) {calls : List Call} (h : calls <:+ f.build) :
    calls.Nodup ∧ Legal (f.owed calls) ∧ Alone (f.owed calls) ∧ Fits f calls := by
  have hall : ∀ l ∈ f.build.tails,
      l.Nodup ∧ Legal (f.owed l) ∧ Alone (f.owed l) ∧ Fits f l := by
    obtain ⟨_ | _, _ | _⟩ := f <;> decide
  exact hall calls ((List.mem_tails _ _).mpr h)

/-- What there is to give up behind a call. -/
theorem Fits.mem_owed {f : Features} {call : Call} {rest : List Call} {u : Undo}
    (h : Fits f (call :: rest)) :
    u ∈ f.owed rest ↔ u ∈ call.makes ∨ u ∈ f.undo call ∧ u ∉ call.hands := by
  rw [← List.mem_toFinset, h.2.2]
  simp

/-- Whatever is given up needs nOS-V, the ring aside. -/
theorem Legal.shutdown_mem {us : List Undo} {u : Undo} (h : Legal us) (hu : u ∈ us)
    (hne : u ≠ .dropRing) : .shutdown ∈ us := by
  induction us with
  | nil => cases hu
  | cons v us ih =>
    obtain ⟨hv, hus⟩ := h
    rcases List.mem_cons.mp hu with rfl | hu
    · cases u with
      | destroy => exact List.mem_cons_of_mem _ hv.2
      | dropRing => exact absurd rfl hne
      | shutdownRing => exact List.mem_cons_of_mem _ hv.2
      | typeDestroy => exact List.mem_cons_of_mem _ hv.2.1
      | shutdown => exact List.mem_cons_self
    · exact List.mem_cons_of_mem _ (ih hus hu)

/-! ## Building -/

/-- Where `build` is. -/
inductive BuildPc where
  /-- The calls that are left; none when the runtime is returned. -/
  | calling (rest : List Call)
  /-- The statements of a cleanup that are left. -/
  | undoing (rest : List Undo) (error : InitError)
  /-- In `shutdown_and_wait` of the ring driver. -/
  | waiting (rest : List Undo) (error : InitError)
  | failed (error : InitError)
  deriving DecidableEq

/-- What there is to give up. -/
def BuildPc.owed (f : Features) : BuildPc → List Undo
  | .calling rest => f.owed rest
  | .undoing rest _ | .waiting rest _ => rest
  | .failed _ => []

/-- `build` is making calls, and nothing has failed. -/
def BuildPc.calls : BuildPc → Bool
  | .calling _ => true
  | .undoing .. | .waiting .. | .failed _ => false

/-- The owner thread is inside the ring driver. -/
def BuildPc.waits : BuildPc → Bool
  | .waiting .. => true
  | .calling _ | .undoing .. | .failed _ => false

/-- A runtime that is being built. -/
structure Building where
  pc : BuildPc
  prepared : Option PreparedRing
  /-- The ring driver, once its task is submitted. -/
  ring : Option IoUring.State
  timer : Option RawTask
  /-- `nosv_shutdown` has failed. -/
  leaked : Bool

/-- The ring driver has the descriptor of its task. -/
def Building.driverTask (β : Building) : Bool := β.ring.any (·.gate.raw)

/-- The ring driver has the ring. -/
def Building.driverRing (β : Building) : Bool := β.ring.any (·.ring.isSome)

/-- `build` is called. -/
def Building.start (f : Features) : Building := ⟨.calling f.build, none, none, none, false⟩

/-- Steps of a build. -/
inductive BuildAction where
  | current (inTask : Bool)
  | prepare (native : RingNative)
  /-- The next native call, with the descriptor in case it creates one. -/
  | call (native : Status) (raw : RawTask)
  /-- The next statement of a cleanup, and what the native call in it returns. -/
  | undo (native : Status)
  /-- A step of the ring driver. Nobody has a handle yet, and the steps of callers are let in only
  because they do no harm. -/
  | ring (action : IoUring.Action)

section Step

variable (f : Features) (asyncCancel : ℕ) (config : IoUringConfig)

/-- The next statement of a cleanup. -/
def undoStep (native : Status) (β : Building) : Except (Halt IoUring.Abort) Building :=
  match β.pc with
  | .undoing [] e => .ok { β with pc := .failed e }
  | .undoing (.shutdownRing :: rest) e =>
    match β.prepared, β.ring with
    | some cfg, some r =>
      Lts.inside id (fun r => { β with ring := some r, pc := .waiting rest e })
        -- There is no core yet, so nobody asks the driver about a lifecycle.
        (IoUring.step cfg .shutdownAndWait { r with running := false })
    | _, _ => .error .disabled
  | .undoing (u :: rest) e =>
    -- `let _ =`: a cleanup goes on whatever its calls return.
    .ok { β with
      pc := .undoing rest e
      leaked := β.leaked || (u = .shutdown && !native.isOk) }
  | .waiting rest e =>
    if β.ring.any (·.owner = .idle) then .ok { β with pc := .undoing rest e }
    else .error .disabled
  | _ => .error .disabled

/-- The next state of a build. -/
def buildStep (a : BuildAction) (β : Building) : Except (Halt IoUring.Abort) Building :=
  match a with
  | .current inTask =>
    match β.pc with
    | .calling (.current :: rest) =>
      .ok { β with pc := if inTask then .failed .alreadyInTask else .calling rest }
    | _ => .error .disabled
  | .prepare native =>
    match β.pc with
    | .calling (.prepare :: rest) =>
      match PreparedRing.new asyncCancel config native with
      | .error e => .ok { β with pc := .failed e }
      | .ok r => .ok { β with pc := .calling rest, prepared := some r }
    | _ => .error .disabled
  | .call native raw =>
    match β.pc, native with
    | .calling (.current :: _), _ | .calling (.prepare :: _), _ => .error .disabled
    | .calling (call :: _), .error e =>
      .ok { β with pc := .undoing (f.undo call) (.native e) }
    | .calling (call :: rest), .ok () =>
      .ok { β with
        pc := .calling rest
        ring := if call = .submit .ring then β.prepared.map IoUring.State.init else β.ring
        timer := if call = .create .timer then some raw else β.timer }
    | _, _ => .error .disabled
  | .undo native => undoStep native β
  | .ring a =>
    match β.prepared, β.ring with
    | some cfg, some r =>
      if ringWhole a then .error .disabled
      else Lts.inside id (fun r => { β with ring := some r }) (IoUring.step cfg a r)
    | _, _ => .error .disabled

/-- The events of a step of a build. -/
def buildEvents : BuildAction → Building → List Event
  -- `nosv_self` may be called at any time.
  | .current _, _ => []
  | .prepare native, _ =>
    match config.validate, native.build with
    | .error _, _ => []
    | .ok _, .error _ => [.openRing false]
    | .ok _, .ok () =>
      if (PreparedRing.new asyncCancel config native).isOk then [.openRing true]
      else [.openRing true, .closeRing]
  | .call native _, β =>
    match β.pc with
    | .calling (.init :: _) => [.init native.isOk]
    | .calling (.typeInit t :: _) => [.typeInit t native.isOk]
    | .calling (.create d :: _) => [.create d native.isOk]
    | .calling (.metadata d :: _) => [.use d .metadata]
    | .calling (.submit d :: _) => [.use d .submit]
    | _ => []
  | .undo native, β =>
    match β.pc with
    | .undoing (.destroy d :: _) _ => [.destroy d native.isOk]
    | .undoing (.dropRing :: _) _ => [.closeRing]
    | .undoing (.typeDestroy t :: _) _ => [.typeDestroy t native.isOk]
    | .undoing (.shutdown :: _) _ => [.shutdown native.isOk]
    | _ => []
  | .ring a, β => β.ring.elim [] (ringEvents a)

end Step

/-! ## What a step can do -/

variable {f : Features} {asyncCancel : ℕ} {config : IoUringConfig} {β γ : Building}
  {a : BuildAction}

variable (asyncCancel config β) in
/-- The events of a preparation: a ring that is no use is dropped at once. -/
theorem prepare_events (native : RingNative) :
    (∃ r, PreparedRing.new asyncCancel config native = .ok r ∧
      buildEvents asyncCancel config (.prepare native) β = [.openRing true]) ∨
    (∃ e, PreparedRing.new asyncCancel config native = .error e) ∧
      (buildEvents asyncCancel config (.prepare native) β = [] ∨
        buildEvents asyncCancel config (.prepare native) β = [.openRing false] ∨
        buildEvents asyncCancel config (.prepare native) β = [.openRing true, .closeRing]) := by
  cases hnew : PreparedRing.new asyncCancel config native with
  | ok r =>
    obtain ⟨hconfig, hbuild, -⟩ := IoUring.PreparedRing.new_eq_ok hnew
    have hvalid := r.valid
    rw [hconfig] at hvalid
    refine .inl ⟨r, rfl, ?_⟩
    simp [buildEvents, hvalid, hbuild, hnew, Except.isOk, Except.toBool]
  | error e =>
    refine .inr ⟨⟨e, rfl⟩, ?_⟩
    simp only [buildEvents, hnew]
    split
    · exact .inl rfl
    · exact .inr (.inl rfl)
    · exact .inr (.inr rfl)

/-- One successful step of a build, by cases. -/
inductive BuildMove (f : Features) (asyncCancel : ℕ) (config : IoUringConfig) (β : Building) :
    BuildAction → Building → Prop
  | free {rest : List Call} (hpc : β.pc = .calling (.current :: rest)) :
      BuildMove f asyncCancel config β (.current false) { β with pc := .calling rest }
  | inTask {rest : List Call} (hpc : β.pc = .calling (.current :: rest)) :
      BuildMove f asyncCancel config β (.current true) { β with pc := .failed .alreadyInTask }
  | prepared {native : RingNative} {rest : List Call} {r : PreparedRing}
      (hpc : β.pc = .calling (.prepare :: rest))
      (hnew : PreparedRing.new asyncCancel config native = .ok r) :
      BuildMove f asyncCancel config β (.prepare native)
        { β with pc := .calling rest, prepared := some r }
  | unprepared {native : RingNative} {rest : List Call} {e : InitError}
      (hpc : β.pc = .calling (.prepare :: rest))
      (hnew : PreparedRing.new asyncCancel config native = .error e) :
      BuildMove f asyncCancel config β (.prepare native) { β with pc := .failed e }
  | called {raw : RawTask} {call : Call} {rest : List Call} (hpc : β.pc = .calling (call :: rest))
      (hcall : call ≠ .current ∧ call ≠ .prepare) :
      BuildMove f asyncCancel config β (.call (.ok ()) raw)
        { β with
          pc := .calling rest
          ring := if call = .submit .ring then β.prepared.map IoUring.State.init else β.ring
          timer := if call = .create .timer then some raw else β.timer }
  | callFailed {raw : RawTask} {e : NativeError} {call : Call} {rest : List Call}
      (hpc : β.pc = .calling (call :: rest)) (hcall : call ≠ .current ∧ call ≠ .prepare) :
      BuildMove f asyncCancel config β (.call (.error e) raw)
        { β with pc := .undoing (f.undo call) (.native e) }
  | undone {native : Status} {u : Undo} {rest : List Undo} {e : InitError}
      (hpc : β.pc = .undoing (u :: rest) e) (hu : u ≠ .shutdownRing) :
      BuildMove f asyncCancel config β (.undo native)
        { β with
          pc := .undoing rest e
          leaked := β.leaked || (u = .shutdown && !native.isOk) }
  | enterRing {native : Status} {rest : List Undo} {e : InitError} {cfg : PreparedRing}
      {r r' : IoUring.State} (hpc : β.pc = .undoing (.shutdownRing :: rest) e)
      (hcfg : β.prepared = some cfg) (hr : β.ring = some r)
      (hstep : IoUring.step cfg .shutdownAndWait { r with running := false } = .ok r') :
      BuildMove f asyncCancel config β (.undo native)
        { β with ring := some r', pc := .waiting rest e }
  | leaveRing {native : Status} {rest : List Undo} {e : InitError} {r : IoUring.State}
      (hpc : β.pc = .waiting rest e) (hr : β.ring = some r) (howner : r.owner = .idle) :
      BuildMove f asyncCancel config β (.undo native) { β with pc := .undoing rest e }
  | failed {native : Status} {e : InitError} (hpc : β.pc = .undoing [] e) :
      BuildMove f asyncCancel config β (.undo native) { β with pc := .failed e }
  | ring {a : IoUring.Action} {cfg : PreparedRing} {r r' : IoUring.State}
      (hcfg : β.prepared = some cfg) (hr : β.ring = some r) (ha : ringWhole a = false)
      (hstep : IoUring.step cfg a r = .ok r') :
      BuildMove f asyncCancel config β (.ring a) { β with ring := some r' }

/-- Every successful step of a cleanup is one of the moves. -/
theorem BuildMove.of_undo {native : Status} (h : undoStep native β = .ok γ) :
    BuildMove f asyncCancel config β (.undo native) γ := by
  unfold undoStep at h
  split at h
  next hpc =>
    cases h
    exact .failed hpc
  next rest e hpc =>
    split at h
    next cfg r hcfg hr =>
      obtain ⟨r', hstep, rfl⟩ := Lts.inside_eq_ok.mp h
      exact .enterRing hpc hcfg hr hstep
    next => cases h
  next u rest e hu hpc =>
    cases h
    exact .undone hpc hu
  next rest e hpc =>
    split at h
    next hany =>
      cases h
      obtain ⟨r, hr, howner⟩ := (Option.any_eq_true _ _).mp hany
      exact .leaveRing hpc hr (of_decide_eq_true howner)
    next => cases h
  next => cases h

/-- Every successful step is one of the moves. -/
theorem buildMove_of_step (h : buildStep f asyncCancel config a β = .ok γ) :
    BuildMove f asyncCancel config β a γ := by
  cases a with
  | current inTask =>
    simp only [buildStep] at h
    split at h
    next rest hpc =>
      cases h
      cases inTask with
      | false => exact .free hpc
      | true => exact .inTask hpc
    next => cases h
  | prepare native =>
    simp only [buildStep] at h
    split at h
    next rest hpc =>
      split at h
      next e hnew =>
        cases h
        exact .unprepared hpc hnew
      next r hnew =>
        cases h
        exact .prepared hpc hnew
    next => cases h
  | call native raw =>
    simp only [buildStep] at h
    split at h
    next => cases h
    next => cases h
    next call rest e hcurrent hprepare hpc =>
      cases h
      exact .callFailed hpc ⟨hcurrent, hprepare⟩
    next call rest hcurrent hprepare hpc =>
      cases h
      exact .called hpc ⟨hcurrent, hprepare⟩
    next => cases h
  | undo native => exact .of_undo h
  | ring a =>
    simp only [buildStep] at h
    split at h
    next cfg r hcfg hr =>
      split at h
      next => cases h
      next ha =>
        obtain ⟨r', hstep, rfl⟩ := Lts.inside_eq_ok.mp h
        exact .ring hcfg hr (by simpa using ha) hstep
    next => cases h

end Nosv.Process
