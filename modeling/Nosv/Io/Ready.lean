import Nosv.Io.Buffer
import Nosv.Io.Future

/-!
# Borrowed TCP I/O through readiness lanes

`poll_read` and `poll_write` make a nonblocking syscall and, when it would block, poll a readiness
operation that the stream keeps for the direction. The operation is an `OwnedOp`, whose own machine
is embedded here: the steps of its poll are taken by the call, those of its handler at any time.

Calls borrow the stream exclusively, so that there is one at a time. What a syscall returns is a
parameter of the step that makes it.

* `Stream.sound_of_reachable`: lanes, operations and call agree;
* `lanes_transparent`: a call returns what its syscall returned, and else its waker is registered;
* `lanes_full`: a read into a full buffer makes no syscall.
-/

namespace Nosv.Io

/-! ## The buffer of the caller -/

/-- `tokio::io::ReadBuf` -/
class ReadBuf (B : Type) where
  filled : B → List UInt8
  /-- The allocation behind the filled part. -/
  unfilled : B → Memory
  /-- How many bytes of it are known to be initialized. -/
  initialized : B → ℕ
  /-- What the kernel does through `unfilled_mut`. -/
  fill : B → List UInt8 → B
  assumeInit : B → ℕ → B
  advance : B → ℕ → B

namespace ReadBuf

variable {B : Type} [ReadBuf B]

/-- `remaining` -/
def remaining (buf : B) : ℕ := (unfilled buf).length

/-- A successful `recv` into the unfilled part. -/
def append (buf : B) (chunk : List UInt8) : B :=
  let buf := fill buf chunk
  let buf := assumeInit buf chunk.length
  advance buf chunk.length

end ReadBuf

/-- What the operations of a `ReadBuf` are documented to do. -/
class LawfulReadBuf (B : Type) [ReadBuf B] : Prop where
  fill_spec : ∀ (buf : B) (chunk : List UInt8), chunk.length ≤ ReadBuf.remaining buf →
    ReadBuf.filled (ReadBuf.fill buf chunk) = ReadBuf.filled buf ∧
      ReadBuf.unfilled (ReadBuf.fill buf chunk) = (ReadBuf.unfilled buf).write 0 chunk
  assumeInit_spec : ∀ (buf : B) (n : ℕ), n ≤ ReadBuf.remaining buf →
    (ReadBuf.unfilled buf).Initialized n →
    ReadBuf.filled (ReadBuf.assumeInit buf n) = ReadBuf.filled buf ∧
      ReadBuf.unfilled (ReadBuf.assumeInit buf n) = ReadBuf.unfilled buf ∧
      n ≤ ReadBuf.initialized (ReadBuf.assumeInit buf n)
  advance_spec : ∀ (buf : B) (n : ℕ), n ≤ ReadBuf.initialized buf →
    (ReadBuf.unfilled buf).Initialized n →
    (ReadBuf.filled (ReadBuf.advance buf n)).map some =
      (ReadBuf.filled buf).map some ++ (ReadBuf.unfilled buf).take n

/-- A successful `recv` appends what it has received. -/
theorem ReadBuf.filled_append {B : Type} [ReadBuf B] [LawfulReadBuf B] {buf : B}
    {chunk : List UInt8} (hroom : chunk.length ≤ remaining buf) :
    filled (append buf chunk) = filled buf ++ chunk := by
  have hstart : 0 ≤ (unfilled buf).length := Nat.zero_le _
  obtain ⟨hfilled, hunfilled⟩ := LawfulReadBuf.fill_spec buf chunk hroom
  -- the prefix of the unfilled part is what was received
  have htake : (unfilled (fill buf chunk)).take chunk.length = chunk.map some := by
    have hwrite := @Memory.take_write_add (unfilled buf) 0 chunk.length chunk hstart (Nat.le_refl _)
    rw [Nat.zero_add, List.take_zero, List.nil_append, List.take_length] at hwrite
    rw [hunfilled, hwrite]
  have hinit : (unfilled (fill buf chunk)).Initialized chunk.length := by
    intro x hx
    rw [htake] at hx
    obtain ⟨y, -, rfl⟩ := List.mem_map.mp hx
    rfl
  have hlen : chunk.length ≤ remaining (fill buf chunk) := by
    have := congrArg List.length htake
    rw [List.length_take, List.length_map] at this
    unfold remaining
    omega
  obtain ⟨hfilled', hunfilled', hmarked⟩ := LawfulReadBuf.assumeInit_spec _ _ hlen hinit
  have hadvance := LawfulReadBuf.advance_spec (assumeInit (fill buf chunk) chunk.length)
    chunk.length hmarked (hunfilled' ▸ hinit)
  rw [hfilled', hunfilled', hfilled, htake, ← List.map_append] at hadvance
  exact (List.map_inj_right fun _ _ => Option.some.inj).mp hadvance

/-! ## Lanes -/

/-- `PollWork` -/
def pollWork : OpWork (Except Error Unit) :=
  ⟨fun cqe => (result cqe).map fun _ => (), .error⟩

/-- A one-shot readiness operation. -/
abbrev Readiness (W : Type) := OwnedOp.State (Except Error Unit) W

/-- One persistent readiness request for a borrowed-I/O direction. -/
structure ReadyLane (W : Type) where
  /-- Persistent readiness operation, if currently pending. -/
  operation : Option (Readiness W)
  /-- How many operations were created, for specification only. -/
  created : ℕ
  /-- The operations it has let go, for specification only. -/
  past : List (Readiness W)

/-- An empty lane. -/
def ReadyLane.new {W : Type} : ReadyLane W := ⟨none, 0, []⟩

/-- The operation is created when there is none. -/
def ReadyLane.opened {W : Type} (lane : ReadyLane W) : ReadyLane W :=
  match lane.operation with
  | some _ => lane
  | none => { lane with operation := some .init, created := lane.created + 1 }

inductive Direction where
  | read
  | write
  deriving DecidableEq, Repr

/-! ## Calls -/

/-- What a call works on. -/
inductive Request (B : Type) where
  /-- `poll_read` into a `ReadBuf`. -/
  | read (buf : B)
  /-- `poll_write` of a slice. -/
  | write (data : List UInt8)

/-- The lane of a request. -/
def Request.direction {B : Type} : Request B → Direction
  | .read _ => .read
  | .write _ => .write

/-- A nonblocking syscall and what it returned: the bytes received, the count sent, or `errno`. -/
inductive Syscall where
  | recv (result : Except ℕ (List UInt8))
  | send (result : Except ℕ ℕ)

/-- The error of a syscall that has transferred nothing. -/
def Syscall.errno : Syscall → Option ℕ
  | .recv (.error errno) | .send (.error errno) => some errno
  | .recv (.ok _) | .send (.ok _) => none

/-- `EINTR`, for which `kind()` is `Interrupted`. -/
def eintr : ℕ := 4

/-- `EAGAIN`, for which `kind()` is `WouldBlock`. -/
def eagain : ℕ := 11

/-- What a call returns. -/
inductive Reply where
  | pending
  /-- `Ready(Ok(()))` of a read. -/
  | readOk
  /-- `Ready(Ok(n))` of a write. -/
  | written (n : ℕ)
  /-- `Ready(Err(_))` -/
  | failed (error : Error)
  deriving DecidableEq, Repr

/-- Where a call is. -/
inductive CallPc where
  /-- Before its next syscall. -/
  | trying
  /-- The syscall would have blocked, and the lane is to be polled. -/
  | entering
  /-- In the poll of the readiness operation. -/
  | polling
  | returned (reply : Reply)
  deriving DecidableEq, Repr

/-- The call has returned. -/
def CallPc.isReturned : CallPc → Bool
  | .returned _ => true
  | .trying | .entering | .polling => false

/-- The call in progress, or the last one. -/
structure Call (B W : Type) where
  request : Request B
  waker : W
  pc : CallPc
  /-- The request as it was made, for specification only. -/
  entry : Request B
  /-- The syscalls so far, for specification only. -/
  syscalls : List Syscall

/-- The lane of a call. -/
def Call.direction {B W : Type} (c : Call B W) : Direction := c.request.direction

section Attempts

variable {B W : Type} [ReadBuf B]

/-- The top of the loop: a read into a full buffer returns. -/
def Request.top : Request B → CallPc
  | .read buf => if ReadBuf.remaining buf = 0 then .returned .readOk else .trying
  | .write _ => .trying

/-- What a failed syscall leads to. -/
def Request.retry (request : Request B) (errno : ℕ) : CallPc :=
  if errno = eintr then request.top
  else if errno ≠ eagain then .returned (.failed (.os errno))
  else .entering

/-- One syscall of the loop. It transfers no more than it is asked to. -/
def Call.attempt (syscall : Syscall) (c : Call B W) : Option (Call B W) :=
  let syscalls := c.syscalls ++ [syscall]
  match c.request, syscall with
  | .read buf, .recv (.ok chunk) =>
    -- the kernel is given the unfilled part of the buffer and its length
    if chunk.length ≤ ReadBuf.remaining buf then
      some { c with
        request := .read (ReadBuf.append buf chunk)
        pc := .returned .readOk
        syscalls := syscalls }
    else none
  | .write data, .send (.ok n) =>
    if n ≤ data.length then some { c with pc := .returned (.written n), syscalls := syscalls }
    else none
  | .read _, .recv (.error errno) | .write _, .send (.error errno) =>
    some { c with pc := c.request.retry errno, syscalls := syscalls }
  | .read _, .send _ | .write _, .recv _ => none

end Attempts

/-! ## The stream -/

/-- What the borrowed methods use of a `TcpStream`. -/
structure Stream (B W : Type) where
  readReady : ReadyLane W
  writeReady : ReadyLane W
  call : Option (Call B W)

namespace Stream

variable {B W : Type}

/-- A stream that was not polled yet. -/
def init : Stream B W := ⟨.new, .new, none⟩

/-- The lane of a direction. -/
def lane (σ : Stream B W) : Direction → ReadyLane W
  | .read => σ.readReady
  | .write => σ.writeReady

/-- Put a lane in its next state. -/
def setLane (σ : Stream B W) (d : Direction) (lane : ReadyLane W) : Stream B W :=
  match d with
  | .read => { σ with readReady := lane }
  | .write => { σ with writeReady := lane }

/-- Put the call in its next state. -/
def setCall (σ : Stream B W) (c : Call B W) : Stream B W := { σ with call := some c }

@[simp]
theorem lane_setCall (σ : Stream B W) (c : Call B W) (d : Direction) :
    (σ.setCall c).lane d = σ.lane d := by
  cases d <;> rfl

@[simp]
theorem call_setLane (σ : Stream B W) (d : Direction) (lane : ReadyLane W) :
    (σ.setLane d lane).call = σ.call := by
  cases d <;> rfl

@[simp]
theorem call_setCall (σ : Stream B W) (c : Call B W) : (σ.setCall c).call = some c := rfl

@[simp]
theorem lane_setLane_self (σ : Stream B W) (d : Direction) (lane : ReadyLane W) :
    (σ.setLane d lane).lane d = lane := by
  cases d <;> rfl

/-- The other lane is left alone. -/
theorem lane_setLane_of_ne {σ : Stream B W} {d d' : Direction} {lane : ReadyLane W} (h : d' ≠ d) :
    (σ.setLane d lane).lane d' = σ.lane d' := by
  cases d <;> cases d' <;> first | rfl | exact absurd rfl h

/-! ## Steps -/

/-- Steps of the calling task and of the driver. -/
inductive Action (B W : Type) where
  | call (request : Request B) (waker : W)
  | syscall (syscall : Syscall)
  /-- `ReadyLane::poll` up to the call of `OwnedOp::poll`. -/
  | enter
  /-- The next step of `OwnedOp::poll`. -/
  | poll (action : OwnedOp.Action W)
  /-- A step of the handler of an operation: of the driver, or of a poll that fails it. -/
  | handler (d : Direction) (action : OwnedOp.Action W)

/-- The step is one of the handler. -/
def ofHandler : OwnedOp.Action W → Bool
  | .store _ | .setCompleted | .takeWaker => true
  | .poll _ | .enqueue _ _ | .check | .register | .recheck | .take | .drop => false

/-- The step is one of a poll in progress. -/
def ofPoll : OwnedOp.Action W → Bool
  | .enqueue _ _ | .check | .register | .recheck | .take => true
  | .poll _ | .store _ | .setCompleted | .takeWaker | .drop => false

variable [ReadBuf B] [DecidableEq W]

/-- `ReadyLane::poll` after a step of the operation, which is ready when the step was its last. -/
def polled (σ : Stream B W) (c : Call B W) (op : Readiness W) :
    Option (Except Error Unit) → Stream B W
  | some value =>
    -- the lane is emptied before the caller goes back to its syscall
    let lane := σ.lane c.direction
    let pc := match value with
      | .ok () => c.request.top
      | .error error => .returned (.failed error)
    (σ.setLane c.direction { lane with operation := none, past := lane.past ++ [op] }).setCall
      { c with pc := pc }
  | none =>
    let pc := if op.poll = .idle then .returned .pending else .polling
    (σ.setLane c.direction { σ.lane c.direction with operation := some op }).setCall
      { c with pc := pc }

/-- The next state. -/
def step : Action B W → Stream B W → Except (Halt OwnedOp.Panic) (Stream B W)
  | .call request waker, σ =>
    -- `Pin<&mut TcpStream>`: one call at a time, in either direction
    if σ.call.all (·.pc.isReturned) then
      .ok (σ.setCall ⟨request, waker, request.top, request, []⟩)
    else .error .disabled
  | .syscall syscall, σ =>
    match σ.call with
    | none => .error .disabled
    | some c =>
      if c.pc = .trying then
        match c.attempt syscall with
        | none => .error .disabled
        | some c => .ok (σ.setCall c)
      else .error .disabled
  | .enter, σ =>
    match σ.call with
    | none => .error .disabled
    | some c =>
      if c.pc = .entering then
        -- `get_or_insert_with`: an operation that is pending is polled again
        let lane := (σ.lane c.direction).opened
        match OwnedOp.step pollWork (.poll c.waker) (lane.operation.getD .init) with
        | .error e => .error e
        | .ok op =>
          .ok ((σ.setLane c.direction { lane with operation := some op }).setCall
            { c with pc := .polling })
      else .error .disabled
  | .poll action, σ =>
    match σ.call with
    | none => .error .disabled
    | some c =>
      match (σ.lane c.direction).operation with
      | none => .error .disabled
      | some op =>
        if c.pc = .polling ∧ ofPoll action = true then
          match OwnedOp.step pollWork action op with
          | .error e => .error e
          | .ok op' => .ok (σ.polled c op' (if action = .take then op.result else none))
        else .error .disabled
  | .handler d action, σ =>
    match (σ.lane d).operation with
    | none => .error .disabled
    | some op =>
      if ofHandler action = true then
        match OwnedOp.step pollWork action op with
        | .error e => .error e
        | .ok op => .ok (σ.setLane d { σ.lane d with operation := some op })
      else .error .disabled

/-- One constructor for each step that is enabled. -/
inductive Move (σ : Stream B W) : Action B W → Stream B W → Prop
  | call {request : Request B} {waker : W} (hcall : ∀ c, σ.call = some c → c.pc.isReturned = true) :
      Move σ (.call request waker) (σ.setCall ⟨request, waker, request.top, request, []⟩)
  | syscall {c c' : Call B W} {syscall : Syscall} (hcall : σ.call = some c) (hpc : c.pc = .trying)
      (hattempt : c.attempt syscall = some c') : Move σ (.syscall syscall) (σ.setCall c')
  | enter {c : Call B W} {op : Readiness W} (hcall : σ.call = some c) (hpc : c.pc = .entering)
      (hop : OwnedOp.step pollWork (.poll c.waker)
        ((σ.lane c.direction).opened.operation.getD .init) = .ok op) :
      Move σ .enter ((σ.setLane c.direction
        { (σ.lane c.direction).opened with operation := some op }).setCall
          { c with pc := .polling })
  | poll {c : Call B W} {op op' : Readiness W} {action : OwnedOp.Action W}
      (hcall : σ.call = some c) (hlane : (σ.lane c.direction).operation = some op)
      (hpc : c.pc = .polling) (haction : ofPoll action = true)
      (hop : OwnedOp.step pollWork action op = .ok op') :
      Move σ (.poll action) (σ.polled c op' (if action = .take then op.result else none))
  | handler {d : Direction} {op op' : Readiness W} {action : OwnedOp.Action W}
      (hlane : (σ.lane d).operation = some op) (haction : ofHandler action = true)
      (hop : OwnedOp.step pollWork action op = .ok op') :
      Move σ (.handler d action) (σ.setLane d { σ.lane d with operation := some op' })

/-- Every step is one of the moves. -/
theorem Move.of_step {σ τ : Stream B W} {a : Action B W} (h : step a σ = .ok τ) : Move σ a τ := by
  cases a with
  | call request waker =>
    simp only [step] at h
    -- The call before has returned, so the stream is free.
    split_ifs at h with hreturned
    cases h
    refine .call fun c hc => ?_
    rw [hc] at hreturned
    exact hreturned
  | syscall syscall =>
    simp only [step] at h
    split at h
    · cases h
    · next c hcall =>
      split_ifs at h with hpc
      split at h
      · cases h
      · next c' hattempt =>
        cases h
        exact .syscall hcall hpc hattempt
  | enter =>
    simp only [step] at h
    split at h
    · cases h
    · next c hcall =>
      split_ifs at h with hpc
      split at h
      · cases h
      · next op hop =>
        cases h
        exact .enter hcall hpc hop
  | poll action =>
    simp only [step] at h
    split at h
    · cases h
    · next c hcall =>
      split at h
      · cases h
      · next op hlane =>
        split at h
        · next hpc =>
          split at h
          · cases h
          · next op' hop =>
            cases h
            exact .poll hcall hlane hpc.1 hpc.2 hop
        · cases h
  | handler d action =>
    simp only [step] at h
    split at h
    · cases h
    · next op hlane =>
      split_ifs at h with haction
      split at h
      · cases h
      · next op' hop =>
        cases h
        exact .handler hlane haction hop

end Stream

/-! ## The operation in a lane -/

section Held

variable {W : Type} [DecidableEq W] {op op' : Readiness W} {w : W} {polling : Option W}
  {action : OwnedOp.Action W}

/-- The poll in progress was given the waker. -/
def HasWaker (w : W) : OwnedOp.PollPc W → Prop
  | .enqueueing v | .failing v | .checking v | .registering v | .rechecking v => v = w
  | .taking => True
  | .idle => False

/-- An operation that a lane holds: while a call polls it, the poll has the waker of that call, and
it is not done otherwise. -/
structure Held (polling : Option W) (op : Readiness W) : Prop where
  reaches : Lts.Reaches (OwnedOp.step pollWork) Lts.Always .init op
  kept : op.dropped = false
  polled : ∀ w, polling = some w → HasWaker w op.poll
  resting : polling = none → op.poll = .idle ∧ op.done = false

/-- A new operation. -/
theorem Held.new : Held none (.init : Readiness W) := ⟨.refl, rfl, nofun, fun _ => ⟨rfl, rfl⟩⟩

/-- A poll of an operation starts. -/
theorem Held.enter (h : Held none op) (w : W) :
    ∃ op', OwnedOp.step pollWork (.poll w) op = .ok op' ∧ Held (some w) op' := by
  obtain ⟨hidle, hdone⟩ := h.resting rfl
  have hdropped := h.kept
  have hlinked := (OwnedOp.invariant_of_reachable h.reaches).1
  have hheld : ∀ op', OwnedOp.step pollWork (.poll w) op = .ok op' → op'.dropped = false →
      HasWaker w op'.poll → Held (some w) op' := by
    intro op' hop hkept hwaker
    refine ⟨h.reaches.tail trivial hop, hkept, ?_, nofun⟩
    rintro w' ⟨⟩
    exact hwaker
  cases hqueued : op.queued with
  | true =>
    -- an earlier call has enqueued it, and this one only looks
    have hop : OwnedOp.step pollWork (.poll w) op = .ok { op with poll := .checking w } := by
      simp [OwnedOp.step, hidle, hdropped, hdone, hqueued]
    exact ⟨_, hop, hheld _ hop hdropped rfl⟩
  | false =>
    -- it was not polled before
    have hhandler : op.handler = .held := by
      have hlocal := hlinked.unqueued hqueued
      rw [hidle, hdone] at hlocal
      cases hhandler : op.handler <;> simp [hhandler, OwnedOp.Local] at hlocal ⊢
    have hop : OwnedOp.step pollWork (.poll w) op =
        .ok { op with handler := .taken, poll := .enqueueing w } := by
      simp [OwnedOp.step, hidle, hdropped, hdone, hqueued, hhandler]
    exact ⟨_, hop, hheld _ hop hdropped rfl⟩

/-- A step of the handler leaves the call of the poll in progress. -/
theorem Held.handler (h : Held polling op) (haction : Stream.ofHandler action = true)
    (hop : OwnedOp.step pollWork action op = .ok op') : Held polling op' := by
  -- The handler's side of the operation leaves the future's side alone.
  have hsame : op'.dropped = op.dropped ∧ op'.done = op.done ∧
      (op'.poll = op.poll ∨ op'.poll = op.poll.published) := by
    cases action with
    | store finish =>
      simp only [OwnedOp.step] at hop
      split_ifs at hop
      cases hop
      exact ⟨rfl, rfl, .inl rfl⟩
    | setCompleted | takeWaker =>
      simp only [OwnedOp.step] at hop
      split at hop
      · cases hop
        exact ⟨rfl, rfl, by first | exact .inl rfl | exact .inr rfl⟩
      · cases hop
    | poll | enqueue | check | register | recheck | take | drop => cases haction
  obtain ⟨hdropped, hdone, hpoll⟩ := hsame
  refine ⟨h.reaches.tail trivial hop, hdropped.trans h.kept, fun w hw => ?_, fun hnone => ?_⟩
  · -- a failing poll goes on to its check with the waker it was given
    have hwaker := h.polled w hw
    rcases hpoll with hpoll | hpoll
    · exact hpoll ▸ hwaker
    · rw [hpoll]
      cases hp : op.poll <;> rw [hp] at hwaker <;> exact hwaker
  · obtain ⟨hidle, hnot⟩ := h.resting hnone
    refine ⟨?_, hdone.trans hnot⟩
    rcases hpoll with hpoll | hpoll
    · exact hpoll.trans hidle
    · rw [hpoll, hidle]
      rfl

/-- What a step of a poll leads to: the poll goes on, or the operation is pending with the waker
registered, or its value is taken. -/
inductive Polled (w : W) (op op' : Readiness W) : Option (Except Error Unit) → Prop
  | going (hheld : Held (some w) op') (hpoll : op'.poll ≠ .idle) : Polled w op op' none
  | pending (hheld : Held none op') (hpoll : op'.poll = .idle) (hcompleted : op'.completed = false)
      (hwaker : op'.waker = some w) : Polled w op op' none
  | ready {value : Except Error Unit} (hcompleted : op'.completed = true)
      (hdone : op'.done = true) : Polled w op op' (some value)

/-- The next step of a poll. -/
theorem Held.poll (h : Held (some w) op) (haction : Stream.ofPoll action = true)
    (hop : OwnedOp.step pollWork action op = .ok op') :
    Polled w op op' (if action = .take then op.result else none) := by
  have hwaker := h.polled w rfl
  obtain ⟨hlinked, hresults, hwaiting⟩ := OwnedOp.invariant_of_reachable h.reaches
  have hreaches := h.reaches.tail trivial hop
  -- The poll has not come to an end, and still has the waker it was given.
  have hgoing : op'.dropped = op.dropped → HasWaker w op'.poll →
      Polled w op op' none := by
    intro hdropped hw
    refine .going ⟨hreaches, hdropped.trans h.kept, ?_, (by rintro ⟨⟩)⟩ ?_
    · rintro w' ⟨⟩
      exact hw
    · intro hidle
      rw [hidle] at hw
      exact hw
  cases action with
  | enqueue running accepted =>
    simp only [OwnedOp.step] at hop
    split at hop
    · next v hpoll =>
      rw [hpoll] at hwaker
      split_ifs at hop
      · -- accepted, or rejected and failed by the poll itself
        cases hop
        exact hgoing rfl hwaker
      · cases hop
        exact hgoing rfl hwaker
    · cases hop
  | check =>
    simp only [OwnedOp.step] at hop
    split at hop
    · next v hpoll =>
      rw [hpoll] at hwaker
      split_ifs at hop
      · cases hop
        exact hgoing rfl trivial
      · cases hop
        exact hgoing rfl hwaker
    · cases hop
  | register =>
    simp only [OwnedOp.step] at hop
    split at hop
    · next v hpoll =>
      rw [hpoll] at hwaker
      cases hop
      exact hgoing rfl hwaker
    · cases hop
  | recheck =>
    simp only [OwnedOp.step] at hop
    split at hop
    · next v hpoll =>
      split_ifs at hop with hcompleted
      · cases hop
        exact hgoing rfl trivial
      · -- nothing has taken the waker, since the flag is not set
        have hnot : ∀ u, op.handler ≠ .published u := by
          intro u hu
          simp [hlinked.completed, hu, OwnedOp.HandlerPc.isCompleted] at hcompleted
        have hslot := hwaiting.registered hnot v hpoll
        have hdone := (hlinked.of_looking (by rw [hpoll]; rfl)).1
        rw [hpoll] at hwaker
        obtain rfl : v = w := hwaker
        cases hop
        exact .pending ⟨hreaches, h.kept, (by rintro _ ⟨⟩), fun _ => ⟨rfl, hdone⟩⟩ rfl
          (by simpa using hcompleted) hslot
    · cases hop
  | take =>
    simp only [OwnedOp.step] at hop
    split at hop
    · next value hpoll hresult =>
      obtain ⟨hcompleted, hdone⟩ := hlinked.of_taking hpoll
      cases hop
      rw [if_pos rfl, hresult]
      exact .ready hcompleted hdone
    · cases hop
    · cases hop
  | poll | store | setCompleted | takeWaker | drop => cases haction

/-- Steps of a poll and of a handler do not panic. -/
theorem Held.not_abort (h : Held polling op) {panic : OwnedOp.Panic}
    (haction : Stream.ofPoll action = true ∨ Stream.ofHandler action = true) :
    OwnedOp.step pollWork action op ≠ .error (.abort panic) := by
  intro hop
  obtain ⟨hlinked, hresults, -⟩ := OwnedOp.invariant_of_reachable h.reaches
  obtain ⟨rfl, -⟩ := OwnedOp.abort_cases hlinked hresults hop
  cases action with
  | poll | drop => rcases haction with haction | haction <;> cases haction
  | enqueue | store | setCompleted | takeWaker | check | register | recheck | take =>
    simp only [OwnedOp.step] at hop
    repeat' split at hop
    all_goals cases hop

/-- A lane holds one operation at most: all others that it has created have completed. -/
structure LaneSound (polling : Option W) (lane : ReadyLane W) : Prop where
  held : ∀ op, lane.operation = some op → Held polling op
  busy : ∀ w, polling = some w → lane.operation.isSome = true
  past : ∀ op ∈ lane.past, op.completed = true ∧ op.done = true
  created : lane.created = lane.past.length + lane.operation.toList.length

variable {lane : ReadyLane W} {polling' : Option W}

/-- An empty lane. -/
theorem LaneSound.new : LaneSound none (.new : ReadyLane W) where
  held op hop := by cases hop
  busy w hw := by cases hw
  past op hop := absurd hop List.not_mem_nil
  created := rfl

/-- A lane that is polled has an operation. -/
theorem LaneSound.opened (h : LaneSound none lane) :
    LaneSound none lane.opened ∧ ∃ op, lane.opened.operation = some op := by
  cases hop : lane.operation with
  | some op =>
    have hsame : lane.opened = lane := by rw [ReadyLane.opened, hop]
    rw [hsame]
    exact ⟨h, op, hop⟩
  | none =>
    have hopened : lane.opened =
        { lane with operation := some .init, created := lane.created + 1 } := by
      rw [ReadyLane.opened, hop]
    rw [hopened]
    refine ⟨⟨?_, nofun, h.past, ?_⟩, _, rfl⟩
    · rintro op ⟨⟩
      exact .new
    · have hcreated := h.created
      rw [hop] at hcreated
      exact congrArg Nat.succ hcreated

/-- The operation goes on. -/
theorem LaneSound.set (h : LaneSound polling lane) (hlane : lane.operation = some op)
    (hheld : Held polling' op') : LaneSound polling' { lane with operation := some op' } := by
  refine ⟨?_, fun _ _ => rfl, h.past, ?_⟩
  · rintro op ⟨⟩
    exact hheld
  · have hcreated := h.created
    rw [hlane] at hcreated
    exact hcreated

/-- The operation is let go when it has completed. -/
theorem LaneSound.letGo (h : LaneSound polling lane) (hlane : lane.operation = some op)
    (hcompleted : op'.completed = true) (hdone : op'.done = true) :
    LaneSound none { lane with operation := none, past := lane.past ++ [op'] } := by
  refine ⟨?_, nofun, fun q hq => ?_, ?_⟩
  · rintro op ⟨⟩
  · rcases List.mem_append.mp hq with hq | hq
    · exact h.past q hq
    · rw [List.mem_singleton.mp hq]
      exact ⟨hcompleted, hdone⟩
  · have hcreated := h.created
    rw [hlane] at hcreated
    rw [List.length_append]
    exact hcreated

end Held

/-! ## What a call has done -/

section Calls

variable {B W : Type} [ReadBuf B] {c c' : Call B W} {s : Syscall}

/-- The syscall failed so that it is made again, at once or when the socket is ready. -/
def Syscall.Retried (s : Syscall) : Prop := s.errno = some eintr ∨ s.errno = some eagain

/-- Nothing was transferred. -/
structure Call.Untouched (c : Call B W) : Prop where
  request : c.request = c.entry
  retried : ∀ s ∈ c.syscalls, s.Retried

/-- The last syscall would have blocked. -/
def Call.Blocked (c : Call B W) : Prop :=
  ∃ s, c.syscalls.getLast? = some s ∧ s.errno = some eagain

/-- A read into a buffer with room. -/
def Call.Room (c : Call B W) : Prop := ∀ buf, c.entry = .read buf → ReadBuf.remaining buf ≠ 0

/-- A read into a full buffer makes no syscall. -/
structure Call.Full (c : Call B W) : Prop where
  syscalls : c.syscalls = []
  request : c.request = c.entry
  remaining : ∃ buf, c.entry = .read buf ∧ ReadBuf.remaining buf = 0

/-- The last syscall is the only one that has received, and its bytes were appended. -/
structure Call.Received (c : Call B W) (chunk : List UInt8) : Prop where
  syscalls : ∃ prev, c.syscalls = prev ++ [.recv (.ok chunk)] ∧ ∀ s ∈ prev, s.Retried
  appended : ∃ buf buf', c.entry = .read buf ∧ c.request = .read buf' ∧
    0 < ReadBuf.remaining buf ∧ chunk.length ≤ ReadBuf.remaining buf ∧
    ReadBuf.filled buf' = ReadBuf.filled buf ++ chunk

/-- The last syscall is the only one that has sent. -/
structure Call.Sent (c : Call B W) (n : ℕ) : Prop where
  syscalls : ∃ prev, c.syscalls = prev ++ [.send (.ok n)] ∧ ∀ s ∈ prev, s.Retried
  request : ∃ data, c.entry = .write data ∧ c.request = .write data ∧ n ≤ data.length

/-- Where a call is, by what it has done. -/
def Call.Sound (c : Call B W) : Prop :=
  match c.pc with
  | .trying => c.Untouched ∧ c.Room
  | .entering | .polling | .returned .pending => c.Untouched ∧ c.Room ∧ c.Blocked
  | .returned .readOk => c.Full ∨ ∃ chunk, c.Received chunk
  | .returned (.written n) => c.Sent n
  | .returned (.failed _) => c.request = c.entry ∧ ∀ s ∈ c.syscalls, s.errno ≠ none

/-- A call that has transferred nothing goes to the top of the loop. -/
theorem Call.Untouched.top (h : c.Untouched) (hroom : c.Room) :
    Call.Sound { c with pc := c.request.top } := by
  have hpc : c.request.top = .trying := by
    cases hrequest : c.request with
    | write data => rfl
    | read buf => exact if_neg (hroom buf (h.request ▸ hrequest))
  rw [hpc]
  exact ⟨⟨h.request, h.retried⟩, hroom⟩

/-- A new call. -/
theorem Call.sound_new (request : Request B) (waker : W) :
    Call.Sound ⟨request, waker, request.top, request, []⟩ := by
  by_cases hfull : ∃ buf, request = .read buf ∧ ReadBuf.remaining buf = 0
  · have hpc : request.top = .returned .readOk := by
      obtain ⟨buf, rfl, hzero⟩ := hfull
      exact if_pos hzero
    rw [hpc]
    exact .inl ⟨rfl, rfl, hfull⟩
  · have hnew : Call.Untouched ⟨request, waker, request.top, request, []⟩ := ⟨rfl, nofun⟩
    exact hnew.top fun buf hbuf hzero => hfull ⟨buf, hbuf, hzero⟩

/-- A failed syscall is retried, or ends the call. -/
theorem Call.Untouched.retry {errno : ℕ} (h : c.Untouched) (hroom : c.Room)
    (hs : s.errno = some errno) :
    Call.Sound { c with pc := c.request.retry errno, syscalls := c.syscalls ++ [s] } := by
  have hsyscalls : s.Retried → ∀ s' ∈ c.syscalls ++ [s], s'.Retried := by
    intro hretried s' hs'
    rcases List.mem_append.mp hs' with hs' | hs'
    · exact h.retried s' hs'
    · exact List.mem_singleton.mp hs' ▸ hretried
  unfold Request.retry
  split_ifs with hintr hagain
  · have hnext : Call.Untouched { c with syscalls := c.syscalls ++ [s] } :=
      ⟨h.request, hsyscalls (.inl (hintr ▸ hs))⟩
    exact hnext.top hroom
  · refine ⟨h.request, fun s' hs' => ?_⟩
    rcases List.mem_append.mp hs' with hs' | hs'
    · rcases h.retried s' hs' with hs' | hs' <;> simp [hs']
    · simp [List.mem_singleton.mp hs', hs]
  · -- the socket is not ready, and the lane is polled next
    have heagain : s.errno = some eagain := by rw [hs, not_not.mp hagain]
    exact ⟨⟨h.request, hsyscalls (.inr heagain)⟩, hroom, s, List.getLast?_concat, heagain⟩

/-- One syscall. -/
theorem Call.Untouched.attempt [LawfulReadBuf B] (h : c.Untouched) (hroom : c.Room)
    (hattempt : c.attempt s = some c') : c'.Sound ∧ c'.direction = c.direction := by
  unfold Call.attempt at hattempt
  dsimp only at hattempt
  split at hattempt
  · next buf chunk hrequest =>
    split_ifs at hattempt with hfits
    cases hattempt
    have hentry : c.entry = .read buf := h.request ▸ hrequest
    refine ⟨.inr ⟨chunk, ⟨c.syscalls, rfl, h.retried⟩, buf, _, hentry, rfl,
      Nat.pos_of_ne_zero (hroom buf hentry), hfits, ReadBuf.filled_append hfits⟩, ?_⟩
    unfold Call.direction
    rw [hrequest]
    rfl
  · next data n hrequest =>
    split_ifs at hattempt with hfits
    cases hattempt
    exact ⟨⟨⟨c.syscalls, rfl, h.retried⟩, data, h.request ▸ hrequest, hrequest, hfits⟩, rfl⟩
  · cases hattempt
    exact ⟨h.retry hroom rfl, rfl⟩
  · cases hattempt
    exact ⟨h.retry hroom rfl, rfl⟩
  · cases hattempt
  · cases hattempt

end Calls

/-! ## Runs -/

section Runs

variable {B W : Type} {σ τ : Stream B W} {c c' : Call B W} {d : Direction}
  {request : Request B} {s : Syscall}

/-- Putting a lane back changes nothing. -/
theorem Stream.setLane_lane : σ.setLane d (σ.lane d) = σ := by
  cases d <;> rfl

/-- The waker of the call that polls the operation of a lane. -/
def Stream.polling (σ : Stream B W) (d : Direction) : Option W :=
  match σ.call with
  | some c => if c.pc = .polling ∧ c.direction = d then some c.waker else none
  | none => none

/-- The call that polls. -/
theorem Stream.polling_eq_some (hcall : σ.call = some c) (hpc : c.pc = .polling) :
    σ.polling c.direction = some c.waker := by
  rw [Stream.polling, hcall]
  exact if_pos ⟨hpc, rfl⟩

/-- No call polls. -/
theorem Stream.polling_eq_none
    (hcall : ∀ c, σ.call = some c → c.pc = .polling → c.direction ≠ d) : σ.polling d = none := by
  rw [Stream.polling]
  split
  · next c hc => exact if_neg fun h => hcall c hc h.1 h.2
  · rfl

/-- A call outside its poll leaves its own lane alone too. -/
theorem Stream.polling_eq_none_of (hcall : σ.call = some c) (hpc : c.pc ≠ .polling) :
    σ.polling d = none := by
  refine Stream.polling_eq_none fun c₀ hc₀ hpc₀ => ?_
  obtain rfl : c = c₀ := Option.some.inj (hcall.symm.trans hc₀)
  exact absurd hpc₀ hpc

variable [ReadBuf B]

/-- The call has polled its lane. -/
def CallPc.waiting : CallPc → Bool
  | .polling | .returned .pending => true
  | .trying | .entering | .returned .readOk | .returned (.written _)
  | .returned (.failed _) => false

/-- The top of the loop polls no lane. -/
theorem Request.top_waiting : request.top.waiting = false := by
  unfold Request.top
  split
  · split_ifs <;> rfl
  · rfl

/-- A syscall polls no lane. -/
theorem Call.attempt_waiting (h : c.attempt s = some c') : c'.pc.waiting = false := by
  have hretry : ∀ errno, (c.request.retry errno).waiting = false := by
    intro errno
    unfold Request.retry
    split_ifs
    · exact Request.top_waiting
    · rfl
    · rfl
  unfold Call.attempt at h
  dsimp only at h
  split at h
  · split_ifs at h
    cases h
    rfl
  · split_ifs at h
    cases h
    rfl
  · cases h
    exact hretry _
  · cases h
    exact hretry _
  · cases h
  · cases h

/-- A call that has not polled its lane is not polling it. -/
theorem CallPc.ne_polling {pc : CallPc} (h : pc.waiting = false) : pc ≠ .polling := by
  rintro rfl
  cases h

variable [DecidableEq W] {a : Stream.Action B W} {lane : ReadyLane W}

/-- The invariant: each lane by itself, and the call. -/
structure Stream.Sound (σ : Stream B W) : Prop where
  lanes : ∀ d, LaneSound (σ.polling d) (σ.lane d)
  call : ∀ c, σ.call = some c → c.Sound

namespace Stream

/-- A new stream. -/
theorem Sound.init : Sound (.init : Stream B W) := by
  refine ⟨fun d => ?_, ?_⟩
  · have hlane : (Stream.init : Stream B W).lane d = .new := by cases d <;> rfl
    have hpolling : (Stream.init : Stream B W).polling d = none := rfl
    rw [hlane, hpolling]
    exact .new
  · rintro c ⟨⟩

/-- The call goes on, and its lane with it. The other lane is not polled before or after. -/
theorem Sound.advance (h : σ.Sound) (hcall : σ.call = some c) (hdir : c'.direction = c.direction)
    (hlane : LaneSound (if c'.pc = .polling then some c'.waker else none) lane)
    (hsound : c'.Sound) : Sound ((σ.setLane c.direction lane).setCall c') := by
  refine ⟨fun d => ?_, ?_⟩
  · rw [lane_setCall]
    by_cases hd : d = c.direction
    · rw [hd, lane_setLane_self]
      have hpolling : ((σ.setLane c.direction lane).setCall c').polling c.direction =
          if c'.pc = .polling then some c'.waker else none := by
        simp only [polling, call_setCall, hdir, and_true]
      rw [hpolling]
      exact hlane
    · -- the call works on one lane from its start to its end
      have hbefore : σ.polling d = none := by
        refine polling_eq_none fun c₀ hc₀ _ => ?_
        obtain rfl : c = c₀ := Option.some.inj (hcall.symm.trans hc₀)
        exact Ne.symm hd
      have hafter : ((σ.setLane c.direction lane).setCall c').polling d = none := by
        refine polling_eq_none fun c₀ hc₀ _ => ?_
        obtain rfl : c' = c₀ := Option.some.inj hc₀
        exact hdir ▸ Ne.symm hd
      rw [lane_setLane_of_ne hd, hafter, ← hbefore]
      exact h.lanes d
  · rintro c₀ hc₀
    obtain rfl : c' = c₀ := Option.some.inj hc₀
    exact hsound

/-- Every step keeps the lanes and the call sound. -/
theorem Sound.move [LawfulReadBuf B] (h : σ.Sound) (hm : Move σ a τ) : τ.Sound := by
  cases hm with
  | @call request waker hcall =>
    refine ⟨fun d => ?_, ?_⟩
    · have hbefore : σ.polling d = none := by
        refine polling_eq_none fun c hc hpc => ?_
        have hreturned := hcall c hc
        rw [hpc] at hreturned
        cases hreturned
      have hafter : (σ.setCall ⟨request, waker, request.top, request, []⟩).polling d = none := by
        refine polling_eq_none fun c hc hpc => ?_
        obtain rfl := Option.some.inj hc
        exact absurd hpc (CallPc.ne_polling Request.top_waiting)
      rw [lane_setCall, hafter, ← hbefore]
      exact h.lanes d
    · rintro c hc
      obtain rfl := Option.some.inj hc
      exact Call.sound_new request waker
  | @syscall c c' s hcall hpc hattempt =>
    have hsound := h.call c hcall
    rw [Call.Sound, hpc] at hsound
    obtain ⟨hsound', hdir⟩ := hsound.1.attempt hsound.2 hattempt
    have hlane := h.lanes c.direction
    rw [polling_eq_none_of hcall (by simp [hpc])] at hlane
    rw [← setLane_lane (d := c.direction) (σ := σ)]
    refine h.advance hcall hdir ?_ hsound'
    rw [if_neg (CallPc.ne_polling (Call.attempt_waiting hattempt))]
    exact hlane
  | @enter c op hcall hpc hop =>
    have hsound := h.call c hcall
    rw [Call.Sound, hpc] at hsound
    have hlane := h.lanes c.direction
    rw [polling_eq_none_of hcall (by simp [hpc])] at hlane
    obtain ⟨hopened, op₀, hop₀⟩ := hlane.opened
    obtain ⟨op', hop', hheld⟩ := (hopened.held op₀ hop₀).enter c.waker
    rw [hop₀, Option.getD_some, hop', Except.ok.injEq] at hop
    subst hop
    refine h.advance hcall rfl ?_ ⟨⟨hsound.1.request, hsound.1.retried⟩, hsound.2⟩
    exact hopened.set hop₀ hheld
  | @poll c op op' action hcall hlane hpc haction hop =>
    have hsound := h.call c hcall
    rw [Call.Sound, hpc] at hsound
    obtain ⟨huntouched, hroom, hblocked⟩ := hsound
    have hsame : Call.Untouched { c with pc := .polling } :=
      ⟨huntouched.request, huntouched.retried⟩
    have hlanes := h.lanes c.direction
    rw [polling_eq_some hcall hpc] at hlanes
    -- the poll goes on, returns, or gives the value that sends the call back to its syscall
    have hpolled := (hlanes.held op hlane).poll haction hop
    revert hpolled
    generalize (if action = .take then op.result else none) = value
    intro hpolled
    cases hpolled with
    | going hheld hpoll =>
      rw [polled, if_neg hpoll]
      exact h.advance hcall rfl (hlanes.set hlane hheld) ⟨hsame, hroom, hblocked⟩
    | pending hheld hpoll =>
      rw [polled, if_pos hpoll]
      exact h.advance hcall rfl (hlanes.set hlane hheld)
        ⟨⟨huntouched.request, huntouched.retried⟩, hroom, hblocked⟩
    | @ready value hcompleted hdone =>
      have hgone := hlanes.letGo hlane hcompleted hdone
      cases value with
      | ok u =>
        refine h.advance hcall rfl ?_ (huntouched.top hroom)
        rw [if_neg (CallPc.ne_polling Request.top_waiting)]
        exact hgone
      | error e =>
        refine h.advance hcall rfl hgone ⟨huntouched.request, fun s hs => ?_⟩
        rcases huntouched.retried s hs with hs | hs <;> simp [hs]
  | @handler d op op' action hlane haction hop =>
    have hpolling : ∀ d', (σ.setLane d { σ.lane d with operation := some op' }).polling d' =
        σ.polling d' := by
      intro d'
      rw [polling, call_setLane]
      rfl
    refine ⟨fun d' => ?_, fun c hc => h.call c ?_⟩
    · rw [hpolling]
      by_cases hd : d' = d
      · rw [hd, lane_setLane_self]
        exact (h.lanes d).set hlane (((h.lanes d).held op hlane).handler haction hop)
      · rw [lane_setLane_of_ne hd]
        exact h.lanes d'
    · rwa [call_setLane] at hc

/-- The call that returns `Pending` has its waker in an operation that is not completed. -/
theorem Sound.pending (h : σ.Sound) (hm : Move σ a τ) (hcall : τ.call = some c)
    (hpc : c.pc = .returned .pending) (hnew : σ.call ≠ some c) :
    ∃ op, (τ.lane c.direction).operation = some op ∧ op.completed = false ∧
      op.waker = some c.waker := by
  -- of all steps only the last one of a poll leads there
  have hwaiting : c.pc.waiting = true := by
    rw [hpc]
    rfl
  cases hm with
  | call =>
    obtain rfl := Option.some.inj hcall
    rw [Request.top_waiting] at hwaiting
    cases hwaiting
  | syscall _ _ hattempt =>
    obtain rfl := Option.some.inj hcall
    rw [Call.attempt_waiting hattempt] at hwaiting
    cases hwaiting
  | enter =>
    obtain rfl := Option.some.inj hcall
    cases hpc
  | @poll c₀ op op' action hcall₀ hlane hpc₀ haction hop =>
    have hlanes := h.lanes c₀.direction
    rw [polling_eq_some hcall₀ hpc₀] at hlanes
    have hpolled := (hlanes.held op hlane).poll haction hop
    revert hpolled hcall
    generalize (if action = .take then op.result else none) = value
    intro hcall hpolled
    cases hpolled with
    | going hheld hpoll =>
      rw [polled, if_neg hpoll] at hcall
      obtain rfl := Option.some.inj hcall
      cases hpc
    | pending hheld hpoll hcompleted hwaker =>
      rw [polled, if_pos hpoll] at hcall ⊢
      obtain rfl := Option.some.inj hcall
      exact ⟨op', by rw [lane_setCall]; exact congrArg _ (lane_setLane_self _ _ _), hcompleted,
        hwaker⟩
    | @ready value hcompleted hdone =>
      obtain rfl := Option.some.inj hcall
      cases value with
      | ok u =>
        have htop : c₀.request.top.waiting = true := hwaiting
        rw [Request.top_waiting] at htop
        cases htop
      | error e => cases hpc
  | handler =>
    rw [call_setLane] at hcall
    exact absurd hcall hnew

/-- A lane is changed by calls of its own direction and by the handler of its operation only. -/
theorem Move.lane_eq (hm : Move σ a τ) (hhandler : ∀ b, a ≠ .handler d b)
    (hcall : ∀ c, τ.call = some c → c.direction ≠ d) : τ.lane d = σ.lane d := by
  cases hm with
  | call => exact lane_setCall _ _ _
  | syscall => exact lane_setCall _ _ _
  | enter =>
    have hne := hcall _ rfl
    rw [lane_setCall]
    exact lane_setLane_of_ne (Ne.symm hne)
  | @poll c op op' action =>
    revert hcall
    generalize (if action = .take then op.result else none) = value
    intro hcall
    cases value with
    | none =>
      have hne := hcall _ rfl
      exact (lane_setCall _ _ _).trans (lane_setLane_of_ne (Ne.symm hne))
    | some value =>
      have hne := hcall _ rfl
      exact (lane_setCall _ _ _).trans (lane_setLane_of_ne (Ne.symm hne))
  | @handler d' =>
    have hne : d ≠ d' := by
      rintro rfl
      exact hhandler _ rfl
    exact lane_setLane_of_ne hne

/-- No step panics. -/
theorem Sound.not_abort (h : σ.Sound) (a : Action B W) (panic : OwnedOp.Panic) :
    step a σ ≠ .error (.abort panic) := by
  intro habort
  cases a with
  | call request waker =>
    simp only [step] at habort
    split at habort <;> cases habort
  | syscall syscall =>
    simp only [step] at habort
    repeat' split at habort
    all_goals cases habort
  | enter =>
    simp only [step] at habort
    split at habort
    · cases habort
    · next c hcall =>
      split at habort
      · next hpc =>
        -- No call polls the lane before it is entered.
        have hlane := h.lanes c.direction
        rw [polling_eq_none_of hcall (by simp [hpc])] at hlane
        obtain ⟨hopened, op₀, hop₀⟩ := hlane.opened
        obtain ⟨op', hop', -⟩ := (hopened.held op₀ hop₀).enter c.waker
        rw [hop₀, Option.getD_some, hop'] at habort
        cases habort
      · cases habort
  | poll action =>
    simp only [step] at habort
    split at habort
    · cases habort
    · next c hcall =>
      split at habort
      · cases habort
      · next op hlane =>
        split at habort
        · next hpc =>
          split at habort
          · next e hop =>
            cases habort
            exact ((h.lanes c.direction).held op hlane).not_abort (.inl hpc.2) hop
          · cases habort
        · cases habort
  | handler d action =>
    simp only [step] at habort
    split at habort
    · cases habort
    · next op hlane =>
      split at habort
      · next haction =>
        split at habort
        · next e hop =>
          cases habort
          exact ((h.lanes d).held op hlane).not_abort (.inr haction) hop
        · cases habort
      · cases habort

end Stream

/-- The invariant of every run. -/
theorem Stream.sound_of_reachable [LawfulReadBuf B]
    (h : Lts.Reaches Stream.step Lts.Always .init σ) : σ.Sound :=
  h.invariant .init fun _ _ _ hs _ hstep => hs.move (.of_step hstep)

/-- Borrowed I/O transfers as its syscalls do, and waits as its lanes do. A call that returns
`Pending` has seen a syscall that would block, has transferred nothing, and leaves its waker in the
operation of its lane, which is not completed. A read that returns `Ok` has appended the bytes of
the one `recv` that received some, or was given a full buffer. All operations that a lane has
created have completed except the one it holds, and neither direction changes the lane of the
other. -/
theorem lanes_transparent [LawfulReadBuf B] (σ : Stream B W)
    (h : Lts.Reaches Stream.step Lts.Always .init σ) :
    (∀ a panic, Stream.step a σ ≠ .error (.abort panic)) ∧
    (∀ a τ c, Stream.step a σ = .ok τ → τ.call = some c → c.pc = .returned .pending →
      σ.call ≠ some c → ∃ op, (τ.lane c.direction).operation = some op ∧ op.completed = false ∧
        op.waker = some c.waker) ∧
    (∀ c, σ.call = some c → c.pc = .returned .pending → c.Blocked ∧ c.Untouched) ∧
    (∀ c, σ.call = some c → c.pc = .returned .readOk → c.Full ∨ ∃ chunk, c.Received chunk) ∧
    (∀ c n, σ.call = some c → c.pc = .returned (.written n) → c.Sent n) ∧
    (∀ c error, σ.call = some c → c.pc = .returned (.failed error) →
      c.request = c.entry ∧ ∀ s ∈ c.syscalls, s.errno ≠ none) ∧
    (∀ d, (σ.lane d).created = (σ.lane d).past.length + (σ.lane d).operation.toList.length ∧
      ∀ op ∈ (σ.lane d).past, op.completed = true) ∧
    (∀ a τ d, Stream.step a σ = .ok τ → (∀ b, a ≠ .handler d b) →
      (∀ c, τ.call = some c → c.direction ≠ d) → τ.lane d = σ.lane d) := by
  -- Each clause is a field of the invariant, read off at the call in question.
  have hsound := Stream.sound_of_reachable h
  have hcalls : ∀ c pc, σ.call = some c → c.pc = pc → Call.Sound { c with pc := pc } := by
    rintro c pc hcall rfl
    exact hsound.call c hcall
  refine ⟨hsound.not_abort, fun a τ c hstep hcall hpc hnew => ?_, fun c hcall hpc => ?_,
    fun c hcall hpc => ?_, fun c n hcall hpc => ?_, fun c error hcall hpc => ?_, fun d => ?_,
    fun a τ d hstep hhandler hcall => ?_⟩
  · exact hsound.pending (.of_step hstep) hcall hpc hnew
  · obtain ⟨huntouched, -, hblocked⟩ := hcalls c _ hcall hpc
    exact ⟨hblocked, huntouched.request, huntouched.retried⟩
  · rcases hcalls c _ hcall hpc with hfull | ⟨chunk, hreceived⟩
    · exact .inl ⟨hfull.syscalls, hfull.request, hfull.remaining⟩
    · exact .inr ⟨chunk, hreceived.syscalls, hreceived.appended⟩
  · have hsent := hcalls c _ hcall hpc
    exact ⟨hsent.syscalls, hsent.request⟩
  · exact hcalls c _ hcall hpc
  · exact ⟨(hsound.lanes d).created, fun op hop => ((hsound.lanes d).past op hop).1⟩
  · exact (Stream.Move.of_step hstep).lane_eq hhandler hcall

end Runs

/-! ## A concrete buffer -/

/-- A `ReadBuf` over an allocation. -/
structure SliceBuf where
  filled : List UInt8
  unfilled : Memory
  initialized : ℕ
  deriving DecidableEq, Repr

instance : ReadBuf SliceBuf where
  filled := SliceBuf.filled
  unfilled := SliceBuf.unfilled
  initialized := SliceBuf.initialized
  fill buf chunk := { buf with unfilled := buf.unfilled.write 0 chunk }
  assumeInit buf n := { buf with initialized := max buf.initialized n }
  advance buf n :=
    ⟨buf.filled ++ (buf.unfilled.take n).map (·.getD 0), buf.unfilled.drop n, buf.initialized - n⟩

instance : LawfulReadBuf SliceBuf where
  fill_spec _ _ _ := ⟨rfl, rfl⟩
  assumeInit_spec _ _ _ _ := ⟨rfl, rfl, Nat.le_max_right _ _⟩
  advance_spec buf n _ hinit := by
    change (buf.filled ++ (buf.unfilled.take n).map (·.getD 0)).map some =
      buf.filled.map some ++ buf.unfilled.take n
    rw [List.map_append, List.map_map]
    refine congrArg _ ((List.map_congr_left fun x hx => ?_).trans (List.map_id _))
    obtain ⟨y, rfl⟩ := Option.isSome_iff_exists.mp (hinit x hx)
    rfl

/-- A read into a full buffer returns `Ok` without a `recv`. -/
theorem lanes_full :
    ¬∀ σ : Stream SliceBuf ℕ, Lts.Reaches Stream.step Lts.Always .init σ →
      ∀ c, σ.call = some c → c.pc = .returned .readOk → ∃ chunk, c.Received chunk := by
  intro hall
  have hrun : Lts.Reaches Stream.step Lts.Always (.init : Stream SliceBuf ℕ) _ :=
    .tail (a := .call (.read ⟨[1], [], 0⟩) 7) .refl trivial rfl
  obtain ⟨chunk, ⟨prev, hprev, -⟩, -⟩ := hall _ hrun _ rfl rfl
  cases prev <;> cases hprev

/-- A read of which the `recv` would block, up to the point where it returns. -/
def waits : List (Stream.Action SliceBuf ℕ) :=
  [.call (.read ⟨[], [none], 0⟩) 7, .syscall (.recv (.error eagain)), .enter,
    .poll (.enqueue true true), .poll .check, .poll .register, .poll .recheck]

/-- A read that has to wait returns `Pending`, and its buffer is as it was. -/
theorem lanes_transparent_waits : ∃ (σ : Stream SliceBuf ℕ) (c : Call SliceBuf ℕ),
    Lts.Reaches Stream.step Lts.Always .init σ ∧ σ.call = some c ∧
      c.pc = .returned .pending ∧ c.Blocked ∧ c.Untouched := by
  have hrun : (Lts.exec Stream.step Lts.Always waits .init).any (fun σ : Stream SliceBuf ℕ =>
      σ.call.any fun c => c.pc = .returned .pending) = true := by decide
  obtain ⟨σ, hσ, hcall⟩ := (Option.any_eq_true _ _).mp hrun
  obtain ⟨c, hc, hpc⟩ := (Option.any_eq_true _ _).mp hcall
  have hreaches := Lts.reaches_of_exec hσ
  have hpending := of_decide_eq_true hpc
  exact ⟨σ, c, hreaches, hc, hpending, (lanes_transparent σ hreaches).2.2.1 c hc hpending⟩

end Nosv.Io
