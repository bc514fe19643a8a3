import Nosv.IoUring.Submission

/-!
# The driver-data lock

The bodies of the driver's functions under the `data` mutex: one iteration of each staging loop,
`submit_staged`, the data half of `request_cancel`, `request_owned_cancel`, the two dispatchers,
`decide` and `notify`. A loop of the source is its body here; `Machine` iterates it, because other
threads take submission locks between two iterations.

* `stageCancellation_cases`, `stageOwnedCancellation_cases`, `stageOwned_cases`,
  `stageOriginal_staged`, `acceptStaged_cases`: what one iteration of a loop does;
* `dispatch_cases`: which of the four kinds of CQE was dispatched, and to what effect.
-/

namespace Nosv.IoUring

/-- The heap of submission states. -/
abbrev Submissions := SubId → SubmissionState

/-- Replaces what the mutex of submission `s` protects. -/
def Submissions.set (subs : Submissions) (s : SubId) (st : SubmissionInner) : Submissions :=
  Function.update subs s { subs s with inner := st }

@[simp]
theorem Submissions.set_inner (subs : Submissions) (s t : SubId) (st : SubmissionInner) :
    (subs.set s st t).inner = if t = s then st else (subs t).inner := by
  unfold Submissions.set
  rw [Function.update_apply]
  split_ifs <;> rfl

@[simp]
theorem Submissions.set_limit (subs : Submissions) (s t : SubId) (st : SubmissionInner) :
    (subs.set s st t).limit = (subs t).limit := by
  unfold Submissions.set
  rw [Function.update_apply]
  split_ifs with h
  · rw [h]
  · rfl

theorem Submissions.set_of_ne (subs : Submissions) {s t : SubId} (st : SubmissionInner)
    (h : t ≠ s) : subs.set s st t = subs t :=
  Function.update_of_ne h _ _

@[simp]
theorem Submissions.set_same (subs : Submissions) (s : SubId) :
    subs.set s (subs s).inner = subs :=
  Function.update_eq_self s subs

/-- Whether a pointer collides with any live CQE allocation. -/
def contextPointerInUse (d : DriverData) (p : Pointer) : Bool :=
  (d.contexts.lookup p).isSome || (d.ownedContexts.lookup p).isSome ||
    (d.ownedCancelContexts.lookup p).isSome

/-- An address the allocator may return for a new box. -/
def DriverData.Fresh (d : DriverData) (p : Pointer) : Prop :=
  p ≠ 0 ∧ contextPointerInUse d p = false

instance (d : DriverData) (p : Pointer) : Decidable (d.Fresh p) :=
  inferInstanceAs (Decidable (_ ∧ _))

/-- No family of contexts has an entry at a fresh address. -/
theorem DriverData.Fresh.lookup {d : DriverData} {p : Pointer} (h : d.Fresh p) :
    d.contexts.lookup p = none ∧ d.ownedContexts.lookup p = none ∧
      d.ownedCancelContexts.lookup p = none := by
  have := h.2
  simp only [contextPointerInUse, Bool.or_eq_false_iff, Option.isSome_eq_false_iff,
    Option.isNone_iff_eq_none] at this
  exact ⟨this.1.1, this.1.2, this.2⟩

/-- `sq.push` succeeds while a slot is free and appends the entry. -/
theorem Ring.push_eq_some {r r' : Ring} {e : Sqe} :
    r.push e = some r' ↔ r.sq.length < r.entries ∧ r' = { r with sq := r.sq ++ [e] } := by
  unfold Ring.push
  split_ifs with h <;> simp [h, eq_comm]

/-- `sq.push` fails only on a full queue. -/
theorem Ring.push_eq_none {r : Ring} {e : Sqe} (h : r.push e = none) :
    r.entries ≤ r.sq.length := by
  unfold Ring.push at h
  split_ifs at h with hlt
  exact Nat.le_of_not_lt hlt

/-! ## Staging -/

/-- One iteration of `stage_cancellations`; the flag says whether the loop goes on. The popped
command returns to the front of the queue when the SQ is full. -/
def stageCancellation (p : Pointer) (d : DriverData) (r : Ring) :
    Checked (Bool × DriverData × Ring) :=
  match d.cancelQueue with
  | [] => .ok (false, d, r)
  | command :: rest =>
    let boxed : CqeContext :=
      { kind := .cancel, phase := .staged, index := command.index
        originalUserData := command.originalUserData, state := command.state
        target := some command.target, cancelQueued := false, cancelSeen := false }
    -- Raw contexts only: the tables of owned operations are not looked at here.
    if (d.contexts.lookup p).isSome then .error .reusedLiveCancelPointer
    else
      let entry := (Sqe.mk (.asyncCancel command.target) 0).setUserData p
      match r.push entry with
      | none => .ok (false, { d with cancelQueue := command :: rest }, r)
      | some r =>
        .ok (true,
          { d with
            cancelQueue := rest
            contexts := d.contexts.insert p boxed
            staged := d.staged ++ [.raw p] }, r)

/-- The context `stage_cancellations` boxes for a command. -/
def CancelCommand.boxed (c : CancelCommand) : CqeContext :=
  { kind := .cancel, phase := .staged, index := c.index, originalUserData := c.originalUserData
    state := c.state, target := some c.target, cancelQueued := false, cancelSeen := false }

/-- An iteration of `stage_cancellations` changes nothing, or turns the first command into an SQE
with a context of its own. -/
theorem stageCancellation_cases {p : Pointer} {d : DriverData} {r : Ring}
    {y : Bool × DriverData × Ring} (h : stageCancellation p d r = .ok y) :
    y = (false, d, r) ∨
      ∃ command rest, d.cancelQueue = command :: rest ∧ r.sq.length < r.entries ∧
        y = (true,
          { d with
            cancelQueue := rest
            contexts := d.contexts.insert p command.boxed
            staged := d.staged ++ [.raw p] },
          { r with sq := r.sq ++ [⟨.asyncCancel command.target, p⟩] }) := by
  unfold stageCancellation at h
  split at h
  next hq =>
    cases h
    exact .inl rfl
  next command rest hq =>
    dsimp only at h
    split at h
    -- The address has to be fresh.
    next => cases h
    next =>
      split at h
      next hpush =>
        cases h
        exact .inl (by rw [← hq])
      next r' hpush =>
        cases h
        obtain ⟨hlt, rfl⟩ := Ring.push_eq_some.mp hpush
        exact .inr ⟨command, rest, hq, hlt, rfl⟩

/-- At a fresh address the iteration does not abort. -/
theorem stageCancellation_ok {p : Pointer} {d : DriverData} (r : Ring) (hp : d.Fresh p) :
    ∃ y, stageCancellation p d r = .ok y := by
  unfold stageCancellation
  split
  · exact ⟨_, rfl⟩
  · simp only [hp.lookup.1, Option.isSome_none, Bool.false_eq_true, if_false]
    split <;> exact ⟨_, rfl⟩

/-- One iteration of `stage_owned_cancellations`; the flag says whether the loop goes on. -/
def stageOwnedCancellation (p : Pointer) (d : DriverData) (r : Ring) :
    Checked (Bool × DriverData × Ring) :=
  match d.ownedCancelQueue with
  | [] => .ok (false, d, r)
  | command :: rest =>
    let boxed : OwnedCancelContext := { phase := .staged, target := command.target }
    -- All three tables, unlike the raw path.
    if contextPointerInUse d p then .error .reusedLiveOwnedCancelPointer
    else
      let entry := (Sqe.mk (.asyncCancel command.target) 0).setUserData p
      match r.push entry with
      | none => .ok (false, { d with ownedCancelQueue := command :: rest }, r)
      | some r =>
        .ok (true,
          { d with
            ownedCancelQueue := rest
            ownedCancelContexts := d.ownedCancelContexts.insert p boxed
            staged := d.staged ++ [.ownedCancel p] }, r)

/-- An iteration of `stage_owned_cancellations` changes nothing, or turns the first command into
an SQE with a context of its own. -/
theorem stageOwnedCancellation_cases {p : Pointer} {d : DriverData} {r : Ring}
    {y : Bool × DriverData × Ring} (h : stageOwnedCancellation p d r = .ok y) :
    y = (false, d, r) ∨
      ∃ command rest, d.ownedCancelQueue = command :: rest ∧ r.sq.length < r.entries ∧
        y = (true,
          { d with
            ownedCancelQueue := rest
            ownedCancelContexts := d.ownedCancelContexts.insert p ⟨.staged, command.target⟩
            staged := d.staged ++ [.ownedCancel p] },
          { r with sq := r.sq ++ [⟨.asyncCancel command.target, p⟩] }) := by
  unfold stageOwnedCancellation at h
  split at h
  next hq =>
    cases h
    exact .inl rfl
  next command rest hq =>
    dsimp only at h
    split at h
    next => cases h
    next =>
      split at h
      next hpush =>
        cases h
        exact .inl (by rw [← hq])
      next r' hpush =>
        cases h
        obtain ⟨hlt, rfl⟩ := Ring.push_eq_some.mp hpush
        exact .inr ⟨command, rest, hq, hlt, rfl⟩

/-- At a fresh address the iteration does not abort. -/
theorem stageOwnedCancellation_ok {p : Pointer} {d : DriverData} (r : Ring) (hp : d.Fresh p) :
    ∃ y, stageOwnedCancellation p d r = .ok y := by
  unfold stageOwnedCancellation
  split
  · exact ⟨_, rfl⟩
  · simp only [hp.2, Bool.false_eq_true, if_false]
    split <;> exact ⟨_, rfl⟩

/-- A handler that was discarded before submission, and why. -/
abbrev Failed := OwnedHandler × OwnedFailure

/-- What `stage_owned` works on: the driver data, the producer queue, the ring, and the failures
collected so far. -/
structure OwnedStaging where
  data : DriverData
  queue : List QueuedOwnedOp
  ring : Ring
  failed : List Failed

/-- `owned_pending.pop_front().or_else(|| queue.pop())`. -/
def popOwned (x : OwnedStaging) : Option (QueuedOwnedOp × OwnedStaging) :=
  -- Records that did not fit before come first.
  match x.data.ownedPending, x.queue with
  | op :: rest, _ => some (op, { x with data := { x.data with ownedPending := rest } })
  | [], op :: rest => some (op, { x with queue := rest })
  | [], [] => none

/-- One iteration of `stage_owned`; the flag says whether the loop goes on. -/
def stageOwned (supported : ℕ → Bool) (cancelled : ControlId → Bool) (p : Pointer)
    (x : OwnedStaging) : Checked (Bool × OwnedStaging) :=
  match popOwned x with
  | none => .ok (false, x)
  | some (op, x) =>
    -- Shutdown, a dropped future and an unsupported opcode are found before an SQE exists.
    if x.data.shutdown then .ok (true, { x with failed := x.failed ++ [(op.handler, .closed)] })
    else if cancelled op.control then
      .ok (true, { x with failed := x.failed ++ [(op.handler, .cancelled)] })
    else if !supported op.handler.opcode then
      .ok (true, { x with failed := x.failed ++ [(op.handler, .unsupported)] })
    else
      let context : OwnedCqeContext :=
        { phase := .staged, control := op.control, handler := some op.handler
          cancelQueued := false, cancelSeen := false }
      if contextPointerInUse x.data p then .error .reusedLiveOwnedPointer
      else
        let entry := (Sqe.mk (.owned op.handler.opcode) 0).setUserData p
        match x.ring.push entry with
        | none =>
          -- The record goes back to the front, so the order of arrival is kept.
          .ok (false,
            { x with
              data :=
                { x.data with
                  ownedPending := ⟨context.control, op.handler⟩ :: x.data.ownedPending } })
        | some r =>
          .ok (true,
            { x with
              ring := r
              data :=
                { x.data with
                  ownedContexts := x.data.ownedContexts.insert p context
                  staged := x.data.staged ++ [.owned p] } })

/-- The context `stage_owned` boxes for a record. -/
def QueuedOwnedOp.boxed (op : QueuedOwnedOp) : OwnedCqeContext :=
  { phase := .staged, control := op.control, handler := some op.handler, cancelQueued := false
    cancelSeen := false }

/-- An iteration of `stage_owned` finds nothing; or discards the record it popped; or puts it at
the front of `owned_pending`; or turns it into an SQE with a context of its own. -/
theorem stageOwned_cases {supported : ℕ → Bool} {cancelled : ControlId → Bool} {p : Pointer}
    {x : OwnedStaging} {y : Bool × OwnedStaging}
    (h : stageOwned supported cancelled p x = .ok y) :
    (popOwned x = none ∧ y = (false, x)) ∨
      ∃ op x', popOwned x = some (op, x') ∧
        ((∃ reason, y = (true, { x' with failed := x'.failed ++ [(op.handler, reason)] })) ∨
          y = (false,
            { x' with data := { x'.data with ownedPending := op :: x'.data.ownedPending } }) ∨
          ((x'.data.shutdown = false ∧ cancelled op.control = false) ∧
            x'.ring.sq.length < x'.ring.entries ∧
            y = (true,
              { x' with
                ring := { x'.ring with sq := x'.ring.sq ++ [⟨.owned op.handler.opcode, p⟩] }
                data :=
                  { x'.data with
                    ownedContexts := x'.data.ownedContexts.insert p op.boxed
                    staged := x'.data.staged ++ [.owned p] } }))) := by
  unfold stageOwned at h
  split at h
  next hpop =>
    cases h
    exact .inl ⟨hpop, rfl⟩
  next op x' hpop =>
    refine .inr ⟨op, x', hpop, ?_⟩
    -- Shutdown, the cancelled flag and the opcode are checked before the push, in this order.
    split_ifs at h with h1 h2 h3
    · cases h
      exact .inl ⟨_, rfl⟩
    · cases h
      exact .inl ⟨_, rfl⟩
    · cases h
      exact .inl ⟨_, rfl⟩
    · dsimp only at h
      split at h
      -- No slot: the record waits in `owned_pending` for the next pass.
      next =>
        cases h
        exact .inr (.inl rfl)
      next r' hpush =>
        cases h
        obtain ⟨hlt, rfl⟩ := Ring.push_eq_some.mp hpush
        exact .inr (.inr ⟨⟨by simpa using h1, by simpa using h2⟩, hlt, rfl⟩)

/-- A record whose future was dropped is discarded: nothing reaches the SQ. -/
theorem stageOwned_cancelled {supported : ℕ → Bool} {cancelled : ControlId → Bool} {p : Pointer}
    {x x' : OwnedStaging} {op : QueuedOwnedOp} (hpop : popOwned x = some (op, x'))
    (hcancelled : cancelled op.control = true) :
    ∃ reason, stageOwned supported cancelled p x =
      .ok (true, { x' with failed := x'.failed ++ [(op.handler, reason)] }) := by
  unfold stageOwned
  rw [hpop]
  simp only [hcancelled, if_true]
  split
  · exact ⟨_, rfl⟩
  · exact ⟨_, rfl⟩

/-- The record comes from the front of `owned_pending`, or of the producer queue when that is
empty. -/
theorem popOwned_cases {x x' : OwnedStaging} {op : QueuedOwnedOp}
    (h : popOwned x = some (op, x')) :
    (∃ rest, x.data.ownedPending = op :: rest ∧
      x' = { x with data := { x.data with ownedPending := rest } }) ∨
    (∃ rest, x.data.ownedPending = [] ∧ x.queue = op :: rest ∧ x' = { x with queue := rest }) := by
  unfold popOwned at h
  split at h
  next rest hp => cases h; exact .inl ⟨rest, hp, rfl⟩
  next rest hp hq => cases h; exact .inr ⟨rest, hp, hq, rfl⟩
  next => cases h

/-- Staging owned operations leaves the driver's flags alone. -/
theorem stageOwned_flags {supported : ℕ → Bool} {cancelled : ControlId → Bool} {p : Pointer}
    {x : OwnedStaging} {y : Bool × OwnedStaging}
    (h : stageOwned supported cancelled p x = .ok y) :
    y.2.data.accepting = x.data.accepting ∧ y.2.data.shutdown = x.data.shutdown := by
  have hpop : ∀ op x', popOwned x = some (op, x') →
      x'.data.accepting = x.data.accepting ∧ x'.data.shutdown = x.data.shutdown := by
    intro op x' hx
    rcases popOwned_cases hx with ⟨_, _, rfl⟩ | ⟨_, _, _, rfl⟩ <;> exact ⟨rfl, rfl⟩
  rcases stageOwned_cases h with ⟨_, rfl⟩ | ⟨op, x', hx, ⟨_, rfl⟩ | rfl | ⟨_, _, rfl⟩⟩
  · exact ⟨rfl, rfl⟩
  all_goals exact hpop op x' hx

/-- At a fresh address the iteration does not abort. -/
theorem stageOwned_ok {supported : ℕ → Bool} {cancelled : ControlId → Bool} {p : Pointer}
    {x : OwnedStaging} (hp : x.data.Fresh p) :
    ∃ y, stageOwned supported cancelled p x = .ok y := by
  unfold stageOwned
  split
  next => exact ⟨_, rfl⟩
  next op x' hpop =>
    have hp' : contextPointerInUse x'.data p = false := by
      rcases popOwned_cases hpop with ⟨_, _, rfl⟩ | ⟨_, _, _, rfl⟩ <;> exact hp.2
    simp only [hp', Bool.false_eq_true, if_false]
    split_ifs
    · exact ⟨_, rfl⟩
    · exact ⟨_, rfl⟩
    · exact ⟨_, rfl⟩
    · split <;> exact ⟨_, rfl⟩

/-- The part of `admit`'s loop after the item is in hand: box a context, redirect the entry's
`user_data` to it and push. `none` means the SQ was full, and the item is handed back with the
caller's `user_data` restored. -/
def stageOriginal (s : SubId) (p : Pointer) (index : ℕ) (entry : Sqe) (d : DriverData) (r : Ring)
    (subs : Submissions) :
    Checked ((ℕ × Sqe) ⊕ (DriverData × Ring × Submissions)) :=
  let originalUserData := entry.userData
  let boxed : CqeContext :=
    { kind := .original, phase := .staged, index := index, originalUserData := originalUserData
      state := s, target := none, cancelQueued := false, cancelSeen := false }
  if (d.contexts.lookup p).isSome then .error .allocatorReusedLivePointer
  else
    -- The caller's `user_data` is kept in the context, the kernel sees the address.
    let entry := entry.setUserData p
    match r.push entry with
    | none => .ok (.inl (index, entry.setUserData originalUserData))
    | some r =>
      let st := (subs s).inner
      .ok (.inr
        ({ d with contexts := d.contexts.insert p boxed, staged := d.staged ++ [.raw p] }, r,
          subs.set s { st with originals := st.originals + 1 }))

/-- The context `admit` boxes for item `index` of submission `s`. -/
def Sqe.boxed (e : Sqe) (s : SubId) (index : ℕ) : CqeContext :=
  { kind := .original, phase := .staged, index := index, originalUserData := e.userData
    state := s, target := none, cancelQueued := false, cancelSeen := false }

/-- A refused push hands the very item back. -/
theorem stageOriginal_full {s : SubId} {p : Pointer} {index : ℕ} {entry : Sqe} {d : DriverData}
    {r : Ring} {subs : Submissions} {item : ℕ × Sqe}
    (h : stageOriginal s p index entry d r subs = .ok (.inl item)) : item = (index, entry) := by
  unfold stageOriginal at h
  dsimp only at h
  split at h
  next => cases h
  next =>
    split at h
    next =>
      cases h
      rfl
    next => cases h

/-- A push is refused only when the SQ is full. -/
theorem stageOriginal_full_length {s : SubId} {p : Pointer} {index : ℕ} {entry : Sqe}
    {d : DriverData} {r : Ring} {subs : Submissions} {item : ℕ × Sqe}
    (h : stageOriginal s p index entry d r subs = .ok (.inl item)) : r.entries ≤ r.sq.length := by
  by_contra hlt
  unfold stageOriginal at h
  simp only [Ring.push, Nat.lt_of_not_le hlt, if_true] at h
  split at h <;> cases h

/-- A push that succeeds stages the item under a context that remembers its `user_data`. -/
theorem stageOriginal_staged {s : SubId} {p : Pointer} {index : ℕ} {entry : Sqe} {d : DriverData}
    {r : Ring} {subs : Submissions} {y : DriverData × Ring × Submissions}
    (h : stageOriginal s p index entry d r subs = .ok (.inr y)) :
    r.sq.length < r.entries ∧
      y = ({ d with
              contexts := d.contexts.insert p (entry.boxed s index)
              staged := d.staged ++ [.raw p] },
        { r with sq := r.sq ++ [⟨entry.body, p⟩] },
        subs.set s { (subs s).inner with originals := (subs s).inner.originals + 1 }) := by
  unfold stageOriginal at h
  dsimp only at h
  split at h
  next => cases h
  next =>
    split at h
    next => cases h
    next r' hpush =>
      cases h
      obtain ⟨hlt, rfl⟩ := Ring.push_eq_some.mp hpush
      exact ⟨hlt, rfl⟩

/-- At a fresh address the iteration does not abort. -/
theorem stageOriginal_ok {s : SubId} {p : Pointer} {index : ℕ} {entry : Sqe} {d : DriverData}
    (r : Ring) (subs : Submissions) (hp : d.Fresh p) :
    ∃ y, stageOriginal s p index entry d r subs = .ok y := by
  unfold stageOriginal
  simp only [hp.lookup.1, Option.isSome_none, Bool.false_eq_true, if_false]
  split <;> exact ⟨_, rfl⟩

/-! ## Submission -/

/-- Outcome of `ring.submit()`: the number of SQEs the kernel consumed, or an errno. -/
inductive SubmitResult where
  | ok (count : ℕ)
  | error (errno : ℕ)
  deriving DecidableEq, Repr

/-- Transient ring-submission errors: `EINTR`, `EAGAIN` and `EBUSY`. -/
def isRetryable (errno : ℕ) : Bool := errno = 4 || errno = 11 || errno = 16

/-- The submission-lock section of accepting an original SQE. -/
def acceptOriginal (x : Waking) : Waking :=
  takeAdmission ({ x.1 with accepted := x.1.accepted + 1 }, x.2)

/-- One iteration of the loop of `submit_staged` over the accepted prefix. The SQE the kernel
consumed leaves the SQ here: nobody reads the CQ before the ring lock is released. -/
def acceptStaged (d : DriverData) (r : Ring) (subs : Submissions) :
    Checked (DriverData × Ring × Submissions × List Waker) :=
  -- The kernel consumes SQEs in the order in which they were pushed.
  let r := { r with sq := r.sq.tail, inflight := r.inflight ++ r.sq.head?.toList }
  match d.staged with
  | [] => .error .kernelAcceptedUnstaged
  | .raw p :: rest =>
    match d.contexts.lookup p with
    | none => .error .stagedRawDisappeared
    | some context =>
      if context.phase ≠ .staged then .error .rawSubmittedTwice
      else
        let d :=
          { d with
            staged := rest, contexts := d.contexts.insert p { context with phase := .submitted } }
        -- Only originals count as accepted, a cancellation has nobody waiting for its admission.
        if context.kind = .original then
          let x := acceptOriginal ((subs context.state).inner, [])
          .ok (d, r, subs.set context.state x.1, x.2)
        else .ok (d, r, subs, [])
  | .owned p :: rest =>
    match d.ownedContexts.lookup p with
    | none => .error .stagedOwnedDisappeared
    | some context =>
      if context.phase ≠ .staged then .error .ownedSubmittedTwice
      else
        .ok
          ({ d with
              staged := rest
              ownedContexts := d.ownedContexts.insert p { context with phase := .submitted } },
            r, subs, [])
  | .ownedCancel p :: rest =>
    match d.ownedCancelContexts.lookup p with
    | none => .error .stagedOwnedCancelDisappeared
    | some context =>
      if context.phase ≠ .staged then .error .ownedCancelSubmittedTwice
      else
        .ok
          ({ d with
              staged := rest
              ownedCancelContexts :=
                d.ownedCancelContexts.insert p { context with phase := .submitted } },
            r, subs, [])

/-- The ring after the kernel consumed the head of the SQ. -/
def Ring.consume (r : Ring) : Ring :=
  { r with sq := r.sq.tail, inflight := r.inflight ++ r.sq.head?.toList }

/-- Accepting the head of `staged` marks its context submitted; an original is counted and wakes
its admission future. -/
theorem acceptStaged_cases {d : DriverData} {r : Ring} {subs : Submissions}
    {y : DriverData × Ring × Submissions × List Waker} (h : acceptStaged d r subs = .ok y) :
    (∃ p rest c, d.staged = .raw p :: rest ∧ d.contexts.lookup p = some c ∧ c.phase = .staged ∧
      y = ({ d with
              staged := rest
              contexts := d.contexts.insert p { c with phase := .submitted } }, r.consume,
        if c.kind = .original then subs.set c.state (acceptOriginal ((subs c.state).inner, [])).1
          else subs,
        if c.kind = .original then (acceptOriginal ((subs c.state).inner, [])).2 else [])) ∨
    (∃ p rest c, d.staged = .owned p :: rest ∧ d.ownedContexts.lookup p = some c ∧
      c.phase = .staged ∧
      y = ({ d with
              staged := rest
              ownedContexts := d.ownedContexts.insert p { c with phase := .submitted } },
        r.consume, subs, [])) ∨
    (∃ p rest c, d.staged = .ownedCancel p :: rest ∧ d.ownedCancelContexts.lookup p = some c ∧
      c.phase = .staged ∧
      y = ({ d with
              staged := rest
              ownedCancelContexts :=
                d.ownedCancelContexts.insert p { c with phase := .submitted } },
        r.consume, subs, [])) := by
  unfold acceptStaged at h
  dsimp only at h
  split at h
  next => cases h
  -- The three kinds of staged contexts.
  next p rest hs =>
    split at h
    next => cases h
    next c hc =>
      split_ifs at h with h1 h2
      · cases h
        exact .inl ⟨p, rest, c, hs, hc, by simpa using h1, by simp [h2, Ring.consume]⟩
      · cases h
        exact .inl ⟨p, rest, c, hs, hc, by simpa using h1, by simp [h2, Ring.consume]⟩
  next p rest hs =>
    split at h
    next => cases h
    next c hc =>
      split_ifs at h with h1
      cases h
      exact .inr (.inl ⟨p, rest, c, hs, hc, by simpa using h1, rfl⟩)
  next p rest hs =>
    split at h
    next => cases h
    next c hc =>
      split_ifs at h with h1
      cases h
      exact .inr (.inr ⟨p, rest, c, hs, hc, by simpa using h1, rfl⟩)

/-! ## Cancellation -/

/-- An original context of `s` that `request_cancel` has to target. -/
def cancellable (s : SubId) (c : CqeContext) : Bool :=
  c.kind == .original && c.phase != .terminal && !c.cancelQueued && c.state == s

/-- The keys `request_cancel` collects. -/
def cancelTargets (d : DriverData) (s : SubId) : Finset Pointer :=
  d.contexts.keys.filter fun p => (d.contexts.lookup p).any (cancellable s)

/-- The cancellation command of one collected context. -/
def cancelCommand (d : DriverData) (p : Pointer) : Option CancelCommand :=
  (d.contexts.lookup p).map fun c => ⟨p, c.index, c.originalUserData, c.state⟩

/-- The data-lock section of `request_cancel`, with the collected keys in the order the hash map
yielded them. -/
def cancelOriginals (order : List Pointer) (s : SubId) (d : DriverData) (subs : Submissions) :
    DriverData × Submissions :=
  let commands := order.filterMap (cancelCommand d)
  let contexts :=
    order.foldl (fun m p => m.modify p fun c => { c with cancelQueued := true }) d.contexts
  let st := (subs s).inner
  ({ d with contexts := contexts, cancelQueue := d.cancelQueue ++ commands },
    if commands.length ≠ 0 then subs.set s { st with cancels := st.cancels + commands.length }
    else subs)

section CancelOriginals

variable {order : List Pointer} {s : SubId} {d : DriverData} {subs : Submissions} {p : Pointer}

/-- The keys collected are those of the contexts to be cancelled. -/
theorem mem_cancelTargets :
    p ∈ cancelTargets d s ↔ ∃ c, d.contexts.lookup p = some c ∧ cancellable s c = true := by
  simp only [cancelTargets, Finset.mem_filter, Finmap.mem_keys, Option.any_eq_true]
  constructor
  · exact fun h => h.2
  · rintro ⟨c, hc, hs⟩
    exact ⟨Finmap.mem_of_lookup_eq_some hc, c, hc, hs⟩

/-- The contexts `request_cancel` targets are marked, the others stay. -/
theorem cancelOriginals_lookup (hnd : order.Nodup) (ho : order.toFinset = cancelTargets d s) :
    (cancelOriginals order s d subs).1.contexts.lookup p =
      (d.contexts.lookup p).map fun c =>
        if cancellable s c then { c with cancelQueued := true } else c := by
  -- The keys collected are exactly those the predicate holds of.
  have hmem : p ∈ order ↔ ∃ c, d.contexts.lookup p = some c ∧ cancellable s c = true := by
    rw [← mem_cancelTargets, ← ho, List.mem_toFinset]
  simp only [cancelOriginals, Finmap.lookup_foldl_modify hnd, hmem]
  cases hp : d.contexts.lookup p with
  | none => simp
  | some c => cases hc : cancellable s c <;> simp [hc]

/-- The commands queued count as cancellations of `s`. -/
theorem cancelOriginals_subs :
    (cancelOriginals order s d subs).2 =
      subs.set s
        { (subs s).inner with
          cancels := (subs s).inner.cancels + (order.filterMap (cancelCommand d)).length } := by
  unfold cancelOriginals
  dsimp only
  split_ifs with h
  · rfl
  · rw [not_ne_iff.mp h]
    exact (Submissions.set_same subs s).symm

/-- Each command targets a context that is to be cancelled, and describes it. -/
theorem mem_cancelCommands (ho : order.toFinset = cancelTargets d s) {command : CancelCommand}
    (h : command ∈ order.filterMap (cancelCommand d)) :
    ∃ c, d.contexts.lookup command.target = some c ∧ cancellable s c = true ∧
      command = ⟨command.target, c.index, c.originalUserData, s⟩ := by
  obtain ⟨p, hp, hcmd⟩ := List.mem_filterMap.mp h
  rw [← List.mem_toFinset, ho, mem_cancelTargets] at hp
  obtain ⟨c, hc, hs⟩ := hp
  simp only [cancelCommand, hc, Option.map_some, Option.some.injEq] at hcmd
  subst hcmd
  have hst : c.state = s := by
    simp only [cancellable, Bool.and_eq_true, beq_iff_eq] at hs
    exact hs.2
  exact ⟨c, hc, hs, by rw [hst]⟩

/-- One command is queued for each key collected. -/
theorem cancelCommands_targets (ho : order.toFinset = cancelTargets d s) :
    (order.filterMap (cancelCommand d)).map (·.target) = order := by
  have hall : ∀ p ∈ order, (cancelCommand d p).map (·.target) = some p := by
    intro p hp
    rw [← List.mem_toFinset, ho, mem_cancelTargets] at hp
    obtain ⟨c, hc, -⟩ := hp
    simp [cancelCommand, hc]
  rw [List.map_filterMap]
  clear ho
  induction order with
  | nil => rfl
  | cons p order ih =>
    rw [List.filterMap_cons, hall p List.mem_cons_self]
    simp only [List.cons.injEq, true_and]
    exact ih fun q hq => hall q (List.mem_cons_of_mem _ hq)

end CancelOriginals

/-- The owned context of `control` that `request_owned_cancel` has to target. -/
def ownedCancellable (control : ControlId) (c : OwnedCqeContext) : Bool :=
  c.control == control && c.phase != .terminal && !c.cancelQueued

/-- The data-lock section of `request_owned_cancel` once `find_map` has found its target. -/
def cancelOwned (target : Pointer) (d : DriverData) : DriverData :=
  { d with
    ownedContexts := d.ownedContexts.modify target fun c => { c with cancelQueued := true }
    ownedCancelQueue := d.ownedCancelQueue ++ [⟨target⟩] }

/-! ## Dispatch -/

/-- What dispatching one CQE changes and hands on. -/
structure Dispatched where
  data : DriverData
  subs : Submissions
  wakes : List Waker
  /-- The submission whose delivery overflowed, to be cancelled by the caller. -/
  overflow : Option SubId
  /-- The owned handler to complete once the lock is released. -/
  handler : Option OwnedHandler

/-- Completes an owned original or retires its invisible cancellation CQE. -/
def dispatchOwned (cqe : Cqe) (d : DriverData) (subs : Submissions) : Checked Dispatched :=
  let pointer := cqe.userData
  -- Addresses are never null, so a null `user_data` belongs to no SQE of the driver.
  if pointer = 0 then .error .nullOwnedPointer
  else
    match d.ownedContexts.lookup pointer with
    | some context =>
      if context.phase ≠ .submitted then .error .unsubmittedOwned
      else if cqe.more then .error .multishotOwned
      else
        match context.handler with
        | none => .error .ownedHandlerCompletedTwice
        | some handler =>
          -- The handler leaves with the completion, the context stays for a cancellation on its
          -- way.
          let owned := d.ownedContexts.erase pointer
          let context := { context with phase := .terminal, handler := none }
          let owned :=
            if context.cancelQueued && !context.cancelSeen then owned.insert pointer context
            else owned
          .ok ⟨{ d with ownedContexts := owned }, subs, [], none, some handler⟩
    | none =>
      match d.ownedCancelContexts.lookup pointer with
      | none => .error .unknownOwnedPointer
      | some context =>
        if context.phase ≠ .submitted then .error .unsubmittedOwnedCancel
        else if cqe.more then .error .multishotOwnedCancel
        else
          -- The original stays in its table until its cancellation has been seen.
          match d.ownedContexts.lookup context.target with
          | none => .error .ownedCancelTargetDisappeared
          | some original =>
            let owned :=
              if original.phase = .terminal then d.ownedContexts.erase context.target
              else d.ownedContexts.insert context.target { original with cancelSeen := true }
            .ok
              ⟨{ d with
                  ownedContexts := owned
                  ownedCancelContexts := d.ownedCancelContexts.erase pointer },
                subs, [], none, none⟩

/-- Routes one typed CQE through its pointer context and updates retirement. -/
def dispatchRaw (cqe : Cqe) (d : DriverData) (subs : Submissions) : Checked Dispatched :=
  let pointer := cqe.userData
  if pointer = 0 then .error .nullPointer
  else
    match d.contexts.lookup pointer with
    | none => .error .unknownPointer
    | some context =>
      if context.phase ≠ .submitted then .error .unsubmittedContext
      else
        let completion : Completion :=
          ⟨context.index, cqe.setUserData context.originalUserData⟩
        let state := subs context.state
        match context.kind with
        | .original =>
          -- The submission is told before the context goes.
          let y := dispatchOriginal state.limit completion cqe.more (state.inner, [])
          let contexts := d.contexts.erase pointer
          -- With `IORING_CQE_F_MORE` set the original stays submitted.
          let context :=
            if cqe.more then context else { context with phase := ContextPhase.terminal }
          let contexts :=
            if cqe.more || (context.cancelQueued && !context.cancelSeen) then
              contexts.insert pointer context
            else contexts
          .ok
            ⟨{ d with contexts := contexts }, subs.set context.state y.1.1, y.1.2,
              if y.2 then some context.state else none, none⟩
        | .cancel =>
          if cqe.more then .error .multishotCancel
          else
            match context.target with
            | none => .error .cancelWithoutTarget
            | some target =>
              let y := dispatchCancel state.limit completion (state.inner, [])
              let contexts := d.contexts.erase pointer
              match contexts.lookup target with
              -- The target is looked up without the cancellation, which was removed first.
              | none => .error .cancelTargetDisappeared
              | some original =>
                let contexts :=
                  if original.phase = .terminal then contexts.erase target
                  else contexts.insert target { original with cancelSeen := true }
                .ok
                  ⟨{ d with contexts := contexts }, subs.set context.state y.1, y.2, none, none⟩

/-- Routes one CQE to the raw or completion-native context registry. -/
def dispatch (cqe : Cqe) (d : DriverData) (subs : Submissions) : Checked Dispatched :=
  if (d.contexts.lookup cqe.userData).isSome then dispatchRaw cqe d subs
  else dispatchOwned cqe d subs

section DispatchCases

variable {cqe : Cqe} {d : DriverData} {subs : Submissions} {y : Dispatched}

/-- The registry after the original at `p` got its terminal CQE: the context stays only for a
cancellation that has not retired. -/
def retireContext (p : Pointer) (c : CqeContext) (d : DriverData) : DriverData :=
  { d with
    contexts :=
      if c.cancelQueued && !c.cancelSeen then d.contexts.insert p { c with phase := .terminal }
      else d.contexts.erase p }

/-- The registry after the cancellation at `p` of the original at `t` retired. -/
def retireCancellation (p t : Pointer) (original : CqeContext) (d : DriverData) : DriverData :=
  { d with
    contexts :=
      if original.phase = .terminal then (d.contexts.erase p).erase t
      else (d.contexts.erase p).insert t { original with cancelSeen := true } }

/-- The registry after the owned original at `p` completed. -/
def retireOwned (p : Pointer) (c : OwnedCqeContext) (d : DriverData) : DriverData :=
  { d with
    ownedContexts :=
      if c.cancelQueued && !c.cancelSeen then
        d.ownedContexts.insert p { c with phase := .terminal, handler := none }
      else d.ownedContexts.erase p }

/-- The registry after the cancellation at `p` of the owned original at `t` retired. -/
def retireOwnedCancellation (p t : Pointer) (original : OwnedCqeContext) (d : DriverData) :
    DriverData :=
  { d with
    ownedContexts :=
      if original.phase = .terminal then d.ownedContexts.erase t
      else d.ownedContexts.insert t { original with cancelSeen := true }
    ownedCancelContexts := d.ownedCancelContexts.erase p }

/-- Where the contexts are after an original retired. -/
theorem retireContext_lookup (p q : Pointer) (c : CqeContext) (d : DriverData) :
    (retireContext p c d).contexts.lookup q =
      if q = p then
        if c.cancelQueued && !c.cancelSeen then some { c with phase := .terminal } else none
      else d.contexts.lookup q := by
  unfold retireContext
  dsimp only
  split_ifs with h1 h2 h2 <;> simp [Finmap.lookup_insert_eq_ite, Finmap.lookup_erase_eq_ite, h2]

/-- Where the contexts are after a cancellation retired. -/
theorem retireCancellation_lookup (p t q : Pointer) (o : CqeContext) (d : DriverData) :
    (retireCancellation p t o d).contexts.lookup q =
      if q = t then if o.phase = .terminal then none else some { o with cancelSeen := true }
      else if q = p then none else d.contexts.lookup q := by
  unfold retireCancellation
  by_cases h1 : o.phase = .terminal
  · simp only [h1, if_true, Finmap.lookup_erase_eq_ite]
  · simp only [h1, if_false, Finmap.lookup_insert_eq_ite, Finmap.lookup_erase_eq_ite]

/-- Where the owned contexts are after an owned original completed. -/
theorem retireOwned_lookup (p q : Pointer) (c : OwnedCqeContext) (d : DriverData) :
    (retireOwned p c d).ownedContexts.lookup q =
      if q = p then
        if c.cancelQueued && !c.cancelSeen then
          some { c with phase := .terminal, handler := none } else none
      else d.ownedContexts.lookup q := by
  unfold retireOwned
  dsimp only
  split_ifs with h1 h2 h2 <;> simp [Finmap.lookup_insert_eq_ite, Finmap.lookup_erase_eq_ite, h2]

/-- Where the owned contexts are after an owned cancellation retired. -/
theorem retireOwnedCancellation_lookup (p t q : Pointer) (o : OwnedCqeContext) (d : DriverData) :
    (retireOwnedCancellation p t o d).ownedContexts.lookup q =
      if q = t then if o.phase = .terminal then none else some { o with cancelSeen := true }
      else d.ownedContexts.lookup q := by
  unfold retireOwnedCancellation
  by_cases h1 : o.phase = .terminal
  · simp only [h1, if_true, Finmap.lookup_erase_eq_ite]
  · simp only [h1, if_false, Finmap.lookup_insert_eq_ite]

/-- What the CQE was for, when `dispatch` does not abort. -/
theorem dispatch_cases (h : dispatch cqe d subs = .ok y) :
    (∃ c, d.contexts.lookup cqe.userData = some c ∧ c.kind = .original ∧ c.phase = .submitted ∧
      let z := dispatchOriginal (subs c.state).limit
        ⟨c.index, cqe.setUserData c.originalUserData⟩ cqe.more ((subs c.state).inner, [])
      y = ⟨if cqe.more then d else retireContext cqe.userData c d, subs.set c.state z.1.1, z.1.2,
        if z.2 then some c.state else none, none⟩) ∨
    (∃ c t o, d.contexts.lookup cqe.userData = some c ∧ c.kind = .cancel ∧
      c.phase = .submitted ∧ c.target = some t ∧
      (d.contexts.erase cqe.userData).lookup t = some o ∧ cqe.more = false ∧
      let z := dispatchCancel (subs c.state).limit
        ⟨c.index, cqe.setUserData c.originalUserData⟩ ((subs c.state).inner, [])
      y = ⟨retireCancellation cqe.userData t o d, subs.set c.state z.1, z.2, none, none⟩) ∨
    (∃ c handler, d.contexts.lookup cqe.userData = none ∧
      d.ownedContexts.lookup cqe.userData = some c ∧ c.phase = .submitted ∧
      c.handler = some handler ∧ cqe.more = false ∧
      y = ⟨retireOwned cqe.userData c d, subs, [], none, some handler⟩) ∨
    (∃ c o, d.contexts.lookup cqe.userData = none ∧ d.ownedContexts.lookup cqe.userData = none ∧
      d.ownedCancelContexts.lookup cqe.userData = some c ∧ c.phase = .submitted ∧
      d.ownedContexts.lookup c.target = some o ∧ cqe.more = false ∧
      y = ⟨retireOwnedCancellation cqe.userData c.target o d, subs, [], none, none⟩) := by
  unfold dispatch at h
  split at h
  next hin =>
    unfold dispatchRaw at h
    dsimp only at h
    split at h
    next => cases h
    next =>
      split at h
      next => cases h
      next c hc =>
        split at h
        next => cases h
        next hphase =>
          have hphase : c.phase = .submitted := by simpa using hphase
          split at h
          next hkind =>
            cases h
            -- The four outcomes follow the tables: a raw original, a raw cancellation, and the
            -- owned ones.
            refine .inl ⟨c, hc, hkind, hphase, ?_⟩
            cases hm : cqe.more with
            | true => simp [Finmap.insert_erase, Finmap.insert_of_lookup hc]
            | false => simp [retireContext, Finmap.insert_erase]
          next hkind =>
            split at h
            next => cases h
            next hm =>
              split at h
              next => cases h
              next t ht =>
                split at h
                next => cases h
                next o ho =>
                  cases h
                  exact .inr (.inl ⟨c, t, o, hc, hkind, hphase, ht, ho, by simpa using hm, rfl⟩)
  next hin =>
    have hnone : d.contexts.lookup cqe.userData = none := by simpa using hin
    unfold dispatchOwned at h
    dsimp only at h
    split at h
    next => cases h
    next =>
      split at h
      next c hc =>
        split at h
        next => cases h
        next hphase =>
          split at h
          next => cases h
          next hm =>
            split at h
            next => cases h
            next handler hh =>
              cases h
              refine .inr (.inr (.inl ⟨c, handler, hnone, hc, by simpa using hphase, hh,
                by simpa using hm, ?_⟩))
              simp [retireOwned, Finmap.insert_erase]
      next hc =>
        split at h
        next => cases h
        next c hcc =>
          split at h
          next => cases h
          next hphase =>
            split at h
            next => cases h
            next hm =>
              split at h
              next => cases h
              next o ho =>
                cases h
                exact .inr (.inr (.inr ⟨c, o, hnone, hc, hcc, by simpa using hphase, ho,
                  by simpa using hm, rfl⟩))

/-- A raw context that is there after dispatch was there before, for the same submission and with
the same key. -/
theorem dispatch_context (h : dispatch cqe d subs = .ok y) {p : Pointer} {c : CqeContext}
    (hc : y.data.contexts.lookup p = some c) :
    ∃ c', d.contexts.lookup p = some c' ∧ c'.state = c.state ∧ c'.kind = c.kind ∧
      c'.key = c.key := by
  rcases dispatch_cases h with ⟨x, hx, -, -, rfl⟩ | ⟨x, t, o, hx, -, -, -, ho, -, rfl⟩ |
    ⟨_, _, _, _, _, _, _, rfl⟩ | ⟨_, _, _, _, _, _, _, _, rfl⟩
  · cases hm : cqe.more with
    | true =>
      simp only [hm, if_true] at hc
      exact ⟨c, hc, rfl, rfl, rfl⟩
    | false =>
      simp only [hm, Bool.false_eq_true, if_false, retireContext_lookup] at hc
      split_ifs at hc with h1 h2
      · cases hc
        exact ⟨x, h1 ▸ hx, rfl, rfl, rfl⟩
      · exact ⟨c, hc, rfl, rfl, rfl⟩
  · simp only [retireCancellation_lookup] at hc
    split_ifs at hc with h1 h2 h3
    · cases hc
      rw [Finmap.lookup_erase_eq_ite] at ho
      split_ifs at ho
      exact ⟨o, h1 ▸ ho, rfl, rfl, rfl⟩
    · exact ⟨c, hc, rfl, rfl, rfl⟩
  · exact ⟨c, hc, rfl, rfl, rfl⟩
  · exact ⟨c, hc, rfl, rfl, rfl⟩

/-- A submission that overflows is that of the CQE. -/
theorem dispatch_overflow (h : dispatch cqe d subs = .ok y) {s : SubId} (hs : y.overflow = some s) :
    ∃ c, d.contexts.lookup cqe.userData = some c ∧ c.state = s := by
  rcases dispatch_cases h with ⟨c, hc, -, -, rfl⟩ | ⟨_, _, _, _, _, _, _, _, _, rfl⟩ |
    ⟨_, _, _, _, _, _, _, rfl⟩ | ⟨_, _, _, _, _, _, _, _, rfl⟩
  · refine ⟨c, hc, ?_⟩
    dsimp only at hs
    split_ifs at hs
    exact Option.some.inj hs
  all_goals cases hs

/-- A submission that overflows has its delivery closed. -/
theorem dispatch_overflow_delivery (h : dispatch cqe d subs = .ok y) {s : SubId}
    (hs : y.overflow = some s) : (y.subs s).inner.delivery = .overflow := by
  rcases dispatch_cases h with ⟨c, hc, -, -, rfl⟩ | ⟨_, _, _, _, _, _, _, _, _, rfl⟩ |
    ⟨_, _, _, _, _, _, _, rfl⟩ | ⟨_, _, _, _, _, _, _, _, rfl⟩
  · dsimp only at hs ⊢
    split_ifs at hs with hz
    obtain rfl := Option.some.inj hs
    rw [Submissions.set_inner, if_pos rfl, dispatchOriginal_delivery, hz]
    rfl
  all_goals cases hs

/-- Dispatch touches only the submission of the CQE. -/
theorem dispatch_subs (h : dispatch cqe d subs = .ok y) {s : SubId}
    (hs : ∀ c, d.contexts.lookup cqe.userData = some c → s ≠ c.state) : y.subs s = subs s := by
  rcases dispatch_cases h with ⟨c, hc, -, -, rfl⟩ | ⟨c, _, _, hc, _, _, _, _, _, rfl⟩ |
    ⟨_, _, _, _, _, _, _, rfl⟩ | ⟨_, _, _, _, _, _, _, _, rfl⟩
  · exact Submissions.set_of_ne _ _ (hs c hc)
  · exact Submissions.set_of_ne _ _ (hs c hc)
  · rfl
  · rfl

/-- Dispatch leaves every queue alone. -/
theorem dispatch_queues (h : dispatch cqe d subs = .ok y) :
    y.data.staged = d.staged ∧ y.data.cancelQueue = d.cancelQueue ∧
      y.data.ownedPending = d.ownedPending ∧ y.data.ownedCancelQueue = d.ownedCancelQueue ∧
      y.data.submissions = d.submissions := by
  rcases dispatch_cases h with ⟨c, _, _, _, rfl⟩ | ⟨_, _, _, _, _, _, _, _, _, rfl⟩ |
    ⟨_, _, _, _, _, _, _, rfl⟩ | ⟨_, _, _, _, _, _, _, _, rfl⟩
  · cases cqe.more <;> exact ⟨rfl, rfl, rfl, rfl, rfl⟩
  all_goals exact ⟨rfl, rfl, rfl, rfl, rfl⟩

/-- Dispatch leaves the driver's flags alone. -/
theorem dispatch_flags (h : dispatch cqe d subs = .ok y) :
    y.data.accepting = d.accepting ∧ y.data.shutdown = d.shutdown := by
  rcases dispatch_cases h with ⟨c, _, _, _, rfl⟩ | ⟨_, _, _, _, _, _, _, _, _, rfl⟩ |
    ⟨_, _, _, _, _, _, _, rfl⟩ | ⟨_, _, _, _, _, _, _, _, rfl⟩
  · cases cqe.more <;> exact ⟨rfl, rfl⟩
  all_goals exact ⟨rfl, rfl⟩

end DispatchCases

/-! ## Parking -/

/-- Chooses how the driver should proceed from queue state and CQ backlog. -/
def decide (d : DriverData) (backlog ownedQueueEmpty : Bool) : RunDecision :=
  let queued :=
    !d.staged.isEmpty || !d.cancelQueue.isEmpty || !d.ownedPending.isEmpty ||
      !d.ownedCancelQueue.isEmpty || !ownedQueueEmpty
  let active :=
    d.contexts ≠ ∅ || d.ownedContexts ≠ ∅ || d.ownedCancelContexts ≠ ∅ || queued
  if d.shutdown && !active then .stop
  -- A backlog in the CQ or a queue that is not empty means another pass at once.
  else if backlog || queued then .yield
  else if active then .wait
  else .pause

/-- Announces work and wakes a driver that is paused or in a deadline wait. -/
def notify (g : DriverGate) : Checked (DriverGate × List NativeCall) :=
  -- The note stays even when nobody is parked: the driver looks for it before it parks.
  let g := { g with notified := true }
  let wake (call : NativeCall) : Checked (DriverGate × List NativeCall) :=
    if g.raw then .ok ({ g with phase := .wakePending }, [call]) else .error .descriptorMissing
  match g.phase with
  | .paused => wake .submit
  | .deadlineWait => wake .submitDeadlineWake
  | .building | .terminal | .destroyed | .running | .wakePending => .ok (g, [])

end Nosv.IoUring
