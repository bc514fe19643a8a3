import Mathlib.Tactic.SplitIfs
import Nosv.IoUring.Types

/-!
# The submission lock

Everything `io_uring.rs` does while holding one submission's mutex: the three polls, closing and
detaching delivery, and the two halves of CQE dispatch. Functions that may wake a task take the
state paired with the wake batch they extend.

* `nextCompletion_ready` and `nextCompletion_pending`: what a poll of a stream does;
* `nextCancellation_ready` and `nextCancellation_pending`: what a poll of a cancellation does;
* `dispatchOriginal_inner` and `dispatchCancel_inner`: what a CQE leaves of the submission.
-/

namespace Nosv.IoUring

/-- Outcome of polling a future. -/
inductive Poll (α : Type) where
  | ready (a : α)
  | pending
  deriving DecidableEq, Repr

/-- Output of `NextCompletion` and `NextCancellation`. -/
abbrev NextResult := Option (Except CompletionError Completion)

/-- A submission under its lock, with the wake batch of the current pass. -/
abbrev Waking := SubmissionInner × List Waker

/-- Stores the replacement unless the existing waker wakes the same task. -/
def replaceWaker (slot : Option Waker) (replacement : Waker) : Option Waker :=
  if slot.all fun old => old != replacement then some replacement else slot

/-- Either way the slot ends up waking the task of the replacement. -/
@[simp]
theorem replaceWaker_eq (slot : Option Waker) (w : Waker) : replaceWaker slot w = some w := by
  cases slot with
  | none => rfl
  | some old => by_cases h : old = w <;> simp [replaceWaker, h]

/-- Every original and generated cancellation is terminal. -/
def drained (st : SubmissionInner) : Bool :=
  st.originalTerminal == st.originals && st.cancelTerminal == st.cancels

/-- `drained` compares the two pairs of counters. -/
theorem drained_iff {st : SubmissionInner} :
    drained st = true ↔ st.originalTerminal = st.originals ∧ st.cancelTerminal = st.cancels := by
  simp [drained]

/-! ## Polls -/

/-- Pops a buffered CQE, reports pending overflow, or registers the waiter. -/
def nextCompletion (w : Waker) (st : SubmissionInner) : Poll NextResult × SubmissionInner :=
  match st.normal with
  | cqe :: rest => (.ready (some (.ok cqe)), { st with normal := rest })
  | [] =>
    if st.normalOverflow then
      (.ready (some (.error .bufferOverflow)), { st with normalOverflow := false })
    else if st.delivery ≠ .opened ∨
        (st.iteratorFinished = true ∧ st.originalTerminal = st.originals) then
      (.ready none, st)
    else (.pending, { st with normalWaker := replaceWaker st.normalWaker w })

/-- Pops a buffered CQE, reports overflow, or registers the cancellation waiter. -/
def nextCancellation (w : Waker) (st : SubmissionInner) : Poll NextResult × SubmissionInner :=
  match st.cancellations with
  | cqe :: rest => (.ready (some (.ok cqe)), { st with cancellations := rest })
  | [] =>
    if st.cancelOverflow then
      (.ready (some (.error .bufferOverflow)), { st with cancelOverflow := false })
    else if st.cancelTerminal = st.cancels then (.ready none, st)
    else (.pending, { st with cancelWaker := replaceWaker st.cancelWaker w })

/-- Checks terminal counters or registers the drain waiter. -/
def waitDrained (w : Waker) (st : SubmissionInner) : Poll Unit × SubmissionInner :=
  if drained st then (.ready (), st)
  else (.pending, { st with drainWaker := replaceWaker st.drainWaker w })

section PollCases

variable {w : Waker} {r : NextResult} {st st' : SubmissionInner}

/-- A stream's poll that is ready pops a completion, reports the overflow, or finds the end. -/
theorem nextCompletion_ready (h : nextCompletion w st = (.ready r, st')) :
    (∃ c rest, st.normal = c :: rest ∧ r = some (.ok c) ∧ st' = { st with normal := rest }) ∨
    (st.normal = [] ∧ st.normalOverflow = true ∧ r = some (.error .bufferOverflow) ∧
      st' = { st with normalOverflow := false }) ∨
    (st.normal = [] ∧ st.normalOverflow = false ∧ r = none ∧ st' = st ∧
      (st.delivery ≠ .opened ∨
        (st.iteratorFinished = true ∧ st.originalTerminal = st.originals))) := by
  unfold nextCompletion at h
  split at h
  next c rest hn =>
    cases h
    exact .inl ⟨c, rest, hn, rfl, rfl⟩
  next hn =>
    split_ifs at h with h1 h2
    · cases h
      exact .inr (.inl ⟨hn, h1, rfl, rfl⟩)
    · cases h
      exact .inr (.inr ⟨hn, by simpa using h1, rfl, rfl, h2⟩)
    · cases h

/-- A stream's poll that is pending found nothing, and registered its waker. -/
theorem nextCompletion_pending (h : nextCompletion w st = (.pending, st')) :
    st.normal = [] ∧ st.normalOverflow = false ∧ st.delivery = .opened ∧
      ¬ (st.iteratorFinished = true ∧ st.originalTerminal = st.originals) ∧
      st' = { st with normalWaker := some w } := by
  unfold nextCompletion at h
  split at h
  next => cases h
  next hn =>
    split_ifs at h with h1 h2
    · cases h
    · cases h
    · cases h
      rw [not_or, not_not] at h2
      exact ⟨hn, by simpa using h1, h2.1, h2.2, by rw [replaceWaker_eq]⟩

/-- A cancellation's poll that is ready pops a completion, reports the overflow, or finds the
end. -/
theorem nextCancellation_ready (h : nextCancellation w st = (.ready r, st')) :
    (∃ c rest, st.cancellations = c :: rest ∧ r = some (.ok c) ∧
      st' = { st with cancellations := rest }) ∨
    (st.cancellations = [] ∧ st.cancelOverflow = true ∧ r = some (.error .bufferOverflow) ∧
      st' = { st with cancelOverflow := false }) ∨
    (st.cancellations = [] ∧ st.cancelOverflow = false ∧ r = none ∧ st' = st ∧
      st.cancelTerminal = st.cancels) := by
  unfold nextCancellation at h
  split at h
  next c rest hn =>
    cases h
    exact .inl ⟨c, rest, hn, rfl, rfl⟩
  next hn =>
    split_ifs at h with h1 h2
    · cases h
      exact .inr (.inl ⟨hn, h1, rfl, rfl⟩)
    · cases h
      exact .inr (.inr ⟨hn, by simpa using h1, rfl, rfl, h2⟩)
    · cases h

/-- A cancellation's poll that is pending found nothing, and registered its waker. -/
theorem nextCancellation_pending (h : nextCancellation w st = (.pending, st')) :
    st.cancellations = [] ∧ st.cancelOverflow = false ∧ st.cancelTerminal ≠ st.cancels ∧
      st' = { st with cancelWaker := some w } := by
  unfold nextCancellation at h
  split at h
  next => cases h
  next hn =>
    split_ifs at h with h1 h2
    · cases h
    · cases h
    · cases h
      exact ⟨hn, by simpa using h1, h2, by rw [replaceWaker_eq]⟩

end PollCases

/-! ## Closing delivery -/

/-- The submission-lock half of `request_cancel`. -/
def closeDelivery (delivery : Delivery) (st : SubmissionInner) : SubmissionInner :=
  let st :=
    if st.delivery = .opened ∨ delivery = .detached then { st with delivery := delivery } else st
  if delivery = .detached then
    { st with normal := [], cancellations := [], normalWaker := none, cancelWaker := none }
  else st

/-- Marks a submission detached and discards caller-visible CQE delivery. -/
def detach (st : SubmissionInner) : SubmissionInner :=
  { st with
    delivery := .detached, normal := [], cancellations := [], normalWaker := none
    cancelWaker := none }

/-! ## Waking -/

/-- Moves the admission waker to the wake batch. -/
def takeAdmission (x : Waking) : Waking :=
  ({ x.1 with admissionWaker := none }, x.2 ++ x.1.admissionWaker.toList)

/-- Moves the original-CQE waker to the wake batch. -/
def takeNormal (x : Waking) : Waking :=
  ({ x.1 with normalWaker := none }, x.2 ++ x.1.normalWaker.toList)

/-- Moves the cancellation-CQE waker to the wake batch. -/
def takeCancel (x : Waking) : Waking :=
  ({ x.1 with cancelWaker := none }, x.2 ++ x.1.cancelWaker.toList)

/-- Moves the drain waker to the wake batch once both terminal counts match. -/
def wakeDrain (x : Waking) : Waking :=
  if drained x.1 then ({ x.1 with drainWaker := none }, x.2 ++ x.1.drainWaker.toList) else x

/-! ## Dispatch -/

/-- A CQE during admission wakes the admission future, which may have SQ slots to fill. -/
def wakeUnfinished (x : Waking) : Waking :=
  if x.1.iteratorFinished then x else takeAdmission x

/-- Buffers an original CQE, or overflows; the flag reports a first overflow. -/
def bufferOriginal (limit : ℕ) (c : Completion) (x : Waking) : Waking × Bool :=
  if x.1.delivery = .opened then
    if x.1.normal.length < limit then
      (takeNormal ({ x.1 with normal := x.1.normal ++ [c] }, x.2), false)
    else if x.1.normalOverflow then (takeNormal x, false)
    else (takeNormal ({ x.1 with normalOverflow := true, delivery := .overflow }, x.2), true)
  else (x, false)

/-- Counts a terminal original CQE. -/
def retireOriginal (x : Waking) : Waking :=
  let x := ({ x.1 with originalTerminal := x.1.originalTerminal + 1 }, x.2)
  wakeDrain (if x.1.originalTerminal = x.1.originals then takeNormal x else x)

/-- The submission-lock section of dispatching an original CQE. -/
def dispatchOriginal (limit : ℕ) (c : Completion) (more : Bool) (x : Waking) : Waking × Bool :=
  let y := bufferOriginal limit c (wakeUnfinished x)
  (if more then y.1 else retireOriginal y.1, y.2)

/-- Buffers a cancellation CQE or records that one was discarded. -/
def bufferCancel (limit : ℕ) (c : Completion) (x : Waking) : Waking :=
  if x.1.delivery = .detached then x
  else if x.1.cancellations.length < limit then
    takeCancel ({ x.1 with cancellations := x.1.cancellations ++ [c] }, x.2)
  else takeCancel ({ x.1 with cancelOverflow := true }, x.2)

/-- Counts a terminal cancellation CQE. -/
def retireCancel (x : Waking) : Waking :=
  let x := ({ x.1 with cancelTerminal := x.1.cancelTerminal + 1 }, x.2)
  wakeDrain (if x.1.cancelTerminal = x.1.cancels then takeCancel x else x)

/-- The submission-lock section of dispatching a cancellation CQE. -/
def dispatchCancel (limit : ℕ) (c : Completion) (x : Waking) : Waking :=
  retireCancel (bufferCancel limit c x)

/-! ## What each section leaves alone -/

@[simp]
theorem nextCompletion_counters (w : Waker) (st : SubmissionInner) :
    (nextCompletion w st).2.toCounters = st.toCounters := by
  unfold nextCompletion
  split
  · rfl
  · split_ifs <;> rfl

@[simp]
theorem nextCancellation_counters (w : Waker) (st : SubmissionInner) :
    (nextCancellation w st).2.toCounters = st.toCounters := by
  unfold nextCancellation
  split
  · rfl
  · split_ifs <;> rfl

@[simp]
theorem waitDrained_counters (w : Waker) (st : SubmissionInner) :
    (waitDrained w st).2.toCounters = st.toCounters := by
  unfold waitDrained
  split_ifs <;> rfl

@[simp]
theorem closeDelivery_counters (d : Delivery) (st : SubmissionInner) :
    (closeDelivery d st).toCounters = st.toCounters := by
  unfold closeDelivery
  split_ifs <;> rfl

@[simp]
theorem detach_counters (st : SubmissionInner) : (detach st).toCounters = st.toCounters := rfl

@[simp]
theorem takeAdmission_counters (x : Waking) :
    (takeAdmission x).1.toCounters = x.1.toCounters := rfl

@[simp]
theorem takeNormal_counters (x : Waking) : (takeNormal x).1.toCounters = x.1.toCounters := rfl

@[simp]
theorem takeCancel_counters (x : Waking) : (takeCancel x).1.toCounters = x.1.toCounters := rfl

@[simp]
theorem wakeDrain_counters (x : Waking) : (wakeDrain x).1.toCounters = x.1.toCounters := by
  unfold wakeDrain
  split_ifs <;> rfl

@[simp]
theorem wakeUnfinished_counters (x : Waking) :
    (wakeUnfinished x).1.toCounters = x.1.toCounters := by
  unfold wakeUnfinished
  split_ifs <;> rfl

@[simp]
theorem bufferOriginal_counters (limit : ℕ) (c : Completion) (x : Waking) :
    (bufferOriginal limit c x).1.1.toCounters = x.1.toCounters := by
  unfold bufferOriginal
  split_ifs <;> rfl

@[simp]
theorem bufferCancel_counters (limit : ℕ) (c : Completion) (x : Waking) :
    (bufferCancel limit c x).1.toCounters = x.1.toCounters := by
  unfold bufferCancel
  split_ifs <;> rfl

/-- A terminal original CQE counts one terminal original and moves no other counter. -/
theorem retireOriginal_counters (x : Waking) :
    (retireOriginal x).1.toCounters =
      { x.1.toCounters with originalTerminal := x.1.originalTerminal + 1 } := by
  unfold retireOriginal
  rw [wakeDrain_counters]
  split_ifs <;> rfl

/-- A cancellation CQE counts one terminal cancellation and moves no other counter. -/
theorem retireCancel_counters (x : Waking) :
    (retireCancel x).1.toCounters =
      { x.1.toCounters with cancelTerminal := x.1.cancelTerminal + 1 } := by
  unfold retireCancel
  rw [wakeDrain_counters]
  split_ifs <;> rfl

/-- An original CQE moves `originalTerminal` exactly when it is terminal. -/
theorem dispatchOriginal_counters (limit : ℕ) (c : Completion) (more : Bool) (x : Waking) :
    (dispatchOriginal limit c more x).1.1.toCounters =
      if more then x.1.toCounters
      else { x.1.toCounters with originalTerminal := x.1.originalTerminal + 1 } := by
  have hy : (bufferOriginal limit c (wakeUnfinished x)).1.1.toCounters = x.1.toCounters := by simp
  unfold dispatchOriginal
  cases more with
  | true => exact hy
  | false =>
    simp only [Bool.false_eq_true, if_false]
    rw [retireOriginal_counters, hy]

/-- A cancellation CQE moves `cancelTerminal` by one. -/
theorem dispatchCancel_counters (limit : ℕ) (c : Completion) (x : Waking) :
    (dispatchCancel limit c x).1.toCounters =
      { x.1.toCounters with cancelTerminal := x.1.cancelTerminal + 1 } := by
  have hy : (bufferCancel limit c x).1.toCounters = x.1.toCounters := by simp
  unfold dispatchCancel
  rw [retireCancel_counters, hy]

/-! ## Delivery never reopens -/

@[simp]
theorem nextCompletion_delivery (w : Waker) (st : SubmissionInner) :
    (nextCompletion w st).2.delivery = st.delivery := by
  unfold nextCompletion
  split
  · rfl
  · split_ifs <;> rfl

@[simp]
theorem nextCancellation_delivery (w : Waker) (st : SubmissionInner) :
    (nextCancellation w st).2.delivery = st.delivery := by
  unfold nextCancellation
  split
  · rfl
  · split_ifs <;> rfl

/-- `request_cancel` detaches, or closes what is open. -/
theorem closeDelivery_delivery (d : Delivery) (st : SubmissionInner) :
    (closeDelivery d st).delivery =
      if st.delivery = .opened ∨ d = .detached then d else st.delivery := by
  unfold closeDelivery
  dsimp only
  split_ifs <;> rfl

@[simp]
theorem wakeUnfinished_delivery (x : Waking) :
    (wakeUnfinished x).1.delivery = x.1.delivery := by
  unfold wakeUnfinished
  split_ifs <;> rfl

@[simp]
theorem wakeDrain_delivery (x : Waking) : (wakeDrain x).1.delivery = x.1.delivery := by
  unfold wakeDrain
  split_ifs <;> rfl

@[simp]
theorem retireOriginal_delivery (x : Waking) :
    (retireOriginal x).1.delivery = x.1.delivery := by
  unfold retireOriginal
  rw [wakeDrain_delivery]
  split_ifs <;> rfl

@[simp]
theorem dispatchCancel_delivery (limit : ℕ) (c : Completion) (x : Waking) :
    (dispatchCancel limit c x).1.delivery = x.1.delivery := by
  have hbuffer : (bufferCancel limit c x).1.delivery = x.1.delivery := by
    unfold bufferCancel
    split_ifs <;> rfl
  unfold dispatchCancel retireCancel
  rw [wakeDrain_delivery, ← hbuffer]
  split_ifs <;> rfl

/-- An original CQE changes the delivery mode only when it reports an overflow. -/
theorem dispatchOriginal_delivery (limit : ℕ) (c : Completion) (more : Bool) (x : Waking) :
    (dispatchOriginal limit c more x).1.1.delivery =
      if (dispatchOriginal limit c more x).2 then .overflow else x.1.delivery := by
  have hbuffer : (bufferOriginal limit c (wakeUnfinished x)).1.1.delivery =
      if (bufferOriginal limit c (wakeUnfinished x)).2 then .overflow else x.1.delivery := by
    rw [← wakeUnfinished_delivery x]
    unfold bufferOriginal
    split_ifs <;> simp_all [takeNormal]
  unfold dispatchOriginal
  dsimp only
  rw [← hbuffer]
  split_ifs <;> simp

/-! ## What a CQE changes -/

section Fields

variable (limit : ℕ) (c : Completion) (more : Bool) (st : SubmissionInner) (ws : List Waker)

/-- Whether the buffer takes an original CQE. -/
def buffers (limit : ℕ) (st : SubmissionInner) : Bool :=
  st.delivery = .opened ∧ st.normal.length < limit

/-- Whether an original CQE finds the buffer full. -/
def overflows (limit : ℕ) (st : SubmissionInner) : Bool :=
  st.delivery = .opened ∧ limit ≤ st.normal.length

/-- Everything `request_cancel` changes under the submission lock, at once. -/
theorem closeDelivery_eq (d : Delivery) :
    closeDelivery d st =
      { st with
        delivery := if st.delivery = .opened ∨ d = .detached then d else st.delivery
        normal := if d = .detached then [] else st.normal
        cancellations := if d = .detached then [] else st.cancellations
        normalWaker := if d = .detached then none else st.normalWaker
        cancelWaker := if d = .detached then none else st.cancelWaker } := by
  by_cases hd : d = .detached <;> by_cases ho : st.delivery = .opened <;>
    simp [closeDelivery, hd, ho]

/-- What a CQE during admission wakes. -/
theorem wakeUnfinished_eq :
    wakeUnfinished (st, ws) =
      ({ st with admissionWaker := if st.iteratorFinished then st.admissionWaker else none },
        ws ++ if st.iteratorFinished then [] else st.admissionWaker.toList) := by
  unfold wakeUnfinished
  split_ifs <;> simp [takeAdmission]

/-- What buffering an original CQE changes. -/
theorem bufferOriginal_eq :
    bufferOriginal limit c (st, ws) =
      (({ st with
          normal := if buffers limit st then st.normal ++ [c] else st.normal
          normalOverflow := st.normalOverflow || overflows limit st
          delivery := if overflows limit st && !st.normalOverflow then .overflow else st.delivery
          normalWaker := if st.delivery = .opened then none else st.normalWaker },
        ws ++ if st.delivery = .opened then st.normalWaker.toList else []),
        overflows limit st && !st.normalOverflow) := by
  by_cases hd : st.delivery = .opened
  · by_cases hlt : st.normal.length < limit
    · simp [bufferOriginal, buffers, overflows, takeNormal, hd, hlt]
    · cases ho : st.normalOverflow <;>
        simp [bufferOriginal, buffers, overflows, takeNormal, hd, hlt, Nat.le_of_not_lt hlt, ho]
  · simp [bufferOriginal, buffers, overflows, hd]

/-- What counting a terminal original CQE changes. -/
theorem retireOriginal_eq :
    retireOriginal (st, ws) =
      ({ st with
          originalTerminal := st.originalTerminal + 1
          normalWaker := if st.originalTerminal + 1 = st.originals then none else st.normalWaker
          drainWaker :=
            if st.originalTerminal + 1 = st.originals ∧ st.cancelTerminal = st.cancels then none
            else st.drainWaker },
        ws ++ (if st.originalTerminal + 1 = st.originals then st.normalWaker.toList else []) ++
          if st.originalTerminal + 1 = st.originals ∧ st.cancelTerminal = st.cancels then
            st.drainWaker.toList
          else []) := by
  by_cases h1 : st.originalTerminal + 1 = st.originals <;>
    by_cases h2 : st.cancelTerminal = st.cancels <;>
      simp [retireOriginal, wakeDrain, takeNormal, drained, h1, h2]

/-- What buffering a cancellation CQE changes. -/
theorem bufferCancel_eq :
    bufferCancel limit c (st, ws) =
      ({ st with
          cancellations :=
            if st.delivery ≠ .detached ∧ st.cancellations.length < limit then
              st.cancellations ++ [c]
            else st.cancellations
          cancelOverflow :=
            st.cancelOverflow || (st.delivery ≠ .detached ∧ limit ≤ st.cancellations.length : Bool)
          cancelWaker := if st.delivery = .detached then st.cancelWaker else none },
        ws ++ if st.delivery = .detached then [] else st.cancelWaker.toList) := by
  by_cases hd : st.delivery = .detached
  · simp only [bufferCancel, hd, if_true, ne_eq, not_true_eq_false, false_and, if_false,
      decide_false, Bool.or_false, List.append_nil]
    rw [← hd]
  · by_cases hlt : st.cancellations.length < limit
    · simp [bufferCancel, takeCancel, hd, hlt]
    · simp [bufferCancel, takeCancel, hd, hlt, Nat.le_of_not_lt hlt]

/-- What counting a cancellation CQE changes. -/
theorem retireCancel_eq :
    retireCancel (st, ws) =
      ({ st with
          cancelTerminal := st.cancelTerminal + 1
          cancelWaker := if st.cancelTerminal + 1 = st.cancels then none else st.cancelWaker
          drainWaker :=
            if st.originalTerminal = st.originals ∧ st.cancelTerminal + 1 = st.cancels then none
            else st.drainWaker },
        ws ++ (if st.cancelTerminal + 1 = st.cancels then st.cancelWaker.toList else []) ++
          if st.originalTerminal = st.originals ∧ st.cancelTerminal + 1 = st.cancels then
            st.drainWaker.toList
          else []) := by
  by_cases h1 : st.cancelTerminal + 1 = st.cancels <;>
    by_cases h2 : st.originalTerminal = st.originals <;>
      simp [retireCancel, wakeDrain, takeCancel, drained, h1, h2]

/-- Everything an original CQE changes, at once. -/
theorem dispatchOriginal_inner :
    (dispatchOriginal limit c more (st, ws)).1.1 =
      { st with
        originalTerminal := if more then st.originalTerminal else st.originalTerminal + 1
        normal := if buffers limit st then st.normal ++ [c] else st.normal
        normalOverflow := st.normalOverflow || overflows limit st
        delivery := if overflows limit st && !st.normalOverflow then .overflow else st.delivery
        admissionWaker := if st.iteratorFinished then st.admissionWaker else none
        normalWaker :=
          if st.delivery = .opened ∨ (more = false ∧ st.originalTerminal + 1 = st.originals) then
            none
          else st.normalWaker
        drainWaker :=
          if more = false ∧ st.originalTerminal + 1 = st.originals ∧
              st.cancelTerminal = st.cancels then none
          else st.drainWaker } := by
  unfold dispatchOriginal
  rw [wakeUnfinished_eq, bufferOriginal_eq]
  cases more with
  | true => simp [buffers, overflows]
  | false =>
    simp only [Bool.false_eq_true, if_false, retireOriginal_eq, true_and]
    by_cases hd : st.delivery = .opened <;>
      by_cases ht : st.originalTerminal + 1 = st.originals <;> simp [buffers, overflows, hd, ht]

/-- Whom an original CQE wakes. -/
theorem dispatchOriginal_wakes :
    (dispatchOriginal limit c more (st, ws)).1.2 =
      ws ++ (if st.iteratorFinished then [] else st.admissionWaker.toList) ++
        (if st.delivery = .opened ∨ (more = false ∧ st.originalTerminal + 1 = st.originals) then
          st.normalWaker.toList else []) ++
        if more = false ∧ st.originalTerminal + 1 = st.originals ∧
            st.cancelTerminal = st.cancels then st.drainWaker.toList else [] := by
  unfold dispatchOriginal
  rw [wakeUnfinished_eq, bufferOriginal_eq]
  cases more with
  | true => simp
  | false =>
    simp only [Bool.false_eq_true, if_false, retireOriginal_eq, true_and]
    by_cases hd : st.delivery = .opened <;>
      by_cases ht : st.originalTerminal + 1 = st.originals <;> simp [hd, ht]

/-- Whom a cancellation CQE wakes. -/
theorem dispatchCancel_wakes :
    (dispatchCancel limit c (st, ws)).2 =
      ws ++ (if st.delivery ≠ .detached ∨ st.cancelTerminal + 1 = st.cancels then
          st.cancelWaker.toList else []) ++
        if st.originalTerminal = st.originals ∧ st.cancelTerminal + 1 = st.cancels then
          st.drainWaker.toList else [] := by
  unfold dispatchCancel
  rw [bufferCancel_eq, retireCancel_eq]
  by_cases hd : st.delivery = .detached <;>
    by_cases ht : st.cancelTerminal + 1 = st.cancels <;> simp [hd, ht]

/-- Everything a cancellation CQE changes, at once. -/
theorem dispatchCancel_inner :
    (dispatchCancel limit c (st, ws)).1 =
      { st with
        cancelTerminal := st.cancelTerminal + 1
        cancellations :=
          if st.delivery ≠ .detached ∧ st.cancellations.length < limit then
            st.cancellations ++ [c]
          else st.cancellations
        cancelOverflow :=
          st.cancelOverflow || (st.delivery ≠ .detached ∧ limit ≤ st.cancellations.length : Bool)
        cancelWaker :=
          if st.delivery ≠ .detached ∨ st.cancelTerminal + 1 = st.cancels then none
          else st.cancelWaker
        drainWaker :=
          if st.originalTerminal = st.originals ∧ st.cancelTerminal + 1 = st.cancels then none
          else st.drainWaker } := by
  unfold dispatchCancel
  rw [bufferCancel_eq, retireCancel_eq]
  by_cases hd : st.delivery = .detached <;>
    by_cases ht : st.cancelTerminal + 1 = st.cancels <;> simp [hd, ht]

end Fields

end Nosv.IoUring
